import Contiki.Rpl.DaoRoutes
import Contiki.Rpl.DroBounds

/-!
# Hop-by-hop routes

A node on a hop-by-hop route stores the next hop of a reply before it passes the reply on.  Where it
has a route that covers the target already, `dro_input` drops the reply when the next hops agree, and
passes it on without a change when they differ.

`droInput_keepsRoute_iff` says that a reply is dealt with as it should be exactly when there is no such
route.
-/

namespace Contiki
namespace Node
variable {cfg : Config} {s s' : Node cfg} {dst : IpAddr} {dro : Dro} {packets : List Packet}

/-- A hop-by-hop reply at a node of its route: the address at position Rem is an own one. -/
structure OnHopByHopRoute (s : Node cfg) (dro : Dro) : Prop where
  hopByHop : dro.hopByHop = true
  dodagId : s.isMyAddr dro.dodagId = false
  rem : dro.rem ≠ 0
  address : s.isMyAddr (dro.address dro.rem) = true

/-- What a node of the route does with a reply: a reply that is passed on leaves the search at its next
hop, one that repeats what the search finds is passed on, and one that contradicts it is dropped. -/
structure KeepsRoute (s : Node cfg) (dro : Dro) (packets : List Packet) (s' : Node cfg) : Prop where
  forwarded : packets ≠ [] → s'.RoutesTo dro.target (droNexthop dro)
  repeated : s.RoutesTo dro.target (droNexthop dro) → packets ≠ []
  conflicting : ∀ i, uipDs6RouteLookup s.routingTable dro.target = some i →
    (s.routingTable i).nexthop ≠ droNexthop dro → packets = [] ∧ s'.routingTable = s.routingTable

/-- Without a route to the target, the hop-by-hop route is what the search finds. -/
lemma rplP2pAddHbhRoute_routesTo (hnb : 0 < cfg.routeNb) (instanceId : UInt8)
    (dodagid target nexthop : IpAddr) (hnone : uipDs6RouteLookup s.routingTable target = none) :
    (s.rplP2pAddHbhRoute instanceId dodagid target nexthop).2.RoutesTo target nexthop := by
  obtain ⟨i, t, hadd, hlookup, hnext⟩ :=
    rplAddRoute_found hnb s (s.rplGetDag instanceId (some dodagid)) hnone nexthop
  simp only [rplP2pAddHbhRoute, hadd]
  exact (setRoute_state_routesTo t i _ target nexthop).mpr ⟨i, hlookup, hnext⟩

/-- A node of the route, by what the search for the target finds. -/
lemma droAtIntermediate_onRoute (h : s.OnHopByHopRoute dro) :
    s.droAtIntermediate dst dro =
      (uipDs6RouteLookup s.routingTable dro.target).elim
        (let t := (s.rplP2pAddHbhRoute dro.instanceId dro.dodagId dro.target (droNexthop dro)).2
         ([⟨uipDs6SelectSrc t.addrList dst, dst, .dro, dro.forwarded⟩], t))
        fun i =>
          if (s.routingTable i).nexthop = droNexthop dro then ([], s)
          else ([⟨uipDs6SelectSrc s.addrList dst, dst, .dro, dro.forwarded⟩], s) := by
  simp only [droAtIntermediate, h.rem, h.address, not_true, or_self, if_false, droStoreHop,
    h.hopByHop, if_true]
  cases hlookup : uipDs6RouteLookup s.routingTable dro.target with
  | none => rfl
  | some i =>
      by_cases hsame : (s.routingTable i).nexthop = droNexthop dro
      · simp [hsame]
      · simp [hsame]

/-- The stop bit is evaluated before, and does not touch the routes. -/
lemma droInput_onHopByHopRoute (h : s.OnHopByHopRoute dro)
    (hinput : s.droInput dst dro = .ok (packets, s')) :
    ∃ t : Node cfg, t.routingTable = s.routingTable ∧ t.OnHopByHopRoute dro ∧
      t.droAtIntermediate dst dro = (packets, s') := by
  obtain ⟨t, hstop, hinput⟩ := bind_eq_ok.mp hinput
  have hspec := droStop_spec hstop
  have haddr : t.addrList = s.addrList := by rw [hspec]
  have hmine : ∀ a, t.isMyAddr a = s.isMyAddr a := fun a => by rw [isMyAddr, isMyAddr, haddr]
  refine ⟨t, by rw [hspec], ⟨h.hopByHop, ?_, h.rem, ?_⟩, ?_⟩
  · rw [hmine]
    exact h.dodagId
  · rw [hmine]
    exact h.address
  · simp only [hmine, h.dodagId, Bool.false_eq_true, if_false] at hinput
    exact Except.ok.inj hinput

/-- **Hop-by-hop routes.**  A reply that is passed on leaves the search at its next hop, a repeated one
is passed on and a contradicting one is dropped, if and only if the search finds nothing for the
target. -/
theorem droInput_keepsRoute_iff (hnb : 0 < cfg.routeNb) (h : s.OnHopByHopRoute dro)
    (hinput : s.droInput dst dro = .ok (packets, s')) :
    s.KeepsRoute dro packets s' ↔ uipDs6RouteLookup s.routingTable dro.target = none := by
  obtain ⟨t, htable, hroute, hintermediate⟩ := droInput_onHopByHopRoute h hinput
  rw [droAtIntermediate_onRoute hroute, htable] at hintermediate
  constructor
  · intro hkeeps
    cases hlookup : uipDs6RouteLookup s.routingTable dro.target with
    | none => rfl
    | some i =>
        simp only [hlookup, Option.elim_some] at hintermediate
        -- the code does the one thing where it should do the other
        by_cases hsame : (s.routingTable i).nexthop = droNexthop dro
        · rw [if_pos hsame] at hintermediate
          exact absurd (congrArg Prod.fst hintermediate).symm (hkeeps.repeated ⟨i, hlookup, hsame⟩)
        · rw [if_neg hsame] at hintermediate
          have hdropped := (hkeeps.conflicting i hlookup hsame).1
          have hforwarded := congrArg Prod.fst hintermediate
          rw [hdropped] at hforwarded
          cases hforwarded
  · intro hnone
    simp only [hnone, Option.elim_none] at hintermediate
    have hs' : (t.rplP2pAddHbhRoute dro.instanceId dro.dodagId dro.target (droNexthop dro)).2 = s' :=
      congrArg Prod.snd hintermediate
    refine ⟨fun _ => ?_, fun hold => ?_, fun i hi => ?_⟩
    · rw [← hs']
      exact rplP2pAddHbhRoute_routesTo hnb _ _ _ _ (by rw [htable, hnone])
    · obtain ⟨i, hi, -⟩ := hold
      rw [hnone] at hi
      cases hi
    · rw [hnone] at hi
      cases hi

/-! ## A reply that is repeated -/

/-- A hop-by-hop reply of the node 5 to the node 1, with the node 3 as the only one between. -/
def hopByHopReply : Dro :=
  .ofBuffer (fun i => ([0x81, 0, 0, 0] ++ (nodeAddr 1).u8 ++ [10, 4, 0x4f, 1, 5, 3]).getD i 0) 26

lemma boot_onHopByHopRoute : (boot 3).OnHopByHopRoute hopByHopReply where
  hopByHop := by decide
  dodagId := by decide
  rem := by decide
  address := by decide

theorem droInput_keepsRoute_iff_new : ∃ packets s',
    (boot 3).droInput linklocalRplnodesMcast hopByHopReply = .ok (packets, s') ∧
      (boot 3).KeepsRoute hopByHopReply packets s' := by
  cases hinput : (boot 3).droInput linklocalRplnodesMcast hopByHopReply with
  | error f =>
      have hsafe : ((boot 3).droInput linklocalRplnodesMcast hopByHopReply).isOk = true := by
        decide +kernel
      rw [hinput] at hsafe
      cases hsafe
  | ok r =>
      exact ⟨r.1, r.2, rfl, (droInput_keepsRoute_iff (by decide) boot_onHopByHopRoute hinput).mpr
        (by decide)⟩

/-- The same reply again is dropped. -/
theorem not_droInput_keepsRoute : ¬∀ s : Node .default, s.Reachable → ∀ dst dro packets s',
    s.OnHopByHopRoute dro → s.droInput dst dro = .ok (packets, s') → s.KeepsRoute dro packets s' := by
  intro hall
  let lookup : Node .default → Option IpAddr := fun s =>
    (uipDs6RouteLookup s.routingTable hopByHopReply.target).map fun i => (s.routingTable i).nexthop
  let sent : Node .default → Option ℕ := fun s =>
    (s.droInput linklocalRplnodesMcast hopByHopReply).toOption.map fun r => r.1.length
  obtain ⟨s, hs, hobs⟩ := exists_reachable 3 [.droInput linklocalRplnodesMcast hopByHopReply]
    (fun s => decide (s.isMyAddr hopByHopReply.dodagId = false ∧
      s.isMyAddr (hopByHopReply.address hopByHopReply.rem) = true ∧
      lookup s = some (droNexthop hopByHopReply) ∧ sent s = some 0)) (a := true) (by decide +kernel)
  obtain ⟨hdodagId, haddress, hlookup, hsent⟩ := of_decide_eq_true hobs
  obtain ⟨i, hi, hnext⟩ := Option.map_eq_some_iff.mp hlookup
  cases hinput : s.droInput linklocalRplnodesMcast hopByHopReply with
  | error f =>
      simp only [sent, hinput] at hsent
      cases hsent
  | ok r =>
      simp only [sent, hinput] at hsent
      have hkeeps := hall s hs linklocalRplnodesMcast hopByHopReply r.1 r.2
        ⟨boot_onHopByHopRoute.hopByHop, hdodagId, boot_onHopByHopRoute.rem, haddress⟩ hinput
      exact hkeeps.repeated ⟨i, hi, hnext⟩ (List.length_eq_zero_iff.mp (Option.some.inj hsent))

end Node
end Contiki

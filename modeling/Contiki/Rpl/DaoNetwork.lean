import Contiki.Lib.Forwarding
import Contiki.Rpl.DaoOutput

/-!
# Networks that exchange DAOs

Nodes send DAOs when their timers fire and hand on those they receive, and every DAO that was sent may be
lost, delayed, and delivered any number of times.  Parents may change at any time.

The invariant `Sound` says that every route leads to its target, and so does every DAO in the air from the
node that sent it: a node sends a DAO on only when it has a route itself.  A new route is added where there
was none, so what led to a target goes on to do so (`Arrives.mono`).
-/

namespace Contiki

/-! ## What a DAO does to the routing table -/

section Tables
variable {m : ℕ} {δ : Type} {table table' table'' : Fin m → Ds6Route δ} {a nexthop : IpAddr}

/-- Two routes are the same but for what RPL keeps with them. -/
structure SameHop (r r' : Ds6Route δ) : Prop where
  element : r'.toDs6Element = r.toDs6Element
  length : r'.length = r.length
  nexthop : r'.nexthop = r.nexthop

/-- A host route fills an entry that was free. -/
structure FreshRoute (table table' : Fin m → Ds6Route δ) (a nexthop : IpAddr) (i : Fin m) : Prop where
  free : (table i).isused = false
  others : ∀ j, j ≠ i → SameHop (table j) (table' j)
  isused : (table' i).isused = true
  ipaddr : (table' i).ipaddr = a
  length : (table' i).length = 128
  nexthop : (table' i).nexthop = nexthop

lemma SameHop.rfl {r : Ds6Route δ} : SameHop r r := ⟨Eq.refl _, Eq.refl _, Eq.refl _⟩

lemma SameHop.trans {r r' r'' : Ds6Route δ} (h : SameHop r r') (h' : SameHop r' r'') : SameHop r r'' :=
  ⟨h'.element.trans h.element, h'.length.trans h.length, h'.nexthop.trans h.nexthop⟩

lemma FreshRoute.trans {i : Fin m} (h : FreshRoute table table' a nexthop i)
    (h' : ∀ j, SameHop (table' j) (table'' j)) : FreshRoute table table'' a nexthop i where
  free := h.free
  others j hj := (h.others j hj).trans (h' j)
  isused := (congrArg Ds6Element.isused (h' i).element).trans h.isused
  ipaddr := (congrArg Ds6Element.ipaddr (h' i).element).trans h.ipaddr
  length := (h' i).length.trans h.length
  nexthop := (h' i).nexthop.trans h.nexthop

/-- A search finds what it found before. -/
lemma lookup_sameRoutes (h : ∀ i, SameHop (table i) (table' i)) (a : IpAddr) :
    uipDs6RouteLookup table' a = uipDs6RouteLookup table a :=
  Node.uipDs6RouteLookup_congr fun i => ⟨(h i).element, (h i).length⟩

/-- All routes are host routes, and no two of them are for one address. -/
structure HostRoutes (table : Fin m → Ds6Route δ) : Prop where
  length : ∀ i, (table i).isused = true → (table i).length = 128
  unique : ∀ i j, (table i).isused = true → (table j).isused = true → (table i).ipaddr = (table j).ipaddr → i = j

lemma HostRoutes.matches_iff (h : HostRoutes table) {i : Fin m} :
    RouteMatches table a i ↔ (table i).isused = true ∧ (table i).ipaddr = a := by
  refine and_congr_right fun hused => ?_
  rw [h.length i hused]
  exact (IpAddr.uipIpaddrPrefixcmp_128 _ _).trans eq_comm

/-- The search finds the route for an address. -/
lemma HostRoutes.lookup_iff (h : HostRoutes table) {i : Fin m} :
    uipDs6RouteLookup table a = some i ↔ (table i).isused = true ∧ (table i).ipaddr = a := by
  constructor
  · intro hi
    exact h.matches_iff.mp (uipDs6RouteLookup_eq_some hi).1
  · intro hi
    refine Node.uipDs6RouteLookup_unique (h.matches_iff.mpr hi) fun j hji hj => hji ?_
    obtain ⟨hused, haddr⟩ := h.matches_iff.mp hj
    exact h.unique j i hused hi.1 (haddr.trans hi.2.symm)

lemma HostRoutes.same (h : HostRoutes table) (hsame : ∀ i, SameHop (table i) (table' i)) : HostRoutes table' := by
  refine ⟨fun i hi => ?_, fun i j hi hj hij => ?_⟩
  · rw [(hsame i).element] at hi
    rw [(hsame i).length]
    exact h.length i hi
  · rw [(hsame i).element] at hi hij
    rw [(hsame j).element] at hj hij
    exact h.unique i j hi hj hij

lemma HostRoutes.fresh (h : HostRoutes table) {i : Fin m} (hfresh : FreshRoute table table' a nexthop i)
    (hnone : uipDs6RouteLookup table a = none) : HostRoutes table' := by
  have hnew : ∀ j, j ≠ i → (table' j).isused = true → (table' j).ipaddr ≠ a := by
    intro j hj hused haddr
    rw [(hfresh.others j hj).element] at hused haddr
    exact Option.some_ne_none j ((h.lookup_iff.mpr ⟨hused, haddr⟩).symm.trans hnone)
  refine ⟨fun j hj => ?_, fun j k hj hk hjk => ?_⟩
  · by_cases hji : j = i
    · exact hji ▸ hfresh.length
    · rw [(hfresh.others j hji).element] at hj
      rw [(hfresh.others j hji).length]
      exact h.length j hj
  · by_cases hji : j = i <;> by_cases hki : k = i
    · rw [hji, hki]
    · exact absurd (hjk.symm.trans (hji ▸ hfresh.ipaddr)) (hnew k hki hk)
    · exact absurd (hjk.trans (hki ▸ hfresh.ipaddr)) (hnew j hji hj)
    · rw [(hfresh.others j hji).element] at hj hjk
      rw [(hfresh.others k hki).element] at hk hjk
      exact h.unique j k hj hk hjk

/-- The search finds a new route, and what it found before. -/
lemma HostRoutes.lookup_fresh (h : HostRoutes table) {i : Fin m} (hfresh : FreshRoute table table' a nexthop i)
    (hnone : uipDs6RouteLookup table a = none) {b : IpAddr} {j : Fin m}
    (hj : uipDs6RouteLookup table b = some j) :
    uipDs6RouteLookup table' b = some j ∧ (table' j).nexthop = (table j).nexthop := by
  obtain ⟨hused, haddr⟩ := h.lookup_iff.mp hj
  have hne : j ≠ i := by
    rintro rfl
    exact Bool.false_ne_true (hfresh.free.symm.trans hused)
  have hsame := hfresh.others j hne
  refine ⟨(h.fresh hfresh hnone).lookup_iff.mpr ?_, hsame.nexthop⟩
  rw [hsame.element]
  exact ⟨hused, haddr⟩

end Tables

namespace Node
variable {cfg : Config} {s s' : Node cfg} {a sender : IpAddr} {lifetime : UInt8} {buffer : ℕ → UInt8}
  {bufferLength : UInt8} {stack : IpAddr}

lemma setRoute_state_same (s : Node cfg) (i : Fin cfg.routeNb) (state : RouteState cfg.DagRef) (j : Fin cfg.routeNb) :
    SameHop (s.routingTable j) ((s.setRoute i { s.routingTable i with state }).routingTable j) := by
  by_cases hj : j = i
  · subst hj
    simp only [setRoute_routingTable, Function.update_self]
    exact ⟨rfl, rfl, rfl⟩
  · simp only [setRoute_routingTable, Function.update_of_ne hj]
    exact .rfl

/-- A node accepts DAOs of an instance from a sender. -/
structure AcceptsDao (s : Node cfg) (instanceId : UInt8) (sender : IpAddr) (d : cfg.DagRef) : Prop where
  dag : s.rplGetDag instanceId none = some d
  unicast : sender.uipIsAddrMcast = false
  noLoop : s.daoLoop d sender = none

/-- What a DAO for an address does to a node that has room for a route. -/
structure DaoEffect (s : Node cfg) (instanceId : UInt8) (a sender : IpAddr) (lifetime : UInt8) (message : List UInt8)
    (reply : Option DaoReply) (s' : Node cfg) : Prop where
  addrList : s'.addrList = s.addrList
  routes : (∀ i, SameHop (s.routingTable i) (s'.routingTable i)) ∨
    uipDs6RouteLookup s.routingTable a = none ∧ ∃ i, FreshRoute s.routingTable s'.routingTable a sender i
  /-- What is sent on is the message, and then there is a route. -/
  forward : ∀ dst payload, reply = some (.forward dst payload) →
    payload = message ∧ uipDs6RouteLookup s'.routingTable a ≠ none
  /-- Where it is accepted and not a No-Path DAO there is a route, and it goes on to the preferred parent. -/
  accepted : lifetime ≠ zeroLifetime → ∀ d, s.AcceptsDao instanceId sender d →
    uipDs6RouteLookup s'.routingTable a ≠ none ∧
      ∀ p, (s.dagTable d).preferredParent = some p → reply = some (.forward (s.parent p).addr message)

lemma noPath_same (s : Node cfg) (rep : Option (Fin cfg.routeNb)) (i : Fin cfg.routeNb) :
    SameHop (s.routingTable i) ((s.noPath rep).routingTable i) := by
  unfold noPath
  cases rep with
  | none => exact .rfl
  | some rep =>
    dsimp only
    split_ifs
    · exact setRoute_state_same s rep _ i
    · exact .rfl

lemma noPath_addrList (s : Node cfg) (rep : Option (Fin cfg.routeNb)) : (s.noPath rep).addrList = s.addrList := by
  unfold noPath
  cases rep with
  | none => rfl
  | some rep =>
    dsimp only
    split_ifs <;> rfl

/-- Where the search finds nothing and there is room, a host route is added. -/
lemma rplAddRoute_fresh (hnone : uipDs6RouteLookup s.routingTable a = none)
    (hroom : ∃ i, (s.routingTable i).isused = false) (d : Option cfg.DagRef) (sender : IpAddr) :
    ∃ i table, s.rplAddRoute d a 128 sender = (some i, { s with routingTable := table }) ∧
      FreshRoute s.routingTable table a sender i := by
  obtain ⟨i, hfree, hadd⟩ := uipDs6RouteAdd_fresh (uipDs6RouteLookup_eq_none.mp hnone) hroom sender 0
  have hadded : s.addNewRoute a 128 sender = (some i, { s with
      routingTable := Function.update s.routingTable i
        { s.routingTable i with isused := true, ipaddr := a, length := 128, nexthop := sender, metric := 0 } }) := by
    simp only [addNewRoute, hadd]
  simp only [rplAddRoute, hnone, hadded]
  refine ⟨i, _, rfl, ?_⟩
  refine FreshRoute.trans ⟨hfree, fun j hj => ?_, ?_, ?_, ?_, ?_⟩ (setRoute_state_same _ i _)
  · simp only [Function.update_of_ne hj]
    exact .rfl
  all_goals simp only [Function.update_self]

/-- What is sent at the end: the message, or an acknowledgement. -/
lemma daoReply_forward {d : cfg.DagRef} {dst : IpAddr} {payload : List UInt8}
    (h : s.daoReply d buffer bufferLength sender = some (.forward dst payload)) :
    payload = bytesAt buffer 0 bufferLength.toNat := by
  unfold daoReply at h
  split at h
  · obtain ⟨-, rfl⟩ := DaoReply.forward.inj (Option.some.inj h)
    rfl
  · split_ifs at h
    cases Option.some.inj h

lemma daoReply_parent {d : cfg.DagRef} {p : cfg.ParentRef} (h : (s.dagTable d).preferredParent = some p) :
    s.daoReply d buffer bufferLength sender =
      some (.forward (s.parent p).addr (bytesAt buffer 0 bufferLength.toNat)) := by
  simp only [daoReply, h]

/-- The end of `dao_input`, where the DAO has a route. -/
lemma DaoEffect.ofRoute {d : cfg.DagRef} (hdag : s.rplGetDag (buffer 0) none = some d) {table}
    (hs' : s' = { s with routingTable := table })
    (hroutes : (∀ i, SameHop (s.routingTable i) (s'.routingTable i)) ∨
      uipDs6RouteLookup s.routingTable a = none ∧ ∃ i, FreshRoute s.routingTable s'.routingTable a sender i)
    (hfound : uipDs6RouteLookup s'.routingTable a ≠ none) :
    s.DaoEffect (buffer 0) a sender lifetime (bytesAt buffer 0 bufferLength.toNat)
      (if (!sender.uipIsAddrMcast) = true then s'.daoReply d buffer bufferLength sender else none) s' where
  addrList := by rw [hs']
  routes := hroutes
  forward dst payload h := by
    split_ifs at h
    exact ⟨daoReply_forward h, hfound⟩
  accepted _ e h := by
    obtain rfl := Option.some.inj (hdag.symm.trans h.dag)
    refine ⟨hfound, fun p hparent => ?_⟩
    subst hs'
    rw [if_pos (by rw [h.unicast]; rfl)]
    exact daoReply_parent hparent

/-- The spec of `dao_input` for a DAO whose target is an address. -/
lemma daoInput_effect (s : Node cfg) (sender : IpAddr)
    (hoptions : ∀ dl, daoOptions buffer bufferLength stack dl = .ok ⟨a, 128, lifetime⟩)
    (hroom : uipDs6RouteLookup s.routingTable a = none → ∃ i, (s.routingTable i).isused = false) :
    ∃ reply s', s.daoInput stack sender buffer bufferLength = .ok (reply, s') ∧
      s.DaoEffect (buffer 0) a sender lifetime (bytesAt buffer 0 bufferLength.toNat) reply s' := by
  unfold daoInput
  cases hdag : s.rplGetDag (buffer 0) none with
  | none =>
    refine ⟨none, s, rfl, rfl, .inl fun _ => .rfl, fun _ _ h => absurd h.symm (Option.some_ne_none _), ?_⟩
    exact fun _ d h => absurd (h.dag.symm.trans hdag) (Option.some_ne_none d)
  | some d =>
    simp only [hoptions, bind, Except.bind]
    by_cases hlifetime : lifetime = zeroLifetime
    · rw [if_pos hlifetime]
      exact ⟨none, _, rfl, noPath_addrList s _, .inl (noPath_same s _),
        fun _ _ h => absurd h.symm (Option.some_ne_none _), fun hne => absurd hlifetime hne⟩
    · rw [if_neg hlifetime]
      cases hcheck : (if (!sender.uipIsAddrMcast) = true then s.daoLoop d sender else none) with
      | some p =>
        refine ⟨none, _, rfl, rfl, .inl fun _ => .rfl, fun _ _ h => absurd h.symm (Option.some_ne_none _), ?_⟩
        intro _ e h
        obtain rfl := Option.some.inj (hdag.symm.trans h.dag)
        rw [h.noLoop, ite_self] at hcheck
        exact absurd hcheck.symm (Option.some_ne_none p)
      | none =>
        simp only [daoRoute]
        cases hlookup : uipDs6RouteLookup s.routingTable a with
        | some rep =>
          have hsame := setRoute_state_same s rep
            { (s.routingTable rep).state with
              lifetime := (s.dagTable d).rplLifetime lifetime
              learnedFrom := if (!sender.uipIsAddrMcast) = true then rplRouteFromUnicastDao
                else rplRouteFromMulticastDao }
          refine ⟨_, _, rfl, .ofRoute hdag rfl (.inl hsame) ?_⟩
          rw [lookup_sameRoutes hsame, hlookup]
          exact Option.some_ne_none rep
        | none =>
          obtain ⟨rep, table, hadd, hfresh⟩ := rplAddRoute_fresh hlookup (hroom hlookup) (some d) sender
          simp only [hadd]
          have hfresh' := hfresh.trans (setRoute_state_same { s with routingTable := table } rep
            { (table rep).state with
              lifetime := (s.dagTable d).rplLifetime lifetime
              learnedFrom := if (!sender.uipIsAddrMcast) = true then rplRouteFromUnicastDao
                else rplRouteFromMulticastDao })
          refine ⟨_, _, rfl, .ofRoute hdag rfl (.inr ⟨hlookup, rep, hfresh'⟩) fun hno => ?_⟩
          refine uipDs6RouteLookup_eq_none.mp hno rep ⟨hfresh'.isused, ?_⟩
          rw [hfresh'.ipaddr]
          exact IpAddr.uipIpaddrPrefixcmp_self _ _

end Node

/-! ## Networks -/

/-- The addresses of `n` nodes: every node may use its own, and no address belongs to two nodes. -/
structure AddressPlan (cfg : Config) (n : ℕ) where
  list : Fin n → Fin cfg.addrNb → Ds6Addr
  addressed : ∀ v, Addressed (list v)
  unique : ∀ v w a, uipDs6IsMyAddr (list v) a = true → uipDs6IsMyAddr (list w) a = true → v = w

/-- Nodes, and the DAOs that were ever sent. -/
structure DaoNet (cfg : Config) (n : ℕ) where
  node : Fin n → DaoNode cfg
  air : List DaoFrame

/-- What may happen in a network. -/
inductive DaoEvent (cfg : Config) (n : ℕ)
  | daoTimer (v : Fin n) (d : cfg.DagRef)
  /-- `dao_output`, as parent selection calls it -/
  | daoOutput (v : Fin n) (parent : Option cfg.ParentRef) (lifetime : UInt8)
  /-- a DAO is received; `buffer` is what stands in the packet buffer, `stack` on the stack -/
  | deliver (v : Fin n) (f : DaoFrame) (buffer : ℕ → UInt8) (stack : IpAddr)
  /-- another event of a node -/
  | other (v : Fin n) (e : Event cfg)

namespace DaoNet
variable {cfg : Config} {n : ℕ}

/-- The state after a node has done something, and may have sent a DAO. -/
def act (s : DaoNet cfg n) (v : Fin n) (r : Option DaoFrame × DaoNode cfg) : DaoNet cfg n :=
  { node := Function.update s.node v r.2, air := r.1.toList ++ s.air }

/-- One event. -/
def step (daoAck : Bool) (s : DaoNet cfg n) : DaoEvent cfg n → Except Fault (DaoNet cfg n)
  | .daoTimer v d => ((s.node v).handleDaoTimer daoAck d).map fun r => s.act v (r.1, r.2.2)
  | .daoOutput v parent lifetime => ((s.node v).daoOutput daoAck parent lifetime).map (s.act v)
  | .deliver v f buffer stack =>
    ((s.node v).receiveDao stack f.src buffer (UInt8.ofNat f.payload.length)).map (s.act v)
  | .other v e => ((s.node v).step e).map fun r => s.act v (none, { s.node v with toNode := r.2 })

/-- A DAO that is delivered was sent, to the node or to all nodes; other events leave the routing table and the
addresses of the node alone. -/
def Admissible (s : DaoNet cfg n) : DaoEvent cfg n → Prop
  | .deliver v f buffer _ =>
    f ∈ s.air ∧ Holds buffer 0 f.payload ∧ ((s.node v).isMyAddr f.dst = true ∨ f.dst.uipIsAddrMcast = true)
  | .other v e => ∀ packets t, (s.node v).step e = .ok (packets, t) →
      t.routingTable = (s.node v).routingTable ∧ t.addrList = (s.node v).addrList
  | _ => True

/-- At the beginning there are no routes, and no DAOs. -/
structure Started (plan : AddressPlan cfg n) (s : DaoNet cfg n) : Prop where
  addrList : ∀ v, (s.node v).addrList = plan.list v
  routes : ∀ v i, ((s.node v).routingTable i).isused = false
  air : s.air = []

end DaoNet

section Plan
variable {cfg : Config} {n : ℕ} (plan : AddressPlan cfg n) {v w : Fin n} {a : IpAddr}

/-- An address of a node. -/
def AddressPlan.Owns (a : IpAddr) (v : Fin n) : Prop := uipDs6IsMyAddr (plan.list v) a = true

/-- The node an address belongs to. -/
def AddressPlan.nodeOf (a : IpAddr) : Option (Fin n) :=
  (List.finRange n).find? fun v => uipDs6IsMyAddr (plan.list v) a

/-- Where a node sends what is for an address: the owner of the next hop of the route that it finds. -/
def DaoNet.nextHop (s : DaoNet cfg n) (a : IpAddr) (v : Fin n) : Option (Fin n) :=
  (uipDs6RouteLookup (s.node v).routingTable a).bind fun i =>
    plan.nodeOf ((s.node v).routingTable i).nexthop

/-- A DAO for the global address of a node, sent by a node from which the next hops lead to that address. -/
structure DaoNet.Carries (s : DaoNet cfg n) (f : DaoFrame) (a : IpAddr) (w : Fin n) : Prop where
  source : plan.Owns f.src w
  target : ∃ u, getGlobalAddr (plan.list u) = some a
  leads : Arrives (s.nextHop plan a) (plan.Owns a) w
  payload : ∃ instanceId flags sequence lifetime, f.payload = daoPayload instanceId flags sequence a lifetime ∧
    flags &&& rplDaoDFlag = 0

/-- The invariant of the network. -/
structure DaoNet.Sound (s : DaoNet cfg n) : Prop where
  addrList : ∀ v, (s.node v).addrList = plan.list v
  host : ∀ v, HostRoutes (s.node v).routingTable
  target : ∀ v i, ((s.node v).routingTable i).isused = true →
    ∃ u, getGlobalAddr (plan.list u) = some ((s.node v).routingTable i).ipaddr
  leads : ∀ v i, ((s.node v).routingTable i).isused = true →
    Arrives (s.nextHop plan ((s.node v).routingTable i).ipaddr) (plan.Owns ((s.node v).routingTable i).ipaddr) v
  air : ∀ f ∈ s.air, ∃ a w, s.Carries plan f a w

variable {plan}

lemma AddressPlan.nodeOf_eq (h : plan.Owns a v) : plan.nodeOf a = some v := by
  obtain ⟨w, hw⟩ : ∃ w, plan.nodeOf a = some w :=
    Option.isSome_iff_exists.mp (List.find?_isSome.mpr ⟨v, List.mem_finRange v, h⟩)
  have hown : uipDs6IsMyAddr (plan.list w) a = true := List.find?_some (p := fun v => uipDs6IsMyAddr (plan.list v) a) hw
  rw [hw, plan.unique v w a h hown]

namespace DaoNet
variable {s s' : DaoNet cfg n}

/-- A table without a route for the address of a node has room, if there are as many entries as nodes. -/
lemma Sound.room (h : s.Sound plan) (hn : n ≤ cfg.routeNb) {u : Fin n} (ha : getGlobalAddr (plan.list u) = some a)
    (v : Fin n) (hnone : uipDs6RouteLookup (s.node v).routingTable a = none) :
    ∃ i, ((s.node v).routingTable i).isused = false := by
  by_contra hfull
  have hused : ∀ i, ((s.node v).routingTable i).isused = true := fun i =>
    Bool.eq_true_of_not_eq_false fun hi => hfull ⟨i, hi⟩
  choose node hnode using fun i => h.target v i (hused i)
  -- the targets are nodes, each another one, and the node of the address is none of them
  have hinj : Function.Injective node := by
    intro i j hij
    have haddr := Option.some.inj ((hnode i).symm.trans (hij ▸ hnode j))
    exact (h.host v).unique i j (hused i) (hused j) haddr
  have hmiss : u ∉ Set.range node := by
    rintro ⟨i, rfl⟩
    have haddr := Option.some.inj ((hnode i).symm.trans ha)
    exact Option.some_ne_none i (((h.host v).lookup_iff.mpr ⟨hused i, haddr⟩).symm.trans hnone)
  have hcard := Fintype.card_lt_of_injective_of_notMem node hinj hmiss
  simp only [Fintype.card_fin] at hcard
  omega

lemma act_node_self (r : Option DaoFrame × DaoNode cfg) : (s.act v r).node v = r.2 := Function.update_self ..

lemma act_node_of_ne (r : Option DaoFrame × DaoNode cfg) (hw : w ≠ v) : (s.act v r).node w = s.node w :=
  Function.update_of_ne hw ..

lemma nextHop_act_of_ne {o : Option DaoFrame} {t : DaoNode cfg} (hw : w ≠ v) (a : IpAddr) :
    (s.act v (o, t)).nextHop plan a w = s.nextHop plan a w := by
  simp only [nextHop, act, Function.update_of_ne hw]

lemma nextHop_act_self {o : Option DaoFrame} {t : DaoNode cfg} (a : IpAddr) :
    (s.act v (o, t)).nextHop plan a v = (uipDs6RouteLookup t.routingTable a).bind fun i =>
      plan.nodeOf (t.routingTable i).nexthop := by
  simp only [nextHop, act, Function.update_self]

/-- What a node has to keep for the invariant: routes stay, and a route that is new leads to its target. -/
lemma Sound.act (h : s.Sound plan) {t : DaoNode cfg} (haddr : t.addrList = (s.node v).addrList)
    (hhost : HostRoutes t.routingTable)
    (hstay : ∀ a i, uipDs6RouteLookup (s.node v).routingTable a = some i →
      uipDs6RouteLookup t.routingTable a = some i ∧
        (t.routingTable i).nexthop = ((s.node v).routingTable i).nexthop)
    (hnew : ∀ i, (t.routingTable i).isused = true →
      uipDs6RouteLookup (s.node v).routingTable (t.routingTable i).ipaddr = none →
      (∃ u, getGlobalAddr (plan.list u) = some (t.routingTable i).ipaddr) ∧
        ∃ w, plan.nodeOf (t.routingTable i).nexthop = some w ∧
          Arrives (s.nextHop plan (t.routingTable i).ipaddr) (plan.Owns (t.routingTable i).ipaddr) w) :
    (s.act v (none, t)).Sound plan := by
  have hmono : ∀ a w x, s.nextHop plan a w = some x → (s.act v (none, t)).nextHop plan a w = some x := by
    intro a w x hx
    by_cases hw : w = v
    · subst hw
      obtain ⟨i, hi, hx⟩ := Option.bind_eq_some_iff.mp hx
      obtain ⟨hi', hnext⟩ := hstay a i hi
      rw [nextHop_act_self, hi', Option.bind_some, hnext, hx]
    · rwa [nextHop_act_of_ne hw]
  have hlookup : ∀ i, (t.routingTable i).isused = true →
      uipDs6RouteLookup t.routingTable (t.routingTable i).ipaddr = some i := fun i hi =>
    hhost.lookup_iff.mpr ⟨hi, rfl⟩
  -- a route of the node that acts was there before, or is new
  have hself : ∀ i, (t.routingTable i).isused = true →
      (∃ u, getGlobalAddr (plan.list u) = some (t.routingTable i).ipaddr) ∧
        Arrives ((s.act v (none, t)).nextHop plan (t.routingTable i).ipaddr) (plan.Owns (t.routingTable i).ipaddr) v := by
    intro i hi
    cases hold : uipDs6RouteLookup (s.node v).routingTable (t.routingTable i).ipaddr with
    | some j =>
      obtain rfl := Option.some.inj ((hstay _ j hold).1.symm.trans (hlookup i hi))
      obtain ⟨hused, hsame⟩ := (h.host v).lookup_iff.mp hold
      have htarget := h.target v j hused
      have hleads := h.leads v j hused
      rw [hsame] at htarget hleads
      exact ⟨htarget, hleads.mono (hmono _)⟩
    | none =>
      obtain ⟨htarget, w, hw, hleads⟩ := hnew i hi hold
      refine ⟨htarget, .hop ?_ (hleads.mono (hmono _))⟩
      rw [nextHop_act_self, hlookup i hi, Option.bind_some, hw]
  have hother : ∀ w, w ≠ v → (s.act v (none, t)).node w = s.node w := fun w hw => act_node_of_ne _ hw
  have hnode : (s.act v (none, t)).node v = t := act_node_self _
  refine ⟨fun w => ?_, fun w => ?_, fun w i => ?_, fun w i => ?_, fun f hf => ?_⟩
  · by_cases hw : w = v
    · rw [hw, hnode, haddr, h.addrList]
    · rw [hother w hw, h.addrList]
  · by_cases hw : w = v
    · rwa [hw, hnode]
    · rw [hother w hw]
      exact h.host w
  · by_cases hw : w = v
    · rw [hw, hnode]
      exact fun hi => (hself i hi).1
    · rw [hother w hw]
      exact h.target w i
  · by_cases hw : w = v
    · rw [hw, hnode]
      exact fun hi => (hself i hi).2
    · rw [hother w hw]
      exact fun hi => (h.leads w i hi).mono (hmono _)
  · obtain ⟨a, w, hsrc, htarget, hleads, hpayload⟩ := h.air f hf
    exact ⟨a, w, hsrc, htarget, hleads.mono (hmono a), hpayload⟩

/-- A node that keeps its routes. -/
lemma Sound.act_same (h : s.Sound plan) {t : DaoNode cfg} (haddr : t.addrList = (s.node v).addrList)
    (hsame : ∀ i, SameHop ((s.node v).routingTable i) (t.routingTable i)) : (s.act v (none, t)).Sound plan := by
  refine h.act haddr ((h.host v).same hsame) (fun a i hi => ⟨(lookup_sameRoutes hsame a).trans hi, (hsame i).nexthop⟩)
    fun i hi hnone => ?_
  rw [(hsame i).element] at hi hnone
  exact absurd (((h.host v).lookup_iff.mpr ⟨hi, rfl⟩).symm.trans hnone) (Option.some_ne_none i)

/-- A node that adds a route to the sender of a DAO. -/
lemma Sound.act_fresh (h : s.Sound plan) {t : DaoNode cfg} {f : DaoFrame} (hf : s.Carries plan f a w)
    (haddr : t.addrList = (s.node v).addrList) (hnone : uipDs6RouteLookup (s.node v).routingTable a = none)
    {i : Fin cfg.routeNb} (hfresh : FreshRoute (s.node v).routingTable t.routingTable a f.src i) :
    (s.act v (none, t)).Sound plan := by
  refine h.act haddr ((h.host v).fresh hfresh hnone) (fun b j hj => (h.host v).lookup_fresh hfresh hnone hj)
    fun j hj hno => ?_
  by_cases hji : j = i
  · subst hji
    rw [hfresh.ipaddr, hfresh.nexthop]
    exact ⟨hf.target, w, AddressPlan.nodeOf_eq hf.source, hf.leads⟩
  · rw [(hfresh.others j hji).element] at hj hno
    exact absurd (((h.host v).lookup_iff.mpr ⟨hj, rfl⟩).symm.trans hno) (Option.some_ne_none j)

/-- A DAO is sent by a node from which the next hops lead to its target. -/
lemma Sound.send {t : DaoNode cfg} (h : (s.act v (none, t)).Sound plan) {f : DaoFrame}
    (hf : (s.act v (none, t)).Carries plan f a w) : (s.act v (some f, t)).Sound plan := by
  refine ⟨h.addrList, h.host, h.target, h.leads, fun g hg => ?_⟩
  rcases List.mem_cons.mp hg with rfl | hg
  · exact ⟨a, w, hf.source, hf.target, hf.leads, hf.payload⟩
  · obtain ⟨b, x, hg⟩ := h.air g hg
    exact ⟨b, x, hg.source, hg.target, hg.leads, hg.payload⟩

/-! ## The events -/

/-- What `dao_output` does: the node stays as it was, and what it sends is for its own address. -/
lemma daoOutput_spec {daoAck : Bool} {t : DaoNode cfg} {parent : Option cfg.ParentRef} {lifetime : UInt8}
    {r : Option DaoFrame × DaoNode cfg} (h : t.daoOutput daoAck parent lifetime = .ok r) :
    r.2.toNode = t.toNode ∧ ∀ f, r.1 = some f → ∃ target dst instanceId sequence,
      getGlobalAddr t.addrList = some target ∧
        f = t.sendDao dst (daoPayload instanceId (if daoAck then rplDaoKFlag else 0) sequence target lifetime) := by
  unfold DaoNode.daoOutput at h
  cases htarget : getGlobalAddr t.addrList with
  | none =>
    rw [htarget] at h
    obtain rfl := Except.ok.inj h
    exact ⟨rfl, fun f hf => absurd hf.symm (Option.some_ne_none f)⟩
  | some target =>
    rw [htarget] at h
    cases parent with
    | none =>
      dsimp only at h
      split at h
      · obtain rfl := Except.ok.inj h
        exact ⟨rfl, fun f hf => absurd hf.symm (Option.some_ne_none f)⟩
      · rename_i d hdag
        obtain rfl := Except.ok.inj h
        refine ⟨rfl, fun f hf => ?_⟩
        exact ⟨target, linklocalRplnodesMcast, (t.dagTable d).instanceId, t.daoSequence + 1, rfl,
          (Option.some.inj hf).symm⟩
    | some p =>
      dsimp only at h
      cases hdag : (t.parent p).dag with
      | none =>
        rw [hdag] at h
        cases h
      | some d =>
        rw [hdag] at h
        obtain rfl := Except.ok.inj h
        refine ⟨rfl, fun f hf => ?_⟩
        exact ⟨target, (t.parent p).addr, (t.dagTable d).instanceId, t.daoSequence + 1, rfl,
          (Option.some.inj hf).symm⟩

lemma Sound.daoOutput (h : s.Sound plan) {daoAck : Bool} {parent : Option cfg.ParentRef} {lifetime : UInt8}
    {r : Option DaoFrame × DaoNode cfg} (hr : (s.node v).daoOutput daoAck parent lifetime = .ok r) :
    (s.act v r).Sound plan := by
  obtain ⟨o, t⟩ := r
  obtain ⟨hnode, hsent⟩ := daoOutput_spec hr
  dsimp only at hnode hsent
  have hkept : (s.act v (none, t)).Sound plan :=
    h.act_same (by rw [hnode]) fun i => by rw [hnode]; exact .rfl
  cases o with
  | none => exact hkept
  | some f =>
    obtain ⟨target, dst, instanceId, sequence, htarget, rfl⟩ := hsent f rfl
    rw [h.addrList] at htarget
    have hmine : plan.Owns target v := getGlobalAddr_mine htarget
    refine hkept.send ⟨?_, ⟨v, htarget⟩, .here hmine, ⟨_, _, _, _, rfl, by cases daoAck <;> decide⟩⟩
    change uipDs6IsMyAddr (plan.list v) (uipDs6SelectSrc (s.node v).addrList dst) = true
    rw [h.addrList]
    exact (plan.addressed v).selectSrc_mine dst

lemma Sound.deliver (h : s.Sound plan) (hn : n ≤ cfg.routeNb) {f : DaoFrame} (hf : f ∈ s.air)
    {buffer : ℕ → UInt8} (hbuffer : Holds buffer 0 f.payload) {stack : IpAddr} {r : Option DaoFrame × DaoNode cfg}
    (hr : (s.node v).receiveDao stack f.src buffer (UInt8.ofNat f.payload.length) = .ok r) :
    (s.act v r).Sound plan := by
  obtain ⟨a, w, hcarries⟩ := h.air f hf
  obtain ⟨u, htarget⟩ := hcarries.target
  obtain ⟨instanceId, flags, sequence, lifetime, hpayload, hflags⟩ := hcarries.payload
  have hlength : UInt8.ofNat f.payload.length = 30 := by rw [hpayload, length_daoPayload]; rfl
  rw [hlength] at hr
  have hmessage : bytesAt buffer 0 (30 : UInt8).toNat = f.payload := by
    have hall := bytesAt_of_holds hbuffer
    rwa [hpayload, length_daoPayload, ← hpayload] at hall
  obtain ⟨reply, t, hinput, haddr, hroutes, hforward, -⟩ := (s.node v).daoInput_effect f.src
    (fun dl => daoOptions_daoPayload (hpayload ▸ hbuffer) hflags stack dl) (h.room hn htarget v)
  rw [hmessage] at hforward
  unfold DaoNode.receiveDao at hr
  rw [hinput] at hr
  obtain rfl := Except.ok.inj hr
  let t' : DaoNode cfg := { s.node v with toNode := t }
  have hkept : (s.act v (none, t')).Sound plan := by
    rcases hroutes with hsame | ⟨hnone, i, hfresh⟩
    · exact h.act_same haddr hsame
    · exact h.act_fresh hcarries haddr hnone hfresh
  cases reply with
  | none => exact hkept
  | some reply =>
    cases reply with
    | ack dst payload => exact hkept
    | forward dst payload =>
      obtain ⟨rfl, hroute⟩ := hforward dst payload rfl
      obtain ⟨i, hi⟩ := Option.ne_none_iff_exists'.mp hroute
      have hnode : (s.act v (none, t')).node v = t' := act_node_self _
      have hhost := hkept.host v
      rw [hnode] at hhost
      obtain ⟨hused, haddr'⟩ := hhost.lookup_iff.mp hi
      have hleads := hkept.leads v i (by rw [hnode]; exact hused)
      rw [hnode, haddr'] at hleads
      refine hkept.send ⟨?_, hcarries.target, hleads, hcarries.payload⟩
      change uipDs6IsMyAddr (plan.list v) (uipDs6SelectSrc t.addrList dst) = true
      rw [haddr, h.addrList]
      exact (plan.addressed v).selectSrc_mine dst

/-- Every event keeps the invariant. -/
theorem Sound.step (h : s.Sound plan) (hn : n ≤ cfg.routeNb) {daoAck : Bool} {e : DaoEvent cfg n}
    (he : s.Admissible e) (hs : s.step daoAck e = .ok s') : s'.Sound plan := by
  cases e with
  | daoTimer v d =>
    obtain ⟨⟨o, postponed, t⟩, hr, rfl⟩ := exists_ok_of_map hs
    unfold DaoNode.handleDaoTimer at hr
    split_ifs at hr
    · cases hr
      exact h.act_same rfl fun _ => .rfl
    · split at hr
      · cases hr
        exact h.act_same rfl fun _ => .rfl
      · obtain ⟨r, hsent, hrest⟩ := exists_ok_of_map hr
        cases hrest
        exact h.daoOutput hsent
  | daoOutput v parent lifetime =>
    obtain ⟨r, hr, rfl⟩ := exists_ok_of_map hs
    exact h.daoOutput hr
  | deliver v f buffer stack =>
    obtain ⟨r, hr, rfl⟩ := exists_ok_of_map hs
    exact h.deliver hn he.1 he.2.1 hr
  | other v e =>
    obtain ⟨⟨packets, t⟩, hr, rfl⟩ := exists_ok_of_map hs
    obtain ⟨hroutes, haddr⟩ := he packets t hr
    exact h.act_same haddr fun i => by rw [hroutes]; exact .rfl

lemma Started.sound (h : s.Started plan) : s.Sound plan where
  addrList := h.addrList
  host v := ⟨fun i hi => absurd ((h.routes v i).symm.trans hi) Bool.false_ne_true,
    fun i _ hi => absurd ((h.routes v i).symm.trans hi) Bool.false_ne_true⟩
  target v i hi := absurd ((h.routes v i).symm.trans hi) Bool.false_ne_true
  leads v i hi := absurd ((h.routes v i).symm.trans hi) Bool.false_ne_true
  air _ hf := absurd (h.air ▸ hf) List.not_mem_nil

/-- The next hops lead to the target of a route in fewer hops than there are nodes. -/
lemma Sound.hops (h : s.Sound plan) (v : Fin n) (a : IpAddr) {i : Fin cfg.routeNb}
    (hroute : uipDs6RouteLookup (s.node v).routingTable a = some i) :
    ∃ k < n, ∃ w, hopsFrom (s.nextHop plan a) k v = some w ∧ plan.Owns a w := by
  obtain ⟨hused, rfl⟩ := (h.host v).lookup_iff.mp hroute
  have hhops := (h.leads v i hused).exists_hops
  rwa [Fintype.card_fin] at hhops

/-- **Downward routes lead to their targets.**  In every run of a network whose nodes have room for a route to each
node, whatever is lost, repeated or reordered and however parents change, whenever a node finds a route to an
address, the next hops lead from it to the node with that address, in fewer hops than there are nodes. -/
theorem routes_lead (plan : AddressPlan cfg n) (hn : n ≤ cfg.routeNb) (daoAck : Bool) {s : DaoNet cfg n}
    (h : Reaches (step daoAck) Admissible (Started plan) s) (v : Fin n) (a : IpAddr) {i : Fin cfg.routeNb}
    (hroute : uipDs6RouteLookup (s.node v).routingTable a = some i) :
    ∃ k < n, ∃ w, hopsFrom (s.nextHop plan a) k v = some w ∧ plan.Owns a w := by
  have hsound : s.Sound plan :=
    h.invariant (fun _ => Started.sound) fun _ _ _ hs he hstep => hs.step hn he hstep
  exact hsound.hops v a hroute

end DaoNet
end Plan

/-! ## The way up -/

namespace DaoNet
variable {cfg : Config} {n : ℕ} {plan : AddressPlan cfg n} {s s' : DaoNet cfg n} {instanceId : UInt8}

/-- A way up for DAOs: each node accepts them from the node before, and has the next node as its preferred parent. -/
inductive Climbs (plan : AddressPlan cfg n) (s : DaoNet cfg n) (instanceId : UInt8) : IpAddr → List (Fin n) → Prop
  | top {sender : IpAddr} {v : Fin n} {d : cfg.DagRef} (haccepts : (s.node v).AcceptsDao instanceId sender d) :
    Climbs plan s instanceId sender [v]
  | on {sender : IpAddr} {v w : Fin n} {rest : List (Fin n)} {d : cfg.DagRef} {p : cfg.ParentRef}
    (haccepts : (s.node v).AcceptsDao instanceId sender d)
    (hparent : ((s.node v).dagTable d).preferredParent = some p) (hnext : plan.Owns ((s.node v).parent p).addr w)
    (hrest : Climbs plan s instanceId (uipDs6SelectSrc (plan.list v) ((s.node v).parent p).addr) (w :: rest)) :
    Climbs plan s instanceId sender (v :: w :: rest)

lemma Climbs.congr {sender : IpAddr} {path : List (Fin n)} (h : Climbs plan s instanceId sender path)
    (hsame : ∀ v ∈ path, s'.node v = s.node v) : Climbs plan s' instanceId sender path := by
  induction h with
  | top haccepts =>
    refine .top (d := ?_) ?_
    rotate_left
    · rw [hsame _ List.mem_cons_self]
      exact haccepts
  | @on _ v w rest d p haccepts hparent hnext _ ih =>
    have hv := hsame v List.mem_cons_self
    have hrest := ih fun u hu => hsame u (List.mem_cons_of_mem v hu)
    rw [← hv] at haccepts hparent hnext hrest
    exact .on haccepts hparent hnext hrest

/-- A DAO that is delivered to a node that accepts it. -/
lemma Sound.deliver_accepted (h : s.Sound plan) (hn : n ≤ cfg.routeNb) (daoAck : Bool) {u v : Fin n} {a : IpAddr}
    (htarget : getGlobalAddr (plan.list u) = some a) {f : DaoFrame} (hf : f ∈ s.air) (hdst : plan.Owns f.dst v)
    {flags sequence lifetime : UInt8} (hflags : flags &&& rplDaoDFlag = 0) (hlifetime : lifetime ≠ zeroLifetime)
    (hpayload : f.payload = daoPayload instanceId flags sequence a lifetime) {d : cfg.DagRef}
    (haccepts : (s.node v).AcceptsDao instanceId f.src d) :
    ∃ r, Moves (DaoNet.step daoAck) Admissible s (s.act v r) ∧ (s.act v r).Sound plan ∧
      uipDs6RouteLookup r.2.routingTable a ≠ none ∧
      ∀ p, ((s.node v).dagTable d).preferredParent = some p →
        r.1 = some ⟨uipDs6SelectSrc (plan.list v) ((s.node v).parent p).addr, ((s.node v).parent p).addr, f.payload⟩ := by
  let buffer : ℕ → UInt8 := fun k => f.payload.getD k 0
  have hbuffer : Holds buffer 0 f.payload := holds_getD _ _
  have hlength : UInt8.ofNat f.payload.length = 30 := by rw [hpayload, length_daoPayload]; rfl
  have hinstance : buffer 0 = instanceId := by
    have hfirst := hpayload ▸ hbuffer
    rw [daoPayload, List.append_assoc, List.cons_append] at hfirst
    exact hfirst.1
  obtain ⟨reply, t, hinput, haddr, -, -, haccepted⟩ := (s.node v).daoInput_effect f.src
    (fun dl => daoOptions_daoPayload (hpayload ▸ hbuffer) hflags .unspecified dl) (h.room hn htarget v)
  rw [hinstance] at haccepted
  obtain ⟨hroute, hsent⟩ := haccepted hlifetime d haccepts
  have hmessage : bytesAt buffer 0 (30 : UInt8).toNat = f.payload := by
    have hall := bytesAt_of_holds hbuffer
    rwa [hpayload, length_daoPayload, ← hpayload] at hall
  obtain ⟨o, hreceive, ho⟩ : ∃ o, (s.node v).receiveDao .unspecified f.src buffer (UInt8.ofNat f.payload.length) =
      .ok (o, { s.node v with toNode := t }) ∧
      ∀ dst payload, reply = some (.forward dst payload) → o = some (t.sendDao dst payload) := by
    rw [hlength, DaoNode.receiveDao, hinput]
    refine ⟨_, rfl, ?_⟩
    rintro dst payload rfl
    rfl
  refine ⟨_, ⟨.deliver v f buffer .unspecified, ⟨hf, hbuffer, .inl ?_⟩, ?_⟩, h.deliver hn hf hbuffer hreceive, hroute, ?_⟩
  · change uipDs6IsMyAddr (s.node v).addrList f.dst = true
    rw [h.addrList]
    exact hdst
  · change ((s.node v).receiveDao .unspecified f.src buffer (UInt8.ofNat f.payload.length)).map (s.act v) = _
    rw [hreceive]
    rfl
  · intro p hp
    have hreply := hsent p hp
    rw [hmessage] at hreply
    simp only [ho _ _ hreply, Node.sendDao, haddr, h.addrList]

/-- A DAO that is delivered on its way up leaves a route on each node. -/
lemma Sound.climb (hn : n ≤ cfg.routeNb) (daoAck : Bool) {u : Fin n} {a : IpAddr}
    (htarget : getGlobalAddr (plan.list u) = some a) {flags sequence lifetime : UInt8}
    (hflags : flags &&& rplDaoDFlag = 0) (hlifetime : lifetime ≠ zeroLifetime) {f : DaoFrame}
    (hpayload : f.payload = daoPayload instanceId flags sequence a lifetime) {v : Fin n} {path : List (Fin n)}
    (hnodup : (v :: path).Nodup) (h : s.Sound plan) (hf : f ∈ s.air) (hdst : plan.Owns f.dst v)
    (hclimbs : Climbs plan s instanceId f.src (v :: path)) :
    ∃ s', Relation.ReflTransGen (Moves (DaoNet.step daoAck) Admissible) s s' ∧ s'.Sound plan ∧
      (∀ w ∈ v :: path, uipDs6RouteLookup (s'.node w).routingTable a ≠ none) ∧
      ∀ w ∉ v :: path, s'.node w = s.node w := by
  induction path generalizing s f v with
  | nil =>
    cases hclimbs with
    | top haccepts =>
      obtain ⟨r, hmove, hsound, hroute, -⟩ := h.deliver_accepted hn daoAck htarget hf hdst hflags hlifetime hpayload haccepts
      refine ⟨_, .single hmove, hsound, fun w hw => ?_, fun w hw => ?_⟩
      · obtain rfl := List.mem_singleton.mp hw
        rwa [act_node_self]
      · exact act_node_of_ne _ fun heq => hw (List.mem_singleton.mpr heq)
  | cons x rest ih =>
    cases hclimbs with
    | @on _ _ _ _ d p haccepts hparent hnext hrest =>
      obtain ⟨r, hmove, hsound, hroute, hsent⟩ :=
        h.deliver_accepted hn daoAck htarget hf hdst hflags hlifetime hpayload haccepts
      obtain ⟨hv, hnodup⟩ := List.nodup_cons.mp hnodup
      have hsame : ∀ w ∈ x :: rest, (s.act v r).node w = s.node w := fun w hw =>
        act_node_of_ne _ (ne_of_mem_of_not_mem hw hv)
      -- the next node gets what this one has sent
      let next : DaoFrame :=
        ⟨uipDs6SelectSrc (plan.list v) ((s.node v).parent p).addr, ((s.node v).parent p).addr, f.payload⟩
      have hair : next ∈ (s.act v r).air := List.mem_append_left _ (Option.mem_toList.mpr (hsent p hparent))
      obtain ⟨s', hrun, hsound', hroutes, hothers⟩ :=
        ih (f := next) hpayload hnodup hsound hair hnext (hrest.congr hsame)
      refine ⟨s', .head hmove hrun, hsound', fun w hw => ?_, fun w hw => ?_⟩
      · rcases List.mem_cons.mp hw with rfl | hw
        · rwa [hothers w hv, act_node_self]
        · exact hroutes w hw
      · rw [List.mem_cons, not_or] at hw
        rw [hothers w hw.2]
        exact act_node_of_ne _ hw.1

/-- The timer for the DAOs of a node that has a preferred parent. -/
lemma Sound.daoTimer_sends (h : s.Sound plan) (daoAck : Bool) {v : Fin n} {d e : cfg.DagRef} {p : cfg.ParentRef}
    {a : IpAddr} (htarget : getGlobalAddr (plan.list v) = some a)
    (hparent : ((s.node v).dagTable d).preferredParent = some p) (hdag : ((s.node v).parent p).dag = some e) :
    ∃ f t sequence, Moves (DaoNet.step daoAck) Admissible s (s.act v (some f, t)) ∧
      f = ⟨uipDs6SelectSrc (plan.list v) ((s.node v).parent p).addr, ((s.node v).parent p).addr,
        daoPayload ((s.node v).dagTable e).instanceId (if daoAck then rplDaoKFlag else 0) sequence a
          ((s.node v).dagTable d).config.defaultLifetime⟩ := by
  refine ⟨_, { s.node v with daoSequence := (s.node v).daoSequence + 1 }, (s.node v).daoSequence + 1,
    ⟨.daoTimer v d, trivial, ?_⟩, rfl⟩
  have hlink : (uipDs6GetLinkLocal (plan.list v) .preferred).isNone = false := by
    obtain ⟨b, hb, -⟩ := (plan.addressed v).exists_linkLocal
    rw [hb]
    rfl
  have haddr := h.addrList v
  simp only [DaoNet.step, DaoNode.handleDaoTimer, haddr, hlink, Bool.and_false, Bool.false_eq_true, if_false, hparent,
    DaoNode.daoOutput, htarget, hdag, deref, DaoNode.advertise, Node.sendDao]
  rfl

/-- **A DAO that is not lost leaves routes on all nodes above.**  After a run of a network, let the timer of a node with a
preferred parent fire, and let a way lead from that parent upwards.  Then the run can go on such that the next hops
lead from each node on the way to the node whose timer has fired. -/
theorem dao_climbs (plan : AddressPlan cfg n) (hn : n ≤ cfg.routeNb) (daoAck : Bool) {s : DaoNet cfg n}
    (h : Reaches (DaoNet.step daoAck) Admissible (Started plan) s) {u : Fin n} {a : IpAddr}
    (htarget : getGlobalAddr (plan.list u) = some a) {d e : cfg.DagRef} {p : cfg.ParentRef}
    (hparent : ((s.node u).dagTable d).preferredParent = some p) (hdag : ((s.node u).parent p).dag = some e)
    (hlifetime : ((s.node u).dagTable d).config.defaultLifetime ≠ zeroLifetime) {v : Fin n} {path : List (Fin n)}
    (hnodup : (u :: v :: path).Nodup) (hnext : plan.Owns ((s.node u).parent p).addr v)
    (hclimbs : Climbs plan s ((s.node u).dagTable e).instanceId
      (uipDs6SelectSrc (plan.list u) ((s.node u).parent p).addr) (v :: path)) :
    ∃ s', Relation.ReflTransGen (Moves (DaoNet.step daoAck) Admissible) s s' ∧
      ∀ w ∈ v :: path, ∃ k < n, ∃ x, hopsFrom (s'.nextHop plan a) k w = some x ∧ plan.Owns a x := by
  have hsound : s.Sound plan :=
    h.invariant (fun _ => Started.sound) fun _ _ _ hs he hstep => hs.step hn he hstep
  obtain ⟨f, t, sequence, hmove, rfl⟩ := hsound.daoTimer_sends daoAck htarget hparent hdag
  obtain ⟨hu, hnodup⟩ := List.nodup_cons.mp hnodup
  have hmoved := hmove
  obtain ⟨event, hadmissible, hstep⟩ := hmoved
  have hflags : (if daoAck then rplDaoKFlag else 0) &&& rplDaoDFlag = 0 := by cases daoAck <;> decide
  obtain ⟨s', hrun, hsound', hroutes, -⟩ := Sound.climb hn daoAck htarget hflags hlifetime rfl hnodup
    (hsound.step hn hadmissible hstep) List.mem_cons_self hnext
    (hclimbs.congr fun w hw => act_node_of_ne _ (ne_of_mem_of_not_mem hw hu))
  refine ⟨s', .head hmove hrun, fun w hw => ?_⟩
  obtain ⟨i, hi⟩ := Option.ne_none_iff_exists'.mp (hroutes w hw)
  exact hsound'.hops w a hi

end DaoNet

/-! ## Two nodes -/

namespace DaoNet
open Node

/-- The nodes 1 and 2, with the addresses that they have after start-up. -/
def pairPlan : AddressPlan .default 2 where
  list v := (boot (.ofNat (v + 1))).addrList
  addressed v := by
    refine ⟨fun i _ => ?_, ⟨⟨0, by decide⟩, ?_⟩, ⟨⟨1, by decide⟩, ?_⟩⟩
    · unfold boot
      dsimp only
      split_ifs <;> rfl
    all_goals revert v; decide +kernel
  unique v w a hv hw := by
    have hall : ∀ v w : Fin 2, ∀ i j : Fin Config.default.addrNb,
        ((boot (.ofNat (v + 1))).addrList i).isused = true → ((boot (.ofNat (w + 1))).addrList j).isused = true →
        ((boot (.ofNat (v + 1))).addrList i).ipaddr = ((boot (.ofNat (w + 1))).addrList j).ipaddr → v = w := by
      decide +kernel
    obtain ⟨i, hi, hia⟩ := uipDs6IsMyAddr_iff.mp hv
    obtain ⟨j, hj, hja⟩ := uipDs6IsMyAddr_iff.mp hw
    exact hall v w i j hi hj (hia.trans hja.symm)

/-- The DAG that both nodes have joined; the node 2 is the parent of the node 1. -/
def pairDag (v : Fin 2) : Dag .default :=
  { Dag.zero with
    used := true
    joined := true
    preferredParent := if v.val = 0 then some 0 else none
    config := { defaultDodagConfig with defaultLifetime := 255 } }

/-- The two nodes before the first DAO. -/
def pair : DaoNet .default 2 where
  node v :=
    { boot (.ofNat (v + 1)) with
      dagTable := fun d => if d.val = 0 then pairDag v else .zero
      parentMemb := ⟨fun _ => 0, fun _ => ⟨some 0, .zero, nodeLinkLocal 2, 0, 0, 0, false⟩⟩
      daoSequence := 0 }
  air := []

/-- The DAO of the node 1. -/
def pairDao : DaoFrame := ⟨nodeLinkLocal 1, nodeLinkLocal 2, daoPayload 0 0 1 (nodeAddr 1) 255⟩

/-- The two nodes after the timer of the node 1. -/
def pairSent : DaoNet .default 2 :=
  pair.act ⟨0, Nat.zero_lt_two⟩ (some pairDao, { pair.node ⟨0, Nat.zero_lt_two⟩ with daoSequence := 1 })

/-- The node 2 has a route to the node 1. -/
theorem routes_lead_pair : ∃ s, Reaches (step false) Admissible (Started pairPlan) s ∧
    ∃ k < 2, ∃ w, hopsFrom (s.nextHop pairPlan (nodeAddr 1)) k 1 = some w ∧ pairPlan.Owns (nodeAddr 1) w := by
  have hstarted : pair.Started pairPlan := ⟨fun _ => rfl, fun _ _ => rfl, rfl⟩
  have htimer : pair.step false (.daoTimer 0 0) = .ok pairSent := by rfl
  have hadm : pairSent.Admissible (.deliver 1 pairDao (fun k => pairDao.payload.getD k 0) .unspecified) :=
    ⟨List.mem_cons_self, holds_getD _ _, .inl (by decide +kernel)⟩
  have hdeliver : (pairSent.step false (.deliver 1 pairDao (fun k => pairDao.payload.getD k 0) .unspecified)).map
      (fun s => uipDs6RouteLookup (s.node 1).routingTable (nodeAddr 1)) = .ok (some ⟨3, by decide⟩) := by
    rfl
  obtain ⟨s, hstep, hroute⟩ := exists_ok_of_map hdeliver
  have hreach := ((Reaches.initial hstarted).tail (e := .daoTimer 0 0) trivial htimer).tail hadm hstep
  exact ⟨s, hreach, routes_lead pairPlan (by decide) false hreach 1 (nodeAddr 1) hroute⟩

/-- The way from the node 1 up to the node 2, from the state before the first DAO. -/
theorem dao_climbs_pair : ∃ s, Relation.ReflTransGen (Moves (step false) Admissible) pair s ∧
    ∀ w ∈ [(1 : Fin 2)], ∃ k < 2, ∃ x, hopsFrom (s.nextHop pairPlan (nodeAddr 1)) k w = some x ∧
      pairPlan.Owns (nodeAddr 1) x := by
  have hstarted : pair.Started pairPlan := ⟨fun _ => rfl, fun _ _ => rfl, rfl⟩
  have haccepts : (pair.node 1).AcceptsDao 0 (nodeLinkLocal 1) 0 :=
    ⟨by decide +kernel, by decide +kernel, by decide +kernel⟩
  have hsource : uipDs6SelectSrc (pairPlan.list 0) (nodeLinkLocal 2) = nodeLinkLocal 1 := by decide +kernel
  have hnext : pairPlan.Owns (nodeLinkLocal 2) 1 := by
    change uipDs6IsMyAddr (pairPlan.list 1) (nodeLinkLocal 2) = true
    decide +kernel
  exact dao_climbs pairPlan (by decide) false (.initial hstarted) (u := 0) (v := 1) (a := nodeAddr 1) (d := 0) (e := 0)
    (p := 0) (by decide +kernel) rfl rfl (by decide) (by decide) hnext (.top (hsource ▸ haccepts))

end DaoNet
end Contiki

import Contiki.Net.Prefixes
import Contiki.Rpl.DaoMessage
import Contiki.Rpl.System

/-!
# Routes that DAOs install

`dao_input` takes the route that the search gives for the target as it is: its next hop stays, and
a No-Path DAO lets it expire, whoever it goes through (`not_routes_current`).  Where the search
finds nothing, a new route to the sender is what it finds afterwards (`rplAddRoute_found`).
-/

namespace Contiki
namespace Node
variable {cfg : Config}

/-! ## The search after a change -/

section Table
variable {n : ℕ} {δ : Type} {table table' : Fin n → Ds6Route δ} {dest : IpAddr} {i : Fin n}

/-- The search looks at the prefixes only. -/
lemma uipDs6RouteLookup_congr
    (h : ∀ i, (table' i).toDs6Element = (table i).toDs6Element ∧
      (table' i).length = (table i).length) :
    uipDs6RouteLookup table' dest = uipDs6RouteLookup table dest := by
  unfold uipDs6RouteLookup
  generalize List.finRange n = rest
  generalize (0 : UInt8) = longestmatch
  generalize (none : Option (Fin n)) = locrt
  induction rest generalizing longestmatch locrt with
  | nil => rfl
  | cons i rest ih =>
      obtain ⟨helement, hlength⟩ := h i
      rw [routeLookupFrom, routeLookupFrom, hlength, helement, ih, ih]

/-- A route that alone agrees is found. -/
lemma uipDs6RouteLookup_unique (hi : RouteMatches table dest i)
    (hother : ∀ j, j ≠ i → ¬ RouteMatches table dest j) :
    uipDs6RouteLookup table dest = some i := by
  rcases hlookup : uipDs6RouteLookup table dest with - | j
  · exact absurd hi (uipDs6RouteLookup_eq_none.mp hlookup i)
  · have hj := (uipDs6RouteLookup_eq_some hlookup).1
    by_contra hne
    exact hother j (fun heq => hne (heq ▸ rfl)) hj

/-- A host route that does not exist yet is added to a table that has room. -/
lemma uipDs6RouteAdd_fresh (hnone : ∀ i, ¬ RouteMatches table dest i)
    (hroom : ∃ i, (table i).isused = false) (nexthop : IpAddr) (metric : UInt8) :
    ∃ i, (table i).isused = false ∧ uipDs6RouteAdd table dest 128 nexthop metric =
      (some i, Function.update table i
        { table i with isused := true, ipaddr := dest, length := 128, nexthop, metric }) := by
  unfold uipDs6RouteAdd
  rcases hloop : uipDs6ListLoop (fun i => (table i).toDs6Element) dest (128 : UInt8).toNat with
    i | i | -
  · obtain ⟨hused, hcmp⟩ := ListLoop.found_spec hloop
    have heq := (IpAddr.uipIpaddrPrefixcmp_128 _ _).mp hcmp
    refine absurd ⟨hused, ?_⟩ (hnone i)
    simp only at heq
    rw [heq]
    exact IpAddr.uipIpaddrPrefixcmp_self _ _
  · exact ⟨i, (ListLoop.freespace_spec hloop).1, rfl⟩
  · obtain ⟨i, hi⟩ := hroom
    have hall := (ListLoop.nospace_spec hloop).1 i
    simp only [hi] at hall
    cases hall

end Table

lemma nextToExpire_isSome (s : Node cfg) (l : List (Fin cfg.routeNb))
    {iMin : Option (Fin cfg.routeNb)} (h : l ≠ [] ∨ iMin ≠ none) : (s.nextToExpire l iMin).isSome = true := by
  induction l generalizing iMin with
  | nil => exact Option.isSome_iff_ne_none.mpr (h.resolve_left (by simp))
  | cons i l ih =>
      cases iMin with
      | none => exact ih (.inr (by simp))
      | some j =>
          unfold nextToExpire
          split_ifs
          · exact ih (.inr (by simp))
          · exact ih (.inr (by simp))

/-- Where the search finds nothing, a new route to the next hop is what it finds afterwards. -/
lemma addNewRoute_found (hnb : 0 < cfg.routeNb) (s : Node cfg) {target : IpAddr}
    (hnone : uipDs6RouteLookup s.routingTable target = none) (nextHop : IpAddr) :
    ∃ i table, s.addNewRoute target 128 nextHop = (some i, { s with routingTable := table }) ∧
      uipDs6RouteLookup table target = some i ∧ (table i).nexthop = nextHop := by
  have hnot := uipDs6RouteLookup_eq_none.mp hnone
  -- a table with room, in which nothing agrees with the target
  have hadd : ∀ table : Fin cfg.routeNb → Ds6Route cfg.DagRef,
      (∀ i, ¬ RouteMatches table target i) → (∃ i, (table i).isused = false) →
      ∃ i table', uipDs6RouteAdd table target 128 nextHop 0 = (some i, table') ∧
        uipDs6RouteLookup table' target = some i ∧ (table' i).nexthop = nextHop := by
    intro table hfresh hroom
    obtain ⟨i, -, hresult⟩ := uipDs6RouteAdd_fresh hfresh hroom nextHop 0
    refine ⟨i, _, hresult, uipDs6RouteLookup_unique ?_ fun j hj hmatch => hfresh j ?_, ?_⟩
    · rw [RouteMatches, Function.update_self]
      exact ⟨rfl, IpAddr.uipIpaddrPrefixcmp_self _ _⟩
    · rwa [RouteMatches, Function.update_of_ne hj] at hmatch
    · rw [Function.update_self]
  unfold addNewRoute
  by_cases hroom : ∃ i, (s.routingTable i).isused = false
  · obtain ⟨i, table, hresult, hlookup, hnext⟩ := hadd s.routingTable hnot hroom
    rw [hresult]
    exact ⟨i, table, rfl, hlookup, hnext⟩
  -- all entries are in use: the one that is to expire next makes room
  have hfull : uipDs6RouteAdd s.routingTable target 128 nextHop 0 = (none, s.routingTable) := by
    unfold uipDs6RouteAdd
    rcases hloop : uipDs6ListLoop (fun i => (s.routingTable i).toDs6Element) target
      (128 : UInt8).toNat with i | i | -
    · obtain ⟨hused, hcmp⟩ := ListLoop.found_spec hloop
      have heq := (IpAddr.uipIpaddrPrefixcmp_128 _ _).mp hcmp
      simp only at heq
      refine absurd ⟨hused, ?_⟩ (hnot i)
      rw [heq]
      exact IpAddr.uipIpaddrPrefixcmp_self _ _
    · exact absurd ⟨i, (ListLoop.freespace_spec hloop).1⟩ hroom
    · rfl
  have hne : List.finRange cfg.routeNb ≠ [] ∨ (none : Option (Fin cfg.routeNb)) ≠ none := by
    refine .inl ?_
    rw [ne_eq, List.finRange_eq_nil_iff]
    omega
  obtain ⟨iMin, hmin⟩ := Option.isSome_iff_exists.mp (s.nextToExpire_isSome _ hne)
  have hfresh : ∀ j, ¬ RouteMatches (uipDs6RouteRm s.routingTable iMin) target j := by
    intro j hj
    by_cases hji : j = iMin
    · subst hji
      simp [RouteMatches, uipDs6RouteRm] at hj
    · rw [RouteMatches, uipDs6RouteRm, Function.update_of_ne hji] at hj
      exact hnot j hj
  obtain ⟨i, table, hresult, hlookup, hnext⟩ := hadd (uipDs6RouteRm s.routingTable iMin) hfresh
    ⟨iMin, by simp [uipDs6RouteRm]⟩
  rw [hfull]
  simp only [hmin, hresult]
  exact ⟨i, table, rfl, hlookup, hnext⟩

/-! ## The route of a DAO -/

/-- The search leads to a next hop. -/
def RoutesTo (s : Node cfg) (target nexthop : IpAddr) : Prop :=
  ∃ i, uipDs6RouteLookup s.routingTable target = some i ∧ (s.routingTable i).nexthop = nexthop

/-- The route for a target that goes through the sender of a DAO. -/
def OwnRoute (s : Node cfg) (o : DaoOptions) (sender : IpAddr) (i : Fin cfg.routeNb) : Prop :=
  (s.routingTable i).ipaddr = o.prefixAddr ∧ (s.routingTable i).length = o.prefixlen ∧
    (s.routingTable i).nexthop = sender

/-- What RPL keeps with a route plays no part in the search. -/
lemma setRoute_state_lookup (s : Node cfg) (i : Fin cfg.routeNb) (state : RouteState cfg.DagRef)
    (target : IpAddr) :
    uipDs6RouteLookup (s.setRoute i { s.routingTable i with state }).routingTable target =
        uipDs6RouteLookup s.routingTable target ∧
      ∀ j, ((s.setRoute i { s.routingTable i with state }).routingTable j).nexthop =
        (s.routingTable j).nexthop := by
  constructor
  · apply uipDs6RouteLookup_congr
    intro j
    by_cases hj : j = i
    · subst hj
      simp
    · simp [hj]
  · intro j
    by_cases hj : j = i
    · subst hj
      simp
    · simp [hj]

lemma setRoute_state_routesTo (s : Node cfg) (i : Fin cfg.routeNb) (state : RouteState cfg.DagRef)
    (target nexthop : IpAddr) :
    (s.setRoute i { s.routingTable i with state }).RoutesTo target nexthop ↔
      s.RoutesTo target nexthop := by
  obtain ⟨hsame, hnexthop⟩ := setRoute_state_lookup s i state target
  simp only [RoutesTo, hsame, hnexthop]

/-- Where the search finds nothing, `rpl_add_route` installs what it finds afterwards. -/
lemma rplAddRoute_found (hnb : 0 < cfg.routeNb) (s : Node cfg) (dag : Option cfg.DagRef)
    {target : IpAddr} (hnone : uipDs6RouteLookup s.routingTable target = none) (nextHop : IpAddr) :
    ∃ i s', s.rplAddRoute dag target 128 nextHop = (some i, s') ∧
      uipDs6RouteLookup s'.routingTable target = some i ∧
      (s'.routingTable i).nexthop = nextHop := by
  obtain ⟨i, table, hresult, hlookup, hnext⟩ :=
    addNewRoute_found hnb s hnone nextHop
  unfold rplAddRoute
  simp only [hnone, hresult]
  obtain ⟨hsame, hnexthop⟩ := setRoute_state_lookup { s with routingTable := table } i _ target
  exact ⟨i, _, rfl, hsame.trans hlookup, (hnexthop i).trans hnext⟩

section Dao
variable {s : Node cfg} {stack sender : IpAddr} {buffer : ℕ → UInt8} {bufferLength : UInt8}
  {d : cfg.DagRef} {o : DaoOptions}

/-- A DAO with a host route as its target. -/
lemma daoInput_route (hnb : 0 < cfg.routeNb) (hdag : s.rplGetDag (buffer 0) none = some d)
    (hoptions : daoOptions buffer bufferLength stack (s.dagTable d).config.defaultLifetime = .ok o)
    (hlength : o.prefixlen = 128) (hlifetime : o.lifetime ≠ zeroLifetime)
    (hrank : s.daoLoop d sender = none) :
    ∃ reply s', s.daoInput stack sender buffer bufferLength = .ok (reply, s') ∧
      (s'.RoutesTo o.prefixAddr sender ↔
        ∀ i, uipDs6RouteLookup s.routingTable o.prefixAddr = some i →
          (s.routingTable i).nexthop = sender) := by
  have hcheck : (if (!sender.uipIsAddrMcast) = true then s.daoLoop d sender else none) = none := by
    rw [hrank, ite_self]
  unfold daoInput
  simp only [hdag, hoptions, bind, Except.bind, if_neg hlifetime, hcheck, daoRoute, hlength]
  rcases hlookup : uipDs6RouteLookup s.routingTable o.prefixAddr with - | i
  · obtain ⟨i, s₁, hadd, hfound, hnext⟩ := rplAddRoute_found hnb s (some d) hlookup sender
    simp only [hadd]
    refine ⟨_, _, rfl, (setRoute_state_routesTo s₁ i _ _ _).trans ?_⟩
    simp only [RoutesTo, hfound, Option.some.injEq, exists_eq_left', reduceCtorEq,
      IsEmpty.forall_iff, implies_true, iff_true]
    exact hnext
  · refine ⟨_, _, rfl, (setRoute_state_routesTo s i _ _ _).trans ?_⟩
    simp only [RoutesTo, hlookup, Option.some.injEq, exists_eq_left', forall_eq']

/-- A No-Path DAO. -/
lemma daoInput_noPath (hdag : s.rplGetDag (buffer 0) none = some d)
    (hoptions : daoOptions buffer bufferLength stack (s.dagTable d).config.defaultLifetime = .ok o)
    (hlifetime : o.lifetime = zeroLifetime) :
    ∃ s', s.daoInput stack sender buffer bufferLength = .ok (none, s') ∧
      ((∀ i, s'.routingTable i ≠ s.routingTable i → s.OwnRoute o sender i) ↔
        ∀ i, uipDs6RouteLookup s.routingTable o.prefixAddr = some i →
          (s.routingTable i).state.savedLifetime = 0 → s.OwnRoute o sender i) := by
  unfold daoInput
  simp only [hdag, hoptions, bind, Except.bind, if_pos hlifetime]
  refine ⟨_, rfl, ?_⟩
  unfold noPath
  rcases hlookup : uipDs6RouteLookup s.routingTable o.prefixAddr with - | i
  · simp
  · simp only [Option.some.injEq, forall_eq']
    split_ifs with hsaved
    · -- the route that was found expires, and no other route changes
      have hchanges : ∀ j, (s.setRoute i { s.routingTable i with state :=
          { (s.routingTable i).state with
            savedLifetime := (s.routingTable i).state.lifetime
            lifetime := daoExpirationTimeout } }).routingTable j ≠ s.routingTable j ↔ j = i := by
        intro j
        by_cases hj : j = i
        · subst hj
          simp only [setRoute_routingTable, Function.update_self, ne_eq, iff_true]
          intro heq
          have hlife := congrArg (fun r => r.state.lifetime) heq
          have hsave := congrArg (fun r => r.state.savedLifetime) heq
          simp only [hsaved] at hlife hsave
          rw [hsave] at hlife
          exact absurd hlife (by decide)
        · simp [hj]
      simp only [hchanges, forall_eq, hsaved, forall_const]
    · simp [hsaved]

/-- **DAOs keep routes current.**  After a DAO with a host route as its target, of a sender of no
lower rank, the search for the target leads to the sender if and only if it found nothing before,
or a route through the sender; a No-Path DAO lets only a route for its target through its sender
expire if and only if the search finds nothing, or such a route, or one that is expiring already. -/
theorem routes_current_iff (hnb : 0 < cfg.routeNb) (s : Node cfg) (stack sender : IpAddr)
    (buffer : ℕ → UInt8) (bufferLength : UInt8) (d : cfg.DagRef) (o : DaoOptions)
    (hdag : s.rplGetDag (buffer 0) none = some d)
    (hoptions : daoOptions buffer bufferLength stack (s.dagTable d).config.defaultLifetime =
      .ok o) :
    (o.prefixlen = 128 → o.lifetime ≠ zeroLifetime → s.daoLoop d sender = none →
      ∃ reply s', s.daoInput stack sender buffer bufferLength = .ok (reply, s') ∧
        (s'.RoutesTo o.prefixAddr sender ↔
          ∀ i, uipDs6RouteLookup s.routingTable o.prefixAddr = some i →
            (s.routingTable i).nexthop = sender)) ∧
    (o.lifetime = zeroLifetime →
      ∃ s', s.daoInput stack sender buffer bufferLength = .ok (none, s') ∧
        ((∀ i, s'.routingTable i ≠ s.routingTable i → s.OwnRoute o sender i) ↔
          ∀ i, uipDs6RouteLookup s.routingTable o.prefixAddr = some i →
            (s.routingTable i).state.savedLifetime = 0 → s.OwnRoute o sender i)) :=
  ⟨daoInput_route hnb hdag hoptions, daoInput_noPath hdag hoptions⟩

end Dao

/-- A node of a joined DAG that has a route to the node 5. -/
def daoNode (nexthop : IpAddr) : Node .default :=
  { boot 1 with
    dagTable := fun d => if d.val = 0 then { Dag.zero with used := true, joined := true } else .zero
    routingTable := fun i =>
      { (default : Ds6Route (Config.default.DagRef)) with
        isused := i.val == 0
        ipaddr := nodeAddr 5
        length := 128
        nexthop } }

/-- A DAO for the node 5. -/
def daoBytes (lifetime : UInt8) : List UInt8 :=
  [0, 0, 0, 1, 5, 18, 0, 128] ++ (nodeAddr 5).u8 ++ [6, 4, 0, 0, 0, lifetime]

lemma daoBytes_options : daoOptions (fun k => (daoBytes 255).getD k 0) 30 .unspecified 0 =
    .ok ⟨nodeAddr 5, 128, 255⟩ := by
  have hoptions : (daoOptions (fun k => (daoBytes 255).getD k 0) 30 .unspecified 0).toOption =
      some ⟨nodeAddr 5, 128, 255⟩ := by decide +kernel
  cases hresult : daoOptions (fun k => (daoBytes 255).getD k 0) 30 .unspecified 0 with
  | error f =>
      rw [hresult] at hoptions
      cases hoptions
  | ok o =>
      rw [hresult] at hoptions
      exact congrArg Except.ok (Option.some.inj hoptions)

/-- The node 5 has moved from the node 2 to the node 3. -/
theorem not_routes_current :
    ¬ ∀ (s : Node .default) (stack sender : IpAddr) (buffer : ℕ → UInt8) (bufferLength : UInt8)
      (d : Config.default.DagRef) (o : DaoOptions), s.rplGetDag (buffer 0) none = some d →
      daoOptions buffer bufferLength stack (s.dagTable d).config.defaultLifetime = .ok o →
      (o.prefixlen = 128 → o.lifetime ≠ zeroLifetime → s.daoLoop d sender = none →
        ∃ reply s', s.daoInput stack sender buffer bufferLength = .ok (reply, s') ∧
          s'.RoutesTo o.prefixAddr sender) ∧
      (o.lifetime = zeroLifetime →
        ∃ s', s.daoInput stack sender buffer bufferLength = .ok (none, s') ∧
          ∀ i, s'.routingTable i ≠ s.routingTable i → s.OwnRoute o sender i) := by
  intro hall
  let s := daoNode (nodeLinkLocal 2)
  let buffer : ℕ → UInt8 := fun k => (daoBytes 255).getD k 0
  let o : DaoOptions := ⟨nodeAddr 5, 128, 255⟩
  have hdag : s.rplGetDag (buffer 0) none = some 0 := by decide +kernel
  have hoptions : daoOptions buffer 30 .unspecified (s.dagTable 0).config.defaultLifetime = .ok o :=
    daoBytes_options
  have hrank : s.daoLoop 0 (nodeLinkLocal 3) = none := by decide +kernel
  obtain ⟨reply, s', hinput, hroute⟩ := (hall s .unspecified (nodeLinkLocal 3) buffer 30 0 o hdag
    hoptions).1 rfl (by decide) hrank
  obtain ⟨reply', s'', hinput', hiff⟩ := daoInput_route (by decide) hdag hoptions rfl (by decide)
    hrank
  rw [hinput] at hinput'
  obtain ⟨rfl, rfl⟩ := Prod.mk.inj (Except.ok.inj hinput')
  have hnext := hiff.mp hroute ⟨0, by decide⟩ (by decide +kernel)
  exact absurd hnext (by decide +kernel)

/-- The node 5 stays with the node 2. -/
theorem routes_current_iff_refresh :
    ∃ reply s', (daoNode (nodeLinkLocal 2)).daoInput .unspecified (nodeLinkLocal 2)
        (fun k => (daoBytes 255).getD k 0) 30 = .ok (reply, s') ∧
      s'.RoutesTo (nodeAddr 5) (nodeLinkLocal 2) := by
  obtain ⟨reply, s', hinput, hiff⟩ := (routes_current_iff (by decide) (daoNode (nodeLinkLocal 2))
    .unspecified (nodeLinkLocal 2) (fun k => (daoBytes 255).getD k 0) 30 0 ⟨nodeAddr 5, 128, 255⟩
    (by decide +kernel) daoBytes_options).1 rfl (by decide) (by decide +kernel)
  refine ⟨reply, s', hinput, hiff.mpr fun i _ => ?_⟩
  rfl

end Node
end Contiki

import Contiki.Net.Ds6

/-!
# The hop lists of the source routing table

The hops of all source routes come from one pool.  `SrcRoutingTable.WellKept` is the bookkeeping
that its three operations share: the allocated blocks are shared out among the hop lists, an
entry that is not in use has no hops, and no destination has two entries.

`WellKept.update` is the rule for a change of one entry; each operation of the table is an
instance of it, so that callers argue about `uip_ds6_src_route_add`, `uip_ds6_src_route_hop_add`
and `uip_ds6_src_route_rm` only.
-/

namespace Contiki
namespace SrcRoutingTable

variable {n m : ℕ} {δ : Type} {t t' : SrcRoutingTable δ n m}

/-- The bookkeeping of the source routing table. -/
structure WellKept (t : SrcRoutingTable δ n m) : Prop where
  owned : t.addrMemb.OwnedBy fun i => (t.routes i).addrList
  unused : ∀ i, (t.routes i).isused = false → (t.routes i).addrList = []
  unique : ∀ i j, (t.routes i).isused = true → (t.routes j).isused = true →
    (t.routes i).ipaddr = (t.routes j).ipaddr → i = j

namespace WellKept

/-- One entry changes, and its new list is what the pool allows for. -/
lemma update (h : t.WellKept) {i : Fin n} {r : Ds6SrcRoute δ m}
    (hroutes : t'.routes = Function.update t.routes i r)
    (howned : t'.addrMemb.OwnedBy (Function.update (fun j => (t.routes j).addrList) i r.addrList))
    (hunused : r.isused = false → r.addrList = [])
    (hunique : r.isused = true → ∀ j, j ≠ i → (t.routes j).isused = true →
      (t.routes j).ipaddr ≠ r.ipaddr) : t'.WellKept := by
  refine ⟨howned.congr rfl fun j => ?_, fun j hj => ?_, fun j k hj hk hjk => ?_⟩
  · by_cases hji : j = i
    · subst hji; simp [hroutes]
    · simp [hroutes, hji]
  · by_cases hji : j = i
    · subst hji
      simp only [hroutes, Function.update_self] at hj ⊢
      exact hunused hj
    · simp only [hroutes, ne_eq, hji, not_false_eq_true, Function.update_of_ne] at hj ⊢
      exact h.unused j hj
  · rw [hroutes] at hj hk hjk
    by_cases hji : j = i <;> by_cases hki : k = i
    · rw [hji, hki]
    · subst hji
      simp only [Function.update_self, ne_eq, hki, not_false_eq_true,
        Function.update_of_ne] at hj hk hjk
      exact absurd hjk.symm (hunique hj k hki hk)
    · subst hki
      simp only [Function.update_self, ne_eq, hji, not_false_eq_true,
        Function.update_of_ne] at hj hk hjk
      exact absurd hjk (hunique hk j hji hj)
    · simp only [ne_eq, hji, hki, not_false_eq_true, Function.update_of_ne] at hj hk hjk
      exact h.unique j k hj hk hjk

/-- Tables that agree on everything but the contents of blocks and the state of routes. -/
lemma congr (h : t.WellKept) (hcount : t'.addrMemb.count = t.addrMemb.count)
    (helement : ∀ i, (t'.routes i).toDs6Element = (t.routes i).toDs6Element)
    (hlist : ∀ i, (t'.routes i).addrList = (t.routes i).addrList) : t'.WellKept := by
  refine ⟨h.owned.congr hcount hlist, fun i hi => ?_, fun i j hi hj hij => ?_⟩
  · rw [hlist]
    rw [helement] at hi
    exact h.unused i hi
  · rw [helement] at hi hj hij
    rw [helement] at hij
    exact h.unique i j hi hj hij

/-- The state of a route, and with it its lifetime, is free. -/
lemma set_state (h : t.WellKept) (i : Fin n) (state : RouteState δ) :
    (t.set i { t.routes i with state }).WellKept := by
  refine h.congr rfl (fun j => ?_) fun j => ?_
  all_goals
    by_cases hj : j = i
    · subst hj; simp [set]
    · simp [set, hj]

/-- A route that has a hop is in use. -/
lemma isused_of_mem (h : t.WellKept) {j : Fin n} {b : Fin m} (hb : b ∈ (t.routes j).addrList) :
    (t.routes j).isused = true := by
  by_contra hunused
  rw [h.unused j (Bool.eq_false_iff.mpr hunused)] at hb
  exact List.not_mem_nil hb

/-- A table as it is after start-up. -/
lemma fresh (hroutes : ∀ i, (t.routes i).isused = false ∧ (t.routes i).addrList = [])
    (hcount : ∀ b, t.addrMemb.count b = 0) : t.WellKept := by
  refine ⟨?_, fun i _ => (hroutes i).2, fun i _ hi => ?_⟩
  · exact (Memb.OwnedBy.fresh (ι := Fin n) IpAddr.unspecified).congr (funext hcount)
      fun i => (hroutes i).2
  · rw [(hroutes i).1] at hi
    cases hi

end WellKept

/-! ## The operations -/

@[simp] lemma uipDs6SrcRouteRm_routes (i : Fin n) : (t.uipDs6SrcRouteRm i).routes =
    Function.update t.routes i { t.routes i with addrList := [], isused := false } := rfl

/-- A removed route gives all its hops back. -/
lemma WellKept.rm (h : t.WellKept) (i : Fin n) : (t.uipDs6SrcRouteRm i).WellKept :=
  h.update rfl (h.owned.free_all i) (fun _ => rfl) fun hused => by cases hused

/-- A route that is added is in use and has no hops yet. -/
lemma WellKept.add (h : t.WellKept) {ipaddr : IpAddr} {i : Fin n}
    (hadd : t.uipDs6SrcRouteAdd ipaddr = (some i, t')) :
    t'.WellKept ∧ (t'.routes i).isused = true := by
  unfold uipDs6SrcRouteAdd at hadd
  split at hadd
  · rename_i j hloop
    obtain ⟨hfree, hnone⟩ := ListLoop.freespace_spec hloop
    cases hadd
    refine ⟨h.update rfl ?_ (by simp) fun _ k hk hused heq => hnone k ⟨hused, ?_⟩, by simp [set]⟩
    · exact h.owned.congr rfl fun k => by
        rw [← h.unused i hfree]
        exact congrFun (Function.update_eq_self i _) k
    · exact (IpAddr.uipIpaddrPrefixcmp_128 _ _).mpr heq
  · rename_i j hloop
    obtain ⟨hused, -⟩ := ListLoop.found_spec hloop
    cases hadd
    refine ⟨(h.rm i).update rfl ?_ (by simp) fun _ k hk hkused heq => hk ?_, by simp [set]⟩
    · exact (h.rm i).owned.congr rfl fun k =>
        congrFun (Function.update_eq_self i fun k => ((t.uipDs6SrcRouteRm i).routes k).addrList) k
    · simp only [uipDs6SrcRouteRm_routes, ne_eq, hk, not_false_eq_true, Function.update_of_ne,
        Function.update_self] at hkused heq
      exact h.unique k i hkused hused heq
  · simp at hadd

/-- Without space the table stays as it is. -/
lemma add_eq_none {ipaddr : IpAddr} (hadd : t.uipDs6SrcRouteAdd ipaddr = (none, t')) :
    t' = t := by
  unfold uipDs6SrcRouteAdd at hadd
  split at hadd
  · simp at hadd
  · simp at hadd
  · exact (Prod.mk.inj hadd).2.symm

/-- A hop is taken from the pool for a route in use. -/
lemma WellKept.hopAdd (h : t.WellKept) {i : Fin n} {hop : IpAddr} {push : Bool}
    (hused : (t.routes i).isused = true)
    (hadd : t.uipDs6SrcRouteHopAdd i hop push = some t') :
    t'.WellKept ∧ (t'.routes i).isused = true := by
  unfold uipDs6SrcRouteHopAdd at hadd
  cases halloc : t.addrMemb.alloc with
  | none => simp [halloc] at hadd
  | some r =>
      obtain ⟨a, memb⟩ := r
      simp only [halloc, Option.some.injEq] at hadd
      subst hadd
      have hnodup := h.owned.parts.nodup i
      refine ⟨h.update rfl ?_ (by simp [hused]) fun _ j hj hjused heq =>
        hj (h.unique j i hjused hused heq), by simp [hused]⟩
      refine (h.owned.alloc_give halloc i ?_ ?_).write a hop
      · cases push
        · exact nodup_listAdd hnodup a
        · exact nodup_listPush hnodup a
      · intro b
        cases push
        · exact mem_listAdd
        · exact mem_listPush

/-! ## One route at a time -/

/-- The routes other than `i` are as before, with their hops. -/
def SparesOthers (i : Fin n) (t t' : SrcRoutingTable δ n m) : Prop :=
  ∀ j, j ≠ i → t'.routes j = t.routes j ∧ t'.hops j = t.hops j

lemma SparesOthers.trans {t'' : SrcRoutingTable δ n m} {i : Fin n} (h : SparesOthers i t t')
    (h' : SparesOthers i t' t'') : SparesOthers i t t'' := fun j hj =>
  ⟨(h' j hj).1.trans (h j hj).1, (h' j hj).2.trans (h j hj).2⟩

/-- One entry is changed, and the contents of the blocks are kept. -/
lemma sparesOthers_update {i : Fin n} {r : Ds6SrcRoute δ m}
    (hroutes : t'.routes = Function.update t.routes i r) (hmem : t'.addrMemb.mem = t.addrMemb.mem) :
    SparesOthers i t t' := by
  intro j hj
  have hroute : t'.routes j = t.routes j := by rw [hroutes, Function.update_of_ne hj]
  exact ⟨hroute, by rw [hops, hops, hroute, hmem]⟩

lemma freeAll_mem {α : Type*} (memb : Memb α m) (l : List (Fin m)) : (memb.freeAll l).mem = memb.mem := by
  induction l generalizing memb with
  | nil => rfl
  | cons b rest ih => exact (ih (memb.free b)).trans (memb.free_mem b)

lemma sparesOthers_rm (t : SrcRoutingTable δ n m) (i : Fin n) :
    SparesOthers i t (t.uipDs6SrcRouteRm i) :=
  sparesOthers_update rfl (freeAll_mem _ _)

/-- The entry that is added is free, or that of the destination; it has no hops. -/
lemma add_spec {ipaddr : IpAddr} {i : Fin n} (hadd : t.uipDs6SrcRouteAdd ipaddr = (some i, t')) :
    SparesOthers i t t' ∧ (t'.routes i).addrList = [] ∧ (t'.routes i).ipaddr = ipaddr ∧
      (((t.routes i).isused = false ∧ ∀ j, (t.routes j).isused = true → (t.routes j).ipaddr ≠ ipaddr) ∨
        (t.routes i).isused = true ∧ (t.routes i).ipaddr = ipaddr) := by
  unfold uipDs6SrcRouteAdd at hadd
  split at hadd
  · rename_i j hloop
    obtain ⟨hfree, hnone⟩ := ListLoop.freespace_spec hloop
    cases hadd
    refine ⟨sparesOthers_update rfl rfl, by simp [set], by simp [set], .inl ⟨hfree, ?_⟩⟩
    intro k hused heq
    exact hnone k ⟨hused, (IpAddr.uipIpaddrPrefixcmp_128 _ _).mpr heq⟩
  · rename_i j hloop
    obtain ⟨hused, hmatches⟩ := ListLoop.found_spec hloop
    have heq := (IpAddr.uipIpaddrPrefixcmp_128 _ _).mp hmatches
    cases hadd
    refine ⟨(sparesOthers_rm t i).trans (sparesOthers_update rfl rfl), by simp [set], ?_,
      .inr ⟨hused, heq⟩⟩
    simpa [set] using heq
  · simp at hadd

lemma add_none_spec {ipaddr : IpAddr} (hadd : t.uipDs6SrcRouteAdd ipaddr = (none, t')) :
    t' = t ∧ ∀ j, (t.routes j).isused = true → (t.routes j).ipaddr ≠ ipaddr := by
  refine ⟨add_eq_none hadd, ?_⟩
  unfold uipDs6SrcRouteAdd at hadd
  split at hadd
  · simp at hadd
  · simp at hadd
  · rename_i hloop
    intro j hused heq
    exact (ListLoop.nospace_spec hloop).2 j ⟨hused, (IpAddr.uipIpaddrPrefixcmp_128 _ _).mpr heq⟩

/-- A destination has an entry if it had one, or if there is one that is free. -/
lemma exists_add {dest : IpAddr}
    (h : ∃ i, (t.routes i).isused = false ∨ (t.routes i).ipaddr = dest) :
    ∃ i t', t.uipDs6SrcRouteAdd dest = (some i, t') ∧ t.addrMemb.room ≤ t'.addrMemb.room := by
  unfold uipDs6SrcRouteAdd
  split
  · exact ⟨_, _, rfl, Nat.le_refl _⟩
  · exact ⟨_, _, rfl, Memb.room_le_freeAll _ _⟩
  · rename_i hloop
    obtain ⟨hused, hother⟩ := ListLoop.nospace_spec hloop
    obtain ⟨i, hfree | hdest⟩ := h
    · exact absurd (hused i) (by simp [hfree])
    · exact absurd ((IpAddr.uipIpaddrPrefixcmp_128 _ _).mpr hdest) (fun hmatch => hother i ⟨hused i, hmatch⟩)

/-- While there is room a hop is added, and takes a block. -/
lemma exists_hopAdd {hop : IpAddr} {push : Bool} (h : 0 < t.addrMemb.room) :
    ∃ t', t.uipDs6SrcRouteHopAdd route hop push = some t' ∧ t'.addrMemb.room + 1 = t.addrMemb.room := by
  obtain ⟨b, memb, halloc, -, -, -, hroom⟩ := Memb.alloc_of_room h
  unfold uipDs6SrcRouteHopAdd
  rw [halloc]
  exact ⟨_, rfl, hroom⟩

/-- A hop is put at the front of the route or at its end. -/
lemma WellKept.hopAdd_spec (h : t.WellKept) {i : Fin n} {hop : IpAddr} {push : Bool}
    (hadd : t.uipDs6SrcRouteHopAdd i hop push = some t') :
    SparesOthers i t t' ∧ (t'.routes i).toDs6Element = (t.routes i).toDs6Element ∧
      t'.hops i = (if push then hop :: t.hops i else t.hops i ++ [hop]) := by
  unfold uipDs6SrcRouteHopAdd at hadd
  cases halloc : t.addrMemb.alloc with
  | none => simp [halloc] at hadd
  | some r =>
    obtain ⟨a, memb⟩ := r
    simp only [halloc, Option.some.injEq] at hadd
    subst hadd
    obtain ⟨hzero, rfl⟩ := Memb.alloc_eq_some halloc
    have hfresh : ∀ j, a ∉ (t.routes j).addrList := fun j => h.owned.fresh_notMem hzero j
    have hmap : ∀ j, (t.routes j).addrList.map (Function.update t.addrMemb.mem a hop) = t.hops j := by
      intro j
      refine List.map_congr_left fun b hb => Function.update_of_ne ?_ _ _
      rintro rfl
      exact hfresh j hb
    refine ⟨fun j hj => ?_, by simp, ?_⟩
    · refine ⟨by simp [hj], ?_⟩
      rw [hops]
      simp only [Function.update_of_ne hj]
      exact hmap j
    · rw [hops]
      simp only [Function.update_self, Memb.write_mem]
      cases push
      · rw [if_neg (by simp), if_neg (by simp), listAdd_of_notMem (hfresh i), List.map_append, hmap]
        simp
      · rw [if_pos rfl, if_pos rfl, listPush, List.erase_of_not_mem (hfresh i), List.map_cons, hmap]
        simp

/-- When a route is gone, the blocks of the other ones are in use. -/
lemma WellKept.count_of_gone (h : t'.WellKept) {i : Fin n}
    (hspares : SparesOthers i t t') (hgone : (t'.routes i).addrList = []) (b : Fin m) :
    t'.addrMemb.count b ≠ 0 ↔ ∃ j, j ≠ i ∧ b ∈ (t.routes j).addrList := by
  rw [h.owned.parts.live_iff b]
  constructor
  · rintro ⟨j, hj⟩
    have hji : j ≠ i := by
      rintro rfl
      rw [hgone] at hj
      exact List.not_mem_nil hj
    exact ⟨j, hji, by rwa [(hspares j hji).1] at hj⟩
  · rintro ⟨j, hji, hj⟩
    exact ⟨j, by rwa [(hspares j hji).1]⟩

end SrcRoutingTable
end Contiki

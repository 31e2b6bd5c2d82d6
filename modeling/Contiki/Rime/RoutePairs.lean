import Contiki.Rime.RouteTable

/-!
# One route for each destination and next hop

An entry that is added takes the place of the one with its destination and next hop, if this one is what
the lookup finds for the destination.  The lookup finds one of the cheapest entries, but none with the
highest cost there is.

* `RouteTable.costs` — what the table has for a destination and a next hop.
* `RouteTable.routes_of_run` — when the table has at most one entry for them, and the lookup is right.
-/

namespace Contiki
namespace Rime
namespace RouteTable
variable {size n : ℕ} {s s' : RouteTable size n} {e x : Fin (n + 1)} {dest nexthop : Rimeaddr size}

/-- The entries for a destination by a next hop. -/
def routesBy (s : RouteTable size n) (dest nexthop : Rimeaddr size) : List (Fin (n + 1)) :=
  s.table.filter fun e => (s.entry e).dest = dest ∧ (s.entry e).nexthop = nexthop

/-- The costs of the entries for a destination by a next hop. -/
def costs (s : RouteTable size n) (dest nexthop : Rimeaddr size) : List UInt8 :=
  (s.routesBy dest nexthop).map fun e => (s.entry e).cost

/-- There is at most one entry for a destination by a next hop. -/
def Unique (s : RouteTable size n) : Prop := ∀ dest nexthop, (s.costs dest nexthop).length ≤ 1

/-- An entry may be added for a destination and a next hop: one that is there is the first of the cheapest
entries for the destination and does not have the highest cost, or it is the last one of a table that is
full and will be dropped. -/
def AddOk (s : RouteTable size n) (dest nexthop : Rimeaddr size) : Prop :=
  ∀ e ∈ s.routesBy dest nexthop, s.Finds dest nexthop e ∨ s.Full ∧ s.table.getLast? = some e

/-- The lookup finds an entry for the destination of the least cost, and nothing just if there is none. -/
def LookupRight (s : RouteTable size n) (dest : Rimeaddr size) : Prop :=
  (s.routeLookup dest = none ↔ s.routesTo dest = []) ∧
    ∀ e, s.routeLookup dest = some e → e ∈ s.routesTo dest ∧
      ∀ x ∈ s.routesTo dest, (s.entry e).cost.toNat ≤ (s.entry x).cost.toNat

lemma mem_routesBy : e ∈ s.routesBy dest nexthop ↔
    e ∈ s.table ∧ (s.entry e).dest = dest ∧ (s.entry e).nexthop = nexthop := by
  simp [routesBy]

/-! ## The lookup -/

lemma routeLookup_eq_none_iff : s.routeLookup dest = none ↔ ∀ e ∈ s.routesTo dest, (s.entry e).cost = 255 := by
  have hnone : s.routeLookup dest = none ↔ ∀ e ∈ s.routesTo dest, ¬ (s.entry e).cost.toNat < 255 :=
    search_eq_none_iff preference_lt
  rw [hnone]
  refine forall₂_congr fun e _ => ?_
  rw [← UInt8.toNat_inj]
  have hlt := (s.entry e).cost.toNat_lt
  show _ ↔ _ = 255
  omega

/-- The lookup is right just if there is no entry, or one that does not have the highest cost. -/
lemma lookupRight_iff :
    s.LookupRight dest ↔ s.routesTo dest = [] ∨ ∃ e ∈ s.routesTo dest, (s.entry e).cost ≠ 255 := by
  constructor
  · rintro ⟨hnone, -⟩
    by_contra hnot
    obtain ⟨hsome, hall⟩ := not_or.mp hnot
    refine hsome (hnone.mp (routeLookup_eq_none_iff.mpr fun e he => ?_))
    by_contra hcost
    exact hall ⟨e, he, hcost⟩
  · intro h
    refine ⟨⟨fun hnone => ?_, fun hnil => routeLookup_eq_none_iff.mpr fun e he => ?_⟩, fun e he => ?_⟩
    · rcases h with hnil | ⟨e, he, hcost⟩
      · exact hnil
      · exact absurd (routeLookup_eq_none_iff.mp hnone e he) hcost
    · rw [hnil] at he
      exact absurd he List.not_mem_nil
    · have hfound := routeLookup_eq_some_iff.mp he
      exact ⟨hfound.mem, fun x hx => hfound.least hx⟩

/-! ## What an addition does -/

/-- Two entries for a destination by a next hop are the same. -/
lemma Unique.eq (h : s.Unique) (he : e ∈ s.routesBy dest nexthop) (hx : x ∈ s.routesBy dest nexthop) :
    e = x := by
  have hlen := h dest nexthop
  rw [costs, List.length_map] at hlen
  cases hl : s.routesBy dest nexthop with
  | nil =>
    rw [hl] at he
    exact absurd he List.not_mem_nil
  | cons a l =>
    have hnil : l = [] := by
      rw [hl, List.length_cons] at hlen
      exact List.length_eq_zero_iff.mp (by omega)
    rw [hl, hnil] at he hx
    rw [List.mem_singleton.mp he, List.mem_singleton.mp hx]

lemma Finds.mem_routesBy (h : s.Finds dest nexthop e) : e ∈ s.routesBy dest nexthop :=
  RouteTable.mem_routesBy.mpr ⟨h.mem, h.dest_eq, h.2⟩

/-- Without the block for the new entry, there is no entry for the destination and the next hop any more,
just if one may be added. -/
lemma BlockFor.free_iff (h : s.BlockFor dest nexthop e s') (hunique : s.Unique) :
    (∀ x ∈ s'.table, x ∉ s.routesBy dest nexthop) ↔ s.AddOk dest nexthop := by
  constructor
  · intro hfree x hx
    have hnot : x ∉ s'.table := fun hin => hfree x hin hx
    have hin := (mem_routesBy.mp hx).1
    rcases h.cases with ⟨hfinds, -⟩ | ⟨-, heq | ⟨hfull, heq⟩⟩
    · rw [hunique.eq hx hfinds.mem_routesBy]
      exact .inl hfinds
    · rw [heq] at hnot
      exact absurd hin hnot
    · refine .inr ⟨hfull, ?_⟩
      rw [heq] at hin ⊢
      rcases List.mem_append.mp hin with hin | hin
      · exact absurd hin hnot
      · rw [List.mem_singleton.mp hin, List.getLast?_concat]
  · intro hok x hin hx
    have hne : x ≠ e := fun heq => h.fresh (heq ▸ hin)
    rcases h.cases with ⟨hfinds, -⟩ | ⟨hnone, hcases⟩
    · exact hne (hunique.eq hx hfinds.mem_routesBy)
    · obtain ⟨hfull, hlast⟩ := (hok x hx).resolve_left (hnone x)
      rcases hcases with heq | ⟨-, heq⟩
      · exact h.fresh (heq ▸ hfull e)
      · rw [heq, List.getLast?_concat, Option.some.injEq] at hlast
        exact hne hlast.symm

/-- What the table has for a destination and a next hop after an addition. -/
lemma costs_routeAdd (h : s.Owned) (dest nexthop : Rimeaddr size) (cost seqno : UInt8) :
    ∃ e s', s.BlockFor dest nexthop e s' ∧ ∀ d hop,
      (s.routeAdd dest nexthop cost seqno).costs d hop =
        (if dest = d ∧ nexthop = hop then [cost] else []) ++
          (s'.table.filter fun x => x ∈ s.routesBy d hop).map fun x => (s.entry x).cost := by
  obtain ⟨e, s', hblock, htable, -, hentry, -⟩ := routeAdd_spec h dest nexthop cost seqno
  refine ⟨e, s', hblock, fun d hop => ?_⟩
  have hold : ∀ x ∈ s'.table, (s.routeAdd dest nexthop cost seqno).entry x = s.entry x := fun x hx => by
    rw [hentry, Function.update_of_ne]
    rintro rfl
    exact hblock.fresh hx
  have hnew : (s.routeAdd dest nexthop cost seqno).entry e = (s.entry e).renewed dest nexthop cost seqno := by
    rw [hentry, Function.update_self]
  have htail : (s'.table.filter fun x =>
      ((s.routeAdd dest nexthop cost seqno).entry x).dest = d ∧
        ((s.routeAdd dest nexthop cost seqno).entry x).nexthop = hop) =
      s'.table.filter fun x => x ∈ s.routesBy d hop := by
    refine List.filter_congr fun x hx => ?_
    rw [hold x hx, decide_eq_decide, RouteTable.mem_routesBy]
    exact (and_iff_right (hblock.sublist.subset hx)).symm
  have hcosts : ((s'.table.filter fun x => x ∈ s.routesBy d hop).map fun x =>
      ((s.routeAdd dest nexthop cost seqno).entry x).cost) =
      (s'.table.filter fun x => x ∈ s.routesBy d hop).map fun x => (s.entry x).cost :=
    List.map_congr_left fun x hx => by rw [hold x (List.mem_of_mem_filter hx)]
  unfold costs routesBy at *
  rw [htable, List.filter_cons, htail]
  by_cases hpair : dest = d ∧ nexthop = hop
  · rw [if_pos (by rw [hnew]; exact decide_eq_true hpair), if_pos hpair, List.map_cons, hnew, hcosts]
    rfl
  · rw [if_neg (by rw [hnew]; exact fun h => hpair (of_decide_eq_true h)), if_neg hpair, hcosts]
    rfl

/-- After an addition there is one entry with the cost just given, and at most one for any other destination
and next hop, just if the entry may be added. -/
lemma routeAdd_unique_iff (h : s.Owned) (hunique : s.Unique) (dest nexthop : Rimeaddr size) (cost seqno : UInt8) :
    ((s.routeAdd dest nexthop cost seqno).Unique ∧
      (s.routeAdd dest nexthop cost seqno).costs dest nexthop = [cost]) ↔ s.AddOk dest nexthop := by
  obtain ⟨e, s', hblock, hcosts⟩ := costs_routeAdd h dest nexthop cost seqno
  rw [← hblock.free_iff hunique]
  have hown := hcosts dest nexthop
  rw [if_pos ⟨rfl, rfl⟩] at hown
  constructor
  · rintro ⟨-, hone⟩ x hx hby
    rw [hown] at hone
    have hnil : (s'.table.filter fun x => x ∈ s.routesBy dest nexthop) = [] := by simpa using hone
    exact absurd (List.mem_filter.mpr ⟨hx, decide_eq_true hby⟩) (hnil ▸ List.not_mem_nil)
  · intro hfree
    have hnil : (s'.table.filter fun x => x ∈ s.routesBy dest nexthop) = [] :=
      List.filter_eq_nil_iff.mpr fun x hx => by simpa using hfree x hx
    rw [hnil] at hown
    refine ⟨fun d hop => ?_, hown⟩
    by_cases hpair : dest = d ∧ nexthop = hop
    · obtain ⟨rfl, rfl⟩ := hpair
      rw [hown]
      exact le_rfl
    · have hsub : (s'.table.filter fun x => x ∈ s.routesBy d hop).length ≤ (s.routesBy d hop).length := by
        have hfilter : (s'.table.filter fun x => x ∈ s.routesBy d hop).Sublist
            (s.table.filter fun x => x ∈ s.routesBy d hop) := hblock.sublist.filter _
        have hsame : (s.table.filter fun x => x ∈ s.routesBy d hop) = s.routesBy d hop :=
          List.filter_congr fun x hx => by
            rw [decide_eq_decide, RouteTable.mem_routesBy]
            exact and_iff_right hx
        rw [hsame] at hfilter
        exact hfilter.length_le
      have hlen := hunique d hop
      rw [costs, List.length_map] at hlen
      rw [hcosts, if_neg hpair, List.nil_append, List.length_map]
      omega

/-! ## What the other operations do -/

/-- Nothing is put on the table, and what is on it leads where it did. -/
structure Keeps (s s' : RouteTable size n) : Prop where
  sublist : s'.table.Sublist s.table
  dest : ∀ e, (s'.entry e).dest = (s.entry e).dest
  nexthop : ∀ e, (s'.entry e).nexthop = (s.entry e).nexthop

lemma Keeps.refl (s : RouteTable size n) : s.Keeps s := ⟨.refl _, fun _ => rfl, fun _ => rfl⟩

lemma Keeps.trans {t : RouteTable size n} (h : s.Keeps s') (h' : s'.Keeps t) : s.Keeps t :=
  ⟨h'.sublist.trans h.sublist, fun e => (h'.dest e).trans (h.dest e),
    fun e => (h'.nexthop e).trans (h.nexthop e)⟩

lemma Keeps.unique (h : s.Keeps s') (hunique : s.Unique) : s'.Unique := by
  intro dest nexthop
  have hold := hunique dest nexthop
  have hsub : (s'.routesBy dest nexthop).Sublist (s.routesBy dest nexthop) := by
    unfold routesBy
    simp only [h.dest, h.nexthop]
    exact h.sublist.filter _
  rw [costs, List.length_map] at hold ⊢
  exact hsub.length_le.trans hold

lemma keeps_setEntry {r : RouteItem size} (hdest : r.dest = (s.entry e).dest)
    (hnexthop : r.nexthop = (s.entry e).nexthop) : s.Keeps (s.setEntry e r) := by
  have hentry : (s.setEntry e r).entry = Function.update s.entry e r := rfl
  refine ⟨.refl _, fun x => ?_, fun x => ?_⟩
  all_goals
    rw [hentry]
    by_cases hx : x = e
    · subst hx
      rw [Function.update_self]
      assumption
    · rw [Function.update_of_ne hx]

lemma keeps_routeRemove (s : RouteTable size n) (e : Fin (n + 1)) : s.Keeps (s.routeRemove e) := by
  have hentry : (s.routeRemove e).entry = s.entry := s.mem.free_mem e
  exact ⟨List.erase_sublist, fun x => by rw [hentry], fun x => by rw [hentry]⟩

lemma keeps_turn (s : RouteTable size n) (e : Fin (n + 1)) : s.Keeps (s.turn e) := by
  have holder : s.Keeps (s.older e) := keeps_setEntry rfl rfl
  unfold turn
  split_ifs
  · exact holder.trans (keeps_routeRemove _ e)
  · exact holder

lemma keeps_routeDecay (s : RouteTable size n) (e : Fin (n + 1)) : s.Keeps (s.routeDecay e) := by
  have hdecayed : s.Keeps (s.decayed e) := keeps_setEntry rfl rfl
  unfold routeDecay
  split_ifs
  · exact hdecayed.trans (keeps_routeRemove _ e)
  · exact hdecayed
  · exact .refl s

lemma keeps_routeFlushAll (s : RouteTable size n) : s.Keeps s.routeFlushAll := by
  have hmem : ∀ (l : List (Fin (n + 1))) (m : Memb (RouteItem size) (n + 1)), (m.freeAll l).mem = m.mem := by
    intro l
    induction l with
    | nil => exact fun m => rfl
    | cons b l ih => exact fun m => (ih (m.free b)).trans (m.free_mem b)
  have hentry : s.routeFlushAll.entry = s.entry := hmem s.table s.mem
  exact ⟨List.nil_sublist _, fun x => by rw [hentry], fun x => by rw [hentry]⟩

/-- Entries are added only where they may be. -/
def AddsOk (s : RouteTable size n) (ev : Event size n) : Prop :=
  ∀ dest nexthop cost seqno, ev = .add dest nexthop cost seqno → s.AddOk dest nexthop

lemma unique_step (h : s.Owned) (hunique : s.Unique) {ev : Event size n} (hok : s.AddsOk ev)
    (hstep : s.step ev = .ok s') : s'.Unique := by
  cases ev with
  | add dest nexthop cost seqno =>
    cases hstep
    exact ((routeAdd_unique_iff h hunique dest nexthop cost seqno).mpr (hok _ _ _ _ rfl)).1
  | remove e =>
    obtain ⟨-, rfl⟩ := onTable_eq_ok.mp hstep
    exact (keeps_routeRemove s e).unique hunique
  | decay e =>
    obtain ⟨-, rfl⟩ := onTable_eq_ok.mp hstep
    exact (keeps_routeDecay s e).unique hunique
  | refresh e =>
    obtain ⟨-, rfl⟩ := onTable_eq_ok.mp hstep
    exact Keeps.unique (keeps_setEntry rfl rfl) hunique
  | flushAll =>
    cases hstep
    exact (keeps_routeFlushAll s).unique hunique
  | setLifetime seconds =>
    cases hstep
    exact hunique
  | periodic =>
    cases hstep
    have hkeeps : s.Keeps s.periodic :=
      periodicLoop_induction (P := fun t => s.Keeps t) (fun t e ht _ => ht.trans (keeps_turn t e)) _
        (fun _ he => List.mem_of_head? he) (.refl s)
    exact hkeeps.unique hunique

/-! ## Runs -/

/-- In a run in which entries are added only where they may be, there is at most one entry for a destination
and a next hop.  On every table of such a run the next addition leaves one entry with its cost, and at most
one for any other pair, just if the entry may be added; and the lookup is right just for those destinations
that have no entry, or one without the highest cost. -/
theorem routes_of_run (h : Reaches step AddsOk Empty s) :
    s.Unique ∧
      (∀ dest nexthop cost seqno, ((s.routeAdd dest nexthop cost seqno).Unique ∧
        (s.routeAdd dest nexthop cost seqno).costs dest nexthop = [cost]) ↔ s.AddOk dest nexthop) ∧
      ∀ dest, s.LookupRight dest ↔
        s.routesTo dest = [] ∨ ∃ e ∈ s.routesTo dest, (s.entry e).cost ≠ 255 := by
  have hrun : s.Owned ∧ s.Unique := by
    refine h.invariant (I := fun s => s.Owned ∧ s.Unique) (fun s hs => ⟨hs.owned, fun dest nexthop => ?_⟩) ?_
    · rw [costs, routesBy, hs.1]
      exact Nat.zero_le 1
    · rintro s ev s' ⟨howned, hunique⟩ hok hstep
      exact ⟨howned.step hstep, unique_step howned hunique hok hstep⟩
  exact ⟨hrun.2, routeAdd_unique_iff hrun.1 hrun.2, fun dest => lookupRight_iff⟩

instance (s : RouteTable size n) (dest nexthop : Rimeaddr size) : Decidable (s.AddOk dest nexthop) :=
  have (e : Fin (n + 1)) : Decidable (s.Finds dest nexthop e) :=
    decidable_of_iff (s.routeLookup dest = some e ∧ (s.entry e).nexthop = nexthop)
      (and_congr_left' routeLookup_eq_some_iff)
  inferInstanceAs (Decidable (∀ e ∈ s.routesBy dest nexthop,
    s.Finds dest nexthop e ∨ (∀ e, e ∈ s.table) ∧ s.table.getLast? = some e))

instance (s : RouteTable size n) : (ev : Event size n) → Decidable (s.AddsOk ev)
  | .add dest nexthop _ _ => decidable_of_iff (s.AddOk dest nexthop)
      ⟨fun h _ _ _ _ heq => by cases heq; exact h, fun h => h _ _ _ _ rfl⟩
  | .remove _ | .decay _ | .refresh _ | .flushAll | .setLifetime _ | .periodic =>
    .isTrue fun _ _ _ _ heq => by cases heq

/-- Two next hops for one destination and one for another; the cheaper of the two is added again. -/
theorem routes_of_run_three : ∃ s : RouteTable 2 7, Reaches step AddsOk Empty s ∧
    s.table.length = 3 ∧ s.costs (.short 1) (.short 3) = [2] ∧ s.Unique ∧
      s.LookupRight (.short 1) ∧ s.LookupRight (.short 4) ∧ s.LookupRight (.short 5) := by
  obtain ⟨s, hs, hslots⟩ : ∃ s : RouteTable 2 7, Reaches step AddsOk Empty s ∧
      (s.table.length, s.costs (.short 1) (.short 3), (s.routesTo (.short 1)).map fun e => (s.entry e).cost,
        (s.routesTo (.short 4)).map fun e => (s.entry e).cost, s.routesTo (.short 5)) =
        (3, [2], [2, 5], [1], []) :=
    Reaches.exists_guarded start_empty
      [.add (.short 1) (.short 2) 5 0, .add (.short 1) (.short 3) 3 0, .add (.short 4) (.short 2) 1 0,
        .add (.short 1) (.short 3) 2 0] _ (by decide +kernel)
  simp only [Prod.mk.injEq] at hslots
  obtain ⟨hlength, hcosts, htwo, hone, hnone⟩ := hslots
  obtain ⟨hunique, -, hlookup⟩ := routes_of_run hs
  have hfound {dest : Rimeaddr 2} {c : UInt8} {cs : List UInt8}
      (h : ((s.routesTo dest).map fun e => (s.entry e).cost) = c :: cs) (hc : c ≠ 255) :
      s.LookupRight dest := by
    obtain ⟨e, es, hroutes, rfl, -⟩ := List.map_eq_cons_iff.mp h
    exact (hlookup dest).mpr (.inr ⟨e, by rw [hroutes]; exact List.mem_cons_self, hc⟩)
  exact ⟨s, hs, hlength, hcosts, hunique, hfound htwo (by decide), hfound hone (by decide),
    (hlookup _).mpr (.inl hnone)⟩

/-- A route that is not the cheapest one and is added again stands on the table twice; and a single route
with the highest cost is not found. -/
theorem not_routes_of_run :
    (¬ ∀ s : RouteTable 2 7, Reaches step anyEvent Empty s → s.Unique) ∧
      ¬ ∀ s : RouteTable 2 7, Reaches step anyEvent Empty s → ∀ dest, s.LookupRight dest := by
  constructor
  · intro hall
    have hfirst : Reaches step anyEvent Empty (start.routeAdd (.short 1) (.short 2) 5 0) :=
      Reaches.tail (Reaches.initial start_empty) (e := .add (.short 1) (.short 2) 5 0) trivial rfl
    have hsecond : Reaches step anyEvent Empty
        ((start.routeAdd (.short 1) (.short 2) 5 0).routeAdd (.short 1) (.short 3) 3 0) :=
      Reaches.tail hfirst (e := .add (.short 1) (.short 3) 3 0) trivial rfl
    have hrun : Reaches step anyEvent Empty (((start.routeAdd (.short 1) (.short 2) 5 0).routeAdd
        (.short 1) (.short 3) 3 0).routeAdd (.short 1) (.short 2) 5 0) :=
      Reaches.tail hsecond (e := .add (.short 1) (.short 2) 5 0) trivial rfl
    exact absurd (hall _ hrun (.short 1) (.short 2)) (by decide)
  · intro hall
    have hrun : Reaches step anyEvent Empty (start.routeAdd (.short 1) (.short 2) 255 0) :=
      Reaches.tail (Reaches.initial start_empty) (e := .add (.short 1) (.short 2) 255 0) trivial rfl
    have hright := (hall _ hrun (.short 1)).1.mp (by decide)
    exact absurd hright (by decide)

end RouteTable
end Rime
end Contiki

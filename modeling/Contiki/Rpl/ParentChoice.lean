import Contiki.Lib.Hysteresis
import Contiki.Rpl.EtxMetrics

/-!
# The choice of the preferred parent

`rpl_select_parent` compares the parents of a finite rank one after the other with `best_parent` of
`rpl_of_etx`, which keeps the preferred parent while the path metrics are similar.

* `choosesNearLeast_iff` — when the parent that is chosen is within the threshold of the least path
  metric, whatever the order of the parents: on a platform whose `int` has sixteen bits the bounds that
  define similar metrics wrap.
-/

namespace Contiki
namespace Node
variable {cfg : Config} (s : Node cfg)

/-- The parents on a list whose rank is finite. -/
def finiteParents (l : List cfg.ParentRef) : List cfg.ParentRef :=
  l.filter fun p => (s.parent p).rank ≠ infiniteRank

/-- Two path metrics differ by less than half an ETX, in the arithmetic of the platform. -/
def nearMetrics (cfg : Config) (x y : ℕ) : Bool :=
  (x : ℤ) < cfg.cInt (y + etxMinDiff) && (x : ℤ) > cfg.cInt (y - etxMinDiff)

/-- From a list with a parent of finite rank one is chosen whose path metric is less than half an ETX
above the least one; it has the least one, at least half an ETX below that of the preferred parent, if
it is another. -/
def ChoosesNearLeast (d : cfg.DagRef) (l : List cfg.ParentRef) : Prop :=
  s.finiteParents l ≠ [] → ∃ c, s.selectBest .etx d l none = some c ∧
    Hysteresis.NearLeast (s.pathMetric d) (s.dagTable d).preferredParent 64 (s.finiteParents l) c

/-- The bounds around a path metric do not leave sixteen bits. -/
def InRange (x : ℕ) : Prop := 64 ≤ x ∧ x < 65472

/-- Where `int` has sixteen bits and the preferred parent `k` is among the parents of finite rank: some
path metric is smaller by half an ETX, or no bound wraps in a comparison that `k` has to win. -/
def BoundsFit (d : cfg.DagRef) (l : List cfg.ParentRef) : Prop :=
  cfg.int16 = true → ∀ before k after, s.finiteParents l = before ++ k :: after →
    (s.dagTable d).preferredParent = some k →
      (∃ p ∈ s.finiteParents l, s.pathMetric d p + 64 ≤ s.pathMetric d k) ∨
        ((∀ p ∈ before, s.pathMetric d k ≤ s.pathMetric d p) ∨ InRange (s.pathMetric d k)) ∧
          ∀ p ∈ after, s.pathMetric d k < s.pathMetric d p ∨ InRange (s.pathMetric d p)

variable {s} {d : cfg.DagRef} {l : List cfg.ParentRef}

/-! ## Similar metrics -/

lemma nearMetrics_wide (hwide : cfg.int16 = false) (x y : ℕ) :
    nearMetrics cfg x y ↔ x < y + 64 ∧ y < x + 64 := by
  simp only [nearMetrics, Config.cInt, hwide, etxMinDiff, Bool.and_eq_true, decide_eq_true_eq,
    Bool.false_eq_true, if_false]
  omega

lemma nearMetrics_narrow (hnarrow : cfg.int16 = true) {x y : ℕ} (hx : x < 65536) (hy : y < 65536) :
    nearMetrics cfg x y ↔ (x < y + 64 ∧ y < x + 64) ∧ InRange y := by
  simp only [nearMetrics, Config.cInt, hnarrow, etxMinDiff, Bool.and_eq_true, decide_eq_true_eq,
    if_true, InRange]
  omega

lemma nearMetrics_near {x y : ℕ} (hx : x < 65536) (hy : y < 65536) (h : nearMetrics cfg x y) :
    x < y + 64 ∧ y < x + 64 := by
  cases hint : cfg.int16 with
  | false => exact (nearMetrics_wide hint x y).mp h
  | true => exact ((nearMetrics_narrow hint hx hy).mp h).1

/-! ## The loop -/

/-- `best_parent` of `rpl_of_etx`, for two parents of the DAG. -/
lemma etxBestParent_eq {p q : cfg.ParentRef} (hp : (s.parent p).dag = some d) :
    s.etxBestParent d p q = some (Hysteresis.better (s.pathMetric d) (nearMetrics cfg)
      (s.dagTable d).preferredParent p q) := by
  have hdag : s.parentDag d p = s.dagTable d := by
    rw [parentDag, hp]
    rfl
  unfold etxBestParent Hysteresis.better
  rw [hdag]
  dsimp only
  by_cases hkept : (some p = (s.dagTable d).preferredParent ∨
      some q = (s.dagTable d).preferredParent) ∧
      nearMetrics cfg (s.pathMetric d p) (s.pathMetric d q) = true
  · rw [if_pos hkept]
    refine (if_pos hkept).trans ?_
    rcases hkept.1 with h | h <;> rw [← h] <;> rfl
  · rw [if_neg hkept]
    refine (if_neg hkept).trans ?_
    by_cases hlt : s.pathMetric d p < s.pathMetric d q
    · rw [if_pos hlt]
      exact if_pos hlt
    · rw [if_neg hlt]
      exact if_neg hlt

lemma finiteParents_cons (p : cfg.ParentRef) (rest : List cfg.ParentRef) :
    s.finiteParents (p :: rest) =
      if (s.parent p).rank = infiniteRank then s.finiteParents rest
      else p :: s.finiteParents rest := by
  unfold finiteParents
  rw [List.filter_cons]
  by_cases h : (s.parent p).rank = infiniteRank <;> simp [h]

lemma selectBest_some_eq {b : cfg.ParentRef} (hdag : ∀ p ∈ b :: l, (s.parent p).dag = some d) :
    s.selectBest .etx d l (some b) = some (Hysteresis.pickFrom (s.pathMetric d) (nearMetrics cfg)
      (s.dagTable d).preferredParent (s.finiteParents l) b) := by
  induction l generalizing b with
  | nil => rfl
  | cons p rest ih =>
    rw [finiteParents_cons, selectBest]
    by_cases hrank : (s.parent p).rank = infiniteRank
    · rw [if_pos hrank, if_pos hrank]
      exact ih fun q hq => hdag q (by simp only [List.mem_cons] at hq ⊢; tauto)
    · rw [if_neg hrank, if_neg hrank, Hysteresis.pickFrom_cons]
      show s.selectBest .etx d rest (s.etxBestParent d b p) = _
      rw [etxBestParent_eq (hdag b List.mem_cons_self)]
      refine ih fun q hq => ?_
      rcases List.mem_cons.mp hq with rfl | hq
      · rcases Hysteresis.better_cases (m := s.pathMetric d) (a := b) (b := p) with h | h <;> rw [h]
        · exact hdag b List.mem_cons_self
        · exact hdag p (List.mem_cons_of_mem _ List.mem_cons_self)
      · exact hdag q (List.mem_cons_of_mem _ (List.mem_cons_of_mem _ hq))

lemma selectBest_eq (hdag : ∀ p ∈ l, (s.parent p).dag = some d) :
    s.selectBest .etx d l none = Hysteresis.pick (s.pathMetric d) (nearMetrics cfg)
      (s.dagTable d).preferredParent (s.finiteParents l) := by
  induction l with
  | nil => rfl
  | cons p rest ih =>
    rw [finiteParents_cons, selectBest]
    by_cases hrank : (s.parent p).rank = infiniteRank
    · rw [if_pos hrank, if_pos hrank]
      exact ih fun q hq => hdag q (List.mem_cons_of_mem p hq)
    · rw [if_neg hrank, if_neg hrank]
      exact selectBest_some_eq hdag

/-! ## The parent that is chosen -/

/-- The preferred parent has a place among the parents of finite rank. -/
lemma choosesNearLeast_split (hdag : ∀ p ∈ l, (s.parent p).dag = some d) (hnodup : l.Nodup)
    {before after : List cfg.ParentRef} {k : cfg.ParentRef}
    (hsplit : s.finiteParents l = before ++ k :: after)
    (hk : (s.dagTable d).preferredParent = some k) :
    s.ChoosesNearLeast d l ↔ (∃ p ∈ s.finiteParents l, s.pathMetric d p + 64 ≤ s.pathMetric d k) ∨
      Hysteresis.Stays (s.pathMetric d) (nearMetrics cfg) k before after := by
  have hnodup' : (before ++ k :: after).Nodup := hsplit ▸ hnodup.filter _
  have hafter : k ∉ after := (List.nodup_cons.mp (List.nodup_append.mp hnodup').2.1).1
  have hbefore : k ∉ before := fun h =>
    (List.nodup_append.mp hnodup').2.2 k h k List.mem_cons_self rfl
  unfold ChoosesNearLeast
  rw [selectBest_eq hdag, hsplit, hk, imp_iff_right (by simp)]
  obtain ⟨c, hc⟩ : ∃ c, Hysteresis.pick (s.pathMetric d) (nearMetrics cfg) (some k)
      (before ++ k :: after) = some c := by
    rcases Hysteresis.pick_before hbefore with ⟨h, -⟩ | ⟨a, -, -, -, h⟩ <;> exact ⟨_, h⟩
  rw [hc]
  have hiff := Hysteresis.nearLeast_iff (by omega)
    (fun a b h => nearMetrics_near (pathMetric_lt (s := s) (d := d) a) (pathMetric_lt b) h)
    hbefore hafter hc
  refine Iff.trans ⟨?_, fun h => ⟨c, rfl, h⟩⟩ hiff
  rintro ⟨c', heq, h⟩
  rwa [Option.some.inj heq]

/-- Without the preferred parent a least path metric is chosen. -/
lemma choosesNearLeast_of_forall_ne (hdag : ∀ p ∈ l, (s.parent p).dag = some d)
    (hne : ∀ p ∈ s.finiteParents l, some p ≠ (s.dagTable d).preferredParent) :
    s.ChoosesNearLeast d l := by
  intro hnil
  rw [selectBest_eq hdag]
  obtain ⟨p, rest, hsplit⟩ := List.exists_cons_of_ne_nil hnil
  obtain ⟨c, hc⟩ : ∃ c, Hysteresis.pick (s.pathMetric d) (nearMetrics cfg)
      (s.dagTable d).preferredParent (s.finiteParents l) = some c := by
    rw [hsplit]
    exact ⟨_, rfl⟩
  exact ⟨c, hc, Hysteresis.nearLeast_of_forall_ne (by omega) hc hne⟩

/-- No metric is far below that of the preferred parent `k`: it stays when no bound wraps in a comparison
that it has to win. -/
lemma stays_iff {before after : List cfg.ParentRef} {k : cfg.ParentRef}
    (hfar : ∀ p ∈ before ++ k :: after, s.pathMetric d k < s.pathMetric d p + 64) :
    Hysteresis.Stays (s.pathMetric d) (nearMetrics cfg) k before after ↔
      (cfg.int16 = true → ((∀ p ∈ before, s.pathMetric d k ≤ s.pathMetric d p) ∨
        InRange (s.pathMetric d k)) ∧
          ∀ p ∈ after, s.pathMetric d k < s.pathMetric d p ∨ InRange (s.pathMetric d p)) := by
  have hbefore : ∀ p ∈ before, s.pathMetric d k < s.pathMetric d p + 64 := fun p hp =>
    hfar p (List.mem_append_left _ hp)
  have hafter : ∀ p ∈ after, s.pathMetric d k < s.pathMetric d p + 64 := fun p hp =>
    hfar p (List.mem_append_right _ (List.mem_cons_of_mem _ hp))
  cases hint : cfg.int16 with
  | false =>
    refine iff_of_true ⟨fun p hp _ => ?_, fun p hp => ?_⟩ nofun
    · rw [nearMetrics_wide hint]
      have := hbefore p hp
      omega
    · rw [nearMetrics_wide hint]
      have := hafter p hp
      omega
  | true =>
    rw [imp_iff_right rfl]
    refine and_congr ⟨fun h => ?_, fun h p hp _ => ?_⟩ (forall₂_congr fun p hp => ?_)
    · by_cases hrange : InRange (s.pathMetric d k)
      · exact .inr hrange
      · refine .inl fun p hp => ?_
        obtain ⟨r, hr, hleast⟩ := Hysteresis.exists_least (m := s.pathMetric d)
          (List.ne_nil_of_mem hp)
        have hrp := hleast p hp
        have hstays := h r hr hleast
        rw [nearMetrics_narrow hint (pathMetric_lt _) (pathMetric_lt _)] at hstays
        rcases hstays with hs | hle
        · exact absurd hs.2 hrange
        · omega
    · rw [nearMetrics_narrow hint (pathMetric_lt _) (pathMetric_lt _)]
      have := hbefore p hp
      rcases h with h | h
      · exact .inr (h p hp)
      · by_cases hle : s.pathMetric d k ≤ s.pathMetric d p
        · exact .inr hle
        · exact .inl ⟨by omega, h⟩
    · rw [nearMetrics_narrow hint (pathMetric_lt _) (pathMetric_lt _)]
      have := hafter p hp
      constructor
      · rintro (h | h)
        · exact .inr h.2
        · exact .inl h
      · rintro (h | h)
        · exact .inr h
        · by_cases hlt : s.pathMetric d k < s.pathMetric d p
          · exact .inr hlt
          · exact .inl ⟨by omega, h⟩

/-- The parent that is chosen from the parents of a DAG is within half an ETX of the least path metric,
whatever their order, exactly when the bounds fit. -/
theorem choosesNearLeast_iff (hdag : ∀ p ∈ l, (s.parent p).dag = some d) (hnodup : l.Nodup) :
    s.ChoosesNearLeast d l ↔ s.BoundsFit d l := by
  have hnear : ∀ {before after : List cfg.ParentRef} {k : cfg.ParentRef},
      s.finiteParents l = before ++ k :: after →
      (¬∃ p ∈ s.finiteParents l, s.pathMetric d p + 64 ≤ s.pathMetric d k) →
      ∀ p ∈ before ++ k :: after, s.pathMetric d k < s.pathMetric d p + 64 := by
    intro before after k hsplit hfar p hp
    by_contra hcon
    exact hfar ⟨p, hsplit ▸ hp, by omega⟩
  constructor
  · intro h hint before k after hsplit hk
    by_cases hfar : ∃ p ∈ s.finiteParents l, s.pathMetric d p + 64 ≤ s.pathMetric d k
    · exact .inl hfar
    · have hstays := ((choosesNearLeast_split hdag hnodup hsplit hk).mp h).resolve_left hfar
      exact .inr ((stays_iff (hnear hsplit hfar)).mp hstays hint)
  · intro h
    by_cases hne : ∀ p ∈ s.finiteParents l, some p ≠ (s.dagTable d).preferredParent
    · exact choosesNearLeast_of_forall_ne hdag hne
    · obtain ⟨k, hmem, hk⟩ : ∃ k ∈ s.finiteParents l, some k = (s.dagTable d).preferredParent := by
        by_contra hcon
        exact hne fun p hp heq => hcon ⟨p, hp, heq⟩
      obtain ⟨before, after, hsplit⟩ := List.append_of_mem hmem
      rw [choosesNearLeast_split hdag hnodup hsplit hk.symm]
      by_cases hfar : ∃ p ∈ s.finiteParents l, s.pathMetric d p + 64 ≤ s.pathMetric d k
      · exact .inl hfar
      · refine .inr ((stays_iff (hnear hsplit hfar)).mpr fun hint => ?_)
        exact (h hint before k after hsplit hk.symm).resolve_left hfar

/-- Two parents whose metrics are far from the bounds. -/
theorem choosesNearLeast_inRange : ∃ s : Node .default, s.Reachable ∧
    (s.dagTable 0).parents.length = 2 ∧ s.ChoosesNearLeast 0 (s.dagTable 0).parents := by
  obtain ⟨s, hs, hobs⟩ := exists_reachable 3
    [.processDio (nodeLinkLocal 2) (routerDio 400), .processDio (nodeLinkLocal 4) (routerDio 380)]
    (fun s => decide ((s.dagTable 0).parents = [0, 1] ∧
      64 ≤ s.pathMetric 0 0 ∧ s.pathMetric 0 0 < 65472 ∧ 64 ≤ s.pathMetric 0 1 ∧ s.pathMetric 0 1 < 65472))
    (a := true) (by decide +kernel)
  obtain ⟨hparents, hlow, hhigh, hlow', hhigh'⟩ := of_decide_eq_true hobs
  have hrange : ∀ p ∈ (s.dagTable 0).parents, InRange (s.pathMetric 0 p) := by
    intro p hp
    rw [hparents] at hp
    rcases List.mem_cons.mp hp with rfl | hp
    · exact ⟨hlow, hhigh⟩
    · rw [List.mem_singleton.mp hp]
      exact ⟨hlow', hhigh'⟩
  have howned := reachable_owned hs
  refine ⟨s, hs, by rw [hparents]; rfl,
    (choosesNearLeast_iff (howned.dag 0) (by rw [hparents]; decide)).mpr ?_⟩
  intro _ before k after hsplit _
  have hmem : ∀ p ∈ before ++ k :: after, InRange (s.pathMetric 0 p) := fun p hp =>
    hrange p (List.mem_of_mem_filter (hsplit ▸ hp))
  exact .inr ⟨.inr (hmem k (by simp)), fun p hp => .inr (hmem p (by simp [hp]))⟩

/-- The preferred parent, of the metric 65508, is left for one of the metric 65464. -/
theorem not_choosesNearLeast : ¬∀ s : Node .default, s.Reachable → ∀ d,
    s.ChoosesNearLeast d (s.dagTable d).parents := by
  intro h
  obtain ⟨s, hs, hobs⟩ := exists_reachable 3
    [.processDio (nodeLinkLocal 2) (routerDio 65400), .processDio (nodeLinkLocal 4) (routerDio 65380),
      .linkNeighbor ⟨[2, 0, 0, 0, 0, 0, 0, 2], rfl⟩ true 8]
    (fun s => decide ((s.selectBest .etx 0 (s.dagTable 0).parents none = some 0 ∧
      (s.dagTable 0).preferredParent = some 1 ∧ s.finiteParents (s.dagTable 0).parents = [0, 1]) ∧
        s.pathMetric 0 0 = 65464 ∧ s.pathMetric 0 1 = 65508))
    (a := true) (by decide +kernel)
  obtain ⟨⟨hbest, hpref, hfinite⟩, hmetric, hmetric'⟩ := of_decide_eq_true hobs
  obtain ⟨c, hc, hnear⟩ := h s hs 0 (by rw [hfinite]; exact List.cons_ne_nil _ _)
  rw [hbest] at hc
  rw [hpref, hfinite, ← Option.some.inj hc] at hnear
  have hbehind := (hnear.2.2 (by decide)).2 1 (by decide) rfl
  omega

end Node
end Contiki

import Mathlib.Data.List.Basic
import Mathlib.Data.Nat.Notation
import Mathlib.Logic.Basic

/-!
# A choice with hysteresis

The elements of a list are compared one after the other, and the one with the smaller metric is kept.
One element, the one that was chosen before, is favoured: it wins every comparison in which the two
metrics are similar.

* `pick`, `pickFrom` — the choice from a list.
* `NearLeast` — what such a choice is for: the metric of the choice is within the threshold of the
  least one, and the favoured element is left only for the least metric and a difference of at least
  the threshold.
* `nearLeast_iff` — when the choice does that, for any notion of similar metrics that implies a
  difference below the threshold.
-/

namespace Contiki
namespace Hysteresis
variable {α : Type*} [DecidableEq α] (m : α → ℕ) (similar : ℕ → ℕ → Bool) (kept : Option α)

/-- The better one of two elements. -/
def better (a b : α) : α :=
  if (some a = kept ∨ some b = kept) ∧ similar (m a) (m b) then kept.getD b
  else if m a < m b then a else b

/-- The choice from what is left of a list, given the best element so far. -/
def pickFrom : List α → α → α
  | [], b => b
  | a :: l, b => pickFrom l (better m similar kept b a)

/-- The choice from a list. -/
def pick : List α → Option α
  | [] => none
  | a :: l => some (pickFrom m similar kept l a)

/-- An element of the list has a metric below that of each other one plus the threshold; if it is not
the favoured one, it has the least metric, and the favoured one, when it is on the list, is behind by
at least the threshold. -/
def NearLeast (threshold : ℕ) (l : List α) (c : α) : Prop :=
  c ∈ l ∧ (∀ a ∈ l, m c < m a + threshold) ∧
    (some c ≠ kept → (∀ a ∈ l, m c ≤ m a) ∧ ∀ a ∈ l, some a = kept → m c + threshold ≤ m a)

/-- What is needed to stay with the favoured element `k` when it comes between `before` and
`after`: none of the least elements before it wins against it, and no element after it. -/
def Stays (k : α) (before after : List α) : Prop :=
  (∀ a ∈ before, (∀ x ∈ before, m a ≤ m x) → similar (m a) (m k) ∨ m k ≤ m a) ∧
    ∀ a ∈ after, similar (m k) (m a) ∨ m k < m a

variable {m similar kept} {l before after : List α} {a b c k : α} {threshold : ℕ}

/-! ## Comparisons -/

lemma better_cases (a b : α) :
    better m similar kept a b = a ∨ better m similar kept a b = b := by
  unfold better
  by_cases h : (some a = kept ∨ some b = kept) ∧ similar (m a) (m b)
  · rw [if_pos h]
    rcases h.1 with h | h <;> rw [← h]
    · exact .inl rfl
    · exact .inr rfl
  · rw [if_neg h]
    split_ifs
    · exact .inl rfl
    · exact .inr rfl

lemma better_of_ne (ha : some a ≠ kept) (hb : some b ≠ kept) :
    better m similar kept a b = if m a < m b then a else b := by
  rw [better, if_neg]
  rintro ⟨h | h, -⟩
  · exact ha h
  · exact hb h

lemma better_kept_left (h : similar (m k) (m b) ∨ m k < m b) :
    better m similar (some k) k b = k := by
  unfold better
  by_cases hs : similar (m k) (m b) = true
  · rw [if_pos ⟨.inl rfl, hs⟩]
    rfl
  · rw [if_neg fun h => hs h.2, if_pos (h.resolve_left hs)]

lemma better_kept_left_of_not (h : ¬(similar (m k) (m b) ∨ m k < m b)) :
    better m similar (some k) k b = b := by
  rw [better, if_neg fun hs => h (.inl hs.2), if_neg fun hlt => h (.inr hlt)]

lemma better_kept_right (h : similar (m a) (m k) ∨ m k ≤ m a) :
    better m similar (some k) a k = k := by
  unfold better
  by_cases hs : similar (m a) (m k) = true
  · rw [if_pos ⟨.inr rfl, hs⟩]
    rfl
  · rw [if_neg fun h => hs h.2, if_neg (by have := h.resolve_left hs; omega)]

lemma better_kept_right_of_not (h : ¬(similar (m a) (m k) ∨ m k ≤ m a)) :
    better m similar (some k) a k = a := by
  rw [better, if_neg fun hs => h (.inl hs.2), if_pos (by omega)]

/-! ## The choice among the others -/

lemma pickFrom_cons (a b : α) :
    pickFrom m similar kept (a :: l) b = pickFrom m similar kept l (better m similar kept b a) := rfl

lemma pickFrom_append (b : α) :
    pickFrom m similar kept (before ++ after) b =
      pickFrom m similar kept after (pickFrom m similar kept before b) := by
  induction before generalizing b with
  | nil => rfl
  | cons a l ih => exact ih _

variable (m similar) in
/-- Where the favoured element is not compared, the choice is a least element. -/
lemma pickFrom_least (hb : some b ≠ kept) (hl : ∀ a ∈ l, some a ≠ kept) :
    pickFrom m similar kept l b ∈ b :: l ∧
      ∀ a ∈ b :: l, m (pickFrom m similar kept l b) ≤ m a := by
  induction l generalizing b with
  | nil => exact ⟨List.mem_cons_self, fun a ha => by rw [List.mem_singleton.mp ha]; exact Nat.le_refl _⟩
  | cons a l ih =>
    have ha : some a ≠ kept := hl a List.mem_cons_self
    have hl' : ∀ x ∈ l, some x ≠ kept := fun x hx => hl x (List.mem_cons_of_mem a hx)
    rw [pickFrom_cons, better_of_ne hb ha]
    by_cases hlt : m b < m a
    · rw [if_pos hlt]
      obtain ⟨hmem, hle⟩ := ih hb hl'
      have hself := hle b List.mem_cons_self
      refine ⟨?_, fun x hx => ?_⟩
      · rcases List.mem_cons.mp hmem with h | h
        · rw [h]
          exact List.mem_cons_self
        · exact List.mem_cons_of_mem _ (List.mem_cons_of_mem _ h)
      · rcases List.mem_cons.mp hx with rfl | hx
        · exact hself
        · rcases List.mem_cons.mp hx with rfl | hx
          · omega
          · exact hle x (List.mem_cons_of_mem _ hx)
    · rw [if_neg hlt]
      obtain ⟨hmem, hle⟩ := ih ha hl'
      have hself := hle a List.mem_cons_self
      refine ⟨List.mem_cons_of_mem _ hmem, fun x hx => ?_⟩
      rcases List.mem_cons.mp hx with rfl | hx
      · omega
      · exact hle x hx

/-! ## The choice from the favoured element on -/

/-- The favoured element stays when it wins each comparison. -/
lemma pickFrom_kept (h : ∀ a ∈ l, similar (m k) (m a) ∨ m k < m a) :
    pickFrom m similar (some k) l k = k := by
  induction l with
  | nil => rfl
  | cons a l ih =>
    rw [pickFrom_cons, better_kept_left (h a List.mem_cons_self)]
    exact ih fun x hx => h x (List.mem_cons_of_mem a hx)

/-- It is left for good when it loses one; if it loses against a least element, one of those is
chosen. -/
lemma pickFrom_left (hk : k ∉ l) (hb : b ∈ l) (hwins : ¬(similar (m k) (m b) ∨ m k < m b)) :
    pickFrom m similar (some k) l k ∈ l ∧
      ((∀ a ∈ l, m b ≤ m a) → ∀ a ∈ l, m (pickFrom m similar (some k) l k) ≤ m a) := by
  induction l with
  | nil => exact absurd hb List.not_mem_nil
  | cons a l ih =>
    have hka : some a ≠ some k := by
      rintro heq
      exact hk (Option.some.inj heq ▸ List.mem_cons_self)
    have hkl : k ∉ l := fun h => hk (List.mem_cons_of_mem a h)
    have hne : ∀ x ∈ l, some x ≠ some k := by
      rintro x hx heq
      exact hkl (Option.some.inj heq ▸ hx)
    rw [pickFrom_cons]
    by_cases hstays : similar (m k) (m a) ∨ m k < m a
    · rw [better_kept_left hstays]
      have hbl : b ∈ l := by
        refine (List.mem_cons.mp hb).resolve_left ?_
        rintro rfl
        exact hwins hstays
      obtain ⟨hmem, hle⟩ := ih hkl hbl
      refine ⟨List.mem_cons_of_mem a hmem, fun hleast x hx => ?_⟩
      have hle' := hle fun y hy => hleast y (List.mem_cons_of_mem a hy)
      rcases List.mem_cons.mp hx with rfl | hx
      · exact Nat.le_trans (hle' b hbl) (hleast x List.mem_cons_self)
      · exact hle' x hx
    · rw [better_kept_left_of_not hstays]
      obtain ⟨hmem, hle⟩ := pickFrom_least m similar hka hne
      exact ⟨hmem, fun _ => hle⟩

/-! ## The choice from a list -/

/-- Where the favoured element is not on the list, the choice is a least element. -/
lemma nearLeast_of_forall_ne (hthreshold : 0 < threshold) (hc : pick m similar kept l = some c)
    (hl : ∀ a ∈ l, some a ≠ kept) : NearLeast m kept threshold l c := by
  cases l with
  | nil => nomatch hc
  | cons a l =>
    obtain ⟨hmem, hle⟩ := pickFrom_least m similar (hl a List.mem_cons_self)
      fun x hx => hl x (List.mem_cons_of_mem a hx)
    rw [pick, Option.some_inj] at hc
    rw [hc] at hmem hle
    exact ⟨hmem, fun x hx => by have := hle x hx; omega,
      fun _ => ⟨hle, fun x hx heq => absurd heq (hl x hx)⟩⟩

/-- The best element before the favoured one comes, if there is any, is a least one. -/
lemma pick_before (hk : k ∉ before) :
    pick m similar (some k) (before ++ k :: after) =
        some (pickFrom m similar (some k) after k) ∧ (before = [] ∨ ∃ a ∈ before,
          (∀ x ∈ before, m a ≤ m x) ∧ (similar (m a) (m k) ∨ m k ≤ m a)) ∨
      ∃ a ∈ before, (∀ x ∈ before, m a ≤ m x) ∧ ¬(similar (m a) (m k) ∨ m k ≤ m a) ∧
        pick m similar (some k) (before ++ k :: after) =
          some (pickFrom m similar (some k) after a) := by
  cases before with
  | nil => exact .inl ⟨rfl, .inl rfl⟩
  | cons b l =>
    have hne : ∀ x ∈ b :: l, some x ≠ some k := by
      rintro x hx heq
      exact hk (Option.some.inj heq ▸ hx)
    obtain ⟨hmem, hle⟩ := pickFrom_least m similar (hne b List.mem_cons_self)
      fun x hx => hne x (List.mem_cons_of_mem b hx)
    have hpick : pick m similar (some k) (b :: l ++ k :: after) =
        some (pickFrom m similar (some k) after
          (better m similar (some k) (pickFrom m similar (some k) l b) k)) := by
      rw [List.cons_append, pick, pickFrom_append, pickFrom_cons]
    by_cases hwins : similar (m (pickFrom m similar (some k) l b)) (m k) ∨
        m k ≤ m (pickFrom m similar (some k) l b)
    · rw [hpick, better_kept_right hwins]
      exact .inl ⟨rfl, .inr ⟨_, hmem, hle, hwins⟩⟩
    · rw [better_kept_right_of_not hwins] at hpick
      exact .inr ⟨_, hmem, hle, hwins, hpick⟩

lemma exists_least (h : l ≠ []) : ∃ a ∈ l, ∀ x ∈ l, m a ≤ m x := by
  cases l with
  | nil => exact absurd rfl h
  | cons a l => exact ⟨_, pickFrom_least m (fun _ _ => false) (Option.some_ne_none a)
      fun x _ => Option.some_ne_none x⟩

omit [DecidableEq α] in
/-- A least element other than the favoured one is the right choice when it is far enough below. -/
lemma nearLeast_iff_exists (hthreshold : 0 < threshold) (hk : k ∈ l) (hc : c ∈ l)
    (hck : some c ≠ some k) (hleast : ∀ a ∈ l, m c ≤ m a) :
    NearLeast m (some k) threshold l c ↔ ∃ a ∈ l, m a + threshold ≤ m k := by
  constructor
  · intro h
    exact ⟨c, hc, (h.2.2 hck).2 k hk rfl⟩
  · rintro ⟨a, ha, hfar⟩
    have hca := hleast a ha
    refine ⟨hc, fun x hx => ?_, fun _ => ⟨hleast, fun x _ heq => ?_⟩⟩
    · have := hleast x hx
      omega
    · rw [Option.some.inj heq]
      omega

/-- The favoured element is still the best one when it has been compared, so no element before it is far
below. -/
lemma nearLeast_kept_iff (hthreshold : 0 < threshold)
    (hsimilar : ∀ a b, similar (m a) (m b) → m a < m b + threshold ∧ m b < m a + threshold) (hafter : k ∉ after)
    (hnear : ∀ x ∈ before, m k < m x + threshold) :
    NearLeast m (some k) threshold (before ++ k :: after) (pickFrom m similar (some k) after k) ↔
      (∃ a ∈ before ++ k :: after, m a + threshold ≤ m k) ∨
        ∀ a ∈ after, similar (m k) (m a) ∨ m k < m a := by
  have hne : ∀ x ∈ after, some x ≠ some k := by
    rintro x hx heq
    exact hafter (Option.some.inj heq ▸ hx)
  by_cases hall : ∀ x ∈ after, similar (m k) (m x) ∨ m k < m x
  · rw [pickFrom_kept hall]
    refine iff_of_true ⟨by simp, fun x hx => ?_, fun h => absurd rfl h⟩ (.inr hall)
    rcases List.mem_append.mp hx with hx | hx
    · exact hnear x hx
    · rcases List.mem_cons.mp hx with rfl | hx
      · omega
      · rcases hall x hx with hs | hlt
        · exact (hsimilar _ _ hs).1
        · omega
  · obtain ⟨b, hb, hwins⟩ : ∃ b ∈ after, ¬(similar (m k) (m b) ∨ m k < m b) := by
      by_contra hcon
      exact hall fun x hx => by_contra fun h => hcon ⟨x, hx, h⟩
    have hmem := (pickFrom_left hafter hb hwins).1
    have hmem' : pickFrom m similar (some k) after k ∈ before ++ k :: after :=
      List.mem_append_right _ (List.mem_cons_of_mem _ hmem)
    rw [or_iff_left hall]
    constructor
    · intro h
      exact ⟨_, hmem', (h.2.2 (hne _ hmem)).2 k (by simp) rfl⟩
    · rintro ⟨a, ha, hfar⟩
      -- A least element after the favoured one is far below, and so one of them is chosen.
      obtain ⟨r, hr, hleast⟩ := exists_least (m := m) (List.ne_nil_of_mem hb)
      have ha' : a ∈ after := by
        rcases List.mem_append.mp ha with ha | ha
        · have := hnear a ha
          omega
        · refine (List.mem_cons.mp ha).resolve_left ?_
          rintro rfl
          omega
      have hra := hleast a ha'
      have hrwins : ¬(similar (m k) (m r) ∨ m k < m r) := by
        rintro (hs | hlt)
        · have := (hsimilar _ _ hs).1
          omega
        · omega
      have hle := (pickFrom_left hafter hr hrwins).2 hleast
      have hcr := hle r hr
      refine (nearLeast_iff_exists hthreshold (by simp) hmem' (hne _ hmem) fun x hx => ?_).mpr
        ⟨a, ha, hfar⟩
      rcases List.mem_append.mp hx with hx | hx
      · have := hnear x hx
        omega
      · rcases List.mem_cons.mp hx with rfl | hx
        · omega
        · exact hle x hx

/-- The favoured element comes between `before` and `after`: the choice is as it should be exactly when
some metric is smaller by the threshold, or the favoured element stays. -/
theorem nearLeast_iff (hthreshold : 0 < threshold)
    (hsimilar : ∀ a b, similar (m a) (m b) → m a < m b + threshold ∧ m b < m a + threshold)
    (hbefore : k ∉ before) (hafter : k ∉ after)
    (hc : pick m similar (some k) (before ++ k :: after) = some c) :
    NearLeast m (some k) threshold (before ++ k :: after) c ↔
      (∃ a ∈ before ++ k :: after, m a + threshold ≤ m k) ∨ Stays m similar k before after := by
  rcases pick_before hbefore with ⟨hpick, hwins⟩ | ⟨a, ha, hleast, hwins, hpick⟩ <;>
    rw [hpick, Option.some_inj] at hc
  · have hfirst : ∀ x ∈ before, (∀ y ∈ before, m x ≤ m y) → similar (m x) (m k) ∨ m k ≤ m x := by
      intro x hx hle
      rcases hwins with rfl | ⟨a, ha, hleast, hwins⟩
      · exact absurd hx List.not_mem_nil
      · rwa [Nat.le_antisymm (hle a ha) (hleast x hx)]
    rw [← hc, Stays, and_iff_right hfirst]
    refine nearLeast_kept_iff hthreshold hsimilar hafter fun x hx => ?_
    obtain ⟨r, hr, hleast⟩ := exists_least (m := m) (List.ne_nil_of_mem hx)
    have hrx := hleast x hx
    rcases hfirst r hr hleast with hs | hle
    · have := (hsimilar _ _ hs).2
      omega
    · omega
  · have hlost : ¬Stays m similar k before after := fun h => hwins (h.1 a ha hleast)
    have hne : ∀ x ∈ a :: after, some x ≠ some k := by
      rintro x hx heq
      obtain rfl := Option.some.inj heq
      rcases List.mem_cons.mp hx with rfl | hx
      · exact hbefore ha
      · exact hafter hx
    obtain ⟨hmem, hle⟩ := pickFrom_least m similar (hne a List.mem_cons_self) fun x hx =>
      hne x (List.mem_cons_of_mem a hx)
    rw [hc] at hmem hle
    have hca := hle a List.mem_cons_self
    rw [or_iff_left hlost]
    refine nearLeast_iff_exists hthreshold (by simp) ?_ (hne c hmem) fun x hx => ?_
    · rcases List.mem_cons.mp hmem with rfl | h
      · exact List.mem_append_left _ ha
      · exact List.mem_append_right _ (List.mem_cons_of_mem _ h)
    · rcases List.mem_append.mp hx with hx | hx
      · exact Nat.le_trans hca (hleast x hx)
      · rcases List.mem_cons.mp hx with rfl | hx
        · have := not_or.mp hwins
          omega
        · exact hle x (List.mem_cons_of_mem _ hx)

end Hysteresis
end Contiki

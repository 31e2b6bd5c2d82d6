import Mathlib.Data.List.Induction
import Mathlib.Order.Lattice

/-!
# Linear searches for a best element

A loop over a list that keeps the best key so far, with the element that has it.  The first key that is
kept is a bound which an element has to beat before it is taken at all.

* `searchStep`, `search` — a turn and the whole loop, for a relation that says when a key is preferred.
* `Preference`, `preference_lt`, `preference_ge` — the relations that such a loop can use:
  the first least element is found with `<`, the last greatest one with `≥`.
* `search_cases` — what is found.
-/

namespace Contiki
variable {α κ : Type*} {better : κ → κ → Prop}

/-- One turn of a search: an element with a better key takes the place of the best one so far. -/
def searchStep (better : κ → κ → Prop) [DecidableRel better] (key : α → κ) (best : κ × Option α) (a : α) :
    κ × Option α :=
  if better (key a) best.1 then (key a, some a) else best

/-- The search through a list for the best key beyond a bound. -/
def search (better : κ → κ → Prop) [DecidableRel better] (key : α → κ) (bound : κ) (l : List α) :
    κ × Option α :=
  l.foldl (searchStep better key) (bound, none)

/-- What a search takes stays the best: what was preferred is compared through what was kept. -/
structure Preference (better : κ → κ → Prop) : Prop where
  trans : ∀ {x y z}, better x y → better y z → better x z
  skip : ∀ {x y z}, better x y → ¬better z y → better x z

lemma preference_lt [LinearOrder κ] : Preference fun x y : κ => x < y where
  trans := lt_trans
  skip h hskip := h.trans_le (not_lt.mp hskip)

lemma preference_ge [LinearOrder κ] : Preference fun x y : κ => x ≥ y where
  trans := ge_trans
  skip h hskip := (not_le.mp hskip).le.trans h

/-- Keys may be compared by what stands for them. -/
lemma Preference.comap {κ' : Type*} (h : Preference better) (f : κ' → κ) :
    Preference fun x y => better (f x) (f y) where
  trans := h.trans
  skip := h.skip

section
variable {key : α → κ} {bound : κ} {l : List α} {a : α}

/-- An element is what the search through a list finds: it is preferred to the bound and to everything in
front of it, and nothing behind it is preferred to it. -/
def FoundIn (better : κ → κ → Prop) (key : α → κ) (bound : κ) (l : List α) (a : α) : Prop :=
  ∃ pre post, l = pre ++ a :: post ∧ better (key a) bound ∧ (∀ b ∈ pre, better (key a) (key b)) ∧
    ∀ b ∈ post, ¬better (key b) (key a)

namespace FoundIn

lemma mem (h : FoundIn better key bound l a) : a ∈ l := by
  obtain ⟨pre, post, rfl, -⟩ := h
  exact List.mem_append_right _ List.mem_cons_self

lemma beats (h : FoundIn better key bound l a) : better (key a) bound := by
  obtain ⟨pre, post, -, hbound, -⟩ := h
  exact hbound

/-- What is found stays, when nothing better comes. -/
lemma keep (h : FoundIn better key bound l a) {x : α} (hx : ¬better (key x) (key a)) :
    FoundIn better key bound (l ++ [x]) a := by
  obtain ⟨pre, post, rfl, hbound, hpre, hpost⟩ := h
  refine ⟨pre, post ++ [x], by simp, hbound, hpre, fun b hb => ?_⟩
  rcases List.mem_append.mp hb with hb | hb
  · exact hpost b hb
  · rw [List.mem_singleton.mp hb]
    exact hx

/-- What is preferred to what was found is found from then on. -/
lemma replace (hp : Preference better) (h : FoundIn better key bound l a) {x : α}
    (hx : better (key x) (key a)) : FoundIn better key bound (l ++ [x]) x := by
  obtain ⟨pre, post, rfl, hbound, hpre, hpost⟩ := h
  refine ⟨_, [], rfl, hp.trans hx hbound, fun b hb => ?_, fun b hb => absurd hb List.not_mem_nil⟩
  rcases List.mem_append.mp hb with hb | hb
  · exact hp.trans hx (hpre b hb)
  · rcases List.mem_cons.mp hb with rfl | hb
    · exact hx
    · exact hp.skip hx (hpost b hb)

/-- What was found is in front of another element, or it is behind and better. -/
lemma front_or_behind (h : FoundIn better key bound l a) {pre post : List α} {b : α} (hne : a ≠ b)
    (hsplit : l = pre ++ b :: post) : a ∈ pre ∨ a ∈ post ∧ better (key a) (key b) := by
  obtain ⟨pre', post', hsplit', -, hpre, -⟩ := h
  have heq : pre' ++ a :: post' = pre ++ b :: post := hsplit'.symm.trans hsplit
  rcases List.append_eq_append_iff.mp heq with ⟨mid, rfl, hrest⟩ | ⟨mid, rfl, hrest⟩
  · cases mid with
    | nil => exact absurd (List.cons.inj hrest).1 hne
    | cons c mid =>
      obtain rfl : a = c := (List.cons.inj hrest).1
      exact .inl (List.mem_append_right _ List.mem_cons_self)
  · cases mid with
    | nil => exact absurd (List.cons.inj hrest).1.symm hne
    | cons c mid =>
      obtain ⟨rfl, rfl⟩ := List.cons.inj hrest
      exact .inr ⟨List.mem_append_right _ List.mem_cons_self,
        hpre _ (List.mem_append_right _ List.mem_cons_self)⟩

end FoundIn

variable [DecidableRel better]

lemma search_append : search better key bound (l ++ [a]) = searchStep better key (search better key bound l) a := by
  unfold search
  rw [List.foldl_append]
  rfl

/-- Nothing is preferred to the bound and nothing is found; or an element is found, with its key. -/
theorem search_cases (hp : Preference better) (key : α → κ) (bound : κ) (l : List α) :
    search better key bound l = (bound, none) ∧ (∀ b ∈ l, ¬better (key b) bound) ∨
      ∃ a, search better key bound l = (key a, some a) ∧ FoundIn better key bound l a := by
  induction l using List.reverseRecOn with
  | nil => exact .inl ⟨rfl, fun b hb => absurd hb List.not_mem_nil⟩
  | append_singleton l x ih =>
    rw [search_append]
    unfold searchStep
    rcases ih with ⟨hnone, hall⟩ | ⟨a, hsome, hfound⟩
    · rw [hnone]
      split_ifs with hx
      · refine .inr ⟨x, rfl, l, [], rfl, hx, fun b hb => hp.skip hx (hall b hb), ?_⟩
        exact fun b hb => absurd hb List.not_mem_nil
      · refine .inl ⟨rfl, fun b hb => ?_⟩
        rcases List.mem_append.mp hb with hb | hb
        · exact hall b hb
        · rw [List.mem_singleton.mp hb]
          exact hx
    · rw [hsome]
      split_ifs with hx
      · exact .inr ⟨x, rfl, hfound.replace hp hx⟩
      · exact .inr ⟨a, rfl, hfound.keep hx⟩

/-- Nothing is found exactly when nothing is preferred to the bound. -/
lemma search_eq_none_iff (hp : Preference better) :
    (search better key bound l).2 = none ↔ ∀ b ∈ l, ¬better (key b) bound := by
  rcases search_cases hp key bound l with ⟨hnone, hall⟩ | ⟨a, hsome, hfound⟩
  · rw [hnone]
    exact ⟨fun _ => hall, fun _ => rfl⟩
  · rw [hsome]
    exact ⟨fun h => absurd h (by simp), fun hall => absurd hfound.beats (hall a hfound.mem)⟩

lemma foundIn_of_search (hp : Preference better) (h : (search better key bound l).2 = some a) :
    FoundIn better key bound l a := by
  rcases search_cases hp key bound l with ⟨hnone, -⟩ | ⟨b, hsome, hfound⟩
  · rw [hnone] at h
    cases h
  · rw [hsome] at h
    cases h
    exact hfound

end

section
variable [LinearOrder κ] {key : α → κ} {bound : κ} {l : List α} {a : α}

/-- With `<`, a least element is found. -/
lemma FoundIn.least (h : FoundIn (fun x y : κ => x < y) key bound l a) {b : α} (hb : b ∈ l) :
    key a ≤ key b := by
  obtain ⟨pre, post, rfl, -, hpre, hpost⟩ := h
  rcases List.mem_append.mp hb with hb | hb
  · exact (hpre b hb).le
  · rcases List.mem_cons.mp hb with rfl | hb
    · exact le_rfl
    · exact not_lt.mp (hpost b hb)

/-- With `<`, what is found is determined. -/
lemma FoundIn.eq {b : α} (h : FoundIn (fun x y : κ => x < y) key bound l a)
    (h' : FoundIn (fun x y : κ => x < y) key bound l b) : a = b := by
  by_contra hne
  have hab := h.least h'.mem
  have hba := h'.least h.mem
  obtain ⟨pre, post, hsplit, -, hpre, -⟩ := h'
  rcases h.front_or_behind hne hsplit with hfront | ⟨-, hbetter⟩
  · exact absurd hab (not_le.mpr (hpre a hfront))
  · exact absurd hba (not_le.mpr hbetter)

lemma search_lt_eq_some_iff :
    (search (fun x y : κ => x < y) key bound l).2 = some a ↔ FoundIn (fun x y : κ => x < y) key bound l a := by
  refine ⟨foundIn_of_search preference_lt, fun h => ?_⟩
  rcases search_cases preference_lt key bound l with ⟨-, hall⟩ | ⟨b, hsome, hfound⟩
  · exact absurd h.beats (hall a h.mem)
  · rw [hsome, hfound.eq h]

/-- With `≥`, a greatest element is found. -/
lemma FoundIn.greatest (h : FoundIn (fun x y : κ => x ≥ y) key bound l a) {b : α} (hb : b ∈ l) :
    key b ≤ key a := by
  obtain ⟨pre, post, rfl, -, hpre, hpost⟩ := h
  rcases List.mem_append.mp hb with hb | hb
  · exact hpre b hb
  · rcases List.mem_cons.mp hb with rfl | hb
    · exact le_rfl
    · exact (not_le.mp (hpost b hb)).le

end

end Contiki

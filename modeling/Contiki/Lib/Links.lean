import Mathlib.Data.Fintype.Card
import Mathlib.Logic.Function.Basic

/-!
# Singly linked lists

A linked list is a head pointer and a next pointer for each element, `none` being the null pointer.
`Links.Seg next p l q` says that following the pointers from `p` visits the elements of `l` in turn
and arrives at `q`; `Links.Linked` is the case of a whole list, which ends in the null pointer.

* `Linked.nodup` — such a list is free of duplicates, hence of cycles.
* `Linked.unique`, `Linked.walk_eq` — it is determined by the pointers, and walking them finds it.
* `Linked.next_inj` — only one element is followed by a given one.
* `Linked.push`, `Linked.insert`, `Linked.without` — the edits of the pointers.
-/

namespace Contiki
namespace Links
variable {α : Type*} {next next' : α → Option α} {p q r : Option α} {l l' m : List α} {a : α}

/-- Following `next` from `p` visits the elements of `l` in turn and arrives at `q`. -/
def Seg (next : α → Option α) : Option α → List α → Option α → Prop
  | p, [], q => p = q
  | p, a :: l, q => p = some a ∧ Seg next (next a) l q

/-- Following `next` from `p` visits the elements of `l` in turn and ends in the null pointer. -/
def Linked (next : α → Option α) (p : Option α) (l : List α) : Prop :=
  Seg next p l none

/-- The elements visited from `p` in at most `fuel` steps. -/
def walk (next : α → Option α) : ℕ → Option α → List α
  | 0, _ => []
  | _ + 1, none => []
  | fuel + 1, some a => a :: walk next fuel (next a)

/-- The first element visited from `p` whose next pointer is `a`, within `fuel` steps. -/
def before [DecidableEq α] (next : α → Option α) (a : α) : ℕ → Option α → Option α
  | 0, _ => none
  | _ + 1, none => none
  | fuel + 1, some b => if next b = some a then some b else before next a fuel (next b)

/-- Whether an element is on a list is decided by comparing. -/
def decidableMem [DecidableEq α] (a : α) (l : List α) : Decidable (a ∈ l) := inferInstance

/-! ## Segments -/

@[simp] lemma seg_nil : Seg next p [] q ↔ p = q := Iff.rfl

@[simp] lemma seg_cons : Seg next p (a :: l) q ↔ p = some a ∧ Seg next (next a) l q := Iff.rfl

/-- A segment splits where its list does. -/
lemma seg_append : Seg next p (l ++ m) q ↔ ∃ r, Seg next p l r ∧ Seg next r m q := by
  induction l generalizing p with
  | nil => simp
  | cons a l ih => simp only [List.cons_append, seg_cons, ih, and_assoc, exists_and_left]

/-- A segment depends on the next pointers of its own elements only. -/
lemma Seg.congr (h : Seg next p l q) (hnext : ∀ x ∈ l, next' x = next x) : Seg next' p l q := by
  induction l generalizing p with
  | nil => exact h
  | cons a l ih =>
    refine ⟨h.1, ?_⟩
    rw [hnext a List.mem_cons_self]
    exact ih h.2 fun x hx => hnext x (List.mem_cons_of_mem _ hx)

/-! ## Whole lists -/

@[simp] lemma linked_nil : Linked next p [] ↔ p = none := Iff.rfl

@[simp] lemma linked_cons : Linked next p (a :: l) ↔ p = some a ∧ Linked next (next a) l := Iff.rfl

lemma linked_append : Linked next p (l ++ m) ↔ ∃ r, Seg next p l r ∧ Linked next r m := seg_append

lemma Linked.congr (h : Linked next p l) (hnext : ∀ x ∈ l, next' x = next x) : Linked next' p l :=
  Seg.congr h hnext

/-- The pointers determine the list. -/
lemma Linked.unique (h : Linked next p l) (h' : Linked next p l') : l = l' := by
  induction l generalizing p l' with
  | nil =>
    cases l' with
    | nil => rfl
    | cons b l' => exact absurd ((linked_nil.mp h).symm.trans h'.1) nofun
  | cons a l ih =>
    cases l' with
    | nil => exact absurd ((linked_nil.mp h').symm.trans h.1) nofun
    | cons b l' =>
      obtain rfl : a = b := Option.some.inj (h.1.symm.trans h'.1)
      rw [ih h.2 h'.2]

/-- **A linked list has no duplicates**: an element that came again would be followed by the same
elements each time. -/
lemma Linked.nodup (h : Linked next p l) : l.Nodup := by
  induction l generalizing p with
  | nil => exact List.nodup_nil
  | cons a l ih =>
    refine List.nodup_cons.mpr ⟨fun hmem => ?_, ih h.2⟩
    obtain ⟨pre, post, rfl⟩ := List.append_of_mem hmem
    obtain ⟨r, -, hr, hpost⟩ := linked_append.mp h.2
    have heq : pre ++ a :: post = post := Linked.unique h.2 hpost
    have hlen := congrArg List.length heq
    simp only [List.length_append, List.length_cons] at hlen
    omega

lemma Linked.length_le [Fintype α] (h : Linked next p l) : l.length ≤ Fintype.card α :=
  h.nodup.length_le_card

/-- Walking the pointers finds the list. -/
lemma Linked.walk_eq (h : Linked next p l) {fuel : ℕ} (hfuel : l.length ≤ fuel) :
    walk next fuel p = l := by
  induction l generalizing p fuel with
  | nil =>
    rw [linked_nil.mp h]
    cases fuel <;> rfl
  | cons a l ih =>
    obtain ⟨rfl, hrest⟩ := h
    obtain ⟨fuel, rfl⟩ : ∃ k, fuel = k + 1 := ⟨fuel - 1, by simp at hfuel; omega⟩
    rw [walk, ih hrest (by simpa using hfuel)]

/-- An element that is on the list either is the first one or has one before it. -/
lemma Linked.head_or_before (h : Linked next p l) (ha : a ∈ l) (hp : p ≠ some a) :
    ∃ pre b post, l = pre ++ b :: a :: post := by
  obtain ⟨pre, post, rfl⟩ := List.append_of_mem ha
  rcases List.eq_nil_or_concat pre with rfl | ⟨init, b, rfl⟩
  · exact absurd h.1 hp
  · exact ⟨init, b, post, by simp⟩

/-- An element of the list is followed by another one, or it is the last. -/
lemma Linked.next_of_mem (h : Linked next p l) (ha : a ∈ l) :
    next a = none ∨ ∃ b ∈ l, b ≠ a ∧ next a = some b := by
  have hnodup := h.nodup
  obtain ⟨pre, post, rfl⟩ := List.append_of_mem ha
  obtain ⟨r, -, rfl, hpost⟩ := linked_append.mp h
  cases post with
  | nil => exact .inl hpost
  | cons b post =>
    refine .inr ⟨b, by simp, ?_, hpost.1⟩
    rintro rfl
    simp [List.nodup_append] at hnodup

/-- What follows an element on a list is what its pointer leads to. -/
lemma Linked.next_eq {b : α} (h : Linked next p (l ++ b :: m)) : next b = m.head? := by
  obtain ⟨r, -, -, hm⟩ := linked_append.mp h
  cases m with
  | nil => exact hm
  | cons c m => exact hm.1

/-- Only one element is followed by a given one. -/
lemma Linked.next_inj {b c : α} (h : Linked next p (l ++ b :: a :: m)) (hc : c ∈ l ++ b :: a :: m)
    (hnext : next c = some a) : c = b := by
  have hnodup := h.nodup
  obtain ⟨pre, post, hsplit⟩ := List.append_of_mem hc
  have hhead : post.head? = some a := ((hsplit ▸ h : Linked next p (pre ++ c :: post)).next_eq).symm.trans hnext
  obtain ⟨post, rfl⟩ : ∃ post', post = a :: post' := by
    cases post with
    | nil => cases hhead
    | cons d post =>
      rw [List.head?_cons, Option.some.injEq] at hhead
      exact ⟨post, by rw [hhead]⟩
  have hleft : (l ++ [b]) ++ a :: m = (pre ++ [c]) ++ a :: post := by simpa using hsplit
  -- as there are no duplicates, the list splits around `a` in one way only
  have hl : a ∉ l ++ [b] := by
    simp only [List.nodup_append, List.nodup_cons, List.mem_cons] at hnodup
    simp only [List.mem_append, List.mem_singleton]
    grind
  have hm : a ∉ m := by
    simp only [List.nodup_append, List.nodup_cons] at hnodup
    exact hnodup.2.1.2.1
  obtain ⟨heq, -, -⟩ := (List.append_cons_inj_of_notMem hl hm).mp hleft
  exact (List.cons.inj (List.append_inj' heq rfl).2).1.symm

/-- The first element is behind no other one. -/
lemma Linked.head_ne (h : Linked next p (l ++ a :: m)) (hl : l ≠ []) : p ≠ some a := by
  have hnodup := h.nodup
  cases l with
  | nil => exact absurd rfl hl
  | cons c l =>
    rintro rfl
    obtain rfl : a = c := Option.some.inj h.1
    simp at hnodup

/-! ## Editing the pointers -/

section edit
variable [DecidableEq α]

/-- A new element in front. -/
lemma Linked.push (h : Linked next p l) (ha : a ∉ l) :
    Linked (Function.update next a p) (some a) (a :: l) := by
  refine ⟨rfl, ?_⟩
  rw [Function.update_self]
  refine h.congr fun x hx => Function.update_of_ne ?_ _ _
  rintro rfl
  exact ha hx

/-- The pointer to `a` is made to point to what follows it. -/
lemma Linked.unlink {b : α} (h : Linked next p (l ++ b :: a :: m)) :
    Linked (Function.update next b (next a)) p (l ++ b :: m) := by
  have hnodup := h.nodup
  obtain ⟨r, hl, rfl, -, hm⟩ := linked_append.mp h
  have hne : ∀ x, x ∈ l ∨ x ∈ m → x ≠ b := by
    rintro x hx rfl
    simp only [List.nodup_append, List.nodup_cons, List.mem_cons] at hnodup
    grind
  refine linked_append.mpr ⟨some b, ?_, rfl, ?_⟩
  · exact hl.congr fun x hx => Function.update_of_ne (hne x (.inl hx)) _ _
  · rw [Function.update_self]
    exact hm.congr fun x hx => Function.update_of_ne (hne x (.inr hx)) _ _

/-- A new element behind another one. -/
lemma Linked.insert {b : α} (h : Linked next p (l ++ b :: m)) (ha : a ∉ l ++ b :: m) :
    Linked (Function.update (Function.update next a (next b)) b (some a)) p (l ++ b :: a :: m) := by
  have hnodup := h.nodup
  obtain ⟨r, hl, rfl, hm⟩ := linked_append.mp h
  have hne : ∀ x, x ∈ l ∨ x ∈ m → x ≠ b ∧ x ≠ a := by
    intro x hx
    refine ⟨?_, ?_⟩
    · rintro rfl
      simp only [List.nodup_append, List.nodup_cons, List.mem_cons] at hnodup
      grind
    · rintro rfl
      simp only [List.mem_append, List.mem_cons] at ha
      grind
  have hab : a ≠ b := by
    rintro rfl
    simp at ha
  have hsame : ∀ x, x ∈ l ∨ x ∈ m →
      Function.update (Function.update next a (next b)) b (some a) x = next x := by
    intro x hx
    rw [Function.update_of_ne (hne x hx).1, Function.update_of_ne (hne x hx).2]
  refine linked_append.mpr ⟨some b, hl.congr fun x hx => hsame x (.inl hx), rfl, ?_⟩
  rw [Function.update_self]
  refine ⟨rfl, ?_⟩
  rw [Function.update_of_ne hab, Function.update_self]
  exact hm.congr fun x hx => hsame x (.inr hx)

/-- The pointer of an element that is not on the list does not matter. -/
lemma Linked.update_of_notMem (h : Linked next p l) (ha : a ∉ l) (q : Option α) :
    Linked (Function.update next a q) p l := by
  refine h.congr fun x hx => Function.update_of_ne ?_ _ _
  rintro rfl
  exact ha hx

/-- The search for the element before `a` finds it. -/
lemma Linked.before_eq {b : α} (h : Linked next p (l ++ b :: a :: m)) {fuel : ℕ}
    (hfuel : l.length < fuel) : before next a fuel p = some b := by
  have hnodup := h.nodup
  induction l generalizing p fuel with
  | nil =>
    obtain ⟨rfl, hb, -⟩ := h
    obtain ⟨fuel, rfl⟩ : ∃ k, fuel = k + 1 := ⟨fuel - 1, by omega⟩
    rw [before, if_pos hb]
  | cons c l ih =>
    obtain ⟨rfl, hrest⟩ := h
    obtain ⟨fuel, rfl⟩ : ∃ k, fuel = k + 1 := ⟨fuel - 1, by omega⟩
    have hne : next c ≠ some a := by
      intro hc
      rw [hc] at hrest
      cases l with
      | nil =>
        obtain rfl : a = b := Option.some.inj hrest.1
        simp at hnodup
      | cons d l =>
        obtain rfl : a = d := Option.some.inj hrest.1
        simp at hnodup
    rw [before, if_neg hne]
    exact ih hrest (by simpa using hfuel) (List.nodup_cons.mp hnodup).2

/-- The search finds nothing when `a` is not behind another element. -/
lemma Linked.before_eq_none (h : Linked next p l) (ha : a ∉ l) (fuel : ℕ) :
    before next a fuel p = none := by
  induction l generalizing p fuel with
  | nil =>
    rw [linked_nil.mp h]
    cases fuel <;> rfl
  | cons c l ih =>
    obtain ⟨rfl, hrest⟩ := h
    cases fuel with
    | zero => rfl
    | succ fuel =>
      have hne : next c ≠ some a := by
        intro hc
        rw [hc] at hrest
        cases l with
        | nil => exact absurd hrest nofun
        | cons d l =>
          obtain rfl : a = d := Option.some.inj hrest.1
          exact ha (by simp)
      rw [before, if_neg hne]
      exact ih hrest (fun hmem => ha (List.mem_cons_of_mem _ hmem)) fuel

lemma filter_ne_append {pre post : List α} (h : (pre ++ a :: post).Nodup) :
    (pre ++ a :: post).filter (· ≠ a) = pre ++ post := by
  have hnot : a ∉ pre ++ post := by
    simp only [List.nodup_append, List.nodup_cons, List.mem_cons] at h
    simp only [List.mem_append]
    grind
  rw [List.filter_append, List.filter_cons_of_neg (by simp), ← List.filter_append,
    List.filter_eq_self]
  intro x hx
  have hne : x ≠ a := fun heq => hnot (heq ▸ hx)
  simpa using hne

/-- **Taking an element off the list**: the head pointer, or the next pointer of the element before it,
is made to point to what follows it. -/
lemma Linked.without (h : Linked next p l) (ha : a ∈ l) {fuel : ℕ} (hfuel : l.length ≤ fuel) :
    (p = some a ∧ Linked next (next a) (l.filter (· ≠ a))) ∨
      p ≠ some a ∧ ∃ b, b ≠ a ∧ b ∈ l ∧ before next a fuel p = some b ∧
        Linked (Function.update next b (next a)) p (l.filter (· ≠ a)) := by
  have hnodup := h.nodup
  by_cases hp : p = some a
  · refine .inl ⟨hp, ?_⟩
    cases l with
    | nil => exact absurd ha List.not_mem_nil
    | cons c l =>
      obtain rfl : a = c := Option.some.inj (hp.symm.trans h.1)
      rw [show a :: l = [] ++ a :: l from rfl, filter_ne_append hnodup]
      exact h.2
  · obtain ⟨pre, b, post, rfl⟩ := h.head_or_before ha hp
    refine .inr ⟨hp, b, ?_, by simp, h.before_eq ?_, ?_⟩
    · rintro rfl
      simp [List.nodup_append] at hnodup
    · simp only [List.length_append, List.length_cons] at hfuel
      omega
    · have hsplit : pre ++ b :: a :: post = (pre ++ [b]) ++ a :: post := by simp
      rw [hsplit] at hnodup ⊢
      rw [filter_ne_append hnodup, List.append_assoc]
      exact h.unlink

end edit
end Links
end Contiki

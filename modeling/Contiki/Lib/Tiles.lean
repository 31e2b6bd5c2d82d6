import Contiki.Lib.Buffer
import Mathlib.Algebra.BigOperators.Group.List.Basic
import Mathlib.Data.List.Pairwise

/-!
# Ranges that lie side by side

Pieces `x` of a list with a range `[start x, start x + len x)` each.  `Tiles start len a b l` says
that the pieces, in their order, cover `[a, b)` without a gap and without an overlap.

* `Tiles.sum` — the lengths add up.
* `Tiles.countP` — every place of `[a, b)` is in one range, every other in none.
* `Tiles.exists_mem`, `Tiles.eq_of_mem` — the range a place is in.
* `Tiles.pairwise` — two ranges are apart, in whichever order the pieces come.
* `Tiles.holds` — a message that stands in a buffer piece by piece stands there.

`Abuts start len a b l` says the same of pieces that may be empty.

* `abuts_append`, `Abuts.shift` — lists that are put together, and ranges that are moved down.
* `Abuts.apart` — two ranges are apart.
-/

namespace Contiki

section
variable {α : Type*} (start len : α → ℕ)

/-- The ranges of the pieces follow each other from `a` to `b`; no range is empty. -/
def Tiles : ℕ → ℕ → List α → Prop
  | a, b, [] => a = b
  | a, b, x :: l => start x = a ∧ 0 < len x ∧ Tiles (a + len x) b l

/-- Two ranges have no place in common. -/
def Apart (x y : α) : Prop := start x + len x ≤ start y ∨ start y + len y ≤ start x

variable {start len} {a b : ℕ} {l l' : List α} {x y : α}

lemma Apart.symm (h : Apart start len x y) : Apart start len y x := Or.symm h

namespace Tiles

lemma le (h : Tiles start len a b l) : a ≤ b := by
  induction l generalizing a with
  | nil => exact Nat.le_of_eq h
  | cons x l ih =>
      have hrest := ih h.2.2
      omega

lemma mem (h : Tiles start len a b l) (hx : x ∈ l) :
    a ≤ start x ∧ 0 < len x ∧ start x + len x ≤ b := by
  induction l generalizing a with
  | nil => cases hx
  | cons y l ih =>
      obtain ⟨hy, hpos, hrest⟩ := h
      rcases List.mem_cons.mp hx with rfl | hx
      · have hle := hrest.le
        omega
      · obtain ⟨hlow, hx0, hhigh⟩ := ih hrest hx
        omega

lemma append {k : ℕ} (h : Tiles start len a k l) (h' : Tiles start len k b l') :
    Tiles start len a b (l ++ l') := by
  induction l generalizing a with
  | nil =>
      obtain rfl : a = k := h
      exact h'
  | cons x l ih => exact ⟨h.1, h.2.1, ih h.2.2⟩

/-- The pieces of a list that is put together meet at a place. -/
lemma split (h : Tiles start len a b (l ++ l')) :
    ∃ k, Tiles start len a k l ∧ Tiles start len k b l' := by
  induction l generalizing a with
  | nil => exact ⟨a, rfl, h⟩
  | cons x l ih =>
      obtain ⟨hx, hpos, hrest⟩ := h
      obtain ⟨k, hl, hl'⟩ := ih hrest
      exact ⟨k, ⟨hx, hpos, hl⟩, hl'⟩

lemma length_le (h : Tiles start len a b l) : a + l.length ≤ b := by
  induction l generalizing a with
  | nil => exact Nat.le_of_eq h
  | cons x l ih =>
      have hrest := ih h.2.2
      have hpos := h.2.1
      rw [List.length_cons]
      omega

lemma sum (h : Tiles start len a b l) : a + (l.map len).sum = b := by
  induction l generalizing a with
  | nil => exact h
  | cons x l ih =>
      have hrest := ih h.2.2
      rw [List.map_cons, List.sum_cons]
      omega

/-- Every place is covered once. -/
lemma countP (h : Tiles start len a b l) (k : ℕ) :
    l.countP (fun x => decide (start x ≤ k ∧ k < start x + len x)) =
      if a ≤ k ∧ k < b then 1 else 0 := by
  induction l generalizing a with
  | nil =>
      have hab : a = b := h
      rw [if_neg (by omega), List.countP_nil]
  | cons x l ih =>
      obtain ⟨rfl, hpos, hrest⟩ := h
      have hle := hrest.le
      rw [List.countP_cons, ih hrest]
      by_cases hin : k < start x + len x
      · by_cases hlow : start x ≤ k
        · rw [if_neg (by omega), if_pos (by simp; omega), if_pos (by omega)]
        · rw [if_neg (by omega), if_neg (by simp; omega), if_neg (by omega)]
      · have hiff : start x + len x ≤ k ∧ k < b ↔ start x ≤ k ∧ k < b := by omega
        rw [if_neg (show ¬ decide (start x ≤ k ∧ k < start x + len x) = true by simp; omega)]
        simp only [hiff, Nat.add_zero]

lemma pairwise (h : Tiles start len a b l) : l.Pairwise (Apart start len) := by
  induction l generalizing a with
  | nil => exact .nil
  | cons x l ih =>
      obtain ⟨rfl, -, hrest⟩ := h
      exact .cons (fun y hy => .inl (hrest.mem hy).1) (ih hrest)

/-- Two different pieces are apart. -/
lemma apart (h : Tiles start len a b l) (hx : x ∈ l) (hy : y ∈ l) (hne : x ≠ y) :
    Apart start len x y := by
  have hsymm : Std.Symm (Apart start len) := ⟨fun _ _ h => Apart.symm h⟩
  exact h.pairwise.forall hx hy hne

/-- A place of `[a, b)` is in a range. -/
lemma exists_mem (h : Tiles start len a b l) {k : ℕ} (hk : a ≤ k ∧ k < b) :
    ∃ x ∈ l, start x ≤ k ∧ k < start x + len x := by
  have hcount := h.countP k
  rw [if_pos hk] at hcount
  obtain ⟨x, hx, hin⟩ := List.countP_pos_iff.mp (hcount.symm ▸ Nat.one_pos)
  exact ⟨x, hx, of_decide_eq_true hin⟩

/-- A place is in one range only. -/
lemma eq_of_mem (h : Tiles start len a b l) (hx : x ∈ l) (hy : y ∈ l) {k : ℕ}
    (hkx : start x ≤ k ∧ k < start x + len x) (hky : start y ≤ k ∧ k < start y + len y) : x = y := by
  by_contra hne
  have hapart := h.apart hx hy hne
  unfold Apart at hapart
  omega

/-- In any order, two pieces are apart. -/
lemma pairwise_perm (h : Tiles start len a b l) (hperm : l'.Perm l) :
    l'.Pairwise (Apart start len) :=
  (hperm.pairwise_iff fun h => Apart.symm h).mpr h.pairwise

/-- What stands in a buffer piece by piece stands there. -/
lemma holds {β : Type*} {buffer : ℕ → β} {w : List β} (h : Tiles start len a b l)
    (hb : b ≤ w.length)
    (hl : ∀ x ∈ l, Holds buffer (start x) ((w.drop (start x)).take (len x))) :
    Holds buffer a ((w.drop a).take (b - a)) := by
  induction l generalizing a with
  | nil =>
      have hab : a = b := h
      rw [hab, Nat.sub_self, List.take_zero]
      trivial
  | cons x l ih =>
      obtain ⟨rfl, hpos, hrest⟩ := h
      have hle := hrest.le
      have hfirst := hl x List.mem_cons_self
      have hothers := ih hrest fun y hy => hl y (List.mem_cons_of_mem x hy)
      have hsplit : (w.drop (start x)).take (b - start x) =
          (w.drop (start x)).take (len x) ++
            (w.drop (start x + len x)).take (b - (start x + len x)) := by
        rw [show b - start x = len x + (b - (start x + len x)) by omega, List.take_add,
          List.drop_drop]
      rw [hsplit, holds_append]
      refine ⟨hfirst, ?_⟩
      rwa [List.length_take, List.length_drop, Nat.min_eq_left (by omega)]

end Tiles

/-! ## Ranges that may be empty -/

variable (start len) in
/-- The ranges of the pieces follow each other from `a` to `b`. -/
def Abuts : ℕ → ℕ → List α → Prop
  | a, b, [] => a = b
  | a, b, x :: l => start x = a ∧ Abuts (a + len x) b l

lemma abuts_append : Abuts start len a b (l ++ l') ↔ ∃ k, Abuts start len a k l ∧ Abuts start len k b l' := by
  induction l generalizing a with
  | nil => exact ⟨fun h => ⟨a, rfl, h⟩, fun ⟨k, hk, h⟩ => hk ▸ h⟩
  | cons x l ih =>
      show start x = a ∧ Abuts start len (a + len x) b (l ++ l') ↔
        ∃ k, (start x = a ∧ Abuts start len (a + len x) k l) ∧ Abuts start len k b l'
      rw [ih]
      simp only [and_assoc, exists_and_left]

namespace Abuts

lemma mem (h : Abuts start len a b l) (hx : x ∈ l) : a ≤ start x ∧ start x + len x ≤ b := by
  have hle : ∀ {a : ℕ} {l : List α}, Abuts start len a b l → a ≤ b := by
    intro a l h
    induction l generalizing a with
    | nil => exact Nat.le_of_eq h
    | cons y l ih =>
        have hrest := ih h.2
        omega
  induction l generalizing a with
  | nil => cases hx
  | cons y l ih =>
      obtain ⟨hy, hrest⟩ := h
      have hend := hle hrest
      rcases List.mem_cons.mp hx with rfl | hx
      · omega
      · obtain ⟨hlow, hhigh⟩ := ih hrest hx
        omega

/-- The ranges follow each other wherever they are, as long as they have their places. -/
lemma congr {start' len' : α → ℕ} (h : Abuts start len a b l)
    (hl : ∀ x ∈ l, start' x = start x ∧ len' x = len x) : Abuts start' len' a b l := by
  induction l generalizing a with
  | nil => exact h
  | cons x l ih =>
      obtain ⟨hx, hrest⟩ := h
      obtain ⟨hstart, hlen⟩ := hl x List.mem_cons_self
      refine ⟨hstart.trans hx, ?_⟩
      rw [hlen]
      exact ih hrest fun y hy => hl y (List.mem_cons_of_mem x hy)

/-- All ranges are moved down alike. -/
lemma shift {start' : α → ℕ} {d : ℕ} (h : Abuts start len (a + d) (b + d) l)
    (hl : ∀ x ∈ l, start' x = start x - d) : Abuts start' len a b l := by
  induction l generalizing a with
  | nil => exact Nat.add_right_cancel h
  | cons x l ih =>
      obtain ⟨hx, hrest⟩ := h
      have hmoved := hl x List.mem_cons_self
      rw [Nat.add_right_comm] at hrest
      exact ⟨by omega, ih hrest fun y hy => hl y (List.mem_cons_of_mem x hy)⟩

/-- Two different pieces are apart. -/
lemma apart (h : Abuts start len a b l) (hx : x ∈ l) (hy : y ∈ l) (hne : x ≠ y) : Apart start len x y := by
  obtain ⟨pre, post, rfl⟩ := List.append_of_mem hx
  obtain ⟨k, hpre, rfl, hpost⟩ := abuts_append.mp h
  rcases List.mem_append.mp hy with hy | hy
  · exact .inr (hpre.mem hy).2
  · rcases List.mem_cons.mp hy with rfl | hy
    · exact absurd rfl hne
    · exact .inl (hpost.mem hy).1

end Abuts
end

end Contiki

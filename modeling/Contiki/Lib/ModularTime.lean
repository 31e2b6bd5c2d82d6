import Mathlib.Data.BitVec

/-!
# Modular time

Times on a clock of `w` bits, ordered as far as they lie within half the clock range of each other.

* `ahead a b` — how far the time `a` is ahead of the time `b`.
* `NotLater a b` — `a` is not later than `b`.
* `ahead_sub`, `ahead_tick` — distances to two times, and to a clock that advances.
-/

namespace Contiki
variable {w : ℕ}

/-- Half the range of a clock of `w` bits. -/
def halfRange (w : ℕ) : ℕ := 2 ^ (w - 1)

/-- How far the time `a` is ahead of the time `b`. -/
def ahead (a b : BitVec w) : ℕ := (a - b).toNat

/-- In modular order, the time `a` is not later than the time `b`. -/
def NotLater (a b : BitVec w) : Prop := ahead b a < halfRange w

instance (a b : BitVec w) : Decidable (NotLater a b) :=
  inferInstanceAs (Decidable (_ < _))

lemma two_pow_eq (hw : 2 ≤ w) : 2 ^ w = 2 * halfRange w := by
  rw [halfRange, ← Nat.pow_succ']
  congr 1
  omega

lemma one_lt_halfRange (hw : 2 ≤ w) : 1 < halfRange w :=
  Nat.one_lt_two_pow (by omega)

lemma ahead_sub {a b c : BitVec w} (h : ahead b c ≤ ahead a c) :
    ahead a b = ahead a c - ahead b c := by
  have heq : a - b = (a - c) - (b - c) := (sub_sub_sub_cancel_right a b c).symm
  rw [ahead, heq, BitVec.toNat_sub_of_le h]
  rfl

lemma ahead_eq_zero {a b : BitVec w} : ahead a b = 0 ↔ a = b := by
  rw [ahead, ← BitVec.toNat_zero (w := w), BitVec.toNat_inj]
  exact sub_eq_zero

lemma ahead_add_one (hw : 2 ≤ w) (a : BitVec w) : ahead (a + 1) a = 1 := by
  have heq : a + 1 - a = 1#w := add_sub_cancel_left a 1
  rw [ahead, heq, BitVec.toNat_one]
  omega

lemma ahead_tick (hw : 2 ≤ w) {a now : BitVec w} (h : ahead a now ≠ 0) :
    ahead a (now + 1) = ahead a now - 1 := by
  rw [ahead_sub (c := now), ahead_add_one hw]
  rw [ahead_add_one hw]
  omega

end Contiki

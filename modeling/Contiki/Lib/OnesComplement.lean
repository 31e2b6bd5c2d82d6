import Mathlib.Algebra.Order.Ring.Nat
import Mathlib.Data.Nat.ModEq

/-!
# One's complement sums

Numbers from zero to `m`, added with an end-around carry, where `m` is the largest number of a word.
Zero and `m` both stand for zero; a sum is zero only if all its terms are.

* `endAround m n` — the one's complement sum of terms that sum up to `n`.
* `endAround_add` — a sum may be taken term by term.
* `endAround_eq_zero_iff`, `endAround_congr` — the sums that are zero, and the sums that are equal.
-/

namespace Contiki
variable {m n k : ℕ}

/-- The one's complement sum of terms that sum up to `n`. -/
def endAround (m n : ℕ) : ℕ := if n = 0 then 0 else (n - 1) % m + 1

lemma endAround_of_pos (h : 0 < n) : endAround m n = (n - 1) % m + 1 := by
  unfold endAround
  rw [if_neg (by omega)]

lemma endAround_eq_zero_iff : endAround m n = 0 ↔ n = 0 := by
  unfold endAround
  split_ifs with hzero
  · simp [hzero]
  · simp [hzero]

/-- A number that a word has is its own sum. -/
lemma endAround_of_le (h : n ≤ m) : endAround m n = n := by
  unfold endAround
  split_ifs with hzero
  · exact hzero.symm
  · rw [Nat.mod_eq_of_lt (by omega)]
    omega

/-- One carry is added back. -/
lemma endAround_of_gt (h : m < n) (hn : n ≤ 2 * m) : endAround m n = n - m := by
  rw [endAround_of_pos (by omega), Nat.mod_eq_sub_mod (by omega), Nat.mod_eq_of_lt (by omega)]
  omega

/-- A one's complement sum is the sum modulo `m`. -/
lemma endAround_modEq (m n : ℕ) : endAround m n ≡ n [MOD m] := by
  unfold endAround
  split_ifs with hzero
  · rw [hzero]
  · calc (n - 1) % m + 1 ≡ n - 1 + 1 [MOD m] := (Nat.mod_modEq _ _).add_right 1
      _ = n := by omega

/-- The sums that are positive are determined modulo `m`. -/
lemma endAround_congr (hn : 0 < n) (hk : 0 < k) (h : n ≡ k [MOD m]) :
    endAround m n = endAround m k := by
  rw [endAround_of_pos hn, endAround_of_pos hk]
  have hpred : n - 1 ≡ k - 1 [MOD m] := by
    apply Nat.ModEq.add_right_cancel' 1
    rwa [Nat.sub_add_cancel hn, Nat.sub_add_cancel hk]
  rw [hpred]

/-- A sum may be taken term by term. -/
lemma endAround_add (m n k : ℕ) : endAround m (endAround m n + k) = endAround m (n + k) := by
  rcases Nat.eq_zero_or_pos (n + k) with hzero | hpos
  · obtain ⟨rfl, rfl⟩ : n = 0 ∧ k = 0 := by omega
    rfl
  · have hpos' : 0 < endAround m n + k := by
      rcases Nat.eq_zero_or_pos n with rfl | hn
      · omega
      · have hne : endAround m n ≠ 0 := fun h => hn.ne' (endAround_eq_zero_iff.mp h)
        omega
    exact endAround_congr hpos' hpos ((endAround_modEq m n).add_right k)

end Contiki

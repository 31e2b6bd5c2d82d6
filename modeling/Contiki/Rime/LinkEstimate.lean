import Mathlib.Data.UInt
import Mathlib.Tactic.Common

/-!
# The link estimates of `collect`

`collect_link_estimate`: a weighted average of the numbers of transmissions that were reported, in units
of an eighth.

* `CollectLinkEstimate.estimate_updateTx` — the estimate after a report.
* `CollectLinkEstimate.between_iff` — when it lies between the estimate before and what was reported.
-/

namespace Contiki

def collectLinkEstimateUnit : ℕ := 8

def collectLinkEstimateAlpha : ℕ := 3 * collectLinkEstimateUnit / 8

def initialLinkEstimate : ℕ := 16

def maxEstimates : UInt8 := 255

structure CollectLinkEstimate where
  etxAccumulator : UInt32
  numEstimates : UInt8
deriving DecidableEq

namespace CollectLinkEstimate

def new : CollectLinkEstimate := ⟨.ofNat collectLinkEstimateUnit, 0⟩

def updateTx (le : CollectLinkEstimate) (tx : UInt8) : CollectLinkEstimate :=
  if tx = 0 then le
  else
    let acc :=
      if le.numEstimates = 0 then tx.toUInt32 * .ofNat collectLinkEstimateUnit else le.etxAccumulator
    { etxAccumulator :=
        (tx.toUInt32 * .ofNat collectLinkEstimateUnit * .ofNat collectLinkEstimateAlpha +
          acc * .ofNat (collectLinkEstimateUnit - collectLinkEstimateAlpha)) / .ofNat collectLinkEstimateUnit
      numEstimates := if le.numEstimates < maxEstimates then le.numEstimates + 1 else le.numEstimates }

def updateTxFail (le : CollectLinkEstimate) (tx : UInt8) : CollectLinkEstimate := le.updateTx (tx * 2)

def updateRx (le : CollectLinkEstimate) : CollectLinkEstimate := le

def estimate (le : CollectLinkEstimate) : UInt16 :=
  if le.numEstimates = 0 then .ofNat (initialLinkEstimate * collectLinkEstimateUnit)
  else le.etxAccumulator.toUInt16

/-- The average of reports has not become greater than the greatest report. -/
def Bounded (le : CollectLinkEstimate) : Prop := le.numEstimates ≠ 0 → le.etxAccumulator.toNat ≤ 2040

variable {le : CollectLinkEstimate} {tx : UInt8}

lemma bounded_new : Bounded new := fun h => absurd rfl h

lemma Bounded.estimate_le (h : le.Bounded) : le.estimate.toNat ≤ 2040 := by
  unfold estimate
  split_ifs with hnone
  · decide
  · have hacc := h hnone
    rw [UInt32.toNat_toUInt16]
    omega

/-- The accumulator that a report is added to, as a number. -/
lemma Bounded.acc_eq (h : le.Bounded) (hnum : le.numEstimates ≠ 0) :
    le.etxAccumulator.toNat = le.estimate.toNat := by
  have hacc := h hnum
  unfold estimate
  rw [if_neg hnum, UInt32.toNat_toUInt16]
  omega

lemma weighted_toNat {acc : UInt32} (hacc : acc.toNat ≤ 2040) :
    ((tx.toUInt32 * .ofNat collectLinkEstimateUnit * .ofNat collectLinkEstimateAlpha +
      acc * .ofNat (collectLinkEstimateUnit - collectLinkEstimateAlpha)) /
        .ofNat collectLinkEstimateUnit).toNat = (24 * tx.toNat + 5 * acc.toNat) / 8 := by
  have hlt := tx.toNat_lt
  simp only [UInt32.toNat_div, UInt32.toNat_add, UInt32.toNat_mul, UInt8.toNat_toUInt32]
  show (tx.toNat * 8 % 2 ^ 32 * 3 % 2 ^ 32 + acc.toNat * 5 % 2 ^ 32) % 2 ^ 32 / 8 = _
  omega

lemma first_toNat : (tx.toUInt32 * .ofNat collectLinkEstimateUnit).toNat = 8 * tx.toNat := by
  have hlt := tx.toNat_lt
  rw [UInt32.toNat_mul, UInt8.toNat_toUInt32]
  show tx.toNat * 8 % 2 ^ 32 = _
  omega

/-- A report moves the accumulator three eighths of the way to it; the first one replaces it. -/
lemma etxAccumulator_updateTx (h : le.Bounded) (htx : tx ≠ 0) :
    (le.updateTx tx).etxAccumulator.toNat =
      if le.numEstimates = 0 then 8 * tx.toNat else (24 * tx.toNat + 5 * le.estimate.toNat) / 8 := by
  have hlt := tx.toNat_lt
  have hfirst : (tx.toUInt32 * .ofNat collectLinkEstimateUnit).toNat = 8 * tx.toNat := first_toNat
  unfold updateTx
  rw [if_neg htx]
  by_cases hnum : le.numEstimates = 0
  · simp only [hnum, if_true]
    rw [weighted_toNat (by omega)]
    omega
  · simp only [hnum, if_false]
    rw [weighted_toNat (h hnum), h.acc_eq hnum]

lemma numEstimates_updateTx (htx : tx ≠ 0) : (le.updateTx tx).numEstimates ≠ 0 := by
  unfold updateTx
  rw [if_neg htx]
  show (if le.numEstimates < maxEstimates then le.numEstimates + 1 else le.numEstimates) ≠ 0
  split_ifs with hmax
  · have hlt : le.numEstimates.toNat < 255 := UInt8.lt_iff_toNat_lt.mp hmax
    intro hzero
    have hnat := congrArg UInt8.toNat hzero
    rw [UInt8.toNat_add] at hnat
    change (le.numEstimates.toNat + 1) % 256 = 0 at hnat
    omega
  · intro hzero
    rw [hzero] at hmax
    exact hmax (by decide)

lemma Bounded.updateTx (h : le.Bounded) (tx : UInt8) : (le.updateTx tx).Bounded := by
  by_cases htx : tx = 0
  · unfold CollectLinkEstimate.updateTx
    rwa [if_pos htx]
  · intro _
    have hlt := tx.toNat_lt
    have hle := h.estimate_le
    rw [etxAccumulator_updateTx h htx]
    split_ifs <;> omega

/-- The estimate after a report. -/
lemma estimate_updateTx (h : le.Bounded) (htx : tx ≠ 0) :
    (le.updateTx tx).estimate.toNat =
      if le.numEstimates = 0 then 8 * tx.toNat else (24 * tx.toNat + 5 * le.estimate.toNat) / 8 := by
  rw [← (h.updateTx tx).acc_eq (numEstimates_updateTx htx), etxAccumulator_updateTx h htx]

/-- One number lies between two others. -/
def Between (a b x : ℕ) : Prop := min a b ≤ x ∧ x ≤ max a b

/-- A report of `count` transmissions of which the low eight bits arrive: the estimate stays between what
it was and what was reported if no bit is lost, if none arrives or if the estimate is not above what
arrives. -/
lemma between_iff (h : le.Bounded) {count : ℕ} (hcount : tx.toNat = count % 256) :
    Between le.estimate.toNat (count * collectLinkEstimateUnit) (le.updateTx tx).estimate.toNat ↔
      count < 256 ∨ count % 256 = 0 ∨ le.estimate.toNat ≤ count % 256 * collectLinkEstimateUnit := by
  have hle := h.estimate_le
  unfold Between
  show min _ (count * 8) ≤ _ ∧ _ ≤ max _ (count * 8) ↔ _ ∨ _ ∨ _ ≤ count % 256 * 8
  by_cases htx : tx = 0
  · have hsame : le.updateTx tx = le := if_pos htx
    rw [htx] at hcount
    rw [hsame]
    exact iff_of_true ⟨min_le_left _ _, le_max_left _ _⟩ (.inr (.inl hcount.symm))
  · have hpos : tx.toNat ≠ 0 := fun hzero => htx (UInt8.toNat_inj.mp hzero)
    rw [estimate_updateTx h htx]
    by_cases hnum : le.numEstimates = 0
    · have hinitial : le.estimate.toNat = 128 := by
        unfold estimate
        rw [if_pos hnum]
        rfl
      rw [if_pos hnum, hinitial]
      omega
    · rw [if_neg hnum]
      omega

end CollectLinkEstimate
end Contiki

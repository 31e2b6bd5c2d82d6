import Mathlib.Data.Nat.Notation
import Mathlib.Tactic.Common

/-!
# Counters and what they count

A counter of eight bits says how often something was done for an object.  It starts again when it is set
back, or when another object takes the place.  The ledger records how often it was really done since then.

* `Tally.next` — the ledger behind a step.
* `Tally.Honest` — a step that counts nothing that was not done.
* `Tally.Covered.next` — what is counted is in the ledger.
-/

namespace Contiki

/-- A place with an object and its counter. -/
structure Tally (α : Type*) where
  isused : Bool
  name : α
  count : UInt8

namespace Tally
variable {α : Type*} (e e' : Tally α)

/-- The counter goes on with the next step. -/
def Continues : Prop := e.isused = true ∧ e'.name = e.name ∧ e.count ≤ e'.count ∧ e'.count ≠ 0

instance instDecidableContinues [DecidableEq α] : Decidable (e.Continues e') :=
  inferInstanceAs (Decidable (_ ∧ _ ∧ _ ∧ _))

/-- The ledger behind a step in which it was done `done` times. -/
def next [DecidableEq α] (ledger done : ℕ) : ℕ := (if e.Continues e' then ledger else 0) + done

/-- What is counted is in the ledger. -/
def Covered (ledger : ℕ) : Prop := e.isused = true → e.count.toNat ≤ ledger

/-- The counter is set back, starts with what was done, or stays, or counts what was done. -/
def Honest (done : ℕ) : Prop :=
  e'.isused = true → e'.count = 0 ∨ e'.count = 1 ∧ 1 ≤ done ∨
    e.isused = true ∧ e'.name = e.name ∧
      (e'.count = e.count ∨ e'.count = e.count + 1 ∧ 1 ≤ done)

variable {e e'} {ledger done : ℕ}

lemma le_next [DecidableEq α] : done ≤ e.next e' ledger done := Nat.le_add_left _ _

/-- **The ledger covers the counter** behind every step that counts nothing that was not done. -/
theorem Covered.next [DecidableEq α] (h : e.Covered ledger) (hstep : e.Honest e' done) :
    e'.Covered (e.next e' ledger done) := by
  intro hused
  rcases hstep hused with hzero | ⟨hone, hdone⟩ | ⟨hused₀, hname, hcount⟩
  · rw [hzero]
    exact Nat.zero_le _
  · rw [hone]
    exact Nat.le_trans hdone le_next
  · by_cases hle : e.count ≤ e'.count ∧ e'.count ≠ 0
    · -- The counter goes on, and so does the ledger.
      have hcov := h hused₀
      unfold Tally.next
      rw [if_pos ⟨hused₀, hname, hle⟩]
      rcases hcount with hsame | ⟨hnext, hdone⟩
      · rw [hsame]
        omega
      · rw [hnext, UInt8.toNat_add]
        have hmod := Nat.mod_le (e.count.toNat + (1 : UInt8).toNat) (2 ^ 8)
        have hone : (1 : UInt8).toNat = 1 := rfl
        omega
    · -- A counter that overflows starts again at zero.
      have hzero : e'.count = 0 := by
        by_contra hne
        refine hle ⟨?_, hne⟩
        rcases hcount with hsame | ⟨hnext, -⟩
        · rw [hsame]
          exact UInt8.le_refl _
        · rw [UInt8.le_iff_toNat_le, hnext, UInt8.toNat_add]
          have hlt := e.count.toNat_lt
          have hone : (1 : UInt8).toNat = 1 := rfl
          have hne' : (e.count.toNat + 1) % 2 ^ 8 ≠ 0 := fun h0 => hne (by
            rw [hnext]
            exact UInt8.toNat_inj.mp ((UInt8.toNat_add _ _).trans h0))
          omega
      rw [hzero]
      exact Nat.zero_le _

end Tally
end Contiki

import Mathlib.Data.List.Range
import Mathlib.Logic.Function.Basic
import Mathlib.Tactic.Common

/-!
# Ring buffers

A queue in `cap` slots that are used one behind the other, the first one again behind the last: it
starts at the slot `first` and has `len` entries.

* `ring` — the entries, the first one first.
* `ring_update` — an entry is appended, into the slot behind the last one.
* `ring_succ` — the first entry is taken off.
-/

namespace Contiki
variable {α : Type*} {cap first len : ℕ} {slots : ℕ → α}

/-- The entries of a ring buffer. -/
def ring (cap : ℕ) (slots : ℕ → α) (first len : ℕ) : List α :=
  (List.range len).map fun k => slots ((first + k) % cap)

@[simp] lemma length_ring : (ring cap slots first len).length = len := by
  unfold ring
  rw [List.length_map, List.length_range]

lemma ring_eq_nil_iff : ring cap slots first len = [] ↔ len = 0 := by
  rw [← List.length_eq_zero_iff, length_ring]

/-- Entries at different places of a queue that fits are in different slots. -/
lemma ring_slot_ne {j k : ℕ} (hjk : j < k) (hk : k < cap) : (first + j) % cap ≠ (first + k) % cap := by
  intro heq
  have hdvd : cap ∣ (first + k) - (first + j) :=
    Nat.dvd_of_mod_eq_zero (Nat.sub_mod_eq_zero_of_mod_eq heq.symm)
  have hle := Nat.le_of_dvd (by omega) hdvd
  omega

/-- An entry is appended. -/
lemma ring_update (hlen : len < cap) (a : α) :
    ring cap (Function.update slots ((first + len) % cap) a) first (len + 1) =
      ring cap slots first len ++ [a] := by
  unfold ring
  rw [List.range_succ, List.map_append, List.map_singleton, Function.update_self]
  congr 1
  apply List.map_congr_left
  intro k hk
  exact Function.update_of_ne (ring_slot_ne (List.mem_range.mp hk) hlen) _ _

/-- The first entry is taken off. -/
lemma ring_succ (hfirst : first < cap) :
    ring cap slots first (len + 1) = slots first :: ring cap slots ((first + 1) % cap) len := by
  unfold ring
  rw [List.range_succ_eq_map, List.map_cons, Nat.add_zero, Nat.mod_eq_of_lt hfirst, List.map_map]
  congr 1
  apply List.map_congr_left
  intro k _
  show slots ((first + (k + 1)) % cap) = _
  rw [Nat.mod_add_mod, Nat.add_assoc, Nat.add_comm 1 k]

end Contiki

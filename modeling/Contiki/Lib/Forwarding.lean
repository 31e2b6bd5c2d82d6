import Mathlib.Data.Fintype.EquivFin
import Mathlib.Logic.Function.Iterate

/-!
# Forwarding by next hops

Every node may have a next hop, and a thing is handed on until it is where it is to go.

* `Arrives next goal v` — from `v` the next hops lead to a goal.
* `Arrives.mono` — nodes that had no next hop may get one.
* `Arrives.exists_hops` — as many hops as there are nodes are never needed: the next hops do not run in circles.
-/

namespace Contiki

variable {α : Type*}

/-- From a node the next hops lead to a goal. -/
inductive Arrives (next : α → Option α) (goal : α → Prop) : α → Prop
  | here {v : α} (h : goal v) : Arrives next goal v
  | hop {v w : α} (hnext : next v = some w) (h : Arrives next goal w) : Arrives next goal v

/-- Where something is after `k` hops. -/
def hopsFrom (next : α → Option α) (k : ℕ) (v : α) : Option α := (fun o => o.bind next)^[k] (some v)

section
variable {next next' : α → Option α} {goal : α → Prop} {v w : α}

lemma hopsFrom_zero : hopsFrom next 0 v = some v := rfl

lemma hopsFrom_succ (h : next v = some w) (k : ℕ) : hopsFrom next (k + 1) v = hopsFrom next k w := by
  simp only [hopsFrom, Function.iterate_succ, Function.comp_apply, Option.bind_some, h]

/-- Next hops that stay lead where they led. -/
theorem Arrives.mono (hstay : ∀ v w, next v = some w → next' v = some w) (h : Arrives next goal v) :
    Arrives next' goal v := by
  induction h with
  | here h => exact .here h
  | hop hnext _ ih => exact .hop (hstay _ _ hnext) ih

/-- Some number of hops is enough. -/
theorem Arrives.exists_iterate (h : Arrives next goal v) : ∃ k w, hopsFrom next k v = some w ∧ goal w := by
  induction h with
  | here h => exact ⟨0, _, hopsFrom_zero, h⟩
  | hop hnext _ ih =>
    obtain ⟨k, w, hk, hgoal⟩ := ih
    exact ⟨k + 1, w, (hopsFrom_succ hnext k).trans hk, hgoal⟩

/-- Before the first goal no node is visited twice. -/
lemma hopsFrom_injective {k : ℕ} (hgoal : ∃ w, hopsFrom next k v = some w ∧ goal w)
    (hfirst : ∀ m < k, ¬∃ w, hopsFrom next m v = some w ∧ goal w) {i j : ℕ} (hij : i < j) (hj : j ≤ k) :
    hopsFrom next i v ≠ hopsFrom next j v := by
  intro heq
  obtain ⟨w, hw, hgoal⟩ := hgoal
  -- as far as from the second visit it is from the first one
  refine hfirst (k - j + i) (by omega) ⟨w, ?_, hgoal⟩
  have hk : k - j + j = k := by omega
  rw [← hk] at hw
  simp only [hopsFrom, Function.iterate_add_apply] at heq hw ⊢
  rw [heq, hw]

/-- Fewer hops than there are nodes are enough. -/
theorem Arrives.exists_hops [Fintype α] (h : Arrives next goal v) :
    ∃ k < Fintype.card α, ∃ w, hopsFrom next k v = some w ∧ goal w := by
  classical
  have hex : ∃ k, ∃ w, hopsFrom next k v = some w ∧ goal w := h.exists_iterate
  refine ⟨Nat.find hex, ?_, Nat.find_spec hex⟩
  have hfirst : ∀ m < Nat.find hex, ¬∃ w, hopsFrom next m v = some w ∧ goal w := fun m => Nat.find_min hex
  -- what is reached on the way is a node each time, and a different one
  have hsome : ∀ i : Fin (Nat.find hex + 1), ∃ w, hopsFrom next i v = some w := by
    intro i
    by_contra hnone
    have hi : hopsFrom next i v = none := Option.eq_none_iff_forall_ne_some.mpr fun w hw => hnone ⟨w, hw⟩
    obtain ⟨w, hw, -⟩ := Nat.find_spec hex
    have hk : Nat.find hex - i + i = Nat.find hex := by omega
    rw [← hk] at hw
    simp only [hopsFrom, Function.iterate_add_apply] at hi hw
    rw [hi, Function.iterate_fixed rfl] at hw
    cases hw
  choose node hnode using hsome
  have hinj : Function.Injective node := by
    intro i j hij
    by_contra hne
    have hsame : hopsFrom next i v = hopsFrom next j v := by rw [hnode i, hnode j, hij]
    rcases Nat.lt_or_gt_of_ne (Fin.val_ne_of_ne hne) with hlt | hlt
    · exact hopsFrom_injective (Nat.find_spec hex) hfirst hlt (by omega) hsame
    · exact hopsFrom_injective (Nat.find_spec hex) hfirst hlt (by omega) hsame.symm
  have hcard := Fintype.card_le_of_injective node hinj
  rw [Fintype.card_fin] at hcard
  omega

end

end Contiki

import Mathlib.Data.List.Induction
import Mathlib.Tactic.Common

/-!
# Entries of a history

A history is a list to which one entry after the other is appended.  What is said about an entry may
speak of the entries in front of it and of the one behind it.

* `Throughout P log` — every entry meets `P` with the history in front of it and the entry behind it.
* `Throughout.append_list` — entries are appended.
* `AllSteps`, `AllSteps.of_inv` — what the steps of a run meet, from an invariant.
* `forall_prefix_iff`, `forall_prefix_iff_of_inv` — what holds in all states of a run, from what one step does.
-/

namespace Contiki
variable {α : Type*} {P : List α → Option α → α → Prop} {log : List α} {r : α}

/-- Every entry of the history meets `P`. -/
def Throughout (P : List α → Option α → α → Prop) (log : List α) : Prop :=
  ∀ pre r post, log = pre ++ r :: post → P pre post.head? r

lemma Throughout.nil : Throughout P [] := by
  intro pre r post h
  exact absurd h.symm (List.append_ne_nil_of_right_ne_nil _ (List.cons_ne_nil r post))

/-- Entries are appended.  What is said about the last entry before must not need that nothing comes
behind it. -/
lemma Throughout.append_list {block : List α} (h : Throughout P log)
    (hlast : ∀ pre next r, P pre none r → P pre next r)
    (hblock : ∀ pre r post, block = pre ++ r :: post → P (log ++ pre) post.head? r) :
    Throughout P (log ++ block) := by
  intro pre r post heq
  obtain ⟨mid, rfl, hmid⟩ | ⟨mid, rfl, hmid⟩ := List.append_eq_append_iff.mp heq
  · exact hblock mid r post hmid
  · cases mid with
    | nil =>
        have hfirst := hblock [] r post hmid.symm
        rwa [List.append_nil, List.append_nil] at hfirst
    | cons a mid =>
        obtain ⟨rfl, rfl⟩ := List.cons.inj hmid
        have hold := h pre r mid rfl
        cases mid with
        | nil => exact hlast pre _ r hold
        | cons b mid => exact hold

/-- One entry is appended. -/
lemma Throughout.append (h : Throughout P log) (hlast : ∀ pre next r, P pre none r → P pre next r)
    (hr : P log none r) : Throughout P (log ++ [r]) := by
  refine h.append_list hlast fun pre r' post heq => ?_
  cases pre with
  | nil =>
      obtain ⟨rfl, rfl⟩ := List.cons.inj heq
      rw [List.append_nil]
      exact hr
  | cons a pre =>
      exact absurd (List.cons.inj heq).2.symm (List.append_ne_nil_of_right_ne_nil _ (by simp))

section Prefixes
variable {σ ε : Type*} {f : σ → ε → σ} {s : σ} {es : List ε}

/-- What holds at first and is kept by every step holds in all states of a run. -/
lemma forall_prefix {I : σ → Prop} (hinit : I s) (hstep : ∀ t e, I t → I (f t e)) (pre : List ε) :
    I (pre.foldl f s) := by
  induction pre generalizing s with
  | nil => exact hinit
  | cons e pre ih => exact ih (hstep s e hinit)

/-- Where a step from a state with `P` leads to a state with `P` exactly when it meets `Q`, all states
of a run have `P` if and only if all its steps meet `Q`. -/
lemma forall_prefix_iff {P : σ → Prop} {Q : σ → ε → Prop} (hinit : P s)
    (hstep : ∀ pre e, pre ++ [e] <+: es → P (pre.foldl f s) →
      (P (f (pre.foldl f s) e) ↔ Q (pre.foldl f s) e)) :
    (∀ pre, pre <+: es → P (pre.foldl f s)) ↔ ∀ pre e, pre ++ [e] <+: es → Q (pre.foldl f s) e := by
  constructor
  · intro hall pre e hpre
    have hafter := hall (pre ++ [e]) hpre
    rw [List.foldl_append] at hafter
    exact (hstep pre e hpre (hall pre ((List.prefix_append pre [e]).trans hpre))).mp hafter
  · intro hall pre
    induction pre using List.reverseRecOn with
    | nil => exact fun _ => hinit
    | append_singleton pre e ih =>
      intro hpre
      rw [List.foldl_append]
      exact (hstep pre e hpre (ih ((List.prefix_append pre [e]).trans hpre))).mpr (hall pre e hpre)

/-- An invariant that is kept by the steps with `Q` holds in all states of a run of such steps. -/
lemma forall_prefix_of_inv {I : σ → Prop} {Q : σ → ε → Prop} (hinit : I s)
    (hstep : ∀ t e, I t → Q t e → I (f t e)) (hall : ∀ pre e, pre ++ [e] <+: es → Q (pre.foldl f s) e) (pre : List ε) :
    pre <+: es → I (pre.foldl f s) := by
  induction pre using List.reverseRecOn with
  | nil => exact fun _ => hinit
  | append_singleton pre e ih =>
    intro hpre
    rw [List.foldl_append]
    exact hstep _ e (ih ((List.prefix_append pre [e]).trans hpre)) (hall pre e hpre)

/-- The same where `P` follows from an invariant that steps with `Q` keep, and steps without `Q` break `P`. -/
lemma forall_prefix_iff_of_inv {I P : σ → Prop} {Q : σ → ε → Prop} (hinit : I s) (hP : ∀ t, I t → P t)
    (hstep : ∀ t e, I t → Q t e → I (f t e)) (hback : ∀ t e, I t → P (f t e) → Q t e) :
    (∀ pre, pre <+: es → P (pre.foldl f s)) ↔ ∀ pre e, pre ++ [e] <+: es → Q (pre.foldl f s) e := by
  constructor
  · intro hall
    have hinv : ∀ pre, pre <+: es → I (pre.foldl f s) := by
      intro pre
      induction pre using List.reverseRecOn with
      | nil => exact fun _ => hinit
      | append_singleton pre e ih =>
        intro hpre
        have hbefore := ih ((List.prefix_append pre [e]).trans hpre)
        have hafter := hall (pre ++ [e]) hpre
        rw [List.foldl_append] at hafter ⊢
        exact hstep _ e hbefore (hback _ e hbefore hafter)
    intro pre e hpre
    have hafter := hall (pre ++ [e]) hpre
    rw [List.foldl_append] at hafter
    exact hback _ e (hinv pre ((List.prefix_append pre [e]).trans hpre)) hafter
  · intro hall pre hpre
    exact hP _ (forall_prefix_of_inv hinit hstep hall pre hpre)

end Prefixes
end Contiki

import Mathlib.Tactic.Common

/-!
# Machines with outputs

A machine takes a call, answers and moves on.  Two machines that answer alike, as long as their states are
related, answer alike for ever.

* `runCalls` — the answers to a list of calls, with the state behind the last one.
* `Simulates` — related states answer alike, and stay related, on the calls that are in order.
* `Simulates.run` — so do runs.
* `Simulates.iff_inOrder` — a run that answers alike throughout is one whose calls are in order.
-/

namespace Contiki
variable {σ τ ε ω : Type*} {step : σ → ε → ω × σ} {step' : τ → ε → ω × τ}
  {R : σ → τ → Prop} {P V : τ → ε → Prop}

/-- The answers to a list of calls, and the state behind the last one. -/
def runCalls (step : σ → ε → ω × σ) : σ → List ε → List ω × σ
  | s, [] => ([], s)
  | s, e :: es =>
    let (answers, s') := runCalls step (step s e).2 es
    ((step s e).1 :: answers, s')

/-- Every call is in order in the state that it finds. -/
def InOrder (step : τ → ε → ω × τ) (P : τ → ε → Prop) : τ → List ε → Prop
  | _, [] => True
  | t, e :: es => P t e ∧ InOrder step P (step t e).2 es

@[simp] lemma runCalls_nil (s : σ) : runCalls step s [] = ([], s) := rfl

@[simp] lemma runCalls_cons (s : σ) (e : ε) (es : List ε) : runCalls step s (e :: es) =
    ((step s e).1 :: (runCalls step (step s e).2 es).1, (runCalls step (step s e).2 es).2) := rfl

@[simp] lemma inOrder_nil (t : τ) : InOrder step' P t [] := trivial

@[simp] lemma inOrder_cons {t : τ} {e : ε} {es : List ε} :
    InOrder step' P t (e :: es) ↔ P t e ∧ InOrder step' P (step' t e).2 es := Iff.rfl

lemma inOrder_of_forall (h : ∀ t e, P t e) (t : τ) (es : List ε) : InOrder step' P t es := by
  induction es generalizing t with
  | nil => exact inOrder_nil t
  | cons e es ih => exact ⟨h t e, ih _⟩

/-- The front of a list of calls is in order as the whole is. -/
lemma InOrder.of_prefix {t : τ} {pre es : List ε} (h : InOrder step' P t es) (hpre : pre <+: es) :
    InOrder step' P t pre := by
  obtain ⟨post, rfl⟩ := hpre
  induction pre generalizing t with
  | nil => exact inOrder_nil t
  | cons e pre ih => exact ⟨h.1, ih h.2⟩

/-- Related states answer a call that is in order alike, and are related again behind it. -/
def Simulates (step : σ → ε → ω × σ) (step' : τ → ε → ω × τ) (P : τ → ε → Prop) (R : σ → τ → Prop) : Prop :=
  ∀ s t e, R s t → P t e → (step s e).1 = (step' t e).1 ∧ R (step s e).2 (step' t e).2

/-- From related states all calls are answered alike, as long as they are in order. -/
theorem Simulates.run (h : Simulates step step' P R) {s : σ} {t : τ} (hR : R s t) {es : List ε}
    (hes : InOrder step' P t es) : (runCalls step s es).1 = (runCalls step' t es).1 ∧
      R (runCalls step s es).2 (runCalls step' t es).2 := by
  induction es generalizing s t with
  | nil => exact ⟨rfl, hR⟩
  | cons e es ih =>
    obtain ⟨hanswer, hnext⟩ := h s t e hR hes.1
    obtain ⟨hanswers, hlast⟩ := ih hnext hes.2
    rw [runCalls_cons, runCalls_cons, hanswer, hanswers]
    exact ⟨rfl, hlast⟩

/-- **Where only calls in order keep the states related**, a run keeps them related at every point just if
all its calls are in order. -/
theorem Simulates.iff_inOrder (h : Simulates step step' (fun t e => V t e ∧ P t e) R)
    (hback : ∀ s t e, R s t → V t e → R (step s e).2 (step' t e).2 → P t e)
    {s : σ} {t : τ} (hR : R s t) {es : List ε} (hvalid : InOrder step' V t es) :
    (∀ pre, pre <+: es → (runCalls step s pre).1 = (runCalls step' t pre).1 ∧
      R (runCalls step s pre).2 (runCalls step' t pre).2) ↔ InOrder step' P t es := by
  constructor
  · intro hall
    induction es generalizing s t with
    | nil => exact inOrder_nil t
    | cons e es ih =>
      have hone := hall [e] ((List.prefix_cons_inj e).mpr List.nil_prefix)
      refine ⟨hback s t e hR hvalid.1 hone.2, ih hone.2 hvalid.2 fun pre hpre => ?_⟩
      obtain ⟨hanswers, hlast⟩ := hall (e :: pre) ((List.prefix_cons_inj e).mpr hpre)
      rw [runCalls_cons, runCalls_cons] at hanswers hlast
      exact ⟨(List.cons.inj hanswers).2, hlast⟩
  · intro horder pre hpre
    have hboth : InOrder step' (fun t e => V t e ∧ P t e) t es := by
      clear hpre hR
      induction es generalizing t with
      | nil => exact inOrder_nil t
      | cons e es ih => exact ⟨⟨hvalid.1, horder.1⟩, ih hvalid.2 horder.2⟩
    exact h.run hR (hboth.of_prefix hpre)

end Contiki

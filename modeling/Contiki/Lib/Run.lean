import Mathlib.Logic.Relation

/-!
# Guarded runs of a fallible step function

A system is given by an executable step function `step : σ → ε → Except φ σ`: the event `e`
leads from `s` to `s'` exactly when `step s e = .ok s'`, and an error ends the run.  A *guard*
`ok : σ → ε → Prop` restricts the events that may be taken in a state, so that "every run whose
steps all meet a condition" is reachability by guarded steps.

* `Moves step ok s s'` — one guarded step.
* `Reaches step ok init s` — `s` is the end of a guarded run that starts in an `init` state.
* `Reaches.invariant` — the induction rule every safety statement is an instance of.
* `runEvents`, `Reaches.of_runEvents`, `runGuarded` — concrete runs, evaluated.
-/

namespace Contiki

variable {σ ε φ : Type*}

/-- One step of the system taken under the guard `ok`. -/
def Moves (step : σ → ε → Except φ σ) (ok : σ → ε → Prop) (s s' : σ) : Prop :=
  ∃ e, ok s e ∧ step s e = .ok s'

/-- The states at the end of a guarded run from an initial state. -/
def Reaches (step : σ → ε → Except φ σ) (ok : σ → ε → Prop) (init : σ → Prop) (s : σ) : Prop :=
  ∃ s₀, init s₀ ∧ Relation.ReflTransGen (Moves step ok) s₀ s

/-- The guard that admits every event. -/
def anyEvent : σ → ε → Prop := fun _ _ => True

section
variable {step : σ → ε → Except φ σ} {ok ok' : σ → ε → Prop} {init : σ → Prop}

lemma Reaches.initial {s : σ} (h : init s) : Reaches step ok init s :=
  ⟨s, h, .refl⟩

lemma Reaches.tail {s s' : σ} {e : ε} (h : Reaches step ok init s) (he : ok s e)
    (hs : step s e = .ok s') : Reaches step ok init s' := by
  obtain ⟨s₀, h₀, hrun⟩ := h
  exact ⟨s₀, h₀, hrun.tail ⟨e, he, hs⟩⟩

/-- **The invariant rule.**  What holds initially and is preserved by every guarded step holds
at the end of every guarded run. -/
theorem Reaches.invariant {I : σ → Prop} (hinit : ∀ s, init s → I s)
    (hstep : ∀ s e s', I s → ok s e → step s e = .ok s' → I s')
    {s : σ} (h : Reaches step ok init s) : I s := by
  obtain ⟨s₀, h₀, hrun⟩ := h
  induction hrun with
  | refl => exact hinit _ h₀
  | tail _ hmove ih =>
      obtain ⟨e, he, hs⟩ := hmove
      exact hstep _ e _ ih he hs

/-- A weaker guard admits at least the same runs. -/
lemma Reaches.mono (hok : ∀ s e, ok s e → ok' s e) {s : σ} (h : Reaches step ok init s) :
    Reaches step ok' init s := by
  obtain ⟨s₀, h₀, hrun⟩ := h
  refine ⟨s₀, h₀, hrun.lift id ?_⟩
  rintro a b ⟨e, he, hs⟩
  exact ⟨e, hok a e he, hs⟩

lemma Reaches.anyEvent {s : σ} (h : Reaches step ok init s) :
    Reaches step anyEvent init s :=
  h.mono fun _ _ _ => trivial

end

/-- The state after a list of events; the first error ends the run. -/
def runEvents (step : σ → ε → Except φ σ) : σ → List ε → Except φ σ
  | s, [] => .ok s
  | s, e :: es =>
    match step s e with
    | .ok s' => runEvents step s' es
    | .error f => .error f

/-- A run of events that satisfy the guard in every state. -/
lemma Reaches.of_runEvents {step : σ → ε → Except φ σ} {ok : σ → ε → Prop} {init : σ → Prop}
    {s s' : σ} (h : Reaches step ok init s) {es : List ε} (hok : ∀ e ∈ es, ∀ s, ok s e)
    (hrun : runEvents step s es = .ok s') : Reaches step ok init s' := by
  induction es generalizing s with
  | nil =>
      simp only [runEvents, Except.ok.injEq] at hrun
      exact hrun ▸ h
  | cons e es ih =>
      cases hs : step s e with
      | error f => simp [runEvents, hs] at hrun
      | ok s₁ =>
          simp only [runEvents, hs] at hrun
          exact ih (h.tail (hok e List.mem_cons_self s) hs)
            (fun e' he' => hok e' (List.mem_cons_of_mem e he')) hrun

/-- The state after a list of events, each of which has to meet the guard and be possible. -/
def runGuarded (step : σ → ε → Except φ σ) (ok : σ → ε → Prop) [∀ s e, Decidable (ok s e)] :
    σ → List ε → Option σ
  | s, [] => some s
  | s, e :: es =>
    if ok s e then
      match step s e with
      | .ok s' => runGuarded step ok s' es
      | .error _ => none
    else none

/-- A guarded run, evaluated. -/
lemma Reaches.of_runGuarded {step : σ → ε → Except φ σ} {ok : σ → ε → Prop}
    [∀ s e, Decidable (ok s e)] {init : σ → Prop} {s s' : σ} (h : Reaches step ok init s)
    {es : List ε} (hrun : runGuarded step ok s es = some s') : Reaches step ok init s' := by
  induction es generalizing s with
  | nil => exact Option.some.inj hrun ▸ h
  | cons e es ih =>
      by_cases hok : ok s e
      · cases hs : step s e with
        | error f => simp [runGuarded, hok, hs] at hrun
        | ok s₁ =>
            simp only [runGuarded, if_pos hok, hs] at hrun
            exact ih (h.tail hok hs) hrun
      · simp [runGuarded, hok] at hrun

/-- A guarded run from an initial state, known through an observation of its end. -/
lemma Reaches.exists_guarded {step : σ → ε → Except φ σ} {ok : σ → ε → Prop}
    [∀ s e, Decidable (ok s e)] {init : σ → Prop} {s₀ : σ} (h₀ : init s₀) (es : List ε) {α : Type*}
    (observe : σ → α) {a : α} (h : (runGuarded step ok s₀ es).map observe = some a) :
    ∃ s, Reaches step ok init s ∧ observe s = a := by
  obtain ⟨s, hrun, hs⟩ := Option.map_eq_some_iff.mp h
  exact ⟨s, (Reaches.initial h₀).of_runGuarded hrun, hs⟩

/-- A run that is known to end well, read off through an observation. -/
lemma exists_ok_of_map {α β : Type*} {x : Except φ α} {f : α → β} {b : β}
    (h : x.map f = .ok b) : ∃ a, x = .ok a ∧ f a = b := by
  cases x with
  | error e => simp [Except.map] at h
  | ok a => exact ⟨a, rfl, by simpa [Except.map] using h⟩

end Contiki

import Contiki.Sys.Process

/-!
# Stacks of the process kernel

Which frame can stand on which: a thread is called by `call_process` or by `exit_process`, and these are
called by the kernel loops or by the thread that runs.

* `Frame.actives`, `Frame.exitings` — the processes whose threads have not returned, and those whose
  exit has not finished.
* `Frame.WellFormed` — every frame fits on what is below it.
-/

namespace Contiki
namespace Frame
variable {n : ℕ} {p x : Fin n} {m : Msg n} {f : Frame n} {stack rest : List (Frame n)}

/-- The process whose thread the frame is a call of. -/
def active? : Frame n → Option (Fin n)
  | .entry p _ => some p
  | .thread p _ => some p
  | _ => none

/-- The process whose exit the frame is a call of. -/
def exiting? : Frame n → Option (Fin n)
  | .exitAt p _ _ _ => some p
  | .exitNext p _ _ _ => some p
  | .exitRemove p _ => some p
  | _ => none

/-- The processes whose threads have not returned. -/
def actives (stack : List (Frame n)) : List (Fin n) := stack.filterMap active?

/-- The processes whose exit has not finished. -/
def exitings (stack : List (Frame n)) : List (Fin n) := stack.filterMap exiting?

/-- On top is the thread of the process `caller`. -/
def CalledBy (caller : Option (Fin n)) : List (Frame n) → Prop
  | .thread p _ :: _ => caller = some p
  | _ => False

/-- What is on top goes on when the call of `p` is over. -/
def Resumes (p : Fin n) : List (Frame n) → Prop
  | [] => True
  | .synch _ :: _ => True
  | .exitNext _ _ _ _ :: _ => True
  | .pollNext q :: _ => q = p
  | .castNext _ _ :: _ => True
  | _ => False

/-- What is on top has called the thread of `p`. -/
def Awaits (p : Fin n) : List (Frame n) → Prop
  | .called q _ :: _ => q = p
  | .exitRemove q _ :: _ => q = p
  | _ => False

/-- An exit of `p` can be called here: by the thread that runs or at the end of a call of `p`, and, if
the thread of `p` has not returned, by that thread. -/
structure Exits (p : Fin n) (old : Option (Fin n)) (rest : List (Frame n)) : Prop where
  fresh : p ∉ exitings rest
  self : p ∈ actives rest → ∃ m, rest.head? = some (.thread p m)
  below : CalledBy old rest ∨ Resumes p rest

/-- `do_poll` is called here. -/
def Polls (rest : List (Frame n)) : Prop :=
  rest = [.doEvent] ∨ ∃ m p, rest = [.castCall m p]

/-- The frame can stand on `rest`. -/
def Fits : Frame n → List (Frame n) → Prop
  | .entry p _, rest => p ∉ actives rest ∧ Awaits p rest
  | .thread p _, rest => p ∉ actives rest ∧ Awaits p rest
  | .called p _, rest => p ∉ actives rest ∧ p ∉ exitings rest ∧ Resumes p rest
  | .synch caller, rest => CalledBy caller rest
  | .exitAt p fromprocess old _, rest =>
    Exits p old rest ∧ (p ∈ actives rest → fromprocess = some p)
  | .exitNext p fromprocess old _, rest =>
    Exits p old rest ∧ (p ∈ actives rest → fromprocess = some p)
  | .exitRemove p old, rest => Exits p old rest
  | .pollAt _, rest => Polls rest
  | .pollNext _, rest => Polls rest
  | .castAt _ _, rest => rest = []
  | .castCall _ _, rest => rest = []
  | .castNext _ _, rest => rest = []
  | .doEvent, rest => rest = []

/-- Every frame fits on what is below it. -/
def WellFormed : List (Frame n) → Prop
  | [] => True
  | f :: rest => f.Fits rest ∧ WellFormed rest

/-! ## Lemmas on the frames below -/

@[simp] lemma actives_cons : actives (f :: rest) = f.active?.toList ++ actives rest := by
  unfold actives
  cases hf : f.active? <;> simp [hf]

@[simp] lemma exitings_cons : exitings (f :: rest) = f.exiting?.toList ++ exitings rest := by
  unfold exitings
  cases hf : f.exiting? <;> simp [hf]

lemma mem_actives_of_head (h : stack.head? = some (.thread p m)) : p ∈ actives stack := by
  cases stack with
  | nil => exact absurd h nofun
  | cons f rest =>
    obtain rfl : f = .thread p m := Option.some.inj h
    exact List.mem_cons_self

lemma CalledBy.head {caller : Option (Fin n)} (h : CalledBy caller rest) :
    ∃ p m, rest.head? = some (.thread p m) ∧ caller = some p := by
  cases rest with
  | nil => exact absurd h id
  | cons f rest =>
    cases f with
    | thread p m => exact ⟨p, m, rfl, h⟩
    | _ => exact absurd h id

/-- What waits for a call is neither a thread nor a loop of `do_poll` between two calls. -/
lemma Resumes.head_ne (h : Resumes p rest) :
    (∀ x m, rest.head? ≠ some (.thread x m)) ∧ (∀ x m, rest.head? ≠ some (.entry x m)) ∧
      (∀ x m, rest.head? ≠ some (.called x m)) ∧ (∀ q, rest.head? ≠ some (.pollAt q)) ∧
      ∀ x, rest.head? = some (.pollNext x) → x = p := by
  cases rest with
  | nil => exact ⟨nofun, nofun, nofun, nofun, nofun⟩
  | cons f rest =>
    cases f with
    | synch c => exact ⟨nofun, nofun, nofun, nofun, nofun⟩
    | exitNext q a b y => exact ⟨nofun, nofun, nofun, nofun, nofun⟩
    | castNext m y => exact ⟨nofun, nofun, nofun, nofun, nofun⟩
    | pollNext y =>
      refine ⟨nofun, nofun, nofun, nofun, fun x hx => ?_⟩
      cases hx
      exact h
    | _ => exact absurd h id

lemma Polls.quiet (h : Polls rest) : actives rest = [] ∧ exitings rest = [] := by
  rcases h with rfl | ⟨m, p, rfl⟩ <;> exact ⟨rfl, rfl⟩

/-- A loop of `do_poll` that waits for the call of `x` is on top, or `x` is called or leaves. -/
lemma WellFormed.pollNext (h : WellFormed stack) (hx : .pollNext x ∈ stack) :
    stack.head? = some (.pollNext x) ∨ (∃ m, stack.head? = some (.called x m)) ∨
      x ∈ actives stack ∨ x ∈ exitings stack := by
  induction stack with
  | nil => exact absurd hx List.not_mem_nil
  | cons f rest ih =>
    rcases List.mem_cons.mp hx with rfl | hx
    · exact .inl rfl
    · have hactive : x ∈ actives rest → x ∈ actives (f :: rest) := by
        intro hmem
        rw [actives_cons]
        exact List.mem_append_right _ hmem
      have hexiting : x ∈ exitings rest → x ∈ exitings (f :: rest) := by
        intro hmem
        rw [exitings_cons]
        exact List.mem_append_right _ hmem
      obtain ⟨hfits, hrest⟩ := h
      rcases ih hrest hx with hhead | ⟨m, hhead⟩ | hmem | hmem
      · -- The frame above a loop that waits for `x` is a call or the exit of `x`.
        cases rest with
        | nil => exact absurd hhead nofun
        | cons g rest =>
          obtain rfl : g = .pollNext x := Option.some.inj hhead
          cases f with
          | entry p m => exact absurd hfits.2 id
          | thread p m => exact absurd hfits.2 id
          | called p m =>
            obtain rfl : x = p := hfits.2.2
            exact .inr (.inl ⟨m, rfl⟩)
          | synch c => exact absurd hfits id
          | exitAt p a b q =>
            obtain rfl : x = p := hfits.1.below.resolve_left id
            exact .inr (.inr (.inr List.mem_cons_self))
          | exitNext p a b q =>
            obtain rfl : x = p := hfits.1.below.resolve_left id
            exact .inr (.inr (.inr List.mem_cons_self))
          | exitRemove p b =>
            obtain rfl : x = p := hfits.below.resolve_left id
            exact .inr (.inr (.inr List.mem_cons_self))
          | pollAt q => rcases hfits with h | ⟨m, p, h⟩ <;> exact absurd h nofun
          | pollNext q => rcases hfits with h | ⟨m, p, h⟩ <;> exact absurd h nofun
          | _ => exact absurd hfits nofun
      · cases rest with
        | nil => exact absurd hhead nofun
        | cons g rest =>
          obtain rfl : g = .called x m := Option.some.inj hhead
          cases f with
          | entry p m =>
            obtain rfl : x = p := hfits.2
            exact .inr (.inr (.inl List.mem_cons_self))
          | thread p m =>
            obtain rfl : x = p := hfits.2
            exact .inr (.inr (.inl List.mem_cons_self))
          | called p m => exact absurd hfits.2.2 id
          | synch c => exact absurd hfits id
          | exitAt p a b q => exact absurd hfits.1.below (not_or_intro id id)
          | exitNext p a b q => exact absurd hfits.1.below (not_or_intro id id)
          | exitRemove p b => exact absurd hfits.below (not_or_intro id id)
          | pollAt q => rcases hfits with h | ⟨m, p, h⟩ <;> exact absurd h nofun
          | pollNext q => rcases hfits with h | ⟨m, p, h⟩ <;> exact absurd h nofun
          | _ => exact absurd hfits nofun
      · exact .inr (.inr (.inl (hactive hmem)))
      · exact .inr (.inr (.inr (hexiting hmem)))

end Frame
end Contiki

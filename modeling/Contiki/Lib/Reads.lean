import Mathlib.Data.List.Basic
import Mathlib.Data.Nat.Notation

/-!
# Computations over a buffer and what they read

A computation that reads cells of a buffer is the tree of its reads: it asks for a cell and goes
on with the value found there.  From the tree come both the result on a buffer and the list of
the offsets that were read on the way, and the offsets read determine the result.
-/

namespace Contiki

/-- A computation with result in `α` that reads cells of type `β` at offsets in `ι`. -/
inductive Reads (ι β α : Type)
  | done (a : α)
  | cell (pos : ι) (next : β → Reads ι β α)

namespace Reads
variable {ι β α γ : Type}

/-- Go on with the result of a computation. -/
protected def bind : Reads ι β α → (α → Reads ι β γ) → Reads ι β γ
  | done a, f => f a
  | cell pos next, f => cell pos fun b => (next b).bind f

instance : Monad (Reads ι β) where
  pure := done
  bind := Reads.bind

/-- Read one cell. -/
def read (pos : ι) : Reads ι β β := cell pos done

/-- The result on a buffer. -/
def run (buffer : ι → β) : Reads ι β α → α
  | done a => a
  | cell pos next => (next (buffer pos)).run buffer

/-- The offsets that are read on a buffer, in order. -/
def offsets (buffer : ι → β) : Reads ι β α → List ι
  | done _ => []
  | cell pos next => pos :: (next (buffer pos)).offsets buffer

/-- On this buffer the computation reads only offsets that are allowed. -/
def Within (buffer : ι → β) (allowed : ι → Prop) (m : Reads ι β α) : Prop :=
  ∀ i ∈ m.offsets buffer, allowed i

variable (buffer : ι → β) (allowed : ι → Prop)

@[simp] lemma run_pure (a : α) : (pure a : Reads ι β α).run buffer = a := rfl

@[simp] lemma run_read (pos : ι) : (read pos : Reads ι β β).run buffer = buffer pos := rfl

@[simp] lemma run_bind (m : Reads ι β α) (f : α → Reads ι β γ) :
    (m >>= f).run buffer = (f (m.run buffer)).run buffer := by
  induction m with
  | done a => rfl
  | cell pos next ih => exact ih (buffer pos)

@[simp] lemma offsets_bind (m : Reads ι β α) (f : α → Reads ι β γ) :
    (m >>= f).offsets buffer = m.offsets buffer ++ (f (m.run buffer)).offsets buffer := by
  induction m with
  | done a => rfl
  | cell pos next ih => exact congrArg (pos :: ·) (ih (buffer pos))

@[simp] lemma within_pure (a : α) : (pure a : Reads ι β α).Within buffer allowed := by
  intro i hi
  cases hi

@[simp] lemma within_read (pos : ι) :
    (read pos : Reads ι β β).Within buffer allowed ↔ allowed pos := by
  simp [Within, offsets, read]

@[simp] lemma within_bind (m : Reads ι β α) (f : α → Reads ι β γ) :
    (m >>= f).Within buffer allowed ↔
      m.Within buffer allowed ∧ (f (m.run buffer)).Within buffer allowed := by
  simp only [Within, offsets_bind, List.mem_append]
  exact ⟨fun h => ⟨fun i hi => h i (.inl hi), fun i hi => h i (.inr hi)⟩,
    fun h i hi => hi.elim (h.1 i) (h.2 i)⟩

/-- A branch of the computation is read only when it is taken. -/
@[simp] lemma within_ite (c : Prop) [Decidable c] (m m' : Reads ι β α) :
    (if c then m else m').Within buffer allowed ↔
      (c → m.Within buffer allowed) ∧ (¬c → m'.Within buffer allowed) := by
  by_cases hc : c
  · simp [hc]
  · simp [hc]

@[simp] lemma run_ite (c : Prop) [Decidable c] (m m' : Reads ι β α) :
    (if c then m else m').run buffer = if c then m.run buffer else m'.run buffer := by
  by_cases hc : c
  · rw [if_pos hc, if_pos hc]
  · rw [if_neg hc, if_neg hc]

/-- Go on with the result of a computation that may give up. -/
def ifSome (m : Reads ι β (Option α)) (f : α → Reads ι β (Option γ)) : Reads ι β (Option γ) :=
  m >>= fun r => r.elim (pure none) f

@[simp] lemma run_ifSome (m : Reads ι β (Option α)) (f : α → Reads ι β (Option γ)) :
    (m.ifSome f).run buffer = (m.run buffer).bind fun a => (f a).run buffer := by
  rw [ifSome, run_bind]
  cases m.run buffer with
  | none => rfl
  | some a => rfl

@[simp] lemma within_ifSome (m : Reads ι β (Option α)) (f : α → Reads ι β (Option γ)) :
    (m.ifSome f).Within buffer allowed ↔
      m.Within buffer allowed ∧ ∀ a, m.run buffer = some a → (f a).Within buffer allowed := by
  rw [ifSome, within_bind]
  cases m.run buffer with
  | none => simp
  | some a => simp

variable {buffer allowed}

/-- Buffers that agree on what is read give the same result. -/
lemma run_congr {buffer' : ι → β} {m : Reads ι β α}
    (h : ∀ i ∈ m.offsets buffer, buffer' i = buffer i) : m.run buffer' = m.run buffer := by
  induction m with
  | done a => rfl
  | cell pos next ih =>
    have hpos : buffer' pos = buffer pos := h pos (List.mem_cons_self ..)
    show (next (buffer' pos)).run buffer' = (next (buffer pos)).run buffer
    rw [hpos]
    exact ih (buffer pos) fun i hi => h i (List.mem_cons_of_mem _ hi)

/-- A computation that stays within the allowed offsets does not depend on the others. -/
lemma Within.run_congr {buffer' : ι → β} {m : Reads ι β α} (hm : m.Within buffer allowed)
    (h : ∀ i, allowed i → buffer' i = buffer i) : m.run buffer' = m.run buffer :=
  Reads.run_congr fun i hi => h i (hm i hi)

/-! ## Ranges of offsets -/

section Range
variable {β : Type} (buffer : ℕ → β) (n : ℕ)

/-- Read the cells from an offset on. -/
def readRange (pos : ℕ) : ℕ → Reads ℕ β (List β)
  | 0 => pure []
  | len + 1 => do
    let b ← read pos
    let rest ← readRange (pos + 1) len
    pure (b :: rest)

lemma run_readRange (pos len : ℕ) :
    (readRange pos len).run buffer = (List.range len).map fun k => buffer (pos + k) := by
  induction len generalizing pos with
  | zero => rfl
  | succ len ih =>
    simp only [readRange, run_bind, run_read, run_pure]
    rw [ih, List.range_succ_eq_map, List.map_cons, List.map_map]
    congr 1
    apply List.map_congr_left
    intro k hk
    show buffer (pos + 1 + k) = buffer (pos + (k + 1))
    rw [Nat.add_assoc, Nat.add_comm 1 k]

lemma within_readRange (pos len : ℕ) :
    (readRange pos len).Within buffer (· < n) ↔ len = 0 ∨ pos + len ≤ n := by
  induction len generalizing pos with
  | zero => exact iff_of_true (within_pure _ _ _) (.inl rfl)
  | succ len ih =>
    have hstep : (readRange pos (len + 1)).Within buffer (· < n) ↔
        pos < n ∧ (readRange (pos + 1) len).Within buffer (· < n) := by
      simp [readRange]
    rw [hstep, ih]
    omega

end Range
end Reads
end Contiki

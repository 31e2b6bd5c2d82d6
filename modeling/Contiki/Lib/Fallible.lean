import Mathlib.Tactic.Common

/-!
# Partial correctness of fallible computations

`Ensures x P` says that if the computation `x : Except φ α` ends without an error, then `P`
holds of its result.  The rules below follow the shape of a `do` block, so a proof about a
function written in `Except` walks through its statements once.
-/

namespace Contiki

universe u v

variable {φ : Type v} {α β : Type u}

/-- If the computation ends well, its result satisfies `P`. -/
def Ensures (x : Except φ α) (P : α → Prop) : Prop := ∀ a, x = .ok a → P a

/-- Follow a pointer: the error `f` stands for reading through a null pointer. -/
def deref (o : Option α) (f : φ) : Except φ α :=
  match o with
  | some a => .ok a
  | none => .error f

@[simp] lemma deref_some (a : α) (f : φ) : deref (some a) f = .ok a := rfl

@[simp] lemma deref_none (f : φ) : deref (none : Option α) f = .error f := rfl

lemma deref_eq_ok {o : Option α} {f : φ} {a : α} : deref o f = .ok a ↔ o = some a := by
  cases o <;> simp

lemma bind_eq_ok {x : Except φ α} {f : α → Except φ β} {b : β} :
    (x >>= f) = .ok b ↔ ∃ a, x = .ok a ∧ f a = .ok b := by
  cases x <;> simp [bind, Except.bind]

lemma bind_eq_error {x : Except φ α} {f : α → Except φ β} {e : φ} :
    (x >>= f) = .error e ↔ x = .error e ∨ ∃ a, x = .ok a ∧ f a = .error e := by
  cases x <;> simp [bind, Except.bind]

lemma map_eq_ok {x : Except φ α} {f : α → β} {b : β} :
    x.map f = .ok b ↔ ∃ a, x = .ok a ∧ f a = b := by
  cases x <;> simp [Except.map]

@[simp] lemma ok_bind (a : α) (f : α → Except φ β) : (.ok a >>= f : Except φ β) = f a := rfl

@[simp] lemma error_bind (e : φ) (f : α → Except φ β) : (.error e >>= f : Except φ β) = .error e :=
  rfl

@[simp] lemma pure_eq_ok (a : α) : (pure a : Except φ α) = .ok a := rfl

namespace Ensures

variable {P Q : α → Prop}

lemma ok {a : α} (h : P a) : Ensures (.ok a : Except φ α) P := by
  rintro b ⟨⟩
  exact h

lemma error (e : φ) : Ensures (.error e : Except φ α) P := by
  rintro b ⟨⟩

lemma bind {x : Except φ α} {f : α → Except φ β} {R : β → Prop}
    (hx : Ensures x P) (hf : ∀ a, P a → Ensures (f a) R) : Ensures (x >>= f) R := by
  intro b hb
  obtain ⟨a, ha, hb⟩ := bind_eq_ok.mp hb
  exact hf a (hx a ha) b hb

lemma mono {x : Except φ α} (hx : Ensures x P) (h : ∀ a, P a → Q a) : Ensures x Q :=
  fun a ha => h a (hx a ha)

lemma and {x : Except φ α} (hP : Ensures x P) (hQ : Ensures x Q) :
    Ensures x fun a => P a ∧ Q a :=
  fun a ha => ⟨hP a ha, hQ a ha⟩

end Ensures

end Contiki

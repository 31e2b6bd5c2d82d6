import Mathlib.Logic.Relation

/-!
# Walks of a partial step function

A loop that goes from one item to the next one, until there is none left, walks along a partial
step function.  A statement about everything the walk meets is one about its start and about
everything met after one step.
-/

namespace Contiki

/-- A walk leads from one state to another one. -/
def Leads {σ : Type*} (step : σ → Option σ) : σ → σ → Prop :=
  Relation.ReflTransGen fun a b => step a = some b

namespace Leads
variable {σ : Type*} {step : σ → Option σ} {P : σ → Prop}

lemma refl (a : σ) : Leads step a a := Relation.ReflTransGen.refl

lemma head {a b c : σ} (h : step a = some b) (hbc : Leads step b c) : Leads step a c :=
  Relation.ReflTransGen.head h hbc

/-- A walk that has ended is where it started. -/
lemma eq_of_none {a b : σ} (h : Leads step a b) (ha : step a = none) : b = a := by
  rcases Relation.ReflTransGen.cases_head h with rfl | ⟨c, hc, -⟩
  · rfl
  · rw [ha] at hc
    cases hc

/-- From a state with a successor the walk goes on there. -/
lemma eq_or_of_some {a b c : σ} (h : Leads step a c) (ha : step a = some b) :
    c = a ∨ Leads step b c := by
  rcases Relation.ReflTransGen.cases_head h with rfl | ⟨b', hb', hc⟩
  · exact .inl rfl
  · rw [ha, Option.some.injEq] at hb'
    rw [hb']
    exact .inr hc

/-- What an invariant of the steps says holds along a walk. -/
lemma invariant (hstep : ∀ a b, P a → step a = some b → P b) {a b : σ} (h : Leads step a b)
    (ha : P a) : P b := by
  induction h with
  | refl => exact ha
  | tail _ hbc ih => exact hstep _ _ ih hbc

lemma forall_iff_of_none {a : σ} (ha : step a = none) : (∀ b, Leads step a b → P b) ↔ P a :=
  ⟨fun h => h a (refl a), fun h b hb => by rw [hb.eq_of_none ha]; exact h⟩

lemma forall_iff_of_some {a b : σ} (ha : step a = some b) :
    (∀ c, Leads step a c → P c) ↔ P a ∧ ∀ c, Leads step b c → P c := by
  refine ⟨fun h => ⟨h a (refl a), fun c hc => h c (hc.head ha)⟩, ?_⟩
  rintro ⟨hPa, hPb⟩ c hc
  rcases hc.eq_or_of_some ha with rfl | hbc
  · exact hPa
  · exact hPb c hbc

end Leads
end Contiki

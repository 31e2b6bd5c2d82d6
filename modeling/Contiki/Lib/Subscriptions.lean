import Mathlib.Order.BooleanAlgebra.Set

/-!
# Members that share subscriptions

Each member of a table subscribes to a topic that is determined by the member, and several members
can have one topic.  A removal that gives up the topic of each member it removes leaves the other
members with a subscription exactly when none of them has such a topic (`Releases.covers_iff`).
-/

namespace Contiki

section Subscriptions
variable {ι α γ : Type*} {topic : α → γ} {members members' members'' : ι → Option α}
  {subs subs' subs'' : Set γ} {R S : Set ι} {K L : Set γ}

/-- Every member has its subscription. -/
def Covers (topic : α → γ) (members : ι → Option α) (subs : Set γ) : Prop :=
  ∀ i a, members i = some a → topic a ∈ subs

/-- The members `R` are removed, and the subscriptions `K` given up. -/
structure Releases (members : ι → Option α) (subs : Set γ) (members' : ι → Option α) (subs' : Set γ)
    (R : Set ι) (K : Set γ) : Prop where
  removed : ∀ i ∈ R, members' i = none
  kept : ∀ i ∉ R, members' i = members i
  subs : subs' = subs \ K

namespace Releases

lemma refl (members : ι → Option α) (subs : Set γ) : Releases members subs members subs ∅ ∅ :=
  ⟨fun _ hi => absurd hi (Set.notMem_empty _), fun _ _ => rfl, Set.sdiff_empty.symm⟩

lemma trans (h : Releases members subs members' subs' R K)
    (h' : Releases members' subs' members'' subs'' S L) :
    Releases members subs members'' subs'' (R ∪ S) (K ∪ L) where
  removed i hi := by
    by_cases hS : i ∈ S
    · exact h'.removed i hS
    · rw [h'.kept i hS]
      exact h.removed i (hi.resolve_right hS)
  kept i hi := by
    rw [h'.kept i fun hS => hi (.inr hS), h.kept i fun hR => hi (.inl hR)]
  subs := by rw [h'.subs, h.subs, Set.sdiff_sdiff]

/-- The members that are left are covered if and only if none of them has a topic that is given up. -/
lemma covers_iff (h : Releases members subs members' subs' R K) (hcovers : Covers topic members subs) :
    Covers topic members' subs' ↔ ∀ i ∉ R, ∀ a, members i = some a → topic a ∉ K := by
  constructor
  · intro hleft i hi a ha
    have hsub := hleft i a ((h.kept i hi).trans ha)
    rw [h.subs] at hsub
    exact hsub.2
  · intro hfree i a ha
    have hi : i ∉ R := by
      intro hi
      rw [h.removed i hi] at ha
      cases ha
    rw [h.kept i hi] at ha
    rw [h.subs]
    exact ⟨hcovers i a ha, hfree i hi a ha⟩

end Releases

/-- A member comes with its subscription. -/
lemma Covers.insert (hcovers : Covers topic members subs) {i : ι} {a : α}
    (hself : members' i = some a) (hother : ∀ j, j ≠ i → members' j = members j)
    (hsubs : subs' = Insert.insert (topic a) subs) : Covers topic members' subs' := by
  intro j b hb
  rw [hsubs]
  by_cases hj : j = i
  · rw [hj, hself] at hb
    cases hb
    exact Set.mem_insert _ _
  · rw [hother j hj] at hb
    exact Set.mem_insert_of_mem _ (hcovers j b hb)

end Subscriptions
end Contiki

import Contiki.Rpl.CandidateParent
import Contiki.Rpl.Extensions

/-!
# Absent objects

`rpl_process_dio` and `dro_input` follow `dag->p2p`, `dio->rdo` and `dag->preferred_parent`.  Their
guards test the mode of operation of the DIO in some places and that of the DAG in others, and not
the parent that a local repair took away; so there are messages with which they follow a null
pointer.  `deref_safe_iff` says exactly which.

A result is `NullSafe` if it is not the fault of following one of the three.
-/

namespace Contiki

/-- None of the three optional objects was followed while it was absent. -/
def NullSafe {α : Type} (x : Except Fault α) : Prop :=
  x ≠ .error .nullP2p ∧ x ≠ .error .nullRdo ∧ x ≠ .error .nullPreferredParent

/-- The fault of a result that is one. -/
def faultOf {α : Type} : Except Fault α → Option Fault
  | .error f => some f
  | .ok _ => none

instance {α : Type} (x : Except Fault α) : Decidable (NullSafe x) :=
  decidable_of_iff (faultOf x ≠ some .nullP2p ∧ faultOf x ≠ some .nullRdo ∧
    faultOf x ≠ some .nullPreferredParent) (by cases x <;> simp [faultOf, NullSafe])

namespace NullSafe
variable {α β : Type}

lemma ok (a : α) : NullSafe (.ok a) := by simp [NullSafe]

lemma bind {x : Except Fault α} {f : α → Except Fault β} (hx : NullSafe x)
    (hf : ∀ a, x = .ok a → NullSafe (f a)) : NullSafe (x >>= f) := by
  cases x with
  | error e => simpa [NullSafe] using hx
  | ok a => exact hf a rfl

end NullSafe

variable {cfg : Config}

namespace Node

variable {s s' : Node cfg} {d : cfg.DagRef} {e : cfg.P2pRef} {p : cfg.ParentRef} {dio : Dio}

/-! ## Functions that follow none of them -/

variable {from_ : IpAddr}

/-- The DAG of the DRO has an extension, where the DRO needs it: for the stop bit, and for the
process that waits at the origin. -/
def SafeDro (s : Node cfg) (dro : Dro) : Prop := ∀ d,
  s.rplGetDag dro.instanceId (some dro.dodagId) = some d →
    dro.stop = true ∨ s.isMyAddr dro.dodagId = true → (s.dagTable d).p2p ≠ none

lemma rplGetDag_of_slots (h : s'.slots = s.slots) (instanceId : UInt8) (dodagId : Option IpAddr) :
    s'.rplGetDag instanceId dodagId = s.rplGetDag instanceId dodagId := by
  have hslot : ∀ d, (s'.dagTable d).slot = (s.dagTable d).slot :=
    fun d => congrArg (fun σ => Slots.slot σ d) h
  have hjoined : ∀ d, (s'.dagTable d).joined = (s.dagTable d).joined :=
    fun d => congrArg DagSlot.joined (hslot d)
  have hinst : ∀ d, (s'.dagTable d).instanceId = (s.dagTable d).instanceId :=
    fun d => congrArg DagSlot.instanceId (hslot d)
  have hid : ∀ d, (s'.dagTable d).dagId = (s.dagTable d).dagId :=
    fun d => congrArg DagSlot.dagId (hslot d)
  simp only [rplGetDag, hjoined, hinst, hid]

lemma droStop_nullSafe_iff (dro : Dro) : NullSafe (s.droStop dro) ↔
    (dro.stop = true → ∀ d, s.rplGetDag dro.instanceId (some dro.dodagId) = some d →
      (s.dagTable d).p2p ≠ none) := by
  unfold droStop
  split_ifs with hstop
  · cases hget : s.rplGetDag dro.instanceId (some dro.dodagId) with
    | none => simp [NullSafe]
    | some d =>
        cases hp2p : (s.dagTable d).p2p with
        | none => simp [derefP2p, hp2p, NullSafe, hstop]
        | some e =>
            simp only [derefP2p, hp2p, deref_some, ok_bind]
            split_ifs <;> simp [NullSafe, hp2p]
  · simp [hstop, NullSafe]

lemma droStop_addrList {dro : Dro} (h : s.droStop dro = .ok s') : s'.addrList = s.addrList := by
  unfold droStop at h
  split_ifs at h
  · split at h
    · cases h; rfl
    · obtain ⟨e, -, h⟩ := bind_eq_ok.mp h
      split_ifs at h <;> cases h <;> rfl
  · cases h; rfl

lemma droInput_nullSafe_iff (dst : IpAddr) (dro : Dro) :
    NullSafe (s.droInput dst dro) ↔ s.SafeDro dro := by
  have hstopped := s.droStop_nullSafe_iff dro
  unfold droInput
  cases hstop : s.droStop dro with
  | error f =>
      rw [hstop] at hstopped
      have hfaulty : ¬NullSafe (.error f : Except Fault (Node cfg)) := by
        rw [hstopped]
        intro hall
        unfold droStop at hstop
        split_ifs at hstop with hflag
        split at hstop
        · cases hstop
        · rename_i d hget
          obtain ⟨e, he⟩ := Option.ne_none_iff_exists'.mp (hall hflag d hget)
          simp only [derefP2p, he, deref_some, ok_bind] at hstop
          split_ifs at hstop
      refine iff_of_false (by simpa [NullSafe] using hfaulty) fun hsafe => hfaulty ?_
      exact hstopped.mpr fun hflag d hget => hsafe d hget (.inl hflag)
  | ok s₁ =>
      rw [hstop] at hstopped
      have hflag := hstopped.mp (.ok s₁)
      have hslots₁ : s₁.slots = s.slots := (droStop_quiet s dro s₁ hstop).slots
      have haddr : s₁.isMyAddr dro.dodagId = s.isMyAddr dro.dodagId := by
        rw [isMyAddr, droStop_addrList hstop, isMyAddr]
      simp only [ok_bind, haddr]
      split_ifs with horigin
      · have hslots₂ : (s₁.droStoreRoute dro).slots = s.slots :=
          ((droStoreRoute_quiet s₁ dro).slots).trans hslots₁
        have hp2p : ∀ d, ((s₁.droStoreRoute dro).dagTable d).p2p = (s.dagTable d).p2p :=
          fun d => congrArg (fun σ => (Slots.slot σ d).p2p) hslots₂
        unfold droAtOrigin droNotify SafeDro
        simp only [rplGetDag_of_slots hslots₂, derefP2p, hp2p, horigin, or_true, forall_const]
        cases hget : s.rplGetDag dro.instanceId (some dro.dodagId) with
        | none => simp [NullSafe]
        | some d => cases hext : (s.dagTable d).p2p <;> simp [hext, NullSafe]
      · refine iff_of_true (.ok _) fun d hget hcase => ?_
        exact hflag (hcase.resolve_right horigin) d hget

end Node
end Contiki

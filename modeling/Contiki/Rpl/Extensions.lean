import Contiki.Rpl.Allocation

/-!
# DAGs and their P2P extensions

`dag->p2p` and `dag->p2p->dag` are two pointers that ought to be each other's inverse.
`Slots.Paired` says that they are; it survives everything but a call of `rpl_free_dag` for a DAG
that has an extension, because that call frees the slot and leaves the entry behind
(`extensions_paired`).  Of the pointers from DAGs to extensions alone more is true: they are
injective in every reachable state, and the DAGs that have one are those in P2P mode.
-/

namespace Contiki

variable {cfg : Config}

/-! ## Pairs on slots -/

namespace Slots

/-- Extensions and the DAGs in use point to each other. -/
structure Paired (σ : Slots cfg) : Prop where
  back : ∀ e d, σ.owner e = some d → (σ.slot d).used = true ∧ (σ.slot d).p2p = some e
  forth : ∀ d e, (σ.slot d).used = true → (σ.slot d).p2p = some e → σ.owner e = some d

namespace Paired
variable {σ σ' : Slots cfg}

lemma owner_ne (h : σ.Paired) {d : cfg.DagRef} (hunused : (σ.slot d).used = false)
    (e : cfg.P2pRef) : σ.owner e ≠ some d := by
  intro howner
  rw [(h.back e d howner).1] at hunused
  cases hunused

/-- A slot without extension may get any content without extension. -/
lemma modify (h : σ.Paired) (d : cfg.DagRef) {slot : DagSlot cfg}
    (hold : ∀ e, σ.owner e ≠ some d) (hnew : slot.p2p = none) :
    (σ.modify d fun _ => slot).Paired where
  back e d' howner := by
    by_cases hd : d' = d
    · subst hd
      exact absurd howner (hold e)
    · simpa [hd] using h.back e d' howner
  forth d' e hused hp2p := by
    by_cases hd : d' = d
    · subst hd
      simp [hnew] at hp2p
    · simp only [modify_slot, ne_eq, hd, not_false_eq_true, Function.update_of_ne] at hused hp2p
      exact h.forth d' e hused hp2p

lemma free (h : σ.Paired) (d : cfg.DagRef) (hold : ∀ e, σ.owner e ≠ some d) :
    (σ.free d).Paired where
  back e d' howner := by
    by_cases hd : d' = d
    · subst hd
      exact absurd howner (hold e)
    · simpa [hd] using h.back e d' howner
  forth d' e hused hp2p := by
    by_cases hd : d' = d
    · subst hd
      simp at hused
    · simp only [free_slot, ne_eq, hd, not_false_eq_true, Function.update_of_ne] at hused hp2p
      exact h.forth d' e hused hp2p

/-- A slot that was not in use is joined together with a free extension. -/
lemma attach (h : σ.Paired) {d : cfg.DagRef} {e : cfg.P2pRef} {slot : DagSlot cfg}
    (hunused : (σ.slot d).used = false) (hfree : ∀ d', σ.owner e = some d' →
      (σ.slot d').used = false) (hused : slot.used = true) (hp2p : slot.p2p = some e) :
    ((σ.modify d fun _ => slot).setOwner e (some d)).Paired := by
  have hnone : ∀ d', σ.owner e ≠ some d' := by
    intro d' howner
    have hused' := (h.back e d' howner).1
    rw [hfree d' howner] at hused'
    cases hused'
  refine ⟨fun e' d' howner => ?_, fun d' e' hused' hp2p' => ?_⟩
  · by_cases he : e' = e
    · subst he
      obtain rfl : d = d' := by simpa using howner
      simp [hused, hp2p]
    · simp only [setOwner_owner, ne_eq, he, not_false_eq_true, Function.update_of_ne] at howner
      have hd : d' ≠ d := by
        rintro rfl
        exact h.owner_ne hunused e' howner
      simpa [hd] using h.back e' d' howner
  · by_cases hd : d' = d
    · subst hd
      obtain rfl : e = e' := by simpa [hp2p] using hp2p'
      simp
    · simp only [setOwner_slot, modify_slot, ne_eq, hd, not_false_eq_true,
        Function.update_of_ne] at hused' hp2p'
      have howner := h.forth d' e' hused' hp2p'
      have he : e' ≠ e := by
        rintro rfl
        exact hnone d' howner
      simpa [he] using howner

/-- A pair is purged as a whole. -/
lemma purge (h : σ.Paired) {e : cfg.P2pRef} {d : cfg.DagRef} (howner : σ.owner e = some d) :
    (σ.purge e d).Paired := by
  refine ⟨fun e' d' howner' => ?_, fun d' e' hused hp2p => ?_⟩
  · by_cases he : e' = e
    · subst he
      simp [Slots.purge] at howner'
    · simp only [Slots.purge, setOwner_owner, ne_eq, he, not_false_eq_true, Function.update_of_ne,
        free_owner, modify_owner] at howner'
      have hd : d' ≠ d := by
        rintro rfl
        have h₁ := (h.back e' d' howner').2
        rw [(h.back e d' howner).2] at h₁
        exact he (by simpa using h₁.symm)
      simpa [Slots.purge, hd] using h.back e' d' howner'
  · by_cases hd : d' = d
    · subst hd
      simp [Slots.purge] at hused
    · simp only [Slots.purge, setOwner_slot, free_slot, modify_slot, ne_eq, hd, not_false_eq_true,
        Function.update_of_ne] at hused hp2p
      have howner' := h.forth d' e' hused hp2p
      have he : e' ≠ e := by
        rintro rfl
        rw [howner] at howner'
        exact hd (by simpa using howner'.symm)
      simpa [Slots.purge, he] using howner'

lemma purges (h : σ.Paired) (hpurges : σ.Purges σ') : σ'.Paired := by
  induction hpurges with
  | refl => exact h
  | tail _ hpurge ih =>
      obtain ⟨e, d, howner, -, rfl⟩ := hpurge
      exact ih.purge howner

end Paired
end Slots

/-- A slot in use has an extension exactly if it is joined in P2P mode. -/
def DagSlot.Extended (slot : DagSlot cfg) : Prop :=
  slot.used = true →
    (slot.p2p ≠ none ↔ slot.joined = true ∧ slot.mop = rplMopP2pRouteDiscovery)

/-! ## Pairs over runs -/

namespace Node

variable {s s' : Node cfg}

/-- No root or discovery takes the place of a DAG that has an extension. -/
def ExtensionFree (s : Node cfg) : Event cfg → Prop
  | .setRoot _ => ∀ d, s.rplGetDag rplDefaultInstance none = some d → (s.dagTable d).p2p = none
  | .discoverRoute _ _ => ∀ d, s.discoveryDrops = some d → (s.dagTable d).p2p = none
  | _ => True

lemma paired_initial (h : s.Initial) : s.slots.Paired := by
  refine ⟨fun e d howner => ?_, fun d e hused => ?_⟩
  · rw [h.owner] at howner
    cases howner
  · rw [h.slot] at hused
    cases hused

lemma paired_drop (hs : s.slots.Paired) {old : Option cfg.DagRef}
    (hold : ∀ d, old = some d → (s.dagTable d).p2p = none) : (s.slots.drop old).Paired := by
  cases old with
  | none => exact hs
  | some d =>
      refine hs.free d fun e howner => ?_
      have hp2p := (hs.back e d howner).2
      rw [slots_slot, Dag.slot_p2p, hold d rfl] at hp2p
      cases hp2p

lemma paired_step (hs : s.slots.Paired) {e : Event cfg} (hok : s.ExtensionFree e)
    (h : s.next e = .ok s') : s'.slots.Paired := by
  have hmove := next_slots h
  generalize s'.slots = σ at hmove
  cases hmove with
  | keep => exact hs
  | join _ houtcome =>
      cases houtcome with
      | full => exact hs
      | leaked d hunused => exact hs.modify d (hs.owner_ne hunused) rfl
      | left d of config hunused =>
          exact (hs.modify d (hs.owner_ne hunused) rfl).free d (hs.owner_ne hunused)
      | joined d of config hunused => exact hs.modify d (hs.owner_ne hunused) rfl
      | joinedP2p d ext of config hunused _ hfree =>
          refine hs.attach hunused (fun d' howner => ?_) rfl rfl
          by_cases hd : d' = d
          · rw [hd, hunused]
          · simpa [hd] using hfree d' howner
  | root houtcome =>
      have hdrop := paired_drop hs hok
      cases houtcome with
      | full => exact hdrop
      | root d of config hunused => exact hdrop.modify d (hdrop.owner_ne hunused) rfl
  | discover houtcome =>
      have hdrop := paired_drop hs hok
      cases houtcome with
      | full => exact hdrop
      | left d hunused =>
          exact (hdrop.modify d (hdrop.owner_ne hunused) rfl).free d (hdrop.owner_ne hunused)
      | started d ext of config ownAddr hunused hfree =>
          refine hdrop.attach hunused (fun d' howner => ?_) rfl rfl
          by_cases hd : d' = d
          · rw [hd, hunused]
          · simpa [hd] using hfree d' howner
  | purge hpurges => exact hs.purges hpurges

/-- **Extensions and DAGs are paired.**  In a run in which no root or discovery takes the place of
a DAG that has an extension, they are in one-to-one correspondence in every state and at every
iteration of a purge. -/
theorem extensions_paired (hs : s.ReachableBy ExtensionFree) (l : List cfg.P2pRef) :
    let s' := l.foldl (fun s e => s.purgeEntry e) s
    (∀ e d, (s'.dagP2pTable e).dag = some d → (s'.dagTable d).used = true →
        (s'.dagTable d).p2p = some e) ∧
      ∀ d e, (s'.dagTable d).used = true → (s'.dagTable d).p2p = some e →
        (s'.dagP2pTable e).dag = some d := by
  have hpaired := hs.invariant (I := fun s => s.slots.Paired) (fun _ h₀ => paired_initial h₀)
    fun s e s' hs hok h => paired_step hs hok h
  have hpurged := hpaired.purges (s.purgeEntries_purges l)
  exact ⟨fun e d howner _ => (hpurged.back e d howner).2, hpurged.forth⟩

/-- A discovery and its DAG point to each other. -/
theorem extensions_paired_discovery : ∃ s : Node .default, s.ReachableBy ExtensionFree ∧
    (s.dagP2pTable 0).dag = some 0 ∧ (s.dagTable 0).p2p = some 0 := by
  have hok : (boot 1).ExtensionFree (.discoverRoute none (nodeAddr 2)) := by
    have hnone : (boot 1).discoveryDrops = none := by decide +kernel
    intro d hd
    rw [hnone] at hd
    cases hd
  obtain ⟨s, hnext, hslot⟩ := exists_ok_of_map
    (x := (boot 1).next (.discoverRoute none (nodeAddr 2)))
    (f := fun s => ((s.dagP2pTable 0).dag, (s.dagTable 0).used)) (b := (some 0, true))
    (by decide +kernel)
  have hs := (Reaches.initial (boot_initial 1)).tail hok hnext
  simp only [Prod.mk.injEq] at hslot
  exact ⟨s, hs, hslot.1, (extensions_paired hs []).1 0 0 hslot.1 hslot.2⟩

/-- When the local instance numbers wrap around, the second discovery after the wrap is given a slot
that the extension of an old one still points to. -/
theorem not_extensions_paired : ¬∀ s : Node .default, s.Reachable →
    ∀ e d, (s.dagP2pTable e).dag = some d → (s.dagTable d).used = true →
      (s.dagTable d).p2p = some e := by
  intro hclaim
  obtain ⟨s, hs, hslot⟩ := exists_reachable 1
    (List.replicate 66 (.discoverRoute none (nodeAddr 2)))
    (fun s => ((s.dagP2pTable 0).dag, (s.dagTable 0).used, (s.dagTable 0).p2p))
    (a := (some 0, true, some 1)) (by decide +kernel)
  simp only [Prod.mk.injEq] at hslot
  obtain ⟨howner, hused, hp2p⟩ := hslot
  have hback := hclaim s hs 0 0 howner hused
  rw [hp2p] at hback
  exact absurd hback (by decide)

/-! ## The DAGs that have an extension -/

lemma extended_step (hs : ∀ d, (s.slots.slot d).Extended) {e : Event cfg} (h : s.next e = .ok s')
    (d : cfg.DagRef) : (s'.slots.slot d).Extended := by
  have horigin := slot_origin h d
  generalize s'.slots.slot d = slot at horigin
  cases horigin with
  | kept => exact hs d
  | freed hunused => exact fun hused => by rw [hunused] at hused; cases hused
  | leaked => exact fun _ => by simp [allocatedSlot, allocatedDag, Dag.zero]
  | joined of config _ hmop => exact fun _ => by simp [joinedSlot, hmop]
  | joinedP2p of config ext _ hmop => exact fun _ => by simp [joinedSlot, hmop]
  | root => exact fun _ => by simp [allocatedSlot, allocatedDag, Dag.zero, rplMopDefault,
      rplMopP2pRouteDiscovery]
  | started => exact fun _ => by simp

lemma reachable_extended {ok : Node cfg → Event cfg → Prop} (hs : s.ReachableBy ok) (d : cfg.DagRef) :
    (s.slots.slot d).Extended := by
  refine hs.invariant (I := fun s => ∀ d, (s.slots.slot d).Extended) (fun s₀ h₀ d hused => ?_)
    (fun s e s' hs _ h => extended_step hs h) d
  rw [h₀.slot] at hused
  cases hused

/-- The DAG that `rpl_get_dag` finds has an extension exactly if it is in P2P mode. -/
lemma extension_of_get (hs : s.Reachable) {instanceId : UInt8} {dodagId : Option IpAddr}
    {d : cfg.DagRef} (hget : s.rplGetDag instanceId dodagId = some d) :
    (s.dagTable d).p2p ≠ none ↔ (s.dagTable d).mop = rplMopP2pRouteDiscovery := by
  have hjoined := (rplGetDag_eq_some hget).1
  have hext := reachable_extended hs d (reachable_joined_used hs d hjoined)
  rw [hjoined] at hext
  simpa using hext

end Node
end Contiki

import Contiki.Rpl.ParentMoves

/-!
# Slots and parents over runs

What holds of the DAG table in every reachable state: parents are owned (`reachable_owned`), a
slot in use is joined unless a join leaked it (`used_joined`), and there is one global DAG unless a
foreign one was joined (`globalDag_unique`).  Both exceptions do happen.

For statements about single slots, `slot_origin` says where the content of a slot after an event
comes from.
-/

namespace Contiki
namespace Node

variable {cfg : Config} {s s' : Node cfg}

/-! ## Where the content of a slot comes from -/

/-- A DIO that makes `join_dag` give up after it took a slot. -/
def LeakingDio (s : Node cfg) (from_ : IpAddr) (dio : Dio) : Prop :=
  s.JoinTried from_ dio ∧ (∃ d, (s.dagTable d).used = false) ∧ s.JoinLeaks dio

instance (s : Node cfg) (from_ : IpAddr) (dio : Dio) : Decidable (s.JoinTried from_ dio) :=
  inferInstanceAs (Decidable (_ ∧ _ ∧ _))

instance (s : Node cfg) (from_ : IpAddr) (dio : Dio) : Decidable (s.LeakingDio from_ dio) :=
  inferInstanceAs (Decidable (_ ∧ _ ∧ _))

/-- The content of a slot after an event, given the content before it. -/
inductive SlotOrigin (s : Node cfg) (old : DagSlot cfg) : Event cfg → DagSlot cfg → Prop
  | kept (e : Event cfg) : SlotOrigin s old e old
  | freed {e : Event cfg} {slot : DagSlot cfg} : slot.used = false → slot.joined = false →
      SlotOrigin s old e slot
  | leaked {from_ : IpAddr} {dio : Dio} : s.LeakingDio from_ dio →
      SlotOrigin s old (.processDio from_ dio) (allocatedSlot cfg dio.instanceId)
  | joined {from_ : IpAddr} {dio : Dio} (of : ObjectiveFunction) (config : DodagConfig) :
      s.JoinTried from_ dio → dio.mop ≠ rplMopP2pRouteDiscovery →
      SlotOrigin s old (.processDio from_ dio) (joinedSlot dio of config none)
  | joinedP2p {from_ : IpAddr} {dio : Dio} (of : ObjectiveFunction) (config : DodagConfig)
      (e : cfg.P2pRef) : s.JoinTried from_ dio → dio.mop = rplMopP2pRouteDiscovery →
      SlotOrigin s old (.processDio from_ dio) (joinedSlot dio of config (some e))
  | root {dagId : IpAddr} (of : ObjectiveFunction) (config : DodagConfig) :
      SlotOrigin s old (.setRoot dagId)
        { (allocatedSlot cfg rplDefaultInstance) with
          joined := true, mop := rplMopDefault, dagId, of := some of, config }
  | started {process : Option ℕ} {target : IpAddr} (e : cfg.P2pRef) (of : ObjectiveFunction)
      (config : DodagConfig) (ownAddr : IpAddr) :
      SlotOrigin s old (.discoverRoute process target)
        { used := true, joined := true, instanceId := s.nextInstance, dagId := ownAddr
          mop := rplMopP2pRouteDiscovery, of := some of, config, p2p := some e }

lemma purges_slot {σ σ' : Slots cfg} (h : σ.Purges σ') (d : cfg.DagRef) :
    σ'.slot d = σ.slot d ∨ (σ'.slot d).used = false ∧ (σ'.slot d).joined = false := by
  induction h with
  | refl => exact .inl rfl
  | tail _ hpurge ih =>
      obtain ⟨e, d', -, -, rfl⟩ := hpurge
      by_cases hd : d = d'
      · subst hd
        exact .inr (by simp [Slots.purge])
      · simpa [Slots.purge, hd] using ih

lemma drop_slot (σ : Slots cfg) (old : Option cfg.DagRef) (d : cfg.DagRef) :
    (σ.drop old).slot d = σ.slot d ∨
      ((σ.drop old).slot d).used = false ∧ ((σ.drop old).slot d).joined = false := by
  cases old with
  | none => exact .inl rfl
  | some d' =>
      by_cases hd : d = d'
      · subst hd
        exact .inr (by simp [Slots.drop])
      · exact .inl (by simp [Slots.drop, hd])

/-- **The origin of a slot.** -/
lemma slot_origin {e : Event cfg} (h : s.next e = .ok s') (d : cfg.DagRef) :
    s.SlotOrigin (s.slots.slot d) e (s'.slots.slot d) := by
  have hdrop : ∀ old : Option cfg.DagRef,
      s.SlotOrigin (s.slots.slot d) e ((s.slots.drop old).slot d) := by
    intro old
    obtain heq | ⟨hused, hjoined⟩ := drop_slot s.slots old d
    · exact heq ▸ .kept e
    · exact .freed hused hjoined
  have hmove := next_slots h
  generalize s'.slots = σ at hmove
  cases hmove with
  | keep => exact .kept e
  | join htried houtcome =>
      cases houtcome with
      | full => exact .kept _
      | leaked d' hunused hleaks =>
          by_cases hd : d = d'
          · subst hd
            simpa using .leaked ⟨htried, ⟨d, hunused⟩, hleaks⟩
          · simpa [hd] using .kept _
      | left d' of config =>
          by_cases hd : d = d'
          · subst hd
            exact .freed (by simp) (by simp)
          · simpa [hd] using .kept _
      | joined d' of config hunused hmop =>
          by_cases hd : d = d'
          · subst hd
            simpa using .joined of config htried hmop
          · simpa [hd] using .kept _
      | joinedP2p d' ext of config hunused hmop =>
          by_cases hd : d = d'
          · subst hd
            simpa using .joinedP2p of config ext htried hmop
          · simpa [hd] using .kept _
  | root houtcome =>
      cases houtcome with
      | full => exact hdrop _
      | root d' of config =>
          by_cases hd : d = d'
          · subst hd
            simpa using .root of config
          · simpa [hd] using hdrop (s.rplGetDag rplDefaultInstance none)
  | discover houtcome =>
      cases houtcome with
      | full => exact hdrop _
      | left d' =>
          by_cases hd : d = d'
          · subst hd
            exact .freed (by simp) (by simp)
          · simpa [hd] using hdrop s.discoveryDrops
      | started d' ext of config ownAddr =>
          by_cases hd : d = d'
          · subst hd
            simpa using .started ext of config ownAddr
          · simpa [hd] using hdrop s.discoveryDrops
  | purge hpurges =>
      obtain heq | ⟨hused, hjoined⟩ := purges_slot hpurges d
      · exact heq ▸ .kept _
      · exact .freed hused hjoined

/-! ## Joined slots are in use -/

lemma joined_used_step {e : Event cfg}
    (hs : ∀ d, (s.dagTable d).joined = true → (s.dagTable d).used = true)
    (h : s.next e = .ok s') (d : cfg.DagRef) (hjoined : (s'.dagTable d).joined = true) :
    (s'.dagTable d).used = true := by
  have horigin := slot_origin h d
  change (s'.slots.slot d).used = true
  change (s'.slots.slot d).joined = true at hjoined
  generalize s'.slots.slot d = slot at horigin hjoined
  cases horigin with
  | kept => exact hs d hjoined
  | freed _ hunjoined => simp [hunjoined] at hjoined
  | leaked => cases hjoined
  | joined | joinedP2p | root | started => rfl

/-- In every reachable state, what is joined is in use. -/
lemma reachable_joined_used {ok : Node cfg → Event cfg → Prop} (hs : s.ReachableBy ok) :
    ∀ d, (s.dagTable d).joined = true → (s.dagTable d).used = true := by
  refine hs.invariant (fun s₀ h₀ d hjoined => ?_) fun s e s' hs _ h => joined_used_step hs h
  rw [h₀.dagTable] at hjoined
  cases hjoined

/-! ## Ownership of parents -/

lemma linkParent_same (s : Node cfg) (ipaddr : IpAddr) (known : Bool) (etx : UInt8)
    (d : cfg.DagRef) : Ensures (s.linkParent ipaddr known etx d) (SameFamilies s) := by
  unfold linkParent
  split
  · split_ifs
    · exact .ok (.refl s)
    · exact .ok ⟨fun _ => rfl, rfl, fun _ => rfl⟩
  · exact .bind (fun _ _ => trivial) fun _ _ => .ok (.modifyParent s _ (by intro; rfl))

lemma linkNeighborDag_same (s : Node cfg) (ipaddr : IpAddr) (known : Bool) (etx : UInt8)
    (d : cfg.DagRef) : Ensures (s.linkNeighborDag ipaddr known etx d) (SameFamilies s) := by
  unfold linkNeighborDag
  split_ifs
  · refine .bind (fun _ _ => trivial) fun ignores _ => ?_
    split_ifs
    · exact .ok (.refl s)
    · exact linkParent_same s ipaddr known etx d
  · exact .ok (.refl s)

/-- Neighbour callbacks change the metrics of parents only. -/
lemma rplLinkNeighborCallback_same (s : Node cfg) (addr : Lladdr) (known : Bool) (etx : UInt8) :
    Ensures (s.rplLinkNeighborCallback addr known etx) (SameFamilies s) :=
  linkNeighborFrom_induction
    (fun s' d hs' => .mono (linkNeighborDag_same s' _ known etx d) fun _ hs'' => hs'.trans hs'')
    _ (.refl s)

lemma rplIpv6NeighborCallback_same (s : Node cfg) (ipaddr : IpAddr) (isused : Bool) :
    SameFamilies s (s.rplIpv6NeighborCallback ipaddr isused) := by
  unfold rplIpv6NeighborCallback
  split
  · exact .refl s
  · rename_i d _
    have hforget := SameFamilies.of_quiet (forgetDefRoute_quiet s d ipaddr)
    simp only
    split_ifs
    · exact hforget
    · split
      · exact hforget
      · exact hforget.trans (.modifyParent _ _ (by intro; rfl))

lemma rplRepairDag_same (s : Node cfg) (d : cfg.DagRef) :
    SameFamilies s (s.rplRepairDag d) := by
  unfold rplRepairDag
  split_ifs
  · exact (SameFamilies.modifyDag s d (by intro; rfl)).trans
      (.of_quiet (rplResetDioTimer_quiet _ d true))
  · exact .refl s

lemma rplRecalculateRanks_owned (h : s.Owned) : Ensures s.rplRecalculateRanks Owned := by
  unfold rplRecalculateRanks
  split
  · exact .ok h
  · rename_i d _
    split
    · exact .ok h
    · rename_i p _
      have hmark : SameFamilies s (s.modifyParent p fun parent => { parent with updated := false }) :=
        .modifyParent s p (by intro; rfl)
      exact .bind (rplProcessParentEvent_shrinks (h.congr hmark) d p) fun r hr => .ok hr.1.owned

/-- **Every event keeps the ownership of parents.** -/
lemma owned_step {e : Event cfg} (hs : s.Owned)
    (hjoined : ∀ d, (s.dagTable d).joined = true → (s.dagTable d).used = true)
    (h : s.next e = .ok s') : s'.Owned := by
  by_cases hquiet : e.quiet = true
  · exact hs.congr (.of_quiet (quiet_step hquiet h))
  obtain ⟨packets, hstep⟩ := next_eq_ok.mp h
  cases e with
  | processDio from_ dio =>
      obtain ⟨s'', hdio, hs''⟩ := map_eq_ok.mp hstep
      cases hs''
      exact rplProcessDio_owned hs hjoined from_ dio s' hdio
  | setRoot dagId =>
      obtain ⟨s'', hroot, hs''⟩ := map_eq_ok.mp hstep
      cases hs''
      exact rplSetRoot_owned hs dagId s' hroot
  | discoverRoute process target =>
      obtain ⟨r, hdiscover, hs''⟩ := map_eq_ok.mp hstep
      cases hs''
      exact rplDiscoverRoute_owned hs process target r hdiscover
  | purgeDags =>
      cases hstep
      exact rplP2pPurgeDags_induction (P := Owned) (fun s e hs => purgeEntry_owned hs e) hs
  | repairDag d =>
      cases hstep
      split_ifs
      · exact hs.congr (rplRepairDag_same s d)
      · exact hs
  | localRepair d =>
      cases hstep
      split_ifs
      · exact (rplLocalRepair_shrinks hs d).1.owned
      · exact hs
  | recalculateRanks =>
      obtain ⟨s'', hranks, hs''⟩ := map_eq_ok.mp hstep
      cases hs''
      exact rplRecalculateRanks_owned hs s' hranks
  | linkNeighbor addr known etx =>
      obtain ⟨s'', hlink, hs''⟩ := map_eq_ok.mp hstep
      cases hs''
      exact hs.congr (rplLinkNeighborCallback_same s addr known etx s' hlink)
  | ipv6Neighbor ipaddr isused =>
      cases hstep
      exact hs.congr (rplIpv6NeighborCallback_same s ipaddr isused)
  | droInput | droAckInput | disInput | setPrefix | purgeRoutes | dioTimer | droTimer | droRexmit
  | nbrMetric | addr | routeAdd | defrtAdd | defrtRm | randomInit => exact absurd rfl hquiet

lemma reachable_owned {ok : Node cfg → Event cfg → Prop} (hs : s.ReachableBy ok) : s.Owned := by
  have hboth := hs.invariant
    (I := fun s => s.Owned ∧ ∀ d, (s.dagTable d).joined = true → (s.dagTable d).used = true)
    (fun s₀ h₀ => ⟨.initial h₀, fun d hjoined => by rw [h₀.dagTable] at hjoined; cases hjoined⟩)
    fun s e s' hs _ h => ⟨owned_step hs.1 hs.2 h, joined_used_step hs.2 h⟩
  exact hboth.1

/-- **The parents of all DAGs share out the pool.**  In every reachable state the allocated blocks
are the disjoint union of the parent lists, every parent knows its DAG, and a preferred parent is a
parent. -/
theorem parents_partition_pool (hs : s.Reachable) :
    Partitions (fun d => (s.dagTable d).parents) (fun p => s.parentMemb.count p ≠ 0) ∧
      (∀ d, ∀ p ∈ (s.dagTable d).parents, (s.parent p).dag = some d) ∧
      ∀ d p, (s.dagTable d).preferredParent = some p → p ∈ (s.dagTable d).parents := by
  have howned := reachable_owned hs
  exact ⟨howned.owned.parts, howned.dag, howned.preferred⟩

/-- A node with a DAG that was joined, and its parent. -/
theorem parents_partition_pool_joined : ∃ s : Node .default, s.Reachable ∧
    (s.dagTable 0).parents.length = 1 ∧
    Partitions (fun d => (s.dagTable d).parents) (fun p => s.parentMemb.count p ≠ 0) ∧
    (∀ d, ∀ p ∈ (s.dagTable d).parents, (s.parent p).dag = some d) ∧
    ∀ d p, (s.dagTable d).preferredParent = some p → p ∈ (s.dagTable d).parents := by
  obtain ⟨s, hs, hparents⟩ := exists_reachable 2
    [.processDio (nodeLinkLocal 1) (globalDio 1)]
    (fun s => (s.dagTable 0).parents.length) (a := 1) (by decide +kernel)
  exact ⟨s, hs, hparents, parents_partition_pool hs⟩

/-! ## Slots in use are joined -/

/-- No DIO makes `join_dag` give up after it took a slot. -/
def LeakFree (s : Node cfg) : Event cfg → Prop
  | .processDio from_ dio => ¬s.LeakingDio from_ dio
  | _ => True

instance (s : Node cfg) : ∀ e, Decidable (s.LeakFree e)
  | .processDio from_ dio => inferInstanceAs (Decidable ¬s.LeakingDio from_ dio)
  | .droInput _ _ | .droAckInput _ | .disInput _ _ | .setRoot _ | .setPrefix _ _ _ | .discoverRoute _ _
  | .repairDag _ | .localRepair _ | .purgeRoutes | .purgeDags | .recalculateRanks | .dioTimer _ | .droTimer _
  | .droRexmit _ | .linkNeighbor _ _ _ | .ipv6Neighbor _ _ | .nbrMetric _ _ | .addr _ _ | .routeAdd _ _ _ _
  | .defrtAdd _ _ | .defrtRm _ | .randomInit _ => inferInstanceAs (Decidable True)

lemma used_joined_step (hs : ∀ d, (s.dagTable d).used = true → (s.dagTable d).joined = true)
    {e : Event cfg} (hok : s.LeakFree e) (h : s.next e = .ok s') (d : cfg.DagRef)
    (hused : (s'.dagTable d).used = true) : (s'.dagTable d).joined = true := by
  have horigin := slot_origin h d
  change (s'.slots.slot d).joined = true
  change (s'.slots.slot d).used = true at hused
  generalize s'.slots.slot d = slot at horigin hused
  cases horigin with
  | kept => exact hs d hused
  | freed hunused _ => simp [hunused] at hused
  | leaked hleak => exact absurd hleak hok
  | joined | joinedP2p | root | started => rfl

/-- **No slot is lost.**  In a run without leaking DIOs every slot in use is joined, and every
parent that is allocated belongs to a joined DAG. -/
theorem used_joined (hs : s.ReachableBy LeakFree) :
    (∀ d, (s.dagTable d).used = true → (s.dagTable d).joined = true) ∧
      ∀ p, s.parentMemb.count p ≠ 0 →
        ∃ d, (s.dagTable d).joined = true ∧ p ∈ (s.dagTable d).parents := by
  have hused := hs.invariant
    (I := fun s => ∀ d, (s.dagTable d).used = true → (s.dagTable d).joined = true)
    (fun s₀ h₀ d hused => by rw [h₀.dagTable] at hused; cases hused)
    fun s e s' hs hok h => used_joined_step hs hok h
  refine ⟨hused, fun p hp => ?_⟩
  have howned := reachable_owned hs
  obtain ⟨d, hd⟩ := (howned.owned.parts.live_iff p).mp hp
  refine ⟨d, hused d ?_, hd⟩
  by_contra hunused
  rw [howned.unused d (by simpa using hunused)] at hd
  cases hd

/-- A DIO is joined, one in a mode of operation that the node does not have is refused, and the node
starts a discovery of its own. -/
theorem used_joined_root : ∃ s : Node .default, s.ReachableBy LeakFree ∧
    ((s.dagTable 0).used = true ∧ (s.dagTable 0).joined = true) ∧
    ((s.dagTable 1).used = true ∧ (s.dagTable 1).joined = true) ∧
    ∃ d, (s.dagTable d).joined = true ∧ 0 ∈ (s.dagTable d).parents := by
  obtain ⟨s, hs, hslots⟩ : ∃ s : Node .default, s.ReachableBy LeakFree ∧
      ((s.dagTable 0).used, (s.dagTable 1).used, s.parentMemb.count 0) = (true, true, 1) :=
    Reaches.exists_guarded (boot_initial 2)
      [.processDio (nodeLinkLocal 1) (globalDio 1),
        .processDio (nodeLinkLocal 3) { globalDio 3 with mop := 7 },
        .discoverRoute none (nodeAddr 5)] _ (by decide +kernel)
  simp only [Prod.mk.injEq] at hslots
  obtain ⟨hzero, hone, hcount⟩ := hslots
  have hall := used_joined hs
  exact ⟨s, hs, ⟨hzero, hall.1 0 hzero⟩, ⟨hone, hall.1 1 hone⟩, hall.2 0 (by rw [hcount]; decide)⟩

/-- A DIO that asks for an objective function the node does not have takes a slot for good. -/
theorem not_used_joined : ¬∀ s : Node .default, s.Reachable →
    ∀ d, (s.dagTable d).used = true → (s.dagTable d).joined = true := by
  intro hclaim
  obtain ⟨s, hs, hslot⟩ := exists_reachable 2
    [.processDio (nodeLinkLocal 1) { globalDio 1 with
      dodagConfig := some { defaultDodagConfig with ocp := 0 } }]
    (fun s => ((s.dagTable 0).used, (s.dagTable 0).joined)) (a := (true, false))
    (by decide +kernel)
  simp only [Prod.mk.injEq] at hslot
  have hjoined := hclaim s hs 0 hslot.1
  rw [hslot.2] at hjoined
  cases hjoined

/-! ## One global DAG -/

/-- At most one slot is joined with the default instance. -/
def OneGlobal (σ : Slots cfg) : Prop :=
  ∀ d d', (σ.slot d).joined = true → (σ.slot d).instanceId = rplDefaultInstance →
    (σ.slot d').joined = true → (σ.slot d').instanceId = rplDefaultInstance → d' = d

section OneGlobal
variable {σ : Slots cfg}

/-- Freeing slots does not create a global DAG. -/
lemma OneGlobal.free (h : OneGlobal σ) (d : cfg.DagRef) : OneGlobal (σ.free d) := by
  intro a b haj hai hbj hbi
  by_cases had : a = d
  · simp [had] at haj
  by_cases hbd : b = d
  · simp [hbd] at hbj
  simp only [Slots.free_slot, ne_eq, had, hbd, not_false_eq_true, Function.update_of_ne] at *
  exact h a b haj hai hbj hbi

lemma OneGlobal.drop (h : OneGlobal σ) (old : Option cfg.DagRef) : OneGlobal (σ.drop old) := by
  cases old with
  | none => exact h
  | some d => exact h.free d

lemma OneGlobal.purges {σ' : Slots cfg} (h : OneGlobal σ) (hpurges : σ.Purges σ') :
    OneGlobal σ' := by
  induction hpurges with
  | refl => exact h
  | tail _ hpurge ih =>
      obtain ⟨e, d, -, -, rfl⟩ := hpurge
      intro a b haj hai hbj hbi
      by_cases had : a = d
      · simp [had, Slots.purge] at haj
      by_cases hbd : b = d
      · simp [hbd, Slots.purge] at hbj
      simp only [Slots.purge, Slots.setOwner_slot, Slots.free_slot, Slots.modify_slot, ne_eq, had,
        hbd, not_false_eq_true, Function.update_of_ne] at *
      exact ih a b haj hai hbj hbi

/-- A slot gets new content: nothing happens to the other slots, and if the new one is a global
DAG there was none before. -/
lemma OneGlobal.modify (h : OneGlobal σ) (d : cfg.DagRef) (slot : DagSlot cfg)
    (hnew : slot.joined = true → slot.instanceId = rplDefaultInstance → ∀ d',
      (σ.slot d').joined = true → (σ.slot d').instanceId ≠ rplDefaultInstance) :
    OneGlobal (σ.modify d fun _ => slot) := by
  intro a b haj hai hbj hbi
  by_cases had : a = d <;> by_cases hbd : b = d
  · rw [had, hbd]
  · subst had
    simp only [Slots.modify_slot, Function.update_self, ne_eq, hbd, not_false_eq_true,
      Function.update_of_ne] at *
    exact absurd hbi (hnew haj hai b hbj)
  · subst hbd
    simp only [Slots.modify_slot, Function.update_self, ne_eq, had, not_false_eq_true,
      Function.update_of_ne] at *
    exact absurd hai (hnew hbj hbi a haj)
  · simp only [Slots.modify_slot, ne_eq, had, hbd, not_false_eq_true, Function.update_of_ne] at *
    exact h a b haj hai hbj hbi

end OneGlobal

/-- A DIO announces another DODAG inside an instance that the node has joined. -/
def ForeignDio (s : Node cfg) (dio : Dio) : Prop :=
  s.rplGetDag dio.instanceId none ≠ none ∧ s.rplGetDag dio.instanceId (some dio.dagId) = none

/-- No foreign DIO gets as far as `join_dag` while there is a free slot. -/
def ForeignFree (s : Node cfg) : Event cfg → Prop
  | .processDio from_ dio =>
    ¬(s.ForeignDio dio ∧ s.JoinTried from_ dio ∧ ∃ d, (s.dagTable d).used = false)
  | _ => True

instance (s : Node cfg) (dio : Dio) : Decidable (s.ForeignDio dio) := inferInstanceAs (Decidable (_ ∧ _))

instance (s : Node cfg) : ∀ e, Decidable (s.ForeignFree e)
  | .processDio from_ dio =>
    inferInstanceAs (Decidable ¬(s.ForeignDio dio ∧ s.JoinTried from_ dio ∧ ∃ d, (s.dagTable d).used = false))
  | .droInput _ _ | .droAckInput _ | .disInput _ _ | .setRoot _ | .setPrefix _ _ _ | .discoverRoute _ _
  | .repairDag _ | .localRepair _ | .purgeRoutes | .purgeDags | .recalculateRanks | .dioTimer _ | .droTimer _
  | .droRexmit _ | .linkNeighbor _ _ _ | .ipv6Neighbor _ _ | .nbrMetric _ _ | .addr _ _ | .routeAdd _ _ _ _
  | .defrtAdd _ _ | .defrtRm _ | .randomInit _ => inferInstanceAs (Decidable True)

/-- Local instances are not the default one. -/
lemma nextInstance_ne (s : Node cfg) : s.nextInstance ≠ rplDefaultInstance := by
  rw [Ne, nextInstance, rplDefaultInstance, UInt8.or_eq_zero_iff]
  rintro ⟨hlocal, -⟩
  cases hlocal

/-- Without a global DAG in the way, a DIO may be joined. -/
lemma noGlobal_of_join {from_ : IpAddr} {dio : Dio} (hok : s.ForeignFree (.processDio from_ dio))
    (htried : s.JoinTried from_ dio) {d : cfg.DagRef} (hunused : (s.slots.slot d).used = false)
    (hinst : dio.instanceId = rplDefaultInstance) (d' : cfg.DagRef)
    (hjoined : (s.slots.slot d').joined = true) :
    (s.slots.slot d').instanceId ≠ rplDefaultInstance := by
  intro hd'
  refine hok ⟨⟨fun hnone => ?_, htried.2.1⟩, htried, d, hunused⟩
  obtain ⟨id, hid, -⟩ := rplGetDag_eq_none hnone d' hjoined (hd'.trans hinst.symm)
  cases hid

lemma oneGlobal_step (hs : OneGlobal s.slots) {e : Event cfg} (hok : s.ForeignFree e)
    (h : s.next e = .ok s') : OneGlobal s'.slots := by
  have hmove := next_slots h
  generalize s'.slots = σ at hmove
  cases hmove with
  | keep => exact hs
  | join htried houtcome =>
      have hfirst : ∀ {d : cfg.DagRef} {of : ObjectiveFunction} {config : DodagConfig}
          (p2p : Option cfg.P2pRef), (s.slots.slot d).used = false →
          OneGlobal (s.slots.modify d fun _ => joinedSlot _ of config p2p) :=
        fun _ hunused => hs.modify _ _ fun _ hinst => noGlobal_of_join hok htried hunused hinst
      cases houtcome with
      | full => exact hs
      | leaked d hunused => exact hs.modify d _ fun hjoined => by cases hjoined
      | left d of config hunused => exact (hfirst none hunused).free d
      | joined d of config hunused => exact hfirst none hunused
      | joinedP2p d ext of config hunused => exact hfirst (some ext) hunused
  | root houtcome =>
      cases houtcome with
      | full => exact hs.drop _
      | root d of config hunused =>
          refine (hs.drop _).modify d _ fun _ _ d' hjoined hinst => ?_
          -- the global DAG that there was has just been dropped
          cases hget : s.rplGetDag rplDefaultInstance none with
          | none =>
              rw [hget] at hjoined hinst
              obtain ⟨id, hid, -⟩ := rplGetDag_eq_none hget d' hjoined hinst
              cases hid
          | some old =>
              rw [hget] at hjoined hinst
              obtain ⟨hold, hinstOld, -⟩ := rplGetDag_eq_some hget
              by_cases hd' : d' = old
              · simp [hd', Slots.drop] at hjoined
              · simp only [Slots.drop, Slots.free_slot, ne_eq, hd', not_false_eq_true,
                  Function.update_of_ne] at hjoined hinst
                exact hd' (hs old d' hold hinstOld hjoined hinst)
  | discover houtcome =>
      cases houtcome with
      | full => exact hs.drop _
      | left d =>
          exact ((hs.drop _).modify d _ fun hjoined => by cases hjoined).free d
      | started d ext of config ownAddr =>
          exact (hs.drop s.discoveryDrops).modify d _ fun _ hinst => absurd hinst s.nextInstance_ne
  | purge hpurges => exact hs.purges hpurges

/-- **There is one global DAG.**  In a run in which no foreign DIO can be joined, at most one slot
is joined with the default instance, `rpl_get_dag (RPL_ANY_INSTANCE, NULL)` finds it, and a foreign
DIO changes nothing. -/
theorem globalDag_unique (hs : s.ReachableBy ForeignFree) :
    (∀ d d', (s.dagTable d).joined = true → (s.dagTable d).instanceId = rplDefaultInstance →
        (s.dagTable d').joined = true → (s.dagTable d').instanceId = rplDefaultInstance → d' = d) ∧
      (∀ d, (s.dagTable d).joined = true → (s.dagTable d).instanceId = rplDefaultInstance →
        s.rplGetDag rplDefaultInstance none = some d) ∧
      ∀ from_ dio, s.ForeignDio dio → s.ForeignFree (.processDio from_ dio) →
        s.rplProcessDio from_ dio = .ok s := by
  have hone : OneGlobal s.slots := hs.invariant (I := fun s => OneGlobal s.slots)
    (fun s₀ h₀ d d' hjoined => by rw [h₀.slot] at hjoined; cases hjoined)
    fun s e s' hs hok h => oneGlobal_step hs hok h
  refine ⟨hone, fun d hjoined hinst => ?_, fun from_ dio hforeign hok => ?_⟩
  · cases hget : s.rplGetDag rplDefaultInstance none with
    | none =>
        obtain ⟨id, hid, -⟩ := rplGetDag_eq_none hget d hjoined hinst
        cases hid
    | some d' =>
        obtain ⟨hjoined', hinst', -⟩ := rplGetDag_eq_some hget
        rw [hone d d' hjoined hinst hjoined' hinst']
  · unfold rplProcessDio
    split
    · rename_i haccepted
      rw [hforeign.2]
      simp only
      split_ifs with hrank
      · have hfull : ∀ d, (s.slots.slot d).used = true := by
          intro d
          by_contra hunused
          exact hok ⟨hforeign, ⟨haccepted, hforeign.2, hrank⟩, d, by simpa using hunused⟩
        rw [joinDag, rplAllocDag_eq_none.mpr hfull]
      · rfl
    · rfl

/-- A DIO of the global DAG is joined, another parent of it is heard, and a DIO of the DAG of another
root, of infinite rank, is ignored, now and when it comes again. -/
theorem globalDag_unique_root : ∃ s : Node .default, s.ReachableBy ForeignFree ∧
    s.rplGetDag rplDefaultInstance none = some 0 ∧
    (∀ d, (s.dagTable d).joined = true → (s.dagTable d).instanceId = rplDefaultInstance → d = 0) ∧
    s.rplProcessDio (nodeLinkLocal 3) { globalDio 3 with rank := infiniteRank } = .ok s := by
  obtain ⟨s, hs, hslot⟩ : ∃ s : Node .default, s.ReachableBy ForeignFree ∧
      ((s.dagTable 0).joined, (s.dagTable 0).instanceId,
        decide (s.ForeignDio { globalDio 3 with rank := infiniteRank })) =
          (true, rplDefaultInstance, true) :=
    Reaches.exists_guarded (boot_initial 2)
      [.processDio (nodeLinkLocal 1) (globalDio 1),
        .processDio (nodeLinkLocal 4) { globalDio 1 with rank := 512 },
        .processDio (nodeLinkLocal 3) { globalDio 3 with rank := infiniteRank }] _ (by decide +kernel)
  simp only [Prod.mk.injEq, decide_eq_true_eq] at hslot
  obtain ⟨hjoined, hinst, hforeign⟩ := hslot
  obtain ⟨hone, hget, hignored⟩ := globalDag_unique hs
  exact ⟨s, hs, hget 0 hjoined hinst, fun d hjoined' hinst' => hone 0 d hjoined hinst hjoined' hinst',
    hignored _ _ hforeign fun htried => htried.2.1.2.2 rfl⟩

/-- The DIO of another root is joined in addition to the own DAG. -/
theorem not_globalDag_unique : ¬∀ s : Node .default, s.Reachable →
    ∀ d d', (s.dagTable d).joined = true → (s.dagTable d).instanceId = rplDefaultInstance →
      (s.dagTable d').joined = true → (s.dagTable d').instanceId = rplDefaultInstance → d' = d := by
  intro hclaim
  obtain ⟨s, hs, hslots⟩ := exists_reachable 2
    [.setRoot (nodeAddr 2), .processDio (nodeLinkLocal 1) (globalDio 1)]
    (fun s => ((s.dagTable 0).joined, (s.dagTable 0).instanceId,
      (s.dagTable 1).joined, (s.dagTable 1).instanceId))
    (a := (true, rplDefaultInstance, true, rplDefaultInstance)) (by decide +kernel)
  simp only [Prod.mk.injEq] at hslots
  obtain ⟨hjoined, hinst, hjoined', hinst'⟩ := hslots
  exact absurd (hclaim s hs 0 1 hjoined hinst hjoined' hinst') (by decide)

end Node
end Contiki

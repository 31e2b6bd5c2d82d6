import Contiki.Rpl.Quiet

/-!
# The moves on the slots

What the events of a node do to its slots.  `Slots` with the moves `JoinOutcome`, `RootOutcome`,
`DiscoverOutcome` and `Slots.Purges` is an abstract machine for `dag_table` and `dag_p2p_table`,
and `next_slots` says that every event of a node is one of its moves (`SlotMove`): a statement
about the slots over whole runs has to look only at these.
-/

namespace Contiki

variable {cfg : Config}

/-! ## Roots, discoveries and the purge on slots -/

namespace Slots
variable (σ : Slots cfg)

/-- The slots after the DAG in whose place another one comes was dropped. -/
def drop (old : Option cfg.DagRef) : Slots cfg :=
  match old with
  | none => σ
  | some d => σ.free d

/-- What creating a root does once the old global DAG was dropped. -/
inductive RootOutcome (dagId : IpAddr) : Slots cfg → Prop
  | full : RootOutcome dagId σ
  | root (d : cfg.DagRef) (of : ObjectiveFunction) (config : DodagConfig) :
      (σ.slot d).used = false →
      RootOutcome dagId (σ.modify d fun _ =>
        { (allocatedSlot cfg rplDefaultInstance) with
          joined := true, mop := rplMopDefault, dagId, of := some of, config })

/-- What starting a discovery does once an old DAG of the same instance was dropped. -/
inductive DiscoverOutcome (instanceId : UInt8) : Slots cfg → Prop
  | full : DiscoverOutcome instanceId σ
  /-- there is no extension, and the slot is given back -/
  | left (d : cfg.DagRef) : (σ.slot d).used = false →
      DiscoverOutcome instanceId ((σ.modify d fun _ => allocatedSlot cfg instanceId).free d)
  | started (d : cfg.DagRef) (e : cfg.P2pRef) (of : ObjectiveFunction) (config : DodagConfig)
      (ownAddr : IpAddr) : (σ.slot d).used = false →
      (σ.modify d fun _ => allocatedSlot cfg instanceId).EntryFree e →
      DiscoverOutcome instanceId ((σ.modify d fun _ =>
        { used := true, joined := true, instanceId, dagId := ownAddr
          mop := rplMopP2pRouteDiscovery, of := some of, config, p2p := some e }).setOwner e
        (some d))

/-- The DAG of an extension is freed, and the extension with it. -/
def purge (e : cfg.P2pRef) (d : cfg.DagRef) : Slots cfg :=
  ((σ.modify d fun slot => { slot with p2p := none }).free d).setOwner e none

/-- One DAG is purged. -/
def PurgesOne (σ σ' : Slots cfg) : Prop :=
  ∃ e d, σ.owner e = some d ∧ (σ.slot d).used = true ∧ σ' = σ.purge e d

/-- Any number of DAGs is purged. -/
abbrev Purges : Slots cfg → Slots cfg → Prop := Relation.ReflTransGen PurgesOne

end Slots

namespace Node
variable (s : Node cfg)

lemma dropDag_slots_eq (old : Option cfg.DagRef) : (s.dropDag old).slots = s.slots.drop old :=
  s.dropDag_slots old

lemma rplSetRoot_outcome (dagId : IpAddr) :
    Ensures (s.rplSetRoot dagId) fun s' =>
      (s.slots.drop (s.rplGetDag rplDefaultInstance none)).RootOutcome dagId s'.slots := by
  refine .mono (s.rplSetRoot_slots dagId) fun s' hs' => ?_
  rw [dropDag_slots_eq] at hs'
  obtain hs' | ⟨d, of, hunused, hs'⟩ := hs'
  · exact hs' ▸ .full
  · exact hs' ▸ .root d of defaultDodagConfig hunused

lemma initDiscovery_slots (d : cfg.DagRef) (ownAddr : IpAddr) :
    ∃ of config, (s.initDiscovery d ownAddr).slots = (s.slots.modify d fun slot =>
      { slot with
        used := true, joined := true, mop := rplMopP2pRouteDiscovery, dagId := ownAddr
        of := of, config := config }) ∧
          (of = (s.slots.slot d).of ∨ config = p2pDefaultDodagConfig) := by
  unfold initDiscovery
  set s₁ := s.modifyDag d fun dag => { dag with
    used := true
    joined := true
    version := 0
    preferredParent := none
    grounded := 0
    mop := rplMopP2pRouteDiscovery
    dtsnOut := 0
    preference := 0
    dagId := ownAddr } with hs₁
  have hslots₁ : s₁.slots = s.slots.modify d fun slot =>
      { slot with used := true, joined := true, mop := rplMopP2pRouteDiscovery, dagId := ownAddr } :=
    s.slots_modifyDag d fun _ => rfl
  obtain ⟨of, config, hconfig, hcases⟩ := s₁.defaultConfig_slots d p2pDefaultDodagConfig
  refine ⟨of, config, ?_, ?_⟩
  · simp only
    rw [(Frame.modifyDag _ d (by intro; rfl)).slots, hconfig, hslots₁, Slots.modify_modify]
  · rw [hslots₁, Slots.modify_slot, Function.update_self] at hcases
    exact hcases

/-- A discovery joins its DAG with the default configuration, or leaves no DAG behind. -/
lemma startDiscovery_slots (instanceId : UInt8) (process : Option ℕ) (target : IpAddr) :
    Ensures (s.startDiscovery instanceId process target) fun r =>
      r.2.slots = s.slots ∨
        (∃ d, (s.slots.slot d).used = false ∧
          r.2.slots = (s.slots.modify d fun _ => allocatedSlot cfg instanceId).free d) ∨
        ∃ d e of ownAddr, (s.slots.slot d).used = false ∧
          (s.slots.modify d fun _ => allocatedSlot cfg instanceId).EntryFree e ∧
          r.2.slots = (s.slots.modify d fun _ =>
            { used := true, joined := true, instanceId, dagId := ownAddr
              mop := rplMopP2pRouteDiscovery, of := some of, config := p2pDefaultDodagConfig
              p2p := some e }).setOwner e (some d) := by
  unfold startDiscovery
  split
  · exact .ok (.inl rfl)
  · rename_i d s₂ halloc
    obtain ⟨hunused, hs₂⟩ := rplAllocDag_slots halloc
    split
    · refine .ok (.inr (.inl ⟨d, hunused, ?_⟩))
      rw [rplFreeDag_slots, hs₂]
    · rename_i e s₃ hext
      obtain ⟨hfree, hs₃⟩ := rplP2pAllocDag_slots hext
      rw [hs₂] at hfree hs₃
      have hs₄ : (s₃.modifyDag d fun dag => { dag with p2p := some e }).slots =
          s₃.slots.modify d fun slot => { slot with p2p := some e } := slots_modifyDag _ d fun _ => rfl
      refine .bind (fun _ _ => trivial) fun ownAddr _ => ?_
      obtain ⟨of?, config, hinit, hcases⟩ := (s₃.modifyDag d fun dag =>
        { dag with p2p := some e }).initDiscovery_slots d ownAddr
      refine .bind (fun of hof => deref_eq_ok.mp hof) fun of hof =>
        .ok (.inr (.inr ⟨d, e, of, ownAddr, hunused, hfree, ?_⟩))
      have hof? : of? = some of := by
        have := congrArg (fun σ => (Slots.slot σ d).of) hinit
        simp only [slots_slot, Slots.modify_slot, Function.update_self, Dag.slot_of] at this
        rw [← this, hof]
      subst hof?
      have hfresh : ((s₃.modifyDag d fun dag => { dag with p2p := some e }).slots.slot d).of = none := by
        rw [hs₄, hs₃]
        simp [allocatedSlot, allocatedDag, Dag.zero]
      rw [hfresh] at hcases
      obtain rfl := hcases.resolve_left (Option.some_ne_none of)
      dsimp only
      rw [(rplResetDioTimer_frame _ d true).slots, initDiscoveryP2p,
        slots_modifyP2p _ fun p2p => ?_, (updateMetricContainer_frame _ of d).slots, hinit, hs₄, hs₃,
        Slots.modify_modify]
      swap
      · rfl
      refine Slots.ext (funext fun d' => ?_) rfl
      by_cases hd : d' = d
      · subst hd; simp [allocatedSlot, allocatedDag, Dag.zero]
      · simp [hd]

lemma startDiscovery_outcome (instanceId : UInt8) (process : Option ℕ) (target : IpAddr) :
    Ensures (s.startDiscovery instanceId process target) fun r =>
      s.slots.DiscoverOutcome instanceId r.2.slots := by
  refine .mono (s.startDiscovery_slots instanceId process target) fun r hr => ?_
  obtain hr | ⟨d, hunused, hr⟩ | ⟨d, e, of, ownAddr, hunused, hfree, hr⟩ := hr
  · exact hr ▸ .full
  · exact hr ▸ .left d hunused
  · exact hr ▸ .started d e of p2pDefaultDodagConfig ownAddr hunused hfree

lemma rplDiscoverRoute_outcome (process : Option ℕ) (target : IpAddr) :
    Ensures (s.rplDiscoverRoute process target) fun r =>
      (s.slots.drop s.discoveryDrops).DiscoverOutcome s.nextInstance r.2.slots := by
  have hdrop : ({ s with instanceCounter := (s.instanceCounter + 1) % 0x40 }.dropDag
      s.discoveryDrops).slots = s.slots.drop s.discoveryDrops := dropDag_slots_eq _ _
  rw [← hdrop]
  exact startDiscovery_outcome _ s.nextInstance process target

/-- **The purge rule.**  What every iteration of the loop preserves, the loop preserves. -/
lemma purgeEntries_induction {P : Node cfg → Prop}
    (hentry : ∀ s e, P s → P (s.purgeEntry e)) (l : List cfg.P2pRef) {s : Node cfg} (hs : P s) :
    P (l.foldl (fun s e => s.purgeEntry e) s) := by
  induction l generalizing s with
  | nil => exact hs
  | cons e rest ih => exact ih (hentry s e hs)

lemma rplP2pPurgeDags_induction {P : Node cfg → Prop}
    (hentry : ∀ s e, P s → P (s.purgeEntry e)) {s : Node cfg} (hs : P s) :
    P s.rplP2pPurgeDags :=
  purgeEntries_induction hentry _ hs

lemma purgeEntries_purges (l : List cfg.P2pRef) :
    s.slots.Purges (l.foldl (fun s e => s.purgeEntry e) s).slots := by
  refine purgeEntries_induction (P := fun s' => s.slots.Purges s'.slots) ?_ l .refl
  intro s' e hs'
  obtain heq | ⟨d, howner, hused, heq⟩ := s'.purgeEntry_slots e
  · rwa [heq]
  · exact hs'.tail ⟨e, d, howner, hused, heq⟩

/-! ## Repairs and neighbours -/

lemma linkParent_frame (ipaddr : IpAddr) (known : Bool) (etx : UInt8) (d : cfg.DagRef) :
    Ensures (s.linkParent ipaddr known etx d) (Frame d s) := by
  unfold linkParent
  split
  · split_ifs
    · exact .ok (.refl d s)
    · exact .ok (.routes d s _ _)
  · exact .bind (fun _ _ => trivial) fun _ _ => .ok (.modifyParent d s _ _)

lemma linkNeighborDag_frame (ipaddr : IpAddr) (known : Bool) (etx : UInt8) (d : cfg.DagRef) :
    Ensures (s.linkNeighborDag ipaddr known etx d) (Frame d s) := by
  unfold linkNeighborDag
  split_ifs
  · refine .bind (fun _ _ => trivial) fun ignores _ => ?_
    split_ifs
    · exact .ok (.refl d s)
    · exact s.linkParent_frame ipaddr known etx d
  · exact .ok (.refl d s)

/-- **The neighbour rule.**  What the iteration for one DAG preserves, the callback
preserves. -/
lemma linkNeighborFrom_induction {P : Node cfg → Prop} {ipaddr : IpAddr} {known : Bool}
    {etx : UInt8} (hdag : ∀ s d, P s → Ensures (s.linkNeighborDag ipaddr known etx d) P)
    (l : List cfg.DagRef) {s : Node cfg} (hs : P s) :
    Ensures (linkNeighborFrom ipaddr known etx l s) P := by
  induction l generalizing s with
  | nil => exact .ok hs
  | cons d rest ih =>
      unfold linkNeighborFrom
      exact .bind (hdag s d hs) fun s' hs' => ih hs'

lemma rplLinkNeighborCallback_slots (addr : Lladdr) (known : Bool) (etx : UInt8) :
    Ensures (s.rplLinkNeighborCallback addr known etx) fun s' => s'.slots = s.slots := by
  refine linkNeighborFrom_induction (P := fun s' => s'.slots = s.slots) ?_ _ rfl
  intro s' d hs'
  exact .mono (s'.linkNeighborDag_frame _ known etx d) fun s'' hs'' => hs''.slots.trans hs'

lemma forgetDefRoute_frame (d : cfg.DagRef) (ipaddr : IpAddr) :
    Frame d s (s.forgetDefRoute d ipaddr) := by
  unfold forgetDefRoute
  split
  · exact .refl d s
  · split_ifs
    · exact .modifyDag s d (by intro; rfl)
    · exact .refl d s

lemma rplIpv6NeighborCallback_slots (ipaddr : IpAddr) (isused : Bool) :
    (s.rplIpv6NeighborCallback ipaddr isused).slots = s.slots := by
  unfold rplIpv6NeighborCallback
  split
  · rfl
  · rename_i d _
    have hforget := (s.forgetDefRoute_frame d ipaddr).slots
    simp only
    split_ifs
    · exact hforget
    · split
      · exact hforget
      · rw [(Frame.modifyParent d _ _ _).slots, hforget]

lemma rplRecalculateRanks_slots :
    Ensures s.rplRecalculateRanks fun s' => s'.slots = s.slots := by
  unfold rplRecalculateRanks
  split
  · exact .ok rfl
  · rename_i d _
    split
    · exact .ok rfl
    · rename_i p _
      refine .bind (rplProcessParentEvent_frame _ d p) fun r hr => .ok ?_
      rw [hr.slots, (Frame.modifyParent d s p _).slots]

/-! ## All events -/

/-- The moves on the slots, and the events that make them. -/
inductive SlotMove : Event cfg → Slots cfg → Prop
  | keep (e : Event cfg) : SlotMove e s.slots
  | join {from_ : IpAddr} {dio : Dio} {σ : Slots cfg} :
      s.JoinTried from_ dio → s.JoinOutcome dio σ → SlotMove (.processDio from_ dio) σ
  | root {dagId : IpAddr} {σ : Slots cfg} :
      (s.slots.drop (s.rplGetDag rplDefaultInstance none)).RootOutcome dagId σ →
      SlotMove (.setRoot dagId) σ
  | discover {process : Option ℕ} {target : IpAddr} {σ : Slots cfg} :
      (s.slots.drop s.discoveryDrops).DiscoverOutcome s.nextInstance σ →
      SlotMove (.discoverRoute process target) σ
  | purge {σ : Slots cfg} : s.slots.Purges σ → SlotMove .purgeDags σ

variable {s}

/-- **Refinement.**  Every event is a move of the abstract machine on slots. -/
theorem next_slots {s' : Node cfg} {e : Event cfg} (h : s.next e = .ok s') :
    s.SlotMove e s'.slots := by
  by_cases hquiet : e.quiet = true
  · rw [(quiet_step hquiet h).slots]
    exact .keep e
  obtain ⟨packets, hstep⟩ := next_eq_ok.mp h
  have hkeep : s'.slots = s.slots → s.SlotMove e s'.slots := fun heq => heq ▸ .keep e
  cases e with
  | processDio from_ dio =>
      obtain ⟨s'', hdio, hs''⟩ := map_eq_ok.mp hstep
      cases hs''
      obtain heq | ⟨htried, houtcome⟩ := s.rplProcessDio_slots from_ dio s' hdio
      · exact hkeep heq
      · exact .join htried houtcome
  | setRoot dagId =>
      obtain ⟨s'', hroot, hs''⟩ := map_eq_ok.mp hstep
      cases hs''
      exact .root (s.rplSetRoot_outcome dagId s' hroot)
  | discoverRoute process target =>
      obtain ⟨r, hdiscover, hs''⟩ := map_eq_ok.mp hstep
      cases hs''
      exact .discover (s.rplDiscoverRoute_outcome process target r hdiscover)
  | purgeDags =>
      cases hstep
      exact .purge (s.purgeEntries_purges _)
  | repairDag d =>
      cases hstep
      refine hkeep ?_
      split_ifs
      · exact (rplRepairDag_frame s d).slots
      · rfl
  | localRepair d =>
      cases hstep
      refine hkeep ?_
      split_ifs
      · exact (rplLocalRepair_frame s d).slots
      · rfl
  | recalculateRanks =>
      obtain ⟨s'', hranks, hs''⟩ := map_eq_ok.mp hstep
      cases hs''
      exact hkeep (s.rplRecalculateRanks_slots s' hranks)
  | linkNeighbor addr known etx =>
      obtain ⟨s'', hlink, hs''⟩ := map_eq_ok.mp hstep
      cases hs''
      exact hkeep (s.rplLinkNeighborCallback_slots addr known etx s' hlink)
  | ipv6Neighbor ipaddr isused =>
      cases hstep
      exact hkeep (s.rplIpv6NeighborCallback_slots ipaddr isused)
  | droInput | droAckInput | disInput | setPrefix | purgeRoutes | dioTimer | droTimer | droRexmit
  | nbrMetric | addr | routeAdd | defrtAdd | defrtRm | randomInit => exact absurd rfl hquiet

/-- The slots at start-up. -/
lemma Initial.slot (h : s.Initial) (d : cfg.DagRef) : s.slots.slot d = (Dag.zero : Dag cfg).slot := by
  rw [slots_slot, h.dagTable]

lemma Initial.owner (h : s.Initial) (e : cfg.P2pRef) : s.slots.owner e = none := by
  rw [slots_owner, h.dagP2pTable]
  rfl

end Node
end Contiki

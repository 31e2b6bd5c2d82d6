import Contiki.Rpl.Frames

/-!
# Slots: the allocation of DAGs and P2P extensions

`Slots` is the abstract state of `dag_table` and `dag_p2p_table` as far as allocation goes: the
slot of every DAG, and the DAG that every P2P extension says it belongs to.  On it allocating,
freeing and joining are one-line updates.

The lemmas of this module say what each function of the source does to `Node.slots`, down to
one inversion lemma for each entry point that allocates or frees: `rplProcessDio_slots`,
`rplSetRoot_slots` and `purgeEntry_slots`, with `startDiscovery_slots` in the next module.
Statements about slots over whole runs are proved from these alone.
-/

namespace Contiki

variable {cfg : Config}

/-- The allocation state of the DAG table and the P2P table. -/
@[ext]
structure Slots (cfg : Config) where
  slot : cfg.DagRef → DagSlot cfg
  owner : cfg.P2pRef → Option cfg.DagRef

namespace Slots
variable (σ : Slots cfg)

/-- Change one slot. -/
@[simps]
def modify (d : cfg.DagRef) (f : DagSlot cfg → DagSlot cfg) : Slots cfg :=
  { σ with slot := Function.update σ.slot d (f (σ.slot d)) }

/-- Change the owner of an extension. -/
@[simps]
def setOwner (e : cfg.P2pRef) (o : Option cfg.DagRef) : Slots cfg :=
  { σ with owner := Function.update σ.owner e o }

/-- A freed slot keeps everything else. -/
@[simps!]
def free (d : cfg.DagRef) : Slots cfg :=
  σ.modify d fun slot => { slot with used := false, joined := false }

variable {σ}

lemma modify_modify (d : cfg.DagRef) (f g : DagSlot cfg → DagSlot cfg) :
    (σ.modify d f).modify d g = σ.modify d fun slot => g (f slot) := by
  simp [modify]

lemma modify_eq_self {d : cfg.DagRef} {f : DagSlot cfg → DagSlot cfg}
    (h : f (σ.slot d) = σ.slot d) : σ.modify d f = σ := by
  simp [modify, h]

variable (σ)

/-- An extension that may be handed out. -/
def EntryFree (e : cfg.P2pRef) : Prop :=
  ∀ d, σ.owner e = some d → (σ.slot d).used = false

end Slots

/-- The slot of a DAG that was just allocated. -/
def allocatedSlot (cfg : Config) (instanceId : UInt8) : DagSlot cfg :=
  (Node.allocatedDag cfg instanceId).slot

namespace Node
variable (s : Node cfg)

/-- The allocation state of a node. -/
@[simps]
def slots : Slots cfg where
  slot d := (s.dagTable d).slot
  owner e := (s.dagP2pTable e).dag

lemma Frame.slots {s s' : Node cfg} {d : cfg.DagRef} (h : Frame d s s') : s'.slots = s.slots :=
  Slots.ext (funext h.slot_eq) (by simp [Node.slots, h.dagP2pTable])

lemma slots_modifyDag (d : cfg.DagRef) {f : Dag cfg → Dag cfg} {g : DagSlot cfg → DagSlot cfg}
    (h : ∀ dag, (f dag).slot = g dag.slot) :
    (s.modifyDag d f).slots = s.slots.modify d g := by
  refine Slots.ext (funext fun d' => ?_) rfl
  by_cases hd : d' = d
  · subst hd; simp [h]
  · simp [hd]

lemma slots_modifyP2p {e : cfg.P2pRef} {f : DagP2p cfg → DagP2p cfg}
    (h : ∀ p2p, (f p2p).dag = p2p.dag) : (s.modifyP2p e f).slots = s.slots := by
  refine Slots.ext rfl (funext fun e' => ?_)
  by_cases he : e' = e
  · subst he; simp [h]
  · simp [he]

/-! ## DAGs -/

lemma rplAllocDag_slots {s s' : Node cfg} {instanceId : UInt8} {d : cfg.DagRef}
    (h : s.rplAllocDag instanceId = some (d, s')) :
    (s.slots.slot d).used = false ∧
      s'.slots = s.slots.modify d fun _ => allocatedSlot cfg instanceId := by
  unfold rplAllocDag at h
  split at h
  · cases h
  · rename_i d' hfind
    obtain ⟨rfl, rfl⟩ : d' = d ∧ _ = s' := by simpa using h
    refine ⟨by simpa [Dag.slot] using List.find?_some hfind, ?_⟩
    refine Slots.ext (funext fun d'' => ?_) rfl
    by_cases hd : d'' = d'
    · subst hd; simp [allocatedSlot]
    · simp [hd]

lemma rplAllocDag_eq_none {s : Node cfg} {instanceId : UInt8} :
    s.rplAllocDag instanceId = none ↔ ∀ d, (s.slots.slot d).used = true := by
  unfold rplAllocDag
  split
  · rename_i hfind
    simpa [Dag.slot] using hfind
  · rename_i d hfind
    have := List.find?_some hfind
    simp only [reduceCtorEq, slots_slot, false_iff, not_forall]
    exact ⟨d, by simpa [Dag.slot] using this⟩

lemma rplFreeDag_slots (d : cfg.DagRef) : (s.rplFreeDag d).slots = s.slots.free d := by
  unfold rplFreeDag
  set s₁ := if (s.dagTable d).mop ≠ rplMopP2pRouteDiscovery then s.rplRemoveRoutes d else s with hs₁
  have h₁ : s₁.slots = s.slots := by
    rw [hs₁]; split_ifs <;> rfl
  have h₂ : (((s₁.rplRemoveParents d 0).rplSetDefaultRoute d none).stopDioTimer d).slots = s.slots := by
    rw [(stopDioTimer_frame _ d).slots, (rplSetDefaultRoute_frame _ d none).slots,
      (rplRemoveParents_frame s₁ d 0).slots, h₁]
  rw [slots_modifyDag _ d (g := fun slot => { slot with used := false, joined := false })
    (fun _ => rfl), h₂]
  rfl

lemma dropDag_slots (old : Option cfg.DagRef) :
    (s.dropDag old).slots = match old with
      | none => s.slots
      | some d => s.slots.free d := by
  cases old with
  | none => rfl
  | some d => exact s.rplFreeDag_slots d

/-- What is found by `rpl_get_dag` is joined and has the instance asked for. -/
lemma rplGetDag_eq_some {s : Node cfg} {instanceId : UInt8} {dodagId : Option IpAddr}
    {d : cfg.DagRef} (h : s.rplGetDag instanceId dodagId = some d) :
    (s.slots.slot d).joined = true ∧ (s.slots.slot d).instanceId = instanceId ∧
      ∀ id, dodagId = some id → (s.slots.slot d).dagId = id := by
  unfold rplGetDag at h
  have hpred := List.find?_some h
  simp only [Bool.and_eq_true, beq_iff_eq] at hpred
  obtain ⟨⟨hjoined, hinst⟩, hid⟩ := hpred
  refine ⟨hjoined, hinst, ?_⟩
  rintro id rfl
  simpa using hid

lemma rplGetDag_eq_none {s : Node cfg} {instanceId : UInt8} {dodagId : Option IpAddr}
    (h : s.rplGetDag instanceId dodagId = none) (d : cfg.DagRef)
    (hjoined : (s.slots.slot d).joined = true)
    (hinst : (s.slots.slot d).instanceId = instanceId) :
    ∃ id, dodagId = some id ∧ (s.slots.slot d).dagId ≠ id := by
  unfold rplGetDag at h
  have hpred := List.find?_eq_none.mp h d (List.mem_finRange d)
  cases dodagId with
  | none => simp_all [Dag.slot]
  | some id => exact ⟨id, rfl, by simp_all [Dag.slot]⟩

lemma P2pFrame.slots {s s' : Node cfg} (h : P2pFrame s s') : s'.slots = s.slots :=
  Slots.ext (funext h.slot) (funext h.owner)

lemma rplSetDodagConfig_slots {s s' : Node cfg} {d : cfg.DagRef} {dcf : DodagConfig}
    (h : s.rplSetDodagConfig d dcf = some s') :
    s'.slots = s.slots.modify d fun slot =>
      { slot with of := rplFindOf cfg dcf.ocp, config := dcf } := by
  unfold rplSetDodagConfig at h
  split at h
  · cases h
  · rename_i of hof
    cases h
    rw [hof]
    exact s.slots_modifyDag d fun _ => rfl

lemma rplSetDodagConfig_eq_none {s : Node cfg} {d : cfg.DagRef} {dcf : DodagConfig} :
    s.rplSetDodagConfig d dcf = none ↔ rplFindOf cfg dcf.ocp = none := by
  unfold rplSetDodagConfig
  cases rplFindOf cfg dcf.ocp <;> simp

/-- A default configuration, whether or not its objective function is supported. -/
lemma defaultConfig_slots (d : cfg.DagRef) (dcf : DodagConfig) :
    ∃ of config, ((s.rplSetDodagConfig d dcf).getD s).slots =
      (s.slots.modify d fun slot => { slot with of := of, config := config }) ∧
        (of = (s.slots.slot d).of ∨ config = dcf) := by
  cases h : s.rplSetDodagConfig d dcf with
  | none =>
      exact ⟨(s.dagTable d).of, (s.dagTable d).config, (Slots.modify_eq_self rfl).symm, .inl rfl⟩
  | some s' => exact ⟨_, _, rplSetDodagConfig_slots h, .inr rfl⟩

/-! ## P2P extensions -/

lemma rplP2pAllocDag_slots {s s' : Node cfg} {d : cfg.DagRef} {e : cfg.P2pRef}
    (h : s.rplP2pAllocDag d = some (e, s')) :
    s.slots.EntryFree e ∧ s'.slots = s.slots.setOwner e (some d) := by
  unfold rplP2pAllocDag at h
  split at h
  · cases h
  · rename_i e' hfind
    obtain ⟨rfl, rfl⟩ : e' = e ∧ _ = s' := by simpa using h
    refine ⟨fun d' hd' => ?_, Slots.ext rfl (funext fun e'' => ?_)⟩
    · have hpred := List.find?_some hfind
      simp only [slots_owner] at hd'
      simpa [hd'] using hpred
    · by_cases he : e'' = e'
      · subst he; simp
      · simp [he]

lemma rplP2pFreeDag_slots (e : cfg.P2pRef) (d : cfg.DagRef) :
    (s.rplP2pFreeDag e d).slots =
      ((s.slots.modify d fun slot => { slot with p2p := none }).free d).setOwner e none := by
  have hfree : ((s.freePartialRoutes e).modifyDag d fun dag => { dag with p2p := none }).slots =
      s.slots.modify d fun slot => { slot with p2p := none } := by
    rw [slots_modifyDag _ d (g := fun slot => { slot with p2p := none }) fun _ => rfl,
      (freePartialRoutes_frame s e).slots]
  unfold rplP2pFreeDag
  rw [← hfree, ← rplFreeDag_slots]
  refine Slots.ext rfl (funext fun e' => ?_)
  by_cases he : e' = e
  · subst he; simp
  · simp [he]

lemma expireP2p_slots (e : cfg.P2pRef) (d : cfg.DagRef) : (s.expireP2p e d).slots = s.slots := by
  unfold expireP2p
  rw [(rplRemoveParents_frame _ d 0).slots, (stopDioTimer_frame _ d).slots, slots_modifyP2p]
  exact fun _ => rfl

/-- One iteration of the purge keeps the slots, or frees the DAG of the extension. -/
lemma purgeEntry_slots (e : cfg.P2pRef) :
    (s.purgeEntry e).slots = s.slots ∨
      ∃ d, s.slots.owner e = some d ∧ (s.slots.slot d).used = true ∧
        (s.purgeEntry e).slots =
          ((s.slots.modify d fun slot => { slot with p2p := none }).free d).setOwner e none := by
  unfold purgeEntry
  simp only
  split
  · exact .inl rfl
  · rename_i d howner
    split_ifs with hused hexpired hlifetime
    · exact .inr ⟨d, howner, hused, s.rplP2pFreeDag_slots e d⟩
    · exact .inl (s.expireP2p_slots e d)
    · exact .inl (s.slots_modifyP2p fun _ => rfl)
    · exact .inl rfl

/-! ## Joining a DAG -/

/-- The slot of a DAG that was joined. -/
def joinedSlot (dio : Dio) (of : ObjectiveFunction) (config : DodagConfig)
    (p2p : Option cfg.P2pRef) : DagSlot cfg where
  used := true
  joined := true
  instanceId := dio.instanceId
  dagId := dio.dagId
  mop := dio.mop
  of := some of
  config := config
  p2p := p2p

/-- A DIO for which `join_dag` gives up after it took a slot: there is no memory for the parent,
or the objective function is not supported. -/
def JoinLeaks (dio : Dio) : Prop :=
  s.parentMemb.Exhausted ∨ ∃ dcf, dio.dodagConfig = some dcf ∧ rplFindOf cfg dcf.ocp = none

instance (dio : Dio) : Decidable (s.JoinLeaks dio) :=
  decidable_of_iff (s.parentMemb.Exhausted ∨ (dio.dodagConfig.map fun dcf => rplFindOf cfg dcf.ocp) = some none)
    (by rw [JoinLeaks, Option.map_eq_some_iff])

/-- What `join_dag` can do to the slots. -/
inductive JoinOutcome (dio : Dio) : Slots cfg → Prop
  /-- there is no slot -/
  | full : (∀ d, (s.slots.slot d).used = true) → JoinOutcome dio s.slots
  /-- a slot stays in use without being joined -/
  | leaked (d : cfg.DagRef) : (s.slots.slot d).used = false → s.JoinLeaks dio →
      JoinOutcome dio (s.slots.modify d fun _ => allocatedSlot cfg dio.instanceId)
  /-- a P2P DAG is left again -/
  | left (d : cfg.DagRef) (of : ObjectiveFunction) (config : DodagConfig) :
      (s.slots.slot d).used = false → dio.mop = rplMopP2pRouteDiscovery →
      JoinOutcome dio ((s.slots.modify d fun _ => joinedSlot dio of config none).free d)
  | joined (d : cfg.DagRef) (of : ObjectiveFunction) (config : DodagConfig) :
      (s.slots.slot d).used = false → dio.mop ≠ rplMopP2pRouteDiscovery →
      JoinOutcome dio (s.slots.modify d fun _ => joinedSlot dio of config none)
  | joinedP2p (d : cfg.DagRef) (e : cfg.P2pRef) (of : ObjectiveFunction) (config : DodagConfig) :
      (s.slots.slot d).used = false → dio.mop = rplMopP2pRouteDiscovery →
      (s.slots.modify d fun _ => joinedSlot dio of config none).EntryFree e →
      JoinOutcome dio ((s.slots.modify d fun _ => joinedSlot dio of config (some e)).setOwner e
        (some d))

/-- A fresh DAG has no parent that could make room for another. -/
lemma rplAddParent_fresh {s s' : Node cfg} {d : cfg.DagRef} {dio : Dio} {addr : IpAddr}
    (hparents : (s.dagTable d).parents = []) (h : s.rplAddParent d dio addr = (none, s')) :
    s.parentMemb.Exhausted ∧ s' = s := by
  have hworst : s.removeWorstParent d dio.rank = s := by
    simp [removeWorstParent, hparents, worstParent]
  unfold rplAddParent at h
  split at h
  · simp at h
  · rename_i hnone
    simp only [hworst, hnone, Prod.mk.injEq, true_and] at h
    exact ⟨Memb.alloc_eq_none.mp hnone, h.symm⟩

lemma joinConfig_slots {s s' : Node cfg} {d : cfg.DagRef} {dio : Dio}
    (h : s.joinConfig d dio = some s') :
    ∃ of config, s'.slots = (s.slots.modify d fun slot => { slot with of := of, config := config }) ∧
      (of = (s.slots.slot d).of ∨ config = dio.dodagConfig.getD defaultDodagConfig) := by
  unfold joinConfig at h
  split at h
  · rename_i hnone
    cases h
    rw [hnone]
    exact s.defaultConfig_slots d _
  · rename_i dcf hsome
    rw [hsome]
    exact ⟨_, _, rplSetDodagConfig_slots h, .inr rfl⟩

lemma uipDs6AddrAdd_slots (ipaddr : IpAddr) : (s.uipDs6AddrAdd ipaddr).slots = s.slots := by
  unfold uipDs6AddrAdd
  split <;> rfl

lemma autoconfigure_slots (prefixInfo : RplPrefix) :
    (s.autoconfigure prefixInfo).slots = s.slots := by
  unfold autoconfigure
  split_ifs
  · rfl
  · split
    · rfl
    · exact s.uipDs6AddrAdd_slots _

lemma joinPrefix_slots (d : cfg.DagRef) (dio : Dio) : (s.joinPrefix d dio).slots = s.slots := by
  unfold joinPrefix
  split
  · rfl
  · rw [(Frame.modifyDag _ d (by intro; rfl)).slots, autoconfigure_slots]

lemma enterDag_slots (of : ObjectiveFunction) (d : cfg.DagRef) (p : cfg.ParentRef)
    (from_ : IpAddr) (dio : Dio) :
    (s.enterDag of d p from_ dio).slots = s.slots.modify d fun slot =>
      { slot with
        joined := true
        instanceId := dio.instanceId
        dagId := dio.dagId
        mop := dio.mop } := by
  unfold enterDag
  rw [(rplSetDefaultRoute_frame _ d _).slots, (rplResetDioTimer_frame _ d true).slots,
    slots_modifyDag _ d (g := fun slot => { slot with dagId := dio.dagId }) fun _ => rfl,
    (updateMetricContainer_frame _ of d).slots,
    slots_modifyDag _ d (g := fun slot => { slot with
      joined := true
      instanceId := dio.instanceId
      mop := dio.mop }) fun _ => rfl, Slots.modify_modify]

/-- A DIO in P2P mode ends with the DAG left again, or with an extension for it. -/
lemma joinP2p_slots (d : cfg.DagRef) (dio : Dio) :
    Ensures (s.joinP2p d dio) fun s' =>
      s'.slots = s.slots.free d ∨
        ∃ e, s.slots.EntryFree e ∧ s'.slots =
          (s.slots.setOwner e (some d)).modify d fun slot => { slot with p2p := some e } := by
  unfold joinP2p
  refine .bind (fun _ _ => trivial) fun rdo _ => ?_
  simp only
  split_ifs
  · exact .ok (.inl (s.rplFreeDag_slots d))
  · split
    · exact .ok (.inl (s.rplFreeDag_slots d))
    · rename_i e s₁ halloc
      obtain ⟨hfree, hs₁⟩ := rplP2pAllocDag_slots halloc
      refine .bind (rplP2pUpdateDag_frame _ d dio) fun s₂ hs₂ => ?_
      refine .mono (rplP2pProcessTarget_frame _ d) fun s₃ hs₃ => .inr ⟨e, hfree, ?_⟩
      rw [hs₃.slots, slots_modifyP2p _ ?_, hs₂.slots, ← hs₁]
      · exact slots_modifyDag _ d fun _ => rfl
      · exact fun _ => rfl

lemma joinDag_slots (from_ : IpAddr) (dio : Dio) :
    Ensures (s.joinDag from_ dio) fun s' => s.JoinOutcome dio s'.slots := by
  unfold joinDag
  split
  · rename_i hfull
    exact .ok (.full (rplAllocDag_eq_none.mp hfull))
  · rename_i d s₁ halloc
    obtain ⟨hunused, hs₁⟩ := rplAllocDag_slots halloc
    have hfresh : (s₁.dagTable d).parents = [] ∧ s₁.parentMemb = s.parentMemb := by
      unfold rplAllocDag at halloc
      split at halloc
      · cases halloc
      · obtain ⟨rfl, rfl⟩ : _ = d ∧ _ = s₁ := by simpa using halloc
        simp [allocatedDag, Dag.zero]
    split
    · rename_i s₂ hadd
      obtain ⟨hexhausted, rfl⟩ := rplAddParent_fresh hfresh.1 hadd
      rw [hfresh.2] at hexhausted
      exact .ok (hs₁ ▸ .leaked d hunused (.inl hexhausted))
    · rename_i p s₂ hadd
      have hs₂ : s₂.slots = s₁.slots := by
        have := (rplAddParent_frame s₁ d dio from_).slots
        rwa [hadd] at this
      split
      · rename_i hconfig
        have hleaks : s.JoinLeaks dio := by
          unfold joinConfig at hconfig
          split at hconfig
          · cases hconfig
          · exact .inr ⟨_, by assumption, rplSetDodagConfig_eq_none.mp hconfig⟩
        exact .ok (by rw [hs₂, hs₁]; exact .leaked d hunused hleaks)
      · rename_i s₃ hconfig
        obtain ⟨of?, config, hs₃, -⟩ := joinConfig_slots hconfig
        refine .bind (fun of hof => deref_eq_ok.mp hof) fun of hof => ?_
        have hof : of? = some of := by
          have h₁ := congrArg (fun σ => (Slots.slot σ d).of) (s₃.joinPrefix_slots d dio)
          have h₂ := congrArg (fun σ => (Slots.slot σ d).of) hs₃
          simp at h₁ h₂
          rw [← h₂, ← h₁, hof]
        subst hof
        have hs₄ : ((s₃.joinPrefix d dio).enterDag of d p from_ dio).slots =
            s.slots.modify d fun _ => joinedSlot dio of config none := by
          rw [enterDag_slots, joinPrefix_slots, hs₃, hs₂, hs₁, Slots.modify_modify,
            Slots.modify_modify]
          rfl
        split_ifs with hmop
        · refine .mono (joinP2p_slots _ d dio) fun s₅ hs₅ => ?_
          rw [hs₄] at hs₅
          obtain hs₅ | ⟨e, hfree, hs₅⟩ := hs₅
          · exact hs₅ ▸ .left d of config hunused hmop
          · have hp2p : s₅.slots = (s.slots.modify d fun _ =>
                joinedSlot dio of config (some e)).setOwner e (some d) := by
              rw [hs₅]
              exact Slots.modify_modify (σ := s.slots.setOwner e (some d)) d
                (fun _ => joinedSlot dio of config none) fun slot => { slot with p2p := some e }
            exact hp2p ▸ .joinedP2p d e of config hunused hmop hfree
        · refine .ok ?_
          rw [slots_modifyDag _ d (g := fun slot => { slot with p2p := none }) fun _ => rfl, hs₄,
            Slots.modify_modify]
          exact .joined d of config hunused hmop

/-! ## Processing a DIO of a DAG that was joined -/

lemma adoptRoute_slots (d : cfg.DagRef) (dio : Dio) :
    Ensures (s.adoptRoute d dio) fun s' => s'.slots = s.slots := by
  unfold adoptRoute
  refine .bind (fun _ _ => trivial) fun _ _ => ?_
  refine .bind (rplP2pUpdateDag_frame s d dio) fun s' hs' => .ok ?_
  rw [(rplResetDioTimer_frame s' d true).slots, hs'.slots]

lemma cacheAlternative_frame (d : cfg.DagRef) (dio : Dio) :
    Ensures (s.cacheAlternative d dio) (P2pFrame s) := by
  unfold cacheAlternative
  refine .bind (fun _ _ => trivial) fun e _ => ?_
  refine .bind (fun _ _ => trivial) fun rdo _ => ?_
  split_ifs
  · exact .bind (fun _ _ => trivial) fun _ _ => .ok (rplP2pAddPartialRoute_frame s d e rdo)
  · exact .ok (.refl s)

lemma countConsistent_frame (d : cfg.DagRef) (p : cfg.ParentRef) :
    Frame d s (s.countConsistent d p) := by
  unfold countConsistent
  split_ifs
  · exact .refl d s
  · exact countDio_frame s d

lemma considerRoute_slots (of : ObjectiveFunction) (d : cfg.DagRef) (p : cfg.ParentRef)
    (dio : Dio) : Ensures (s.considerRoute of d p dio) fun s' => s'.slots = s.slots := by
  have hcount := (s.countConsistent_frame d p).slots
  unfold considerRoute
  simp only
  split_ifs
  · exact .mono (cacheAlternative_frame _ d dio) fun s' hs' => hs'.slots.trans hcount
  · exact .ok hcount

lemma trickleP2p_slots (of : ObjectiveFunction) (d : cfg.DagRef) (p : cfg.ParentRef) (dio : Dio)
    (improved : Bool) :
    Ensures (s.trickleP2p of d p dio improved) fun s' => s'.slots = s.slots := by
  unfold trickleP2p
  split_ifs
  · exact s.adoptRoute_slots d dio
  · exact s.considerRoute_slots of d p dio
  · exact .ok rfl

lemma processP2pDio_slots (d : cfg.DagRef) (p : cfg.ParentRef) (dio : Dio) (improved : Bool) :
    Ensures (s.processP2pDio d p dio improved) fun s' => s'.slots = s.slots := by
  unfold processP2pDio
  split_ifs
  · refine .bind (fun _ _ => trivial) fun of _ => ?_
    refine .bind (s.trickleP2p_slots of d p dio improved) fun s' hs' => ?_
    exact .mono (rplP2pProcessTarget_frame s' d) fun s'' hs'' => hs''.slots.trans hs'
  · exact .ok rfl

lemma compareRoute_frame (d : cfg.DagRef) (p : cfg.ParentRef) (dio : Dio) :
    Ensures (s.compareRoute d p dio) fun r => Frame d s r.2 := by
  unfold compareRoute
  split_ifs
  · exact .bind (fun _ _ => trivial) fun of _ => .ok (pruneParents_frame s d p)
  · exact .ok (.refl d s)

lemma judgeParent_frame (d : cfg.DagRef) (p : cfg.ParentRef) (dio : Dio) :
    Ensures (s.judgeParent d p dio) fun r => Frame d s r.2.2 := by
  unfold judgeParent
  refine .bind (s.compareRoute_frame d p dio) ?_
  rintro ⟨improved, s₁⟩ hs₁
  have hs₂ := hs₁.trans (.modifyParent d s₁ p fun parent =>
    { parent with mc := dio.mc, rank := dio.rank })
  exact .bind (rplProcessParentEvent_frame _ d p) fun r hr => .ok (hs₂.trans hr)

lemma processCandidateParent_slots (d : cfg.DagRef) (p : cfg.ParentRef) (dio : Dio) :
    Ensures (s.processCandidateParent d p dio) fun s' => s'.slots = s.slots := by
  unfold processCandidateParent
  refine .bind (s.judgeParent_frame d p dio) ?_
  rintro ⟨improved, stays, s₁⟩ hs₁
  simp only
  split_ifs
  · refine .bind (s₁.processP2pDio_slots d p dio improved) fun s₂ hs₂ => .ok ?_
    rw [(Frame.modifyParent d s₂ p _).slots, hs₂]
    exact hs₁.slots
  · exact .ok hs₁.slots

lemma processCandidate_slots (d : cfg.DagRef) (from_ : IpAddr) (dio : Dio) :
    Ensures (s.processCandidate d from_ dio) fun s' => s'.slots = s.slots := by
  have hcandidate := (candidateParent_frame s d from_ dio).slots
  unfold processCandidate
  split <;> rename_i heq <;> rw [heq] at hcandidate
  · exact .ok hcandidate
  · exact .mono (processCandidateParent_slots _ d _ dio) fun s' hs' => hs'.trans hcandidate

lemma slots_of_still {s s' : Node cfg} (h : s'.still = s.still) : s'.slots = s.slots :=
  eq_of_still h Node.slots fun _ => rfl

/-- **What a DIO does to the slots**: nothing, unless it is for a new DAG. -/
lemma rplProcessDio_slots (from_ : IpAddr) (dio : Dio) :
    Ensures (s.rplProcessDio from_ dio) fun s' =>
      s'.slots = s.slots ∨ s.JoinTried from_ dio ∧ s.JoinOutcome dio s'.slots := by
  have hfate := s.rplProcessDio_fate from_ dio
  generalize s.rplProcessDio from_ dio = result at hfate
  cases hfate with
  | ignored hstill => exact .ok (.inl (slots_of_still hstill))
  | join htried => exact .mono (s.joinDag_slots from_ dio) fun s' hs' => .inr ⟨htried, hs'⟩
  | repair => exact .mono (globalRepair_frame s from_ _ dio) fun s' hs' => .inl hs'.slots
  | candidate =>
      refine .mono (processCandidate_slots _ _ from_ dio) fun s' hs' => .inl (hs'.trans ?_)
      exact slots_of_still (resetIfInfinite_still s _ dio)
  | noExtension | noRdo => exact .error _

/-! ## Roots and discoveries -/

lemma initRoot_slots (d : cfg.DagRef) (version : UInt8) (dagId : IpAddr) :
    ∃ of config, (s.initRoot d version dagId).slots = (s.slots.modify d fun slot =>
      { slot with joined := true, mop := rplMopDefault, dagId, of := of, config := config }) ∧
        (of = (s.slots.slot d).of ∨ config = defaultDodagConfig) := by
  unfold initRoot
  set s₁ := s.modifyDag d fun dag => { dag with
    joined := true
    version := version + 1
    grounded := cfg.grounded
    mop := rplMopDefault
    preferredParent := none
    dtsnOut := 1 } with hs₁
  have hslots₁ : s₁.slots = s.slots.modify d fun slot =>
      { slot with joined := true, mop := rplMopDefault } := s.slots_modifyDag d fun _ => rfl
  obtain ⟨of, config, hconfig, hcases⟩ := s₁.defaultConfig_slots d defaultDodagConfig
  refine ⟨of, config, ?_, ?_⟩
  · rw [slots_modifyDag _ d (g := fun slot => { slot with dagId }) fun _ => rfl, hconfig, hslots₁,
      Slots.modify_modify, Slots.modify_modify]
  · rw [hslots₁, Slots.modify_slot, Function.update_self] at hcases
    exact hcases

/-- A new root joins its DAG in the first slot that is free after the old one was dropped. -/
lemma rplSetRoot_slots (dagId : IpAddr) :
    Ensures (s.rplSetRoot dagId) fun s' =>
      let dropped := (s.dropDag (s.rplGetDag rplDefaultInstance none)).slots
      s'.slots = dropped ∨ ∃ d of, (dropped.slot d).used = false ∧
        s'.slots = dropped.modify d fun _ =>
          { (allocatedSlot cfg rplDefaultInstance) with
            joined := true, mop := rplMopDefault, dagId, of := some of
            config := defaultDodagConfig } := by
  unfold rplSetRoot
  simp only
  split
  · exact .ok (.inl rfl)
  · rename_i d s₁ halloc
    obtain ⟨hunused, hs₁⟩ := rplAllocDag_slots halloc
    obtain ⟨of?, config, hinit, hcases⟩ := s₁.initRoot_slots d
      (s.oldVersion (s.rplGetDag rplDefaultInstance none)) dagId
    refine .bind (fun of hof => deref_eq_ok.mp hof) fun of hof => .ok (.inr ⟨d, of, hunused, ?_⟩)
    have hof? : of? = some of := by
      have := congrArg (fun σ => (Slots.slot σ d).of) hinit
      simp at this
      rw [← this, hof]
    subst hof?
    -- the allocated slot has no objective function, so that the configuration was set
    have hfresh : (s₁.slots.slot d).of = none := by
      rw [hs₁, Slots.modify_slot, Function.update_self]
      rfl
    rw [hfresh] at hcases
    obtain rfl := hcases.resolve_left (Option.some_ne_none of)
    rw [(rplResetDioTimer_frame _ d true).slots, (updateMetricContainer_frame _ of d).slots, hinit,
      hs₁, Slots.modify_modify]

end Node
end Contiki

import Contiki.Rpl.Extensions

/-!
# The parents of a P2P DAG

A P2P DAG has at most two parents: the preferred one, and one more that is the sender of the latest
DIO or was preferred before.  The loop of `rpl_process_dio` that prunes the list takes away one
parent only, so this is an invariant of whole runs, and it is lost with a DIO in the default mode,
for which the loop does not run (`p2p_parents`).

The source records neither the sender of the latest DIO nor the parent that was preferred before.
A `Traced` node keeps both as history.

* `Thins d s s'` is what events other than DIOs do to the parents of `d`.
* `Spares d s s'` is what DIOs do whose sender is not considered as a parent of `d`.
* `Hears d from_ s s'` is what a DIO of `from_` does whose sender is considered as a parent of `d`.
-/

namespace Contiki
namespace Node

variable {cfg : Config} {s s' s'' : Node cfg} {d d' : cfg.DagRef} {p : cfg.ParentRef}
  {from_ : IpAddr} {dio : Dio}

/-! ## Events that bring no parent -/

/-- The DAG `d` gained no parent; unless all are gone it kept its mode, and a preferred parent if it
had one. -/
structure Thins (d : cfg.DagRef) (s s' : Node cfg) : Prop where
  sublist : (s'.dagTable d).parents.Sublist (s.dagTable d).parents
  addr : ∀ p ∈ (s'.dagTable d).parents, (s'.parent p).addr = (s.parent p).addr
  kept : (s'.dagTable d).parents = [] ∨ (s'.dagTable d).mop = (s.dagTable d).mop ∧
    ((s'.dagTable d).preferredParent = none → (s.dagTable d).preferredParent = none)

namespace Thins

lemma of_nil (h : (s'.dagTable d).parents = []) : Thins d s s' :=
  ⟨by rw [h]; exact List.nil_sublist _, fun p hp => (by rw [h] at hp; cases hp), .inl h⟩

/-- The DAG itself stays as it is. -/
lemma of_eq (h : s'.dagTable d = s.dagTable d)
    (haddr : ∀ p ∈ (s.dagTable d).parents, (s'.parent p).addr = (s.parent p).addr) :
    Thins d s s' :=
  ⟨by rw [h], fun p hp => haddr p (h ▸ hp), .inr ⟨by rw [h], by rw [h]; exact id⟩⟩

lemma of_same (h : SameFamilies s s') (d : cfg.DagRef) : Thins d s s' :=
  ⟨by rw [h.parents d], fun p _ => h.addr p,
    .inr ⟨h.mop d, by rw [h.preferredParent d]; exact id⟩⟩

lemma refl (d : cfg.DagRef) (s : Node cfg) : Thins d s s := .of_same (.refl s) d

lemma trans (h : Thins d s s') (h' : Thins d s' s'') : Thins d s s'' where
  sublist := h'.sublist.trans h.sublist
  addr p hp := (h'.addr p hp).trans (h.addr p (h'.sublist.subset hp))
  kept := by
    obtain hnil' | ⟨hmop', hpreferred'⟩ := h'.kept
    · exact .inl hnil'
    obtain hnil | ⟨hmop, hpreferred⟩ := h.kept
    · left
      have hsub := h'.sublist
      rwa [hnil, List.sublist_nil] at hsub
    · exact .inr ⟨hmop'.trans hmop, fun hnone => hpreferred (hpreferred' hnone)⟩

/-- A function on one DAG that only takes parents away. -/
lemma of_shrinks (h : Shrinks d s s') (hother : ∀ d', d' ≠ d → s'.dagTable d' = s.dagTable d')
    (hkept : (s'.dagTable d).parents = [] ∨ (s'.dagTable d).mop = (s.dagTable d).mop ∧
      ((s'.dagTable d).preferredParent = none → (s.dagTable d).preferredParent = none))
    (d' : cfg.DagRef) : Thins d' s s' := by
  by_cases hd : d' = d
  · exact hd ▸ ⟨h.sublist, fun p _ => h.addr p, hkept⟩
  · exact .of_eq (hother d' hd) fun p _ => h.addr p

/-- A DAG without parents may get any content without parents. -/
lemma modifyDag_nil (s : Node cfg) (d : cfg.DagRef) {f : Dag cfg → Dag cfg}
    (hnil : (f (s.dagTable d)).parents = []) (d' : cfg.DagRef) : Thins d' s (s.modifyDag d f) := by
  by_cases hd : d' = d
  · subst hd
    exact .of_nil (by simp [hnil])
  · exact .of_eq (by simp [hd]) fun _ _ => rfl

end Thins

lemma Frame.mop (h : Frame d s s') (d' : cfg.DagRef) :
    (s'.dagTable d').mop = (s.dagTable d').mop :=
  congrArg DagSlot.mop (h.slot_eq d')

lemma rplRemoveParents_thins (h : s.Owned) (d d' : cfg.DagRef) :
    Thins d' s (s.rplRemoveParents d 0) :=
  .of_shrinks (rplRemoveParents_shrinks h d 0) (rplRemoveParents_frame s d 0).other
    (.inl (rplRemoveParents_zero h d)) d'

lemma rplLocalRepair_thins (h : s.Owned) (d d' : cfg.DagRef) : Thins d' s (s.rplLocalRepair d) :=
  .of_shrinks (rplLocalRepair_shrinks h d).1 (rplLocalRepair_frame s d).other
    (.inl (rplLocalRepair_shrinks h d).2) d'

lemma rplProcessParentEvent_thins (h : s.Owned) (d : cfg.DagRef) (p : cfg.ParentRef) :
    Ensures (s.rplProcessParentEvent d p) fun r => ∀ d', Thins d' s r.2 := by
  refine .mono (.and (rplProcessParentEvent_shrinks h d p) (rplProcessParentEvent_frame s d p)) ?_
  rintro r ⟨⟨hshrinks, hnone⟩, hframe⟩
  refine .of_shrinks hshrinks hframe.other ?_
  by_cases hpreferred : (r.2.dagTable d).preferredParent = none
  · exact .inl (hnone hpreferred)
  · exact .inr ⟨hframe.mop d, fun hnone => absurd hnone hpreferred⟩

lemma rplFreeDag_other (s : Node cfg) (hd : d' ≠ d) :
    (s.rplFreeDag d).dagTable d' = s.dagTable d' := by
  have hroutes : ∀ s₁ : Node cfg,
      (((s₁.rplRemoveParents d 0).rplSetDefaultRoute d none).stopDioTimer d).dagTable d' =
        s₁.dagTable d' := fun s₁ =>
    ((rplRemoveParents_frame s₁ d 0).trans
      ((rplSetDefaultRoute_frame _ d none).trans (stopDioTimer_frame _ d))).other d' hd
  unfold rplFreeDag
  simp only [modifyDag_dagTable, ne_eq, hd, not_false_eq_true, Function.update_of_ne, hroutes]
  split_ifs <;> rfl

lemma rplFreeDag_thins (h : s.Owned) (d d' : cfg.DagRef) : Thins d' s (s.rplFreeDag d) := by
  have hshrinks := rplFreeDag_shrinks h d
  refine .of_shrinks hshrinks (fun _ hd => rplFreeDag_other s hd) (.inl ?_) d'
  exact hshrinks.owned.unused d (by simp [rplFreeDag])

lemma dropDag_thins (h : s.Owned) (old : Option cfg.DagRef) (d' : cfg.DagRef) :
    Thins d' s (s.dropDag old) := by
  cases old with
  | none => exact .refl d' s
  | some d => exact rplFreeDag_thins h d d'

lemma rplAllocDag_thins {instanceId : UInt8} (halloc : s.rplAllocDag instanceId = some (d, s'))
    (d' : cfg.DagRef) : Thins d' s s' := by
  unfold rplAllocDag at halloc
  split at halloc
  · cases halloc
  · obtain ⟨rfl, rfl⟩ : _ = d ∧ _ = s' := by simpa using halloc
    exact .modifyDag_nil s _ (f := fun _ => allocatedDag cfg instanceId) rfl d'

lemma purgeEntry_thins (h : s.Owned) (e : cfg.P2pRef) (d' : cfg.DagRef) :
    Thins d' s (s.purgeEntry e) := by
  unfold purgeEntry
  simp only
  split
  · exact .refl d' s
  · rename_i d _
    split_ifs
    · have hp2p : SameFamilies s
          ((s.freePartialRoutes e).modifyDag d fun dag => { dag with p2p := none }) :=
        (SameFamilies.of_p2p (freePartialRoutes_frame s e)).trans (.modifyDag _ d (by intro; rfl))
      unfold rplP2pFreeDag
      refine (Thins.of_same hp2p d').trans ((rplFreeDag_thins (h.congr hp2p) d d').trans ?_)
      exact .of_same (.modifyP2p _ e _) d'
    · have hstop : SameFamilies s ((s.modifyP2p e fun p2p => { p2p with
          lifetime := rplP2pLt2sec p2p.rdoLifetime + 10, expired := true }).stopDioTimer d) :=
        (SameFamilies.modifyP2p s e _).trans (.of_quiet (stopDioTimer_quiet _ d))
      exact (Thins.of_same hstop d').trans (rplRemoveParents_thins (h.congr hstop) d d')
    · exact .of_same (.modifyP2p s e _) d'
    · exact .refl d' s

lemma rplP2pPurgeDags_thins (h : s.Owned) (d : cfg.DagRef) : Thins d s s.rplP2pPurgeDags := by
  have hpurge := rplP2pPurgeDags_induction (P := fun s' => s'.Owned ∧ Thins d s s')
    (fun s' e hs' => ⟨purgeEntry_owned hs'.1 e, hs'.2.trans (purgeEntry_thins hs'.1 e d)⟩)
    ⟨h, .refl d s⟩
  exact hpurge.2

lemma initRoot_thins (hnil : (s.dagTable d).parents = []) (version : UInt8) (dagId : IpAddr)
    (d' : cfg.DagRef) : Thins d' s (s.initRoot d version dagId) := by
  unfold initRoot
  refine (Thins.modifyDag_nil s d (f := fun dag => { dag with
    joined := true
    version := version + 1
    grounded := cfg.grounded
    mop := rplMopDefault
    preferredParent := none
    dtsnOut := 1 }) hnil d').trans (.of_same ?_ d')
  exact (defaultConfig_same _ d _).trans (.modifyDag _ d (by intro; rfl))

lemma rplSetRoot_thins (h : s.Owned) (dagId : IpAddr) :
    Ensures (s.rplSetRoot dagId) fun s' => ∀ d', Thins d' s s' := by
  have hdrop := dropDag_owned h (s.rplGetDag rplDefaultInstance none)
  have hthins := dropDag_thins h (s.rplGetDag rplDefaultInstance none)
  unfold rplSetRoot
  simp only
  split
  · exact .ok hthins
  · rename_i d s₁ halloc
    have hnil : (s₁.dagTable d).parents = [] := by
      rw [(rplAllocDag_owned hdrop halloc).2.1]
      rfl
    refine .bind (fun _ _ => trivial) fun of _ => .ok fun d' => ?_
    refine ((hthins d').trans (rplAllocDag_thins halloc d')).trans ?_
    set version := s.oldVersion (s.rplGetDag rplDefaultInstance none)
    refine (initRoot_thins hnil version dagId d').trans (.of_same ?_ d')
    exact .of_quiet ((updateMetricContainer_quiet _ of d).trans (rplResetDioTimer_quiet _ d true))

lemma initDiscovery_thins (hnil : (s.dagTable d).parents = []) (ownAddr : IpAddr)
    (d' : cfg.DagRef) : Thins d' s (s.initDiscovery d ownAddr) := by
  unfold initDiscovery
  refine (Thins.modifyDag_nil s d (f := fun dag => { dag with
    used := true
    joined := true
    version := 0
    preferredParent := none
    grounded := 0
    mop := rplMopP2pRouteDiscovery
    dtsnOut := 0
    preference := 0
    dagId := ownAddr }) hnil d').trans (.of_same ?_ d')
  exact (defaultConfig_same _ d _).trans (.modifyDag _ d (by intro; rfl))

lemma rplDiscoverRoute_thins (h : s.Owned) (process : Option ℕ) (target : IpAddr) :
    Ensures (s.rplDiscoverRoute process target) fun r => ∀ d', Thins d' s r.2 := by
  have hcounter : SameFamilies s { s with instanceCounter := (s.instanceCounter + 1) % 0x40 } :=
    ⟨fun _ => rfl, rfl, fun _ => rfl⟩
  have hdrop := dropDag_owned (h.congr hcounter) s.discoveryDrops
  have hthins := fun d' => (Thins.of_same hcounter d').trans
    (dropDag_thins (h.congr hcounter) s.discoveryDrops d')
  unfold rplDiscoverRoute startDiscovery
  split
  · exact .ok hthins
  · rename_i d s₁ halloc
    obtain ⟨howned, hdag, -⟩ := rplAllocDag_owned hdrop halloc
    have hthins₁ := fun d' => (hthins d').trans (rplAllocDag_thins halloc d')
    split
    · exact .ok fun d' => (hthins₁ d').trans (rplFreeDag_thins howned d d')
    · rename_i e s₂ hext
      have hp2p : SameFamilies s₁ (s₂.modifyDag d fun dag => { dag with p2p := some e }) :=
        (rplP2pAllocDag_same hext).trans (.modifyDag _ d (by intro; rfl))
      have hnil : ((s₂.modifyDag d fun dag => { dag with p2p := some e }).dagTable d).parents = [] := by
        rw [hp2p.parents, hdag]
        rfl
      refine .bind (fun _ _ => trivial) fun ownAddr _ => ?_
      refine .bind (fun _ _ => trivial) fun of _ => .ok fun d' => ?_
      refine ((hthins₁ d').trans (.of_same hp2p d')).trans ?_
      refine (initDiscovery_thins hnil ownAddr d').trans (.of_same ?_ d')
      refine (SameFamilies.of_quiet (updateMetricContainer_quiet _ of d)).trans ?_
      refine SameFamilies.trans ?_ (.of_quiet (rplResetDioTimer_quiet _ d true))
      exact ⟨fun _ => rfl, rfl, fun _ => rfl⟩

lemma rplRecalculateRanks_thins (h : s.Owned) :
    Ensures s.rplRecalculateRanks fun s' => ∀ d', Thins d' s s' := by
  unfold rplRecalculateRanks
  split
  · exact .ok fun d' => .refl d' s
  · rename_i d _
    split
    · exact .ok fun d' => .refl d' s
    · rename_i p _
      have hmark : SameFamilies s (s.modifyParent p fun parent => { parent with updated := false }) :=
        .modifyParent s p (by intro; rfl)
      exact .bind (rplProcessParentEvent_thins (h.congr hmark) d p) fun r hr =>
        .ok fun d' => (Thins.of_same hmark d').trans (hr d')

/-- Only DIOs bring parents. -/
lemma next_thins (h : s.Owned) {e : Event cfg} (hdio : ∀ from_ dio, e ≠ .processDio from_ dio)
    (hnext : s.next e = .ok s') (d : cfg.DagRef) : Thins d s s' := by
  by_cases hquiet : e.quiet = true
  · exact .of_same (.of_quiet (quiet_step hquiet hnext)) d
  obtain ⟨packets, hstep⟩ := next_eq_ok.mp hnext
  cases e with
  | processDio from_ dio => exact absurd rfl (hdio from_ dio)
  | setRoot dagId =>
      obtain ⟨s'', hroot, hs''⟩ := map_eq_ok.mp hstep
      cases hs''
      exact rplSetRoot_thins h dagId s' hroot d
  | discoverRoute process target =>
      obtain ⟨r, hdiscover, hs''⟩ := map_eq_ok.mp hstep
      cases hs''
      exact rplDiscoverRoute_thins h process target r hdiscover d
  | purgeDags =>
      cases hstep
      exact rplP2pPurgeDags_thins h d
  | repairDag d' =>
      cases hstep
      split_ifs
      · exact .of_same (rplRepairDag_same s d') d
      · exact .refl d s
  | localRepair d' =>
      cases hstep
      split_ifs
      · exact rplLocalRepair_thins h d' d
      · exact .refl d s
  | recalculateRanks =>
      obtain ⟨s'', hranks, hs''⟩ := map_eq_ok.mp hstep
      cases hs''
      exact rplRecalculateRanks_thins h s' hranks d
  | linkNeighbor addr known etx =>
      obtain ⟨s'', hlink, hs''⟩ := map_eq_ok.mp hstep
      cases hs''
      exact .of_same (rplLinkNeighborCallback_same s addr known etx s' hlink) d
  | ipv6Neighbor ipaddr isused =>
      cases hstep
      exact .of_same (rplIpv6NeighborCallback_same s ipaddr isused) d
  | droInput | droAckInput | disInput | setPrefix | purgeRoutes | dioTimer | droTimer | droRexmit
  | nbrMetric | addr | routeAdd | defrtAdd | defrtRm | randomInit => exact absurd rfl hquiet

/-! ## DIOs -/

/-- The sender of the DIO is considered as a parent of `d`: the node joins the DAG with it, repairs
the DAG with it, or finds it on the list or room for it there. -/
inductive Considers (s : Node cfg) (from_ : IpAddr) (dio : Dio) (d : cfg.DagRef) : Prop
  | join {s₁ : Node cfg} : s.JoinTried from_ dio → s.rplAllocDag dio.instanceId = some (d, s₁) →
      Considers s from_ dio d
  | repair : s.NewVersion from_ dio d → Considers s from_ dio d
  | candidate {p : cfg.ParentRef} {s₁ : Node cfg} : s.CandidateStage from_ dio d →
      (s.resetIfInfinite d dio).candidateParent d from_ dio = (some p, s₁) →
      Considers s from_ dio d

/-- The DAG `d` gained no parent and kept its mode and its preferred parent. -/
structure Spares (d : cfg.DagRef) (s s' : Node cfg) : Prop where
  sublist : (s'.dagTable d).parents.Sublist (s.dagTable d).parents
  addr : ∀ p ∈ (s'.dagTable d).parents, (s'.parent p).addr = (s.parent p).addr
  mop : (s'.dagTable d).mop = (s.dagTable d).mop
  preferred : (s'.dagTable d).preferredParent = (s.dagTable d).preferredParent

namespace Spares

lemma thins (h : Spares d s s') : Thins d s s' :=
  ⟨h.sublist, h.addr, .inr ⟨h.mop, by rw [h.preferred]; exact id⟩⟩

lemma of_eq (h : s'.dagTable d = s.dagTable d)
    (haddr : ∀ p ∈ (s.dagTable d).parents, (s'.parent p).addr = (s.parent p).addr) :
    Spares d s s' :=
  ⟨by rw [h], fun p hp => haddr p (h ▸ hp), by rw [h], by rw [h]⟩

lemma of_same (h : SameFamilies s s') (d : cfg.DagRef) : Spares d s s' :=
  ⟨by rw [h.parents d], fun p _ => h.addr p, h.mop d, h.preferredParent d⟩

lemma refl (d : cfg.DagRef) (s : Node cfg) : Spares d s s := .of_same (.refl s) d

lemma trans (h : Spares d s s') (h' : Spares d s' s'') : Spares d s s'' where
  sublist := h'.sublist.trans h.sublist
  addr p hp := (h'.addr p hp).trans (h.addr p (h'.sublist.subset hp))
  mop := h'.mop.trans h.mop
  preferred := h'.preferred.trans h.preferred

end Spares

/-- What a DIO of `from_` leaves, as parents of `d`: its sender and the parent that was preferred. -/
structure Hears (d : cfg.DagRef) (from_ : IpAddr) (s s' : Node cfg) : Prop where
  two : (s'.dagTable d).parents.length ≤ 2
  alone : (s'.dagTable d).preferredParent = none → (s'.dagTable d).parents.length ≤ 1
  known : ∀ p ∈ (s'.dagTable d).parents, (s'.parent p).addr = from_ ∨
    (s.dagTable d).preferredParent = some p ∧ (s'.parent p).addr = (s.parent p).addr

namespace Hears

lemma of_nil (h : (s'.dagTable d).parents = []) : Hears d from_ s s' :=
  ⟨by simp [h], fun _ => by simp [h], fun p hp => (by rw [h] at hp; cases hp)⟩

/-- The sender of the DIO is the only parent. -/
lemma of_singleton (h : (s'.dagTable d).parents = [p]) (haddr : (s'.parent p).addr = from_) :
    Hears d from_ s s' :=
  ⟨by simp [h], fun _ => by simp [h], fun q hq => by
    rw [h, List.mem_singleton] at hq
    exact .inl (hq ▸ haddr)⟩

lemma then_same (h : Hears d from_ s s') (hsame : SameFamilies s' s'') : Hears d from_ s s'' where
  two := by rw [hsame.parents]; exact h.two
  alone := by rw [hsame.parents, hsame.preferredParent]; exact h.alone
  known p hp := by
    rw [hsame.parents] at hp
    rw [hsame.addr]
    exact h.known p hp

lemma of_same_start (h : Hears d from_ s' s'') (hsame : SameFamilies s s') :
    Hears d from_ s s'' where
  two := h.two
  alone := h.alone
  known p hp := by
    rw [← hsame.addr p, ← hsame.preferredParent d]
    exact h.known p hp

end Hears

/-! ### Joining -/

/-- After a join the new DAG has its sender as the only parent, or none, and no other DAG is
affected. -/
structure JoinsWith (d : cfg.DagRef) (from_ : IpAddr) (s s' : Node cfg) : Prop where
  hears : (s'.dagTable d).parents = [] ∨
    ∃ p, (s'.dagTable d).parents = [p] ∧ (s'.parent p).addr = from_
  other : ∀ d', d' ≠ d → Spares d' s s'

namespace JoinsWith

lemma then_same (h : JoinsWith d from_ s s') (hsame : SameFamilies s' s'') :
    JoinsWith d from_ s s'' where
  hears := by
    rw [hsame.parents]
    refine h.hears.imp_right fun ⟨p, hp, haddr⟩ => ⟨p, hp, ?_⟩
    exact (hsame.addr p).trans haddr
  other d' hd := (h.other d' hd).trans (.of_same hsame d')

lemma then_free (h : JoinsWith d from_ s s') (howned : s'.Owned) :
    JoinsWith d from_ s (s'.rplFreeDag d) where
  hears := .inl ((rplFreeDag_shrinks howned d).owned.unused d (by simp [rplFreeDag]))
  other d' hd := (h.other d' hd).trans
    (.of_eq (rplFreeDag_other s' hd) fun p _ => (rplFreeDag_shrinks howned d).addr p)

end JoinsWith

lemma enterDag_joinsWith (h : JoinsWith d from_ s s') (of : ObjectiveFunction) (p : cfg.ParentRef)
    (addr : IpAddr) (dio : Dio) : JoinsWith d from_ s (s'.enterDag of d p addr dio) := by
  unfold enterDag
  set s₁ := s'.modifyDag d fun dag => { dag with
    joined := true
    grounded := dio.grounded
    mop := dio.mop
    preference := dio.preference
    instanceId := dio.instanceId
    version := dio.version
    preferredParent := some p } with hs₁
  have h₁ : JoinsWith d from_ s s₁ := by
    refine ⟨?_, fun d' hd => (h.other d' hd).trans (.of_eq (by simp [hs₁, hd]) fun _ _ => rfl)⟩
    simpa [hs₁, parent] using h.hears
  refine JoinsWith.then_same ?_ (.of_quiet (rplSetDefaultRoute_quiet _ d _))
  refine JoinsWith.then_same ?_ (.of_quiet (rplResetDioTimer_quiet _ d true))
  refine JoinsWith.then_same ?_ (.modifyDag _ d (by intro; rfl))
  exact h₁.then_same (.of_quiet (updateMetricContainer_quiet s₁ of d))

lemma joinP2p_joinsWith (h : JoinsWith d from_ s s') (howned : s'.Owned) (dio : Dio) :
    Ensures (s'.joinP2p d dio) (JoinsWith d from_ s) := by
  unfold joinP2p
  refine .bind (fun _ _ => trivial) fun rdo _ => ?_
  simp only
  split_ifs
  · exact .ok (h.then_free howned)
  · split
    · exact .ok (h.then_free howned)
    · rename_i e s₁ hext
      have hp2p : SameFamilies s' (s₁.modifyDag d fun dag => { dag with p2p := some e }) :=
        (rplP2pAllocDag_same hext).trans (.modifyDag _ d (by intro; rfl))
      refine .bind (rplP2pUpdateDag_frame _ d dio) fun s₂ hs₂ => ?_
      refine .mono (rplP2pProcessTarget_frame _ d) fun s₃ hs₃ => ?_
      refine h.then_same (hp2p.trans ((SameFamilies.of_p2p hs₂).trans ?_))
      exact (SameFamilies.modifyP2p s₂ e _).trans (.of_p2p hs₃)

lemma rplAddParent_spares (dio : Dio) (from_ : IpAddr) (h : s.Owned) (hused : (s.dagTable d).used = true) (hd : d' ≠ d) :
    Spares d' s (s.rplAddParent d dio from_).2 := by
  have hother := (rplAddParent_frame s d dio from_).other d' hd
  cases hadd : s.rplAddParent d dio from_ with
  | mk found s₁ =>
      rw [hadd] at hother
      refine .of_eq hother fun q hq => ?_
      cases found with
      | none => exact (rplAddParent_shrinks h hadd).1.addr q
      | some p =>
          have hadds := rplAddParent_adds h hused hadd
          obtain ⟨l, -, hparents⟩ := hadds.parents
          refine congrArg Prod.snd (hadds.kin q ?_)
          rintro rfl
          exact hadds.owned.notMem_other hd (hother ▸ hq) (by rw [hparents]; simp)

lemma rplAllocDag_spares {instanceId : UInt8} (halloc : s.rplAllocDag instanceId = some (d, s'))
    (hd : d' ≠ d) : Spares d' s s' := by
  unfold rplAllocDag at halloc
  split at halloc
  · cases halloc
  · obtain ⟨rfl, rfl⟩ : _ = d ∧ _ = s' := by simpa using halloc
    exact .of_eq (by simp [hd]) fun _ _ => rfl

lemma joinDag_joinsWith (h : s.Owned) {s₁ : Node cfg}
    (halloc : s.rplAllocDag dio.instanceId = some (d, s₁)) :
    Ensures (s.joinDag from_ dio) (JoinsWith d from_ s) := by
  obtain ⟨h₁, hdag, -⟩ := rplAllocDag_owned h halloc
  have hused : (s₁.dagTable d).used = true := by rw [hdag]; rfl
  have hnil : (s₁.dagTable d).parents = [] := by rw [hdag]; rfl
  have hother : ∀ d', d' ≠ d → Spares d' s (s₁.rplAddParent d dio from_).2 := fun d' hd =>
    (rplAllocDag_spares halloc hd).trans (rplAddParent_spares dio from_ h₁ hused hd)
  unfold joinDag
  rw [halloc]
  simp only
  split
  · rename_i s₂ hadd
    rw [hadd] at hother
    exact .ok ⟨.inl ((rplAddParent_shrinks h₁ hadd).1.nil hnil), hother⟩
  · rename_i p s₂ hadd
    rw [hadd] at hother
    have hadds := rplAddParent_adds h₁ hused hadd
    obtain ⟨l, hl, hparents⟩ := hadds.parents
    rw [hnil, List.sublist_nil] at hl
    rw [hl, List.nil_append] at hparents
    have hjoins : JoinsWith d from_ s s₂ := ⟨.inr ⟨p, hparents, hadds.addr⟩, hother⟩
    split
    · exact .ok hjoins
    · rename_i s₃ hconfig
      have hsame := (joinConfig_same hconfig).trans (joinPrefix_same s₃ d dio)
      refine .bind (fun _ _ => trivial) fun of _ => ?_
      have henter := enterDag_joinsWith (hjoins.then_same hsame) of p from_ dio
      have howned := enterDag_owned (p := p) (hadds.owned.congr hsame)
        (by rw [hsame.parents d, hparents]; simp) of from_ dio
      split_ifs
      · exact joinP2p_joinsWith henter howned dio
      · exact .ok (henter.then_same (.modifyDag _ d (by intro; rfl)))

/-! ### Repairs and candidates -/

/-- A global repair, for the other DAGs. -/
lemma globalRepair_spares (h : s.Owned) (hused : (s.dagTable d).used = true) (hd : d' ≠ d) :
    Ensures (s.globalRepair from_ d dio) (Spares d' s) := by
  have hremove := rplRemoveParents_shrinks h d 0
  have hslot := congrArg DagSlot.used ((rplRemoveParents_frame s d 0).slot_eq d)
  set s₁ := (s.rplRemoveParents d 0).modifyDag d fun dag =>
    { dag with version := dio.version, dtsnOut := 1 } with hs₁
  have hsame : SameFamilies (s.rplRemoveParents d 0) s₁ := .modifyDag _ d (by intro; rfl)
  have hused₁ : (s₁.dagTable d).used = true := (hsame.used d).trans (hslot.trans hused)
  have hremoved : Spares d' s (s.rplRemoveParents d 0) :=
    .of_eq ((rplRemoveParents_frame s d 0).other d' hd) fun p _ => hremove.addr p
  have hadd := hremoved.trans ((Spares.of_same hsame d').trans
    (rplAddParent_spares dio from_ (hremove.owned.congr hsame) hused₁ hd))
  unfold globalRepair
  refine .bind (fun _ _ => trivial) fun of _ => ?_
  split <;> rename_i heq <;> rw [heq] at hadd
  · exact .ok (hadd.trans (.of_same (.modifyDag _ d (by intro; rfl)) d'))
  · exact .ok (hadd.trans (.of_same (rejoinDag_same _ of d from_ dio) d'))

/-- The sender was found on the list or added to it: what else is there was there before. -/
structure Candidate (d : cfg.DagRef) (p : cfg.ParentRef) (from_ : IpAddr) (s s' : Node cfg) :
    Prop where
  owned : s'.Owned
  mem : p ∈ (s'.dagTable d).parents
  addr : (s'.parent p).addr = from_
  preferred : (s'.dagTable d).preferredParent = (s.dagTable d).preferredParent
  others : ∀ q ∈ (s'.dagTable d).parents, q ≠ p → q ∈ (s.dagTable d).parents
  kept : ∀ q, q ≠ p → (s'.parent q).addr = (s.parent q).addr

lemma candidateParent_spec (h : s.Owned) (hused : (s.dagTable d).used = true)
    (hcandidate : s.candidateParent d from_ dio = (some p, s')) : Candidate d p from_ s s' := by
  unfold candidateParent at hcandidate
  split at hcandidate
  · set s₁ := if (s.dagTable d).parents.length = cfg.maxParents then
      s.removeWorstParent d dio.rank else s with hs₁
    have h₁ : Shrinks d s s₁ ∧ (s₁.dagTable d).preferredParent = (s.dagTable d).preferredParent ∧
        (s₁.dagTable d).used = true := by
      rw [hs₁]
      split_ifs
      · obtain ⟨hshrinks, hpreferred⟩ := removeWorstParent_shrinks h d dio.rank
        exact ⟨hshrinks, hpreferred, hused ▸
          congrArg DagSlot.used ((removeWorstParent_frame s d dio.rank).slot_eq d)⟩
      · exact ⟨.refl d h, rfl, hused⟩
    obtain ⟨hshrinks, hpreferred, hused₁⟩ := h₁
    have hadds := rplAddParent_adds hshrinks.owned hused₁ hcandidate
    obtain ⟨l, hl, hparents⟩ := hadds.parents
    refine ⟨hadds.owned, by rw [hparents]; simp, hadds.addr, hadds.preferred.trans hpreferred,
      fun q hq hqp => ?_,
      fun q hqp => (congrArg Prod.snd (hadds.kin q hqp)).trans (hshrinks.addr q)⟩
    rw [hparents, List.mem_append, List.mem_singleton] at hq
    exact hshrinks.subset (hl.subset (hq.resolve_right hqp))
  · rename_i p' hfind
    obtain ⟨hp, hs'⟩ := Prod.mk.inj hcandidate
    obtain rfl : p' = p := by simpa using hp
    have hsame : SameFamilies s s' := by
      rw [← hs']
      split_ifs
      · exact .of_quiet (countDio_quiet s d)
      · exact .refl s
    refine ⟨h.congr hsame, ?_, ?_, hsame.preferredParent d, fun q hq _ => ?_,
      fun q _ => hsame.addr q⟩
    · rw [hsame.parents]
      exact List.mem_of_find?_eq_some hfind
    · have hfound := List.find?_some hfind
      rw [hsame.addr]
      simpa using hfound
    · rwa [hsame.parents] at hq

/-- There is no room for the sender. -/
lemma candidateParent_none (h : s.Owned) (hcandidate : s.candidateParent d from_ dio = (none, s')) :
    Shrinks d s s' ∧ (s'.dagTable d).preferredParent = (s.dagTable d).preferredParent := by
  unfold candidateParent at hcandidate
  split at hcandidate
  · simp only at hcandidate
    split_ifs at hcandidate
    · obtain ⟨hshrinks, hpreferred⟩ := removeWorstParent_shrinks h d dio.rank
      obtain ⟨hadd, hpreferred'⟩ := rplAddParent_shrinks hshrinks.owned hcandidate
      exact ⟨hshrinks.trans hadd, hpreferred'.trans hpreferred⟩
    · exact rplAddParent_shrinks h hcandidate
  · cases hcandidate

/-- No two parents are neither `p` nor the preferred one. -/
def OneStranger (s : Node cfg) (d : cfg.DagRef) (p : cfg.ParentRef) : Prop :=
  ∀ q ∈ (s.dagTable d).parents, ∀ r ∈ (s.dagTable d).parents, q ≠ p → r ≠ p →
    (s.dagTable d).preferredParent ≠ some q → (s.dagTable d).preferredParent ≠ some r → q = r

/-- **Pruning.**  One removal is enough where there is one stranger. -/
lemma pruneParents_mem (h : s.Owned) (hstranger : s.OneStranger d p) {q : cfg.ParentRef}
    (hq : q ∈ ((s.pruneParents d p).dagTable d).parents) :
    q = p ∨ (s.dagTable d).preferredParent = some q := by
  by_contra hstrange
  obtain ⟨hqp, hqpreferred⟩ := not_or.mp hstrange
  have hmem := (pruneParents_shrinks h d p).subset hq
  unfold pruneParents at hq
  split at hq
  · rename_i hnone
    have hq' := List.find?_eq_none.mp hnone q hmem
    simp only [ne_eq, decide_eq_true_eq, not_and, not_not] at hq'
    exact hqpreferred (hq' hqp).symm
  · rename_i r hfind
    have hr := List.find?_some hfind
    simp only [ne_eq, decide_eq_true_eq] at hr
    have hqr := hstranger q hmem r (List.mem_of_find?_eq_some hfind) hqp hr.1 hqpreferred
      fun heq => hr.2 heq.symm
    rw [rplRemoveParent_parents, Function.update_self, mem_listRemove (h.nodup d)] at hq
    exact hq.2 hqr

/-- A DIO in P2P mode leaves the candidate and the preferred parent. -/
lemma processCandidateParent_hears (h : s.Owned) (hmop : dio.mop = rplMopP2pRouteDiscovery)
    (haddr : (s.parent p).addr = from_) (hstranger : s.OneStranger d p) :
    Ensures (s.processCandidateParent d p dio) (Hears d from_ s) := by
  have hprune := pruneParents_shrinks h d p
  set s₁ := s.pruneParents d p with hs₁
  have hmem₁ : ∀ q ∈ (s₁.dagTable d).parents, q = p ∨ (s.dagTable d).preferredParent = some q :=
    fun q hq => pruneParents_mem h hstranger hq
  have hjudge : Ensures (s.judgeParent d p dio) fun r => Hears d from_ s r.2.2 := by
    unfold judgeParent compareRoute
    rw [if_pos hmop]
    have hset := Shrinks.then_same hprune (.modifyParent s₁ p (f := fun parent =>
      { parent with mc := dio.mc, rank := dio.rank }) fun _ => rfl)
    have hparents : ((s₁.modifyParent p fun parent =>
        { parent with mc := dio.mc, rank := dio.rank }).dagTable d).parents =
          (s₁.dagTable d).parents := rfl
    refine .bind (P := fun r => r.2 = s₁) ?_ ?_
    · exact .bind (fun _ _ => trivial) fun of _ => .ok rfl
    · rintro ⟨improved, _⟩ rfl
      refine .bind (rplProcessParentEvent_shrinks hset.owned d p) fun r hr => .ok ?_
      obtain ⟨hevent, hnone⟩ := hr
      have hshrinks := hset.trans hevent
      have hmem : ∀ q ∈ (r.2.dagTable d).parents, q = p ∨
          (s.dagTable d).preferredParent = some q :=
        fun q hq => hmem₁ q (hparents ▸ hevent.subset hq)
      refine ⟨?_, fun hpreferred => by simp [hnone hpreferred], fun q hq => ?_⟩
      · have hsub : (r.2.dagTable d).parents ⊆ p :: (s.dagTable d).preferredParent.toList :=
          fun q hq => by simpa using hmem q hq
        refine ((hshrinks.owned.nodup d).length_le_of_subset hsub).trans ?_
        cases (s.dagTable d).preferredParent <;> simp
      · obtain rfl | hpreferred := hmem q hq
        · exact .inl ((hshrinks.addr q).trans haddr)
        · exact .inr ⟨hpreferred, hshrinks.addr q⟩
  unfold processCandidateParent
  refine .bind hjudge ?_
  rintro ⟨improved, stays, s₂⟩ hears
  simp only
  split_ifs
  · refine .bind (processP2pDio_same s₂ d p dio improved) fun s₃ hs₃ => .ok ?_
    exact hears.then_same (hs₃.trans (.modifyParent s₃ p fun _ => rfl))
  · exact .ok hears

/-! ### All DIOs -/

/-- A DIO that brings its sender into consideration as a parent of a P2P DAG is itself in P2P
mode. -/
def HeardInMode (s : Node cfg) : Event cfg → Prop
  | .processDio from_ dio => ∀ d, s.CandidateStage from_ dio d →
      (s.dagTable d).mop = rplMopP2pRouteDiscovery → dio.mop = rplMopP2pRouteDiscovery
  | _ => True

/-- At most two parents, and at most one where none is preferred. -/
structure Few (s : Node cfg) (d : cfg.DagRef) : Prop where
  two : (s.dagTable d).parents.length ≤ 2
  alone : (s.dagTable d).preferredParent = none → (s.dagTable d).parents.length ≤ 1

/-- Two parents that are not preferred are the same. -/
lemma Few.stranger_eq (h : s.Few d) (howned : s.Owned) {q r : cfg.ParentRef}
    (hq : q ∈ (s.dagTable d).parents) (hr : r ∈ (s.dagTable d).parents)
    (hq' : (s.dagTable d).preferredParent ≠ some q)
    (hr' : (s.dagTable d).preferredParent ≠ some r) : q = r := by
  by_contra hne
  cases hpreferred : (s.dagTable d).preferredParent with
  | none =>
      have hsub : [q, r] ⊆ (s.dagTable d).parents := by simp [hq, hr]
      have hlength := (List.nodup_cons.mpr ⟨by simpa using hne, List.nodup_singleton r⟩
        ).length_le_of_subset hsub
      have halone := h.alone hpreferred
      simp only [List.length_cons, List.length_nil] at hlength
      omega
  | some x =>
      rw [hpreferred, ne_eq, Option.some.injEq] at hq' hr'
      have hsub : [x, q, r] ⊆ (s.dagTable d).parents := by
        simp [hq, hr, howned.preferred d x hpreferred]
      have hlength := (by simp [hq', hr', hne] : [x, q, r].Nodup).length_le_of_subset hsub
      have htwo := h.two
      simp only [List.length_cons, List.length_nil] at hlength
      omega

lemma processCandidate_hears (h : s.Owned) (hused : (s.dagTable d).used = true) (hfew : s.Few d)
    (hmop : dio.mop = rplMopP2pRouteDiscovery)
    (hcandidate : s.candidateParent d from_ dio = (some p, s')) :
    Ensures (s.processCandidate d from_ dio) (Hears d from_ s) := by
  have hspec := candidateParent_spec h hused hcandidate
  have hstranger : s'.OneStranger d p := by
    intro q hq r hr hqp hrp hq' hr'
    rw [hspec.preferred] at hq' hr'
    exact hfew.stranger_eq h (hspec.others q hq hqp) (hspec.others r hr hrp) hq' hr'
  unfold processCandidate
  rw [hcandidate]
  refine .mono (processCandidateParent_hears hspec.owned hmop hspec.addr hstranger) fun s'' hears => ?_
  refine ⟨hears.two, hears.alone, fun q hq => ?_⟩
  obtain haddr | ⟨hpreferred, haddr⟩ := hears.known q hq
  · exact .inl haddr
  · by_cases hqp : q = p
    · subst hqp
      exact .inl (haddr.trans hspec.addr)
    · exact .inr ⟨hspec.preferred.symm.trans hpreferred, haddr.trans (hspec.kept q hqp)⟩

lemma processCandidateParent_spares (h : s.Owned) (p : cfg.ParentRef) (dio : Dio) (hd : d' ≠ d) :
    Ensures (s.processCandidateParent d p dio) (Spares d' s) := by
  unfold processCandidateParent
  refine .bind (.and (judgeParent_shrinks h d p dio) (judgeParent_frame s d p dio)) ?_
  rintro ⟨improved, stays, s₁⟩ ⟨⟨hshrinks, -⟩, hframe⟩
  have hspares : Spares d' s s₁ := .of_eq (hframe.other d' hd) fun q _ => hshrinks.addr q
  simp only
  split_ifs
  · refine .bind (processP2pDio_same s₁ d p dio improved) fun s₂ hs₂ => .ok ?_
    have hdtsn : SameFamilies s₂ (s₂.modifyParent p fun parent => { parent with dtsn := dio.dtsn }) :=
      .modifyParent s₂ p (by intro; rfl)
    exact hspares.trans (.of_same (hs₂.trans hdtsn) d')
  · exact .ok hspares

/-- What the candidate stage of `d` does to another DAG, and to `d` where there is no room for the
candidate. -/
lemma processCandidate_spares (h : s.Owned) (hused : (s.dagTable d).used = true)
    (hnone : d' = d → ∀ p s₁, s.candidateParent d from_ dio ≠ (some p, s₁)) :
    Ensures (s.processCandidate d from_ dio) (Spares d' s) := by
  have hframe := candidateParent_frame s d from_ dio
  unfold processCandidate
  split
  · rename_i s₁ hcandidate
    obtain ⟨hshrinks, hpreferred⟩ := candidateParent_none h hcandidate
    rw [hcandidate] at hframe
    refine .ok ?_
    by_cases hd : d' = d
    · exact hd ▸ ⟨hshrinks.sublist, fun q _ => hshrinks.addr q, hframe.mop d, hpreferred⟩
    · exact .of_eq (hframe.other d' hd) fun q _ => hshrinks.addr q
  · rename_i p s₁ hcandidate
    have hd : d' ≠ d := fun hd => hnone hd p s₁ hcandidate
    rw [hcandidate] at hframe
    have hspec := candidateParent_spec h hused hcandidate
    have hother := hframe.other d' hd
    refine .mono (processCandidateParent_spares hspec.owned p dio hd) fun s₂ hs₂ =>
      (Spares.of_eq hother fun q hq => hspec.kept q ?_).trans hs₂
    rintro rfl
    exact hspec.owned.notMem_other hd (hother ▸ hq) hspec.mem

/-- **A DIO and the parents of a P2P DAG.** -/
lemma rplProcessDio_parents (h : s.Owned)
    (hjoined : ∀ d, (s.dagTable d).joined = true → (s.dagTable d).used = true)
    (hmode : s.HeardInMode (.processDio from_ dio))
    (hfew : (s.dagTable d).mop = rplMopP2pRouteDiscovery → s.Few d)
    (hdio : s.rplProcessDio from_ dio = .ok s')
    (hmop : (s'.dagTable d).mop = rplMopP2pRouteDiscovery) :
    (s.Considers from_ dio d → Hears d from_ s s') ∧ (¬s.Considers from_ dio d → Spares d s s') := by
  have hused : ∀ {d dagId}, s.rplGetDag dio.instanceId dagId = some d → (s.dagTable d).used = true :=
    fun hget => hjoined _ (rplGetDag_eq_some hget).1
  refine ⟨fun hconsiders => ?_, fun hconsiders => ?_⟩
  · cases hconsiders with
    | join htried halloc =>
        rw [rplProcessDio_of_joinTried htried] at hdio
        obtain hnil | ⟨p, hparents, haddr⟩ := (joinDag_joinsWith h halloc s' hdio).hears
        · exact .of_nil hnil
        · exact .of_singleton hparents haddr
    | repair hnew =>
        rw [rplProcessDio_of_newVersion hnew] at hdio
        obtain ⟨-, -, hnil | ⟨p, hparents, haddr⟩⟩ :=
          globalRepair_spec h (hused hnew.dag) from_ dio s' hdio
        · exact .of_nil hnil
        · exact .of_singleton hparents haddr
    | candidate hstage hcandidate =>
        rw [rplProcessDio_of_candidateStage hstage] at hdio
        have hsame := SameFamilies.of_still (resetIfInfinite_still s d dio)
        have hmop₀ : (s.dagTable d).mop = rplMopP2pRouteDiscovery := by
          rw [← hmop, ← hsame.mop d]
          have hslots := processCandidate_slots _ d from_ dio s' hdio
          exact (congrArg (fun σ => (Slots.slot σ d).mop) hslots).symm
        have hfew₁ : (s.resetIfInfinite d dio).Few d := by
          refine ⟨?_, ?_⟩
          · rw [hsame.parents]; exact (hfew hmop₀).two
          · rw [hsame.parents, hsame.preferredParent]; exact (hfew hmop₀).alone
        have hears := processCandidate_hears (h.congr hsame)
          ((hsame.used d).trans (hused hstage.dag)) hfew₁ (hmode d hstage hmop₀) hcandidate s' hdio
        exact hears.of_same_start hsame
  · have hfate := s.rplProcessDio_fate from_ dio
    generalize s.rplProcessDio from_ dio = result at hfate hdio
    cases hfate with
    | ignored hstill =>
        cases hdio
        exact .of_same (.of_still hstill) d
    | join htried =>
        cases halloc : s.rplAllocDag dio.instanceId with
        | none =>
            rw [joinDag, halloc] at hdio
            cases hdio
            exact .refl d s
        | some r =>
            obtain ⟨d₀, s₁⟩ := r
            refine (joinDag_joinsWith h halloc s' hdio).other d fun hd => hconsiders ?_
            exact .join htried (hd ▸ halloc)
    | @repair d₀ hnew =>
        have hd : d ≠ d₀ := fun hd => hconsiders (hd ▸ .repair hnew)
        exact globalRepair_spares h (hused hnew.dag) hd s' hdio
    | @candidate d₀ hstage =>
        have hsame := SameFamilies.of_still (resetIfInfinite_still s d₀ dio)
        have hused₁ := (hsame.used d₀).trans (hused hstage.dag)
        refine (Spares.of_same hsame d).trans ?_
        refine processCandidate_spares (h.congr hsame) hused₁ ?_ s' hdio
        rintro rfl p s₁ hcandidate
        exact hconsiders (.candidate hstage hcandidate)
    | noExtension | noRdo => cases hdio

end Node

/-! ## Nodes with history -/

/-- A node with what the source does not record: for each DAG, the sender of the latest DIO that was
considered as a parent, and the parent that was preferred before the present one. -/
structure Traced (cfg : Config) where
  node : Node cfg
  latest : cfg.DagRef → Option IpAddr
  previous : cfg.DagRef → Option IpAddr

namespace Node

variable {cfg : Config} {s s' : Node cfg} {d : cfg.DagRef}

open Classical in
/-- The sender of the latest DIO for `d`, after an event. -/
noncomputable def latestAfter (s : Node cfg) (d : cfg.DagRef) (latest : Option IpAddr) :
    Event cfg → Option IpAddr
  | .processDio from_ dio => if s.Considers from_ dio d then some from_ else latest
  | _ => latest

/-- The parent of `d` that was preferred before, after a step from `s` to `s'`. -/
def previousAfter (s s' : Node cfg) (d : cfg.DagRef) (previous : Option IpAddr) : Option IpAddr :=
  if (s'.dagTable d).preferredParent = (s.dagTable d).preferredParent then previous
  else (s.dagTable d).preferredParent.map fun p => (s.parent p).addr

/-- Every parent of `d` is the preferred one, the sender of the latest DIO, or the one that was
preferred before. -/
def Known (s : Node cfg) (d : cfg.DagRef) (latest previous : Option IpAddr) : Prop :=
  ∀ p ∈ (s.dagTable d).parents, (s.dagTable d).preferredParent = some p ∨
    latest = some (s.parent p).addr ∨ previous = some (s.parent p).addr

/-- A parent that was preferred and is not any more is the one that was preferred before. -/
lemma previousAfter_of_preferred {p : cfg.ParentRef} {previous : Option IpAddr}
    (h : (s.dagTable d).preferredParent = some p) (h' : (s'.dagTable d).preferredParent ≠ some p) :
    s.previousAfter s' d previous = some (s.parent p).addr := by
  rw [previousAfter, if_neg (by rw [h]; exact h'), h]
  rfl

lemma Thins.few (h : Thins d s s') (hfew : s.Few d) : s'.Few d where
  two := h.sublist.length_le.trans hfew.two
  alone hnone := by
    obtain hnil | ⟨-, hpreferred⟩ := h.kept
    · simp [hnil]
    · exact h.sublist.length_le.trans (hfew.alone (hpreferred hnone))

lemma Thins.known {latest previous : Option IpAddr} (h : Thins d s s') (howned : s.Owned)
    (howned' : s'.Owned) (hfew : s.Few d) (hknown : s.Known d latest previous) :
    s'.Known d latest (s.previousAfter s' d previous) := by
  intro p hp
  rw [h.addr p hp]
  by_cases hp' : (s'.dagTable d).preferredParent = some p
  · exact .inl hp'
  obtain hpreferred | hlatest | hprevious := hknown p (h.sublist.subset hp)
  · exact .inr (.inr (previousAfter_of_preferred hpreferred hp'))
  · exact .inr (.inl hlatest)
  · by_cases hpreferred : (s.dagTable d).preferredParent = some p
    · exact .inr (.inr (previousAfter_of_preferred hpreferred hp'))
    · refine .inr (.inr ?_)
      rw [previousAfter, if_pos, hprevious]
      -- a change would leave two parents that were not preferred
      by_contra hchange
      obtain hnil | ⟨-, hkept⟩ := h.kept
      · rw [hnil] at hp
        cases hp
      cases hq : (s'.dagTable d).preferredParent with
      | none => exact hchange (hq.trans (hkept hq).symm)
      | some q =>
          have hmem := h.sublist.subset (howned'.preferred d q hq)
          have heq := hfew.stranger_eq howned (h.sublist.subset hp) hmem hpreferred
            fun heq => hchange (hq.trans heq.symm)
          exact hp' (heq ▸ hq)

lemma Hears.known_after {from_ : IpAddr} {previous : Option IpAddr} (h : Hears d from_ s s') :
    s'.Known d (some from_) (s.previousAfter s' d previous) := by
  intro p hp
  obtain haddr | ⟨hpreferred, haddr⟩ := h.known p hp
  · exact .inr (.inl (congrArg some haddr.symm))
  · by_cases hp' : (s'.dagTable d).preferredParent = some p
    · exact .inl hp'
    · rw [haddr]
      exact .inr (.inr (previousAfter_of_preferred hpreferred hp'))

end Node

namespace Traced

variable {cfg : Config} {t t' : Traced cfg}

/-- The effect of an event, with the history. -/
noncomputable def next (t : Traced cfg) (e : Event cfg) : Except Fault (Traced cfg) :=
  (t.node.next e).map fun s' =>
    { node := s'
      latest := fun d => t.node.latestAfter d (t.latest d) e
      previous := fun d => t.node.previousAfter s' d (t.previous d) }

/-- A node after start-up has no history. -/
structure Initial (t : Traced cfg) : Prop where
  node : t.node.Initial
  latest : ∀ d, t.latest d = none
  previous : ∀ d, t.previous d = none

/-- The parents of every P2P DAG are few and known. -/
structure FewParents (t : Traced cfg) : Prop where
  few : ∀ d, (t.node.dagTable d).mop = rplMopP2pRouteDiscovery → t.node.Few d
  known : ∀ d, (t.node.dagTable d).mop = rplMopP2pRouteDiscovery →
    t.node.Known d (t.latest d) (t.previous d)

lemma fewParents_of_thins {s s' : Node cfg} {d : cfg.DagRef} {latest previous : Option IpAddr}
    (h : s.Thins d s') (howned : s.Owned) (howned' : s'.Owned)
    (hfew : (s.dagTable d).mop = rplMopP2pRouteDiscovery → s.Few d ∧ s.Known d latest previous)
    (hmop : (s'.dagTable d).mop = rplMopP2pRouteDiscovery) :
    s'.Few d ∧ s'.Known d latest (s.previousAfter s' d previous) := by
  obtain hnil | ⟨hkept, -⟩ := h.kept
  · exact ⟨⟨by simp [hnil], fun _ => by simp [hnil]⟩, fun p hp => by rw [hnil] at hp; cases hp⟩
  · obtain ⟨hfew, hknown⟩ := hfew (hkept.symm.trans hmop)
    exact ⟨h.few hfew, h.known howned howned' hfew hknown⟩

lemma fewParents_step (ht : t.FewParents) (howned : t.node.Owned)
    (hjoined : ∀ d, (t.node.dagTable d).joined = true → (t.node.dagTable d).used = true)
    {e : Event cfg} (hok : t.node.HeardInMode e) (h : t.next e = .ok t') : t'.FewParents := by
  obtain ⟨s', hnext, rfl⟩ := map_eq_ok.mp h
  have howned' := Node.owned_step howned hjoined hnext
  have hboth : ∀ d, (s'.dagTable d).mop = rplMopP2pRouteDiscovery →
      s'.Few d ∧ s'.Known d (t.node.latestAfter d (t.latest d) e)
        (t.node.previousAfter s' d (t.previous d)) := by
    intro d hmop
    have hold := fun hmop => And.intro (ht.few d hmop) (ht.known d hmop)
    by_cases hdio : ∃ from_ dio, e = .processDio from_ dio
    · obtain ⟨from_, dio, rfl⟩ := hdio
      obtain ⟨packets, hstep⟩ := Node.next_eq_ok.mp hnext
      obtain ⟨s'', hdio, hs''⟩ := map_eq_ok.mp hstep
      cases hs''
      obtain ⟨hears, hspares⟩ :=
        Node.rplProcessDio_parents howned hjoined hok (ht.few d) hdio hmop
      by_cases hconsiders : t.node.Considers from_ dio d
      · rw [Node.latestAfter, if_pos hconsiders]
        exact ⟨⟨(hears hconsiders).two, (hears hconsiders).alone⟩, (hears hconsiders).known_after⟩
      · rw [Node.latestAfter, if_neg hconsiders]
        exact fewParents_of_thins (hspares hconsiders).thins howned howned' hold hmop
    · have hother : ∀ from_ dio, e ≠ .processDio from_ dio :=
        fun from_ dio he => hdio ⟨from_, dio, he⟩
      have hlatest : t.node.latestAfter d (t.latest d) e = t.latest d := by
        cases e <;> first | rfl | exact absurd rfl (hother _ _)
      rw [hlatest]
      exact fewParents_of_thins (Node.next_thins howned hother hnext d) howned howned' hold hmop
  exact ⟨fun d hmop => (hboth d hmop).1, fun d hmop => (hboth d hmop).2⟩

/-- The runs of nodes with history are the runs of nodes. -/
lemma node_reachable {ok : Node cfg → Event cfg → Prop}
    (ht : Reaches next (fun t e => ok t.node e) Initial t) : t.node.ReachableBy ok := by
  refine ht.invariant (I := fun t => t.node.ReachableBy ok) (fun _ h₀ => .initial h₀.node) ?_
  intro t e t' hs hok h
  obtain ⟨s', hnext, rfl⟩ := map_eq_ok.mp h
  exact hs.tail hok hnext

lemma exists_of_reachable {ok : Node cfg → Event cfg → Prop} {s : Node cfg}
    (hs : s.ReachableBy ok) :
    ∃ t : Traced cfg, Reaches next (fun t e => ok t.node e) Initial t ∧ t.node = s := by
  refine hs.invariant (I := fun s => ∃ t : Traced cfg,
    Reaches next (fun t e => ok t.node e) Initial t ∧ t.node = s)
    (fun s₀ h₀ => ⟨⟨s₀, fun _ => none, fun _ => none⟩, .initial ⟨h₀, fun _ => rfl, fun _ => rfl⟩, rfl⟩)
    ?_
  rintro s e s' ⟨t, ht, rfl⟩ hok h
  exact ⟨_, ht.tail hok (map_eq_ok.mpr ⟨s', h, rfl⟩), rfl⟩

/-- **The parents of a P2P DAG.**  In a run in which the sender of a DIO comes into consideration as
a parent of a P2P DAG only if the DIO is in P2P mode, a P2P DAG has at most two parents in every
state, each of them the preferred one, the sender of the latest DIO, or the one that was preferred
before; and a parent that a DIO makes the preferred one is its sender. -/
theorem p2p_parents (ht : Reaches next (fun t e => t.node.HeardInMode e) Initial t) :
    (∀ d, (t.node.dagTable d).mop = rplMopP2pRouteDiscovery →
      (t.node.dagTable d).parents.length ≤ 2 ∧ ∀ p ∈ (t.node.dagTable d).parents,
        (t.node.dagTable d).preferredParent = some p ∨
          t.latest d = some (t.node.parent p).addr ∨ t.previous d = some (t.node.parent p).addr) ∧
    ∀ from_ dio s', t.node.HeardInMode (.processDio from_ dio) →
      t.node.rplProcessDio from_ dio = .ok s' → ∀ d p,
        (s'.dagTable d).mop = rplMopP2pRouteDiscovery →
        (s'.dagTable d).preferredParent = some p →
        (s'.parent p).addr = from_ ∨ (t.node.dagTable d).preferredParent = some p ∧
          (s'.parent p).addr = (t.node.parent p).addr := by
  have howned := Node.reachable_owned (node_reachable ht)
  have hjoined := Node.reachable_joined_used (node_reachable ht)
  have hfew : t.FewParents := by
    have hboth := ht.invariant (I := fun t => t.FewParents ∧ t.node.Owned ∧
        ∀ d, (t.node.dagTable d).joined = true → (t.node.dagTable d).used = true) ?_ ?_
    · exact hboth.1
    · intro t h₀
      have hmop : ∀ d, (t.node.dagTable d).mop ≠ rplMopP2pRouteDiscovery := fun d => by
        rw [h₀.node.dagTable]
        exact (by decide : (0 : UInt8) ≠ rplMopP2pRouteDiscovery)
      refine ⟨⟨fun d h => absurd h (hmop d), fun d h => absurd h (hmop d)⟩, .initial h₀.node, ?_⟩
      intro d hjoined
      rw [h₀.node.dagTable] at hjoined
      cases hjoined
    · rintro t e t' ⟨hfew, howned, hjoined⟩ hok h
      refine ⟨fewParents_step hfew howned hjoined hok h, ?_⟩
      obtain ⟨s', hnext, rfl⟩ := map_eq_ok.mp h
      exact ⟨Node.owned_step howned hjoined hnext, Node.joined_used_step hjoined hnext⟩
  refine ⟨fun d hmop => ⟨(hfew.few d hmop).two, hfew.known d hmop⟩, ?_⟩
  intro from_ dio s' hmode hdio d p hmop hp
  obtain ⟨hears, hspares⟩ := Node.rplProcessDio_parents howned hjoined hmode (hfew.few d) hdio hmop
  have hmem := (Node.rplProcessDio_owned howned hjoined from_ dio s' hdio).preferred d p hp
  by_cases hconsiders : t.node.Considers from_ dio d
  · exact (hears hconsiders).known p hmem
  · have hkept := hspares hconsiders
    exact .inr ⟨hkept.preferred ▸ hp, hkept.addr p hmem⟩

/-- The senders 3 and 4 of two more DIOs come into consideration; the second takes the place of the
first beside the preferred parent 1. -/
theorem p2p_parents_joined : ∃ t : Traced .default,
    Reaches next (fun t e => t.node.HeardInMode e) Initial t ∧
      (t.node.dagTable 0).parents.map (fun p => (t.node.parent p).addr) =
        [Node.nodeLinkLocal 1, Node.nodeLinkLocal 4] ∧
      (t.node.dagTable 0).parents.length ≤ 2 ∧ ∀ p ∈ (t.node.dagTable 0).parents,
        (t.node.dagTable 0).preferredParent = some p ∨
          t.latest 0 = some (t.node.parent p).addr ∨ t.previous 0 = some (t.node.parent p).addr := by
  have hmode : ∀ e ∈ [Event.processDio (Node.nodeLinkLocal 1) (Node.discoveryDio 1 9 []),
      .processDio (Node.nodeLinkLocal 3) (Node.discoveryDio 1 9 []),
      .processDio (Node.nodeLinkLocal 4) (Node.discoveryDio 1 9 [])],
      ∀ s : Node .default, s.HeardInMode e := by
    simp only [List.mem_cons, List.not_mem_nil, or_false]
    rintro e (rfl | rfl | rfl) s d - - <;> rfl
  obtain ⟨s, hs, hslot⟩ := Node.exists_reachableBy 2 _
    (fun s => ((s.dagTable 0).mop, (s.dagTable 0).parents.map fun p => (s.parent p).addr))
    (a := (rplMopP2pRouteDiscovery, [Node.nodeLinkLocal 1, Node.nodeLinkLocal 4])) hmode
    (by decide +kernel)
  simp only [Prod.mk.injEq] at hslot
  obtain ⟨t, ht, rfl⟩ := exists_of_reachable hs
  exact ⟨t, ht, hslot.2, (p2p_parents ht).1 0 hslot.1⟩

/-- The senders of DIOs in the default mode are added to the parents of a P2P DAG, and none is
taken away. -/
theorem not_p2p_parents : ¬∀ t : Traced .default, Reaches next anyEvent Initial t →
    ∀ d, (t.node.dagTable d).mop = rplMopP2pRouteDiscovery →
      (t.node.dagTable d).parents.length ≤ 2 := by
  intro hclaim
  obtain ⟨s, hs, hslot⟩ := Node.exists_reachable 2
    [.processDio (Node.nodeLinkLocal 1) (Node.discoveryDio 1 9 []),
      .processDio (Node.nodeLinkLocal 3) { Node.discoveryDio 1 9 [] with mop := rplMopDefault },
      .processDio (Node.nodeLinkLocal 4) { Node.discoveryDio 1 9 [] with mop := rplMopDefault }]
    (fun s => ((s.dagTable 0).mop, (s.dagTable 0).parents.length))
    (a := (rplMopP2pRouteDiscovery, 3)) (by decide +kernel)
  simp only [Prod.mk.injEq] at hslot
  obtain ⟨t, ht, rfl⟩ := exists_of_reachable hs
  have htwo := hclaim t ht 0 hslot.1
  rw [hslot.2] at htwo
  omega

end Traced
end Contiki

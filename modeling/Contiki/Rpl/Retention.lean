import Contiki.Rpl.Extensions

/-!
# The retention of expired P2P DAGs

`rpl_p2p_purge_dags` marks a P2P DAG expired when its lifetime has run out, and from then on counts
down for another `rpl_p2p_lt2sec (rdo_lifetime) + 10` ticks before it frees the DAG.  The countdown
is kept in the field that was the lifetime before, which `dro_output` clears.

`Retained` says that an expired DAG is still known, `RetainsDag` that neither it nor its countdown was
touched.  Every event but the purge keeps it (`next_keeps`), unless the DRO timer of the DAG fires
with a reply to send; a run that waits for the purge is a `Retention`.
-/

namespace Contiki

variable {cfg : Config}

/-- What the retention of an extension depends on. -/
def DagP2p.retention (p2p : DagP2p cfg) : Option cfg.DagRef × Bool × UInt16 × UInt8 :=
  (p2p.dag, p2p.expired, p2p.lifetime, p2p.rdoLifetime)

namespace Node

variable {s s' s'' : Node cfg} {d : cfg.DagRef} {e : cfg.P2pRef} {σ : DagSlot cfg}

/-! ## Changes of one extension -/

/-- At most the extension `o` is changed. -/
def OnlyExt (o : Option cfg.P2pRef) (s s' : Node cfg) : Prop :=
  ∀ e, o ≠ some e → s'.dagP2pTable e = s.dagP2pTable e

namespace OnlyExt
variable {o : Option cfg.P2pRef}

lemma of_eq (h : s'.dagP2pTable = s.dagP2pTable) : OnlyExt o s s' := fun e _ => by rw [h]

lemma trans (h : OnlyExt o s s') (h' : OnlyExt o s' s'') : OnlyExt o s s'' :=
  fun e he => (h' e he).trans (h e he)

lemma modifyP2p (s : Node cfg) (e : cfg.P2pRef) (f : DagP2p cfg → DagP2p cfg) :
    OnlyExt (some e) s (s.modifyP2p e f) := by
  intro e' he
  have hne : e' ≠ e := fun h => he (h ▸ rfl)
  simp [hne]

end OnlyExt

lemma freeAddrList_only (s : Node cfg) (e : cfg.P2pRef) (i : Fin rplP2pMaxPartialRoutes) :
    OnlyExt (some e) s (s.freeAddrList e i) := by
  unfold freeAddrList setPartialRoute
  refine OnlyExt.trans ?_ (.modifyP2p _ e _)
  exact .of_eq rfl

lemma freePartialRoutes_only (s : Node cfg) (e : cfg.P2pRef) :
    OnlyExt (some e) s (s.freePartialRoutes e) := by
  unfold freePartialRoutes
  induction List.finRange rplP2pMaxPartialRoutes generalizing s with
  | nil => exact .of_eq rfl
  | cons i rest ih => exact (freeAddrList_only s e i).trans (ih _)

lemma copyAddrs_only (s : Node cfg) (e : cfg.P2pRef) (i : Fin rplP2pMaxPartialRoutes)
    (addrs : List UInt8) : OnlyExt (some e) s (copyAddrs e i addrs s).2 := by
  induction addrs generalizing s with
  | nil => exact .of_eq rfl
  | cons addr rest ih =>
      unfold copyAddrs
      split
      · exact freeAddrList_only s e i
      · rename_i s' hadd
        have hs' : OnlyExt (some e) s s' := by
          unfold addSrcRouteAddr at hadd
          split at hadd
          · cases hadd
          · cases hadd
            unfold setPartialRoute
            refine OnlyExt.trans ?_ (.modifyP2p _ e _)
            exact .of_eq rfl
        exact hs'.trans (ih s')

lemma rplP2pAddPartialRoute_only (s : Node cfg) (d : cfg.DagRef) (e : cfg.P2pRef) (rdo : Rdo) :
    OnlyExt (some e) s (s.rplP2pAddPartialRoute d e rdo).2 := by
  unfold rplP2pAddPartialRoute
  split
  · exact .of_eq rfl
  · exact copyAddrs_only s e _ _

lemma rplP2pUpdateDag_only (s : Node cfg) (d : cfg.DagRef) (dio : Dio) :
    Ensures (s.rplP2pUpdateDag d dio) (OnlyExt (s.dagTable d).p2p s) := by
  unfold rplP2pUpdateDag
  refine .bind (fun e he => deref_eq_ok.mp he) fun e he => ?_
  refine .bind (fun _ _ => trivial) fun rdo _ => ?_
  refine .bind (fun _ _ => trivial) fun _ _ => .ok ?_
  rw [he]
  exact ((OnlyExt.modifyP2p s e _).trans (freePartialRoutes_only _ e)).trans
    (rplP2pAddPartialRoute_only _ d e rdo)

lemma rplP2pProcessTarget_only (s : Node cfg) (d : cfg.DagRef) :
    Ensures (s.rplP2pProcessTarget d) (OnlyExt (s.dagTable d).p2p s) := by
  unfold rplP2pProcessTarget
  refine .bind (fun e he => deref_eq_ok.mp he) fun e he => ?_
  refine .bind (fun _ _ => trivial) fun target _ => ?_
  rw [he]
  split_ifs
  · simp only
    split_ifs
    · exact .ok (.of_eq rfl)
    · exact .ok (OnlyExt.modifyP2p (s.stopDioTimer d) e _)
  · exact .ok (.of_eq rfl)

lemma cacheAlternative_only (s : Node cfg) (d : cfg.DagRef) (dio : Dio) :
    Ensures (s.cacheAlternative d dio) (OnlyExt (s.dagTable d).p2p s) := by
  unfold cacheAlternative
  refine .bind (fun e he => deref_eq_ok.mp he) fun e he => ?_
  refine .bind (fun _ _ => trivial) fun rdo _ => ?_
  rw [he]
  split_ifs
  · exact .bind (fun _ _ => trivial) fun _ _ => .ok (rplP2pAddPartialRoute_only s d e rdo)
  · exact .ok (.of_eq rfl)

lemma trickleP2p_only (s : Node cfg) (of : ObjectiveFunction) (d : cfg.DagRef) (p : cfg.ParentRef)
    (dio : Dio) (improved : Bool) :
    Ensures (s.trickleP2p of d p dio improved) (OnlyExt (s.dagTable d).p2p s) := by
  unfold trickleP2p
  split_ifs
  · unfold adoptRoute
    refine .bind (fun _ _ => trivial) fun _ _ => ?_
    refine .bind (rplP2pUpdateDag_only s d dio) fun s' hs' => .ok ?_
    exact hs'.trans (.of_eq (rplResetDioTimer_frame s' d true).dagP2pTable)
  · have hcount := s.countConsistent_frame d p
    have hp2p : ((s.countConsistent d p).dagTable d).p2p = (s.dagTable d).p2p :=
      congrArg DagSlot.p2p hcount.slot
    unfold considerRoute
    simp only
    split_ifs
    · refine .mono (cacheAlternative_only _ d dio) fun s' hs' => ?_
      rw [hp2p] at hs'
      exact (OnlyExt.of_eq hcount.dagP2pTable).trans hs'
    · exact .ok (.of_eq hcount.dagP2pTable)
  · exact .ok (.of_eq rfl)

/-- What a DIO of a DAG that was joined changes about extensions is that of the DAG. -/
lemma processCandidate_only (s : Node cfg) (d : cfg.DagRef) (from_ : IpAddr) (dio : Dio) :
    Ensures (s.processCandidate d from_ dio) (OnlyExt (s.dagTable d).p2p s) := by
  have hcandidate := candidateParent_frame s d from_ dio
  unfold processCandidate
  split <;> rename_i heq <;> rw [heq] at hcandidate
  · exact .ok (.of_eq hcandidate.dagP2pTable)
  · unfold processCandidateParent
    refine .bind (judgeParent_frame _ d _ dio) ?_
    rintro ⟨improved, stays, s₁⟩ hjudge
    have hs₁ := hcandidate.trans hjudge
    have hp2p : (s₁.dagTable d).p2p = (s.dagTable d).p2p := congrArg DagSlot.p2p hs₁.slot
    have hext : OnlyExt (s.dagTable d).p2p s s₁ := .of_eq hs₁.dagP2pTable
    simp only
    split_ifs
    · refine .bind (P := OnlyExt (s.dagTable d).p2p s) ?_ fun s₃ hs₃ => .ok hs₃
      unfold processP2pDio
      split_ifs
      · refine .bind (fun _ _ => trivial) fun of _ => ?_
        refine .bind ((s₁.trickleP2p_only of d _ dio improved).and
          (s₁.trickleP2p_slots of d _ dio improved)) fun s₂ hs₂ => ?_
        have hp2p₂ : (s₂.dagTable d).p2p = (s₁.dagTable d).p2p :=
          congrArg (fun σ => (Slots.slot σ d).p2p) hs₂.2
        refine .mono (rplP2pProcessTarget_only s₂ d) fun s₃ hs₃ => ?_
        rw [hp2p₂, hp2p] at hs₃
        exact (hext.trans (hp2p ▸ hs₂.1)).trans hs₃
      · exact .ok hext
    · exact .ok hext

/-! ## New extensions -/

/-- The extensions that are not free are kept. -/
def KeepsOwned (s s' : Node cfg) : Prop :=
  ∀ e, ¬s.slots.EntryFree e → s'.dagP2pTable e = s.dagP2pTable e

lemma KeepsOwned.of_eq (h : s'.dagP2pTable = s.dagP2pTable) : KeepsOwned s s' :=
  fun e _ => by rw [h]

/-- An entry that is free after a slot was taken was free before. -/
lemma entryFree_of_modify {σ : Slots cfg} {slot : DagSlot cfg} (hused : slot.used = true)
    (h : (σ.modify d fun _ => slot).EntryFree e) : σ.EntryFree e := by
  intro d' howner
  have hd' := h d' howner
  by_cases hd : d' = d
  · subst hd
    simp [hused] at hd'
  · simpa [hd] using hd'

lemma rplP2pAllocDag_only {s s' : Node cfg} {d : cfg.DagRef} {e : cfg.P2pRef}
    (h : s.rplP2pAllocDag d = some (e, s')) :
    OnlyExt (some e) s s' ∧ s'.dagTable = s.dagTable := by
  unfold rplP2pAllocDag at h
  split at h
  · cases h
  · obtain ⟨rfl, rfl⟩ : _ = e ∧ _ = s' := by simpa using h
    refine ⟨fun e' he => ?_, rfl⟩
    have hne : e' ≠ _ := fun heq => he (heq ▸ rfl)
    simp [hne]

lemma rplFreeDag_ext (s : Node cfg) (d : cfg.DagRef) :
    (s.rplFreeDag d).dagP2pTable = s.dagP2pTable := by
  have hframe (s : Node cfg) := (rplRemoveParents_frame s d 0).trans
    ((rplSetDefaultRoute_frame _ d none).trans (stopDioTimer_frame _ d))
  unfold rplFreeDag
  refine (hframe _).dagP2pTable.trans ?_
  split_ifs <;> rfl

lemma dropDag_ext (s : Node cfg) (old : Option cfg.DagRef) :
    (s.dropDag old).dagP2pTable = s.dagP2pTable := by
  cases old with
  | none => rfl
  | some d => exact rplFreeDag_ext s d

lemma rplAllocDag_ext {s s' : Node cfg} {instanceId : UInt8} {d : cfg.DagRef}
    (h : s.rplAllocDag instanceId = some (d, s')) : s'.dagP2pTable = s.dagP2pTable := by
  unfold rplAllocDag at h
  split at h
  · cases h
  · obtain ⟨rfl, rfl⟩ : _ = d ∧ _ = s' := by simpa using h
    rfl

lemma rplSetDodagConfig_ext (s : Node cfg) (d : cfg.DagRef) (dcf : DodagConfig) :
    ((s.rplSetDodagConfig d dcf).getD s).dagP2pTable = s.dagP2pTable := by
  unfold rplSetDodagConfig
  split <;> rfl

lemma joinConfig_ext {s s' : Node cfg} {d : cfg.DagRef} {dio : Dio}
    (h : s.joinConfig d dio = some s') : s'.dagP2pTable = s.dagP2pTable := by
  unfold joinConfig at h
  split at h
  · cases h
    exact rplSetDodagConfig_ext s d _
  · have hext := rplSetDodagConfig_ext s d
    specialize hext (by assumption)
    rwa [h] at hext

lemma joinPrefix_ext (s : Node cfg) (d : cfg.DagRef) (dio : Dio) :
    (s.joinPrefix d dio).dagP2pTable = s.dagP2pTable := by
  unfold joinPrefix autoconfigure uipDs6AddrAdd
  split
  · rfl
  · simp only
    split_ifs
    · rfl
    · split
      · rfl
      · split <;> rfl

lemma enterDag_ext (s : Node cfg) (of : ObjectiveFunction) (d : cfg.DagRef) (p : cfg.ParentRef)
    (from_ : IpAddr) (dio : Dio) : (s.enterDag of d p from_ dio).dagP2pTable = s.dagP2pTable := by
  unfold enterDag
  exact ((rplResetDioTimer_frame _ d true).trans (rplSetDefaultRoute_frame _ d _)).dagP2pTable

/-- An extension for the DAG `d` that is joined is taken from the free entries. -/
lemma joinP2p_keepsOwned (s : Node cfg) (d : cfg.DagRef) (dio : Dio) :
    Ensures (s.joinP2p d dio) (KeepsOwned s) := by
  unfold joinP2p
  refine .bind (fun _ _ => trivial) fun rdo _ => ?_
  simp only
  split_ifs
  · exact .ok (.of_eq (rplFreeDag_ext s d))
  · split
    · exact .ok (.of_eq (rplFreeDag_ext s d))
    · rename_i e s₁ halloc
      have hfree := (rplP2pAllocDag_slots halloc).1
      have hs₁ := (rplP2pAllocDag_only halloc).1
      have hp2p : ((s₁.modifyDag d fun dag => { dag with p2p := some e }).dagTable d).p2p = some e := by
        simp
      refine .bind ((rplP2pUpdateDag_only _ d dio).and (rplP2pUpdateDag_frame _ d dio)) ?_
      rintro s₂ ⟨hs₂, hframe⟩
      rw [hp2p] at hs₂
      have hp2p₂ : (s₂.dagTable d).p2p = some e := (congrArg DagSlot.p2p (hframe.slot d)).trans hp2p
      refine .mono (rplP2pProcessTarget_only _ d) fun s₃ hs₃ e' he' => ?_
      rw [modifyP2p_dagTable, hp2p₂] at hs₃
      have hne : some e ≠ some e' := fun heq => he' ((by simpa using heq : e = e') ▸ hfree)
      have hlifetime := OnlyExt.modifyP2p s₂ e fun p2p =>
        { p2p with lifetime := rplP2pLt2sec p2p.rdoLifetime }
      have hs₂' : OnlyExt (some e) s₁ s₂ := hs₂
      exact (((hs₁.trans hs₂').trans hlifetime).trans hs₃) e' hne

lemma joinDag_keepsOwned (s : Node cfg) (from_ : IpAddr) (dio : Dio) :
    Ensures (s.joinDag from_ dio) (KeepsOwned s) := by
  unfold joinDag
  split
  · exact .ok (.of_eq rfl)
  · rename_i d s₁ halloc
    have hs₁ := rplAllocDag_ext halloc
    have hslots₁ := (rplAllocDag_slots halloc).2
    have hadd := rplAddParent_frame s₁ d dio from_
    split <;> rename_i heq <;> rw [heq] at hadd
    · exact .ok (.of_eq (hadd.dagP2pTable.trans hs₁))
    · rename_i p s₂
      have hs₂ := hadd.dagP2pTable.trans hs₁
      have hslots₂ : s₂.slots = s₁.slots := hadd.slots
      split
      · exact .ok (.of_eq hs₂)
      · rename_i s₃ hconfig
        have hs₃ := (joinConfig_ext hconfig).trans hs₂
        obtain ⟨of?, config, hslots₃, -⟩ := joinConfig_slots hconfig
        refine .bind (fun _ _ => trivial) fun of _ => ?_
        have hs₄ : ((s₃.joinPrefix d dio).enterDag of d p from_ dio).dagP2pTable = s.dagP2pTable :=
          (enterDag_ext _ of d p from_ dio).trans ((joinPrefix_ext s₃ d dio).trans hs₃)
        simp only
        split_ifs
        · refine .mono (joinP2p_keepsOwned _ d dio) fun s₅ hs₅ e he => ?_
          rw [← hs₄]
          refine hs₅ e fun hfree => he ?_
          rw [enterDag_slots, joinPrefix_slots, hslots₃, hslots₂, hslots₁, Slots.modify_modify,
            Slots.modify_modify] at hfree
          exact entryFree_of_modify (by rfl) hfree
        · exact .ok (.of_eq hs₄)

/-- An extension for a new discovery is taken from the free entries. -/
lemma startDiscovery_keepsOwned (s : Node cfg) (instanceId : UInt8) (process : Option ℕ)
    (target : IpAddr) :
    Ensures (s.startDiscovery instanceId process target) fun r => KeepsOwned s r.2 := by
  unfold startDiscovery
  split
  · exact .ok (.of_eq rfl)
  · rename_i d s₁ halloc
    have hs₁ := rplAllocDag_ext halloc
    have hslots₁ := (rplAllocDag_slots halloc).2
    split
    · exact .ok (.of_eq ((rplFreeDag_ext s₁ d).trans hs₁))
    · rename_i e s₂ hext
      have hfree : s.slots.EntryFree e := by
        have hfree := (rplP2pAllocDag_slots hext).1
        rw [hslots₁] at hfree
        exact entryFree_of_modify (by rfl) hfree
      refine .bind (fun _ _ => trivial) fun ownAddr _ => ?_
      refine .bind (fun _ _ => trivial) fun of _ => .ok ?_
      intro e' he'
      have hne : some e ≠ some e' := fun heq => he' ((by simpa using heq : e = e') ▸ hfree)
      have hs₂ := (rplP2pAllocDag_only hext).1 e' hne
      refine ((congrFun (rplResetDioTimer_frame _ d true).dagP2pTable e').trans ?_)
      refine (OnlyExt.modifyP2p _ e _ e' hne).trans ?_
      refine (congrFun (rplSetDodagConfig_ext _ d p2pDefaultDodagConfig) e').trans ?_
      exact hs₂.trans (congrFun hs₁ e')

lemma rplDiscoverRoute_keepsOwned (s : Node cfg) (process : Option ℕ) (target : IpAddr)
    (e : cfg.P2pRef) (he : ¬(s.slots.drop s.discoveryDrops).EntryFree e) :
    Ensures (s.rplDiscoverRoute process target) fun r =>
      r.2.dagP2pTable e = s.dagP2pTable e := by
  have hdrop : ({ s with instanceCounter := (s.instanceCounter + 1) % 0x40 }.dropDag
      s.discoveryDrops).slots = s.slots.drop s.discoveryDrops := dropDag_slots_eq _ _
  rw [← hdrop] at he
  refine .mono (startDiscovery_keepsOwned _ s.nextInstance process target) fun r hr => ?_
  exact (hr e he).trans (congrFun (dropDag_ext _ s.discoveryDrops) e)

lemma rplSetRoot_ext (s : Node cfg) (dagId : IpAddr) :
    Ensures (s.rplSetRoot dagId) fun s' => s'.dagP2pTable = s.dagP2pTable := by
  unfold rplSetRoot
  simp only
  split
  · exact .ok (dropDag_ext s _)
  · rename_i d s₁ halloc
    have hs₁ := (rplAllocDag_ext halloc).trans (dropDag_ext s _)
    refine .bind (fun _ _ => trivial) fun of _ => .ok ?_
    refine ((updateMetricContainer_frame _ of d).trans (rplResetDioTimer_frame _ d true)
      ).dagP2pTable.trans ?_
    exact (rplSetDodagConfig_ext _ d defaultDodagConfig).trans hs₁

/-! ## Messages -/

lemma chooseRoute_ext (s : Node cfg) (e : cfg.P2pRef) :
    (s.chooseRoute e).2.dagP2pTable = s.dagP2pTable := by
  unfold chooseRoute
  simp only
  split_ifs <;> rfl

lemma dioTail_ext (s : Node cfg) (d : cfg.DagRef) (of : ObjectiveFunction) :
    Ensures (s.dioTail d of) fun r => r.2.dagP2pTable = s.dagP2pTable := by
  unfold dioTail
  simp only
  split_ifs
  · refine .bind (fun _ _ => trivial) fun e _ => ?_
    have hchoose := chooseRoute_ext s e
    refine .bind (P := fun r => r.2.dagP2pTable = s.dagP2pTable) ?_ fun r hr => .ok hr
    unfold dioRdo
    simp only
    split_ifs
    · exact .bind (fun _ _ => trivial) fun _ _ => .ok hchoose
    · exact .error _
  · exact .ok rfl

lemma dioOutput_ext (s : Node cfg) (d : cfg.DagRef) (ucAddr : Option IpAddr) :
    Ensures (s.dioOutput d ucAddr) fun r => r.2.dagP2pTable = s.dagP2pTable := by
  unfold dioOutput
  refine .bind (fun _ _ => trivial) fun suppressed _ => ?_
  split_ifs
  · exact .ok rfl
  · refine .bind (fun _ _ => trivial) fun of _ => ?_
    have hs : ((s.countDtsn d).refreshMetric of d).dagP2pTable = s.dagP2pTable := by
      unfold refreshMetric countDtsn
      split_ifs <;> rfl
    refine .bind (fun _ _ => trivial) fun constr _ => ?_
    split
    · exact .ok hs
    · exact .bind (dioTail_ext _ d of) fun r hr => .ok (hr.trans hs)

lemma handleDioTimer_ext (s : Node cfg) (d : cfg.DagRef) :
    Ensures (s.handleDioTimer d) fun r => r.2.dagP2pTable = s.dagP2pTable := by
  unfold handleDioTimer
  split_ifs
  · exact .ok rfl
  · exact .ok rfl
  · refine .bind (P := fun r => r.2.dagP2pTable = s.dagP2pTable) ?_ fun r hr => .ok hr
    unfold sendDio
    split_ifs
    · exact dioOutput_ext _ d none
    · exact .ok rfl
  · exact .ok (newDioInterval_frame _ d).dagP2pTable

lemma disInput_ext (s : Node cfg) (src dst : IpAddr) :
    Ensures (s.disInput src dst) fun r => r.2.dagP2pTable = s.dagP2pTable := by
  unfold disInput
  split
  · exact .ok rfl
  · split_ifs
    · exact .ok (rplResetDioTimer_frame s _ false).dagP2pTable
    · exact dioOutput_ext s _ _

lemma rplAddRoute_ext (s : Node cfg) (dag : Option cfg.DagRef) (prefixAddr : IpAddr)
    (prefixLen : UInt8) (nextHop : IpAddr) :
    (s.rplAddRoute dag prefixAddr prefixLen nextHop).2.dagP2pTable = s.dagP2pTable := by
  have hnew : (s.addNewRoute prefixAddr prefixLen nextHop).2.dagP2pTable = s.dagP2pTable := by
    unfold addNewRoute
    split <;> rfl
  unfold rplAddRoute
  split
  · rfl
  · generalize s.addNewRoute prefixAddr prefixLen nextHop = added at hnew
    obtain ⟨rep, s'⟩ := added
    cases rep <;> exact hnew

lemma rplP2pAddHbhRoute_ext (s : Node cfg) (instanceId : UInt8) (dodagid target nexthop : IpAddr) :
    (s.rplP2pAddHbhRoute instanceId dodagid target nexthop).2.dagP2pTable = s.dagP2pTable := by
  have hadd := rplAddRoute_ext s (s.rplGetDag instanceId (some dodagid)) target 128 nexthop
  unfold rplP2pAddHbhRoute
  split <;> rename_i heq <;> rw [heq] at hadd <;> exact hadd

lemma droStoreRoute_ext (s : Node cfg) (dro : Dro) :
    (s.droStoreRoute dro).dagP2pTable = s.dagP2pTable := by
  unfold droStoreRoute
  split
  · exact rplP2pAddHbhRoute_ext s _ _ _ _
  · unfold rplP2pAddSrcRoute
    split
    · rfl
    · simp only
      split
      · rfl
      · split <;> rfl

lemma droStoreHop_ext {s s' : Node cfg} {dro : Dro} (h : s.droStoreHop dro = some s') :
    s'.dagP2pTable = s.dagP2pTable := by
  unfold droStoreHop at h
  split_ifs at h
  · split at h
    · split_ifs at h
      cases h
      rfl
    · cases h
      exact rplP2pAddHbhRoute_ext s _ _ _ _
  · cases h
    rfl

lemma droAtIntermediate_ext (s : Node cfg) (dst : IpAddr) (dro : Dro) :
    (s.droAtIntermediate dst dro).2.dagP2pTable = s.dagP2pTable := by
  unfold droAtIntermediate
  split_ifs
  · rfl
  · split
    · rfl
    · rename_i hstore
      exact droStoreHop_ext hstore

/-- A reply with the stop bit leaves extensions alone that are expired already. -/
lemma droInput_ext (s : Node cfg) (dst : IpAddr) (dro : Dro) {e : cfg.P2pRef}
    (he : (s.dagP2pTable e).expired = true) :
    Ensures (s.droInput dst dro) fun r => r.2.dagP2pTable e = s.dagP2pTable e := by
  unfold droInput
  refine .bind (P := fun s' => s'.dagP2pTable e = s.dagP2pTable e) ?_ fun s' hs' => ?_
  · unfold droStop
    split_ifs
    · split
      · exact .ok rfl
      · refine .bind (fun _ _ => trivial) fun e' _ => ?_
        split_ifs with hexpired
        · exact .ok rfl
        · have hne : e' ≠ e := by
            rintro rfl
            exact hexpired he
          exact .ok (OnlyExt.modifyP2p (s.stopDioTimer _) e' _ e (by simpa using hne))
    · exact .ok rfl
  · split_ifs
    · unfold droAtOrigin
      refine .bind (fun _ _ => trivial) fun _ _ => .ok ?_
      exact (congrFun (droStoreRoute_ext s' dro) e).trans hs'
    · exact .ok ((congrFun (droAtIntermediate_ext s' dst dro) e).trans hs')

lemma cacheDro_ext (s : Node cfg) (message : List UInt8) :
    (s.cacheDro message).dagP2pTable = s.dagP2pTable := by
  unfold cacheDro
  split_ifs
  · split <;> rfl
  · rfl

lemma droOutput_only (s : Node cfg) (d : cfg.DagRef) (addrs : List UInt8) :
    Ensures (s.droOutput d addrs) fun r => OnlyExt (s.dagTable d).p2p s r.2 := by
  unfold droOutput
  split
  · exact .ok (.of_eq rfl)
  · rename_i e hp2p
    rw [hp2p]
    refine .bind (fun _ _ => trivial) fun rdo _ => .ok ?_
    intro e' he'
    exact (congrFun (cacheDro_ext _ _) e').trans (OnlyExt.modifyP2p s e _ e' he')

/-- The replies of a DAG change its own extension. -/
lemma sendDrosFrom_only (s : Node cfg) (d : cfg.DagRef) (l : List (Fin rplP2pMaxPartialRoutes))
    (j : ℕ) : Ensures (sendDrosFrom d l j s) fun r => OnlyExt (s.dagTable d).p2p s r.2 := by
  induction l generalizing j s with
  | nil => exact .ok (.of_eq rfl)
  | cons i rest ih =>
      unfold sendDrosFrom
      refine .bind (fun _ _ => trivial) fun e _ => ?_
      simp only
      split_ifs
      · exact ih s j
      · have hback : OnlyExt (s.dagTable d).p2p s (s.backwardRoute d e j (s.routeAddrs d e i)) := by
          refine .of_eq ?_
          unfold backwardRoute addBackwardRoute
          split_ifs
          · simp only
            split <;> rfl
          · rfl
        have hslots := (backwardRoute_quiet s d e j (s.routeAddrs d e i)).slots
        have hp2p := congrArg (fun σ => (Slots.slot σ d).p2p) hslots
        refine .bind ((droOutput_only _ d _).and (droOutput_quiet _ d _)) fun r hr => ?_
        have hp2p₂ := congrArg (fun σ => (Slots.slot σ d).p2p) hr.2.slots
        refine .bind (ih r.2 (j + 1)) fun r' hr' => .ok ?_
        have hr₁ := hr.1
        simp only [slots_slot, Dag.slot_p2p] at hp2p hp2p₂
        rw [hp2p] at hr₁
        rw [hp2p₂, hp2p] at hr'
        exact (hback.trans hr₁).trans hr'
      · exact .ok (.of_eq rfl)

/-- Without a partial route there is nothing to reply with. -/
lemma sendDrosFrom_empty {s : Node cfg} {d : cfg.DagRef} {e : cfg.P2pRef}
    (hp2p : (s.dagTable d).p2p = some e) (hempty : ∀ i, (s.dagP2pTable e).partialRoutes i = [])
    (l : List (Fin rplP2pMaxPartialRoutes)) (j : ℕ) : sendDrosFrom d l j s = .ok ([], s) := by
  induction l with
  | nil => rfl
  | cons i rest ih =>
      unfold sendDrosFrom
      simp only [derefP2p, hp2p, deref_some, ok_bind, hempty i, List.length_nil, if_true, ih]
      split_ifs <;> rfl

/-! ## Neighbours and ranks -/

lemma rplRecalculateRanks_ext (s : Node cfg) :
    Ensures s.rplRecalculateRanks fun s' => s'.dagP2pTable = s.dagP2pTable := by
  unfold rplRecalculateRanks
  split
  · exact .ok rfl
  · split
    · exact .ok rfl
    · refine .bind (rplProcessParentEvent_frame _ _ _) fun r hr => .ok ?_
      exact hr.dagP2pTable

lemma rplLinkNeighborCallback_ext (s : Node cfg) (addr : Lladdr) (known : Bool) (etx : UInt8) :
    Ensures (s.rplLinkNeighborCallback addr known etx) fun s' =>
      s'.dagP2pTable = s.dagP2pTable := by
  refine linkNeighborFrom_induction (P := fun s' => s'.dagP2pTable = s.dagP2pTable) ?_ _ rfl
  intro s' d hs'
  exact .mono (s'.linkNeighborDag_frame _ known etx d) fun s'' hs'' => hs''.dagP2pTable.trans hs'

lemma rplIpv6NeighborCallback_ext (s : Node cfg) (ipaddr : IpAddr) (isused : Bool) :
    (s.rplIpv6NeighborCallback ipaddr isused).dagP2pTable = s.dagP2pTable := by
  unfold rplIpv6NeighborCallback
  split
  · rfl
  · rename_i d _
    have hforget := (s.forgetDefRoute_frame d ipaddr).dagP2pTable
    simp only
    split_ifs
    · exact hforget
    · split <;> exact hforget

/-! ## Events that keep an expired DAG -/

/-- The DAG `d` with the extension `e` is expired and still known as the slot `σ`. -/
structure Retained (s : Node cfg) (d : cfg.DagRef) (e : cfg.P2pRef) (σ : DagSlot cfg) : Prop where
  slot : (s.dagTable d).slot = σ
  used : σ.used = true
  joined : σ.joined = true
  mop : σ.mop = rplMopP2pRouteDiscovery
  p2p : σ.p2p = some e
  owner : (s.dagP2pTable e).dag = some d
  expired : (s.dagP2pTable e).expired = true

/-- Neither the DAG `d` nor the countdown of the extension `e` is touched. -/
structure RetainsDag (d : cfg.DagRef) (e : cfg.P2pRef) (s s' : Node cfg) : Prop where
  slot : (s'.dagTable d).slot = (s.dagTable d).slot
  ext : (s'.dagP2pTable e).retention = (s.dagP2pTable e).retention

namespace Retained

lemma of_retainsDag (h : s.Retained d e σ) (hs' : RetainsDag d e s s') : s'.Retained d e σ where
  slot := hs'.slot.trans h.slot
  used := h.used
  joined := h.joined
  mop := h.mop
  p2p := h.p2p
  owner := (congrArg Prod.fst hs'.ext).trans h.owner
  expired := (congrArg (fun r => r.2.1) hs'.ext).trans h.expired

lemma slot_used (h : s.Retained d e σ) : (s.slots.slot d).used = true := by
  rw [slots_slot, h.slot, h.used]

lemma dag_p2p (h : s.Retained d e σ) : (s.dagTable d).p2p = some e := by
  have hp2p := congrArg DagSlot.p2p h.slot
  exact hp2p.trans h.p2p

lemma dag_mop (h : s.Retained d e σ) : (s.dagTable d).mop = rplMopP2pRouteDiscovery := by
  have hmop := congrArg DagSlot.mop h.slot
  exact hmop.trans h.mop

lemma not_free (h : s.Retained d e σ) : ¬s.slots.EntryFree e := by
  intro hfree
  have hunused := hfree d h.owner
  rw [h.slot_used] at hunused
  cases hunused

end Retained

/-- Neither does the node drop a DAG that has an extension, nor does it reply for an expired DAG:
when the DRO timer of one fires, no partial route is left. -/
def AnswersInTime (s : Node cfg) : Event cfg → Prop
  | .droTimer e => ∀ d e', (s.dagP2pTable e).droTimer.pending = some d →
      (s.dagTable d).p2p = some e' → (s.dagP2pTable e').expired = true →
      ∀ i, (s.dagP2pTable e').partialRoutes i = []
  | ev => s.ExtensionFree ev

lemma AnswersInTime.extensionFree {ev : Event cfg} (h : s.AnswersInTime ev) : s.ExtensionFree ev := by
  cases ev with
  | droTimer e => trivial
  | _ => exact h

/-- A DRO timer that has nothing to reply for an expired DAG keeps its countdown. -/
lemma sendDros_keeps (h : s.Retained d e σ) {e₀ : cfg.P2pRef}
    (hok : s.AnswersInTime (.droTimer e₀)) :
    Ensures (s.sendDros e₀) fun r =>
      (r.2.dagP2pTable e).retention = (s.dagP2pTable e).retention := by
  unfold sendDros
  simp only
  split
  · exact .ok rfl
  · rename_i d₀ hpending
    set s₁ := s.modifyP2p e₀ fun p2p =>
      { p2p with droTimer := { p2p.droTimer with pending := none } } with hs₁
    have hext₁ : (s₁.dagP2pTable e).retention = (s.dagP2pTable e).retention := by
      by_cases he : e = e₀
      · subst he
        simp [hs₁, DagP2p.retention]
      · simp [hs₁, he]
    have hroutes₁ : ∀ i, (s₁.dagP2pTable e).partialRoutes i = (s.dagP2pTable e).partialRoutes i := by
      intro i
      by_cases he : e = e₀
      · subst he
        simp [hs₁]
      · simp [hs₁, he]
    by_cases hp2p : (s.dagTable d₀).p2p = some e
    · have hempty : ∀ i, (s₁.dagP2pTable e).partialRoutes i = [] := fun i =>
        (hroutes₁ i).trans (hok d₀ e hpending hp2p h.expired i)
      rw [sendDrosFrom_empty (s := s₁) (d := d₀) hp2p hempty]
      exact .ok hext₁
    · refine .mono (sendDrosFrom_only s₁ d₀ _ 0) fun r hr => ?_
      rw [hr e hp2p, hext₁]

/-- A DIO leaves the extensions of expired DAGs alone. -/
lemma rplProcessDio_keeps (hs : s.Reachable) (h : s.Retained d e σ) (from_ : IpAddr) (dio : Dio) :
    Ensures (s.rplProcessDio from_ dio) fun s' => s'.dagP2pTable e = s.dagP2pTable e := by
  have hfate := s.rplProcessDio_fate from_ dio
  generalize s.rplProcessDio from_ dio = result at hfate
  cases hfate with
  | ignored hstill =>
      exact .ok (congrFun (eq_of_still hstill Node.dagP2pTable fun _ => rfl) e)
  | join => exact .mono (joinDag_keepsOwned s from_ dio) fun s' hs' => hs' e h.not_free
  | repair => exact .mono (globalRepair_frame s from_ _ dio) fun s' hs' => by rw [hs'.dagP2pTable]
  | candidate hstage =>
      rename_i d'
      have hstill := resetIfInfinite_still s d' dio
      have hreset := eq_of_still hstill Node.dagP2pTable fun _ => rfl
      have hp2p := dag_eq_of_still hstill d' Dag.p2p fun _ => rfl
      refine .mono (processCandidate_only _ d' from_ dio) fun s' hs' => ?_
      rw [hp2p] at hs'
      refine (hs' e ?_).trans (congrFun hreset e)
      intro hd'
      -- only a DAG in P2P mode has an extension, and this one is not expired
      have hmop := (extension_of_get hs hstage.dag).mp (by rw [hd']; exact Option.some_ne_none e)
      obtain ⟨e', rdo, hp2p', hexpired, -⟩ := hstage.p2p hmop
      rw [hd'] at hp2p'
      cases hp2p'
      rw [h.expired] at hexpired
      cases hexpired
  | noExtension | noRdo => exact .error _

/-- The slot of a DAG that has an extension outlives the one that a root or discovery drops. -/
lemma Retained.drop (h : s.Retained d e σ) {old : Option cfg.DagRef}
    (hold : ∀ d, old = some d → (s.dagTable d).p2p = none) :
    (s.slots.drop old).slot d = (s.dagTable d).slot ∧ (s.slots.drop old).owner = s.slots.owner := by
  cases old with
  | none => exact ⟨rfl, rfl⟩
  | some d' =>
      have hd : d ≠ d' := by
        rintro rfl
        have hp2p := hold d rfl
        rw [h.dag_p2p] at hp2p
        cases hp2p
      exact ⟨by simp [Slots.drop, hd], rfl⟩

/-- A slot that was not in use is another one than that of a retained DAG. -/
lemma Retained.ne_of_unused (h : s.Retained d e σ) {τ : Slots cfg} {d' : cfg.DagRef}
    (hslot : τ.slot d = (s.dagTable d).slot) (hunused : (τ.slot d').used = false) : d ≠ d' := by
  rintro rfl
  rw [hslot, h.slot, h.used] at hunused
  cases hunused

/-- The slot of a retained DAG is kept by everything but the purge. -/
lemma next_slot (h : s.Retained d e σ) {ev : Event cfg} (hok : s.ExtensionFree ev)
    (hev : ev ≠ .purgeDags) (hnext : s.next ev = .ok s') :
    (s'.dagTable d).slot = (s.dagTable d).slot := by
  have hmove := next_slots hnext
  change s'.slots.slot d = s.slots.slot d
  generalize s'.slots = σ' at hmove
  cases hmove with
  | keep => rfl
  | join _ houtcome =>
      cases houtcome with
      | full => rfl
      | leaked d' hunused => simp [h.ne_of_unused rfl hunused]
      | left d' of config hunused => simp [h.ne_of_unused rfl hunused]
      | joined d' of config hunused => simp [h.ne_of_unused rfl hunused]
      | joinedP2p d' e' of config hunused => simp [h.ne_of_unused rfl hunused]
  | root houtcome =>
      have hdrop := (h.drop hok).1
      cases houtcome with
      | full => exact hdrop
      | root d' of config hunused => simpa [h.ne_of_unused hdrop hunused] using hdrop
  | discover houtcome =>
      have hdrop := (h.drop hok).1
      cases houtcome with
      | full => exact hdrop
      | left d' hunused => simpa [h.ne_of_unused hdrop hunused] using hdrop
      | started d' e' of config ownAddr hunused =>
          simpa [h.ne_of_unused hdrop hunused] using hdrop
  | purge => exact absurd rfl hev

/-- **An expired DAG is left alone** by every event but the purge. -/
theorem next_keeps (hs : s.Reachable) (h : s.Retained d e σ) {ev : Event cfg}
    (hok : s.AnswersInTime ev) (hev : ev ≠ .purgeDags) (hnext : s.next ev = .ok s') :
    RetainsDag d e s s' := by
  refine ⟨next_slot h hok.extensionFree hev hnext, ?_⟩
  have hkept : s'.dagP2pTable e = s.dagP2pTable e →
      (s'.dagP2pTable e).retention = (s.dagP2pTable e).retention := fun heq => by rw [heq]
  obtain ⟨packets, hstep⟩ := next_eq_ok.mp hnext
  cases ev with
  | processDio from_ dio =>
      obtain ⟨s'', hdio, hs''⟩ := map_eq_ok.mp hstep
      cases hs''
      exact hkept (rplProcessDio_keeps hs h from_ dio s' hdio)
  | droInput dst dro => exact hkept (droInput_ext s dst dro h.expired (packets, s') hstep)
  | droAckInput buffer =>
      cases hstep
      apply hkept
      unfold droAckInput
      simp only
      split <;> rfl
  | disInput src dst =>
      obtain ⟨r, hr, hs'⟩ := map_eq_ok.mp hstep
      cases hs'
      exact hkept (congrFun (disInput_ext s src dst r hr) e)
  | setRoot dagId =>
      obtain ⟨s'', hroot, hs''⟩ := map_eq_ok.mp hstep
      cases hs''
      exact hkept (congrFun (rplSetRoot_ext s dagId s' hroot) e)
  | discoverRoute process target =>
      obtain ⟨r, hdiscover, hs'⟩ := map_eq_ok.mp hstep
      cases hs'
      obtain ⟨hslot, howner⟩ := h.drop hok
      refine hkept (rplDiscoverRoute_keepsOwned s process target e ?_ r hdiscover)
      intro hfree
      have hunused := hfree d (by rw [howner, slots_owner, h.owner])
      rw [hslot, h.slot, h.used] at hunused
      cases hunused
  | setPrefix d' prefixAddr len =>
      cases hstep
      apply hkept
      unfold rplSetPrefix
      split_ifs <;> rfl
  | repairDag d' =>
      cases hstep
      apply hkept
      split_ifs
      · rw [(rplRepairDag_frame s d').dagP2pTable]
      · rfl
  | localRepair d' =>
      cases hstep
      apply hkept
      split_ifs
      · rw [(rplLocalRepair_frame s d').dagP2pTable]
      · rfl
  | purgeDags => exact absurd rfl hev
  | recalculateRanks =>
      obtain ⟨s'', hranks, hs''⟩ := map_eq_ok.mp hstep
      cases hs''
      exact hkept (congrFun (rplRecalculateRanks_ext s s' hranks) e)
  | dioTimer d' =>
      obtain ⟨r, hr, hs'⟩ := map_eq_ok.mp hstep
      cases hs'
      exact hkept (congrFun (handleDioTimer_ext s d' r hr) e)
  | droTimer e₀ => exact sendDros_keeps h hok (packets, s') hstep
  | droRexmit c =>
      have hext : (s.droRexmit c).2.dagP2pTable = s.dagP2pTable := by
        unfold droRexmit
        simp only
        split_ifs <;> rfl
      have hs' : s.droRexmit c = (packets, s') := by simpa [step] using hstep
      rw [hs'] at hext
      exact hkept (congrFun hext e)
  | linkNeighbor addr known etx =>
      obtain ⟨s'', hlink, hs''⟩ := map_eq_ok.mp hstep
      cases hs''
      exact hkept (congrFun (rplLinkNeighborCallback_ext s addr known etx s' hlink) e)
  | ipv6Neighbor ipaddr isused =>
      cases hstep
      exact hkept (congrFun (rplIpv6NeighborCallback_ext s ipaddr isused) e)
  | purgeRoutes | nbrMetric | addr | routeAdd | defrtAdd | defrtRm | randomInit =>
      cases hstep
      apply hkept
      first
        | rfl
        | split_ifs <;> rfl

/-! ## The purge -/

lemma rplP2pFreeDag_only (s : Node cfg) (e : cfg.P2pRef) (d : cfg.DagRef) :
    OnlyExt (some e) s (s.rplP2pFreeDag e d) := by
  unfold rplP2pFreeDag
  refine OnlyExt.trans ?_ (.modifyP2p _ e _)
  intro e' he'
  exact (congrFun (rplFreeDag_ext _ d) e').trans (freePartialRoutes_only s e e' he')

/-- The state in which an extension starts its retention. -/
lemma expireP2p_ext (s : Node cfg) (e : cfg.P2pRef) (d : cfg.DagRef) :
    (s.expireP2p e d).dagP2pTable = (s.modifyP2p e fun p2p => { p2p with
      lifetime := rplP2pLt2sec p2p.rdoLifetime + 10
      expired := true }).dagP2pTable := by
  unfold expireP2p
  exact ((stopDioTimer_frame _ d).trans (rplRemoveParents_frame _ d 0)).dagP2pTable

lemma purgeEntry_only (s : Node cfg) (e : cfg.P2pRef) : OnlyExt (some e) s (s.purgeEntry e) := by
  unfold purgeEntry
  simp only
  split
  · exact .of_eq rfl
  · rename_i d _
    split_ifs
    · exact rplP2pFreeDag_only s e d
    · intro e' he'
      exact (congrFun (expireP2p_ext s e d) e').trans (OnlyExt.modifyP2p s e _ e' he')
    · exact .modifyP2p s e _
    · exact .of_eq rfl

/-- An iteration for another extension keeps a DAG and its extension as they are. -/
lemma purgeEntry_other (hs : s.slots.Paired) {e' : cfg.P2pRef} (he : e' ≠ e)
    (hp2p : (s.dagTable d).p2p = some e) :
    ((s.purgeEntry e').dagTable d).slot = (s.dagTable d).slot ∧
      (s.purgeEntry e').dagP2pTable e = s.dagP2pTable e := by
  refine ⟨?_, purgeEntry_only s e' e (by simpa using he)⟩
  change (s.purgeEntry e').slots.slot d = s.slots.slot d
  obtain heq | ⟨d', howner, hused, heq⟩ := s.purgeEntry_slots e'
  · rw [heq]
  · have hd : d ≠ d' := by
      rintro rfl
      have hback := (hs.back e' d howner).2
      rw [slots_slot, Dag.slot_p2p, hp2p] at hback
      exact he (by simpa using hback.symm)
    rw [heq]
    simp [hd]

/-- The iterations for other extensions keep a DAG and its extension as they are. -/
lemma purgeEntries_other (l : List cfg.P2pRef) (hl : e ∉ l) (hs : s.slots.Paired)
    (hp2p : (s.dagTable d).p2p = some e) :
    let s' := l.foldl (fun s e => s.purgeEntry e) s
    (s'.dagTable d).slot = (s.dagTable d).slot ∧ s'.dagP2pTable e = s.dagP2pTable e := by
  induction l generalizing s with
  | nil => exact ⟨rfl, rfl⟩
  | cons e' rest ih =>
      have he' : e' ≠ e := fun h => hl (h ▸ List.mem_cons_self)
      obtain ⟨hslot, hext⟩ := purgeEntry_other hs he' hp2p
      have hpaired := hs.purges (s.purgeEntries_purges [e'])
      have hp2p' : ((s.purgeEntry e').dagTable d).p2p = some e :=
        (congrArg DagSlot.p2p hslot).trans hp2p
      have hrest := ih (s := s.purgeEntry e') (fun h => hl (List.mem_cons_of_mem e' h)) hpaired hp2p'
      exact ⟨hrest.1.trans hslot, hrest.2.trans hext⟩

lemma purgeEntries_ext (s : Node cfg) (l : List cfg.P2pRef) (hl : e ∉ l) :
    (l.foldl (fun s e => s.purgeEntry e) s).dagP2pTable e = s.dagP2pTable e := by
  induction l generalizing s with
  | nil => rfl
  | cons e' rest ih =>
      have he' : e' ≠ e := fun h => hl (h ▸ List.mem_cons_self)
      exact (ih _ fun h => hl (List.mem_cons_of_mem e' h)).trans
        (purgeEntry_only s e' e (by simpa using he'))

/-- What a purge does to a DAG and its extension is what the iteration for the extension does. -/
lemma rplP2pPurgeDags_entry (hs : s.slots.Paired) (hp2p : (s.dagTable d).p2p = some e) :
    ∃ s₁ : Node cfg, (s₁.dagTable d).slot = (s.dagTable d).slot ∧
      s₁.dagP2pTable e = s.dagP2pTable e ∧
      s.rplP2pPurgeDags.dagP2pTable e = (s₁.purgeEntry e).dagP2pTable e ∧
      (((s₁.purgeEntry e).dagTable d).p2p = some e →
        (s.rplP2pPurgeDags.dagTable d).slot = ((s₁.purgeEntry e).dagTable d).slot) := by
  obtain ⟨l₁, l₂, hl⟩ := List.append_of_mem (List.mem_finRange e)
  have hnodup := List.nodup_finRange (cfg.maxDagEntries - 1)
  rw [hl] at hnodup
  have hl₁ : e ∉ l₁ := fun h => List.disjoint_of_nodup_append hnodup h List.mem_cons_self
  have hl₂ : e ∉ l₂ := (List.nodup_cons.mp hnodup.of_append_right).1
  have hbefore := purgeEntries_other l₁ hl₁ hs hp2p
  have hpaired₁ := hs.purges (s.purgeEntries_purges l₁)
  have hpaired₂ := hpaired₁.purges (purgeEntries_purges _ [e])
  unfold rplP2pPurgeDags
  rw [hl, List.foldl_append, List.foldl_cons]
  refine ⟨_, hbefore.1, hbefore.2, purgeEntries_ext _ l₂ hl₂, fun hkept => ?_⟩
  exact (purgeEntries_other l₂ hl₂ hpaired₂ hkept).1

/-- The end of the countdown frees the extension. -/
lemma purge_freed (hs : s.slots.Paired) (h : s.Retained d e σ)
    (hlifetime : (s.dagP2pTable e).lifetime ≤ 1) :
    (s.rplP2pPurgeDags.dagP2pTable e).dag = none := by
  obtain ⟨s₁, hslot, hext, hpurge, -⟩ := rplP2pPurgeDags_entry hs h.dag_p2p
  have hentry : s₁.purgeEntry e = s₁.rplP2pFreeDag e d := by
    have hused : (s₁.dagTable d).used = true :=
      (congrArg DagSlot.used (hslot.trans h.slot)).trans h.used
    unfold purgeEntry
    simp only [hext, h.owner, hused, if_true, hlifetime, h.expired, true_and]
  rw [hpurge, hentry]
  unfold rplP2pFreeDag
  simp

/-- **A tick of the countdown.** -/
lemma purge_retained (hs : s.slots.Paired) (h : s.Retained d e σ)
    (hlifetime : 1 < (s.dagP2pTable e).lifetime) :
    s.rplP2pPurgeDags.Retained d e σ ∧
      (s.rplP2pPurgeDags.dagP2pTable e).lifetime = (s.dagP2pTable e).lifetime - 1 ∧
      (s.rplP2pPurgeDags.dagP2pTable e).rdoLifetime = (s.dagP2pTable e).rdoLifetime := by
  obtain ⟨s₁, hslot, hext, hext', hslot'⟩ := rplP2pPurgeDags_entry hs h.dag_p2p
  have hentry : s₁.purgeEntry e =
      s₁.modifyP2p e fun p2p => { p2p with lifetime := p2p.lifetime - 1 } := by
    have hused : (s₁.dagTable d).used = true :=
      (congrArg DagSlot.used (hslot.trans h.slot)).trans h.used
    have hlate : ¬(s.dagP2pTable e).lifetime ≤ 1 := by simpa using hlifetime
    unfold purgeEntry
    simp only [hext, h.owner, hused, if_true, hlate, false_and, if_false]
  rw [hentry, modifyP2p_dagP2pTable, Function.update_self, hext] at hext'
  rw [hentry, modifyP2p_dagTable, hslot] at hslot'
  have hp2p₁ : (s₁.dagTable d).p2p = some e := (congrArg DagSlot.p2p hslot).trans h.dag_p2p
  refine ⟨⟨(hslot' hp2p₁).trans h.slot, h.used, h.joined, h.mop, h.p2p, ?_, ?_⟩, ?_, ?_⟩
  · rw [hext', h.owner]
  · rw [hext', h.expired]
  · rw [hext']
  · rw [hext']

/-- A purge marks the DAG `d` with the extension `e` as expired. -/
structure MarksExpired (s : Node cfg) (d : cfg.DagRef) (e : cfg.P2pRef) (s' : Node cfg) : Prop where
  purge : s.next .purgeDags = .ok s'
  owner : (s.dagP2pTable e).dag = some d
  used : (s.dagTable d).used = true
  live : (s.dagP2pTable e).expired = false
  expired : (s'.dagP2pTable e).expired = true

/-- **The start of the countdown.** -/
lemma MarksExpired.retained (h : s.MarksExpired d e s') (hs : s.slots.Paired)
    (hextended : (s.slots.slot d).Extended) :
    s'.Retained d e (s'.dagTable d).slot ∧ (s'.dagP2pTable e).lifetime =
      rplP2pLt2sec (s'.dagP2pTable e).rdoLifetime + 10 := by
  have hpurged : s.rplP2pPurgeDags = s' := by simpa [next, step, Except.map] using h.purge
  have hp2p : (s.dagTable d).p2p = some e := (hs.back e d h.owner).2
  have hext := (hextended h.used).mp (by simp [hp2p])
  obtain ⟨s₁, hslot, hext₁, hext', hslot'⟩ := rplP2pPurgeDags_entry hs hp2p
  have hp2p₁ : (s₁.dagTable d).p2p = some e := (congrArg DagSlot.p2p hslot).trans hp2p
  have hused₁ : (s₁.dagTable d).used = true := (congrArg DagSlot.used hslot).trans h.used
  rw [hpurged] at hext' hslot'
  -- the countdown alone would not mark it
  have hlifetime : (s.dagP2pTable e).lifetime ≤ 1 := by
    by_contra hlate
    have hentry : s₁.purgeEntry e =
        s₁.modifyP2p e fun p2p => { p2p with lifetime := p2p.lifetime - 1 } := by
      unfold purgeEntry
      simp only [hext₁, h.owner, hused₁, if_true, hlate, false_and, if_false]
    have hexpired := h.expired
    rw [hext', hentry, modifyP2p_dagP2pTable, Function.update_self, hext₁, h.live] at hexpired
    cases hexpired
  have hentry : s₁.purgeEntry e = s₁.expireP2p e d := by
    unfold purgeEntry
    simp only [hext₁, h.owner, hused₁, if_true, hlifetime, h.live, true_and, Bool.false_eq_true,
      if_false, not_false_eq_true]
  have hslot₁ : ((s₁.expireP2p e d).dagTable d).slot = (s₁.dagTable d).slot :=
    congrArg (fun σ => Slots.slot σ d) (s₁.expireP2p_slots e d)
  rw [hentry, expireP2p_ext, modifyP2p_dagP2pTable, Function.update_self, hext₁] at hext'
  rw [hentry, hslot₁] at hslot'
  have hσ := (hslot' ((congrArg DagSlot.p2p hslot₁).trans hp2p₁)).trans hslot
  refine ⟨⟨rfl, ?_, ?_, ?_, ?_, ?_, h.expired⟩, ?_⟩
  · rw [hσ]; exact h.used
  · rw [hσ]; exact hext.1
  · rw [hσ]; exact hext.2
  · rw [hσ]; exact hp2p
  · rw [hext', h.owner]
  · rw [hext']

/-! ## DIOs -/

/-- The DAG that an event sends a DIO for, if it sends one. -/
def dioDag (s : Node cfg) : Event cfg → Option cfg.DagRef
  | .dioTimer d => some d
  | .disInput _ _ => s.rplGetDag rplDefaultInstance none
  | _ => none

lemma dioOutput_live (s : Node cfg) (d : cfg.DagRef) (ucAddr : Option IpAddr) :
    Ensures (s.dioOutput d ucAddr) fun r => r.1 ≠ none → s.dioSuppressed d = .ok false := by
  unfold dioOutput
  refine .bind (P := fun suppressed => s.dioSuppressed d = .ok suppressed) (fun _ h => h) ?_
  intro suppressed hsuppressed
  cases suppressed with
  | true => exact .ok fun h => absurd rfl h
  | false => exact fun r _ _ => hsuppressed

lemma handleDioTimer_live (s : Node cfg) (d : cfg.DagRef) :
    Ensures (s.handleDioTimer d) fun r => r.1 ≠ none → s.dioSuppressed d = .ok false := by
  unfold handleDioTimer
  split_ifs
  · exact .ok fun h => absurd rfl h
  · exact .ok fun h => absurd rfl h
  · refine .bind (P := fun r => r.1 ≠ none → s.dioSuppressed d = .ok false) ?_ fun r hr => .ok hr
    unfold sendDio
    split_ifs
    · exact dioOutput_live _ d none
    · exact .ok fun h => absurd rfl h
  · exact .ok fun h => absurd rfl h

lemma sendDrosFrom_code (s : Node cfg) (d : cfg.DagRef) (l : List (Fin rplP2pMaxPartialRoutes))
    (j : ℕ) : Ensures (sendDrosFrom d l j s) fun r => ∀ p ∈ r.1, p.code = .dro := by
  induction l generalizing j s with
  | nil => exact .ok (by simp)
  | cons i rest ih =>
      unfold sendDrosFrom
      refine .bind (fun _ _ => trivial) fun e _ => ?_
      simp only
      split_ifs
      · exact ih s j
      · refine .bind (P := fun r => ∀ p, r.1 = some p → p.code = .dro) ?_ fun r hr => ?_
        · unfold droOutput
          split
          · exact .ok (by simp)
          · exact .bind (fun _ _ => trivial) fun rdo _ => .ok (by rintro p ⟨⟩; rfl)
        · refine .bind (ih r.2 (j + 1)) fun r' hr' => .ok fun p hp => ?_
          rcases List.mem_append.mp hp with hp | hp
          · exact hr p (by simpa using hp)
          · exact hr' p hp
      · exact .ok (by simp)

/-- **Who sends DIOs.**  A DIO is sent by `dio_output` alone, for a DAG that is not suppressed. -/
theorem step_dio {ev : Event cfg} {packets : List Packet} (h : s.step ev = .ok (packets, s'))
    {p : Packet} (hp : p ∈ packets) (hcode : p.code = .dio) :
    ∃ d, s.dioDag ev = some d ∧ s.dioSuppressed d = .ok false := by
  cases ev with
  | dioTimer d =>
      obtain ⟨r, hr, hpackets⟩ := map_eq_ok.mp h
      cases hpackets
      refine ⟨d, rfl, handleDioTimer_live s d r hr fun hnone => ?_⟩
      simp [hnone] at hp
  | disInput src dst =>
      obtain ⟨r, hr, hpackets⟩ := map_eq_ok.mp h
      cases hpackets
      have hsome : r.1 ≠ none := fun hnone => by simp [hnone] at hp
      unfold disInput at hr
      unfold dioDag
      cases hget : s.rplGetDag rplDefaultInstance none with
      | none =>
          rw [hget] at hr
          cases hr
          exact absurd rfl hsome
      | some d =>
          simp only [hget] at hr
          split_ifs at hr
          · cases hr
            exact absurd rfl hsome
          · exact ⟨d, rfl, dioOutput_live s d _ r hr hsome⟩
  | droTimer e =>
      exfalso
      have hdro : Ensures (s.sendDros e) fun r => ∀ p ∈ r.1, p.code = .dro := by
        unfold sendDros
        simp only
        split
        · exact .ok (by simp)
        · exact sendDrosFrom_code _ _ _ 0
      rw [hdro _ h p hp] at hcode
      cases hcode
  | droInput dst dro =>
      exfalso
      have hdro : Ensures (s.droInput dst dro) fun r => ∀ p ∈ r.1, p.code ≠ .dio := by
        unfold droInput
        refine .bind (fun _ _ => trivial) fun s' _ => ?_
        split_ifs
        · unfold droAtOrigin
          refine .bind (fun _ _ => trivial) fun _ _ => .ok ?_
          simp only
          split_ifs <;> simp
        · refine .ok ?_
          unfold droAtIntermediate
          split_ifs
          · simp
          · split <;> simp
      exact hdro _ h p hp hcode
  | droRexmit c =>
      exfalso
      have hdro : ∀ p ∈ (s.droRexmit c).1, p.code ≠ .dio := by
        unfold droRexmit
        simp only
        split_ifs <;> simp [icmp6Send]
      have hs' : s.droRexmit c = (packets, s') := by simpa [step] using h
      rw [hs'] at hdro
      exact hdro p hp hcode
  | processDio | setRoot | discoverRoute | recalculateRanks | linkNeighbor =>
      obtain ⟨r, -, hpackets⟩ := map_eq_ok.mp h
      cases hpackets
      cases hp
  | droAckInput | setPrefix | repairDag | localRepair | purgeRoutes | purgeDags | ipv6Neighbor
  | nbrMetric | addr | routeAdd | defrtAdd | defrtRm | randomInit =>
      cases h
      cases hp

/-- An expired DAG is suppressed, and a DIO for it is never one of an unknown DAG. -/
lemma Retained.suppressed (h : s.Retained d e σ) : s.dioSuppressed d = .ok true := by
  unfold dioSuppressed derefP2p
  simp only [h.dag_mop, if_true, h.dag_p2p, deref_some, ok_bind, h.expired, Bool.true_or]

lemma Retained.known (h : s.Retained d e σ) {from_ : IpAddr} {dio : Dio}
    (hinstance : dio.instanceId = σ.instanceId) (hdagId : dio.dagId = σ.dagId) :
    ¬s.JoinTried from_ dio := by
  rintro ⟨-, hnone, -⟩
  have hslot : s.slots.slot d = σ := h.slot
  obtain ⟨id, hid, hne⟩ := rplGetDag_eq_none hnone d (by rw [hslot, h.joined])
    (by rw [hslot, hinstance])
  rw [hslot, ← hdagId] at hne
  exact hne (by simpa using hid)

/-! ## Runs -/

/-- The ticks of the periodic timer that an event is. -/
def ticks : Event cfg → ℕ
  | .purgeDags => 1
  | _ => 0

/-- The state of a run `n` ticks after the DAG `d` was marked expired, while it is kept. -/
inductive Retention (ok : Node cfg → Event cfg → Prop) (d : cfg.DagRef) (e : cfg.P2pRef)
    (σ : DagSlot cfg) : ℕ → Node cfg → Prop
  | marked {s s' : Node cfg} : s.ReachableBy ok → ok s .purgeDags → s.MarksExpired d e s' →
      (s'.dagTable d).slot = σ → Retention ok d e σ 0 s'
  | tail {n : ℕ} {s s' : Node cfg} {ev : Event cfg} : Retention ok d e σ n s → ok s ev →
      s.next ev = .ok s' → s'.Retained d e σ → Retention ok d e σ (n + ticks ev) s'

lemma Retention.reachable {ok : Node cfg → Event cfg → Prop} {n : ℕ}
    (h : Retention ok d e σ n s) : s.ReachableBy ok := by
  induction h with
  | marked hs hok hmarks => exact hs.tail hok hmarks.purge
  | tail _ hok hnext _ ih => exact ih.tail hok hnext

lemma paired_of_answersInTime (hs : s.ReachableBy AnswersInTime) : s.slots.Paired :=
  hs.invariant (I := fun s => s.slots.Paired) (fun _ h₀ => paired_initial h₀)
    fun _ _ _ hs hok h => paired_step hs hok.extensionFree h

/-- **The countdown.**  The ticks that are left and the ticks that have passed add up. -/
lemma Retention.countdown {n : ℕ} (h : Retention AnswersInTime d e σ n s) :
    s.Retained d e σ ∧ (s.dagP2pTable e).lifetime.toNat + n =
      (rplP2pLt2sec (s.dagP2pTable e).rdoLifetime).toNat + 10 := by
  induction h with
  | marked hs hok hmarks hσ =>
      obtain ⟨hretained, hlifetime⟩ :=
        hmarks.retained (paired_of_answersInTime hs) (reachable_extended hs d)
      rw [hσ] at hretained
      refine ⟨hretained, ?_⟩
      rw [hlifetime, UInt16.toNat_add, Nat.mod_eq_of_lt]
      · rfl
      · unfold rplP2pLt2sec
        split_ifs <;> decide
  | tail hrun hok hnext hretained' ih =>
      rename_i n s s' ev
      obtain ⟨hretained, hcount⟩ := ih
      refine ⟨hretained', ?_⟩
      by_cases hev : ev = .purgeDags
      · subst hev
        have hpurged : s.rplP2pPurgeDags = s' := by simpa [next, step, Except.map] using hnext
        have hpaired := paired_of_answersInTime hrun.reachable
        have hlate : 1 < (s.dagP2pTable e).lifetime := by
          by_contra hlate
          have hfreed := purge_freed hpaired hretained (UInt16.not_lt.mp hlate)
          rw [hpurged, hretained'.owner] at hfreed
          cases hfreed
        obtain ⟨-, hlifetime, hrdo⟩ := purge_retained hpaired hretained hlate
        rw [hpurged] at hlifetime hrdo
        rw [hlifetime, hrdo, ← hcount, UInt16.toNat_sub_of_le _ _ (UInt16.le_of_lt hlate)]
        have hone : 1 < (s.dagP2pTable e).lifetime.toNat := hlate
        change _ - 1 + (n + 1) = _
        omega
      · have hkeeps := next_keeps hrun.reachable.anyEvent hretained hok hev hnext
        have hticks : ticks ev = 0 := by
          cases ev <;> first | rfl | exact absurd rfl hev
        have hlifetime := congrArg (fun r => r.2.2.1) hkeeps.ext
        have hrdo := congrArg (fun r => r.2.2.2) hkeeps.ext
        simp only [DagP2p.retention] at hlifetime hrdo
        rw [hticks, hlifetime, hrdo]
        exact hcount

/-- **An expired P2P DAG stays quiet and stays known.**  In a run in which no DAG with an extension
is dropped and the DRO timer of an expired DAG has nothing to reply, the node knows an expired DAG,
sends no DIO for it, and keeps it until the tick `rpl_p2p_lt2sec (rdo_lifetime) + 10` after the one
that marked it. -/
theorem expired_retained {n : ℕ} (h : Retention AnswersInTime d e σ n s) :
    (∀ from_ dio, dio.instanceId = σ.instanceId → dio.dagId = σ.dagId → ¬s.JoinTried from_ dio) ∧
      (∀ ev packets s', s.step ev = .ok (packets, s') → ∀ p ∈ packets, p.code = .dio →
        ∃ d', s.dioDag ev = some d' ∧ d' ≠ d) ∧
      ∀ ev s', s.AnswersInTime ev → s.next ev = .ok s' → s'.Retained d e σ ∨
        ev = .purgeDags ∧ (rplP2pLt2sec (s.dagP2pTable e).rdoLifetime).toNat + 10 ≤ n + 1 := by
  obtain ⟨hretained, hcount⟩ := h.countdown
  refine ⟨fun _ _ => hretained.known, fun ev packets s' hstep p hp hcode => ?_,
    fun ev s' hok hnext => ?_⟩
  · obtain ⟨d', hdag, hlive⟩ := step_dio hstep hp hcode
    refine ⟨d', hdag, ?_⟩
    rintro rfl
    rw [hretained.suppressed] at hlive
    cases hlive
  · by_cases hev : ev = .purgeDags
    · subst hev
      have hpurged : s.rplP2pPurgeDags = s' := by simpa [next, step, Except.map] using hnext
      by_cases hlate : 1 < (s.dagP2pTable e).lifetime
      · have hpaired := paired_of_answersInTime h.reachable
        exact .inl (hpurged ▸ (purge_retained hpaired hretained hlate).1)
      · have hone : (s.dagP2pTable e).lifetime.toNat ≤ 1 := UInt16.not_lt.mp hlate
        exact .inr ⟨rfl, by omega⟩
    · have hkeeps := next_keeps h.reachable.anyEvent hretained hok hev hnext
      exact .inl (hretained.of_retainsDag hkeeps)

/-- Whether the first DAG is joined in P2P mode with the first extension, and whether that is
expired. -/
def retentionOf (s : Node .default) : Bool × Bool :=
  let dag := s.dagTable 0
  let p2p := s.dagP2pTable 0
  (dag.used && dag.joined && dag.mop == rplMopP2pRouteDiscovery && dag.p2p == some 0 &&
    p2p.dag == some 0, p2p.expired)

/-- The first DAG is retained as the slot `σ` exactly if these are so. -/
lemma retained_of_retentionOf {s : Node .default} {σ : DagSlot .default}
    (hσ : (s.dagTable 0).slot = σ) (h : s.retentionOf = (true, true)) : s.Retained 0 0 σ := by
  simp only [retentionOf, Prod.mk.injEq, Bool.and_eq_true, beq_iff_eq] at h
  obtain ⟨⟨⟨⟨⟨hused, hjoined⟩, hmop⟩, hp2p⟩, howner⟩, hexpired⟩ := h
  exact hσ ▸ ⟨rfl, hused, hjoined, hmop, hp2p, howner, hexpired⟩

/-- A discovery of lifetime 1 s, at a node that is the target or not. -/
def shortDio (target : UInt8) : Dio :=
  { discoveryDio 1 target [] with
    rdo := some
      { bothDirections := 0, numRoutes := 0, hopByHop := 0, lifetime := 0, maxRank := 0, target
        addrs := [] } }

/-- A short discovery that a node has joined expires at the first tick. -/
lemma exists_shortRetention (target : UInt8) {ok : Node .default → Event .default → Prop}
    (hok : ∀ s, ok s .purgeDags) (hdio : ∀ s dio, ok s (.processDio (nodeLinkLocal 1) dio))
    {α : Type} (observe : Node .default → α) {a : α}
    (hrun : (runEvents next (boot 3) [.processDio (nodeLinkLocal 1) (shortDio target)]).map
      (fun s => (retentionOf s, retentionOf s.rplP2pPurgeDags, observe s.rplP2pPurgeDags)) =
      .ok ((true, false), (true, true), a)) :
    ∃ s, Retention ok 0 0 (s.dagTable 0).slot 0 s ∧ s.Retained 0 0 (s.dagTable 0).slot ∧
      observe s = a := by
  obtain ⟨s, hs, hobs⟩ := exists_ok_of_map hrun
  simp only [Prod.mk.injEq] at hobs
  obtain ⟨hjoined, hmarked, hobserve⟩ := hobs
  have hretained := retained_of_retentionOf rfl hmarked
  simp only [retentionOf, Prod.mk.injEq, Bool.and_eq_true, beq_iff_eq] at hjoined
  obtain ⟨⟨⟨⟨⟨hused, -⟩, -⟩, -⟩, howner⟩, hlive⟩ := hjoined
  have hreached : s.ReachableBy ok := (Reaches.initial (boot_initial 3)).of_runEvents
    (by simpa using fun s => hdio s _) hs
  have hmarks : s.MarksExpired 0 0 s.rplP2pPurgeDags := ⟨rfl, howner, hused, hlive, hretained.expired⟩
  exact ⟨_, .marked hreached (hok s) hmarks rfl, hretained, hobserve⟩

/-- A node that is not the target keeps the discovery at the tick after it expired. -/
theorem expired_retained_relay : ∃ s : Node .default,
    Retention AnswersInTime 0 0 (s.dagTable 0).slot 0 s ∧
      s.rplP2pPurgeDags.Retained 0 0 (s.dagTable 0).slot := by
  obtain ⟨s, hs, -, hrdo⟩ := @exists_shortRetention 9 AnswersInTime (fun _ => trivial)
    (fun _ _ => trivial) _ (fun s => (s.dagP2pTable 0).rdoLifetime) 0 (by decide +kernel)
  refine ⟨s, hs, ?_⟩
  obtain hkept | ⟨-, hlate⟩ := (expired_retained hs).2.2 .purgeDags s.rplP2pPurgeDags trivial rfl
  · exact hkept
  · rw [hrdo] at hlate
    exact absurd hlate (by decide)

/-- At the target, the DRO timer fires when the DAG is expired already, and the reply ends the
retention at the next tick. -/
theorem not_expired_retained : ¬∀ (d : Config.default.DagRef) (e : Config.default.P2pRef) σ n s,
    Retention anyEvent d e σ n s → ∀ ev s', s.next ev = .ok s' → s'.Retained d e σ ∨
      ev = .purgeDags ∧ (rplP2pLt2sec (s.dagP2pTable e).rdoLifetime).toNat + 10 ≤ n + 1 := by
  intro hclaim
  obtain ⟨s, hs, -, hobs⟩ := @exists_shortRetention 3 anyEvent (fun _ => trivial)
    (fun _ _ => trivial) _ (fun s => (s.next (.droTimer 0)).map fun s' => (retentionOf s',
      (s'.dagP2pTable 0).rdoLifetime == 0 && (s'.rplP2pPurgeDags.dagP2pTable 0).dag == none))
    (.ok ((true, true), true)) (by decide +kernel)
  obtain ⟨s', hnext, hobs⟩ := exists_ok_of_map hobs
  simp only [Prod.mk.injEq, Bool.and_eq_true, beq_iff_eq] at hobs
  obtain ⟨hretained', hrdo, hfreed⟩ := hobs
  have hslot : (s'.dagTable 0).slot = (s.dagTable 0).slot :=
    congrArg (fun σ => Slots.slot σ 0) (quiet_step (e := .droTimer 0) rfl hnext).slots
  have hs' := hs.tail trivial hnext (retained_of_retentionOf hslot hretained')
  obtain hkept | ⟨-, hlate⟩ := hclaim 0 0 _ _ s' hs' .purgeDags s'.rplP2pPurgeDags rfl
  · rw [hkept.owner] at hfreed
    cases hfreed
  · rw [hrdo] at hlate
    exact absurd hlate (by decide)

end Node
end Contiki

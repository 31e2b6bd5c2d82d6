import Contiki.Rpl.Parents

/-!
# Parent selection, joining and leaving, and ownership

The functions that select parents and those that allocate or free whole DAGs, down to the
invariant for every event (`next_owned`): the preferred parent is always one of the DAG's own, a
DAG that is freed has no parents left, and no block of `parent_memb` is lost or shared.
-/

namespace Contiki
namespace Node

variable {cfg : Config} {s s' : Node cfg} {d : cfg.DagRef} {p : cfg.ParentRef}

/-! ## Changing a DAG -/

/-- The preferred parent may become any parent of the DAG, or none. -/
lemma Owned.modifyDag (h : s.Owned) (d : cfg.DagRef) {f : Dag cfg → Dag cfg}
    (hparents : (f (s.dagTable d)).parents = (s.dagTable d).parents)
    (hused : (f (s.dagTable d)).used = false → (s.dagTable d).parents = [])
    (hpreferred : ∀ p, (f (s.dagTable d)).preferredParent = some p →
      p ∈ (s.dagTable d).parents) : (s.modifyDag d f).Owned where
  owned := h.owned.congr rfl fun d' => by
    by_cases hd : d' = d
    · subst hd; simp [hparents]
    · simp [hd]
  dag d' p hp := by
    refine h.dag d' p ?_
    by_cases hd : d' = d
    · subst hd; simpa [hparents] using hp
    · simpa [hd] using hp
  preferred d' p hp := by
    by_cases hd : d' = d
    · subst hd; simpa [hparents] using hpreferred p (by simpa using hp)
    · simpa [hd] using h.preferred d' p (by simpa [hd] using hp)
  unused d' hunused := by
    by_cases hd : d' = d
    · subst hd; simpa [hparents] using hused (by simpa using hunused)
    · simpa [hd] using h.unused d' (by simpa [hd] using hunused)

/-- A change of the preferred parent alone takes no parent away. -/
lemma Shrinks.modifyDag (h : s.Owned) (d : cfg.DagRef) {f : Dag cfg → Dag cfg}
    (hparents : (f (s.dagTable d)).parents = (s.dagTable d).parents)
    (hused : (f (s.dagTable d)).used = false → (s.dagTable d).parents = [])
    (hpreferred : ∀ p, (f (s.dagTable d)).preferredParent = some p →
      p ∈ (s.dagTable d).parents) : Shrinks d s (s.modifyDag d f) :=
  ⟨h.modifyDag d hparents hused hpreferred, by simp [hparents], fun _ => rfl⟩

/-! ## Selection -/

/-- The best parent is one of the parents. -/
lemma selectBest_mem (h : s.Owned) {of : ObjectiveFunction} {l : List cfg.ParentRef}
    {best : Option cfg.ParentRef} {b : cfg.ParentRef}
    (hl : ∀ p ∈ l, p ∈ (s.dagTable d).parents)
    (hbest : ∀ b, best = some b → b ∈ (s.dagTable d).parents)
    (hselect : s.selectBest of d l best = some b) : b ∈ (s.dagTable d).parents := by
  induction l generalizing best with
  | nil => exact hbest b hselect
  | cons p rest ih =>
      have hp := hl p List.mem_cons_self
      have hrest : ∀ q ∈ rest, q ∈ (s.dagTable d).parents :=
        fun q hq => hl q (List.mem_cons_of_mem p hq)
      simp only [selectBest] at hselect
      split_ifs at hselect
      · exact ih hrest hbest hselect
      · split at hselect
        · refine ih hrest ?_ hselect
          rintro _ ⟨⟩
          exact hp
        · rename_i c
          have hc := hbest c rfl
          refine ih hrest (fun a ha => ?_) hselect
          -- the objective function answers with one of the two or with the preferred parent
          obtain heq | heq | heq := s.bestParent_cases of d c p
          · rw [heq] at ha
            cases ha
            exact hc
          · rw [heq] at ha
            cases ha
            exact hp
          · rw [heq, h.parentDag hc] at ha
            exact h.preferred d a ha

lemma switchParent_shrinks (h : s.Owned) (of : ObjectiveFunction)
    (hp : p ∈ (s.dagTable d).parents) :
    Shrinks d s (s.switchParent of d p) ∧
      ((s.switchParent of d p).dagTable d).preferredParent = some p := by
  have hprefer : Shrinks d s (s.modifyDag d fun dag => { dag with preferredParent := some p }) := by
    refine Shrinks.modifyDag h d rfl (h.unused d) ?_
    rintro q ⟨⟩
    exact hp
  have hquiet : Quiet (s.modifyDag d fun dag => { dag with preferredParent := some p })
      (s.switchParent of d p) :=
    (updateMetricContainer_quiet _ of d).trans
      ((rplSetDefaultRoute_quiet _ d _).trans (resetGlobalTimer_quiet _ d))
  exact ⟨hprefer.then_same (.of_quiet hquiet), by rw [hquiet.preferredParent]; simp⟩

lemma cacheBest_shrinks (h : s.Owned) (of : ObjectiveFunction)
    (hp : p ∈ (s.dagTable d).parents) :
    Shrinks d s (s.cacheBest of d p) ∧
      ((s.cacheBest of d p).dagTable d).preferredParent = some p := by
  unfold cacheBest
  split_ifs with hpreferred
  · exact ⟨.refl d h, hpreferred⟩
  · exact switchParent_shrinks h of hp

/-- After the rank was updated, either the parent stays or no parent does. -/
lemma updateRank_shrinks (h : s.Owned) (d : cfg.DagRef) (best : cfg.ParentRef) (rank : UInt16) :
    Shrinks d s (s.updateRank d best rank).2 ∧
      (((s.updateRank d best rank).1 = some best ∧
          ((s.updateRank d best rank).2.dagTable d).preferredParent =
            (s.dagTable d).preferredParent) ∨
        ((s.updateRank d best rank).1 = none ∧
          ((s.updateRank d best rank).2.dagTable d).parents = [])) := by
  unfold updateRank
  split_ifs
  · have hrank : SameFamilies s (s.modifyDag d fun dag => { dag with rank, minRank := rank }) :=
      .modifyDag s d (by intro; rfl)
    exact ⟨.of_same h hrank, .inl ⟨rfl, by simp⟩⟩
  · have hrank : SameFamilies s (s.modifyDag d fun dag => { dag with rank }) :=
      .modifyDag s d (by intro; rfl)
    simp only
    split_ifs
    · exact ⟨.of_same h hrank, .inl ⟨rfl, by simp⟩⟩
    · exact ⟨(Shrinks.of_same h hrank).trans (rplRemoveParents_shrinks (h.congr hrank) d 0),
        .inr ⟨rfl, rplRemoveParents_zero (h.congr hrank) d⟩⟩

/-- **Selecting a parent**: the one selected is the preferred parent. -/
lemma rplSelectParent_shrinks (h : s.Owned) (d : cfg.DagRef) :
    Ensures (s.rplSelectParent d) fun r => Shrinks d s r.2 ∧
      ∀ b, r.1 = some b → b ∈ (s.dagTable d).parents ∧
        (r.2.dagTable d).preferredParent = some b := by
  unfold rplSelectParent
  refine .bind (fun _ _ => trivial) fun of _ => ?_
  split
  · exact .ok ⟨.refl d h, fun b hb => by cases hb⟩
  · rename_i best hbest
    have hmem := selectBest_mem h (fun _ hp => hp) (fun b hb => by cases hb) hbest
    obtain ⟨hcache, hpreferred⟩ := cacheBest_shrinks h of hmem
    obtain ⟨hupdate, hresult⟩ := updateRank_shrinks hcache.owned d best
      ((s.cacheBest of d best).calculateRank of d (some best) 0)
    refine .ok ⟨hcache.trans hupdate, fun b hb => ?_⟩
    obtain ⟨heq, hsame⟩ | ⟨heq, -⟩ := hresult
    · obtain rfl : best = b := by rw [heq] at hb; simpa using hb
      exact ⟨hmem, hsame.trans hpreferred⟩
    · rw [heq] at hb
      cases hb

/-! ## Repairs -/

lemma rplLocalRepair_shrinks (h : s.Owned) (d : cfg.DagRef) :
    Shrinks d s (s.rplLocalRepair d) ∧ ((s.rplLocalRepair d).dagTable d).parents = [] := by
  have hrank : SameFamilies s (s.modifyDag d fun dag => { dag with rank := infiniteRank }) :=
    .modifyDag s d (by intro; rfl)
  have hremove := (Shrinks.of_same h hrank).trans (rplRemoveParents_shrinks (h.congr hrank) d 0)
  have hreset := SameFamilies.of_quiet (rplResetDioTimer_quiet
    ((s.modifyDag d fun dag => { dag with rank := infiniteRank }).rplRemoveParents d 0) d true)
  exact ⟨hremove.then_same hreset,
    (hreset.parents d).trans (rplRemoveParents_zero (h.congr hrank) d)⟩

lemma moveInDag_same (s : Node cfg) (d : cfg.DagRef) (oldRank : UInt16) :
    SameFamilies s (s.moveInDag d oldRank) := by
  unfold moveInDag
  simp only
  split_ifs
  · exact .refl s
  · exact (SameFamilies.modifyDag s d (by intro; rfl)).trans
      (.of_quiet (resetGlobalTimer_quiet _ d))

/-- A parent event ends with a preferred parent, or without any parents. -/
lemma rplProcessParentEvent_shrinks (h : s.Owned) (d : cfg.DagRef) (p : cfg.ParentRef) :
    Ensures (s.rplProcessParentEvent d p) fun r => Shrinks d s r.2 ∧
      ((r.2.dagTable d).preferredParent = none → (r.2.dagTable d).parents = []) := by
  unfold rplProcessParentEvent
  refine .bind (rplSelectParent_shrinks h d) fun r hr => ?_
  obtain ⟨hselect, hpreferred⟩ := hr
  split
  · obtain ⟨hrepair, hnil⟩ := rplLocalRepair_shrinks hselect.owned d
    exact .ok ⟨hselect.trans hrepair, fun _ => hnil⟩
  · rename_i b s₁
    have hmove := moveInDag_same s₁ d (s.dagTable d).rank
    refine .bind (fun _ _ => trivial) fun of _ => .ok ⟨hselect.then_same hmove, fun hnone => ?_⟩
    rw [hmove.preferredParent, (hpreferred b rfl).2] at hnone
    cases hnone

lemma rejoinDag_same (s : Node cfg) (of : ObjectiveFunction) (d : cfg.DagRef) (from_ : IpAddr)
    (dio : Dio) : SameFamilies s (s.rejoinDag of d from_ dio) :=
  (SameFamilies.of_quiet (rplSetDefaultRoute_quiet s d (some from_))).trans
    ((SameFamilies.modifyDag _ d (by intro; rfl)).trans (.of_quiet (rplResetDioTimer_quiet _ d true)))

/-- A global repair leaves the sender as the only parent, or none. -/
lemma globalRepair_spec (h : s.Owned) (hused : (s.dagTable d).used = true) (from_ : IpAddr)
    (dio : Dio) :
    Ensures (s.globalRepair from_ d dio) fun s' => s'.Owned ∧
      (s'.dagTable d).preferredParent = none ∧
      ((s'.dagTable d).parents = [] ∨
        ∃ p, (s'.dagTable d).parents = [p] ∧ (s'.parent p).addr = from_) := by
  have hremove := rplRemoveParents_shrinks h d 0
  set s₁ := (s.rplRemoveParents d 0).modifyDag d fun dag =>
    { dag with version := dio.version, dtsnOut := 1 } with hs₁
  have hsame : SameFamilies (s.rplRemoveParents d 0) s₁ := .modifyDag _ d (by intro; rfl)
  have howned₁ : s₁.Owned := hremove.owned.congr hsame
  have hnil₁ : (s₁.dagTable d).parents = [] :=
    (hsame.parents d).trans (rplRemoveParents_zero h d)
  have hnone₁ := howned₁.preferred_none hnil₁
  have hused₁ : (s₁.dagTable d).used = true := by
    rw [hsame.used, ← hused]
    exact congrArg DagSlot.used ((rplRemoveParents_frame s d 0).slot_eq d)
  unfold globalRepair
  refine .bind (fun _ _ => trivial) fun of _ => ?_
  split
  · rename_i s₂ hadd
    obtain ⟨hshrinks, hpreferred⟩ := rplAddParent_shrinks howned₁ hadd
    have hrank : SameFamilies s₂ (s₂.modifyDag d fun dag => { dag with rank := infiniteRank }) :=
      .modifyDag s₂ d (by intro; rfl)
    exact .ok ⟨hshrinks.owned.congr hrank,
      (hrank.preferredParent d).trans (hpreferred.trans hnone₁),
      .inl ((hrank.parents d).trans (hshrinks.nil hnil₁))⟩
  · rename_i p s₂ hadd
    have hadds := rplAddParent_adds howned₁ hused₁ hadd
    obtain ⟨l, hl, hparents⟩ := hadds.parents
    rw [hnil₁, List.sublist_nil] at hl
    have hrejoin := rejoinDag_same s₂ of d from_ dio
    refine .ok ⟨hadds.owned.congr hrejoin,
      (hrejoin.preferredParent d).trans (hadds.preferred.trans hnone₁), .inr ⟨p, ?_, ?_⟩⟩
    · rw [hrejoin.parents d, hparents, hl, List.nil_append]
    · exact (hrejoin.addr p).trans hadds.addr

/-! ## Allocating and freeing DAGs -/

/-- A slot that is taken has no parents. -/
lemma rplAllocDag_owned (h : s.Owned) {instanceId : UInt8}
    (halloc : s.rplAllocDag instanceId = some (d, s')) :
    s'.Owned ∧ s'.dagTable d = allocatedDag cfg instanceId ∧ s'.parentMemb = s.parentMemb := by
  have hunused := (rplAllocDag_slots halloc).1
  have hnil : (s.dagTable d).parents = [] := h.unused d hunused
  unfold rplAllocDag at halloc
  split at halloc
  · cases halloc
  · obtain ⟨rfl, rfl⟩ : _ = d ∧ _ = s' := by simpa using halloc
    refine ⟨h.modifyDag _ (f := fun _ => allocatedDag cfg instanceId) hnil.symm (fun _ => hnil)
      fun p hp => ?_, by simp, rfl⟩
    cases hp

/-- A DAG that is freed has no parents left. -/
lemma rplFreeDag_shrinks (h : s.Owned) (d : cfg.DagRef) : Shrinks d s (s.rplFreeDag d) := by
  unfold rplFreeDag
  set s₁ := if (s.dagTable d).mop ≠ rplMopP2pRouteDiscovery then s.rplRemoveRoutes d else s with hs₁
  have h₁ : SameFamilies s s₁ := by
    rw [hs₁]
    split_ifs
    · exact .of_quiet (rplRemoveRoutes_quiet s d)
    · exact .refl s
  have howned₁ := h.congr h₁
  have hremove := (Shrinks.of_same h h₁).trans (rplRemoveParents_shrinks howned₁ d 0)
  have hquiet : SameFamilies (s₁.rplRemoveParents d 0)
      (((s₁.rplRemoveParents d 0).rplSetDefaultRoute d none).stopDioTimer d) :=
    .of_quiet ((rplSetDefaultRoute_quiet _ d none).trans (stopDioTimer_quiet _ d))
  have hstop := hremove.then_same hquiet
  have hnil : ((((s₁.rplRemoveParents d 0).rplSetDefaultRoute d none).stopDioTimer d).dagTable
      d).parents = [] := (hquiet.parents d).trans (rplRemoveParents_zero howned₁ d)
  exact hstop.trans (Shrinks.modifyDag hstop.owned d rfl (fun _ => hnil)
    (hstop.owned.preferred d))

lemma dropDag_owned (h : s.Owned) (old : Option cfg.DagRef) : (s.dropDag old).Owned := by
  cases old with
  | none => exact h
  | some d => exact (rplFreeDag_shrinks h d).owned

lemma rplP2pAllocDag_same {e : cfg.P2pRef} (halloc : s.rplP2pAllocDag d = some (e, s')) :
    SameFamilies s s' := by
  unfold rplP2pAllocDag at halloc
  split at halloc
  · cases halloc
  · cases halloc
    exact ⟨fun _ => rfl, rfl, fun _ => rfl⟩

lemma rplP2pFreeDag_owned (h : s.Owned) (e : cfg.P2pRef) (d : cfg.DagRef) :
    (s.rplP2pFreeDag e d).Owned := by
  have hp2p : SameFamilies s
      ((s.freePartialRoutes e).modifyDag d fun dag => { dag with p2p := none }) :=
    (SameFamilies.of_p2p (freePartialRoutes_frame s e)).trans (.modifyDag _ d (by intro; rfl))
  unfold rplP2pFreeDag
  exact (rplFreeDag_shrinks (h.congr hp2p) d).owned.congr (.modifyP2p _ e _)

lemma expireP2p_shrinks (h : s.Owned) (e : cfg.P2pRef) (d : cfg.DagRef) :
    Shrinks d s (s.expireP2p e d) ∧ ((s.expireP2p e d).dagTable d).parents = [] := by
  have hstop : SameFamilies s ((s.modifyP2p e fun p2p => { p2p with
      lifetime := rplP2pLt2sec p2p.rdoLifetime + 10, expired := true }).stopDioTimer d) :=
    (SameFamilies.modifyP2p s e _).trans (.of_quiet (stopDioTimer_quiet _ d))
  exact ⟨(Shrinks.of_same h hstop).trans (rplRemoveParents_shrinks (h.congr hstop) d 0),
    rplRemoveParents_zero (h.congr hstop) d⟩

lemma purgeEntry_owned (h : s.Owned) (e : cfg.P2pRef) : (s.purgeEntry e).Owned := by
  unfold purgeEntry
  simp only
  split
  · exact h
  · split_ifs
    · exact rplP2pFreeDag_owned h e _
    · exact (expireP2p_shrinks h e _).1.owned
    · exact h.congr ⟨fun _ => rfl, rfl, fun _ => rfl⟩
    · exact h

/-! ## Roots and discoveries -/

lemma rplSetDodagConfig_same {dcf : DodagConfig} (hconfig : s.rplSetDodagConfig d dcf = some s') :
    SameFamilies s s' := by
  unfold rplSetDodagConfig at hconfig
  split at hconfig
  · cases hconfig
  · cases hconfig
    exact .modifyDag s d (by intro; rfl)

lemma defaultConfig_same (s : Node cfg) (d : cfg.DagRef) (dcf : DodagConfig) :
    SameFamilies s ((s.rplSetDodagConfig d dcf).getD s) := by
  cases hconfig : s.rplSetDodagConfig d dcf with
  | none => exact .refl s
  | some s' => exact rplSetDodagConfig_same hconfig

lemma initRoot_owned (h : s.Owned) (hused : (s.dagTable d).used = true) (version : UInt8)
    (dagId : IpAddr) : (s.initRoot d version dagId).Owned := by
  unfold initRoot
  set s₁ := s.modifyDag d fun dag => { dag with
    joined := true
    version := version + 1
    grounded := cfg.grounded
    mop := rplMopDefault
    preferredParent := none
    dtsnOut := 1 } with hs₁
  have h₁ : s₁.Owned := by
    refine h.modifyDag d rfl (fun hunused => ?_) fun p hp => by cases hp
    simp [hused] at hunused
  exact h₁.congr ((defaultConfig_same s₁ d _).trans (.modifyDag _ d (by intro; rfl)))

lemma rplSetRoot_owned (h : s.Owned) (dagId : IpAddr) :
    Ensures (s.rplSetRoot dagId) Owned := by
  have hdrop := dropDag_owned h (s.rplGetDag rplDefaultInstance none)
  unfold rplSetRoot
  simp only
  split
  · exact .ok hdrop
  · rename_i d s₁ halloc
    obtain ⟨h₁, hdag, -⟩ := rplAllocDag_owned hdrop halloc
    have hroot := initRoot_owned h₁ (d := d) (by rw [hdag]; rfl)
      (s.oldVersion (s.rplGetDag rplDefaultInstance none)) dagId
    refine .bind (fun _ _ => trivial) fun of _ => .ok (hroot.congr ?_)
    exact .of_quiet ((updateMetricContainer_quiet _ of d).trans (rplResetDioTimer_quiet _ d true))

lemma initDiscovery_owned (h : s.Owned) (d : cfg.DagRef) (ownAddr : IpAddr) :
    (s.initDiscovery d ownAddr).Owned := by
  unfold initDiscovery
  set s₁ := s.modifyDag d fun dag => { dag with
    used := true
    joined := true
    version := 0
    preferredParent := none
    grounded := 0
    mop := rplMopP2pRouteDiscovery
    dtsnOut := 0
    preference := 0
    dagId := ownAddr } with hs₁
  have h₁ : s₁.Owned := by
    refine h.modifyDag d rfl (fun hunused => ?_) fun p hp => by cases hp
    cases hunused
  exact h₁.congr ((defaultConfig_same s₁ d _).trans (.modifyDag _ d (by intro; rfl)))

lemma rplDiscoverRoute_owned (h : s.Owned) (process : Option ℕ) (target : IpAddr) :
    Ensures (s.rplDiscoverRoute process target) fun r => r.2.Owned := by
  have hcounter : SameFamilies s { s with instanceCounter := (s.instanceCounter + 1) % 0x40 } :=
    ⟨fun _ => rfl, rfl, fun _ => rfl⟩
  have hdrop := dropDag_owned (h.congr hcounter) s.discoveryDrops
  unfold rplDiscoverRoute startDiscovery
  split
  · exact .ok hdrop
  · rename_i d s₁ halloc
    obtain ⟨h₁, -, -⟩ := rplAllocDag_owned hdrop halloc
    split
    · exact .ok (rplFreeDag_shrinks h₁ d).owned
    · rename_i e s₂ hext
      have hp2p : SameFamilies s₁ (s₂.modifyDag d fun dag => { dag with p2p := some e }) :=
        (rplP2pAllocDag_same hext).trans (.modifyDag _ d (by intro; rfl))
      refine .bind (fun _ _ => trivial) fun ownAddr _ => ?_
      have hinit := initDiscovery_owned (h₁.congr hp2p) d ownAddr
      refine .bind (fun _ _ => trivial) fun of _ => .ok (hinit.congr ?_)
      refine (SameFamilies.of_quiet (updateMetricContainer_quiet _ of d)).trans ?_
      refine SameFamilies.trans ?_ (.of_quiet (rplResetDioTimer_quiet _ d true))
      exact ⟨fun _ => rfl, rfl, fun _ => rfl⟩

/-! ## Joining -/

lemma joinConfig_same {dio : Dio} (hconfig : s.joinConfig d dio = some s') :
    SameFamilies s s' := by
  unfold joinConfig at hconfig
  split at hconfig
  · cases hconfig
    exact defaultConfig_same s d _
  · exact rplSetDodagConfig_same hconfig

lemma autoconfigure_same (s : Node cfg) (prefixInfo : RplPrefix) :
    SameFamilies s (s.autoconfigure prefixInfo) := by
  unfold autoconfigure
  split_ifs
  · exact .refl s
  · split
    · exact .refl s
    · unfold uipDs6AddrAdd
      split
      · exact ⟨fun _ => rfl, rfl, fun _ => rfl⟩
      · exact .refl s

lemma joinPrefix_same (s : Node cfg) (d : cfg.DagRef) (dio : Dio) :
    SameFamilies s (s.joinPrefix d dio) := by
  unfold joinPrefix
  split
  · exact .refl s
  · exact (autoconfigure_same s _).trans (.modifyDag _ d (by intro; rfl))

/-- The first parent of a DAG is its preferred one. -/
lemma enterDag_owned (h : s.Owned) (hp : p ∈ (s.dagTable d).parents) (of : ObjectiveFunction)
    (from_ : IpAddr) (dio : Dio) : (s.enterDag of d p from_ dio).Owned := by
  unfold enterDag
  set s₁ := s.modifyDag d fun dag => { dag with
    joined := true
    grounded := dio.grounded
    mop := dio.mop
    preference := dio.preference
    instanceId := dio.instanceId
    version := dio.version
    preferredParent := some p } with hs₁
  have h₁ : s₁.Owned := by
    refine h.modifyDag d rfl (h.unused d) ?_
    rintro q ⟨⟩
    exact hp
  refine Owned.congr ?_ (.of_quiet (rplSetDefaultRoute_quiet _ d _))
  refine Owned.congr ?_ (.of_quiet (rplResetDioTimer_quiet _ d true))
  refine Owned.congr ?_ (.modifyDag _ d (by intro; rfl))
  exact h₁.congr (.of_quiet (updateMetricContainer_quiet s₁ of d))

lemma joinP2p_owned (h : s.Owned) (d : cfg.DagRef) (dio : Dio) :
    Ensures (s.joinP2p d dio) Owned := by
  unfold joinP2p
  refine .bind (fun _ _ => trivial) fun rdo _ => ?_
  simp only
  split_ifs
  · exact .ok (rplFreeDag_shrinks h d).owned
  · split
    · exact .ok (rplFreeDag_shrinks h d).owned
    · rename_i e s₁ hext
      have hp2p : SameFamilies s (s₁.modifyDag d fun dag => { dag with p2p := some e }) :=
        (rplP2pAllocDag_same hext).trans (.modifyDag _ d (by intro; rfl))
      refine .bind (rplP2pUpdateDag_frame _ d dio) fun s₂ hs₂ => ?_
      refine .mono (rplP2pProcessTarget_frame _ d) fun s₃ hs₃ => ?_
      exact (h.congr (hp2p.trans (.of_p2p hs₂))).congr
        ((SameFamilies.modifyP2p s₂ e _).trans (.of_p2p hs₃))

lemma joinDag_owned (h : s.Owned) (from_ : IpAddr) (dio : Dio) :
    Ensures (s.joinDag from_ dio) Owned := by
  unfold joinDag
  split
  · exact .ok h
  · rename_i d s₁ halloc
    obtain ⟨h₁, hdag, -⟩ := rplAllocDag_owned h halloc
    have hused : (s₁.dagTable d).used = true := by rw [hdag]; rfl
    split
    · rename_i s₂ hadd
      exact .ok (rplAddParent_shrinks h₁ hadd).1.owned
    · rename_i p s₂ hadd
      have hadds := rplAddParent_adds h₁ hused hadd
      split
      · exact .ok hadds.owned
      · rename_i s₃ hconfig
        have hsame := (joinConfig_same hconfig).trans (joinPrefix_same s₃ d dio)
        obtain ⟨l, -, hparents⟩ := hadds.parents
        refine .bind (fun _ _ => trivial) fun of _ => ?_
        have henter := enterDag_owned (p := p) (hadds.owned.congr hsame)
          (by rw [hsame.parents d, hparents]; simp) of from_ dio
        split_ifs
        · exact joinP2p_owned henter d dio
        · exact .ok (henter.congr (.modifyDag _ d (by intro; rfl)))

/-! ## Processing a DIO -/

lemma pruneParents_shrinks (h : s.Owned) (d : cfg.DagRef) (p : cfg.ParentRef) :
    Shrinks d s (s.pruneParents d p) := by
  unfold pruneParents
  split
  · exact .refl d h
  · rename_i q hfind
    exact rplRemoveParent_shrinks h (List.mem_of_find?_eq_some hfind)

lemma compareRoute_shrinks (h : s.Owned) (d : cfg.DagRef) (p : cfg.ParentRef) (dio : Dio) :
    Ensures (s.compareRoute d p dio) fun r => Shrinks d s r.2 := by
  unfold compareRoute
  split_ifs
  · exact .bind (fun _ _ => trivial) fun of _ => .ok (pruneParents_shrinks h d p)
  · exact .ok (.refl d h)

lemma adoptRoute_same (s : Node cfg) (d : cfg.DagRef) (dio : Dio) :
    Ensures (s.adoptRoute d dio) (SameFamilies s) := by
  unfold adoptRoute
  refine .bind (fun _ _ => trivial) fun _ _ => ?_
  refine .bind (rplP2pUpdateDag_frame s d dio) fun s' hs' => .ok ?_
  exact (SameFamilies.of_p2p hs').trans (.of_quiet (rplResetDioTimer_quiet s' d true))

lemma countConsistent_quiet (s : Node cfg) (d : cfg.DagRef) (p : cfg.ParentRef) :
    Quiet s (s.countConsistent d p) := by
  unfold countConsistent
  split_ifs
  · exact .refl s
  · exact countDio_quiet s d

lemma trickleP2p_same (s : Node cfg) (of : ObjectiveFunction) (d : cfg.DagRef) (p : cfg.ParentRef)
    (dio : Dio) (improved : Bool) :
    Ensures (s.trickleP2p of d p dio improved) (SameFamilies s) := by
  have hcount := SameFamilies.of_quiet (countConsistent_quiet s d p)
  unfold trickleP2p
  split_ifs
  · exact adoptRoute_same s d dio
  · unfold considerRoute
    simp only
    split_ifs
    · exact .mono (cacheAlternative_frame _ d dio) fun s' hs' => hcount.trans (.of_p2p hs')
    · exact .ok hcount
  · exact .ok (.refl s)

lemma processP2pDio_same (s : Node cfg) (d : cfg.DagRef) (p : cfg.ParentRef) (dio : Dio)
    (improved : Bool) : Ensures (s.processP2pDio d p dio improved) (SameFamilies s) := by
  unfold processP2pDio
  split_ifs
  · refine .bind (fun _ _ => trivial) fun of _ => ?_
    refine .bind (trickleP2p_same s of d p dio improved) fun s' hs' => ?_
    exact .mono (rplP2pProcessTarget_frame s' d) fun s'' hs'' => hs'.trans (.of_p2p hs'')
  · exact .ok (.refl s)

/-- Judging a candidate takes parents away, or makes one of them the preferred one. -/
lemma judgeParent_shrinks (h : s.Owned) (d : cfg.DagRef) (p : cfg.ParentRef) (dio : Dio) :
    Ensures (s.judgeParent d p dio) fun r => Shrinks d s r.2.2 ∧
      ((r.2.2.dagTable d).preferredParent = none → (r.2.2.dagTable d).parents = []) := by
  unfold judgeParent
  refine .bind (compareRoute_shrinks h d p dio) ?_
  rintro ⟨improved, s₁⟩ hs₁
  have hs₂ := Shrinks.then_same hs₁ (.modifyParent s₁ p (f := fun parent =>
    { parent with mc := dio.mc, rank := dio.rank }) fun _ => rfl)
  exact .bind (rplProcessParentEvent_shrinks hs₂.owned d p) fun r hr => .ok
    ⟨hs₂.trans hr.1, hr.2⟩

lemma processCandidateParent_shrinks (h : s.Owned) (d : cfg.DagRef) (p : cfg.ParentRef)
    (dio : Dio) : Ensures (s.processCandidateParent d p dio) (Shrinks d s) := by
  unfold processCandidateParent
  refine .bind (judgeParent_shrinks h d p dio) ?_
  rintro ⟨improved, stays, s₁⟩ ⟨hs₁, -⟩
  simp only
  split_ifs
  · refine .bind (processP2pDio_same s₁ d p dio improved) fun s₂ hs₂ => .ok ?_
    exact Shrinks.then_same hs₁ (hs₂.trans (.modifyParent s₂ p fun _ => rfl))
  · exact .ok hs₁

/-- The candidate parent is on the list, and its address is that of the sender. -/
lemma candidateParent_owned (h : s.Owned) (hused : (s.dagTable d).used = true) (from_ : IpAddr)
    (dio : Dio) : (s.candidateParent d from_ dio).2.Owned := by
  unfold candidateParent
  split
  · set s₁ := if (s.dagTable d).parents.length = cfg.maxParents then
      s.removeWorstParent d dio.rank else s with hs₁
    have h₁ : Shrinks d s s₁ ∧ (s₁.dagTable d).used = true := by
      rw [hs₁]
      split_ifs
      · exact ⟨(removeWorstParent_shrinks h d dio.rank).1, hused ▸
          congrArg DagSlot.used ((removeWorstParent_frame s d dio.rank).slot_eq d)⟩
      · exact ⟨.refl d h, hused⟩
    cases hadd : s₁.rplAddParent d dio from_ with
    | mk found s₂ =>
        cases found with
        | none => exact (rplAddParent_shrinks h₁.1.owned hadd).1.owned
        | some p => exact (rplAddParent_adds h₁.1.owned h₁.2 hadd).owned
  · simp only
    split_ifs
    · exact h.congr (.of_quiet (countDio_quiet s d))
    · exact h

lemma processCandidate_owned (h : s.Owned) (hused : (s.dagTable d).used = true) (from_ : IpAddr)
    (dio : Dio) : Ensures (s.processCandidate d from_ dio) Owned := by
  have hcandidate := candidateParent_owned h hused from_ dio
  unfold processCandidate
  split <;> rename_i heq <;> rw [heq] at hcandidate
  · exact .ok hcandidate
  · exact .mono (processCandidateParent_shrinks hcandidate d _ dio) fun s' hs' => hs'.owned

lemma SameFamilies.of_still (h : s'.still = s.still) : SameFamilies s s' where
  family d := dag_eq_of_still h d Dag.family fun _ => rfl
  count := eq_of_still h (fun s => s.parentMemb.count) fun _ => rfl
  kin p := eq_of_still h (fun s => (s.parent p).kin) fun _ => rfl

/-- A DIO keeps the ownership of parents. -/
lemma rplProcessDio_owned (h : s.Owned)
    (hjoined : ∀ d, (s.dagTable d).joined = true → (s.dagTable d).used = true) (from_ : IpAddr)
    (dio : Dio) : Ensures (s.rplProcessDio from_ dio) Owned := by
  have hfate := s.rplProcessDio_fate from_ dio
  generalize s.rplProcessDio from_ dio = result at hfate
  cases hfate with
  | ignored hstill => exact .ok (h.congr (.of_still hstill))
  | join => exact joinDag_owned h from_ dio
  | @repair d hnew =>
      have hused := hjoined d (rplGetDag_eq_some hnew.dag).1
      exact .mono (globalRepair_spec h hused from_ dio) fun s' hs' => hs'.1
  | @candidate d hstage =>
      have hsame := SameFamilies.of_still (resetIfInfinite_still s d dio)
      refine processCandidate_owned (h.congr hsame) ?_ from_ dio
      rw [hsame.used]
      exact hjoined d (rplGetDag_eq_some hstage.dag).1
  | noExtension | noRdo => exact .error _

end Node
end Contiki

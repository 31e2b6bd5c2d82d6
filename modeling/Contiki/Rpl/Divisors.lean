import Contiki.Rpl.Allocation

/-!
# The divisor of `DAG_RANK`

`DAG_RANK` divides by the `min_hoprankinc` of a DAG, which `rpl_set_dodag_config` copies from a
received option as it is.  For each function that evaluates `DAG_RANK`, or calls one that does, a
list of the divisors says which ones: it follows the function and takes the states in between from
it.

* `Node.divisors` — the divisors of an event.
* `Divides.divisors` — a step lemma: none of them is zero while the joined DAGs have none.
* `no_division_by_zero` — the runs in which that is so.
-/

namespace Contiki

variable {cfg : Config}

/-- What comes after a computation that ends well. -/
def afterOk {α : Type} (x : Except Fault α) (f : α → List UInt16) : List UInt16 :=
  match x with
  | .error _ => []
  | .ok a => f a

/-- No divisor of the list is zero. -/
def NoZero (l : List UInt16) : Prop := ∀ v ∈ l, v ≠ 0

namespace NoZero

lemma nil : NoZero [] := fun _ h => absurd h List.not_mem_nil

lemma singleton {v : UInt16} (h : v ≠ 0) : NoZero [v] := by
  intro w hw
  rw [List.mem_singleton.mp hw]
  exact h

lemma append {l l' : List UInt16} (h : NoZero l) (h' : NoZero l') : NoZero (l ++ l') := by
  intro v hv
  rcases List.mem_append.mp hv with hv | hv
  · exact h v hv
  · exact h' v hv

lemma after {α : Type} {x : Except Fault α} {f : α → List UInt16}
    (h : ∀ a, x = .ok a → NoZero (f a)) : NoZero (afterOk x f) := by
  cases x with
  | error e => exact nil
  | ok a => exact h a rfl

end NoZero

namespace Node
variable (s : Node cfg)

/-- The divisor of `DAG_RANK` for a DAG. -/
def divisor (d : cfg.DagRef) : UInt16 := (s.dagTable d).config.minHoprankinc

/-! ## The functions that evaluate `DAG_RANK` -/

/-- `acceptable_rank`. -/
def acceptableRankDivisors (d : cfg.DagRef) (rank : UInt16) : List UInt16 :=
  if rank ≠ infiniteRank ∧ (s.dagTable d).config.maxRankinc ≠ 0 then [s.divisor d] else []

/-- `of->best_parent`. -/
def bestParentDivisors (of : ObjectiveFunction) (d : cfg.DagRef) (p1 : cfg.ParentRef) :
    List UInt16 :=
  match of with
  | .etx => []
  | .of0 => [(s.parentDag d p1).config.minHoprankinc]

/-- `of->p2p_route_cmp`. -/
def p2pRouteCmpDivisors (of : ObjectiveFunction) (d : cfg.DagRef) : List UInt16 :=
  match of with
  | .etx => []
  | .of0 => [s.divisor d]

/-- The loop of `rpl_select_parent`. -/
def selectBestDivisors (of : ObjectiveFunction) (d : cfg.DagRef) :
    List cfg.ParentRef → Option cfg.ParentRef → List UInt16
  | [], _ => []
  | p :: rest, best =>
    if (s.parent p).rank = infiniteRank then selectBestDivisors of d rest best
    else
      match best with
      | none => selectBestDivisors of d rest (some p)
      | some b =>
        s.bestParentDivisors of d b ++ selectBestDivisors of d rest (s.bestParent of d b p)

/-- The end of `rpl_select_parent`. -/
def updateRankDivisors (d : cfg.DagRef) (best : cfg.ParentRef) (rank : UInt16) : List UInt16 :=
  if rank < (s.dagTable d).minRank then []
  else
    (s.modifyDag d fun dag => { dag with rank }).acceptableRankDivisors d (s.parent best).rank

/-- `rpl_select_parent`. -/
def selectParentDivisors (d : cfg.DagRef) : List UInt16 :=
  afterOk (s.derefOf d) fun of =>
    s.selectBestDivisors of d (s.dagTable d).parents none ++
      match s.selectBest of d (s.dagTable d).parents none with
      | none => []
      | some best =>
        let s := s.cacheBest of d best
        s.updateRankDivisors d best (s.calculateRank of d (some best) 0)

/-- `rpl_process_parent_event`. -/
def processParentEventDivisors (d : cfg.DagRef) (p : cfg.ParentRef) : List UInt16 :=
  let parentRank := (s.parent p).rank
  let oldRank := (s.dagTable d).rank
  s.selectParentDivisors d ++ afterOk (s.rplSelectParent d) fun r =>
    match r with
    | (none, _) => []
    | (some _, s) =>
      s.divisor d ::
        (let s := s.moveInDag d oldRank
        afterOk (s.derefOf d) fun of =>
          if parentRank = infiniteRank then []
          else s.acceptableRankDivisors d (s.calculateRank of d none parentRank))

/-- The end of `join_dag` for a DIO in P2P mode. -/
def joinP2pDivisors (d : cfg.DagRef) (dio : Dio) : List UInt16 :=
  match dio.rdo with
  | none => []
  | some rdo => if rdo.maxRank > 0 then [s.divisor d] else []

/-- `join_dag`. -/
def joinDagDivisors (from_ : IpAddr) (dio : Dio) : List UInt16 :=
  match s.rplAllocDag dio.instanceId with
  | none => []
  | some (d, s) =>
    match s.rplAddParent d dio from_ with
    | (none, _) => []
    | (some p, s) =>
      match s.joinConfig d dio with
      | none => []
      | some s =>
        let s := s.joinPrefix d dio
        afterOk (s.derefOf d) fun of =>
          let s := s.enterDag of d p from_ dio
          if dio.mop = rplMopP2pRouteDiscovery then s.joinP2pDivisors d dio else []

/-- The candidate parent of a DIO. -/
def candidateParentDivisors (d : cfg.DagRef) (from_ : IpAddr) : List UInt16 :=
  match s.rplFindParent d from_ with
  | none => []
  | some _ => [s.divisor d]

/-- Whether the route that is advertised improves. -/
def compareRouteDivisors (d : cfg.DagRef) (p : cfg.ParentRef) (dio : Dio) : List UInt16 :=
  if dio.mop = rplMopP2pRouteDiscovery then
    let s := s.pruneParents d p
    afterOk (s.derefOf d) fun of => s.p2pRouteCmpDivisors of d
  else []

/-- The judgement on the candidate parent. -/
def judgeParentDivisors (d : cfg.DagRef) (p : cfg.ParentRef) (dio : Dio) : List UInt16 :=
  s.compareRouteDivisors d p dio ++ afterOk (s.compareRoute d p dio) fun r =>
    (r.2.modifyParent p fun parent =>
      { parent with mc := dio.mc, rank := dio.rank }).processParentEventDivisors d p

/-- The trickle rules of P2P mode. -/
def trickleP2pDivisors (of : ObjectiveFunction) (d : cfg.DagRef) (p : cfg.ParentRef) (dio : Dio)
    (advRouteImproved : Bool) : List UInt16 :=
  if advRouteImproved then []
  else
    s.p2pRouteCmpDivisors of d ++
      if s.p2pRouteCmp of d dio none ≥ 0 then (s.countConsistent d p).p2pRouteCmpDivisors of d
      else []

/-- A DIO in P2P mode, after its sender was processed as a parent. -/
def processP2pDioDivisors (d : cfg.DagRef) (p : cfg.ParentRef) (dio : Dio)
    (advRouteImproved : Bool) : List UInt16 :=
  if dio.mop = rplMopP2pRouteDiscovery then
    afterOk (s.derefOf d) fun of => s.trickleP2pDivisors of d p dio advRouteImproved
  else []

/-- What is done with the candidate parent. -/
def processCandidateParentDivisors (d : cfg.DagRef) (p : cfg.ParentRef) (dio : Dio) :
    List UInt16 :=
  s.judgeParentDivisors d p dio ++ afterOk (s.judgeParent d p dio) fun r =>
    if r.2.1 then r.2.2.processP2pDioDivisors d p dio r.1 else []

/-- The sender of the DIO is considered as a parent. -/
def processCandidateDivisors (d : cfg.DagRef) (from_ : IpAddr) (dio : Dio) : List UInt16 :=
  s.candidateParentDivisors d from_ ++
    match s.candidateParent d from_ dio with
    | (none, _) => []
    | (some p, s) => s.processCandidateParentDivisors d p dio

/-- A DIO of the version the node knows. -/
def processSameVersionDivisors (d : cfg.DagRef) (from_ : IpAddr) (dio : Dio) : List UInt16 :=
  let dag := s.dagTable d
  if dag.rank = dag.rootRank then []
  else if dag.mop = rplMopP2pRouteDiscovery then
    afterOk (s.derefP2p d) fun e =>
      if (s.dagP2pTable e).expired then []
      else
        afterOk (deref dio.rdo .nullRdo) fun rdo =>
          if rdo.maxRank > 0 then
            s.divisor d :: if dag.dagRank dio.rank.toNat > rdo.maxRank.toNat then []
              else s.processCandidateDivisors d from_ dio
          else s.processCandidateDivisors d from_ dio
  else s.processCandidateDivisors d from_ dio

/-- A DIO of a DAG that the node has joined. -/
def processDioOfDivisors (d : cfg.DagRef) (from_ : IpAddr) (dio : Dio) : List UInt16 :=
  let dag := s.dagTable d
  if dag.dagId ≠ dio.dagId then []
  else if dio.version > dag.version then []
  else if dio.version < dag.version then []
  else if dio.rank = infiniteRank then
    (s.rplResetDioTimer d true).processSameVersionDivisors d from_ dio
  else if dio.rank < dag.rootRank then []
  else s.processSameVersionDivisors d from_ dio

/-- `rpl_process_dio`. -/
def processDioDivisors (from_ : IpAddr) (dio : Dio) : List UInt16 :=
  if s.dioAccepted from_ dio then
    match s.rplGetDag dio.instanceId (some dio.dagId) with
    | none => if dio.rank ≠ infiniteRank then s.joinDagDivisors from_ dio else []
    | some d => s.processDioOfDivisors d from_ dio
  else []

/-- `dio_output`, which looks at the rank of a P2P DAG before it does anything else. -/
def dioOutputDivisors (d : cfg.DagRef) : List UInt16 :=
  if (s.dagTable d).mop = rplMopP2pRouteDiscovery then
    afterOk (s.derefP2p d) fun e =>
      if (s.dagP2pTable e).expired then []
      else if (s.dagP2pTable e).maxRank > 0 then [s.divisor d] else []
  else []

/-- `handle_dio_timer`. -/
def dioTimerDivisors (d : cfg.DagRef) : List UInt16 :=
  if (s.dagTable d).dioTimer = none then []
  else if ¬s.dioSendOk ∧ uipDs6GetLinkLocal s.addrList .preferred = none then []
  else if (s.dagTable d).dioSend ∧ (s.dagTable d).dioCounter < (s.dagTable d).config.dioRedund then
    { s with dioSendOk := true }.dioOutputDivisors d
  else []

/-- `dis_input`. -/
def disInputDivisors (dst : IpAddr) : List UInt16 :=
  match s.rplGetDag rplDefaultInstance none with
  | none => []
  | some d => if dst.uipIsAddrMcast then [] else s.dioOutputDivisors d

/-- `rpl_recalculate_ranks`. -/
def recalculateRanksDivisors : List UInt16 :=
  match s.rplGetDag rplDefaultInstance none with
  | none => []
  | some d =>
    match (s.dagTable d).parents.find? fun p => (s.parent p).updated with
    | none => []
    | some p =>
      (s.modifyParent p fun parent => { parent with updated := false }
        ).processParentEventDivisors d p

/-- The divisors of an event. -/
def divisors : Event cfg → List UInt16
  | .processDio from_ dio => s.processDioDivisors from_ dio
  | .dioTimer d => s.dioTimerDivisors d
  | .disInput _ dst => s.disInputDivisors dst
  | .recalculateRanks => s.recalculateRanksDivisors
  | _ => []

/-! ## What one DAG contributes -/

section OneDag
variable {s} {s' : Node cfg} {d : cfg.DagRef}

lemma Frame.divisor (h : Frame d s s') : s'.divisor d = s.divisor d :=
  congrArg (fun slot => slot.config.minHoprankinc) h.slot

lemma acceptableRankDivisors_noZero (hd : s.divisor d ≠ 0) (rank : UInt16) :
    NoZero (s.acceptableRankDivisors d rank) := by
  unfold acceptableRankDivisors
  split_ifs
  · exact .singleton hd
  · exact .nil

lemma bestParentDivisors_noZero (h : s.Owned) (hd : s.divisor d ≠ 0) (of : ObjectiveFunction)
    {p : cfg.ParentRef} (hp : p ∈ (s.dagTable d).parents) :
    NoZero (s.bestParentDivisors of d p) := by
  cases of with
  | etx => exact .nil
  | of0 =>
    apply NoZero.singleton
    rw [h.parentDag hp]
    exact hd

lemma p2pRouteCmpDivisors_noZero (hd : s.divisor d ≠ 0) (of : ObjectiveFunction) :
    NoZero (s.p2pRouteCmpDivisors of d) := by
  cases of with
  | etx => exact .nil
  | of0 => exact .singleton hd

/-- The best parent so far is one of the DAG, so that every comparison divides for this DAG. -/
lemma selectBestDivisors_noZero (h : s.Owned) (hd : s.divisor d ≠ 0) (of : ObjectiveFunction)
    {l : List cfg.ParentRef} {best : Option cfg.ParentRef}
    (hl : ∀ p ∈ l, p ∈ (s.dagTable d).parents)
    (hbest : ∀ b, best = some b → b ∈ (s.dagTable d).parents) :
    NoZero (s.selectBestDivisors of d l best) := by
  induction l generalizing best with
  | nil => exact .nil
  | cons p rest ih =>
    have hp := hl p List.mem_cons_self
    have hrest : ∀ q ∈ rest, q ∈ (s.dagTable d).parents :=
      fun q hq => hl q (List.mem_cons_of_mem p hq)
    unfold selectBestDivisors
    split_ifs
    · exact ih hrest hbest
    · cases best with
      | none =>
        refine ih hrest fun b hb => ?_
        rw [← Option.some.inj hb]
        exact hp
      | some c =>
        have hc := hbest c rfl
        refine (bestParentDivisors_noZero h hd of hc).append (ih hrest fun b hb => ?_)
        obtain heq | heq | heq := s.bestParent_cases of d c p
        · rw [heq] at hb
          rw [← Option.some.inj hb]
          exact hc
        · rw [heq] at hb
          rw [← Option.some.inj hb]
          exact hp
        · rw [heq, h.parentDag hc] at hb
          exact h.preferred d b hb

lemma updateRankDivisors_noZero (hd : s.divisor d ≠ 0) (best : cfg.ParentRef) (rank : UInt16) :
    NoZero (s.updateRankDivisors d best rank) := by
  unfold updateRankDivisors
  split_ifs
  · exact .nil
  · apply acceptableRankDivisors_noZero
    have hframe : Frame d s (s.modifyDag d fun dag => { dag with rank }) :=
      .modifyDag s d (by intro; rfl)
    rw [hframe.divisor]
    exact hd

lemma selectParentDivisors_noZero (h : s.Owned) (hd : s.divisor d ≠ 0) :
    NoZero (s.selectParentDivisors d) := by
  refine .after fun of _ => (selectBestDivisors_noZero h hd of (fun _ hp => hp) ?_).append ?_
  · intro b hb
    cases hb
  · cases s.selectBest of d (s.dagTable d).parents none with
    | none => exact .nil
    | some best =>
      apply updateRankDivisors_noZero
      rw [(cacheBest_frame s of d best).divisor]
      exact hd

lemma processParentEventDivisors_noZero (h : s.Owned) (hd : s.divisor d ≠ 0)
    (p : cfg.ParentRef) : NoZero (s.processParentEventDivisors d p) := by
  refine (selectParentDivisors_noZero h hd).append (.after fun r hr => ?_)
  have hframe := rplSelectParent_frame s d r hr
  obtain ⟨best, s₁⟩ := r
  have hd₁ : s₁.divisor d ≠ 0 := by
    rw [hframe.divisor]
    exact hd
  cases best with
  | none => exact .nil
  | some b =>
    refine NoZero.append (.singleton hd₁) (.after fun of _ => ?_)
    split_ifs
    · exact .nil
    · apply acceptableRankDivisors_noZero
      rw [(moveInDag_frame s₁ d _).divisor]
      exact hd₁

lemma candidateParentDivisors_noZero (hd : s.divisor d ≠ 0) (from_ : IpAddr) :
    NoZero (s.candidateParentDivisors d from_) := by
  unfold candidateParentDivisors
  split
  · exact .nil
  · exact .singleton hd

lemma compareRouteDivisors_noZero (hd : s.divisor d ≠ 0) (p : cfg.ParentRef) (dio : Dio) :
    NoZero (s.compareRouteDivisors d p dio) := by
  unfold compareRouteDivisors
  split_ifs
  · refine .after fun of _ => p2pRouteCmpDivisors_noZero ?_ of
    rw [(pruneParents_frame s d p).divisor]
    exact hd
  · exact .nil

lemma judgeParentDivisors_noZero (h : s.Owned) (hd : s.divisor d ≠ 0) (p : cfg.ParentRef)
    (dio : Dio) : NoZero (s.judgeParentDivisors d p dio) := by
  refine (compareRouteDivisors_noZero hd p dio).append (.after fun r hr => ?_)
  have hshrinks := compareRoute_shrinks h d p dio r hr
  have hframe := s.compareRoute_frame d p dio r hr
  have hjudged : SameFamilies r.2 (r.2.modifyParent p fun parent =>
      { parent with mc := dio.mc, rank := dio.rank }) := .modifyParent r.2 p fun _ => rfl
  apply processParentEventDivisors_noZero (hshrinks.owned.congr hjudged)
  rw [(Frame.modifyParent d r.2 p _).divisor, hframe.divisor]
  exact hd

lemma processP2pDioDivisors_noZero (hd : s.divisor d ≠ 0) (p : cfg.ParentRef) (dio : Dio)
    (improved : Bool) : NoZero (s.processP2pDioDivisors d p dio improved) := by
  unfold processP2pDioDivisors
  split_ifs
  · refine .after fun of _ => ?_
    unfold trickleP2pDivisors
    split_ifs
    · exact .nil
    · refine (p2pRouteCmpDivisors_noZero hd of).append (p2pRouteCmpDivisors_noZero ?_ of)
      rw [(s.countConsistent_frame d p).divisor]
      exact hd
    · exact (p2pRouteCmpDivisors_noZero hd of).append .nil
  · exact .nil

lemma processCandidateParentDivisors_noZero (h : s.Owned) (hd : s.divisor d ≠ 0)
    (p : cfg.ParentRef) (dio : Dio) : NoZero (s.processCandidateParentDivisors d p dio) := by
  refine (judgeParentDivisors_noZero h hd p dio).append (.after fun r hr => ?_)
  have hframe := s.judgeParent_frame d p dio r hr
  split_ifs
  · apply processP2pDioDivisors_noZero
    rw [hframe.divisor]
    exact hd
  · exact .nil

lemma processCandidateDivisors_noZero (h : s.Owned) (hused : (s.dagTable d).used = true)
    (hd : s.divisor d ≠ 0) (from_ : IpAddr) (dio : Dio) :
    NoZero (s.processCandidateDivisors d from_ dio) := by
  refine (candidateParentDivisors_noZero hd from_).append ?_
  have hframe := candidateParent_frame s d from_ dio
  have howned := candidateParent_owned h hused from_ dio
  generalize s.candidateParent d from_ dio = r at hframe howned
  obtain ⟨found, s₁⟩ := r
  cases found with
  | none => exact .nil
  | some p =>
    apply processCandidateParentDivisors_noZero howned
    rw [hframe.divisor]
    exact hd

lemma processSameVersionDivisors_noZero (h : s.Owned) (hused : (s.dagTable d).used = true)
    (hd : s.divisor d ≠ 0) (from_ : IpAddr) (dio : Dio) :
    NoZero (s.processSameVersionDivisors d from_ dio) := by
  have hcandidate := processCandidateDivisors_noZero h hused hd from_ dio
  unfold processSameVersionDivisors
  simp only
  split_ifs
  · exact .nil
  · refine .after fun e _ => ?_
    split_ifs
    · exact .nil
    · refine .after fun rdo _ => ?_
      split_ifs
      · exact .singleton hd
      · exact NoZero.append (.singleton hd) hcandidate
      · exact hcandidate
  · exact hcandidate

lemma processDioOfDivisors_noZero (h : s.Owned) (hused : (s.dagTable d).used = true)
    (hd : s.divisor d ≠ 0) (from_ : IpAddr) (dio : Dio) :
    NoZero (s.processDioOfDivisors d from_ dio) := by
  have hframe := rplResetDioTimer_frame s d true
  have hquiet := SameFamilies.of_quiet (rplResetDioTimer_quiet s d true)
  unfold processDioOfDivisors
  simp only
  split_ifs
  · exact .nil
  · exact .nil
  · exact .nil
  · apply processSameVersionDivisors_noZero (h.congr hquiet)
    · rw [hquiet.used]
      exact hused
    · rw [hframe.divisor]
      exact hd
  · exact .nil
  · exact processSameVersionDivisors_noZero h hused hd from_ dio

/-- Before `dio_output` divides, it has followed the pointer to the extension. -/
lemma dioOutputDivisors_noZero (hd : (s.dagTable d).p2p ≠ none → s.divisor d ≠ 0) :
    NoZero (s.dioOutputDivisors d) := by
  unfold dioOutputDivisors
  split_ifs
  · refine .after fun e he => ?_
    have hp2p : (s.dagTable d).p2p ≠ none := by
      rw [deref_eq_ok.mp he]
      exact Option.some_ne_none e
    split_ifs
    · exact .nil
    · exact .singleton (hd hp2p)
    · exact .nil
  · exact .nil

end OneDag

/-! ## The joined DAGs -/

end Node

namespace Slots
variable {σ : Slots cfg}

/-- A DAG that is joined or still has its extension has a divisor. -/
def Divides (σ : Slots cfg) : Prop :=
  ∀ d, (σ.slot d).joined = true ∨ (σ.slot d).p2p ≠ none → (σ.slot d).config.minHoprankinc ≠ 0

namespace Divides

lemma modify (h : σ.Divides) {d : cfg.DagRef} {f : DagSlot cfg → DagSlot cfg}
    (hf : (f (σ.slot d)).joined = true ∨ (f (σ.slot d)).p2p ≠ none →
      (f (σ.slot d)).config.minHoprankinc ≠ 0) : (σ.modify d f).Divides := by
  intro d' hd'
  by_cases hd : d' = d
  · subst hd
    rw [Slots.modify_slot, Function.update_self] at hd' ⊢
    exact hf hd'
  · rw [Slots.modify_slot, Function.update_of_ne hd] at hd' ⊢
    exact h d' hd'

/-- A freed slot may still have its extension. -/
lemma free (h : σ.Divides) (d : cfg.DagRef) : (σ.free d).Divides := by
  refine h.modify fun hlive => ?_
  rcases hlive with hjoined | hp2p
  · cases hjoined
  · exact h d (.inr hp2p)

lemma drop (h : σ.Divides) (old : Option cfg.DagRef) : (σ.drop old).Divides := by
  cases old with
  | none => exact h
  | some d => exact h.free d

lemma setOwner (h : σ.Divides) (e : cfg.P2pRef) (o : Option cfg.DagRef) :
    (σ.setOwner e o).Divides := h

lemma purge (h : σ.Divides) (e : cfg.P2pRef) (d : cfg.DagRef) : (σ.purge e d).Divides := by
  refine (Divides.free (h.modify fun hlive => ?_) d).setOwner e none
  rcases hlive with hjoined | hp2p
  · exact h d (.inl hjoined)
  · exact absurd rfl hp2p

/-- A slot that was just allocated is neither joined nor has an extension. -/
lemma allocate (h : σ.Divides) (d : cfg.DagRef) (instanceId : UInt8) :
    (σ.modify d fun _ => allocatedSlot cfg instanceId).Divides := by
  refine h.modify fun hlive => ?_
  rcases hlive with hjoined | hp2p
  · cases hjoined
  · exact absurd rfl hp2p

end Divides
end Slots

namespace Node

/-- `Slots.Divides`, of a node. -/
def Divides (s : Node cfg) : Prop := s.slots.Divides

/-- `join_dag` copies the configuration of the DIO into a DAG, and the DAG is joined or, before it is
given up, its rank is compared with the maximum rank of a discovery. -/
structure Copies (s : Node cfg) (from_ : IpAddr) (dio : Dio) (dcf : DodagConfig) : Prop where
  tried : s.JoinTried from_ dio
  parent : ¬s.parentMemb.Exhausted
  config : dio.dodagConfig = some dcf
  of : rplFindOf cfg dcf.ocp ≠ none
  dag : ∃ d s₁, s.rplAllocDag dio.instanceId = some (d, s₁) ∧
    (dio.mop = rplMopP2pRouteDiscovery →
      (∃ rdo, dio.rdo = some rdo ∧ rdo.maxRank > 0) ∨ ∃ e, s₁.slots.EntryFree e)

/-- No configuration with a zero divisor is copied. -/
def KeepsDivisors (s : Node cfg) (e : Event cfg) : Prop :=
  ∀ from_ dio dcf, e = .processDio from_ dio → s.Copies from_ dio dcf → dcf.minHoprankinc ≠ 0

section Join
variable {s s₁ s₂ s₃ : Node cfg} {d : cfg.DagRef} {p : cfg.ParentRef} {from_ : IpAddr} {dio : Dio}
  {of : ObjectiveFunction}

/-- Where `join_dag` has filled in a DAG, there was memory for the parent, and the objective function of
the DIO is supported. -/
lemma joinDag_supported (halloc : s.rplAllocDag dio.instanceId = some (d, s₁))
    (hadd : s₁.rplAddParent d dio from_ = (some p, s₂)) (hconfig : s₂.joinConfig d dio = some s₃) :
    ¬s.parentMemb.Exhausted ∧
      ∀ dcf, dio.dodagConfig = some dcf → rplFindOf cfg dcf.ocp ≠ none := by
  have hfresh : (s₁.dagTable d).parents = [] ∧ s₁.parentMemb = s.parentMemb := by
    unfold rplAllocDag at halloc
    split at halloc
    · cases halloc
    · obtain ⟨rfl, rfl⟩ : _ = d ∧ _ = s₁ := by simpa using halloc
      simp [allocatedDag, Dag.zero]
  constructor
  · intro hexhausted
    rw [← hfresh.2] at hexhausted
    have hnone := Memb.alloc_eq_none.mpr hexhausted
    have hworst : s₁.removeWorstParent d dio.rank = s₁ := by
      simp [removeWorstParent, hfresh.1, worstParent]
    rw [rplAddParent, hnone] at hadd
    simp only [hworst, hnone] at hadd
    cases hadd
  · intro dcf hsome hnone
    rw [joinConfig, hsome] at hconfig
    simp only [rplSetDodagConfig_eq_none.mpr hnone] at hconfig
    cases hconfig

/-- The slot that `join_dag` has filled in. -/
lemma joinDag_filled (halloc : s.rplAllocDag dio.instanceId = some (d, s₁))
    (hadd : s₁.rplAddParent d dio from_ = (some p, s₂)) (hconfig : s₂.joinConfig d dio = some s₃)
    (hof : (s₃.joinPrefix d dio).derefOf d = .ok of) :
    ((s₃.joinPrefix d dio).enterDag of d p from_ dio).slots =
      s.slots.modify d fun _ =>
        joinedSlot dio of (dio.dodagConfig.getD defaultDodagConfig) none := by
  obtain ⟨-, hs₁⟩ := rplAllocDag_slots halloc
  have hs₂ : s₂.slots = s₁.slots := by
    have hframe := (rplAddParent_frame s₁ d dio from_).slots
    rwa [hadd] at hframe
  obtain ⟨of?, config, hs₃, hcases⟩ := joinConfig_slots hconfig
  have hof? : of? = some of := by
    have h₁ := congrArg (fun σ => (Slots.slot σ d).of) (s₃.joinPrefix_slots d dio)
    have h₂ := congrArg (fun σ => (Slots.slot σ d).of) hs₃
    simp at h₁ h₂
    rw [← h₂, ← h₁, deref_eq_ok.mp hof]
  subst hof?
  have hfresh : (s₂.slots.slot d).of = none := by
    rw [hs₂, hs₁, Slots.modify_slot, Function.update_self]
    rfl
  rw [hfresh] at hcases
  obtain rfl := hcases.resolve_left (Option.some_ne_none of)
  rw [enterDag_slots, joinPrefix_slots, hs₃, hs₂, hs₁, Slots.modify_modify, Slots.modify_modify]
  rfl

/-- Whatever `join_dag` divides by comes from the DIO, or is the default. -/
lemma joinDagDivisors_noZero (htried : s.JoinTried from_ dio)
    (hkeep : ∀ dcf, s.Copies from_ dio dcf → dcf.minHoprankinc ≠ 0) :
    NoZero (s.joinDagDivisors from_ dio) := by
  unfold joinDagDivisors
  split
  · exact .nil
  · rename_i d s₁ halloc
    split
    · exact .nil
    · rename_i p s₂ hadd
      split
      · exact .nil
      · rename_i s₃ hconfig
        refine .after fun of hof => ?_
        split_ifs with hmop
        · obtain ⟨hparent, hsupported⟩ := joinDag_supported halloc hadd hconfig
          have hfilled := joinDag_filled halloc hadd hconfig hof
          have hdivisor : ((s₃.joinPrefix d dio).enterDag of d p from_ dio).divisor d =
              (dio.dodagConfig.getD defaultDodagConfig).minHoprankinc := by
            have hslot := congrArg (fun σ => (Slots.slot σ d).config.minHoprankinc) hfilled
            rw [divisor]
            simpa [joinedSlot] using hslot
          unfold joinP2pDivisors
          split
          · exact .nil
          · rename_i rdo hrdo
            split_ifs with hmax
            · apply NoZero.singleton
              rw [hdivisor]
              cases hdcf : dio.dodagConfig with
              | none => decide
              | some dcf =>
                exact hkeep dcf ⟨htried, hparent, hdcf, hsupported dcf hdcf, d, s₁, halloc,
                  fun _ => .inl ⟨rdo, hrdo, hmax⟩⟩
            · exact .nil
        · exact .nil

/-- A DAG that a DIO makes the node join has a divisor. -/
lemma joinDag_divides (h : s.Divides) (htried : s.JoinTried from_ dio)
    (hkeep : ∀ dcf, s.Copies from_ dio dcf → dcf.minHoprankinc ≠ 0) :
    Ensures (s.joinDag from_ dio) Divides := by
  unfold joinDag
  split
  · exact .ok h
  · rename_i d s₁ halloc
    obtain ⟨-, hs₁⟩ := rplAllocDag_slots halloc
    have hunjoined := Slots.Divides.allocate h d dio.instanceId
    split
    · rename_i s₂ hadd
      have hs₂ := (rplAddParent_frame s₁ d dio from_).slots
      rw [hadd, hs₁] at hs₂
      rw [← hs₂] at hunjoined
      exact .ok hunjoined
    · rename_i p s₂ hadd
      have hs₂ := (rplAddParent_frame s₁ d dio from_).slots
      rw [hadd, hs₁] at hs₂
      split
      · rw [← hs₂] at hunjoined
        exact .ok hunjoined
      · rename_i s₃ hconfig
        obtain ⟨hparent, hsupported⟩ := joinDag_supported halloc hadd hconfig
        -- the configuration, if the DAG comes to be joined
        have hcopied : (dio.mop = rplMopP2pRouteDiscovery → ∃ e, s₁.slots.EntryFree e) →
            (dio.dodagConfig.getD defaultDodagConfig).minHoprankinc ≠ 0 := by
          intro hext
          cases hdcf : dio.dodagConfig with
          | none => decide
          | some dcf =>
            exact hkeep dcf ⟨htried, hparent, hdcf, hsupported dcf hdcf, d, s₁, halloc,
              fun hmop => .inr (hext hmop)⟩
        refine .bind (fun of hof => joinDag_filled halloc hadd hconfig hof) fun of hs₄ => ?_
        split_ifs with hmop
        · refine .mono (joinP2p_slots _ d dio) fun s₅ hs₅ => ?_
          rw [hs₄] at hs₅
          rcases hs₅ with hs₅ | ⟨e, hfree, hs₅⟩
          · rw [Divides, hs₅, Slots.free, Slots.modify_modify]
            refine h.modify fun hlive => ?_
            rcases hlive with hjoined | hp2p
            · cases hjoined
            · exact absurd rfl hp2p
          · have hused : ∀ d', (s₁.slots.slot d').used = ((s.slots.modify d fun _ =>
                joinedSlot dio of (dio.dodagConfig.getD defaultDodagConfig) none).slot d').used := by
              intro d'
              rw [hs₁]
              by_cases hd : d' = d
              · subst hd
                simp only [Slots.modify_slot, Function.update_self]
                rfl
              · simp only [Slots.modify_slot, Function.update_of_ne hd]
            have howner : s₁.slots.owner = s.slots.owner := by
              rw [hs₁]
              rfl
            have hext : s₁.slots.EntryFree e := by
              intro d' hd'
              rw [hused]
              rw [howner] at hd'
              exact hfree d' hd'
            rw [Divides, hs₅]
            refine Slots.Divides.modify (Slots.Divides.setOwner (h.modify fun _ => ?_) e _) fun _ => ?_
            · exact hcopied fun _ => ⟨e, hext⟩
            · simp only [Slots.setOwner_slot, Slots.modify_slot, Function.update_self]
              exact hcopied fun _ => ⟨e, hext⟩
        · refine .ok ?_
          rw [Divides, slots_modifyDag _ d (g := fun slot => { slot with p2p := none }) fun _ => rfl,
            hs₄, Slots.modify_modify]
          exact h.modify fun _ => hcopied fun h => absurd h hmop

end Join

/-! ## Runs -/

section Runs
variable {s s' : Node cfg}

lemma rplSetRoot_divides (h : s.Divides) (dagId : IpAddr) : Ensures (s.rplSetRoot dagId) Divides := by
  refine .mono (s.rplSetRoot_slots dagId) fun s' hs' => ?_
  rw [dropDag_slots_eq] at hs'
  have hdrop := Slots.Divides.drop h (s.rplGetDag rplDefaultInstance none)
  rcases hs' with hs' | ⟨d, of, -, hs'⟩
  · rw [Divides, hs']
    exact hdrop
  · rw [Divides, hs']
    refine hdrop.modify fun _ => ?_
    show defaultDodagConfig.minHoprankinc ≠ 0
    decide

lemma rplDiscoverRoute_divides (h : s.Divides) (process : Option ℕ) (target : IpAddr) :
    Ensures (s.rplDiscoverRoute process target) fun r => r.2.Divides := by
  have hdrop : ({ s with instanceCounter := (s.instanceCounter + 1) % 0x40 }.dropDag
      s.discoveryDrops).Divides := by
    rw [Divides, dropDag_slots_eq]
    exact Slots.Divides.drop h _
  refine .mono (startDiscovery_slots _ s.nextInstance process target) fun r hr => ?_
  rcases hr with hr | ⟨d, -, hr⟩ | ⟨d, e, of, ownAddr, -, -, hr⟩
  · rw [Divides, hr]
    exact hdrop
  · rw [Divides, hr]
    exact (Slots.Divides.allocate hdrop d _).free d
  · rw [Divides, hr]
    refine Slots.Divides.setOwner (Slots.Divides.modify hdrop fun _ => ?_) e _
    show p2pDefaultDodagConfig.minHoprankinc ≠ 0
    decide

lemma purges_divides {σ σ' : Slots cfg} (h : σ.Divides) (hpurges : σ.Purges σ') : σ'.Divides := by
  induction hpurges with
  | refl => exact h
  | tail _ hone ih =>
    obtain ⟨e, d, -, -, rfl⟩ := hone
    exact ih.purge e d

lemma rplProcessDio_divides (h : s.Divides) {from_ : IpAddr} {dio : Dio}
    (hkeep : ∀ dcf, s.Copies from_ dio dcf → dcf.minHoprankinc ≠ 0) :
    Ensures (s.rplProcessDio from_ dio) Divides := by
  intro s' hprocess
  rcases s.rplProcessDio_slots from_ dio s' hprocess with heq | ⟨htried, -⟩
  · rw [Divides, heq]
    exact h
  · rw [rplProcessDio_of_joinTried htried] at hprocess
    exact joinDag_divides h htried hkeep s' hprocess

/-- **A step** keeps the divisors of the joined DAGs. -/
lemma divides_step {e : Event cfg} (h : s.Divides) (hkeep : s.KeepsDivisors e)
    (hstep : s.next e = .ok s') : s'.Divides := by
  have hmove := next_slots hstep
  obtain ⟨packets, hnext⟩ := next_eq_ok.mp hstep
  cases e with
  | processDio from_ dio =>
    obtain ⟨s'', hprocess, hs''⟩ := map_eq_ok.mp hnext
    cases hs''
    exact rplProcessDio_divides h (fun dcf hcopies => hkeep from_ dio dcf rfl hcopies) s' hprocess
  | setRoot dagId =>
    obtain ⟨s'', hroot, hs''⟩ := map_eq_ok.mp hnext
    cases hs''
    exact rplSetRoot_divides h dagId s' hroot
  | discoverRoute process target =>
    obtain ⟨r, hdiscover, hs''⟩ := map_eq_ok.mp hnext
    cases hs''
    exact rplDiscoverRoute_divides h process target r hdiscover
  | purgeDags =>
    rw [Divides]
    generalize s'.slots = σ at hmove
    cases hmove with
    | keep => exact h
    | purge hpurges => exact purges_divides h hpurges
  | _ =>
    rw [Divides]
    generalize s'.slots = σ at hmove
    cases hmove with
    | keep => exact h

/-- In a run in which no zero divisor is copied, the joined DAGs have divisors. -/
lemma reachable_divides (hs : s.ReachableBy KeepsDivisors) : s.Divides := by
  refine hs.invariant (fun s₀ h₀ d hd => ?_) fun s e s' h hkeep hstep => divides_step h hkeep hstep
  rw [h₀.slot] at hd
  rcases hd with hjoined | hp2p
  · cases hjoined
  · exact absurd rfl hp2p

/-- No operation of an event divides by zero. -/
lemma divisors_noZero (h : s.Divides) (howned : s.Owned)
    (hused : ∀ d, (s.dagTable d).joined = true → (s.dagTable d).used = true) {e : Event cfg}
    (hkeep : s.KeepsDivisors e) : NoZero (s.divisors e) := by
  have hjoined : ∀ {instanceId dodagId d}, s.rplGetDag instanceId dodagId = some d →
      (s.dagTable d).joined = true := fun hget => (rplGetDag_eq_some hget).1
  cases e with
  | processDio from_ dio =>
    show NoZero (s.processDioDivisors from_ dio)
    unfold processDioDivisors
    by_cases haccepted : s.dioAccepted from_ dio
    · rw [if_pos haccepted]
      cases hget : s.rplGetDag dio.instanceId (some dio.dagId) with
      | none =>
        by_cases hrank : dio.rank ≠ infiniteRank
        · simp only [if_pos hrank]
          exact joinDagDivisors_noZero ⟨haccepted, hget, hrank⟩ fun dcf hcopies =>
            hkeep from_ dio dcf rfl hcopies
        · simp only [if_neg hrank]
          exact .nil
      | some d =>
        have hd := hjoined hget
        exact processDioOfDivisors_noZero howned (hused d hd) (h d (.inl hd)) from_ dio
    · rw [if_neg haccepted]
      exact .nil
  | dioTimer d =>
    show NoZero (s.dioTimerDivisors d)
    unfold dioTimerDivisors
    split_ifs
    · exact .nil
    · exact .nil
    · exact dioOutputDivisors_noZero fun hp2p => h d (.inr hp2p)
    · exact .nil
  | disInput src dst =>
    show NoZero (s.disInputDivisors dst)
    unfold disInputDivisors
    split
    · exact .nil
    · rename_i d hget
      split_ifs
      · exact .nil
      · exact dioOutputDivisors_noZero fun _ => h d (.inl (hjoined hget))
  | recalculateRanks =>
    show NoZero s.recalculateRanksDivisors
    unfold recalculateRanksDivisors
    split
    · exact .nil
    · rename_i d hget
      split
      · exact .nil
      · rename_i p _
        have hsame : SameFamilies s (s.modifyParent p fun parent =>
            { parent with updated := false }) := .modifyParent s p fun _ => rfl
        apply processParentEventDivisors_noZero (howned.congr hsame)
        rw [(Frame.modifyParent d s p _).divisor]
        exact h d (.inl (hjoined hget))
  | _ => exact .nil

/-- **No division by zero.**  In a run in which no configuration with a zero `min_hoprankinc` is copied
into a DAG, every joined DAG has a divisor, and the next event divides by no zero. -/
theorem no_division_by_zero (hs : s.ReachableBy KeepsDivisors) :
    (∀ d, (s.dagTable d).joined = true → (s.dagTable d).config.minHoprankinc ≠ 0) ∧
      ∀ e, s.KeepsDivisors e → NoZero (s.divisors e) := by
  have h := reachable_divides hs
  exact ⟨fun d hd => h d (.inl hd), fun e hkeep =>
    divisors_noZero h (reachable_owned hs) (reachable_joined_used hs) hkeep⟩

end Runs

/-- A neighbour announces a DAG with the default configuration, and the node joins it. -/
theorem no_division_by_zero_joined : ∃ s : Node .default, s.ReachableBy KeepsDivisors ∧
    (s.dagTable 0).joined = true ∧ (s.dagTable 0).config.minHoprankinc ≠ 0 ∧
      NoZero (s.divisors (.processDio (nodeLinkLocal 1) (globalDio 1))) := by
  have hok : ∀ e ∈ [Event.processDio (nodeLinkLocal 1) (globalDio 1)], ∀ s : Node .default,
      s.KeepsDivisors e := by
    intro e he s from_ dio dcf heq hcopies
    rw [List.mem_singleton.mp he] at heq
    cases heq
    obtain rfl : defaultDodagConfig = dcf := Option.some.inj hcopies.config
    decide
  obtain ⟨s, hs, hjoined⟩ := exists_reachableBy (a := true) 2
    [.processDio (nodeLinkLocal 1) (globalDio 1)] (fun s => (s.dagTable 0).joined) hok
    (by decide +kernel)
  exact ⟨s, hs, hjoined, (no_division_by_zero hs).1 0 hjoined,
    (no_division_by_zero hs).2 _ (hok _ (List.mem_singleton_self _) s)⟩

/-- A DIO whose configuration has no `min_hoprankinc`. -/
def zeroDio : Dio :=
  { globalDio 1 with dodagConfig := some { defaultDodagConfig with minHoprankinc := 0 } }

/-- The node joins the DAG, and divides by zero when it receives the DIO once more. -/
theorem not_no_division_by_zero :
    ¬∀ s : Node .default, s.Reachable → ∀ e, NoZero (s.divisors e) := by
  intro h
  obtain ⟨s, hs, hzero⟩ := exists_reachable (a := true) 2
    [.processDio (nodeLinkLocal 1) zeroDio]
    (fun s => decide (0 ∈ s.divisors (.processDio (nodeLinkLocal 1) zeroDio)))
    (by decide +kernel)
  exact h s hs _ 0 (of_decide_eq_true hzero) rfl

end Node
end Contiki

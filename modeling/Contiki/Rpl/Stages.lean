import Contiki.Rpl.ProcessDio

/-!
# The fate of a DIO

`rpl_process_dio` as a case distinction: a DIO is ignored, makes the node join its DAG, starts a
global repair, or brings its sender into consideration as a parent.  `rplProcessDio_fate` is the
inversion lemma, with all guards that were passed in each case; proofs about `rpl_process_dio` start
from it and never unfold its stages.
-/

namespace Contiki

variable {cfg : Config}

/-- A DAG without its version and its timer. -/
def Dag.still (dag : Dag cfg) : Dag cfg :=
  { dag with
    version := 0
    dioIntcurrent := 0
    dioSend := false
    dioCounter := 0
    dioNextDelay := 0
    dioTimer := none }

namespace Node

/-- A node without the versions and the timers of its DAGs. -/
def still (s : Node cfg) : Node cfg :=
  { s with dagTable := fun d => (s.dagTable d).still, randState := 0 }

variable {s s' : Node cfg} {d : cfg.DagRef} {from_ : IpAddr} {dio : Dio}

/-- What does not depend on versions and timers is the same in states that are still the same. -/
lemma eq_of_still {α : Type*} (h : s'.still = s.still) (f : Node cfg → α)
    (hf : ∀ s : Node cfg, f s.still = f s) : f s' = f s := by
  rw [← hf s', h, hf]

lemma dag_eq_of_still {α : Type*} (h : s'.still = s.still) (d : cfg.DagRef) (f : Dag cfg → α)
    (hf : ∀ dag : Dag cfg, f dag.still = f dag) : f (s'.dagTable d) = f (s.dagTable d) :=
  eq_of_still h (fun s => f (s.dagTable d)) fun s => hf (s.dagTable d)

lemma still_modifyDag (s : Node cfg) (d : cfg.DagRef) {f : Dag cfg → Dag cfg}
    (hf : ∀ dag, (f dag).still = dag.still) : (s.modifyDag d f).still = s.still := by
  have hdag : (fun d' => ((s.modifyDag d f).dagTable d').still) =
      fun d' => (s.dagTable d').still := by
    funext d'
    by_cases hd : d' = d
    · subst hd; simp [hf]
    · simp [hd]
  unfold still
  rw [hdag]
  rfl

lemma newDioInterval_still (s : Node cfg) (d : cfg.DagRef) :
    (s.newDioInterval d).still = s.still := by
  unfold newDioInterval
  exact still_modifyDag s.randomRand.2 d fun _ => rfl

lemma rplResetDioTimer_still (s : Node cfg) (d : cfg.DagRef) (force : Bool) :
    (s.rplResetDioTimer d force).still = s.still := by
  unfold rplResetDioTimer
  simp only
  split_ifs
  · rw [newDioInterval_still]
    exact still_modifyDag s d fun _ => rfl
  · rfl

lemma countDio_still (s : Node cfg) (d : cfg.DagRef) : (s.countDio d).still = s.still :=
  still_modifyDag s d fun _ => rfl

/-! ## The stages -/

/-- The DIO is for the DAG `d`, of the version and with a rank that the DAG does not turn down, and
the node is not the root of the DAG. -/
structure SameVersion (s : Node cfg) (from_ : IpAddr) (dio : Dio) (d : cfg.DagRef) : Prop where
  accepted : s.dioAccepted from_ dio = true
  dag : s.rplGetDag dio.instanceId (some dio.dagId) = some d
  version : dio.version = (s.dagTable d).version
  rank : dio.rank = infiniteRank ∨ ¬dio.rank < (s.dagTable d).rootRank
  notRoot : (s.dagTable d).rank ≠ (s.dagTable d).rootRank

/-- The rank of the DIO is beyond the maximum that the discovery allows. -/
def BeyondMaxRank (s : Node cfg) (d : cfg.DagRef) (dio : Dio) (rdo : Rdo) : Prop :=
  rdo.maxRank > 0 ∧ (s.dagTable d).dagRank dio.rank.toNat > rdo.maxRank.toNat

/-- **The candidate stage**: the sender of the DIO is considered as a parent of the DAG `d`. -/
structure CandidateStage (s : Node cfg) (from_ : IpAddr) (dio : Dio) (d : cfg.DagRef) : Prop
    extends SameVersion s from_ dio d where
  p2p : (s.dagTable d).mop = rplMopP2pRouteDiscovery → ∃ e rdo, (s.dagTable d).p2p = some e ∧
    (s.dagP2pTable e).expired = false ∧ dio.rdo = some rdo ∧ ¬s.BeyondMaxRank d dio rdo

/-- A DIO of infinite rank resets the timer of the DAG before anything else. -/
def resetIfInfinite (s : Node cfg) (d : cfg.DagRef) (dio : Dio) : Node cfg :=
  if dio.rank = infiniteRank then s.rplResetDioTimer d true else s

lemma resetIfInfinite_still (s : Node cfg) (d : cfg.DagRef) (dio : Dio) :
    (s.resetIfInfinite d dio).still = s.still := by
  unfold resetIfInfinite
  split_ifs
  · exact rplResetDioTimer_still s d true
  · rfl

/-- A DIO makes `join_dag` run: it passes the guards, has a finite rank and is for a DAG that
the node has not joined. -/
def JoinTried (s : Node cfg) (from_ : IpAddr) (dio : Dio) : Prop :=
  s.dioAccepted from_ dio = true ∧ s.rplGetDag dio.instanceId (some dio.dagId) = none ∧
    dio.rank ≠ infiniteRank

/-- A DIO starts a global repair of the DAG `d`. -/
structure NewVersion (s : Node cfg) (from_ : IpAddr) (dio : Dio) (d : cfg.DagRef) : Prop where
  accepted : s.dioAccepted from_ dio = true
  dag : s.rplGetDag dio.instanceId (some dio.dagId) = some d
  version : dio.version > (s.dagTable d).version
  notRoot : (s.dagTable d).rank ≠ (s.dagTable d).rootRank

/-- What `rpl_process_dio` comes to. -/
inductive DioFate (s : Node cfg) (from_ : IpAddr) (dio : Dio) : Except Fault (Node cfg) → Prop
  | ignored {s' : Node cfg} : s'.still = s.still → DioFate s from_ dio (.ok s')
  | join : s.JoinTried from_ dio → DioFate s from_ dio (s.joinDag from_ dio)
  | repair {d : cfg.DagRef} : s.NewVersion from_ dio d →
      DioFate s from_ dio (s.globalRepair from_ d dio)
  | candidate {d : cfg.DagRef} : s.CandidateStage from_ dio d →
      DioFate s from_ dio ((s.resetIfInfinite d dio).processCandidate d from_ dio)
  | noExtension {d : cfg.DagRef} : s.SameVersion from_ dio d →
      (s.dagTable d).mop = rplMopP2pRouteDiscovery → (s.dagTable d).p2p = none →
      DioFate s from_ dio (.error .nullP2p)
  | noRdo {d : cfg.DagRef} {e : cfg.P2pRef} : s.SameVersion from_ dio d →
      (s.dagTable d).mop = rplMopP2pRouteDiscovery → (s.dagTable d).p2p = some e →
      (s.dagP2pTable e).expired = false → dio.rdo = none → DioFate s from_ dio (.error .nullRdo)

/-- The stage of `processSameVersion`, entered in a state `s₁` that differs from `s` in a timer. -/
lemma processSameVersion_fate {s₁ : Node cfg} (hs₁ : s₁ = s.resetIfInfinite d dio)
    (haccepted : s.dioAccepted from_ dio = true)
    (hget : s.rplGetDag dio.instanceId (some dio.dagId) = some d)
    (hversion : dio.version = (s.dagTable d).version)
    (hrank : dio.rank = infiniteRank ∨ ¬dio.rank < (s.dagTable d).rootRank) :
    DioFate s from_ dio (s₁.processSameVersion d from_ dio) := by
  have hstill : s₁.still = s.still := hs₁ ▸ resetIfInfinite_still s d dio
  have hext := eq_of_still hstill Node.dagP2pTable fun _ => rfl
  have hrank₁ := dag_eq_of_still hstill d Dag.rank fun _ => rfl
  have hroot₁ := dag_eq_of_still hstill d Dag.rootRank fun _ => rfl
  have hmop₁ := dag_eq_of_still hstill d Dag.mop fun _ => rfl
  have hp2p₁ := dag_eq_of_still hstill d Dag.p2p fun _ => rfl
  have hdagRank₁ := dag_eq_of_still hstill d Dag.dagRank fun _ => rfl
  unfold processSameVersion
  simp only [hrank₁, hroot₁, hmop₁, hp2p₁, derefP2p, hdagRank₁]
  split_ifs with hroot hinfinite hmop
  · exact .ignored ((countDio_still s₁ d).trans hstill)
  · exact .ignored hstill
  · have hsame : s.SameVersion from_ dio d := ⟨haccepted, hget, hversion, hrank, hroot⟩
    cases hp2p : (s.dagTable d).p2p with
    | none => exact .noExtension hsame hmop hp2p
    | some e =>
        simp only [deref_some, ok_bind, hext]
        split_ifs with hexpired
        · exact .ignored hstill
        · rw [Bool.not_eq_true] at hexpired
          cases hrdo : dio.rdo with
          | none => exact .noRdo hsame hmop hp2p hexpired hrdo
          | some rdo =>
              simp only [deref_some, ok_bind]
              split_ifs with hmax
              · exact .ignored hstill
              · rw [hs₁]
                exact .candidate ⟨hsame, fun _ => ⟨e, rdo, hp2p, hexpired, hrdo, hmax⟩⟩
  · rw [hs₁]
    exact .candidate ⟨⟨haccepted, hget, hversion, hrank, hroot⟩, fun h => absurd h hmop⟩

/-- **The fate of a DIO.** -/
theorem rplProcessDio_fate (s : Node cfg) (from_ : IpAddr) (dio : Dio) :
    DioFate s from_ dio (s.rplProcessDio from_ dio) := by
  unfold rplProcessDio
  split
  · rename_i haccepted
    split
    · rename_i hnone
      split_ifs with hrank
      · exact .join ⟨haccepted, hnone, hrank⟩
      · exact .ignored rfl
    · rename_i d hget
      unfold processDioOf
      simp only
      split_ifs with hid hnew hroot hold hinfinite hlow
      · exact .ignored rfl
      · refine .ignored ((rplResetDioTimer_still _ d true).trans ?_)
        exact still_modifyDag s d fun _ => rfl
      · exact .repair ⟨haccepted, hget, hnew, hroot⟩
      · exact .ignored (rplResetDioTimer_still s d true)
      · refine processSameVersion_fate ?_ haccepted hget
          (UInt8.le_antisymm (by simpa using hnew) (by simpa using hold)) (.inl hinfinite)
        rw [resetIfInfinite, if_pos hinfinite]
      · exact .ignored rfl
      · refine processSameVersion_fate ?_ haccepted hget
          (UInt8.le_antisymm (by simpa using hnew) (by simpa using hold)) (.inr hlow)
        rw [resetIfInfinite, if_neg hinfinite]
  · exact .ignored rfl

/-! ## The stages as equations -/

lemma dagId_of_get {instanceId : UInt8} {dagId : IpAddr}
    (h : s.rplGetDag instanceId (some dagId) = some d) : (s.dagTable d).dagId = dagId := by
  have hfound := List.find?_some h
  simp only [Bool.and_eq_true, beq_iff_eq] at hfound
  exact hfound.2

lemma rplProcessDio_of_joinTried (h : s.JoinTried from_ dio) :
    s.rplProcessDio from_ dio = s.joinDag from_ dio := by
  obtain ⟨haccepted, hnone, hrank⟩ := h
  unfold rplProcessDio
  rw [if_pos haccepted, hnone]
  exact if_pos hrank

lemma rplProcessDio_of_newVersion (h : s.NewVersion from_ dio d) :
    s.rplProcessDio from_ dio = s.globalRepair from_ d dio := by
  have hid := dagId_of_get h.dag
  unfold rplProcessDio processDioOf
  simp only [h.accepted, if_true, h.dag, hid, ne_eq, not_true_eq_false, if_false, h.version,
    h.notRoot]

lemma rplProcessDio_of_sameVersion (h : s.SameVersion from_ dio d) :
    s.rplProcessDio from_ dio = (s.resetIfInfinite d dio).processSameVersion d from_ dio := by
  have hid := dagId_of_get h.dag
  unfold rplProcessDio processDioOf resetIfInfinite
  simp only [h.accepted, if_true, h.dag, hid, ne_eq, not_true_eq_false, if_false, gt_iff_lt,
    h.version, UInt8.lt_irrefl]
  obtain hinfinite | hrank := h.rank
  · simp [hinfinite]
  · split_ifs <;> rfl

lemma rplProcessDio_of_candidateStage (h : s.CandidateStage from_ dio d) :
    s.rplProcessDio from_ dio = (s.resetIfInfinite d dio).processCandidate d from_ dio := by
  have hstill := resetIfInfinite_still s d dio
  have hext := eq_of_still hstill Node.dagP2pTable fun _ => rfl
  have hrank := dag_eq_of_still hstill d Dag.rank fun _ => rfl
  have hroot := dag_eq_of_still hstill d Dag.rootRank fun _ => rfl
  have hmop' := dag_eq_of_still hstill d Dag.mop fun _ => rfl
  have hp2p' := dag_eq_of_still hstill d Dag.p2p fun _ => rfl
  have hdagRank := dag_eq_of_still hstill d Dag.dagRank fun _ => rfl
  rw [rplProcessDio_of_sameVersion h.toSameVersion]
  simp only [processSameVersion, hrank, hroot, h.notRoot, if_false, hmop']
  split_ifs with hmop
  · obtain ⟨e, rdo, hp2p, hexpired, hrdo, hmax⟩ := h.p2p hmop
    simp only [derefP2p, hp2p', hp2p, deref_some, ok_bind, hext, hexpired, Bool.false_eq_true,
      if_false, hrdo, hdagRank]
    exact if_neg hmax
  · rfl

end Node
end Contiki

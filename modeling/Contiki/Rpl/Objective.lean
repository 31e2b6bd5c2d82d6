import Contiki.Rpl.Node

/-!
# The objective functions

`rpl_of_etx` and `rpl_of0` with the operations of `rpl_of_t` that do something: `best_parent`,
`calculate_rank`, `update_metric_container` and `p2p_route_cmp`.  The `reset` and
`parent_state_callback` operations of both have no effect, so of a call to one of them only the
access to `dag->of` is left.

Everything here only reads the state, except that `update_metric_container` writes `dag->mc`.
-/

namespace Contiki
namespace Node
variable {cfg : Config} (s : Node cfg)

/-! ## `rpl_of_etx` -/

/-- `MAX_PATH_COST * RPL_DAG_MC_ETX_DIVISOR`. -/
def maxPathMetric : UInt16 := 100 * rplDagMcEtxDivisor

/-- `NI_ETX_TO_RPL_ETX` of a link metric, as it is added to a path metric. -/
def niEtxToRplEtx (linkMetric : UInt8) : UInt16 :=
  linkMetric.toUInt16 * (rplDagMcEtxDivisor / neighborInfoEtxDivisor.toUInt16)

def calculatePathMetric (d : cfg.DagRef) : Option cfg.ParentRef → UInt16
  | none => maxPathMetric
  | some p =>
    let parent := s.parent p
    if parent.mc.obj = 0 ∧ parent.rank > (s.parentDag d p).rootRank then maxPathMetric
    else parent.mc.obj + niEtxToRplEtx parent.linkMetric

/-- `RPL_DAG_MC_ETX_DIVISOR / PARENT_SWITCH_THRESHOLD_DIV`. -/
def etxMinDiff : ℤ := 64

/-- Two values differ by less than `diff`, in the arithmetic of the platform. -/
def similar (cfg : Config) (diff : ℤ) (a b : UInt16) : Bool :=
  (a.toNat : ℤ) < cfg.cInt (b.toNat + diff) && (a.toNat : ℤ) > cfg.cInt (b.toNat - diff)

/-- `calculate_rank` of `rpl_of_etx`. -/
def etxCalculateRank (d : cfg.DagRef) (p : Option cfg.ParentRef) (baseRank : UInt16) : UInt16 :=
  match p with
  | none =>
    if baseRank = 0 then infiniteRank
    else
      let rankIncrease : UInt16 :=
        (initialLinkMetric / neighborInfoEtxDivisor).toUInt16 * defaultMinHoprankinc
      if infiniteRank - baseRank < rankIncrease then infiniteRank else baseRank + rankIncrease
  | some p =>
    let rankIncrease : UInt16 :=
      ((s.parent p).linkMetric / neighborInfoEtxDivisor).toUInt16 *
        (s.parentDag d p).config.minHoprankinc
    let baseRank := if baseRank = 0 then (s.parent p).rank else baseRank
    if infiniteRank - baseRank < rankIncrease then infiniteRank else baseRank + rankIncrease

/-- `best_parent` of `rpl_of_etx`; with similar metrics the preferred parent is kept. -/
def etxBestParent (d : cfg.DagRef) (p1 p2 : cfg.ParentRef) : Option cfg.ParentRef :=
  let dag := s.parentDag d p1
  let p1Metric := s.calculatePathMetric d (some p1)
  let p2Metric := s.calculatePathMetric d (some p2)
  if (some p1 = dag.preferredParent ∨ some p2 = dag.preferredParent) ∧
      similar cfg etxMinDiff p1Metric p2Metric then dag.preferredParent
  else if p1Metric < p2Metric then some p1 else some p2

/-- `update_metric_container` of `rpl_of_etx`. -/
def etxMetricContainer (d : cfg.DagRef) : MetricContainer :=
  let dag := s.dagTable d
  let pathMetric :=
    if dag.rank = dag.rootRank then 0 else s.calculatePathMetric d dag.preferredParent
  match cfg.dagMc with
  | .etx =>
    { flags := rplDagMcFlagP, aggr := rplDagMcAggrAdditive, prec := 0
      type := rplDagMcEtx, length := 2, obj := pathMetric }
  | .energy =>
    -- mains powered at the root, battery powered elsewhere
    let type : UInt8 := if dag.rank = dag.rootRank then 0 else 1
    { flags := rplDagMcFlagP, aggr := rplDagMcAggrAdditive, prec := 0
      type := rplDagMcEnergy, length := 2
      obj := MetricContainer.energyObj (type <<< 1) pathMetric.toUInt8 }

/-- `p2p_route_cmp` of `rpl_of_etx`. -/
def etxP2pRouteCmp (d : cfg.DagRef) (dio : Dio) (p : Option cfg.ParentRef) : ℤ :=
  let dagMetric := (s.dagTable d).mc.obj
  let dioMetric := match p with
    | none => dio.mc.obj
    | some p => dio.mc.obj + niEtxToRplEtx (s.parent p).linkMetric
  if similar cfg etxMinDiff dioMetric dagMetric then 0
  else if dioMetric > dagMetric then -1 else 1

/-! ## `rpl_of0` -/

def of0MinDifference : ℤ := 16

/-- `DAG_RANK` of a rank as a multiple of `NEIGHBOR_INFO_ETX_DIVISOR`. -/
def of0Rank (dag : Dag cfg) (rank : ℕ) : UInt16 :=
  UInt16.ofNat (dag.dagRank rank) * neighborInfoEtxDivisor.toUInt16

/-- `calculate_rank` of `rpl_of0`. -/
def of0CalculateRank (d : cfg.DagRef) (p : Option cfg.ParentRef) (baseRank : UInt16) : UInt16 :=
  match p with
  | none =>
    if baseRank = 0 then infiniteRank
    else if baseRank + defaultMinHoprankinc < baseRank then infiniteRank
    else baseRank + defaultMinHoprankinc
  | some p =>
    let baseRank := if baseRank = 0 then (s.parent p).rank else baseRank
    let increment := (s.parentDag d p).config.minHoprankinc
    if baseRank + increment < baseRank then infiniteRank else baseRank + increment

/-- `best_parent` of `rpl_of0`, which answers with the preferred parent, even if there is none,
when the two are similar. -/
def of0BestParent (d : cfg.DagRef) (p1 p2 : cfg.ParentRef) : Option cfg.ParentRef :=
  let dag := s.parentDag d p1
  let r1 := of0Rank dag (s.parent p1).rank.toNat + (s.parent p1).linkMetric.toUInt16
  let r2 := of0Rank dag (s.parent p2).rank.toNat + (s.parent p2).linkMetric.toUInt16
  if similar cfg of0MinDifference r1 r2 then dag.preferredParent
  else if r1 < r2 then some p1 else some p2

/-- `update_metric_container` of `rpl_of0`. -/
def of0MetricContainer (d : cfg.DagRef) : MetricContainer :=
  { (s.dagTable d).mc with type := rplDagMcNone }

/-- `p2p_route_cmp` of `rpl_of0`. -/
def of0P2pRouteCmp (d : cfg.DagRef) (dio : Dio) (p : Option cfg.ParentRef) : ℤ :=
  let dag := s.dagTable d
  let dagRank := of0Rank dag dag.rank.toNat
  let dioRank := match p with
    | none => of0Rank dag dio.rank.toNat
    | some _ =>
      of0Rank dag (cfg.cInt (dio.rank.toNat + dag.config.minHoprankinc.toNat)).toNat
  if similar cfg of0MinDifference dioRank dagRank then 0
  else if dioRank > dagRank then -1 else 1

/-! ## Calls through `dag->of` -/

/-- `of->calculate_rank (p, base_rank)`. -/
def calculateRank (of : ObjectiveFunction) (d : cfg.DagRef) (p : Option cfg.ParentRef)
    (baseRank : UInt16) : UInt16 :=
  match of with
  | .etx => s.etxCalculateRank d p baseRank
  | .of0 => s.of0CalculateRank d p baseRank

/-- `of->best_parent (p1, p2)`. -/
def bestParent (of : ObjectiveFunction) (d : cfg.DagRef) (p1 p2 : cfg.ParentRef) :
    Option cfg.ParentRef :=
  match of with
  | .etx => s.etxBestParent d p1 p2
  | .of0 => s.of0BestParent d p1 p2

/-- `of->update_metric_container (dag)`. -/
def updateMetricContainer (of : ObjectiveFunction) (d : cfg.DagRef) : Node cfg :=
  s.modifyDag d fun dag => { dag with
    mc := match of with
      | .etx => s.etxMetricContainer d
      | .of0 => s.of0MetricContainer d }

/-- `of->p2p_route_cmp (dag, dio, p)`. -/
def p2pRouteCmp (of : ObjectiveFunction) (d : cfg.DagRef) (dio : Dio)
    (p : Option cfg.ParentRef) : ℤ :=
  match of with
  | .etx => s.etxP2pRouteCmp d dio p
  | .of0 => s.of0P2pRouteCmp d dio p

/-- An objective function chooses one of the two parents, or the preferred one. -/
lemma bestParent_cases (of : ObjectiveFunction) (d : cfg.DagRef) (p1 p2 : cfg.ParentRef) :
    s.bestParent of d p1 p2 = some p1 ∨ s.bestParent of d p1 p2 = some p2 ∨
      s.bestParent of d p1 p2 = (s.parentDag d p1).preferredParent := by
  cases of <;> simp only [bestParent, etxBestParent, of0BestParent] <;> split_ifs <;> simp

end Node

/-- `ocp` of an objective function. -/
def ObjectiveFunction.ocp : ObjectiveFunction → UInt16
  | .etx => 1
  | .of0 => 0

/-- `rpl_find_of`: the only objective function that is linked in is `RPL_OF`. -/
def rplFindOf (cfg : Config) (ocp : UInt16) : Option ObjectiveFunction :=
  if cfg.rplOf.ocp = ocp then some cfg.rplOf else none

end Contiki

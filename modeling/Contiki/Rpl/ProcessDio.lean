import Contiki.Rpl.P2p

/-!
# Processing a DIO

`join_dag` and `rpl_process_dio`.  The long body of `rpl_process_dio` is cut at its stages, in
the order in which a DIO passes them: the guards (`dioAccepted`), the version and rank checks
(`processDioOf`, `processSameVersion`), the choice of the candidate parent (`processCandidate`)
and what is done with it (`processCandidateParent`, `processP2pDio`).
-/

namespace Contiki
namespace Node
variable {cfg : Config} (s : Node cfg)

/-! ## Joining a DAG -/

/-- `uip_ds6_addr_add` of an address without lifetime; a random number goes into the timer for
duplicate address detection. -/
def uipDs6AddrAdd (ipaddr : IpAddr) : Node cfg :=
  match uipDs6ListLoop (fun i => (s.addrList i).toDs6Element) ipaddr 128 with
  | .freespace i =>
    { s.randomRand.2 with
      addrList := Function.update s.addrList i
        { isused := true, ipaddr, state := .tentative, isinfinite := true }
      maddrList := uipDs6MaddrAdd s.maddrList ipaddr.uipCreateSolicitedNode }
  | _ => s

/-- The address that `join_dag` configures for the announced prefix, if the node has none with
that prefix. -/
def autoconfigure (prefixInfo : RplPrefix) : Node cfg :=
  if prefixInfo.flags &&& raFlagAutonomous = 0 then s
  else
    match uipDs6ListLoop (fun i => (s.addrList i).toDs6Element) prefixInfo.prefixAddr 64 with
    | .found _ => s
    | _ => s.uipDs6AddrAdd (prefixInfo.prefixAddr.uipDs6SetAddrIid s.lladdr)

/-- The DODAG configuration of `join_dag`; no result when the DIO specifies an objective
function that is not supported. -/
def joinConfig (d : cfg.DagRef) (dio : Dio) : Option (Node cfg) :=
  match dio.dodagConfig with
  | none => some ((s.rplSetDodagConfig d defaultDodagConfig).getD s)
  | some dcf => s.rplSetDodagConfig d dcf

/-- The prefix information option, in `join_dag`. -/
def joinPrefix (d : cfg.DagRef) (dio : Dio) : Node cfg :=
  match dio.prefixInfo with
  | none => s
  | some prefixInfo =>
    (s.autoconfigure prefixInfo).modifyDag d fun dag => { dag with prefixInfo }

/-- The middle of `join_dag`: the DAG is filled in, its DIO timer starts, and its first parent
becomes the default router. -/
def enterDag (of : ObjectiveFunction) (d : cfg.DagRef) (p : cfg.ParentRef) (from_ : IpAddr)
    (dio : Dio) : Node cfg :=
  let s := s.modifyDag d fun dag => { dag with
    joined := true
    grounded := dio.grounded
    mop := dio.mop
    preference := dio.preference
    instanceId := dio.instanceId
    version := dio.version
    preferredParent := some p }
  let s := s.updateMetricContainer of d
  let rank := s.calculateRank of d (some p) dio.rank
  let s := s.modifyDag d fun dag => { dag with dagId := dio.dagId, rank, minRank := rank }
  (s.rplResetDioTimer d true).rplSetDefaultRoute d (some from_)

/-- The end of `join_dag` for a DIO in P2P mode. -/
def joinP2p (d : cfg.DagRef) (dio : Dio) : Except Fault (Node cfg) := do
  let rdo ← deref dio.rdo .nullRdo
  let dag := s.dagTable d
  if rdo.maxRank > 0 ∧ dag.dagRank dag.rank.toNat > rdo.maxRank.toNat then
    .ok (s.rplFreeDag d)
  else
    match s.rplP2pAllocDag d with
    | none => .ok (s.rplFreeDag d)
    | some (e, s) => do
      let s ← (s.modifyDag d fun dag => { dag with p2p := some e }).rplP2pUpdateDag d dio
      (s.modifyP2p e fun p2p =>
        { p2p with lifetime := rplP2pLt2sec p2p.rdoLifetime }).rplP2pProcessTarget d

def joinDag (from_ : IpAddr) (dio : Dio) : Except Fault (Node cfg) :=
  match s.rplAllocDag dio.instanceId with
  | none => .ok s
  | some (d, s) =>
    match s.rplAddParent d dio from_ with
    | (none, s) => .ok s
    | (some p, s) =>
      match s.joinConfig d dio with
      | none => .ok s
      | some s => do
        let s := s.joinPrefix d dio
        let of ← s.derefOf d
        let s := s.enterDag of d p from_ dio
        if dio.mop = rplMopP2pRouteDiscovery then s.joinP2p d dio
        else .ok (s.modifyDag d fun dag => { dag with p2p := none })

/-! ## The stages of `rpl_process_dio` -/

/-- `dag->dio_counter++`. -/
def countDio (d : cfg.DagRef) : Node cfg :=
  s.modifyDag d fun dag => { dag with dioCounter := dag.dioCounter + 1 }

/-- The guards at the start: the mode of operation, the route discovery option of a P2P mode
DIO, the link to the sender, and the constraints of the discovery. -/
def dioAccepted (from_ : IpAddr) (dio : Dio) : Bool :=
  if dio.mop ≠ rplMopDefault ∧ dio.mop ≠ rplMopP2pRouteDiscovery then false
  else if dio.mop = rplMopP2pRouteDiscovery ∧ dio.rdo = none then false
  else
    match s.nbrMetric from_ with
    | none => false
    | some metric =>
      if metric > maxBidirectionalMetric then false
      else !(dio.mop == rplMopP2pRouteDiscovery && !rplP2pMeetsConstraints dio.mc dio.constr)

/-- The loop that reduces the parents to the candidate and the preferred parent.  Removing an
element clears its `next` pointer and so ends the loop: at most one parent is removed. -/
def pruneParents (d : cfg.DagRef) (p : cfg.ParentRef) : Node cfg :=
  match (s.dagTable d).parents.find? fun p2 =>
      p2 ≠ p ∧ some p2 ≠ (s.dagTable d).preferredParent with
  | none => s
  | some p2 => s.rplRemoveParent d p2

/-- The DIO leads to a better route than the one advertised: what it says is taken over, and it
counts as inconsistent. -/
def adoptRoute (d : cfg.DagRef) (dio : Dio) : Except Fault (Node cfg) := do
  -- the preferred parent is printed
  let _ ← deref (s.dagTable d).preferredParent .nullPreferredParent
  let s ← s.rplP2pUpdateDag d dio
  .ok (s.rplResetDioTimer d true)

/-- The DIO leads to a route with the same metric: it is cached if it is another one. -/
def cacheAlternative (d : cfg.DagRef) (dio : Dio) : Except Fault (Node cfg) := do
  let e ← s.derefP2p d
  let rdo ← deref dio.rdo .nullRdo
  if s.rplP2pRouteDiffers d e rdo then do
    s.rplPrintRdo dio.dagId
    .ok (s.rplP2pAddPartialRoute d e rdo).2
  else .ok s

/-- A DIO from another node than the preferred parent counts as consistent. -/
def countConsistent (d : cfg.DagRef) (p : cfg.ParentRef) : Node cfg :=
  if some p = (s.dagTable d).preferredParent then s else s.countDio d

/-- The DIO advertises a route at least as good as ours, without improving ours. -/
def considerRoute (of : ObjectiveFunction) (d : cfg.DagRef) (p : cfg.ParentRef) (dio : Dio) :
    Except Fault (Node cfg) :=
  let s := s.countConsistent d p
  if s.p2pRouteCmp of d dio (some p) ≥ 0 then s.cacheAlternative d dio else .ok s

/-- The trickle rules of P2P mode, which go by the route metrics alone. -/
def trickleP2p (of : ObjectiveFunction) (d : cfg.DagRef) (p : cfg.ParentRef) (dio : Dio)
    (advRouteImproved : Bool) : Except Fault (Node cfg) :=
  if advRouteImproved then s.adoptRoute d dio
  else if s.p2pRouteCmp of d dio none ≥ 0 then s.considerRoute of d p dio
  else .ok s

/-- What a DIO in P2P mode does after its sender was processed as a parent. -/
def processP2pDio (d : cfg.DagRef) (p : cfg.ParentRef) (dio : Dio) (advRouteImproved : Bool) :
    Except Fault (Node cfg) :=
  if dio.mop = rplMopP2pRouteDiscovery then do
    let of ← s.derefOf d
    let s ← s.trickleP2p of d p dio advRouteImproved
    s.rplP2pProcessTarget d
  else .ok s

/-- Whether a DIO in P2P mode will improve the route that is advertised, after the other
parents were removed. -/
def compareRoute (d : cfg.DagRef) (p : cfg.ParentRef) (dio : Dio) :
    Except Fault (Bool × Node cfg) :=
  if dio.mop = rplMopP2pRouteDiscovery then do
    let s := s.pruneParents d p
    let of ← s.derefOf d
    .ok (decide (s.p2pRouteCmp of d dio (some p) > 0), s)
  else .ok (false, s)

/-- The candidate parent `p` is judged by what the DIO says: whether the route that is advertised
improves, whether the parent stays, and the state after that. -/
def judgeParent (d : cfg.DagRef) (p : cfg.ParentRef) (dio : Dio) :
    Except Fault (Bool × Bool × Node cfg) := do
  let (advRouteImproved, s) ← s.compareRoute d p dio
  let s := s.modifyParent p fun parent => { parent with mc := dio.mc, rank := dio.rank }
  let (stays, s) ← s.rplProcessParentEvent d p
  .ok (advRouteImproved, stays, s)

/-- What is done with the candidate parent `p`. -/
def processCandidateParent (d : cfg.DagRef) (p : cfg.ParentRef) (dio : Dio) :
    Except Fault (Node cfg) := do
  let (advRouteImproved, stays, s) ← s.judgeParent d p dio
  if stays then do
    let s ← s.processP2pDio d p dio advRouteImproved
    .ok (s.modifyParent p fun parent => { parent with dtsn := dio.dtsn })
  else .ok s

/-- The candidate parent: the sender of the DIO, which is added if it is not a parent yet. -/
def candidateParent (d : cfg.DagRef) (from_ : IpAddr) (dio : Dio) :
    Option cfg.ParentRef × Node cfg :=
  match s.rplFindParent d from_ with
  | none =>
    let s :=
      if (s.dagTable d).parents.length = cfg.maxParents then s.removeWorstParent d dio.rank
      else s
    s.rplAddParent d dio from_
  | some p =>
    let dag := s.dagTable d
    let consistent :=
      dag.dagRank (s.parent p).rank.toNat = dag.dagRank dio.rank.toNat ∧ dag.p2p = none
    (some p, if consistent then s.countDio d else s)

/-- The sender of the DIO is considered as a parent. -/
def processCandidate (d : cfg.DagRef) (from_ : IpAddr) (dio : Dio) : Except Fault (Node cfg) :=
  match s.candidateParent d from_ dio with
  | (none, s) => .ok s
  | (some p, s) => s.processCandidateParent d p dio

/-- A DIO of the version the node knows. -/
def processSameVersion (d : cfg.DagRef) (from_ : IpAddr) (dio : Dio) : Except Fault (Node cfg) :=
  let dag := s.dagTable d
  if dag.rank = dag.rootRank then
    .ok (if dio.rank ≠ infiniteRank then s.countDio d else s)
  else if dag.mop = rplMopP2pRouteDiscovery then do
    let e ← s.derefP2p d
    if (s.dagP2pTable e).expired then .ok s
    else
      let rdo ← deref dio.rdo .nullRdo
      if rdo.maxRank > 0 ∧ dag.dagRank dio.rank.toNat > rdo.maxRank.toNat then .ok s
      else s.processCandidate d from_ dio
  else s.processCandidate d from_ dio

/-- A DIO of the DAG `d`. -/
def processDioOf (d : cfg.DagRef) (from_ : IpAddr) (dio : Dio) : Except Fault (Node cfg) :=
  let dag := s.dagTable d
  if dag.dagId ≠ dio.dagId then .ok s
  else if dio.version > dag.version then
    if dag.rank = dag.rootRank then
      .ok ((s.modifyDag d fun dag => { dag with version := dio.version + 1 }
        ).rplResetDioTimer d true)
    else s.globalRepair from_ d dio
  else if dio.version < dag.version then .ok (s.rplResetDioTimer d true)
  else if dio.rank = infiniteRank then (s.rplResetDioTimer d true).processSameVersion d from_ dio
  else if dio.rank < dag.rootRank then .ok s
  else s.processSameVersion d from_ dio

def rplProcessDio (from_ : IpAddr) (dio : Dio) : Except Fault (Node cfg) :=
  if s.dioAccepted from_ dio then
    match s.rplGetDag dio.instanceId (some dio.dagId) with
    | none => if dio.rank ≠ infiniteRank then s.joinDag from_ dio else .ok s
    | some d => s.processDioOf d from_ dio
  else .ok s

end Node
end Contiki

import Contiki.Rpl.Objective

/-!
# DAG management

The functions of `rpl-dag.c` (and `rpl_add_route` and its relatives of `rpl.c`) on DAGs, parents
and routes, up to parent selection and the repairs.  Joining a DAG and processing a DIO need the
P2P extension and follow in their own modules.
-/

namespace Contiki
namespace Node
variable {cfg : Config} (s : Node cfg)

/-! ## Routes -/

/-- `rpl_remove_routes`: the routes whose `state.dag` is the DAG. -/
def rplRemoveRoutes (d : cfg.DagRef) : Node cfg :=
  { s with routingTable := fun i =>
      if (s.routingTable i).state.dag = some d then { s.routingTable i with isused := false }
      else s.routingTable i }

/-- The index of the entry that is to expire next, in `rpl_add_route`. -/
def nextToExpire : List (Fin cfg.routeNb) → Option (Fin cfg.routeNb) → Option (Fin cfg.routeNb)
  | [], iMin => iMin
  | i :: rest, none => nextToExpire rest (some i)
  | i :: rest, some iMin =>
    if (s.routingTable i).state.lifetime < (s.routingTable iMin).state.lifetime then
      nextToExpire rest (some i)
    else nextToExpire rest (some iMin)

/-- The entry that `rpl_add_route` adds: into a free one, or into the place of the route that is
to expire next. -/
def addNewRoute (prefixAddr : IpAddr) (prefixLen : UInt8) (nextHop : IpAddr) :
    Option (Fin cfg.routeNb) × Node cfg :=
  match uipDs6RouteAdd s.routingTable prefixAddr prefixLen nextHop 0 with
  | (some rep, table) => (some rep, { s with routingTable := table })
  | (none, table) =>
    let table := match s.nextToExpire (List.finRange cfg.routeNb) none with
      | none => table
      | some iMin => uipDs6RouteRm table iMin
    -- try again
    let (rep, table) := uipDs6RouteAdd table prefixAddr prefixLen nextHop 0
    (rep, { s with routingTable := table })

/-- Overwrite a route. -/
@[simps]
def setRoute (i : Fin cfg.routeNb) (route : Ds6Route cfg.DagRef) : Node cfg :=
  { s with routingTable := Function.update s.routingTable i route }

def rplAddRoute (dag : Option cfg.DagRef) (prefixAddr : IpAddr) (prefixLen : UInt8)
    (nextHop : IpAddr) : Option (Fin cfg.routeNb) × Node cfg :=
  let added := match uipDs6RouteLookup s.routingTable prefixAddr with
    | some rep => (some rep, s.setRoute rep { s.routingTable rep with nexthop := nextHop })
    | none => s.addNewRoute prefixAddr prefixLen nextHop
  match added with
  | (none, s) => (none, s)
  | (some rep, s) =>
    let route := s.routingTable rep
    (some rep, s.setRoute rep { route with state := { route.state with
      dag := dag
      lifetime := match dag with
        | none => rplDefaultLifetime.toUInt32 * rplDefaultLifetimeUnit.toUInt32
        | some d => (s.dagTable d).rplLifetime (s.dagTable d).config.defaultLifetime
      learnedFrom := 0 } })

/-- The removal of the old default route, in `rpl_set_default_route`. -/
def rmDefRoute (d : cfg.DagRef) : Node cfg :=
  match (s.dagTable d).defRoute with
  | none => s
  | some r => { s with defrtList := uipDs6DefrtRm s.defrtList r }

/-- `rpl_set_default_route`; its result is not read by any caller. -/
def rplSetDefaultRoute (d : cfg.DagRef) (from_ : Option IpAddr) : Node cfg :=
  let dag := s.dagTable d
  -- no default routes in P2P mode
  if dag.mop = rplMopP2pRouteDiscovery then s
  else
    let s := s.rmDefRoute d
    match from_ with
    | none => s
    | some addr =>
      let added := uipDs6DefrtAdd s.defrtList addr (dag.rplLifetime dag.config.defaultLifetime)
      { s with defrtList := added.2 }.modifyDag d fun dag => { dag with defRoute := added.1 }

/-! ## Parents -/

/-- The routes and the default router that go with a parent, in `rpl_remove_parent`. -/
def rmParentRoutes (d : cfg.DagRef) (addr : IpAddr) : Node cfg :=
  -- no routes are removed in P2P mode
  if (s.dagTable d).p2p = none then
    let s := { s with routingTable := uipDs6RouteRmByNexthop s.routingTable addr }
    match uipDs6DefrtLookup s.defrtList addr with
    | none => s
    | some defrt =>
      { s with defrtList := uipDs6DefrtRm s.defrtList defrt }.modifyDag d fun dag =>
        { dag with defRoute := none }
  else s

def rplRemoveParent (d : cfg.DagRef) (p : cfg.ParentRef) : Node cfg :=
  let s := s.rmParentRoutes d (s.parent p).addr
  let s := s.modifyDag d fun dag => { dag with
    preferredParent := if some p = dag.preferredParent then none else dag.preferredParent
    parents := listRemove dag.parents p }
  { s with parentMemb := s.parentMemb.free p }

/-- The loop of `rpl_remove_parents` over the list as it was when the loop started; removing a
parent changes no other element. -/
def removeParentsFrom (d : cfg.DagRef) (minimumRank : UInt16) :
    List cfg.ParentRef → Node cfg → Node cfg
  | [], s => s
  | p :: rest, s =>
    removeParentsFrom d minimumRank rest
      (if (s.parent p).rank ≥ minimumRank then s.rplRemoveParent d p else s)

def rplRemoveParents (d : cfg.DagRef) (minimumRank : UInt16) : Node cfg :=
  removeParentsFrom d minimumRank (s.dagTable d).parents s

/-- The loop of `remove_worst_parent`: the first parent of highest rank, the preferred parent
aside. -/
def worstParent (d : cfg.DagRef) : List cfg.ParentRef → Option cfg.ParentRef →
    Option cfg.ParentRef
  | [], worst => worst
  | p :: rest, worst =>
    let worse : Bool := match worst with
      | none => true
      | some w => (s.parent p).rank > (s.parent w).rank
    worstParent d rest
      (if some p ≠ (s.dagTable d).preferredParent ∧ worse then some p else worst)

def removeWorstParent (d : cfg.DagRef) (minWorstRank : UInt16) : Node cfg :=
  match s.worstParent d (s.dagTable d).parents none with
  | some worst =>
    if (s.parent worst).rank > minWorstRank then s.rplRemoveParent d worst else s
  | none => s

/-- Fill a block that was just taken from the pool and put it on the list of the DAG. -/
def initParent (d : cfg.DagRef) (dio : Dio) (addr : IpAddr) (p : cfg.ParentRef) : Node cfg :=
  let s := s.modifyParent p fun parent =>
    { parent with
      dag := some d
      mc := dio.mc
      addr := addr
      rank := dio.rank
      linkMetric := (s.nbrMetric addr).getD initialLinkMetric
      dtsn := 0 }
  s.modifyDag d fun dag => { dag with parents := listAdd dag.parents p }

/-- `rpl_add_parent`; when the pool is exhausted, a worse parent makes room. -/
def rplAddParent (d : cfg.DagRef) (dio : Dio) (addr : IpAddr) :
    Option cfg.ParentRef × Node cfg :=
  match s.parentMemb.alloc with
  | some (p, memb) => (some p, { s with parentMemb := memb }.initParent d dio addr p)
  | none =>
    let s := s.removeWorstParent d dio.rank
    match s.parentMemb.alloc with
    | some (p, memb) => (some p, { s with parentMemb := memb }.initParent d dio addr p)
    | none => (none, s)

def rplFindParent (d : cfg.DagRef) (addr : IpAddr) : Option cfg.ParentRef :=
  (s.dagTable d).parents.find? fun p => (s.parent p).addr == addr

/-! ## DAGs -/

def acceptableRank (d : cfg.DagRef) (rank : UInt16) : Bool :=
  let dag := s.dagTable d
  rank ≠ infiniteRank &&
    (dag.config.maxRankinc == 0 ||
      dag.dagRank rank.toNat ≤
        dag.dagRank (cfg.cInt (dag.minRank.toNat + dag.config.maxRankinc.toNat)).toNat)

/-- `rpl_set_dodag_config`; no result when the objective function is not supported. -/
def rplSetDodagConfig (d : cfg.DagRef) (dcf : DodagConfig) : Option (Node cfg) :=
  match rplFindOf cfg dcf.ocp with
  | none => none
  | some of => some (s.modifyDag d fun dag => { dag with of := some of, config := dcf })

/-- A DAG that was just allocated. -/
def allocatedDag (cfg : Config) (instanceId : UInt8) : Dag cfg :=
  { (Dag.zero : Dag cfg) with
    instanceId
    rank := infiniteRank
    minRank := infiniteRank
    used := true }

/-- `rpl_alloc_dag`: the first slot that is not in use. -/
def rplAllocDag (instanceId : UInt8) : Option (cfg.DagRef × Node cfg) :=
  match (List.finRange cfg.maxDagEntries).find? fun d => !(s.dagTable d).used with
  | none => none
  | some d => some (d, s.setDag d (allocatedDag cfg instanceId))

def rplFreeDag (d : cfg.DagRef) : Node cfg :=
  -- routes installed by P2P DROs stay when the temporary DAG goes
  let s := if (s.dagTable d).mop ≠ rplMopP2pRouteDiscovery then s.rplRemoveRoutes d else s
  let s := ((s.rplRemoveParents d 0).rplSetDefaultRoute d none).stopDioTimer d
  s.modifyDag d fun dag => { dag with used := false, joined := false }

/-- The fields of a new DAG that `rpl_set_root` sets. -/
def initRoot (d : cfg.DagRef) (version : UInt8) (dagId : IpAddr) : Node cfg :=
  let s := s.modifyDag d fun dag => { dag with
    joined := true
    version := version + 1
    grounded := cfg.grounded
    mop := rplMopDefault
    preferredParent := none
    dtsnOut := 1 }
  let s := (s.rplSetDodagConfig d defaultDodagConfig).getD s
  s.modifyDag d fun dag => { dag with dagId, rank := dag.rootRank }

/-- Drop the DAG that a new root or a new discovery takes the place of. -/
def dropDag (old : Option cfg.DagRef) : Node cfg :=
  match old with
  | none => s
  | some d => s.rplFreeDag d

/-- The version a new root starts from: that of the DAG it had joined, or -1. -/
def oldVersion (old : Option cfg.DagRef) : UInt8 :=
  match old with
  | none => -1
  | some d => (s.dagTable d).version

def rplSetRoot (dagId : IpAddr) : Except Fault (Node cfg) :=
  let old := s.rplGetDag rplDefaultInstance none
  let version := s.oldVersion old
  match (s.dropDag old).rplAllocDag rplDefaultInstance with
  | none => .ok (s.dropDag old)
  | some (d, s) => do
    let s := s.initRoot d version dagId
    let of ← s.derefOf d
    .ok ((s.updateMetricContainer of d).rplResetDioTimer d true)

def rplSetPrefix (d : cfg.DagRef) (prefixAddr : IpAddr) (len : ℕ) : Node cfg :=
  if len ≤ 128 then
    s.modifyDag d fun dag => { dag with prefixInfo := { dag.prefixInfo with
      prefixAddr := .ofBytes (prefixAddr.u8.take ((len + 7) / 8))
      length := UInt8.ofNat len
      flags := raFlagAutonomous } }
  else s

/-! ## Parent selection and repairs -/

/-- The loop of `rpl_select_parent`. -/
def selectBest (of : ObjectiveFunction) (d : cfg.DagRef) :
    List cfg.ParentRef → Option cfg.ParentRef → Option cfg.ParentRef
  | [], best => best
  | p :: rest, best =>
    if (s.parent p).rank = infiniteRank then selectBest of d rest best
    else
      match best with
      | none => selectBest of d rest (some p)
      | some b => selectBest of d rest (s.bestParent of d b p)

/-- The timer is reset, unless the DAG is a P2P DAG, where trickle goes by the route metrics
alone. -/
def resetGlobalTimer (d : cfg.DagRef) : Node cfg :=
  if (s.dagTable d).p2p = none then s.rplResetDioTimer d true else s

/-- Make a parent the preferred one, in `rpl_select_parent`. -/
def switchParent (of : ObjectiveFunction) (d : cfg.DagRef) (best : cfg.ParentRef) : Node cfg :=
  let s := (s.modifyDag d fun dag => { dag with preferredParent := some best }
    ).updateMetricContainer of d
  (s.rplSetDefaultRoute d (some (s.parent best).addr)).resetGlobalTimer d

/-- Cache the best parent, in `rpl_select_parent`. -/
def cacheBest (of : ObjectiveFunction) (d : cfg.DagRef) (best : cfg.ParentRef) : Node cfg :=
  if (s.dagTable d).preferredParent = some best then s else s.switchParent of d best

/-- The new rank of the DAG and whether the best parent is acceptable, in
`rpl_select_parent`. -/
def updateRank (d : cfg.DagRef) (best : cfg.ParentRef) (rank : UInt16) :
    Option cfg.ParentRef × Node cfg :=
  if rank < (s.dagTable d).minRank then
    (some best, s.modifyDag d fun dag => { dag with rank, minRank := rank })
  else
    let s := s.modifyDag d fun dag => { dag with rank }
    if s.acceptableRank d (s.parent best).rank then (some best, s)
    else (none, s.rplRemoveParents d 0)

def rplSelectParent (d : cfg.DagRef) : Except Fault (Option cfg.ParentRef × Node cfg) := do
  -- every access to `dag->of` below is through the same pointer
  let of ← s.derefOf d
  match s.selectBest of d (s.dagTable d).parents none with
  | none => .ok (none, s)
  | some best =>
    let s := s.cacheBest of d best
    .ok (s.updateRank d best (s.calculateRank of d (some best) 0))

/-- The end of `global_repair`, after the sender was added as a parent. -/
def rejoinDag (of : ObjectiveFunction) (d : cfg.DagRef) (from_ : IpAddr) (dio : Dio) : Node cfg :=
  let s := s.rplSetDefaultRoute d (some from_)
  let rank := s.calculateRank of d none dio.rank
  (s.modifyDag d fun dag => { dag with rank, minRank := rank }).rplResetDioTimer d true

def globalRepair (from_ : IpAddr) (d : cfg.DagRef) (dio : Dio) : Except Fault (Node cfg) := do
  let s := (s.rplRemoveParents d 0).modifyDag d fun dag =>
    { dag with version := dio.version, dtsnOut := 1 }
  let of ← s.derefOf d
  match s.rplAddParent d dio from_ with
  | (none, s) => .ok (s.modifyDag d fun dag => { dag with rank := infiniteRank })
  | (some _, s) => .ok (s.rejoinDag of d from_ dio)

def rplRepairDag (d : cfg.DagRef) : Node cfg :=
  if (s.dagTable d).rank = (s.dagTable d).rootRank then
    (s.modifyDag d fun dag =>
      { dag with version := dag.version + 1, dtsnOut := 1 }).rplResetDioTimer d true
  else s

def rplLocalRepair (d : cfg.DagRef) : Node cfg :=
  ((s.modifyDag d fun dag => { dag with rank := infiniteRank }).rplRemoveParents d 0
    ).rplResetDioTimer d true

/-- What `rpl_process_parent_event` does when the DAG has a parent, given its old rank. -/
def moveInDag (d : cfg.DagRef) (oldRank : UInt16) : Node cfg :=
  let dag := s.dagTable d
  if dag.dagRank oldRank.toNat = dag.dagRank dag.rank.toNat then s
  else
    (s.modifyDag d fun dag =>
      { dag with minRank := if dag.rank < dag.minRank then dag.rank else dag.minRank }
      ).resetGlobalTimer d

/-- `rpl_process_parent_event`: whether the candidate parent stays, with the new state. -/
def rplProcessParentEvent (d : cfg.DagRef) (p : cfg.ParentRef) :
    Except Fault (Bool × Node cfg) := do
  let parentRank := (s.parent p).rank
  let oldRank := (s.dagTable d).rank
  match ← s.rplSelectParent d with
  | (none, s) => .ok (true, s.rplLocalRepair d)
  | (some _, s) =>
    let s := s.moveInDag d oldRank
    let of ← s.derefOf d
    .ok (parentRank ≠ infiniteRank ∧ s.acceptableRank d (s.calculateRank of d none parentRank), s)

/-- `rpl_recalculate_ranks`, for the first updated parent of the global DAG. -/
def rplRecalculateRanks : Except Fault (Node cfg) :=
  match s.rplGetDag rplDefaultInstance none with
  | none => .ok s
  | some d =>
    match (s.dagTable d).parents.find? fun p => (s.parent p).updated with
    | none => .ok s
    | some p => do
      let r ← (s.modifyParent p fun parent => { parent with updated := false }
        ).rplProcessParentEvent d p
      .ok r.2

end Node
end Contiki

import Contiki.Rpl.Dag

/-!
# The P2P extension

The functions of `rpl-p2p.c`: partial routes, P2P extensions of DAGs and their expiry, route
discovery, and the routes that a discovery reply installs.  Sending the replies needs the
message format and is in its own module.

A partial route that was received with an empty address vector is stored as the one-element
list that holds the last byte of the DODAGID, because an empty list marks an unused place.
-/

namespace Contiki
namespace Node
variable {cfg : Config} (s : Node cfg)

/-! ## Partial routes -/

/-- The addresses of a partial route. -/
def partialRoute (e : cfg.P2pRef) (i : Fin rplP2pMaxPartialRoutes) : List UInt8 :=
  ((s.dagP2pTable e).partialRoutes i).map s.srcRouteAddrMemb.mem

/-- Overwrite one list of partial routes. -/
def setPartialRoute (e : cfg.P2pRef) (i : Fin rplP2pMaxPartialRoutes)
    (l : List (Fin rplMaxSrcRouteAddrEntries)) : Node cfg :=
  s.modifyP2p e fun p2p => { p2p with
    partialRoutes := Function.update p2p.partialRoutes i l }

/-- `free_addr_list` of a partial route. -/
def freeAddrList (e : cfg.P2pRef) (i : Fin rplP2pMaxPartialRoutes) : Node cfg :=
  { s with srcRouteAddrMemb :=
      s.srcRouteAddrMemb.freeAll ((s.dagP2pTable e).partialRoutes i) }.setPartialRoute e i []

/-- `free_addr_list` for all partial routes of an extension. -/
def freePartialRoutes (e : cfg.P2pRef) : Node cfg :=
  (List.finRange rplP2pMaxPartialRoutes).foldl (fun s i => s.freeAddrList e i) s

def addSrcRouteAddr (e : cfg.P2pRef) (i : Fin rplP2pMaxPartialRoutes) (addr : UInt8) :
    Option (Node cfg) :=
  match s.srcRouteAddrMemb.alloc with
  | none => none
  | some (a, memb) =>
    some ({ s with srcRouteAddrMemb := memb.write a addr }.setPartialRoute e i
      (listAdd ((s.dagP2pTable e).partialRoutes i) a))

/-- Copy addresses into a partial route; without memory for all of them it is emptied again. -/
def copyAddrs (e : cfg.P2pRef) (i : Fin rplP2pMaxPartialRoutes) :
    List UInt8 → Node cfg → Bool × Node cfg
  | [], s => (true, s)
  | addr :: rest, s =>
    match s.addSrcRouteAddr e i addr with
    | none => (false, s.freeAddrList e i)
    | some s => copyAddrs e i rest s

/-- What is stored for an address vector received in the DODAG `dagId`. -/
def storedVector (dagId : IpAddr) (addrs : List UInt8) : List UInt8 :=
  if addrs = [] then [dagId.lastByte] else addrs

/-- `rpl_p2p_add_partial_route`, for the DAG `d` with the extension `e`. -/
def rplP2pAddPartialRoute (d : cfg.DagRef) (e : cfg.P2pRef) (rdo : Rdo) : Bool × Node cfg :=
  match (List.finRange rplP2pMaxPartialRoutes).find? fun i =>
      ((s.dagP2pTable e).partialRoutes i).length == 0 with
  | none => (false, s)
  | some i => copyAddrs e i (storedVector (s.dagTable d).dagId rdo.addrs) s

def rplP2pRouteDiffers (d : cfg.DagRef) (e : cfg.P2pRef) (rdo : Rdo) : Bool :=
  (List.finRange rplP2pMaxPartialRoutes).all fun i =>
    let stored := s.partialRoute e i
    if stored = [] then true
    else if rdo.addrs = [] then stored ≠ [(s.dagTable d).dagId.lastByte]
    else stored ≠ rdo.addrs

/-! ## P2P extensions -/

/-- `rpl_p2p_alloc_dag`: an entry is free when its DAG is absent or no longer in use. -/
def rplP2pAllocDag (d : cfg.DagRef) : Option (cfg.P2pRef × Node cfg) :=
  match (List.finRange (cfg.maxDagEntries - 1)).find? fun e =>
      match (s.dagP2pTable e).dag with
      | none => true
      | some d' => !(s.dagTable d').used with
  | none => none
  | some e => some (e, s.setP2p e { (DagP2p.zero : DagP2p cfg) with dag := some d })

/-- `rpl_p2p_free_dag`, for an extension whose DAG is `d`. -/
def rplP2pFreeDag (e : cfg.P2pRef) (d : cfg.DagRef) : Node cfg :=
  let s := s.freePartialRoutes e
  let s := (s.modifyDag d fun dag => { dag with p2p := none }).rplFreeDag d
  s.modifyP2p e fun p2p => { p2p with dag := none }

def rplP2pLt2sec (lifetime : UInt8) : UInt16 :=
  if lifetime = 0 then 1
  else if lifetime = 1 then 4
  else if lifetime = 2 then 16
  else if lifetime = 3 then 64
  else 0

/-- The expiry of an extension, in `rpl_p2p_purge_dags`: the DAG stays in memory for a while, so
that DIOs of neighbours that have not expired yet are ignored. -/
def expireP2p (e : cfg.P2pRef) (d : cfg.DagRef) : Node cfg :=
  let s := s.modifyP2p e fun p2p => { p2p with
    lifetime := rplP2pLt2sec p2p.rdoLifetime + 10
    expired := true }
  (s.stopDioTimer d).rplRemoveParents d 0

/-- One iteration of `rpl_p2p_purge_dags`. -/
def purgeEntry (e : cfg.P2pRef) : Node cfg :=
  let p2p := s.dagP2pTable e
  match p2p.dag with
  | none => s
  | some d =>
    if (s.dagTable d).used then
      if p2p.lifetime ≤ 1 ∧ p2p.expired then s.rplP2pFreeDag e d
      else if p2p.lifetime ≤ 1 ∧ ¬p2p.expired then s.expireP2p e d
      else s.modifyP2p e fun p2p => { p2p with lifetime := p2p.lifetime - 1 }
    else s

def rplP2pPurgeDags : Node cfg :=
  (List.finRange (cfg.maxDagEntries - 1)).foldl (fun s e => s.purgeEntry e) s

/-! ## Route discovery -/

def rplP2pMeetsConstraints (metric : MetricContainer) (constr : Option MetricContainer) : Bool :=
  match constr with
  | none => true
  | some constr =>
    if metric.type ≠ constr.type then false
    else if metric.type = rplDagMcEtx then metric.obj ≤ constr.obj
    else true

/-- The fields of a DAG that `rpl_discover_route` sets after both allocations, up to the
configuration. -/
def initDiscovery (d : cfg.DagRef) (ownAddr : IpAddr) : Node cfg :=
  let s := s.modifyDag d fun dag => { dag with
    used := true
    joined := true
    version := 0
    preferredParent := none
    grounded := 0
    mop := rplMopP2pRouteDiscovery
    dtsnOut := 0
    preference := 0
    dagId := ownAddr }
  let s := (s.rplSetDodagConfig d p2pDefaultDodagConfig).getD s
  s.modifyDag d fun dag => { dag with rank := dag.rootRank }

/-- The extension that `rpl_discover_route` fills in; `process` is `PROCESS_CURRENT()`. -/
def initDiscoveryP2p (d : cfg.DagRef) (e : cfg.P2pRef) (process : Option ℕ) (target : IpAddr) :
    Node cfg :=
  s.modifyP2p e fun p2p => { p2p with
    process
    bothDirections := 1
    hopByHop := 0
    numRoutes := 0
    rdoLifetime := 2
    maxRank := 0
    lifetime := rplP2pLt2sec 2
    expired := false
    target := target.lastByte
    constr := { p2p.constr with
      type := (s.dagTable d).mc.type
      flags := rplDagMcFlagC
      aggr := 0
      obj := maxPathMetric } }

/-- `instance_id` of the next discovery: the local instance number is six bits and wraps. -/
def nextInstance : UInt8 := rplLocalDefaultInstance ||| (s.instanceCounter + 1) % 0x40

/-- The DAG that the next discovery drops: an old one of the same instance. -/
def discoveryDrops : Option cfg.DagRef :=
  s.rplGetDag s.nextInstance (rplGetOwnAddr s.addrList true)

/-- `rpl_discover_route` from the allocation on: whether the discovery was started, with the new
state. -/
def startDiscovery (instanceId : UInt8) (process : Option ℕ) (target : IpAddr) :
    Except Fault (Bool × Node cfg) :=
  match s.rplAllocDag instanceId with
  | none => .ok (false, s)
  | some (d, s) =>
    match s.rplP2pAllocDag d with
    | none => .ok (false, s.rplFreeDag d)
    | some (e, s) => do
      let s := s.modifyDag d fun dag => { dag with p2p := some e }
      let ownAddr ← s.ownAddr
      let s := s.initDiscovery d ownAddr
      let of ← s.derefOf d
      let s := s.updateMetricContainer of d
      .ok (true, (s.initDiscoveryP2p d e process target).rplResetDioTimer d true)

def rplDiscoverRoute (process : Option ℕ) (target : IpAddr) : Except Fault (Bool × Node cfg) :=
  ({ s with instanceCounter := (s.instanceCounter + 1) % 0x40 }.dropDag s.discoveryDrops
    ).startDiscovery s.nextInstance process target

/-! ## Discoveries of other nodes -/

def rplP2pIsTarget (e : cfg.P2pRef) : Except Fault Bool := do
  let ownAddr ← s.ownAddr
  .ok (ownAddr.lastByte == (s.dagP2pTable e).target)

/-- `rpl_print_rdo`, of which only the accesses matter. -/
def rplPrintRdo (dodagId : IpAddr) : Except Fault Unit :=
  if s.isMyAddr dodagId then .ok () else do
    let _ ← s.ownAddr
    .ok ()

/-- What `rpl_p2p_update_dag` copies from a DIO into the extension. -/
def copyRdo (p2p : DagP2p cfg) (constr : Option MetricContainer) (rdo : Rdo) : DagP2p cfg :=
  { p2p with
    constr := constr.getD { p2p.constr with type := rplDagMcNone }
    bothDirections := rdo.bothDirections
    numRoutes := rdo.numRoutes
    hopByHop := rdo.hopByHop
    rdoLifetime := rdo.lifetime
    maxRank := rdo.maxRank
    target := rdo.target }

def rplP2pUpdateDag (d : cfg.DagRef) (dio : Dio) : Except Fault (Node cfg) := do
  let e ← s.derefP2p d
  let rdo ← deref dio.rdo .nullRdo
  let s := (s.modifyP2p e fun p2p => copyRdo p2p dio.constr rdo).freePartialRoutes e
  s.rplPrintRdo dio.dagId
  .ok (s.rplP2pAddPartialRoute d e rdo).2

/-- `rpl_p2p_process_target`: the target stops its DIO timer and starts its DRO timer. -/
def rplP2pProcessTarget (d : cfg.DagRef) : Except Fault (Node cfg) := do
  let e ← s.derefP2p d
  if ← s.rplP2pIsTarget e then
    let s := s.stopDioTimer d
    if (s.dagP2pTable e).droTimer.started then .ok s
    else .ok (s.modifyP2p e fun p2p => { p2p with droTimer := ⟨true, some d⟩ })
  else .ok s

/-! ## Routes installed by a reply -/

/-- The hops that `rpl_p2p_add_src_route` adds for the addresses from offset `i` on.  The index
is a byte and may wrap; every iteration takes a block, so that the pool bounds their number. -/
def addSrcHops (route : Fin cfg.srcRouteNb) (dest : IpAddr) (addrStart : ℕ → UInt8)
    (addrLen compr : UInt8) (reverse : Bool) :
    ℕ → UInt8 → SrcRoutingTable cfg.DagRef cfg.srcRouteNb cfg.srcRouteAddrNb →
      Bool × SrcRoutingTable cfg.DagRef cfg.srcRouteNb cfg.srcRouteAddrNb
  | 0, _, t => (false, t)
  | fuel + 1, i, t =>
    if i < addrLen then
      let bytes := (List.range (16 - compr.toNat)).map fun k => addrStart (i.toNat + k)
      let addr := (dest.decompress compr.toNat bytes).uipCreateLinklocalPrefix
      match t.uipDs6SrcRouteHopAdd route addr reverse with
      | none => (false, t)
      | some t => addSrcHops route dest addrStart addrLen compr reverse fuel (i + (16 - compr)) t
    else (true, t)

def rplP2pAddSrcRoute (dest : IpAddr) (addrStart : ℕ → UInt8) (addrLen compr : UInt8)
    (reverse : Bool) : Option (Fin cfg.srcRouteNb) × Node cfg :=
  match s.srcRoutingTable.uipDs6SrcRouteAdd dest with
  | (none, t) => (none, { s with srcRoutingTable := t })
  | (some route, t) =>
    let entry := t.routes route
    let t := t.set route { entry with state := { entry.state with
      lifetime := rplDefaultLifetime.toUInt32 * rplDefaultLifetimeUnit.toUInt32 } }
    match addSrcHops route dest addrStart addrLen compr reverse (cfg.srcRouteAddrNb + 1) 0 t with
    | (false, t) => (none, { s with srcRoutingTable := t.uipDs6SrcRouteRm route })
    | (true, t) =>
      -- the link-local address of the target comes at the very end
      match t.uipDs6SrcRouteHopAdd route dest.uipCreateLinklocalPrefix false with
      | none => (none, { s with srcRoutingTable := t.uipDs6SrcRouteRm route })
      | some t => (some route, { s with srcRoutingTable := t })

def rplP2pAddHbhRoute (instanceId : UInt8) (dodagid target nexthop : IpAddr) :
    Option (Fin cfg.routeNb) × Node cfg :=
  match s.rplAddRoute (s.rplGetDag instanceId (some dodagid)) target 128 nexthop with
  | (none, s) => (none, s)
  | (some hbhrt, s) =>
    let route := s.routingTable hbhrt
    (some hbhrt, s.setRoute hbhrt { route with state := { route.state with
      instanceId, dodagid } })

end Node
end Contiki

import Contiki.Lib.Run
import Contiki.Rpl.DroMessage
import Mathlib.Algebra.GroupWithZero.Nat

/-!
# A node as a transition system

The remaining entry points of the RPL module (neighbour callbacks, DIS, the purge of routes) and
the events that can happen to a node: calls by an application, timers, received messages, and
what the rest of the IPv6 stack does to the tables that RPL shares with it.  `Node.step` is the
effect of one event, `Node.Reachable` the states of runs of any events from start-up.

The periodic timer of the source is the three events `purgeRoutes`, `purgeDags` and
`recalculateRanks` in a row.
-/

namespace Contiki
namespace Node
variable {cfg : Config} (s : Node cfg)

/-! ## Entry points that remain -/

/-- `rpl_purge_routes`, for the entries of the routing table. -/
def purgeRoute (route : Ds6Route cfg.DagRef) : Ds6Route cfg.DagRef :=
  if route.isused then
    if route.state.lifetime ≤ 1 then { route with isused := false }
    else { route with state := { route.state with lifetime := route.state.lifetime - 1 } }
  else route

/-- `rpl_purge_routes`, for one entry of the source routing table. -/
def purgeSrcRoute (t : SrcRoutingTable cfg.DagRef cfg.srcRouteNb cfg.srcRouteAddrNb)
    (i : Fin cfg.srcRouteNb) : SrcRoutingTable cfg.DagRef cfg.srcRouteNb cfg.srcRouteAddrNb :=
  let route := t.routes i
  if route.isused then
    if route.state.lifetime ≤ 1 then t.uipDs6SrcRouteRm i
    else t.set i { route with state := { route.state with
      lifetime := route.state.lifetime - 1 } }
  else t

def rplPurgeRoutes : Node cfg :=
  { s with
    routingTable := fun i => purgeRoute (s.routingTable i)
    srcRoutingTable := (List.finRange cfg.srcRouteNb).foldl purgeSrcRoute s.srcRoutingTable }

/-- The link-local address of a neighbour, as `rpl_link_neighbor_callback` forms it. -/
def neighborAddr (addr : Lladdr) : IpAddr :=
  (IpAddr.ofBytes [0xfe, 0x80]).uipDs6SetAddrIid addr

/-- An expired P2P DAG takes no notice of its neighbours. -/
def ignoresNeighbors (d : cfg.DagRef) : Except Fault Bool :=
  if (s.dagTable d).mop = rplMopP2pRouteDiscovery then do
    let e ← s.derefP2p d
    .ok (s.dagP2pTable e).expired
  else .ok false

/-- What `rpl_link_neighbor_callback` does with the parent of a DAG, or without one. -/
def linkParent (ipaddr : IpAddr) (known : Bool) (etx : UInt8) (d : cfg.DagRef) :
    Except Fault (Node cfg) :=
  match s.rplFindParent d ipaddr with
  | none =>
    .ok (if known then s
      else { s with routingTable := uipDs6RouteRmByNexthop s.routingTable ipaddr })
  | some p => do
    let _ ← s.derefOf d
    .ok (s.modifyParent p fun parent => { parent with
      updated := true
      linkMetric := etx
      rank := if known then parent.rank else infiniteRank })

/-- One iteration of `rpl_link_neighbor_callback`. -/
def linkNeighborDag (ipaddr : IpAddr) (known : Bool) (etx : UInt8) (d : cfg.DagRef) :
    Except Fault (Node cfg) :=
  if (s.dagTable d).joined then do
    if ← s.ignoresNeighbors d then .ok s else s.linkParent ipaddr known etx d
  else .ok s

/-- `rpl_link_neighbor_callback` for the DAGs that are left. -/
def linkNeighborFrom (ipaddr : IpAddr) (known : Bool) (etx : UInt8) :
    List cfg.DagRef → Node cfg → Except Fault (Node cfg)
  | [], s => .ok s
  | d :: rest, s => do
    let s ← s.linkNeighborDag ipaddr known etx d
    linkNeighborFrom ipaddr known etx rest s

def rplLinkNeighborCallback (addr : Lladdr) (known : Bool) (etx : UInt8) :
    Except Fault (Node cfg) :=
  linkNeighborFrom (neighborAddr addr) known etx (List.finRange cfg.maxDagEntries) s

/-- The default route of a DAG is forgotten when it goes through the given address. -/
def forgetDefRoute (d : cfg.DagRef) (ipaddr : IpAddr) : Node cfg :=
  match (s.dagTable d).defRoute with
  | none => s
  | some r =>
    if (s.defrtList r).ipaddr = ipaddr then s.modifyDag d fun dag => { dag with defRoute := none }
    else s

def rplIpv6NeighborCallback (ipaddr : IpAddr) (isused : Bool) : Node cfg :=
  match s.rplGetDag rplDefaultInstance none with
  | none => s
  | some d =>
    let s := s.forgetDefRoute d ipaddr
    if isused then s
    else
      match s.rplFindParent d ipaddr with
      | none => s
      | some p => s.modifyParent p fun parent =>
          { parent with rank := infiniteRank, updated := true }

def disInput (src dst : IpAddr) : Except Fault (Option Packet × Node cfg) :=
  match s.rplGetDag rplDefaultInstance none with
  | none => .ok (none, s)
  | some d =>
    if dst.uipIsAddrMcast then .ok (none, s.rplResetDioTimer d false)
    else s.dioOutput d (some src)

end Node

/-! ## Events -/

/-- What can happen to a node. -/
inductive Event (cfg : Config)
  /-- a DIO was received from a neighbour and parsed -/
  | processDio (from_ : IpAddr) (dio : Dio)
  | droInput (dst : IpAddr) (dro : Dro)
  | droAckInput (buffer : ℕ → UInt8)
  | disInput (src dst : IpAddr)
  | setRoot (dagId : IpAddr)
  | setPrefix (d : cfg.DagRef) (prefixAddr : IpAddr) (len : ℕ)
  | discoverRoute (process : Option ℕ) (target : IpAddr)
  | repairDag (d : cfg.DagRef)
  | localRepair (d : cfg.DagRef)
  | purgeRoutes
  | purgeDags
  | recalculateRanks
  | dioTimer (d : cfg.DagRef)
  | droTimer (e : cfg.P2pRef)
  | droRexmit (c : Fin rplMaxDroCacheEntries)
  | linkNeighbor (addr : Lladdr) (known : Bool) (etx : UInt8)
  | ipv6Neighbor (ipaddr : IpAddr) (isused : Bool)
  /-- the neighbour cache or a link metric changes -/
  | nbrMetric (ipaddr : IpAddr) (metric : Option UInt8)
  /-- an address of the interface changes, for instance after duplicate address detection -/
  | addr (i : Fin cfg.addrNb) (addr : Ds6Addr)
  /-- another part of the stack installs a route -/
  | routeAdd (ipaddr : IpAddr) (length : UInt8) (nexthop : IpAddr) (metric : UInt8)
  | defrtAdd (ipaddr : IpAddr) (interval : UInt32)
  | defrtRm (i : Fin cfg.defrtNb)
  | randomInit (seed : UInt16)

namespace Node
variable {cfg : Config}

/-- The effect of an event: what is sent, and the new state.  A repair or a new prefix is for a
DAG that the node has joined. -/
def step (s : Node cfg) : Event cfg → Except Fault (List Packet × Node cfg)
  | .processDio from_ dio => (s.rplProcessDio from_ dio).map ([], ·)
  | .droInput dst dro => s.droInput dst dro
  | .droAckInput buffer => .ok ([], s.droAckInput buffer)
  | .disInput src dst => (s.disInput src dst).map fun r => (r.1.toList, r.2)
  | .setRoot dagId => (s.rplSetRoot dagId).map ([], ·)
  | .setPrefix d prefixAddr len =>
    .ok ([], if (s.dagTable d).joined then s.rplSetPrefix d prefixAddr len else s)
  | .discoverRoute process target => (s.rplDiscoverRoute process target).map fun r => ([], r.2)
  | .repairDag d => .ok ([], if (s.dagTable d).joined then s.rplRepairDag d else s)
  | .localRepair d => .ok ([], if (s.dagTable d).joined then s.rplLocalRepair d else s)
  | .purgeRoutes => .ok ([], s.rplPurgeRoutes)
  | .purgeDags => .ok ([], s.rplP2pPurgeDags)
  | .recalculateRanks => s.rplRecalculateRanks.map ([], ·)
  | .dioTimer d => (s.handleDioTimer d).map fun r => (r.1.toList, r.2)
  | .droTimer e => s.sendDros e
  | .droRexmit c => .ok (s.droRexmit c)
  | .linkNeighbor addr known etx => (s.rplLinkNeighborCallback addr known etx).map ([], ·)
  | .ipv6Neighbor ipaddr isused => .ok ([], s.rplIpv6NeighborCallback ipaddr isused)
  | .nbrMetric ipaddr metric =>
    .ok ([], { s with nbrMetric := Function.update s.nbrMetric ipaddr metric })
  | .addr i a => .ok ([], { s with addrList := Function.update s.addrList i a })
  | .routeAdd ipaddr length nexthop metric =>
    .ok ([], if length ≤ 128 then
        { s with routingTable := (uipDs6RouteAdd s.routingTable ipaddr length nexthop metric).2 }
      else s)
  | .defrtAdd ipaddr interval =>
    .ok ([], { s with defrtList := (uipDs6DefrtAdd s.defrtList ipaddr interval).2 })
  | .defrtRm i => .ok ([], { s with defrtList := uipDs6DefrtRm s.defrtList i })
  | .randomInit seed => .ok ([], { s with randState := seed.toUInt32 })

/-- The state after an event. -/
def next (s : Node cfg) (e : Event cfg) : Except Fault (Node cfg) := (s.step e).map Prod.snd

/-- A node after start-up: all tables are clear, the interface and the environment are
arbitrary. -/
structure Initial (s : Node cfg) : Prop where
  dagTable : s.dagTable = fun _ => .zero
  parentMemb : s.parentMemb = .fresh .zero
  dagP2pTable : s.dagP2pTable = fun _ => .zero
  srcRouteAddrMemb : s.srcRouteAddrMemb = .fresh 0
  instanceCounter : s.instanceCounter = 0
  routingTable : s.routingTable = fun _ => default
  defrtList : s.defrtList = fun _ => default
  srcRoutes : s.srcRoutingTable.routes = fun _ => default
  srcRoutePool : s.srcRoutingTable.addrMemb = .fresh .unspecified
  droCacheMemb : s.droCacheMemb = .fresh default
  droCache : s.droCache = []

/-- The states of runs whose events all satisfy `ok`. -/
abbrev ReachableBy (ok : Node cfg → Event cfg → Prop) (s : Node cfg) : Prop :=
  Reaches next ok Initial s

/-- The states of all runs. -/
abbrev Reachable (s : Node cfg) : Prop := ReachableBy anyEvent s

/-! ## A node of the default configuration -/

instance : NeZero Config.default.maxDagEntries := ⟨Nat.succ_ne_zero 3⟩

instance : NeZero (Config.default.maxDagEntries - 1) := ⟨Nat.succ_ne_zero 2⟩

instance : NeZero Config.default.maxParents := ⟨Nat.succ_ne_zero 19⟩

/-- The global address of the node `n` in a network whose addresses differ in the last byte. -/
def nodeAddr (n : UInt8) : IpAddr := .ofBytes [0xaa, 0xaa, 0, 0, 0, 0, 0, 0, 0, 0, 0, 0, 0, 0, 0, n]

/-- The link-local address of the node `n`. -/
def nodeLinkLocal (n : UInt8) : IpAddr := (nodeAddr n).uipCreateLinklocalPrefix

/-- The node `n` after start-up, with perfect links to everyone. -/
def boot (n : UInt8) : Node .default where
  dagTable := fun _ => .zero
  parentMemb := .fresh .zero
  dagP2pTable := fun _ => .zero
  srcRouteAddrMemb := .fresh 0
  instanceCounter := 0
  routingTable := fun _ => default
  defrtList := fun _ => default
  srcRoutingTable := ⟨fun _ => default, .fresh .unspecified⟩
  addrList := fun i =>
    if i.val = 0 then ⟨⟨true, nodeLinkLocal n⟩, .preferred, true⟩
    else ⟨⟨i.val = 1, nodeAddr n⟩, .preferred, true⟩
  maddrList := fun _ => default
  lladdr := ⟨[0, 0, 0, 0, 0, 0, 0, n], rfl⟩
  nbrMetric := fun _ => some neighborInfoEtxDivisor
  randState := 1
  dioSendOk := true
  droCacheMemb := .fresh default
  droCache := []

lemma boot_initial (n : UInt8) : (boot n).Initial :=
  ⟨rfl, rfl, rfl, rfl, rfl, rfl, rfl, rfl, rfl, rfl, rfl⟩

/-- A run from start-up, known through an observation of its end. -/
lemma exists_reachableBy {α : Type} {ok : Node .default → Event .default → Prop} (n : UInt8)
    (es : List (Event .default)) (observe : Node .default → α) {a : α}
    (hok : ∀ e ∈ es, ∀ s, ok s e) (h : (runEvents next (boot n) es).map observe = .ok a) :
    ∃ s, ReachableBy ok s ∧ observe s = a := by
  obtain ⟨s, hrun, hs⟩ := exists_ok_of_map h
  exact ⟨s, (Reaches.initial (boot_initial n)).of_runEvents hok hrun, hs⟩

lemma exists_reachable {α : Type} (n : UInt8) (es : List (Event .default))
    (observe : Node .default → α) {a : α} (h : (runEvents next (boot n) es).map observe = .ok a) :
    ∃ s, Reachable s ∧ observe s = a :=
  exists_reachableBy n es observe (fun _ _ _ => trivial) h

/-- A DIO in the default mode of operation, of the DAG whose root is the node `root`. -/
def globalDio (root : UInt8) : Dio where
  dagId := nodeAddr root
  rank := defaultMinHoprankinc
  grounded := 0
  mop := rplMopDefault
  preference := 0
  version := 0
  instanceId := rplDefaultInstance
  dtsn := 0
  dodagConfig := some defaultDodagConfig
  routeInfo := none
  prefixInfo := none
  mc := .zero
  rdo := none
  constr := none

/-- A DIO in P2P mode, of a discovery of the node `origin` for the node `target`. -/
def discoveryDio (origin target : UInt8) (addrs : List UInt8) : Dio where
  dagId := nodeAddr origin
  rank := defaultMinHoprankinc
  grounded := 0
  mop := rplMopP2pRouteDiscovery
  preference := 0
  version := 0
  instanceId := 0x81
  dtsn := 0
  dodagConfig := some p2pDefaultDodagConfig
  routeInfo := none
  prefixInfo := none
  mc := .zero
  rdo := some
    { bothDirections := 0, numRoutes := 0, hopByHop := 0, lifetime := 2, maxRank := 0, target, addrs }
  constr := none

lemma next_eq_ok {s s' : Node cfg} {e : Event cfg} :
    s.next e = .ok s' ↔ ∃ packets, s.step e = .ok (packets, s') := by
  unfold next
  cases s.step e with
  | error f => simp [Except.map]
  | ok r => simp [Except.map, Prod.ext_iff]

end Node
end Contiki

import Contiki.Rpl.DioMessage

/-!
# Discovery replies

`dro_output`, `send_dros`, `dro_input` and the cache from which a DRO is sent again until it is
acknowledged.  `dro_input` is cut at its three cases: the stop bit, the origin of the discovery
and an intermediate node of the route.
-/

namespace Contiki

def rplP2pDroSFlag : UInt8 := 0x20

def rplP2pDroAFlag : UInt8 := 0x10

def rplP2pRdoHFlag : UInt8 := 0x40

def rplP2pRdoRMask : UInt8 := 0x3f

/-- A DRO as it lies in the packet buffer, with the position of its RDO. -/
structure Dro where
  buffer : ℕ → UInt8
  length : ℕ
  pos : ℕ

namespace Dro
variable (dro : Dro)

/-- The local RPLInstanceID. -/
def instanceId : UInt8 := dro.buffer 0

/-- The DODAGID, at offset 4. -/
def dodagId : IpAddr := .ofBytes (bytesAt dro.buffer 4 16)

/-- The compression of the RDO, in four bits. -/
def compr : ℕ := (dro.buffer (dro.pos + 2) &&& 0x0f).toNat

/-- The length of a compressed address. -/
def step : ℕ := 16 - dro.compr

/-- The Rem field of the RDO. -/
def rem : ℕ := (dro.buffer (dro.pos + 3) &&& rplP2pRdoRMask).toNat

/-- The stop bit. -/
def stop : Bool := dro.buffer 2 &&& rplP2pDroSFlag ≠ 0

/-- Whether an acknowledgement is requested. -/
def ackRequested : Bool := dro.buffer 2 &&& rplP2pDroAFlag ≠ 0

/-- Whether a hop-by-hop route is requested. -/
def hopByHop : Bool := dro.buffer (dro.pos + 2) &&& rplP2pRdoHFlag ≠ 0

/-- The address at an index of the RDO, decompressed; index 0 is the target. -/
def address (i : ℕ) : IpAddr :=
  dro.dodagId.decompress dro.compr (bytesAt dro.buffer (dro.pos + 4 + i * dro.step) dro.step)

/-- The target of the discovery. -/
def target : IpAddr := dro.address 0

/-- The search loop of `dro_input` for the RDO.  It also ends, without one, at the end of the
message. -/
def findRdo (buffer : ℕ → UInt8) (bufferLength : ℕ) : ℕ → ℕ → ℕ
  | 0, pos => pos
  | fuel + 1, pos =>
    if buffer pos ≠ rplDioSuboptRouteDiscovery ∧ pos < bufferLength then
      findRdo buffer bufferLength fuel (pos + (buffer (pos + 1)).toNat + 2)
    else pos

/-- The DRO in a packet buffer; `dro_input` keeps the length of the message in a byte. -/
def ofBuffer (buffer : ℕ → UInt8) (length : ℕ) : Dro where
  buffer := buffer
  length := length
  pos := findRdo buffer (UInt8.ofNat length).toNat 256 20

def bufferLength : ℕ := (UInt8.ofNat dro.length).toNat

/-- The message with Rem decremented. -/
def forwarded : List UInt8 :=
  bytesAt (Function.update dro.buffer (dro.pos + 3) (dro.buffer (dro.pos + 3) - 1)) 0 dro.length

/-- The acknowledgement: the first twenty bytes with everything behind the sequence number
cleared. -/
def ack : List UInt8 :=
  bytesAt (Function.update (Function.update dro.buffer 2 (dro.buffer 2 &&& 0xC0)) 3 0) 0 20

end Dro

namespace Node
variable {cfg : Config} (s : Node cfg)

/-! ## Sending -/

/-- Put a DRO into the cache, if it fits and there is memory. -/
def cacheDro (message : List UInt8) : Node cfg :=
  if message.length ≤ rplDroCacheEntrySize then
    match s.droCacheMemb.alloc with
    | none => s
    | some (c, memb) =>
      { s with
        droCacheMemb := memb.write c { rexmits := 0, pending := true, buffer := message }
        droCache := listAdd s.droCache c }
  else s

/-- An RDO whose Rem field is the number of addresses in its vector. -/
def setRem (rdo : List UInt8) : List UInt8 :=
  let rem := (rdo.getD 1 0 - 2) / (16 - (rdo.getD 2 0 &&& 0x0f)) - 1
  rdo.set 3 ((rdo.getD 3 0 &&& ~~~rplP2pRdoRMask) ||| (rem &&& rplP2pRdoRMask))

/-- `dro_output`: the reply for one partial route. -/
def droOutput (d : cfg.DagRef) (addrs : List UInt8) :
    Except Fault (Option Packet × Node cfg) :=
  match (s.dagTable d).p2p with
  | none => .ok (none, s)
  | some e => do
    let dag := s.dagTable d
    let p2p := s.dagP2pTable e
    let flags := ((p2p.droSeq <<< 6) &&& 0xC0) ||| rplP2pDroSFlag ||| rplP2pDroAFlag
    -- with the stop bit set, the DAG expires
    let s := s.modifyP2p e fun p2p => { p2p with droSeq := p2p.droSeq + 1, lifetime := 0 }
    let rdo ← s.writeRdo d e addrs
    let message := [dag.instanceId, dag.version, flags, 0] ++ dag.dagId.u8 ++ setRem rdo
    .ok (some (s.icmp6Send linklocalRplnodesMcast .dro message), s.cacheDro message)

/-- The intermediate hops of the backward route, in `send_dros`. -/
def addBackwardHops (route : Fin cfg.srcRouteNb) (dagId : IpAddr) :
    List UInt8 → SrcRoutingTable cfg.DagRef cfg.srcRouteNb cfg.srcRouteAddrNb →
      Bool × SrcRoutingTable cfg.DagRef cfg.srcRouteNb cfg.srcRouteAddrNb
  | [], t => (true, t)
  | a :: rest, t =>
    let addr := (dagId.decompress rplP2pRdoCompr.toNat [a]).uipCreateLinklocalPrefix
    match t.uipDs6SrcRouteHopAdd route addr true with
    | none => (false, t)
    | some t => addBackwardHops route dagId rest t

/-- The backward route that the target stores, in `send_dros`. -/
def addBackwardRoute (d : cfg.DagRef) (addrs : List UInt8) : Node cfg :=
  let dag := s.dagTable d
  match s.srcRoutingTable.uipDs6SrcRouteAdd dag.dagId with
  | (none, t) => { s with srcRoutingTable := t }
  | (some route, t) =>
    let entry := t.routes route
    let lifetime := cfg.cInt (dag.config.defaultLifetime.toNat * dag.config.lifetimeUnit.toNat)
    let t := t.set route { entry with state := { entry.state with
      lifetime := UInt32.ofNat lifetime.toNat } }
    let t := match addBackwardHops route dag.dagId addrs t with
      | (false, t) => t.uipDs6SrcRouteRm route
      | (true, t) =>
        match t.uipDs6SrcRouteHopAdd route dag.dagId.uipCreateLinklocalPrefix false with
        | none => t.uipDs6SrcRouteRm route
        | some t => t
    { s with srcRoutingTable := t }

/-- The backward route is stored with the first reply, if both directions are requested. -/
def backwardRoute (d : cfg.DagRef) (e : cfg.P2pRef) (j : ℕ) (addrs : List UInt8) : Node cfg :=
  if j = 0 ∧ (s.dagP2pTable e).bothDirections ≠ 0 then s.addBackwardRoute d addrs else s

/-- The loop of `send_dros` over the partial routes, with the number `j` of DROs sent. -/
def sendDrosFrom (d : cfg.DagRef) :
    List (Fin rplP2pMaxPartialRoutes) → ℕ → Node cfg → Except Fault (List Packet × Node cfg)
  | [], _, s => .ok ([], s)
  | i :: rest, j, s => do
    let e ← s.derefP2p d
    let p2p := s.dagP2pTable e
    if j ≤ p2p.numRoutes.toNat then
      if (p2p.partialRoutes i).length = 0 then sendDrosFrom d rest j s
      else do
        let addrs := s.routeAddrs d e i
        let (packet, s) ← (s.backwardRoute d e j addrs).droOutput d addrs
        let (packets, s) ← sendDrosFrom d rest (j + 1) s
        .ok (packet.toList ++ packets, s)
    else .ok ([], s)

/-- `send_dros`, when the DRO timer of the extension `e` fires. -/
def sendDros (e : cfg.P2pRef) : Except Fault (List Packet × Node cfg) :=
  let p2p := s.dagP2pTable e
  match p2p.droTimer.pending with
  | none => .ok ([], s)
  | some d =>
    sendDrosFrom d (List.finRange rplP2pMaxPartialRoutes) 0
      (s.modifyP2p e fun p2p => { p2p with droTimer := { p2p.droTimer with pending := none } })

def droRexmit (c : Fin rplMaxDroCacheEntries) : List Packet × Node cfg :=
  let entry := s.droCacheMemb.mem c
  if entry.pending then
    let rexmits := entry.rexmits + 1
    let s :=
      if rexmits < rplMaxDroRexmits then
        { s with droCacheMemb := s.droCacheMemb.write c { entry with rexmits } }
      else
        { s with
          droCache := listRemove s.droCache c
          droCacheMemb := (s.droCacheMemb.write c { entry with rexmits, pending := false }).free c }
    ([s.icmp6Send linklocalRplnodesMcast .dro entry.buffer], s)
  else ([], s)

/-- `dro_ack_input`; the comparison of the sequence number with itself is always true. -/
def droAckInput (buffer : ℕ → UInt8) : Node cfg :=
  let hit := s.droCache.find? fun c =>
    let entry := s.droCacheMemb.mem c
    buffer 0 == entry.buffer.getD 0 0 &&
      bytesAt buffer 4 16 == bytesAt (fun i => entry.buffer.getD i 0) 4 16
  match hit with
  | none => s
  | some c =>
    let entry := s.droCacheMemb.mem c
    { s with
      droCache := listRemove s.droCache c
      droCacheMemb := (s.droCacheMemb.write c { entry with pending := false }).free c }

/-! ## Receiving -/

/-- The evaluation of the stop bit. -/
def droStop (dro : Dro) : Except Fault (Node cfg) :=
  if dro.stop then
    match s.rplGetDag dro.instanceId (some dro.dodagId) with
    | none => .ok s
    | some d => do
      let e ← s.derefP2p d
      if (s.dagP2pTable e).expired then .ok s
      else
        .ok ((s.stopDioTimer d).modifyP2p e fun p2p => { p2p with lifetime := 0 })
  else .ok s

/-- The route that the origin of a discovery stores. -/
def droStoreRoute (dro : Dro) : Node cfg :=
  if dro.hopByHop then
    let nexthop :=
      if dro.pos + 4 + dro.step = dro.bufferLength then dro.target else dro.address 1
    (s.rplP2pAddHbhRoute dro.instanceId dro.dodagId dro.target
      nexthop.uipCreateLinklocalPrefix).2
  else
    (s.rplP2pAddSrcRoute dro.target (fun i => dro.buffer (dro.pos + 4 + dro.step + i))
      (dro.buffer (dro.pos + 1) - 2 - 16 + UInt8.ofNat dro.compr) (UInt8.ofNat dro.compr)
      false).2

/-- The process that is told about a reply. -/
def droNotify (dro : Dro) : Except Fault (Option ℕ) :=
  match s.rplGetDag dro.instanceId (some dro.dodagId) with
  | none => .ok none
  | some d => do
    let e ← s.derefP2p d
    .ok (s.dagP2pTable e).process

/-- A reply that has reached the origin of the discovery. -/
def droAtOrigin (dro : Dro) : Except Fault (List Packet × Node cfg) := do
  let s := s.droStoreRoute dro
  let packets :=
    if dro.ackRequested then
      [⟨uipDs6SelectSrc s.addrList dro.target, dro.target, .droAck, dro.ack⟩]
    else []
  let _ ← s.droNotify dro
  .ok (packets, s)

/-- The next hop that an intermediate node stores: the address behind its own one. -/
def droNexthop (dro : Dro) : IpAddr :=
  let nexthop :=
    if dro.pos + 4 + (dro.rem + 1) * dro.step ≥ dro.bufferLength then dro.target
    else dro.address (dro.rem + 1)
  nexthop.uipCreateLinklocalPrefix

/-- The hop-by-hop state of an intermediate node; no result when the reply is dropped. -/
def droStoreHop (dro : Dro) : Option (Node cfg) :=
  if dro.hopByHop then
    match uipDs6RouteLookup s.routingTable dro.target with
    | some hbhrt =>
      if (s.routingTable hbhrt).nexthop = droNexthop dro then none else some s
    | none =>
      some (s.rplP2pAddHbhRoute dro.instanceId dro.dodagId dro.target (droNexthop dro)).2
  else some s

/-- A reply at a node that is not the origin; it takes part in the route when the address at
position Rem is its own. -/
def droAtIntermediate (dst : IpAddr) (dro : Dro) : List Packet × Node cfg :=
  if dro.rem = 0 ∨ ¬s.isMyAddr (dro.address dro.rem) then ([], s)
  else
    match s.droStoreHop dro with
    | none => ([], s)
    | some s => ([⟨uipDs6SelectSrc s.addrList dst, dst, .dro, dro.forwarded⟩], s)

/-- `dro_input`: what is sent, and the new state. -/
def droInput (dst : IpAddr) (dro : Dro) : Except Fault (List Packet × Node cfg) := do
  let s ← s.droStop dro
  if s.isMyAddr dro.dodagId then s.droAtOrigin dro
  else .ok (s.droAtIntermediate dst dro)

end Node
end Contiki

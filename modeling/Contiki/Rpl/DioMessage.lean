import Contiki.Rpl.ProcessDio

/-!
# DIO messages

`dio_input`, `write_rdo` and `dio_output` of `rpl-icmp6.c`, and the timer that calls
`dio_output`.  The packet buffer that a message is read from is a function on offsets: what lies
behind the end of the packet is whatever was in the buffer before, and some of the reads of
`dio_input` go there.
-/

namespace Contiki

def rplOptionPad1 : UInt8 := 0

def rplOptionDagMetricContainer : UInt8 := 2

def rplOptionRouteInfo : UInt8 := 3

def rplOptionDagConf : UInt8 := 4

def rplOptionPrefixInfo : UInt8 := 8

def rplDioSuboptRouteDiscovery : UInt8 := 10

/-- The message types that are sent. -/
inductive RplCode
  | dio
  | dro
  | droAck
deriving DecidableEq

/-- A message handed to the IPv6 layer. -/
structure Packet where
  src : IpAddr
  dst : IpAddr
  code : RplCode
  payload : List UInt8
deriving DecidableEq

/-- The address of all RPL nodes on the link. -/
def linklocalRplnodesMcast : IpAddr :=
  .ofBytes [0xff, 0x02, 0, 0, 0, 0, 0, 0, 0, 0, 0, 0, 0, 0, 0, 0x1a]

def get16 (buffer : ℕ → UInt8) (pos : ℕ) : UInt16 :=
  ((buffer pos).toUInt16 <<< 8) ||| (buffer (pos + 1)).toUInt16

def get32 (buffer : ℕ → UInt8) (pos : ℕ) : UInt32 :=
  ((buffer pos).toUInt32 <<< 24) ||| ((buffer (pos + 1)).toUInt32 <<< 16) |||
    ((buffer (pos + 2)).toUInt32 <<< 8) ||| (buffer (pos + 3)).toUInt32

/-- The bytes that `set16` writes. -/
def set16 (value : UInt16) : List UInt8 := [(value >>> 8).toUInt8, value.toUInt8]

/-- The bytes that `set32` writes. -/
def set32 (value : UInt32) : List UInt8 :=
  [(value >>> 24).toUInt8, (value >>> 16).toUInt8, (value >>> 8).toUInt8, value.toUInt8]

/-- The bytes from an offset on. -/
def bytesAt (buffer : ℕ → UInt8) (pos len : ℕ) : List UInt8 :=
  (List.range len).map fun k => buffer (pos + k)

/-! ## Receiving -/

section Parse
variable (buffer : ℕ → UInt8)

/-- The fields of the metric container at offset `j`, apart from its object. -/
def readMetricContainer (j : ℕ) (obj : UInt16) : MetricContainer where
  type := buffer j
  flags := (buffer (j + 1) <<< 1) ||| (buffer (j + 2) >>> 7)
  aggr := (buffer (j + 2) >>> 4) &&& 0x3
  prec := buffer (j + 2) &&& 0xf
  length := buffer (j + 3)
  obj

/-- One metric container of a DIO: a constraint or a metric. -/
def parseMetricContainer (j : ℕ) (dio : Dio) : Option Dio :=
  if (buffer (j + 1) <<< 1) &&& rplDagMcFlagC ≠ 0 then
    if buffer j = rplDagMcEtx then
      some { dio with constr := some (readMetricContainer buffer j (get16 buffer (j + 4))) }
    else none
  else if buffer j = rplDagMcEtx then
    some { dio with mc := readMetricContainer buffer j (get16 buffer (j + 4)) }
  else if buffer j = rplDagMcEnergy then
    let obj := MetricContainer.energyObj (buffer (j + 4)) (buffer (j + 5))
    some { dio with mc := readMetricContainer buffer j obj }
  else none

/-- The metric containers of one option, from offset `j` up to `stop`. -/
def parseMetricContainers (stop : ℕ) : ℕ → ℕ → Dio → Option Dio
  | 0, _, dio => some dio
  | fuel + 1, j, dio =>
    if j < stop then
      match parseMetricContainer buffer j dio with
      | none => none
      | some dio => parseMetricContainers stop fuel (j + (4 + (buffer (j + 3)).toNat)) dio
    else some dio

/-- `RPL_OPTION_ROUTE_INFO`. -/
def parseRouteInfo (i len : ℕ) : Option RplPrefix :=
  let length := buffer (i + 2)
  if len < 9 then none
  else if (length.toNat + 7) / 8 + 8 ≤ len ∧ length ≤ 128 then
    some { prefixAddr := .ofBytes (bytesAt buffer (i + 8) ((length.toNat + 7) / 8))
           lifetime := get32 buffer (i + 4)
           length
           flags := buffer (i + 3) }
  else none

/-- `RPL_OPTION_DAG_CONF`. -/
def parseDagConf (i len : ℕ) : Option DodagConfig :=
  if len ≠ 16 then none
  else some
    { dioIntdoubl := buffer (i + 3)
      dioIntmin := buffer (i + 4)
      dioRedund := buffer (i + 5)
      maxRankinc := get16 buffer (i + 6)
      minHoprankinc := get16 buffer (i + 8)
      ocp := get16 buffer (i + 10)
      defaultLifetime := buffer (i + 13)
      lifetimeUnit := get16 buffer (i + 14) }

/-- `RPL_OPTION_PREFIX_INFO`. -/
def parsePrefixInfo (i len : ℕ) : Option RplPrefix :=
  if len ≠ 32 then none
  else some
    { prefixAddr := .ofBytes (bytesAt buffer (i + 16) 16)
      lifetime := get32 buffer (i + 8)
      length := buffer (i + 2)
      flags := buffer (i + 3) }

/-- `RPL_DIO_SUBOPT_ROUTE_DISCOVERY`; a compression below the one of the node is refused. -/
def parseRdo (i len : ℕ) : Option Rdo :=
  if len ≤ 4 then none
  else if buffer (i + 2) &&& 0x0f < rplP2pRdoCompr then none
  else some
    { bothDirections := buffer (i + 2) &&& 0x80
      hopByHop := buffer (i + 2) &&& 0x40
      numRoutes := (buffer (i + 2) &&& 0x30) >>> 4
      lifetime := (buffer (i + 3) &&& 0xc0) >>> 6
      maxRank := buffer (i + 3) &&& 0x3f
      target := buffer (i + 4)
      addrs := bytesAt buffer (i + 5) (len - 5) }

/-- One option of a DIO, by its type.  No result where `dio_input` gives up on the message. -/
def parseDioOption (i len : ℕ) (dio : Dio) : Option Dio :=
  let type := buffer i
  if type = rplOptionDagMetricContainer then
    if len < 6 then none else parseMetricContainers buffer (i + len) len (i + 2) dio
  else if type = rplOptionRouteInfo then
    (parseRouteInfo buffer i len).map fun rif => { dio with routeInfo := some rif }
  else if type = rplOptionDagConf then
    (parseDagConf buffer i len).map fun dcf => { dio with dodagConfig := some dcf }
  else if type = rplOptionPrefixInfo then
    (parsePrefixInfo buffer i len).map fun pif => { dio with prefixInfo := some pif }
  else if type = rplDioSuboptRouteDiscovery then
    if dio.rdo ≠ none then none
    else (parseRdo buffer i len).map fun rdo => { dio with rdo := some rdo }
  else some dio

/-- The length of the option at offset `i`. -/
def dioOptionLength (i : ℕ) : ℕ :=
  if buffer i = rplOptionPad1 then 1 else 2 + (buffer (i + 1)).toNat

/-- The loop of `dio_input` over the options; each takes at least one byte. -/
def parseDioOptions (bufferLength : ℕ) : ℕ → ℕ → Dio → Option Dio
  | 0, _, dio => some dio
  | fuel + 1, i, dio =>
    if i < bufferLength then
      let len := dioOptionLength buffer i
      if len + i > bufferLength then none
      else
        match parseDioOption buffer i len dio with
        | none => none
        | some dio => parseDioOptions bufferLength fuel (i + len) dio
    else some dio

/-- The base object of a DIO. -/
def parseDioBase : Dio where
  instanceId := buffer 0
  version := buffer 1
  rank := get16 buffer 2
  grounded := buffer 4 &&& 0x80
  mop := (buffer 4 &&& 0x38) >>> 3
  preference := buffer 4 &&& 0x07
  dtsn := buffer 5
  dagId := .ofBytes (bytesAt buffer 8 16)
  dodagConfig := none
  routeInfo := none
  prefixInfo := none
  mc := .zero
  rdo := none
  constr := none

/-- The DODAGIDs of the SensLAB testbed. -/
def senslabDagId (a : IpAddr) : Bool :=
  a.u8.take 15 == [0xaa, 0xaa, 0, 0, 0, 0, 0, 0, 0, 0, 0, 0, 0, 0, 0]

/-- The message part of `dio_input`: the DIO it hands to `rpl_process_dio`, if it does. -/
def parseDio (cfg : Config) (bufferLength : UInt8) : Option Dio :=
  let dio := parseDioBase buffer
  if cfg.senslab ∧ ¬senslabDagId dio.dagId then none
  else parseDioOptions buffer bufferLength.toNat bufferLength.toNat 24 dio

end Parse

namespace Node
variable {cfg : Config} (s : Node cfg)

def dioInput (from_ : IpAddr) (buffer : ℕ → UInt8) (bufferLength : UInt8) :
    Except Fault (Node cfg) :=
  match parseDio buffer cfg bufferLength with
  | none => .ok s
  | some dio => s.rplProcessDio from_ dio

/-! ## Sending -/

def icmp6Send (dst : IpAddr) (code : RplCode) (payload : List UInt8) : Packet :=
  ⟨uipDs6SelectSrc s.addrList dst, dst, code, payload⟩

/-- Whether the own address goes into an RDO: the node is neither origin nor target. -/
def isIntermediate (d : cfg.DagRef) (e : cfg.P2pRef) : Except Fault Bool :=
  if s.isMyAddr (s.dagTable d).dagId then .ok false
  else do
    let target ← s.rplP2pIsTarget e
    .ok (!target)

/-- The address vector that `write_rdo` writes for a list of addresses. -/
def rdoVector (d : cfg.DagRef) (e : cfg.P2pRef) (addrs : List UInt8) :
    Except Fault (List UInt8) := do
  if ← s.isIntermediate d e then
    let ownAddr ← s.ownAddr
    .ok (addrs ++ [ownAddr.lastByte])
  else .ok addrs

/-- The two bytes of an RDO with the flags and bit fields. -/
def rdoFields (p2p : DagP2p cfg) : List UInt8 :=
  let dFlag : UInt8 := if p2p.bothDirections ≠ 0 then 0x80 else 0
  let hFlag : UInt8 := if p2p.hopByHop ≠ 0 then 0x40 else 0
  [dFlag ||| hFlag ||| ((p2p.numRoutes <<< 4) &&& 0x30) ||| (rplP2pRdoCompr &&& 0x0f),
    ((p2p.rdoLifetime <<< 6) &&& 0xc0) ||| (p2p.maxRank &&& 0x3f)]

/-- `write_rdo`: the bytes of the route discovery option. -/
def writeRdo (d : cfg.DagRef) (e : cfg.P2pRef) (addrs : List UInt8) :
    Except Fault (List UInt8) := do
  let vector ← s.rdoVector d e addrs
  let p2p := s.dagP2pTable e
  .ok ([rplDioSuboptRouteDiscovery, UInt8.ofNat (2 + (1 + vector.length))] ++ rdoFields p2p ++
    p2p.target :: vector)

/-- `cnt` of `dio_output`: the number of cached partial routes. -/
def cachedRoutes (e : cfg.P2pRef) : ℕ :=
  ((List.finRange rplP2pMaxPartialRoutes).filter fun i =>
    ((s.dagP2pTable e).partialRoutes i).length ≠ 0).length

/-- The random choice of `dio_output` among the cached partial routes. -/
def chooseRoute (e : cfg.P2pRef) : ℕ × Node cfg :=
  let cnt := s.cachedRoutes e
  if cnt > 1 then
    let (rand, s) := s.randomRand
    (rand.toNat / (randomRandMax.toNat / cnt), s)
  else (0, s)

/-- The addresses a chosen partial route stands for. -/
def routeAddrs (d : cfg.DagRef) (e : cfg.P2pRef) (i : Fin rplP2pMaxPartialRoutes) : List UInt8 :=
  let stored := s.partialRoute e i
  -- the DODAGID alone stands for the empty address vector
  if stored = [(s.dagTable d).dagId.lastByte] then [] else stored

/-- The route discovery option of a DIO, with the state after the random choice. -/
def dioRdo (d : cfg.DagRef) (e : cfg.P2pRef) : Except Fault (List UInt8 × Node cfg) :=
  let (r, s) := s.chooseRoute e
  if h : r < rplP2pMaxPartialRoutes then do
    let option ← s.writeRdo d e (s.routeAddrs d e ⟨r, h⟩)
    .ok (option, s)
  else .error .outOfBounds

/-- The metric object of a DIO; no result for a type that is not handled. -/
def mcBytes (mc : MetricContainer) : Option (List UInt8) :=
  let head := [mc.type, mc.flags >>> 1, ((mc.flags &&& 1) <<< 7) ||| ((mc.aggr <<< 4) ||| mc.prec)]
  if mc.type = rplDagMcEtx then some (head ++ 2 :: set16 mc.obj)
  else if mc.type = rplDagMcEnergy then some (head ++ [2, mc.energyFlags, mc.energyEst])
  else none

/-- The constraint of a P2P mode DIO, which loses the lowest bit of the flags. -/
def constrBytes (constr : MetricContainer) : Option (List UInt8) :=
  if constr.type = rplDagMcEtx then
    some ([constr.type, constr.flags >>> 1, (constr.aggr <<< 4) ||| constr.prec, 2] ++
      set16 constr.obj)
  else none

/-- The metric container option of a DIO, which has a constraint in P2P mode.  `metric` says
whether the metric container of the DAG was in use before it was brought up to date. -/
def mcOption (metric : Bool) (mc constr : MetricContainer) : Option (List UInt8) :=
  if metric then
    match mcBytes mc with
    | none => none
    | some m =>
      if constr.type = rplDagMcNone then some ([rplOptionDagMetricContainer, 6] ++ m)
      else (constrBytes constr).map fun c => [rplOptionDagMetricContainer, 12] ++ m ++ c
  else if constr.type = rplDagMcNone then some []
  else (constrBytes constr).map fun c => [rplOptionDagMetricContainer, 6] ++ c

/-- The DODAG configuration option of a DIO. -/
def confOption (config : DodagConfig) (ocp : UInt16) : List UInt8 :=
  [rplOptionDagConf, 14, 0, config.dioIntdoubl, config.dioIntmin, config.dioRedund] ++
    set16 config.maxRankinc ++ set16 config.minHoprankinc ++ set16 ocp ++
    [0, config.defaultLifetime] ++ set16 config.lifetimeUnit

/-- The prefix information option of a DIO. -/
def prefixOption (p : RplPrefix) : List UInt8 :=
  if p.length > 0 then
    [rplOptionPrefixInfo, 30, p.length, p.flags] ++ set32 p.lifetime ++ set32 p.lifetime ++
      [0, 0, 0, 0] ++ p.prefixAddr.u8
  else []

/-- The base object of a DIO; the grounded flag is overwritten by the mode of operation. -/
def dioBase (dag : Dag cfg) : List UInt8 :=
  [dag.instanceId, dag.version] ++ set16 dag.rank ++
    [dag.mop <<< 3, dag.dtsnOut, 0, 0] ++ dag.dagId.u8

/-- A DIO is not sent for an expired P2P DAG, nor when the rank cannot be increased. -/
def dioSuppressed (d : cfg.DagRef) : Except Fault Bool :=
  let dag := s.dagTable d
  if dag.mop = rplMopP2pRouteDiscovery then do
    let e ← s.derefP2p d
    let p2p := s.dagP2pTable e
    .ok (p2p.expired || (p2p.maxRank > 0 && dag.dagRank dag.rank.toNat == p2p.maxRank.toNat))
  else .ok false

/-- The constraint that a DIO carries. -/
def dioConstr (d : cfg.DagRef) : Except Fault MetricContainer :=
  if (s.dagTable d).mop = rplMopP2pRouteDiscovery then do
    let e ← s.derefP2p d
    .ok (s.dagP2pTable e).constr
  else .ok .zero

/-- The options behind the metric container. -/
def dioTail (d : cfg.DagRef) (of : ObjectiveFunction) : Except Fault (List UInt8 × Node cfg) :=
  let dag := s.dagTable d
  let conf := confOption dag.config of.ocp
  if dag.mop = rplMopP2pRouteDiscovery then do
    let e ← s.derefP2p d
    let (rdo, s) ← s.dioRdo d e
    .ok (conf ++ rdo, s)
  else .ok (conf ++ prefixOption dag.prefixInfo, s)

/-- The DTSN goes up with every DIO, except for a P2P DAG. -/
def countDtsn (d : cfg.DagRef) : Node cfg :=
  if (s.dagTable d).p2p = none then s.modifyDag d fun dag => { dag with dtsnOut := dag.dtsnOut + 1 }
  else s

/-- A metric container that is in use is brought up to date. -/
def refreshMetric (of : ObjectiveFunction) (d : cfg.DagRef) : Node cfg :=
  if (s.dagTable d).mc.type = rplDagMcNone then s else s.updateMetricContainer of d

/-- `dio_output`: the packet sent, if one is, with the new state. -/
def dioOutput (d : cfg.DagRef) (ucAddr : Option IpAddr) :
    Except Fault (Option Packet × Node cfg) := do
  if ← s.dioSuppressed d then .ok (none, s)
  else
    let s := s.countDtsn d
    let base := dioBase (s.dagTable d)
    let of ← s.derefOf d
    let metric : Bool := (s.dagTable d).mc.type ≠ rplDagMcNone
    let s := s.refreshMetric of d
    let constr ← s.dioConstr d
    match mcOption metric (s.dagTable d).mc constr with
    | none => .ok (none, s)
    | some mc => do
      let (tail, s) ← s.dioTail d of
      .ok (some (s.icmp6Send (ucAddr.getD linklocalRplnodesMcast) .dio (base ++ mc ++ tail)), s)

/-- The DIO of a Trickle interval, which is suppressed after enough consistent ones. -/
def sendDio (d : cfg.DagRef) : Except Fault (Option Packet × Node cfg) :=
  if (s.dagTable d).dioCounter < (s.dagTable d).config.dioRedund then s.dioOutput d none
  else .ok (none, s)

/-- The next Trickle interval, twice as long up to the maximum. -/
def doubleInterval (d : cfg.DagRef) : Node cfg :=
  (s.modifyDag d fun dag => { dag with
    dioIntcurrent :=
      if dag.dioIntcurrent.toNat < dag.config.dioIntmin.toNat + dag.config.dioIntdoubl.toNat then
        dag.dioIntcurrent + 1
      else dag.dioIntcurrent }).newDioInterval d

/-- `handle_dio_timer`, which fires only while the timer runs. -/
def handleDioTimer (d : cfg.DagRef) : Except Fault (Option Packet × Node cfg) :=
  if (s.dagTable d).dioTimer = none then .ok (none, s)
  else if ¬s.dioSendOk ∧ uipDs6GetLinkLocal s.addrList .preferred = none then
    .ok (none, s.modifyDag d fun dag => { dag with dioTimer := some (cfg.clockTime cfg.clockSecond) })
  else if (s.dagTable d).dioSend then do
    let (packet, s) ← { s with dioSendOk := true }.sendDio d
    .ok (packet, s.modifyDag d fun dag => { dag with
      dioSend := false
      dioTimer := some (cfg.clockTime dag.dioNextDelay) })
  else .ok (none, { s with dioSendOk := true }.doubleInterval d)

end Node
end Contiki

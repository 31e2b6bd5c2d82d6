import Contiki.Rpl.SrcRoutes

/-!
# Measurements

`mo_output` and `mo_input`.  A measurement object travels along a route to its target and back to
its origin, and every node adds the metric of the link over which it has come.  `mo_input` is cut
at its three cases: the origin, the target and a node in between.

A node is changed by a measurement in two places.  The target stores a source route back, and a
node in between turns the next hop of the route it has looked up into a link-local address, in
the table itself.
-/

namespace Contiki

def rplP2pMoHFlag : UInt8 := 0x04

/-- `RPL_P2P_MO_S_MASK` and `RPL_P2P_MO_S_SHIFT`. -/
def rplP2pMoS (b : UInt8) : UInt8 := b &&& 0x3f

def rplP2pMoDefaultVectorSize : ℕ := 10

abbrev rplP2pMoMaxRequests : ℕ := 3

/-- A measurement object as it lies in the packet buffer, with the addresses of its packet and the
length of the message. -/
structure Mo where
  src : IpAddr
  dst : IpAddr
  buffer : ℕ → UInt8
  length : ℕ

namespace Mo
variable (mo : Mo)

/-! ## Fields -/

/-- The RPLInstanceID is a local one. -/
def isLocal : Bool := mo.buffer 0 &&& rplLocalDefaultInstance ≠ 0

/-- The T flag: a request, on its way to the target. -/
def isRequest : Bool := mo.buffer 1 &&& rplP2pMoTFlag ≠ 0

/-- The H flag: the route to be measured is a hop-by-hop route. -/
def hopByHop : Bool := mo.buffer 1 &&& rplP2pMoHFlag ≠ 0

/-- The A flag: the route is recorded. -/
def accumulate : Bool := mo.buffer 1 &&& rplP2pMoAFlag ≠ 0

/-- The number of the request at its origin. -/
def sequence : ℕ := (rplP2pMoS (mo.buffer 2)).toNat

/-- The Num field: the size of the address vector. -/
def num : ℕ := (rplP2pMoN (mo.buffer 3)).toNat

/-- The Index field. -/
def index : ℕ := (rplP2pMoI (mo.buffer 3)).toNat

/-- A compressed address of the message, with the prefix of an own address; 0 is the origin and 1
the target, and the vector begins at 2. -/
def address (own : IpAddr) (i : ℕ) : IpAddr :=
  own.decompress rplP2pRdoCompr.toNat [mo.buffer (4 + i)]

/-- The offset of the path metric, behind the vector and the six bytes in front of it in the metric
container. -/
def pos : ℕ := 4 + (mo.num + 2) + 6

/-- The bytes of the metric container in front of the metric: type and length of the option, type,
flags and length of the metric. -/
def container : List UInt8 := bytesAt mo.buffer (mo.pos - 6) 6

def pathMetric : UInt16 := get16 mo.buffer mo.pos

/-! ## Changes -/

/-- Write one byte. -/
@[simps]
def write (i : ℕ) (b : UInt8) : Mo := { mo with buffer := Function.update mo.buffer i b }

/-- Add the metric of the link to the previous hop, in place. -/
def addLink (linkMetric : UInt8) : Mo :=
  let pathMetric := mo.pathMetric + Node.niEtxToRplEtx linkMetric
  (mo.write mo.pos (pathMetric >>> 8).toUInt8).write (mo.pos + 1) pathMetric.toUInt8

/-- Write an own address into the slot `i` of the vector. -/
def record (i : ℕ) (own : IpAddr) : Mo :=
  let mo := mo.write (4 + i) own.lastByte
  mo.write 3 (mo.buffer 3 + 1)

/-- The reply to a request: without the T flag and the vector. -/
def reply : Mo where
  src := mo.src
  dst := mo.dst
  buffer := fun i =>
    if i = 1 then mo.buffer 1 &&& ~~~rplP2pMoTFlag
    else if i = 3 then 0
    else if 6 ≤ i ∧ i < 14 then mo.buffer (mo.pos - 6 + (i - 6))
    else mo.buffer i
  length := 14

end Mo

/-- `mo_sequence` and `mo_processes`. -/
structure MoRequests where
  sequence : UInt8
  processes : Fin rplP2pMoMaxRequests → Option ℕ

/-- What `mo_input` leads to. -/
inductive MoOutcome
  | drop
  /-- a process is told about the result of its measurement -/
  | notify (process : ℕ) (target : IpAddr) (pathMetric : UInt16)
  /-- an ICMP error: there is no route to the destination -/
  | unreachable
  /-- the packet buffer is sent -/
  | send (mo : Mo)

/-- What the next hop of a measurement points at. -/
inductive MoNexthop (cfg : Config)
  | route (i : Fin cfg.routeNb)
  | defrt (i : Fin cfg.defrtNb)
  /-- an address outside the tables -/
  | address (a : IpAddr)

namespace Node
variable {cfg : Config} (s : Node cfg)

/-! ## The next hop -/

section
-- whether the neighbour cache has an entry for an address, which is not `NBR_INCOMPLETE`
variable (reachable : IpAddr → Bool)

def uipDs6DefrtChoose : Option (Fin cfg.defrtNb) :=
  let used := (List.finRange cfg.defrtNb).filter fun i => (s.defrtList i).isused
  (used.find? fun i => reachable (s.defrtList i).ipaddr).or used.getLast?

/-- The next hop of a request on a hop-by-hop route. -/
def moHopByHop (target : IpAddr) : Option (MoNexthop cfg) :=
  match uipDs6RouteLookup s.routingTable target with
  | some hbhrt => some (.route hbhrt)
  | none => (s.uipDs6DefrtChoose reachable).map .defrt

end

/-- `uip_create_linklocal_prefix (nexthop)`: the address, and the node with the address changed
where it stands. -/
def createLinklocal : MoNexthop cfg → IpAddr × Node cfg
  | .route i =>
    let nexthop := (s.routingTable i).nexthop.uipCreateLinklocalPrefix
    (nexthop, s.setRoute i { s.routingTable i with nexthop })
  | .defrt i =>
    let ipaddr := (s.defrtList i).ipaddr.uipCreateLinklocalPrefix
    (ipaddr, { s with
      defrtList := Function.update s.defrtList i { s.defrtList i with ipaddr } })
  | .address a => (a.uipCreateLinklocalPrefix, s)

/-- The end of `mo_input`: the message goes to the next hop. -/
def moForward (nexthop : MoNexthop cfg) (mo : Mo) : MoOutcome × Node cfg :=
  let (dst, s) := s.createLinklocal nexthop
  (.send { mo with src := uipDs6SelectSrc s.addrList dst, dst }, s)

/-! ## Receiving -/

/-- A measurement at its origin. -/
def moAtOrigin (requests : MoRequests) (own : IpAddr) (mo : Mo) : MoOutcome :=
  if mo.isRequest then .drop
  else if h : mo.sequence < rplP2pMoMaxRequests then
    match requests.processes ⟨mo.sequence, h⟩ with
    | none => .drop
    | some process => .notify process (mo.address own 1) mo.pathMetric
  else .drop

/-- A measurement at its target: the request is answered. -/
def moAtTarget (own : IpAddr) (mo : Mo) : MoOutcome × Node cfg :=
  if mo.isRequest then
    let origin := mo.address own 0
    let s :=
      if moReversible mo.buffer then
        (s.rplP2pAddSrcRoute origin (fun i => mo.buffer (6 + i)) (rplP2pMoI (mo.buffer 3) - 1)
          rplP2pRdoCompr true).2
      else s
    (.send { mo.reply with src := uipDs6SelectSrc s.addrList origin, dst := origin }, s)
  else (.drop, s)

/-- A request that travels along a source route. -/
def moAlongSourceRoute (own : IpAddr) (mo : Mo) : MoOutcome × Node cfg :=
  let mo := mo.write 3 (mo.buffer 3 + 1)
  let nexthop := if mo.index ≤ mo.num then mo.address own (mo.index + 1) else mo.address own 1
  s.moForward (.address nexthop) mo

/-- The loop of `mo_input` over the vector: the slot behind the recorded addresses, unless one of
them is an own address. -/
def moFreeSlot (own : IpAddr) (mo : Mo) : ℕ → ℕ → Option ℕ
  | 0, i => some i
  | fuel + 1, i =>
    if i ≤ mo.index then
      if s.isMyAddr (mo.address own i) then none else moFreeSlot own mo fuel (i + 1)
    else some i

/-- A request that travels along a hop-by-hop route.  The case of the root of a non-storing DAG
stands under `!buffer[0] & RPL_LOCAL_DEFAULT_INSTANCE`, which `notLocal_eq_false` shows to be
false for every instance. -/
def moAlongHopByHop (reachable : IpAddr → Bool) (own : IpAddr) (mo : Mo) :
    MoOutcome × Node cfg :=
  match s.moHopByHop reachable (mo.address own 1) with
  | none => (.unreachable, s)
  | some nexthop =>
    if mo.isLocal && mo.accumulate then
      match s.moFreeSlot own mo 16 2 with
      | none => (.drop, s)
      | some i => s.moForward nexthop (mo.record i own)
    else s.moForward nexthop mo

/-- A measurement at a node in between. -/
def moAtIntermediate (reachable : IpAddr → Bool) (own : IpAddr) (mo : Mo) :
    MoOutcome × Node cfg :=
  if mo.isRequest then
    if mo.hopByHop then s.moAlongHopByHop reachable own mo else s.moAlongSourceRoute own mo
  else (.drop, s)

end Node

namespace Mo
variable {cfg : Config} (mo : Mo) (s : Node cfg)

/-- `!buffer[0] & RPL_LOCAL_DEFAULT_INSTANCE`: the negation binds more tightly than the mask. -/
def notLocal : Bool := (if mo.buffer 0 = 0 then 1 else 0) &&& rplLocalDefaultInstance ≠ 0

lemma notLocal_eq_false : mo.notLocal = false := by
  have hzero : (0 : UInt8) &&& rplLocalDefaultInstance = 0 := by decide
  have hone : (1 : UInt8) &&& rplLocalDefaultInstance = 0 := by decide
  by_cases h : mo.buffer 0 = 0
  · simp [notLocal, h, hone]
  · simp [notLocal, h, hzero]

/-- `mo_input`: what is sent or told, and the new state. -/
def moInput (reachable : IpAddr → Bool) (requests : MoRequests) :
    Except Fault (MoOutcome × Node cfg) := do
  let own ← s.ownAddr
  if s.isMyAddr (mo.address own 0) then .ok (Node.moAtOrigin requests own mo, s)
  else
    match s.nbrMetric mo.src with
    | none => .ok (.drop, s)
    | some linkMetric =>
      let mo := mo.addLink linkMetric
      if s.isMyAddr (mo.address own 1) then .ok (s.moAtTarget own mo)
      else .ok (s.moAtIntermediate reachable own mo)

end Mo

/-! ## Source routes -/

namespace Node
variable {cfg : Config} {s s' : Node cfg}

lemma createLinklocal_srcRoutingTable (nexthop : MoNexthop cfg) :
    (s.createLinklocal nexthop).2.srcRoutingTable = s.srcRoutingTable := by
  cases nexthop with
  | route i => rfl
  | defrt i => rfl
  | address a => rfl

lemma moForward_srcRoutingTable (nexthop : MoNexthop cfg) (mo : Mo) :
    (s.moForward nexthop mo).2.srcRoutingTable = s.srcRoutingTable :=
  createLinklocal_srcRoutingTable nexthop

lemma moAtIntermediate_srcRoutingTable (reachable : IpAddr → Bool) (own : IpAddr) (mo : Mo) :
    (s.moAtIntermediate reachable own mo).2.srcRoutingTable = s.srcRoutingTable := by
  simp only [moAtIntermediate]
  split_ifs
  · simp only [moAlongHopByHop]
    split
    · rfl
    · split_ifs
      · split
        · rfl
        · exact moForward_srcRoutingTable _ _
      · exact moForward_srcRoutingTable _ _
  · exact moForward_srcRoutingTable _ _
  · rfl

/-- The node that has answered a request. -/
lemma moAtTarget_snd (own : IpAddr) (mo : Mo) :
    (s.moAtTarget own mo).2 =
      if mo.buffer 1 &&& rplP2pMoTFlag != 0 && moReversible mo.buffer then
        (s.rplP2pAddSrcRoute (mo.address own 0) (fun i => mo.buffer (6 + i))
          (rplP2pMoI (mo.buffer 3) - 1) rplP2pRdoCompr true).2
      else s := by
  simp only [moAtTarget, Mo.isRequest]
  by_cases hrequest : mo.buffer 1 &&& rplP2pMoTFlag = 0
  · simp [hrequest]
  · by_cases hreversible : moReversible mo.buffer = true
    · simp [hrequest, hreversible]
    · simp [hrequest, hreversible]

end Node

namespace Mo
variable {cfg : Config} {s s' : Node cfg} {mo : Mo}

lemma pos_eq : mo.pos = mo.num + 12 := by
  simp only [pos]
  omega

/-- The metric stands behind the fixed fields. -/
lemma addLink_buffer (linkMetric : UInt8) {i : ℕ} (hi : i < mo.pos) :
    (mo.addLink linkMetric).buffer i = mo.buffer i := by
  rw [addLink, write_buffer, Function.update_of_ne (by omega), write_buffer,
    Function.update_of_ne (by omega)]

lemma addLink_address (linkMetric : UInt8) (own : IpAddr) {i : ℕ} (hi : i < 8) :
    (mo.addLink linkMetric).address own i = mo.address own i := by
  have hpos := mo.pos_eq
  simp only [address, mo.addLink_buffer linkMetric (show 4 + i < mo.pos by omega)]

/-- The source routing table after a measurement is the one that `Node.moInput` leaves. -/
theorem moInput_srcRoutingTable {reachable : IpAddr → Bool} {requests : MoRequests}
    {outcome : MoOutcome} (hmo : mo.moInput s reachable requests = .ok (outcome, s')) :
    (s.moInput mo.src mo.buffer).map Node.srcRoutingTable = .ok s'.srcRoutingTable := by
  obtain ⟨own, hown, hmo⟩ := bind_eq_ok.mp hmo
  simp only [Node.moInput, hown]
  simp only at hmo
  by_cases horigin : s.isMyAddr (mo.address own 0) = true
  · rw [if_pos horigin] at hmo
    cases hmo
    exact congrArg (Except.map _) (if_pos horigin)
  · rw [if_neg horigin] at hmo
    refine (congrArg (Except.map _) (if_neg horigin)).trans ?_
    cases hlink : s.nbrMetric mo.src with
    | none =>
        rw [hlink] at hmo
        cases hmo
        rfl
    | some linkMetric =>
        rw [hlink] at hmo
        simp only at hmo
        rw [mo.addLink_address linkMetric own (by omega)] at hmo
        change Except.map _ (if s.isMyAddr (mo.address own 1) &&
            (mo.addLink linkMetric).buffer 1 &&& rplP2pMoTFlag != 0 &&
            Node.moReversible (mo.addLink linkMetric).buffer then
          .ok (s.rplP2pAddSrcRoute (mo.address own 0) (fun i => (mo.addLink linkMetric).buffer (6 + i))
            (rplP2pMoI ((mo.addLink linkMetric).buffer 3) - 1) rplP2pRdoCompr true).2
          else .ok s) = _
        by_cases htarget : s.isMyAddr (mo.address own 1) = true
        · rw [if_pos htarget] at hmo
          have hs : (s.moAtTarget own (mo.addLink linkMetric)).2 = s' :=
            congrArg Prod.snd (Except.ok.inj hmo)
          rw [← hs, htarget, Bool.true_and, Node.moAtTarget_snd,
            mo.addLink_address linkMetric own (by omega)]
          split_ifs
          · rfl
          · rfl
        · rw [if_neg htarget] at hmo
          have hs : (s.moAtIntermediate reachable own (mo.addLink linkMetric)).2 = s' :=
            congrArg Prod.snd (Except.ok.inj hmo)
          rw [← hs, Node.moAtIntermediate_srcRoutingTable, Bool.eq_false_of_not_eq_true htarget]
          rfl

end Mo

namespace Node
variable {cfg : Config} (s : Node cfg)

/-! ## Sending -/

/-- The metric container of a new measurement. -/
def moMetricContainer : List UInt8 := [2, 6, 7, 0, 0, 2, 0, 0]

/-- A new measurement: the fields that every one has, the vector, and the metric container. -/
def moMessage (own target : IpAddr) (sequence instanceId flags numIndex : UInt8)
    (vector : List UInt8) : List UInt8 :=
  [instanceId, (rplP2pRdoCompr <<< 4) ||| rplP2pMoTFlag ||| flags, rplP2pMoS sequence, numIndex,
    own.lastByte, target.lastByte] ++ vector ++ moMetricContainer

/-- `uip_icmp6_send` of a measurement. -/
def sendMo (nexthop : IpAddr) (message : List UInt8) : Mo where
  src := uipDs6SelectSrc s.addrList nexthop
  dst := nexthop
  buffer := fun i => message.getD i 0
  length := message.length

/-- The fields Num and Index of a new measurement. -/
def moNumIndex (num : ℕ) : UInt8 := (UInt8.ofNat (num <<< 4) &&& 0xf0) ||| 1

/-- A measurement of a hop-by-hop route with a local instance: the route has to be an own one. -/
def moLocal (own target : IpAddr) (sequence : UInt8) (hbhrt : Ds6Route cfg.DagRef) : Option Mo :=
  if s.isMyAddr hbhrt.state.dodagid then
    some (s.sendMo hbhrt.nexthop (moMessage own target sequence hbhrt.state.instanceId
      (rplP2pMoHFlag ||| rplP2pMoAFlag) (moNumIndex rplP2pMoDefaultVectorSize)
      (List.replicate rplP2pMoDefaultVectorSize 0)))
  else none

/-- `mo_output`, once the request is noted: what is sent.  It looks for a source route, a
hop-by-hop route and a default route, in this order. -/
def moOutputTo (reachable : IpAddr → Bool) (own target : IpAddr) (sequence : UInt8) :
    Except Fault (Option Mo) :=
  match s.srcRoutingTable.uipDs6SrcRouteLookup target with
  | some srcrt =>
    let hops := s.srcRoutingTable.hops srcrt
    match hops with
    | [] => .error .outOfBounds
    | nexthop :: _ =>
      -- the last address is the link-local address of the target
      .ok (some (s.sendMo nexthop (moMessage own target sequence rplLocalDefaultInstance
        rplP2pMoRFlag (moNumIndex (hops.length - 1)) (hops.dropLast.map IpAddr.lastByte))))
  | none =>
    match uipDs6RouteLookup s.routingTable target with
    | some i =>
      let hbhrt := s.routingTable i
      if hbhrt.state.instanceId &&& rplLocalDefaultInstance ≠ 0 then
        .ok (s.moLocal own target sequence hbhrt)
      else
        .ok (some (s.sendMo hbhrt.nexthop (moMessage own target sequence hbhrt.state.instanceId
          rplP2pMoHFlag 0 [])))
    | none =>
      match s.uipDs6DefrtChoose reachable, s.rplGetDag rplDefaultInstance none with
      | some i, some d =>
        .ok (some (s.sendMo (s.defrtList i).ipaddr (moMessage own target sequence
          (s.dagTable d).instanceId rplP2pMoHFlag 0 [])))
      | _, _ => .ok none

/-- `mo_output` for the process that runs: what is sent, and the requests with this one noted. -/
def moOutput (reachable : IpAddr → Bool) (requests : MoRequests) (current : Option ℕ) :
    Option IpAddr → Except Fault (Option Mo × MoRequests)
  | none => .ok (none, requests)
  | some target => do
    let sequence := UInt8.ofNat ((requests.sequence.toNat + 1) % rplP2pMoMaxRequests)
    let processes := fun i : Fin rplP2pMoMaxRequests =>
      if i.val = sequence.toNat then current else requests.processes i
    let own ← s.ownAddr
    let mo ← s.moOutputTo reachable own target sequence
    .ok (mo, ⟨sequence, processes⟩)

end Node
end Contiki

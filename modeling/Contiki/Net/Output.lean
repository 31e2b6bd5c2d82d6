import Contiki.Net.Nd6

/-!
# Output of IPv6 packets

`tcpip_ipv6_output`: the next hop is determined, with a routing header in front of a packet that takes
a source route, and the packet is sent to the neighbour, or parked while its link-layer address is
resolved.

* `IpStack.insertRh4` — the routing header.
* `IpStack.nextHop` — the determination of the next hop.
* `IpStack.tcpipIpv6Output`.
-/

namespace Contiki

namespace IpStack
variable {cfg : StackConfig} {δ : Type} (s : IpStack cfg δ)

/-! ## Source routes -/

/-- A write to `uip_buf` at an index of eight bits, with the index behind it. -/
def putAt (pos : UInt8) (l : List UInt8) (s : IpStack cfg δ) :
    Except StackFault (UInt8 × IpStack cfg δ) :=
  if l = [] ∨ (cfg.llhLen ≤ pos ∧ pos.toNat + l.length ≤ cfg.llhLen.toNat + cfg.bufsize.toNat) then
    .ok (pos + UInt8.ofNat l.length, s.writeBuf (pos.toNat - cfg.llhLen.toNat) l)
  else .error .bufBounds

/-- Writes one behind the other. -/
def putAll : UInt8 → List (List UInt8) → IpStack cfg δ → Except StackFault (UInt8 × IpStack cfg δ)
  | pos, [], s => .ok (pos, s)
  | pos, l :: ls, s => do
    let (pos, s) ← s.putAt pos l
    putAll pos ls s

end IpStack

namespace StackConfig
variable (cfg : StackConfig)

/-- `addr_vector_len` for a number of addresses. -/
def addrVectorLen (addrCount : UInt8) : UInt8 :=
  (addrCount - 1) * (16 - cfg.rh4Cmpri) + (16 - cfg.rh4Cmpre)

/-- `hdr_ext_len`, in units of eight bytes. -/
def hdrExtLen (addrCount : UInt8) : UInt8 :=
  UInt8.ofNat (((cfg.addrVectorLen addrCount).toNat + 7) / 8)

def rh4Pad (addrCount : UInt8) : UInt8 := cfg.hdrExtLen addrCount * 8 - cfg.addrVectorLen addrCount

def rhLen (addrCount : UInt8) : UInt8 := cfg.hdrExtLen addrCount * 8 + 8

end StackConfig

namespace IpStack
variable {cfg : StackConfig} {δ : Type} (s : IpStack cfg δ)

/-- Room is made for `len` bytes at the index `pos`. -/
def makeRoom (pos len : UInt8) : Except StackFault (IpStack cfg δ) :=
  let hdrLen := uipIphLen + s.uipExtLen.toNat
  let count := s.uipBuf.len.toNat - hdrLen
  if hdrLen ≤ s.uipBuf.len.toNat ∧ cfg.llhLen ≤ pos ∧
      pos.toNat + len.toNat + count ≤ cfg.llhLen.toNat + cfg.bufsize.toNat then
    .ok (s.writeBuf (pos.toNat + len.toNat - cfg.llhLen.toNat)
      (copyBytes s.uipBuf.bytes (pos.toNat - cfg.llhLen.toNat) count))
  else .error .bufBounds

variable (cfg) in
/-- The routing header of type 4 behind its first byte, in the parts that are written one by one: the
rest of its first eight bytes, the addresses behind the first hop, the destination and the padding. -/
def rh4Parts (hops : List IpAddr) (dest : IpAddr) : List (List UInt8) :=
  let addrCount := UInt8.ofNat hops.length
  [[cfg.hdrExtLen addrCount], [4], [addrCount],
    [cfg.rh4Cmpri <<< 4 ||| (cfg.rh4Cmpre &&& 0x0f)], [cfg.rh4Pad addrCount <<< 4], [0], [0]] ++
  hops.tail.map (fun a => a.u8.drop cfg.rh4Cmpri.toNat) ++
  [dest.u8.drop cfg.rh4Cmpre.toNat, List.replicate (cfg.rh4Pad addrCount).toNat 0]

/-- The lengths are updated for a routing header. -/
def addRhLen (rhLen : UInt8) : IpStack cfg δ :=
  let s : IpStack cfg δ := { s with uipExtLen := s.uipExtLen + rhLen }
  let s := s.setLen (s.uipBuf.len + rhLen.toUInt16)
  s.writeBuf 4 (wordBytes (s.uipBuf.len - 40))

/-- The routing header is inserted, and the first hop becomes the destination. -/
def insertRh4 (r : Fin cfg.srcRouteNb) : Except StackFault (IpAddr × IpStack cfg δ) :=
  let hops := s.srcRoutingTable.hops r
  let addrCount := UInt8.ofNat hops.length
  let pos := UInt8.ofNat (cfg.llhLen.toNat + uipIphLen + s.uipExtLen.toNat)
  match hops with
  | [] => .error .noHop
  | nexthop :: _ => do
    let s ← s.makeRoom pos (cfg.rhLen addrCount)
    let s := s.setDestipaddr nexthop
    let (pos, s) ← s.putAt pos [s.uipBuf.bytes 6]
    let s := s.writeBuf 6 [43]
    let (_, s) ← putAll pos (rh4Parts cfg hops (s.srcRoutingTable.routes r).ipaddr) s
    .ok (nexthop, s.addRhLen (cfg.rhLen addrCount))

/-! ## The next hop -/

def uipDs6DefrtChoose : Option IpAddr :=
  let used := (List.finRange cfg.defrtNb).filter fun i => (s.defrtList i).isused
  let usable := used.find? fun i =>
    (s.uipDs6NbrLookup (s.defrtList i).ipaddr).any fun n => (s.nbrCache n).state ≠ .incomplete
  (usable.or used.getLast?).map fun i => (s.defrtList i).ipaddr

/-- The determination of the next hop, for a unicast destination; `none` when there is no route. -/
def nextHop : Except StackFault (Option (IpAddr × IpStack cfg δ)) :=
  let dest := s.uipBuf.destipaddr
  if s.node.isAddrOnlink dest then .ok (some (dest, s))
  else
    match s.srcRoutingTable.uipDs6SrcRouteLookup dest with
    | some r => (s.insertRh4 r).map some
    | none =>
      match uipDs6RouteLookup s.routingTable dest with
      | some i => .ok (some ((s.routingTable i).nexthop, s))
      | none => .ok (s.uipDs6DefrtChoose.map (·, s))

/-! ## Sending -/

/-- The packet has been dealt with. -/
def outputDone : IpStack cfg δ := { s.setLen 0 with uipExtLen := 0 }

/-- The packet is for a neighbour that was not in the cache: it is parked, and a solicitation is sent. -/
def outputNew (i : Fin cfg.nbrNb) : Except StackFault (IpStack cfg δ) := do
  let s ← s.park i
  let src := s.uipBuf.srcipaddr
  let s := s.uipNd6NsOutput (if s.node.isMyAddr src then some src else none) none (s.nbrCache i).ipaddr
  let s := s.setNbr i fun n =>
    { n with sendns := .set s.clockSeconds (s.retransTimer / 1000), nscount := 1 }
  .ok (s.tcpipOutput none).outputDone

/-- The packet that waits for the neighbour is sent behind another one. -/
def outputParked (i : Fin cfg.nbrNb) : IpStack cfg δ :=
  match (s.nbrCache i).packethandle with
  | none => s
  | some b =>
    if s.uipPacketqueueBuflen i ≠ 0 then
      let s := s.handBack i b
      s.tcpipOutput (some (s.nbrCache i).lladdr)
    else s

/-- The packet is for a neighbour whose link-layer address is known. -/
def outputKnown (i : Fin cfg.nbrNb) : IpStack cfg δ :=
  let s :=
    if (s.nbrCache i).state = .stale then
      s.setNbr i fun n =>
        { n with state := .delay, reachable := .set s.clockSeconds 5, nscount := 0 }
    else s
  let s := s.setNbr i fun n => { n with sendns := .set s.clockSeconds (s.retransTimer / 1000) }
  ((s.tcpipOutput (some (s.nbrCache i).lladdr)).outputParked i).outputDone

/-- The packet is sent to the next hop. -/
def outputTo (nexthop : IpAddr) : Except StackFault (IpStack cfg δ) :=
  match s.uipDs6NbrLookup nexthop with
  | none =>
    match s.uipDs6NbrAdd nexthop none false .incomplete with
    | (none, s) => .ok (s.setLen 0)
    | (some i, s) => s.outputNew i
  | some i =>
    if (s.nbrCache i).state = .incomplete then (s.park i).map (·.setLen 0)
    else .ok (s.outputKnown i)

def tcpipIpv6Output : Except StackFault (IpStack cfg δ) :=
  if s.uipBuf.len = 0 then .ok s
  else if s.uipBuf.len > s.node.linkMtu ∨ s.uipBuf.destipaddr.uipIsAddrUnspecified then
    .ok (s.setLen 0)
  else if s.uipBuf.destipaddr.uipIsAddrMcast then .ok (s.tcpipOutput none).outputDone
  else do
    match ← s.nextHop with
    | none => .ok (s.setLen 0)
    | some (nexthop, s) => s.outputTo nexthop

end IpStack
end Contiki

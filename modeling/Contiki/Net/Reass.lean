import Contiki.Lib.Fallible
import Contiki.Net.Uip6

/-!
# Reassembly of IPv6 fragments

`uip_reass` and the reassembly buffer, on bytes.  Offsets count from the IPv6 header on, and
`HeaderState` is the state of the loop over the headers when it has come to a fragment header.  A write
to `uip_reassbuf` and an access to `uip_reassbitmap` outside of their bounds is an error of the model.

* `Reass.reass` — one call of `uip_reass`.
* `Reass.processFrag` — the case of a fragment header in `uip_process`.
-/

namespace Contiki

namespace HeaderState
variable (s : HeaderState)

def offsetresmore : UInt16 := wordAt s.bytes (s.extBuf + 2)

/-- `UIP_FRAG_BUF->id`. -/
def fragId : List UInt8 := copyBytes s.bytes (s.extBuf + 4) 4

/-- The length of the fragment. -/
def fragLen : UInt16 := s.len - s.extLen.toUInt16 - 40 - 8

/-- The offset of the fragment in bytes. -/
def fragOffset : UInt16 := s.offsetresmore &&& 0xfff8

/-- The More Fragments flag. -/
def more : Bool := s.offsetresmore &&& 1 ≠ 0

end HeaderState

/-- An access outside of an array. -/
inductive ReassFault where
  | bufBounds
  | bitmapBounds
  deriving DecidableEq

/-- The variables of the reassembly. -/
structure Reass where
  on : Bool
  buf : ℕ → UInt8
  bitmap : ℕ → BitVec 8
  reasslen : UInt16
  firstFrag : Bool
  lastFrag : Bool
  errorMsg : Bool
  id : List UInt8
  timer : Bool

namespace Reass

/-! ## The bitmap

Each bit stands for eight bytes of the fragmentable part, the most significant one of a byte first.
The bitmap has `bufsize / 64` bytes. -/

def bitmapBits (k : ℕ) : BitVec 8 :=
  [0xff, 0x7f, 0x3f, 0x1f, 0x0f, 0x07, 0x03, 0x01].getD k 0

/-- Bits are set in a byte of the bitmap. -/
def orByte (size : ℕ) (bitmap : ℕ → BitVec 8) (i : ℕ) (b : BitVec 8) :
    Except ReassFault (ℕ → BitVec 8) :=
  if i < size then .ok (Function.update bitmap i (bitmap i ||| b)) else .error .bitmapBounds

/-- The loop that fills `n` bytes of the bitmap from `i`. -/
def fill (size : ℕ) : ℕ → (ℕ → BitVec 8) → ℕ → Except ReassFault (ℕ → BitVec 8)
  | 0, bitmap, _ => .ok bitmap
  | n + 1, bitmap, i =>
    if i < size then fill size n (Function.update bitmap i 0xff) (i + 1) else .error .bitmapBounds

/-- The bitmap is updated for a fragment. -/
def mark (size : ℕ) (bitmap : ℕ → BitVec 8) (offset len : ℕ) :
    Except ReassFault (ℕ → BitVec 8) :=
  if offset >>> 6 = (offset + len) >>> 6 then
    orByte size bitmap (offset >>> 6)
      (bitmapBits ((offset >>> 3) &&& 7) &&& ~~~bitmapBits (((offset + len) >>> 3) &&& 7))
  else do
    let bitmap ← orByte size bitmap (offset >>> 6) (bitmapBits ((offset >>> 3) &&& 7))
    let bitmap ← fill size ((offset + len) >>> 6 - (1 + offset >>> 6)) bitmap (1 + offset >>> 6)
    orByte size bitmap ((offset + len) >>> 6) (~~~bitmapBits (((offset + len) >>> 3) &&& 7))

/-- The loop that checks `n` bytes of the bitmap from `i`. -/
def allSet (size : ℕ) (bitmap : ℕ → BitVec 8) : ℕ → ℕ → Except ReassFault Bool
  | 0, _ => .ok true
  | n + 1, i =>
    if i < size then
      if bitmap i ≠ 0xff then .ok false else allSet size bitmap n (i + 1)
    else .error .bitmapBounds

/-- All bits up to the length are set. -/
def full (size : ℕ) (bitmap : ℕ → BitVec 8) (reasslen : ℕ) : Except ReassFault Bool := do
  if ← allSet size bitmap (reasslen >>> 6) 0 then
    if reasslen >>> 6 < size then
      .ok (bitmap (reasslen >>> 6) = ~~~bitmapBits ((reasslen >>> 3) &&& 7))
    else .error .bitmapBounds
  else .ok false

/-! ## One fragment -/

section
variable (bufsize : UInt16)

/-- The unfragmentable part is written into the reassembly buffer. -/
def copyHeaders (r : Reass) (s : HeaderState) : Except ReassFault Reass :=
  if s.extBuf ≤ bufsize.toNat then
    .ok { r with buf := memcpy r.buf 0 (copyBytes s.bytes 0 s.extBuf) }
  else .error .bufBounds

/-- The reassembly of a packet begins. -/
def start (r : Reass) (s : HeaderState) : Except ReassFault Reass := do
  let r ← copyHeaders bufsize r s
  .ok { r with
    timer := true
    on := true
    firstFrag := false
    lastFrag := false
    errorMsg := false
    id := s.fragId
    bitmap := fun _ => 0 }

/-- The reassembly of a packet is given up or over. -/
def stop (r : Reass) : Reass := { r with on := false, timer := false }

/-- The packet is complete: it is copied to `uip_buf` with its length. -/
def finish (r : Reass) (s : HeaderState) : Except ReassFault (UInt16 × Reass × HeaderState) :=
  let reasslen := r.reasslen + (40 + s.extLen.toUInt16)
  if reasslen.toNat ≤ bufsize.toNat then
    let bytes := memcpy s.bytes 0 (copyBytes r.buf 0 reasslen.toNat)
    let bytes := memcpy bytes 4 (wordBytes (reasslen - 40))
    .ok (reasslen, { r.stop with reasslen }, { s with bytes })
  else .error .bufBounds

/-- The fragment is copied into the reassembly buffer, and the packet is looked at. -/
def store (r : Reass) (s : HeaderState) (offset len : ℕ) :
    Except ReassFault (UInt16 × Reass × HeaderState) := do
  if s.extBuf + offset + len ≤ bufsize.toNat then
    let bitmap ← mark (bufsize.toNat / 64) r.bitmap offset len
    let r : Reass :=
      { r with
        buf := memcpy r.buf (s.extBuf + offset) (copyBytes s.bytes (s.extBuf + 8) len)
        bitmap }
    if r.lastFrag then
      if ← full (bufsize.toNat / 64) r.bitmap r.reasslen.toNat then finish bufsize r s
      else .ok (0, r, s)
    else .ok (0, r, s)
  else .error .bufBounds

/-- The first fragment: the headers are those of this one, with the next header of the fragment
header. -/
def firstFragment (r : Reass) (s : HeaderState) : Except ReassFault (Reass × HeaderState) := do
  let s : HeaderState := { s with bytes := memcpy s.bytes s.nextHdr [s.bytes s.extBuf] }
  let r ← copyHeaders bufsize { r with firstFrag := true } s
  .ok (r, s)

/-- A fragment of the packet that is being reassembled. -/
def fragment (icmp6ErrorOutput : HeaderState → HeaderState) (r : Reass) (s : HeaderState) :
    Except ReassFault (UInt16 × Reass × HeaderState) := do
  let len := s.fragLen
  let offset := s.fragOffset
  let more := s.more
  let (r, s) ← if offset = 0 then firstFragment bufsize r s else .ok (r, s)
  if offset.toNat > bufsize.toNat ∨ offset.toNat + len.toNat > bufsize.toNat then
    .ok (0, r.stop, s)
  else if more = false then
    store bufsize { r with lastFrag := true, reasslen := offset + len } s offset.toNat len.toNat
  else if len % 8 ≠ 0 then
    -- An ICMPv6 error message about the length takes the place of the fragment.
    let s := icmp6ErrorOutput s
    .ok (s.len, { r.stop with errorMsg := true }, s)
  else
    store bufsize r s offset.toNat len.toNat

/-- `uip_reass`: the length it returns, with the reassembly and `uip_buf` afterwards. -/
def reass (icmp6ErrorOutput : HeaderState → HeaderState) (r : Reass) (s : HeaderState) :
    Except ReassFault (UInt16 × Reass × HeaderState) := do
  let r ← if r.on = false then start bufsize r s else .ok r
  if copyBytes r.buf 8 32 = copyBytes s.bytes 8 32 ∧ s.fragId = r.id then
    fragment bufsize icmp6ErrorOutput r s
  else
    .ok (0, r, s)

/-- What `uip_process` does after a fragment header. -/
inductive FragOutcome where
  | drop
  | send (p : UipBuf)
  | restart (s : HeaderState)

/-- The case of a fragment header in `uip_process`: a packet that is complete is parsed from its
start. -/
def processFrag (icmp6ErrorOutput : HeaderState → HeaderState) (r : Reass) (s : HeaderState) :
    Except ReassFault (FragOutcome × Reass) := do
  let (len, r, s) ← reass bufsize icmp6ErrorOutput r s
  if len = 0 then .ok (.drop, r)
  else if r.errorMsg then .ok (.send { s.toUipBuf with len }, r)
  else
    .ok (.restart { s with len, extLen := 0, bitmap := {}, nextHdr := 6, chainEnd := uipIphLen }, r)

end
end Reass
end Contiki

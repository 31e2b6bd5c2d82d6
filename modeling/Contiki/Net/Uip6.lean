import Contiki.Net.Ds6
import Contiki.Sicslowpan.Hc06

/-!
# Input of IPv6 packets

`uip_process` on a packet that is received, up to the point where its upper-layer header is known:
the checks of the IPv6 header, the chain of extension headers, and the checksum of the upper layer.
`headerStep` is one turn of the loop over the next header fields; it reads the extension header that
begins `uip_ext_len` bytes behind the IPv6 header.

Offsets count from the IPv6 header on.  TCP, UDP and the checks of the configuration are switched
on, reassembly is not.  A loop that does not end has no result.
-/

namespace Contiki

def IpAddr.uipIsAddrLoopback (a : IpAddr) : Bool :=
  (List.range 7).all a.u16Zero && a.u8.getD 14 0 == 0 && a.u8.getD 15 0 == 1

/-! ## The node -/

/-- The tables and the configuration that the input code reads. -/
structure IpNode where
  nAddr : ℕ
  addrList : Fin nAddr → Ds6Addr
  nMaddr : ℕ
  maddrList : Fin nMaddr → Ds6Element
  nPrefix : ℕ
  prefixList : Fin nPrefix → Ds6Prefix
  curHopLimit : UInt8
  /-- `UIP_CONF_ROUTER`. -/
  router : Bool
  /-- `UIP_LINK_MTU`. -/
  linkMtu : UInt16

namespace IpNode
variable (node : IpNode)

def isMyAddr (a : IpAddr) : Bool := uipDs6IsMyAddr node.addrList a

def isMyMaddr (a : IpAddr) : Bool :=
  match uipDs6ListLoop node.maddrList a 128 with
  | .found _ => true
  | _ => false

def isAddrOnlink (a : IpAddr) : Bool := uipDs6IsAddrOnlink node.prefixList a

end IpNode

/-- `uip_buf` from the IPv6 header on, and `uip_len`. -/
structure UipBuf where
  bytes : ℕ → UInt8
  len : UInt16

structure ExtBitmap where
  hbho : Bool := false
  desto1 : Bool := false
  desto2 : Bool := false
  routing : Bool := false

/-- The state of the loop over the next header fields: `nextHdr` is the place of `*uip_next_hdr`.
`chainEnd` is where the last header ends, in unbounded arithmetic; the code does not know it. -/
structure HeaderState extends UipBuf where
  nextHdr : ℕ
  extLen : UInt8
  bitmap : ExtBitmap
  chainEnd : ℕ

/-- What becomes of a packet. -/
inductive Verdict
  | drop
  /-- The packet is sent on. -/
  | send (p : UipBuf)
  /-- `uip_icmp6_error_output`. -/
  | error (type code : UInt8) (param : ℕ) (p : UipBuf)
  | tcpInput (s : HeaderState)
  | udpInput (s : HeaderState)
  | icmp6Input (s : HeaderState)
  /-- A loop does not end. -/
  | hang

namespace UipBuf
variable (p : UipBuf)

/-- The length in the IPv6 header. -/
def payloadLen : UInt16 := wordAt p.bytes 4

def srcipaddr : IpAddr := .ofBytes (copyBytes p.bytes 8 16)

def destipaddr : IpAddr := .ofBytes (copyBytes p.bytes 24 16)

/-- `UIP_IP_BUF->ttl--`. -/
def decTtl : UipBuf := { p with bytes := memcpy p.bytes 7 [p.bytes 7 - 1] }

/-- The bytes of the extension header at `base`, `(UIP_EXT_BUF->len << 3) + 8`. -/
def extHdrLen (base : ℕ) : ℕ := (p.bytes (base + 1)).toNat * 8 + 8

end UipBuf

/-! ## Checksums -/

/-- A word is added with its carry. -/
def addCarry (sum t : UInt16) : UInt16 := if sum + t < t then sum + t + 1 else sum + t

/-- `chksum`, on `len` bytes from an offset on. -/
def chksum (bytes : ℕ → UInt8) : UInt16 → ℕ → ℕ → UInt16
  | sum, _, 0 => sum
  | sum, pos, 1 => addCarry sum ((bytes pos).toUInt16 <<< 8)
  | sum, pos, len + 2 => chksum bytes (addCarry sum (wordAt bytes pos)) (pos + 2) len

namespace UipBuf
variable (p : UipBuf)

/-- The length of the upper-layer packet at `base`. -/
def upperLayerLen (base : ℕ) : UInt16 := p.payloadLen - UInt16.ofNat (base - uipIphLen)

/-- `upper_layer_chksum`, as the number that the two bytes stand for. -/
def upperLayerChksum (base : ℕ) (proto : UInt8) : UInt16 :=
  let len := p.upperLayerLen base
  let sum := chksum p.bytes (len + proto.toUInt16) 8 32
  let sum := chksum p.bytes sum base len.toNat
  if sum = 0 then 0xffff else sum

end UipBuf

/-! ## Options -/

/-- The results of `ext_hdr_options_process`. -/
inductive OptionsResult
  | proceed
  | discard
  | error (param : ℕ)

/-- What one option leads to: the offset of the next one, or the end. -/
inductive OptionStep
  | next (offset : UInt8)
  | done (res : OptionsResult)

namespace UipBuf
variable (p : UipBuf)

/-- The loop body of `ext_hdr_options_process`, at the offset of an option in the header at
`base`. -/
def optionStep (base : ℕ) (offset : UInt8) : OptionStep :=
  let type := p.bytes (base + offset.toNat)
  let len := p.bytes (base + offset.toNat + 1)
  if type = 0 then .next (offset + 1)
  else if type = 1 then .next (offset + len + 2)
  else if type &&& 0xC0 = 0 then .next (offset + len + 2)
  else if type &&& 0xC0 = 0x40 then .done .discard
  else if type &&& 0xC0 = 0xC0 ∧ p.destipaddr.uipIsAddrMcast then .done .discard
  else .done (.error (base + offset.toNat))

/-- The loop of `ext_hdr_options_process` over the options.  The offset is a byte, so that a loop of
more than 256 turns does not end. -/
def optionsFrom (base : ℕ) : ℕ → UInt8 → Option OptionsResult
  | 0, _ => none
  | fuel + 1, offset =>
    if offset.toNat < p.extHdrLen base then
      match p.optionStep base offset with
      | .next offset => optionsFrom base fuel offset
      | .done res => some res
    else some .proceed

def extHdrOptionsProcess (base : ℕ) : Option OptionsResult := p.optionsFrom base 257 2

/-- The offsets of the options at which the loop arrives. -/
def optionOffsets (base : ℕ) : ℕ → UInt8 → List UInt8
  | 0, _ => []
  | fuel + 1, offset =>
    if offset.toNat < p.extHdrLen base then
      offset ::
        match p.optionStep base offset with
        | .next offset => optionOffsets base fuel offset
        | .done _ => []
    else []

/-- The bytes that are read of an option: its length is read unless it is Pad1 or not accepted. -/
def optionOctets (base : ℕ) (offset : UInt8) : ℕ :=
  let type := p.bytes (base + offset.toNat)
  if type = 0 ∨ type &&& 0xC0 ≠ 0 then 1 else 2

/-! ## Routing headers -/

/-- `UIP_ROUTING_BUF->cmpr >> 4`. -/
def cmprI (base : ℕ) : ℕ := (p.bytes (base + 4) >>> 4).toNat

/-- `UIP_ROUTING_BUF->cmpr & 0x0f`. -/
def cmprE (base : ℕ) : ℕ := (p.bytes (base + 4) &&& 0x0f).toNat

lemma cmprE_lt (base : ℕ) : p.cmprE base < 16 := by
  unfold cmprE
  rw [UInt8.toNat_and]
  exact Nat.and_lt_two_pow _ (by decide : 15 < 2 ^ 4)

/-- The number of addresses in the routing header, in `int` arithmetic and as a byte. -/
def routingCount (base : ℕ) : UInt8 :=
  UInt8.ofInt (Int.tdiv ((p.bytes (base + 1)).toNat * 8 - (p.bytes (base + 5) >>> 4).toNat - 16 +
    p.cmprE base) (16 - p.cmprI base) + 1)

/-- The compression of the address with the index `ii`. -/
def routingCmpr (base : ℕ) (n ii : UInt8) : ℕ := if ii = n then p.cmprE base else p.cmprI base

/-- The place of the address with the index `ii`, which counts from 1. -/
def routingAddrPos (base : ℕ) (ii : UInt8) : ℕ :=
  base + 8 + ii.toNat * (16 - p.cmprI base) - (16 - p.cmprI base)

/-- The address with the index `ii`, decompressed. -/
def routingAddr (base : ℕ) (n ii : UInt8) : IpAddr :=
  p.destipaddr.decompress (p.routingCmpr base n ii)
    (copyBytes p.bytes (p.routingAddrPos base ii) (16 - p.routingCmpr base n ii))

/-- Whether two addresses of the node are separated by an address of another one.  The index is a
byte, so that it never exceeds 255 addresses. -/
def routingLoop (isMyAddr : IpAddr → Bool) (base : ℕ) (n : UInt8) :
    ℕ → UInt8 → UInt8 → Option Bool
  | 0, _, _ => none
  | fuel + 1, ii, il =>
    if ii ≤ n then
      if isMyAddr (p.routingAddr base n ii) then
        if il > 0 ∧ ii.toNat > il.toNat + 1 then some true
        else routingLoop isMyAddr base n fuel (ii + 1) ii
      else routingLoop isMyAddr base n fuel (ii + 1) il
    else some false

/-- The destination and the address with the index `i` change places. -/
def routingSwap (base : ℕ) (n i : UInt8) : UipBuf :=
  let cmpr := p.routingCmpr base n i
  let addr := p.routingAddr base n i
  { p with
    bytes := memcpy (memcpy p.bytes 24 addr.u8) (p.routingAddrPos base i)
      (p.destipaddr.u8.drop cmpr) }

end UipBuf

/-! ## The IPv6 header -/

/-- A packet for another destination, on a router. -/
def uipForward (node : IpNode) (p : UipBuf) : Verdict :=
  let src := p.srcipaddr
  let dest := p.destipaddr
  if !dest.uipIsAddrMcast && !dest.uipIsAddrLinkLocal && !src.uipIsAddrLinkLocal &&
      !src.uipIsAddrUnspecified && !dest.uipIsAddrLoopback then
    if p.len > node.linkMtu then .error 2 0 node.linkMtu.toNat p
    else if p.bytes 7 ≤ 1 then .error 3 0 0 p
    else .send p.decTtl
  else if src.uipIsAddrLinkLocal && !src.uipIsAddrUnspecified && !dest.uipIsAddrLoopback &&
      !dest.uipIsAddrMcast && !node.isAddrOnlink dest then .error 1 2 0 p
  else .drop

/-- The checks of the IPv6 header, before the loop over the next header fields. -/
def ipInput (node : IpNode) (p : UipBuf) : Except Verdict HeaderState :=
  if p.bytes 0 &&& 0xf0 ≠ 0x60 then .error .drop
  else if p.payloadLen ≤ p.len then
    let p := { p with len := p.payloadLen + 40 }
    let dest := p.destipaddr
    if p.srcipaddr.uipIsAddrMcast then .error .drop
    else if node.isMyAddr dest || node.isMyMaddr dest || !node.router && dest.uipIsAddrMcast then
      .ok { toUipBuf := p, nextHdr := 6, extLen := 0, bitmap := {}, chainEnd := uipIphLen }
    else if node.router then .error (uipForward node p)
    else .error .drop
  else .error .drop

/-! ## The loop over the headers -/

namespace HeaderState
variable (node : IpNode) (s : HeaderState)

/-- The header at `base` is left behind. -/
def skipHeader (base : ℕ) (bitmap : ExtBitmap) : HeaderState :=
  { s with
    nextHdr := base
    extLen := s.extLen + ((s.bytes (base + 1) <<< 3) + 8)
    bitmap
    chainEnd := s.chainEnd + s.extHdrLen base }

/-- A hop-by-hop or destination options header at `base`. -/
def optionsHeader (base : ℕ) (bitmap : ExtBitmap) : Except Verdict HeaderState :=
  match s.extHdrOptionsProcess base with
  | none => .error .hang
  | some .proceed => .ok (s.skipHeader base bitmap)
  | some .discard => .error .drop
  | some (.error param) => .error (.error 4 2 param s.toUipBuf)

/-- A type 4 routing header at `base` with segments left. -/
def sourceRoute (base : ℕ) : Except Verdict HeaderState :=
  let n := s.routingCount base
  let segLeft := s.bytes (base + 3)
  if segLeft > n then .error (.error 4 0 (base + 3) s.toUipBuf)
  else
    let p : UipBuf := { s.toUipBuf with bytes := memcpy s.bytes (base + 3) [segLeft - 1] }
    let i := n - (segLeft - 1)
    let addr := p.routingAddr base n i
    if addr.uipIsAddrMcast || p.destipaddr.uipIsAddrMcast then .error .drop
    else
      match p.routingLoop node.isMyAddr base n 512 1 0 with
      | none => .error .hang
      | some true => .error .drop
      | some false =>
        if i < n && !node.isAddrOnlink addr then .error (.error 1 7 0 p)
        else if p.bytes 7 ≤ 1 then .error (.error 3 0 0 p)
        else
          let p := p.decTtl.routingSwap base n i
          if node.isMyAddr p.destipaddr then ipInput node p else .error (.send p)

/-- A routing header at `base`. -/
def routingHeader (base : ℕ) : Except Verdict HeaderState :=
  if s.bytes (base + 3) = 0 then .ok (s.skipHeader base { s.bitmap with routing := true })
  else if s.bytes (base + 2) = 4 then s.sourceRoute node base
  else .error (.error 4 0 (base + 2) s.toUipBuf)

/-- A header that is not expected here. -/
def badHdr : Verdict := .error 4 1 s.nextHdr s.toUipBuf

/-- One turn of the loop over the next header fields, with the header at `base`. -/
def stepAt (base : ℕ) : Except Verdict HeaderState :=
  let proto := s.bytes s.nextHdr
  if proto = 6 then
    .error (if s.upperLayerChksum base proto = 0xffff then .tcpInput s else .drop)
  else if proto = 17 then
    .error (if wordAt s.bytes (base + 6) ≠ 0 ∧ s.upperLayerChksum base proto ≠ 0xffff then .drop
      else .udpInput s)
  else if proto = 58 then
    .error (if s.upperLayerChksum base proto = 0xffff then .icmp6Input s else .drop)
  else if proto = 0 then
    if s.bitmap.hbho then .error s.badHdr
    else s.optionsHeader base { s.bitmap with hbho := true }
  else if proto = 60 then
    if s.bitmap.desto1 then
      if s.bitmap.desto2 then .error s.badHdr
      else s.optionsHeader base { s.bitmap with desto2 := true }
    else s.optionsHeader base { s.bitmap with desto1 := true }
  else if proto = 43 then
    if s.bitmap.routing then .error s.badHdr else s.routingHeader node base
  else if proto = 44 ∨ proto = 59 then .error .drop
  else .error s.badHdr

def extBuf : ℕ := uipIphLen + s.extLen.toNat

/-- One turn of the loop of `uip_process` over the next header fields. -/
def headerStep : Except Verdict HeaderState := s.stepAt node s.extBuf

end HeaderState

end Contiki

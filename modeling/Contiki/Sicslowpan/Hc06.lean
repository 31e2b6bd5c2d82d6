import Contiki.Lib.Buffer
import Contiki.Net.Ip

/-!
# HC06 header compression

`compress_hdr_hc06` and `uncompress_hdr_hc06` of `sicslowpan`.  The compressor writes a list of
bytes: the two encoding bytes, the byte with the context numbers if there is one, and the inline
fields.  The decompressor reads them from a buffer and moves on by what it has read.

Words in the headers are in network order; a `UInt16` here is the number that the two bytes stand
for.  Without an additional compressor, UDP is the only next header that is compressed.
-/

namespace Contiki

structure IpHdr where
  vtc : UInt8
  tcflow : UInt8
  flow : UInt16
  len : UInt16
  proto : UInt8
  ttl : UInt8
  srcipaddr : IpAddr
  destipaddr : IpAddr
deriving DecidableEq

structure UdpHdr where
  srcport : UInt16
  destport : UInt16
  udplen : UInt16
  udpchksum : UInt16
deriving DecidableEq

def uipIphLen : ℕ := 40

def uipUdphLen : ℕ := 8

def uipProtoUdp : UInt8 := 17

/-- The two bytes of a word, in network order. -/
def wordBytes (v : UInt16) : List UInt8 := [(v >>> 8).toUInt8, v.toUInt8]

/-- The word at an offset of a buffer. -/
def wordAt (buffer : ℕ → UInt8) (pos : ℕ) : UInt16 :=
  (buffer pos).toUInt16 <<< 8 ||| (buffer (pos + 1)).toUInt16

/-- The bytes from an offset of a buffer on. -/
def copyBytes (buffer : ℕ → UInt8) (pos len : ℕ) : List UInt8 :=
  (List.range len).map fun i => buffer (pos + i)

/-! ## Bytes of a buffer -/

lemma length_copyBytes (b : ℕ → UInt8) (pos len : ℕ) : (copyBytes b pos len).length = len := by
  rw [copyBytes, List.length_map, List.length_range]

lemma holds_copyBytes (b : ℕ → UInt8) (pos len : ℕ) : Holds b pos (copyBytes b pos len) :=
  holds_of_get fun k hk => by
    rw [length_copyBytes] at hk
    simp [copyBytes]

lemma copyBytes_add (b : ℕ → UInt8) (pos m n : ℕ) :
    copyBytes b pos (m + n) = copyBytes b pos m ++ copyBytes b (pos + m) n := by
  simp [copyBytes, List.range_add, Nat.add_assoc]

lemma copyBytes_congr {b b' : ℕ → UInt8} {pos pos' len : ℕ}
    (h : ∀ k < len, b' (pos' + k) = b (pos + k)) : copyBytes b' pos' len = copyBytes b pos len := by
  unfold copyBytes
  apply List.map_congr_left
  intro k hk
  exact h k (List.mem_range.mp hk)

/-- Reading as many bytes as a message has gives the message. -/
lemma Holds.copyBytes {b : ℕ → UInt8} {pos : ℕ} {l : List UInt8} (h : Holds b pos l) :
    copyBytes b pos l.length = l := h.map_range

lemma copyBytes_getD {l : List UInt8} {pos n : ℕ} (h : pos + n ≤ l.length) :
    copyBytes (fun k => l.getD k 0) pos n = (l.drop pos).take n := by
  apply List.ext_getElem
  · rw [length_copyBytes, List.length_take, List.length_drop]
    omega
  · intro k hk hk'
    rw [length_copyBytes] at hk
    rw [List.getElem_take, List.getElem_drop]
    simp only [copyBytes, List.getElem_map, List.getElem_range]
    exact List.getD_eq_getElem _ _ (by omega)

lemma copyBytes_memcpy (b : ℕ → UInt8) (pos : ℕ) {n : ℕ} {l : List UInt8} (hn : l.length = n) :
    copyBytes (memcpy b pos l) pos n = l := by
  subst hn
  exact (holds_memcpy b pos l).copyBytes

lemma memcpy_copyBytes (b b' : ℕ → UInt8) (pos pos' : ℕ) {len k : ℕ} (hk : k < len) :
    memcpy b pos (copyBytes b' pos' len) (pos + k) = b' (pos' + k) := by
  rw [(holds_memcpy b pos _).get k (by rwa [length_copyBytes])]
  simp [copyBytes]

namespace IpAddr

/-- `a->u16[k] == 0`. -/
def u16Zero (a : IpAddr) (k : ℕ) : Bool := a.u8.getD (2 * k) 0 == 0 && a.u8.getD (2 * k + 1) 0 == 0

def uipIsAddrUnspecified (a : IpAddr) : Bool := (List.range 8).all a.u16Zero

def uipIsAddrMacAddrBased (a : IpAddr) (m : Lladdr) : Bool :=
  a.u8.drop 8 == (m.u8.getD 0 0 ^^^ 0x02) :: m.u8.drop 1

def isIid16BitCompressable (a : IpAddr) : Bool :=
  a.u16Zero 4 && a.u8.getD 10 0 == 0 && a.u8.getD 11 0 == 0xff && a.u8.getD 12 0 == 0xfe &&
    a.u8.getD 13 0 == 0

def isMcastAddrCompressable48 (a : IpAddr) : Bool :=
  a.u16Zero 1 && a.u16Zero 2 && a.u16Zero 3 && a.u16Zero 4 && a.u8.getD 10 0 == 0

def isMcastAddrCompressable32 (a : IpAddr) : Bool :=
  a.u16Zero 1 && a.u16Zero 2 && a.u16Zero 3 && a.u16Zero 4 && a.u16Zero 5 && a.u8.getD 12 0 == 0

def isMcastAddrCompressable8 (a : IpAddr) : Bool :=
  a.u8.getD 1 0 == 2 && a.u16Zero 1 && a.u16Zero 2 && a.u16Zero 3 && a.u16Zero 4 && a.u16Zero 5 &&
    a.u16Zero 6 && a.u8.getD 14 0 == 0

end IpAddr

namespace Sicslowpan

/-! ## Address contexts -/

structure AddrContext where
  used : Bool
  number : UInt8
  ctxPrefix : List UInt8
  length_ctxPrefix : ctxPrefix.length = 8

def addrContextLookupByPrefix (contexts : List AddrContext) (ipaddr : IpAddr) :
    Option AddrContext :=
  contexts.find? fun c => c.used && c.ctxPrefix == ipaddr.u8.take 8

def addrContextLookupByNumber (contexts : List AddrContext) (number : UInt8) :
    Option AddrContext :=
  contexts.find? fun c => c.used && c.number == number

/-! ## Frames -/

def macMaxPayload : ℕ := 102

def frag1HdrLen : ℕ := 4

/-! ## Encoding bits -/

def dispatchIphc : UInt8 := 0x60

def iphcFlC : UInt8 := 0x10

def iphcTcC : UInt8 := 0x08

def iphcNhC : UInt8 := 0x04

def iphcCid : UInt8 := 0x80

def iphcSac : UInt8 := 0x40

def iphcSam11 : UInt8 := 0x30

def iphcSamBit : UInt8 := 4

def iphcM : UInt8 := 0x08

def iphcDac : UInt8 := 0x04

def iphcDam11 : UInt8 := 0x03

def iphcDamBit : UInt8 := 0

/-- `SICSLOWPAN_NHC_UDP_CS_P_00` and the other three ways to carry the ports. -/
def nhcUdpCsP (ports : UInt8) : UInt8 := 0xF0 ||| ports

def udp4BitPortMin : UInt16 := 0xF0B0

def udp8BitPortMin : UInt16 := 0xF000

/-! ## Compression -/

/-- `compress_addr_64`: the mode, moved to its place, and the bytes that are written. -/
def compressAddr64 (bitpos : UInt8) (ipaddr : IpAddr) (lladdr : Lladdr) : UInt8 × List UInt8 :=
  if ipaddr.uipIsAddrMacAddrBased lladdr then (3 <<< bitpos, [])
  else if ipaddr.isIid16BitCompressable then (2 <<< bitpos, ipaddr.u8.drop 14)
  else (1 <<< bitpos, ipaddr.u8.drop 8)

section Compress
variable (contexts : List AddrContext) (uipLladdr rimeDestaddr : Lladdr) (ip : IpHdr)

/-- The byte with the context numbers is present. -/
def contextByte : Bool :=
  (addrContextLookupByPrefix contexts ip.destipaddr).isSome ||
    (addrContextLookupByPrefix contexts ip.srcipaddr).isSome

/-- The traffic class, in the order of HC06: ECN before DSCP. -/
def trafficClass : UInt8 :=
  let tmp := (ip.vtc <<< 4) ||| (ip.tcflow >>> 4)
  ((tmp &&& 0x03) <<< 6) ||| (tmp >>> 2)

/-- Traffic class and flow label: the bits of the first encoding byte and the inline bytes. -/
def compressTf : UInt8 × List UInt8 :=
  let noTc := ip.vtc &&& 0x0F == 0 && ip.tcflow &&& 0xF0 == 0
  if ip.tcflow &&& 0x0F == 0 && ip.flow == 0 then
    if noTc then (iphcFlC ||| iphcTcC, []) else (iphcFlC, [trafficClass ip])
  else if noTc then
    (iphcTcC, ((trafficClass ip &&& 0xc0) ||| (ip.tcflow &&& 0x0F)) :: wordBytes ip.flow)
  else (0, trafficClass ip :: ip.tcflow :: wordBytes ip.flow)

/-- The next header. -/
def compressNh : UInt8 × List UInt8 :=
  if ip.proto = uipProtoUdp then (iphcNhC, []) else (0, [ip.proto])

/-- The hop limit. -/
def compressTtl : UInt8 × List UInt8 :=
  if ip.ttl = 1 then (1, [])
  else if ip.ttl = 64 then (2, [])
  else if ip.ttl = 255 then (3, [])
  else (0, [ip.ttl])

/-- The context of the source address, where it is used. -/
def srcContext : Option AddrContext :=
  if ip.srcipaddr.uipIsAddrUnspecified then none
  else addrContextLookupByPrefix contexts ip.srcipaddr

/-- The context of the destination address, where it is used. -/
def dstContext : Option AddrContext :=
  if ip.destipaddr.uipIsAddrMcast then none
  else addrContextLookupByPrefix contexts ip.destipaddr

/-- The source address: the bits of the second encoding byte and the inline bytes.  The prefix of
a link-local address is left out when words 1 to 3 of the *destination* are zero. -/
def compressSrc : UInt8 × List UInt8 :=
  if ip.srcipaddr.uipIsAddrUnspecified then (iphcSac, [])
  else
    match addrContextLookupByPrefix contexts ip.srcipaddr with
    | some _ =>
      let sam := compressAddr64 iphcSamBit ip.srcipaddr uipLladdr
      (iphcSac ||| sam.1, sam.2)
    | none =>
      if ip.srcipaddr.uipIsAddrLinkLocal && ip.destipaddr.u16Zero 1 && ip.destipaddr.u16Zero 2 &&
          ip.destipaddr.u16Zero 3 then
        compressAddr64 iphcSamBit ip.srcipaddr uipLladdr
      else (0, ip.srcipaddr.u8)

/-- The destination address. -/
def compressDst : UInt8 × List UInt8 :=
  let a := ip.destipaddr
  if a.uipIsAddrMcast then
    if a.isMcastAddrCompressable8 then (iphcM ||| 3, a.u8.drop 15)
    else if a.isMcastAddrCompressable32 then (iphcM ||| 2, a.u8.getD 1 0 :: a.u8.drop 13)
    else if a.isMcastAddrCompressable48 then (iphcM ||| 1, a.u8.getD 1 0 :: a.u8.drop 11)
    else (iphcM, a.u8)
  else
    match addrContextLookupByPrefix contexts a with
    | some _ =>
      let dam := compressAddr64 iphcDamBit a rimeDestaddr
      (iphcDac ||| dam.1, dam.2)
    | none =>
      if a.uipIsAddrLinkLocal && a.u16Zero 1 && a.u16Zero 2 && a.u16Zero 3 then
        compressAddr64 iphcDamBit a rimeDestaddr
      else (0, a.u8)

/-- The byte with the context numbers. -/
def contextNumbers : UInt8 :=
  let sci := match srcContext contexts ip with
    | none => 0
    | some c => c.number <<< 4
  match dstContext contexts ip with
  | none => sci
  | some c => sci ||| c.number

/-- The UDP header. -/
def compressUdp (udp : UdpHdr) : List UInt8 :=
  let ports :=
    if udp.srcport &&& 0xfff0 = udp4BitPortMin ∧ udp.destport &&& 0xfff0 = udp4BitPortMin then
      [nhcUdpCsP 3, ((udp.srcport - udp4BitPortMin) <<< 4).toUInt8 +
        (udp.destport - udp4BitPortMin).toUInt8]
    else if udp.destport &&& 0xff00 = udp8BitPortMin then
      nhcUdpCsP 1 :: wordBytes udp.srcport ++ [(udp.destport - udp8BitPortMin).toUInt8]
    else if udp.srcport &&& 0xff00 = udp8BitPortMin then
      nhcUdpCsP 2 :: (udp.srcport - udp8BitPortMin).toUInt8 :: wordBytes udp.destport
    else nhcUdpCsP 0 :: wordBytes udp.srcport ++ wordBytes udp.destport
  ports ++ wordBytes udp.udpchksum

/-- `compress_hdr_hc06`: the compressed headers. -/
def compressHdrHc06 (udp : UdpHdr) : List UInt8 :=
  let tf := compressTf ip
  let nh := compressNh ip
  let ttl := compressTtl ip
  let src := compressSrc contexts uipLladdr ip
  let dst := compressDst contexts rimeDestaddr ip
  let cid := contextByte contexts ip
  [dispatchIphc ||| tf.1 ||| nh.1 ||| ttl.1, (if cid then iphcCid else 0) ||| src.1 ||| dst.1] ++
    (if cid then [contextNumbers contexts ip] else []) ++ tf.2 ++ nh.2 ++ ttl.2 ++ src.2 ++ dst.2 ++
    (if ip.proto = uipProtoUdp then compressUdp udp else [])

/-- `uncomp_hdr_len`: the length of the headers that were compressed. -/
def uncompHdrLen : ℕ := if ip.proto = uipProtoUdp then uipIphLen + uipUdphLen else uipIphLen

end Compress

/-! ## Decompression -/

def uncLlconf : List UInt8 := [0x0f, 0x28, 0x22, 0x20]

def uncCtxconf : List UInt8 := [0x00, 0x88, 0x82, 0x80]

def uncMxconf : List UInt8 := [0x0f, 0x25, 0x23, 0x21]

def llPrefix : List UInt8 := [0xfe, 0x80]

def ttlValues : List UInt8 := [0, 1, 64, 255]

/-- A nibble that counts bytes; 15 stands for 16. -/
def nibbleCount (n : UInt8) : ℕ := if n = 15 then 16 else n.toNat

/-- `uncompress_addr`: the address and the place behind what was read.  Where the link-layer
address is missing, the tables ask for no identifier that is made of it. -/
def uncompressAddr (buffer : ℕ → UInt8) (pfx : List UInt8) (prefPostCount : UInt8)
    (lladdr : Option Lladdr) (ptr : ℕ) : IpAddr × ℕ :=
  let prefcount := nibbleCount (prefPostCount >>> 4)
  let postcount := nibbleCount (prefPostCount &&& 0x0f)
  let zeros := List.replicate (16 - (prefcount + postcount)) (0 : UInt8)
  let bytes := pfx.take prefcount ++ zeros ++ copyBytes buffer ptr postcount
  if postcount > 0 then
    -- sixteen bits stand for 0000:00ff:fe00:XXXX
    if postcount = 2 ∧ prefcount < 11 then
      (.ofBytes ((bytes.set 11 0xff).set 12 0xfe), ptr + postcount)
    else (.ofBytes bytes, ptr + postcount)
  else if prefcount > 0 then
    match lladdr with
    | none => (.ofBytes bytes, ptr)
    | some lladdr => ((IpAddr.ofBytes bytes).uipDs6SetAddrIid lladdr, ptr)
  else (.ofBytes bytes, ptr)

section Uncompress
variable (contexts : List AddrContext) (buffer : ℕ → UInt8) (sender receiver : Lladdr)

/-- Traffic class and flow label: `vtc`, `tcflow` and `flow`. -/
def uncompressTf (iphc0 : UInt8) (ptr : ℕ) : (UInt8 × UInt8 × UInt16) × ℕ :=
  let tmp := buffer ptr
  -- the bits of the traffic class at their places in the two bytes of the header
  let high := (tmp >>> 2) &&& (0x0f : UInt8)
  let ecn := (tmp >>> 2) &&& (0x30 : UInt8)
  if iphc0 &&& iphcFlC = 0 then
    if iphc0 &&& iphcTcC = 0 then
      ((0x60 ||| high, ecn ||| (tmp <<< 6) ||| (buffer (ptr + 1) &&& 0x0f),
        wordAt buffer (ptr + 2)), ptr + 4)
    else ((0x60, (tmp &&& 0x0F) ||| ecn, wordAt buffer (ptr + 1)), ptr + 3)
  else if iphc0 &&& iphcTcC = 0 then
    ((0x60 ||| high, ((tmp <<< 6) &&& (0xC0 : UInt8)) ||| ecn, 0), ptr + 1)
  else ((0x60, 0, 0), ptr)

/-- The next header, unless it is compressed. -/
def uncompressNh (iphc0 old : UInt8) (ptr : ℕ) : UInt8 × ℕ :=
  if iphc0 &&& iphcNhC = 0 then (buffer ptr, ptr + 1) else (old, ptr)

/-- The hop limit. -/
def uncompressTtl (iphc0 : UInt8) (ptr : ℕ) : UInt8 × ℕ :=
  if iphc0 &&& 0x03 ≠ 0 then (ttlValues.getD (iphc0 &&& 0x03).toNat 0, ptr)
  else (buffer ptr, ptr + 1)

/-- The source address; no result when its context is not known. -/
def uncompressSrc (iphc1 ctx : UInt8) (ptr : ℕ) : Option (IpAddr × ℕ) :=
  let tmp := ((iphc1 &&& iphcSam11) >>> iphcSamBit) &&& 0x03
  if iphc1 &&& iphcSac ≠ 0 then
    let sci := if iphc1 &&& iphcCid ≠ 0 then ctx >>> 4 else 0
    if tmp = 0 then
      some (uncompressAddr buffer [] (uncCtxconf.getD tmp.toNat 0) (some sender) ptr)
    else
      match addrContextLookupByNumber contexts sci with
      | none => none
      | some c =>
        some (uncompressAddr buffer c.ctxPrefix (uncCtxconf.getD tmp.toNat 0) (some sender) ptr)
  else some (uncompressAddr buffer llPrefix (uncLlconf.getD tmp.toNat 0) (some sender) ptr)

/-- The destination address; no result when its context is not known.  Multicast addresses with
a context are not implemented: the old address stays. -/
def uncompressDst (iphc1 ctx : UInt8) (old : IpAddr) (ptr : ℕ) : Option (IpAddr × ℕ) :=
  let tmp := ((iphc1 &&& iphcDam11) >>> iphcDamBit) &&& 0x03
  if iphc1 &&& iphcM ≠ 0 then
    if iphc1 &&& iphcDac ≠ 0 then some (old, ptr)
    else if tmp > 0 ∧ tmp < 3 then
      some (uncompressAddr buffer [0xff, buffer ptr] (uncMxconf.getD tmp.toNat 0) none (ptr + 1))
    else some (uncompressAddr buffer [0xff, 0x02] (uncMxconf.getD tmp.toNat 0) none ptr)
  else if iphc1 &&& iphcDac ≠ 0 then
    let dci := if iphc1 &&& iphcCid ≠ 0 then ctx &&& 0x0f else 0
    match addrContextLookupByNumber contexts dci with
    | none => none
    | some c =>
      some (uncompressAddr buffer c.ctxPrefix (uncCtxconf.getD tmp.toNat 0) (some receiver) ptr)
  else some (uncompressAddr buffer llPrefix (uncLlconf.getD tmp.toNat 0) (some receiver) ptr)

/-- The ports and the checksum of a compressed UDP header; `udplen` is left as it is. -/
def uncompressUdp (old : UdpHdr) (ptr : ℕ) : UdpHdr × ℕ :=
  let nhc := buffer ptr
  let (srcport, destport, ptr) :=
    if nhc &&& 0xF3 = nhcUdpCsP 0 then (wordAt buffer (ptr + 1), wordAt buffer (ptr + 3), ptr + 5)
    else if nhc &&& 0xF3 = nhcUdpCsP 1 then
      (wordAt buffer (ptr + 1), udp8BitPortMin + (buffer (ptr + 3)).toUInt16, ptr + 4)
    else if nhc &&& 0xF3 = nhcUdpCsP 2 then
      (udp8BitPortMin + (buffer (ptr + 1)).toUInt16, wordAt buffer (ptr + 2), ptr + 4)
    else
      (udp4BitPortMin + (buffer (ptr + 1) >>> 4).toUInt16,
        udp4BitPortMin + (buffer (ptr + 1) &&& 0x0F).toUInt16, ptr + 2)
  if nhc &&& 0x04 = 0 then
    (⟨srcport, destport, old.udplen, wordAt buffer ptr⟩, ptr + 2)
  else (⟨srcport, destport, old.udplen, old.udpchksum⟩, ptr)

/-- What `uncompress_hdr_hc06` leaves behind: the headers in `sicslowpan_buf` and the lengths
`rime_hdr_len` and `uncomp_hdr_len`. -/
structure Uncompressed where
  ip : IpHdr
  udp : UdpHdr
  rimeHdrLen : ℕ
  uncompHdrLen : ℕ

/-- The length fields at the end of `uncompress_hdr_hc06`.  The length of a packet in one frame
is a byte. -/
def finishLengths (ipLen : UInt16) (datalen : ℕ) (r : Uncompressed) : Uncompressed :=
  let len :=
    if ipLen = 0 then
      (UInt8.ofNat datalen - UInt8.ofNat r.rimeHdrLen + UInt8.ofNat r.uncompHdrLen -
        UInt8.ofNat uipIphLen).toUInt16
    else ipLen - UInt16.ofNat uipIphLen
  { r with
    ip := { r.ip with len }
    udp := if r.ip.proto = uipProtoUdp then { r.udp with udplen := len } else r.udp }

/-- `uncompress_hdr_hc06`: `rime_hdr_len` is where the compressed headers begin, `ipLen` the size
that a first fragment announces, or zero, and `old` what the buffer held before.  When a context
is not known the function returns early. -/
def uncompressHdrHc06 (rimeHdrLen : ℕ) (ipLen : UInt16) (datalen : ℕ) (old : IpHdr × UdpHdr) :
    Uncompressed :=
  let iphc0 := buffer rimeHdrLen
  let iphc1 := buffer (rimeHdrLen + 1)
  let ctx := buffer (rimeHdrLen + 2)
  let ptr := if iphc1 &&& iphcCid ≠ 0 then rimeHdrLen + 3 else rimeHdrLen + 2
  let ((vtc, tcflow, flow), ptr) := uncompressTf buffer iphc0 ptr
  let (proto, ptr) := uncompressNh buffer iphc0 old.1.proto ptr
  let (ttl, ptr) := uncompressTtl buffer iphc0 ptr
  let ip := { old.1 with vtc, tcflow, flow, proto, ttl }
  match uncompressSrc contexts buffer sender iphc1 ctx ptr with
  | none => ⟨ip, old.2, rimeHdrLen, 0⟩
  | some (srcipaddr, ptr) =>
    let ip := { ip with srcipaddr }
    match uncompressDst contexts buffer receiver iphc1 ctx old.1.destipaddr ptr with
    | none => ⟨ip, old.2, rimeHdrLen, 0⟩
    | some (destipaddr, ptr) =>
      let ip := { ip with destipaddr }
      finishLengths ipLen datalen
        (if iphc0 &&& iphcNhC ≠ 0 ∧ buffer ptr &&& 0xF8 = 0xF0 then
          let (udp, ptr) := uncompressUdp buffer old.2 ptr
          ⟨{ ip with proto := uipProtoUdp }, udp, ptr, uipIphLen + uipUdphLen⟩
        else ⟨ip, old.2, ptr, uipIphLen⟩)

end Uncompress

end Sicslowpan
end Contiki

import Contiki.Sicslowpan.Hc06

/-!
# Fragmentation and reassembly

`output` and `input` of `sicslowpan`, with the static variables that they share.  A packet that
does not fit into a frame is sent as a first fragment, with the compressed headers, and following
fragments; `output` gives up when no queue buffer can be allocated for one of them.  `input` counts
the octets that it has received of the packet that is being reassembled.

Octets of a packet are counted in the uncompressed packet.  `SICSLOWPAN_COMPRESSION_HC1` is left
out.
-/

namespace Contiki
namespace Sicslowpan

/-! ## Constants -/

def fragnHdrLen : ℕ := 5

def dispatchFrag1 : UInt16 := 0xc0

def dispatchFragn : UInt16 := 0xe0

def dispatchIpv6 : UInt8 := 0x41

def ipv6HdrLen : ℕ := 1

/-- `SICSLOWPAN_REASS_MAXAGE * CLOCK_SECOND`. -/
def reassMaxage : ℕ := 20 * 128

def packetbufSize : ℕ := 128

/-! ## Headers in a buffer -/

/-- The bytes of an IPv6 header. -/
def ipHdrBytes (ip : IpHdr) : List UInt8 :=
  ip.vtc :: ip.tcflow :: wordBytes ip.flow ++ wordBytes ip.len ++ [ip.proto, ip.ttl] ++
    ip.srcipaddr.u8 ++ ip.destipaddr.u8

/-- The IPv6 header at the start of a buffer. -/
def ipHdrAt (buffer : ℕ → UInt8) : IpHdr where
  vtc := buffer 0
  tcflow := buffer 1
  flow := wordAt buffer 2
  len := wordAt buffer 4
  proto := buffer 6
  ttl := buffer 7
  srcipaddr := .ofBytes (copyBytes buffer 8 16)
  destipaddr := .ofBytes (copyBytes buffer 24 16)

/-- The bytes of a UDP header. -/
def udpHdrBytes (udp : UdpHdr) : List UInt8 :=
  wordBytes udp.srcport ++ wordBytes udp.destport ++ wordBytes udp.udplen ++ wordBytes udp.udpchksum

/-- The UDP header behind the IPv6 header. -/
def udpHdrAt (buffer : ℕ → UInt8) : UdpHdr where
  srcport := wordAt buffer uipIphLen
  destport := wordAt buffer (uipIphLen + 2)
  udplen := wordAt buffer (uipIphLen + 4)
  udpchksum := wordAt buffer (uipIphLen + 6)

/-- `UIP_IP_BUF`: the header of the packet in `uip_buf`. -/
def uipIpBuf (packet : List UInt8) : IpHdr := ipHdrAt fun k => packet.getD k 0

def uipUdpBuf (packet : List UInt8) : UdpHdr := udpHdrAt fun k => packet.getD k 0

/-! ## State -/

inductive Compression where
  | ipv6
  | hc06
deriving DecidableEq

/-- What is configured, with the address contexts.  `sicslowpan_init` gives the contexts distinct
numbers, which have to fit into four bits. -/
structure LowpanConfig where
  compression : Compression
  compressionThreshold : ℕ
  contexts : List AddrContext
  nodup_numbers : ((contexts.filter AddrContext.used).map AddrContext.number).Nodup
  numbers_fit : ∀ c ∈ contexts, c.used = true → c.number < 16

lemma LowpanConfig.nodup_numbers_nil :
    ((([] : List AddrContext).filter AddrContext.used).map AddrContext.number).Nodup := List.nodup_nil

lemma LowpanConfig.numbers_fit_nil : ∀ c ∈ ([] : List AddrContext), c.used = true → c.number < 16 := by
  simp

structure Timer where
  start : ℕ
  interval : ℕ

def timerExpired (now : ℕ) (t : Timer) : Bool := t.interval < (now - t.start) + 1

/-- The static variables of `sicslowpan`.  `processed_ip_len` counts for `output` and for
`input`. -/
structure Lowpan where
  sicslowpanBuf : ℕ → UInt8
  sicslowpanLen : UInt16
  processedIpLen : UInt16
  myTag : UInt16
  reassTag : UInt16
  fragSender : Lladdr
  reassTimer : Timer

/-- A frame in `packetbuf`; its data goes on behind its length. -/
structure Packetbuf where
  data : ℕ → UInt8
  datalen : ℕ
  sender : Lladdr
  receiver : Lladdr
  datalen_le : datalen ≤ packetbufSize

/-! ## Output -/

/-- A fragment: its tag, the octets of the packet that it stands for, and its frame. -/
structure Fragment where
  tag : UInt16
  offset : ℕ
  octets : ℕ
  frame : List UInt8

/-- What `output` gives to the MAC. -/
inductive Sent where
  | whole (frame : List UInt8)
  | fragments (l : List Fragment)

section Output
variable (cfg : LowpanConfig) (uipLladdr dest : Lladdr) (packet : List UInt8)

def compressHdrIpv6 : List UInt8 × ℕ :=
  (dispatchIpv6 :: copyBytes (fun k => packet.getD k 0) 0 uipIphLen, uipIphLen)

/-- The headers that are compressed, and `uncomp_hdr_len`. -/
def compressHdr : List UInt8 × ℕ :=
  if packet.length ≥ cfg.compressionThreshold then
    match cfg.compression with
    | .ipv6 => compressHdrIpv6 packet
    | .hc06 =>
      (compressHdrHc06 cfg.contexts uipLladdr dest (uipIpBuf packet) (uipUdpBuf packet),
        uncompHdrLen (uipIpBuf packet))
  else compressHdrIpv6 packet

/-- Dispatch and size, and the tag. -/
def fragHdr (dispatch tag : UInt16) : List UInt8 :=
  wordBytes ((dispatch <<< 8) ||| UInt16.ofNat packet.length) ++ wordBytes tag

/-- The first fragment. -/
def firstFragment (tag : UInt16) : Fragment :=
  let (hdr, uncompHdrLen) := compressHdr cfg uipLladdr dest packet
  let rimeHdrLen := hdr.length + frag1HdrLen
  let rimePayloadLen := (macMaxPayload - rimeHdrLen) &&& 0xf8
  { tag
    offset := 0
    octets := rimePayloadLen + uncompHdrLen
    frame := fragHdr packet dispatchFrag1 tag ++ hdr ++
      (packet.drop uncompHdrLen).take rimePayloadLen }

/-- A following fragment. -/
def followingFragment (tag : UInt16) (processedIpLen rimePayloadLen : ℕ) : Fragment where
  tag
  offset := processedIpLen
  octets := rimePayloadLen
  frame := fragHdr packet dispatchFragn tag ++ [UInt8.ofNat (processedIpLen >>> 3)] ++
    (packet.drop processedIpLen).take rimePayloadLen

/-- The loop over the following fragments: the `k`-th allocation is that of the fragment `k`.  The
result has the fragments that are sent, the octets that they stand for, and whether all of them
are sent.  No more rounds are needed than the packet has octets. -/
def sendFollowing (alloc : ℕ → Bool) (tag : UInt16) :
    (rounds k processedIpLen rimePayloadLen : ℕ) → List Fragment × ℕ × Bool
  | 0, _, processedIpLen, _ => ([], processedIpLen, true)
  | rounds + 1, k, processedIpLen, rimePayloadLen =>
    if processedIpLen < packet.length then
      let rimePayloadLen :=
        if packet.length - processedIpLen < rimePayloadLen then packet.length - processedIpLen
        else rimePayloadLen
      if alloc k then
        let (sent, processed, ok) :=
          sendFollowing alloc tag rounds (k + 1) (processedIpLen + rimePayloadLen) rimePayloadLen
        (followingFragment packet tag processedIpLen rimePayloadLen :: sent, processed, ok)
      else ([], processedIpLen, false)
    else ([], processedIpLen, true)

/-- `output`: what is sent, and the result.  `alloc k` says whether there is a queue buffer for
the `k`-th fragment. -/
def output (alloc : ℕ → Bool) (s : Lowpan) : Lowpan × Sent × Bool :=
  let (hdr, uncompHdrLen) := compressHdr cfg uipLladdr dest packet
  if packet.length + hdr.length > macMaxPayload + uncompHdrLen then
    if alloc 0 then
      let first := firstFragment cfg uipLladdr dest packet s.myTag
      let rimePayloadLen := (macMaxPayload - fragnHdrLen) &&& 0xf8
      let (sent, processed, ok) :=
        sendFollowing packet alloc s.myTag packet.length 1 first.octets rimePayloadLen
      if ok then
        ({ s with myTag := s.myTag + 1, processedIpLen := 0 }, .fragments (first :: sent), true)
      else
        ({ s with processedIpLen := UInt16.ofNat processed }, .fragments (first :: sent), false)
    else (s, .fragments [], false)
  else (s, .whole (hdr ++ packet.drop uncompHdrLen), true)

end Output

/-! ## Input -/

/-- What `input` reads of a fragmentation header; all zero without one. -/
structure FragInfo where
  fragSize : UInt16
  fragTag : UInt16
  fragOffset : UInt8
  rimeHdrLen : ℕ
  firstFragment : Bool
  lastFragment : Bool

section Input
variable (cfg : LowpanConfig) (now : ℕ) (p : Packetbuf)

/-- The fragmentation header. -/
def readFragHdr (processedIpLen : UInt16) : FragInfo :=
  let word := wordAt p.data 0
  let fragSize := word &&& 0x07ff
  if (word &&& 0xf800) >>> 8 = dispatchFrag1 then
    ⟨fragSize, wordAt p.data 2, 0, frag1HdrLen, true, false⟩
  else if (word &&& 0xf800) >>> 8 = dispatchFragn then
    ⟨fragSize, wordAt p.data 2, p.data 4, fragnHdrLen, false,
      decide (processedIpLen.toNat + p.datalen ≥ fragSize.toNat + fragnHdrLen)⟩
  else ⟨0, 0, 0, 0, false, false⟩

/-- The check that the frame belongs to the reassembly that is going on, or the start of one; no
result for a frame that is dropped. -/
def joinReassembly (f : FragInfo) (s : Lowpan) : Option Lowpan :=
  if s.processedIpLen > 0 then
    if f.fragSize > 0 ∧ (f.fragSize ≠ s.sicslowpanLen ∨ s.reassTag ≠ f.fragTag ∨
        s.fragSender ≠ p.sender) ∨ f.fragSize = 0 then none
    else some s
  else if f.fragSize > 0 then
    some { s with
      sicslowpanLen := f.fragSize
      reassTag := f.fragTag
      reassTimer := ⟨now, reassMaxage⟩
      fragSender := p.sender }
  else some s

/-- The headers are uncompressed into `sicslowpan_buf`; the result has the buffer, `rime_hdr_len`
and `uncomp_hdr_len`.  No result for an unknown dispatch. -/
def uncompressHdr (f : FragInfo) (buffer : ℕ → UInt8) : Option ((ℕ → UInt8) × ℕ × ℕ) :=
  if f.rimeHdrLen = fragnHdrLen then some (buffer, f.rimeHdrLen, 0)
  else if cfg.compression = .hc06 ∧ p.data f.rimeHdrLen &&& 0xe0 = dispatchIphc then
    let r := uncompressHdrHc06 cfg.contexts p.data p.sender p.receiver f.rimeHdrLen f.fragSize
      p.datalen (ipHdrAt buffer, udpHdrAt buffer)
    some (memcpy (memcpy buffer 0 (ipHdrBytes r.ip)) uipIphLen (udpHdrBytes r.udp), r.rimeHdrLen,
      r.uncompHdrLen)
  else if p.data f.rimeHdrLen = dispatchIpv6 then
    let rimeHdrLen := f.rimeHdrLen + ipv6HdrLen
    some (memcpy buffer 0 (copyBytes p.data rimeHdrLen uipIphLen), rimeHdrLen + uipIphLen,
      uipIphLen)
  else none

/-- The octets that have been received, for a fragment, or the length of the packet. -/
def countOctets (f : FragInfo) (uncompHdrLen rimePayloadLen : ℕ) (s : Lowpan) : Lowpan :=
  if f.fragSize > 0 then
    let processedIpLen :=
      if f.firstFragment then s.processedIpLen + UInt16.ofNat uncompHdrLen else s.processedIpLen
    { s with
      processedIpLen :=
        if f.lastFragment then f.fragSize else processedIpLen + UInt16.ofNat rimePayloadLen }
  else { s with sicslowpanLen := UInt16.ofNat (rimePayloadLen + uncompHdrLen) }

/-- The payload is copied behind the headers, or to the place of the fragment, and a packet that
is complete is delivered. -/
def copyPayload (f : FragInfo) (rimeHdrLen uncompHdrLen : ℕ) (s : Lowpan) :
    Lowpan × Option (List UInt8) :=
  if p.datalen < rimeHdrLen then (s, none)
  else
    let rimePayloadLen := p.datalen - rimeHdrLen
    let buffer := memcpy s.sicslowpanBuf (uncompHdrLen + f.fragOffset.toNat <<< 3)
      (copyBytes p.data rimeHdrLen rimePayloadLen)
    let s := countOctets f uncompHdrLen rimePayloadLen { s with sicslowpanBuf := buffer }
    if s.processedIpLen = 0 ∨ s.processedIpLen = s.sicslowpanLen then
      ({ s with sicslowpanLen := 0, processedIpLen := 0 },
        some (copyBytes s.sicslowpanBuf 0 s.sicslowpanLen.toNat))
    else (s, none)

/-- A reassembly that has timed out is cancelled. -/
def cancelExpired (s : Lowpan) : Lowpan :=
  if timerExpired now s.reassTimer then { s with sicslowpanLen := 0, processedIpLen := 0 } else s

/-- `input`: a frame has arrived; the result has the packet that is handed to `tcpip_input`. -/
def input (s : Lowpan) : Lowpan × Option (List UInt8) :=
  let s := cancelExpired now s
  let f := readFragHdr p s.processedIpLen
  match joinReassembly now p f s with
  | none => (s, none)
  | some s =>
    match uncompressHdr cfg p f s.sicslowpanBuf with
    | none => (s, none)
    | some (buffer, rimeHdrLen, uncompHdrLen) =>
      copyPayload p f rimeHdrLen uncompHdrLen { s with sicslowpanBuf := buffer }

end Input

end Sicslowpan
end Contiki

import Contiki.Net.Checksum
import Contiki.Net.ExtHeaders

/-!
# ICMPv6 errors

`uip_icmp6_error_output` turns the packet in `uip_buf` into an error message that quotes it.  It looks
for an ICMPv6 error directly behind the IPv6 header, whatever extension headers the packet has, and
only compares the length of its answer with the MTU.

* `uipIcmp6ErrorOutput` — the answer to a packet, with `uip_len` zero when there is none.
* `answersWell_iff` — when errors stay unanswered, and an answer is what it should be.
-/

namespace Contiki

/-! ## The source -/

/-- `uip_htonl`, as the octets of the word. -/
def uipHtonl (v : UInt32) : List UInt8 :=
  [(v >>> 24).toUInt8, (v >>> 16).toUInt8, (v >>> 8).toUInt8, v.toUInt8]

namespace UipBuf

/-- The length of an error message, which `UIP_LINK_MTU` bounds. -/
def errorLen (linkMtu : UInt16) (p : UipBuf) : UInt16 :=
  if p.len + 48 > linkMtu then linkMtu else p.len + 48

/-- The packet is moved behind the headers of the error message, and the IPv6 header is written, without
its length and its addresses. -/
def errorShift (node : IpNode) (p : UipBuf) : UipBuf :=
  let len := p.errorLen node.linkMtu
  let bytes := memcpy p.bytes 48 (copyBytes p.bytes 0 (len.toNat - 48))
  let bytes := memcpy bytes 0 [0x60, 0, 0, 0]
  ⟨memcpy bytes 6 [58, node.curHopLimit], len⟩

/-- The source becomes the destination. -/
def errorDest (p : UipBuf) : UipBuf := ⟨memcpy p.bytes 24 p.srcipaddr.u8, p.len⟩

/-- The source address, the ICMPv6 header, the length and the checksum of an error message. -/
def errorFill (src : IpAddr) (type code : UInt8) (param : UInt32) (p : UipBuf) : UipBuf :=
  let bytes := memcpy p.bytes 8 src.u8
  let bytes := memcpy bytes 40 [type, code]
  let bytes := memcpy bytes 44 (uipHtonl param)
  let bytes := memcpy bytes 4 (wordBytes (p.len - 40))
  let p : UipBuf := ⟨memcpy bytes 42 [0, 0], p.len⟩
  ⟨memcpy p.bytes 42 (wordBytes (~~~p.upperLayerChksum uipIphLen 58)), p.len⟩

end UipBuf

section
variable (node : IpNode) (bufsize : UInt16) (type code : UInt8) (param : UInt32) (p : UipBuf)

/-- `uip_icmp6_error_output`; `none` when the packet is moved beyond the end of `uip_buf`. -/
def uipIcmp6ErrorOutput : Option UipBuf :=
  -- `uip_ext_len` is zero here
  if p.bytes 6 = 58 ∧ p.bytes uipIphLen < 128 then some ⟨p.bytes, 0⟩
  else if 48 ≤ p.errorLen node.linkMtu ∧ p.errorLen node.linkMtu ≤ bufsize then
    let dest := p.destipaddr
    let p := p.errorShift node
    if p.srcipaddr.uipIsAddrUnspecified then some ⟨p.bytes, 0⟩
    else
      let p := p.errorDest
      if dest.uipIsAddrMcast then
        if type = 4 ∧ code = 2 then
          some (p.errorFill (uipDs6SelectSrc node.addrList dest) type code param)
        else some ⟨p.bytes, 0⟩
      else
        let src := if node.router then uipDs6SelectSrc node.addrList dest else dest
        some (p.errorFill src type code param)
  else none

/-! ## What is promised -/

/-- An extension header: hop-by-hop options, routing, fragment or destination options. -/
def ExtHdr.IsExtension (hdr : ExtHdr) : Prop :=
  hdr.proto = 0 ∨ hdr.proto = 43 ∨ hdr.proto = 44 ∧ hdr.len = 0 ∨ hdr.proto = 60

/-- The packet is an ICMPv6 error behind a chain of extension headers. -/
def UipBuf.CarriesIcmpError (p : UipBuf) : Prop :=
  ∃ hdrs : List ExtHdr, (∀ hdr ∈ hdrs, hdr.IsExtension) ∧ p.bytes 6 = firstProto 58 hdrs ∧
    Holds p.bytes uipIphLen (chainOctets 58 hdrs) ∧ uipIphLen + chainSize hdrs < p.len.toNat ∧
    p.bytes (uipIphLen + chainSize hdrs) < 128

/-- What `t` has to be as the answer to the packet: nothing to an ICMPv6 error, a packet without a source, or
one to a multicast address, except for an option that is not recognised; otherwise a message that fits
the MTU, quotes the packet from its start on, and verifies. -/
structure ErrorAnswer (t : UipBuf) : Prop where
  icmpError : p.CarriesIcmpError → t.len = 0
  unspecified : p.srcipaddr.uipIsAddrUnspecified = true → t.len = 0
  mcast : p.destipaddr.uipIsAddrMcast = true → ¬(type = 4 ∧ code = 2) → t.len = 0
  mtu : t.len ≤ node.linkMtu
  quote : t.len ≠ 0 → 48 ≤ t.len.toNat ∧ t.len.toNat ≤ p.len.toNat + 48 ∧
    Holds t.bytes 48 (copyBytes p.bytes 0 (t.len.toNat - 48))
  chksum : t.len ≠ 0 → t.upperLayerChksum uipIphLen 58 = 0xffff

/-- The packet is answered as promised, without an access beyond the end of `uip_buf`. -/
def AnswersWell : Prop :=
  ∃ t, uipIcmp6ErrorOutput node bufsize type code param p = some t ∧ ErrorAnswer node type code p t

/-- There is room for the headers of the answer, with as much of the packet as the MTU allows. -/
def RoomForError : Prop :=
  48 ≤ node.linkMtu.toNat ∧ p.len.toNat + 48 < 65536 ∧
    min (p.len.toNat + 48) node.linkMtu.toNat ≤ bufsize.toNat

/-- The packet is an ICMPv6 error directly behind the IPv6 header.  Or there is room for an answer, and
it has no source, or a multicast destination without an option that is not recognised, or does not
carry an ICMPv6 error behind extension headers. -/
def Answerable : Prop :=
  p.bytes 6 = 58 ∧ p.bytes uipIphLen < 128 ∨
    RoomForError node bufsize p ∧ (p.srcipaddr.uipIsAddrUnspecified = true ∨
      p.destipaddr.uipIsAddrMcast = true ∧ ¬(type = 4 ∧ code = 2) ∨ ¬p.CarriesIcmpError)

end

namespace UipBuf
variable {node : IpNode} {p : UipBuf} {src : IpAddr} {type code : UInt8} {param : UInt32}

/-! ## What is written -/

lemma errorShift_srcipaddr (node : IpNode) (p : UipBuf) :
    (p.errorShift node).srcipaddr = p.srcipaddr := rfl

/-- The quote of the packet. -/
lemma holds_errorShift (node : IpNode) (p : UipBuf) :
    Holds (p.errorShift node).bytes 48 (copyBytes p.bytes 0 ((p.errorLen node.linkMtu).toNat - 48)) := by
  unfold errorShift
  dsimp only
  refine Holds.memcpy (Holds.memcpy (holds_memcpy _ _ _) (.inr ?_)) (.inr ?_)
  · show 0 + 4 ≤ 48
    omega
  · show 6 + 2 ≤ 48
    omega

/-- Behind its headers, the message stays as it is. -/
lemma holds_errorFill {l : List UInt8} (h : Holds p.bytes 48 l) :
    Holds (p.errorDest.errorFill src type code param).bytes 48 l := by
  have hsrc := p.srcipaddr.length_u8
  have hsrc' := src.length_u8
  unfold errorFill errorDest
  refine ((((((h.memcpy (.inr ?_)).memcpy (.inr ?_)).memcpy (.inr ?_)).memcpy (.inr ?_)).memcpy
    (.inr ?_)).memcpy (.inr ?_)).memcpy (.inr ?_)
  · omega
  · omega
  · show 40 + 2 ≤ 48
    omega
  · show 44 + 4 ≤ 48
    omega
  · show 4 + 2 ≤ 48
    omega
  · show 42 + 2 ≤ 48
    omega
  · show 42 + 2 ≤ 48
    omega

/-- The checksum of a message verifies. -/
lemma errorFill_chksum (hlen : 48 ≤ p.len.toNat) :
    (p.errorFill src type code param).upperLayerChksum uipIphLen 58 = 0xffff := by
  unfold errorFill
  dsimp only
  refine upperLayerChksum_complement (k := 1) _ 58 (Nat.le_refl _) ?_ ?_
  · have hpayload : ∀ b : ℕ → UInt8,
        (⟨memcpy (memcpy b 4 (wordBytes (p.len - 40))) 42 [0, 0], p.len⟩ : UipBuf).payloadLen =
          p.len - 40 := fun b =>
      Sicslowpan.wordAt_of_holds ((holds_memcpy _ _ _).memcpy (.inl (by show 4 + 2 ≤ 42; omega)))
    have hsub : (p.len - 40).toNat = p.len.toNat - 40 := UInt16.toNat_sub_of_le _ _ (by
      show 40 ≤ p.len.toNat
      omega)
    unfold upperLayerLen
    rw [hpayload]
    show 4 ≤ (p.len - 40 - 0).toNat
    rw [UInt16.sub_zero, hsub]
    omega
  · exact Sicslowpan.wordAt_of_holds (v := 0) (holds_memcpy _ _ _)

end UipBuf

/-! ## When it is promised -/

section
variable {node : IpNode} {bufsize : UInt16} {type code : UInt8} {param : UInt32} {p : UipBuf}

/-- The length of the message is that of the packet with its headers, or the MTU. -/
lemma roomForError_iff : RoomForError node bufsize p ↔
    48 ≤ p.errorLen node.linkMtu ∧ p.errorLen node.linkMtu ≤ bufsize := by
  have hlen := p.len.toNat_lt
  have hadd : (p.len + 48).toNat = (p.len.toNat + 48) % 65536 := UInt16.toNat_add _ _
  rw [UInt16.le_iff_toNat_le, UInt16.le_iff_toNat_le]
  show RoomForError node bufsize p ↔ 48 ≤ (p.errorLen node.linkMtu).toNat ∧ _
  unfold RoomForError UipBuf.errorLen
  split_ifs with hgt
  · rw [gt_iff_lt, UInt16.lt_iff_toNat_lt] at hgt
    omega
  · rw [gt_iff_lt, UInt16.lt_iff_toNat_lt] at hgt
    omega

/-- With room for it, the message has the length of the packet and its headers, up to the MTU. -/
lemma errorLen_toNat (h : RoomForError node bufsize p) :
    (p.errorLen node.linkMtu).toNat = min (p.len.toNat + 48) node.linkMtu.toNat := by
  obtain ⟨-, hlen, -⟩ := h
  have hadd : (p.len + 48).toNat = (p.len.toNat + 48) % 65536 := UInt16.toNat_add _ _
  unfold UipBuf.errorLen
  split_ifs with hgt
  · rw [gt_iff_lt, UInt16.lt_iff_toNat_lt] at hgt
    omega
  · rw [gt_iff_lt, UInt16.lt_iff_toNat_lt] at hgt
    omega

/-- No answer breaks no promise. -/
lemma errorAnswer_silent (bytes : ℕ → UInt8) : ErrorAnswer node type code p ⟨bytes, 0⟩ where
  icmpError _ := rfl
  unspecified _ := rfl
  mcast _ _ := rfl
  mtu := UInt16.zero_le
  quote h := absurd rfl h
  chksum h := absurd rfl h

/-- A message that is sent is as promised, when the packet can be answered. -/
lemma errorAnswer_fill (src : IpAddr) (hroom : RoomForError node bufsize p)
    (hsrc : ¬p.srcipaddr.uipIsAddrUnspecified = true)
    (hdest : ¬(p.destipaddr.uipIsAddrMcast = true ∧ ¬(type = 4 ∧ code = 2)))
    (herr : ¬p.CarriesIcmpError) : ErrorAnswer node type code p
      ((p.errorShift node).errorDest.errorFill src type code param) where
  icmpError h := absurd h herr
  unspecified h := absurd h hsrc
  mcast h h' := absurd ⟨h, h'⟩ hdest
  mtu := by
    have hlen := errorLen_toNat hroom
    rw [UInt16.le_iff_toNat_le]
    show (p.errorLen node.linkMtu).toNat ≤ _
    omega
  quote _ := by
    have hlen := errorLen_toNat hroom
    obtain ⟨hmtu, -, -⟩ := hroom
    refine ⟨?_, ?_, UipBuf.holds_errorFill (UipBuf.holds_errorShift node p)⟩
    · show 48 ≤ (p.errorLen node.linkMtu).toNat
      omega
    · show (p.errorLen node.linkMtu).toNat ≤ _
      omega
  chksum _ := UipBuf.errorFill_chksum (roomForError_iff.mp hroom).1

/-- What the answer is when the packet is no error directly behind the IPv6 header, and there is room. -/
lemma uipIcmp6ErrorOutput_of_room (hfirst : ¬(p.bytes 6 = 58 ∧ p.bytes uipIphLen < 128))
    (hroom : RoomForError node bufsize p) :
    if p.srcipaddr.uipIsAddrUnspecified = true ∨
        p.destipaddr.uipIsAddrMcast = true ∧ ¬(type = 4 ∧ code = 2) then
      ∃ bytes, uipIcmp6ErrorOutput node bufsize type code param p = some ⟨bytes, 0⟩
    else
      ∃ src, uipIcmp6ErrorOutput node bufsize type code param p =
        some ((p.errorShift node).errorDest.errorFill src type code param) := by
  unfold uipIcmp6ErrorOutput
  dsimp only
  rw [if_neg hfirst, if_pos (roomForError_iff.mp hroom), UipBuf.errorShift_srcipaddr]
  by_cases hsrc : p.srcipaddr.uipIsAddrUnspecified = true
  · rw [if_pos (.inl hsrc), if_pos hsrc]
    exact ⟨_, rfl⟩
  rw [if_neg hsrc]
  by_cases hdest : p.destipaddr.uipIsAddrMcast = true
  · rw [if_pos hdest]
    by_cases hoption : type = 4 ∧ code = 2
    · rw [if_pos hoption, if_neg (not_or.mpr ⟨hsrc, fun h => h.2 hoption⟩)]
      exact ⟨_, rfl⟩
    · rw [if_neg hoption, if_pos (.inr ⟨hdest, hoption⟩)]
      exact ⟨_, rfl⟩
  · rw [if_neg hdest, if_neg (not_or.mpr ⟨hsrc, fun h => hdest h.1⟩)]
    exact ⟨_, rfl⟩

/-- **ICMPv6 errors.**  A packet is answered as promised if and only if it is an ICMPv6 error directly
behind the IPv6 header, or there is room for the answer and, where there is an answer, the packet
carries no ICMPv6 error. -/
theorem answersWell_iff (node : IpNode) (bufsize : UInt16) (type code : UInt8) (param : UInt32)
    (p : UipBuf) :
    AnswersWell node bufsize type code param p ↔ Answerable node bufsize type code p := by
  by_cases hfirst : p.bytes 6 = 58 ∧ p.bytes uipIphLen < 128
  · exact iff_of_true ⟨⟨p.bytes, 0⟩, if_pos hfirst, errorAnswer_silent _⟩ (.inl hfirst)
  by_cases hroom : RoomForError node bufsize p
  · have hout := @uipIcmp6ErrorOutput_of_room node bufsize type code param p hfirst hroom
    split_ifs at hout with hsilent
    · obtain ⟨bytes, hout⟩ := hout
      exact iff_of_true ⟨_, hout, errorAnswer_silent bytes⟩
        (.inr ⟨hroom, hsilent.imp_right .inl⟩)
    · -- there is an answer
      obtain ⟨src, hout⟩ := hout
      obtain ⟨hsrc, hdest⟩ := not_or.mp hsilent
      constructor
      · rintro ⟨t, ht, hanswer⟩
        obtain rfl := Option.some.inj (hout.symm.trans ht)
        refine .inr ⟨hroom, .inr (.inr fun herr => ?_)⟩
        have hzero : p.errorLen node.linkMtu = 0 := hanswer.icmpError herr
        have hlen := (roomForError_iff.mp hroom).1
        rw [hzero] at hlen
        exact absurd hlen (by decide)
      · rintro (h | ⟨-, h | h | herr⟩)
        · exact absurd h hfirst
        · exact absurd h hsrc
        · exact absurd h hdest
        · exact ⟨_, hout, errorAnswer_fill src hroom hsrc hdest herr⟩
  · refine iff_of_false ?_ ?_
    · rintro ⟨t, hout, -⟩
      unfold uipIcmp6ErrorOutput at hout
      rw [if_neg hfirst, if_neg (mt roomForError_iff.mpr hroom)] at hout
      cases hout
    · rintro (h | h)
      · exact hfirst h
      · exact hroom h.1

end

/-! ## An error behind a header with an option -/

/-- A destination unreachable message behind hop-by-hop options with an option that is not recognised. -/
def hiddenError : UipBuf where
  bytes k :=
    if k = 0 then 0x60 else if k = 5 then 16 else if k = 7 then 64 else if k = 8 then 0xfe
    else if k = 9 then 0x80 else if k = 23 then 1 else if k = 24 then 0xff else if k = 40 then 58
    else if k = 42 then 0x80 else if k = 43 then 4 else if k = 48 then 1 else 0
  len := 56

lemma hiddenError_carries : hiddenError.CarriesIcmpError := by
  refine ⟨[⟨0, 0, [0x80, 4, 0, 0, 0, 0], rfl⟩], ?_, rfl, ?_, ?_, ?_⟩
  · intro hdr hmem
    rw [List.mem_singleton] at hmem
    exact .inl (by rw [hmem])
  · exact ⟨rfl, rfl, rfl, rfl, rfl, rfl, rfl, rfl, trivial⟩
  · show 48 < 56
    omega
  · show (1 : UInt8) < 128
    decide

/-- It is received, and answered with a parameter problem of 104 octets. -/
theorem not_answersWell : ¬ ∀ (node : IpNode) (bufsize : UInt16) (p : UipBuf) (s : HeaderState)
    (type code : UInt8) (param : ℕ) (q : UipBuf), p.len ≤ bufsize → Processes node p s →
    s.headerStep node = .error (.error type code param q) →
    AnswersWell node bufsize type code (UInt32.ofNat param) q := by
  intro h
  have hinput : ipInput hostNode hiddenError =
      .ok ⟨hiddenError, 6, 0, {}, uipIphLen⟩ := rfl
  obtain ⟨t, hout, hanswer⟩ := h hostNode 1280 hiddenError _ 4 2 42 hiddenError (by decide)
    (.initial hinput) rfl
  have hlen : (uipIcmp6ErrorOutput hostNode 1280 4 2 (UInt32.ofNat 42) hiddenError).map
      UipBuf.len = some 104 := rfl
  rw [hout, Option.map_some, hanswer.icmpError hiddenError_carries] at hlen
  cases hlen

end Contiki

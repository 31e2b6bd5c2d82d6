import Contiki.Lib.Run
import Contiki.Sicslowpan.ReassemblyWrites
import Contiki.Sicslowpan.Tags
import Mathlib.Order.Interval.Finset.Nat

/-!
# When a packet is complete

`input` counts the octets that it has received and takes the packet for complete when the count is
the size, without a look at where the octets are.  A fragment that is received twice is counted
twice (`not_reassembled_written`), and `output` uses the same variable for a count of its own, which
it leaves there when it gives up.

A run of the receiver keeps the frames that have arrived since the reassembly started, and whether
`output` has given up since.  In runs in which a fragment adds octets that are new to a count that is
not spoiled, or all octets are there, the count is the number of octets that are there, and every
octet of a packet that is handed up was written (`reassembled_written`).
-/

namespace Contiki
namespace Sicslowpan

/-! ## Where the octets of a frame are -/

namespace Arrival
variable (cfg : LowpanConfig) (a : Arrival)

/-- The frame has IPHC headers. -/
def Iphc : Prop := a.hdr.rimeHdrLen ≠ fragnHdrLen ∧ cfg.compression = .hc06 ∧
  a.frame.data a.hdr.rimeHdrLen &&& 0xe0 = dispatchIphc

instance : Decidable (a.Iphc cfg) := inferInstanceAs (Decidable (_ ∧ _))

/-- Where the headers end in the frame, and how long they are in the packet.  No result for an unknown
dispatch. -/
def headerLengths : Option (ℕ × ℕ) :=
  if a.hdr.rimeHdrLen = fragnHdrLen then some (fragnHdrLen, 0)
  else if a.Iphc cfg then
    some (iphcLengths cfg.contexts a.frame.data a.frame.sender a.frame.receiver a.hdr.rimeHdrLen)
  else if a.frame.data a.hdr.rimeHdrLen = dispatchIpv6 then
    some (a.hdr.rimeHdrLen + ipv6HdrLen + uipIphLen, uipIphLen)
  else none

/-- Where the octets begin that a frame is counted for, the length of the headers that it brings
in compressed form, and the length of the payload.  No result for a frame that is dropped. -/
def counted : Option (ℕ × ℕ × ℕ) :=
  if Refuses a.frame a.current a.hdr then none
  else (a.headerLengths cfg).bind fun lengths =>
    if a.frame.datalen < lengths.1 then none
    else some (a.hdr.fragOffset.toNat <<< 3, lengths.2, a.frame.datalen - lengths.1)

/-- The octet `k` of the headers is in the frame: compressed headers are without the next header when
it is compressed and not that of UDP, without a multicast address that is compressed with a context,
and without a checksum that is elided. -/
def BringsHeader (k : ℕ) : Prop :=
  a.Iphc cfg → ∀ ptr, iphcAddrsEnd cfg.contexts a.frame.data a.frame.sender a.frame.receiver
      a.hdr.rimeHdrLen = some ptr →
    (k = 6 → a.frame.data a.hdr.rimeHdrLen &&& iphcNhC = 0 ∨
      IsNhcUdp a.frame.data a.hdr.rimeHdrLen ptr) ∧
    (24 ≤ k → k < 40 → ¬IsContextMcast a.frame.data a.hdr.rimeHdrLen) ∧
    (46 ≤ k → a.frame.data ptr &&& 0x04 = 0)

/-- The frame has the octet `k` of the packet and is counted for it. -/
def Covers (k : ℕ) : Prop :=
  ∃ pos unc len, a.counted cfg = some (pos, unc, len) ∧ pos ≤ k ∧ k < pos + unc + len ∧
    (k < pos + unc → a.BringsHeader cfg k)

/-- The octets that the frame is counted for are octets of the packet that are not covered yet,
and there are some where a reassembly starts; the headers that the frame brings in compressed form
are all in the frame. -/
structure Adds (before : List Arrival) (pos unc len : ℕ) : Prop where
  starts : a.Starts → 0 < unc + len
  fits : ∀ k, pos ≤ k → k < pos + unc + len → k < a.hdr.fragSize.toNat
  headers : ∀ k, pos ≤ k → k < pos + unc → a.BringsHeader cfg k
  new : ∀ k, pos ≤ k → k < pos + unc + len → ∀ y ∈ before, ¬ y.Covers cfg k

/-- All octets of the packet are covered by its fragments. -/
def AllCovered (since : List Arrival) : Prop :=
  ∀ k < a.hdr.fragSize.toNat, ∃ y ∈ since, y.packetId = a.packetId ∧ y.Covers cfg k

end Arrival

/-! ## Runs -/

/-- A reassembled packet that was handed to `tcpip_input`, the fragment that completed it, and the
frames that had arrived since the reassembly started. -/
structure Handed where
  packet : List UInt8
  last : Arrival
  since : List Arrival

/-- Every octet was written by a fragment with the sender, the tag and the size of the packet. -/
def Handed.Written (cfg : LowpanConfig) (h : Handed) : Prop :=
  ∀ k < h.packet.length, ∃ y ∈ h.since, y.frame.sender = h.last.frame.sender ∧
    y.hdr.fragTag = h.last.hdr.fragTag ∧ y.hdr.fragSize.toNat = h.packet.length ∧ y.Writes cfg k

/-- A receiver with the frames that have arrived since the reassembly started, what it has handed up,
and whether `output` has given up since the reassembly started. -/
structure Receiver where
  lowpan : Lowpan
  log : List Arrival
  handed : List Handed
  spoiled : Bool

/-- What happens to a receiver: a frame arrives, or a packet is passed to `output`. -/
inductive ReceiverEvent where
  | frame (now : ℕ) (p : Packetbuf)
  | output (c : Call)

namespace Receiver
variable (cfg : LowpanConfig) (uipLladdr : Lladdr) (r : Receiver) (now : ℕ) (p : Packetbuf)

/-- The frame that arrives. -/
def arrival : Arrival := ⟨now, p, r.lowpan⟩

/-- The frames before it in the same reassembly. -/
def before : List Arrival := if (r.arrival now p).Starts then [] else r.log

/-- `output` has given up since the reassembly started to which the frame belongs. -/
def spoiledBefore : Bool := !decide (r.arrival now p).Starts && r.spoiled

/-- The packet that is handed up, when it is a reassembled one. -/
def hands : List Handed :=
  match (input cfg now p r.lowpan).2 with
  | none => []
  | some packet =>
    if (r.arrival now p).hdr.fragSize > 0 then
      [⟨packet, r.arrival now p, r.arrival now p :: r.before now p⟩]
    else []

/-- A frame arrives. -/
def arrive : Receiver where
  lowpan := (input cfg now p r.lowpan).1
  log := r.arrival now p :: r.before now p
  handed := r.hands cfg now p ++ r.handed
  spoiled := r.spoiledBefore now p

/-- A packet is passed to `output`. -/
def send (c : Call) : Receiver :=
  { r with
    lowpan := (output cfg uipLladdr c.dest c.packet c.alloc r.lowpan).1
    spoiled := r.spoiled || decide (c.Abandons cfg uipLladdr) }

def step : ReceiverEvent → Except Empty Receiver
  | .frame now p => .ok (r.arrive cfg now p)
  | .output c => .ok (r.send cfg uipLladdr c)

/-- A fragment that is taken adds octets to a count that is not spoiled, or with it all octets of the
packet are covered. -/
def AddsOctets : ReceiverEvent → Prop
  | .frame now p => ∀ pos unc len, (r.arrival now p).counted cfg = some (pos, unc, len) →
      (r.arrival now p).hdr.fragSize > 0 →
      r.spoiledBefore now p = false ∧ (r.arrival now p).Adds cfg (r.before now p) pos unc len ∨
        (r.arrival now p).AllCovered cfg (r.arrival now p :: r.before now p)
  | .output _ => True

end Receiver

/-! ## Headers that are in the frame -/

section Iphc
variable {contexts : List AddrContext} {buffer : ℕ → UInt8} {sender receiver : Lladdr} {start ptr : ℕ}

/-- Two results of `uncompress_hdr_hc06` for one frame: the fields that are in the frame are the same. -/
structure SameFields (buffer : ℕ → UInt8) (start ptr : ℕ) (r r' : Uncompressed) : Prop where
  ip : r'.ip = { r.ip with proto := r'.ip.proto, destipaddr := r'.ip.destipaddr }
  proto : buffer start &&& iphcNhC = 0 ∨ IsNhcUdp buffer start ptr → r'.ip.proto = r.ip.proto
  destipaddr : ¬IsContextMcast buffer start → r'.ip.destipaddr = r.ip.destipaddr
  udp : IsNhcUdp buffer start ptr → r'.udp = { r.udp with udpchksum := r'.udp.udpchksum }
  udpchksum : IsNhcUdp buffer start ptr → buffer ptr &&& 0x04 = 0 →
    r'.udp.udpchksum = r.udp.udpchksum

lemma uncompressUdp_same (buffer : ℕ → UInt8) (old old' : UdpHdr) (ptr : ℕ) :
    (uncompressUdp buffer old' ptr).1.srcport = (uncompressUdp buffer old ptr).1.srcport ∧
    (uncompressUdp buffer old' ptr).1.destport = (uncompressUdp buffer old ptr).1.destport ∧
    (buffer ptr &&& 0x04 = 0 →
      (uncompressUdp buffer old' ptr).1.udpchksum = (uncompressUdp buffer old ptr).1.udpchksum) := by
  unfold uncompressUdp
  dsimp only
  by_cases hchksum : buffer ptr &&& 0x04 = 0
  · simp only [if_pos hchksum]
    exact ⟨trivial, trivial, fun _ => trivial⟩
  · simp only [if_neg hchksum]
    exact ⟨trivial, trivial, fun h => absurd h hchksum⟩

lemma uncompressDst_same {iphc1 ctx : UInt8} (hmcast : ¬(iphc1 &&& iphcM ≠ 0 ∧ iphc1 &&& iphcDac ≠ 0))
    (old old' : IpAddr) (ptr : ℕ) : uncompressDst contexts buffer receiver iphc1 ctx old ptr =
      uncompressDst contexts buffer receiver iphc1 ctx old' ptr := by
  unfold uncompressDst
  dsimp only
  by_cases hm : iphc1 &&& iphcM ≠ 0
  · rw [if_pos hm, if_pos hm, if_neg fun hdac => hmcast ⟨hm, hdac⟩, if_neg fun hdac => hmcast ⟨hm, hdac⟩]
  · rw [if_neg hm, if_neg hm]

lemma uncompressHdrHc06_same (ipLen : UInt16) (datalen : ℕ) (old old' : IpHdr × UdpHdr)
    (haddrs : iphcAddrsEnd contexts buffer sender receiver start = some ptr) :
    SameFields buffer start ptr
      (uncompressHdrHc06 contexts buffer sender receiver start ipLen datalen old)
      (uncompressHdrHc06 contexts buffer sender receiver start ipLen datalen old') := by
  simp only [iphcAddrsEnd, iphcSrcEnd, iphcFieldsEnd] at haddrs
  simp only [uncompressHdrHc06]
  generalize uncompressTf buffer (buffer start) _ = tf at haddrs ⊢
  rcases tf with ⟨⟨vtc, tcflow, flow⟩, p₁⟩
  simp only at haddrs ⊢
  have hnh := uncompressNh_ptr buffer (buffer start) 0 old.1.proto p₁
  have hnh' := uncompressNh_ptr buffer (buffer start) 0 old'.1.proto p₁
  have hsame : buffer start &&& iphcNhC = 0 → (uncompressNh buffer (buffer start) old'.1.proto p₁).1 =
      (uncompressNh buffer (buffer start) old.1.proto p₁).1 := by
    intro hinline
    unfold uncompressNh
    rw [if_pos hinline, if_pos hinline]
  rw [hnh] at haddrs hnh'
  generalize uncompressNh buffer (buffer start) old.1.proto p₁ = nh at haddrs hnh' hsame ⊢
  generalize uncompressNh buffer (buffer start) old'.1.proto p₁ = nh' at hnh' hsame ⊢
  rcases nh with ⟨proto, p₂⟩
  rcases nh' with ⟨proto', p₂'⟩
  obtain rfl : p₂ = p₂' := hnh'
  simp only at haddrs hsame ⊢
  generalize uncompressTtl buffer (buffer start) p₂ = hops at haddrs ⊢
  rcases hops with ⟨ttl, p₃⟩
  simp only at haddrs ⊢
  generalize uncompressSrc contexts buffer sender _ _ p₃ = src at haddrs ⊢
  rcases src with - | ⟨srcipaddr, p₄⟩
  · cases haddrs
  simp only [Option.map_some, Option.bind_some] at haddrs ⊢
  have hdst := uncompressDst_ptr contexts buffer receiver (buffer (start + 1)) (buffer (start + 2))
    old.1.destipaddr .unspecified p₄
  have hdst' := uncompressDst_ptr contexts buffer receiver (buffer (start + 1)) (buffer (start + 2))
    old'.1.destipaddr .unspecified p₄
  have hsameDst : ¬IsContextMcast buffer start → uncompressDst contexts buffer receiver
      (buffer (start + 1)) (buffer (start + 2)) old'.1.destipaddr p₄ = uncompressDst contexts buffer
        receiver (buffer (start + 1)) (buffer (start + 2)) old.1.destipaddr p₄ :=
    fun hmcast => uncompressDst_same hmcast _ _ p₄
  rw [haddrs] at hdst hdst'
  generalize uncompressDst contexts buffer receiver _ _ old.1.destipaddr p₄ = dst at hdst hsameDst ⊢
  generalize uncompressDst contexts buffer receiver _ _ old'.1.destipaddr p₄ = dst' at hdst' hsameDst ⊢
  rcases dst with - | ⟨destipaddr, p₅⟩
  · cases hdst
  rcases dst' with - | ⟨destipaddr', p₅'⟩
  · cases hdst'
  obtain rfl : p₅ = ptr := Option.some.inj hdst
  obtain rfl : p₅' = p₅ := Option.some.inj hdst'
  have hdestipaddr : ¬IsContextMcast buffer start → destipaddr' = destipaddr :=
    fun hmcast => congrArg Prod.fst (Option.some.inj (hsameDst hmcast))
  simp only [finishLengths]
  by_cases hudp : buffer start &&& iphcNhC ≠ 0 ∧ buffer p₅' &&& 0xF8 = 0xF0
  · obtain ⟨hsrcport, hdestport, hchksum⟩ := uncompressUdp_same buffer old.2 old'.2 p₅'
    have hptr := uncompressUdp_ptr buffer old.2 old'.2 p₅'
    simp only [if_pos hudp, hptr]
    refine ⟨rfl, fun _ => rfl, hdestipaddr, fun _ => ?_, fun _ => hchksum⟩
    simp only [if_true, hsrcport, hdestport]
  · simp only [if_neg hudp]
    exact ⟨rfl, fun h => hsame (h.resolve_right hudp), hdestipaddr, fun h => absurd h hudp,
      fun h => absurd h hudp⟩

/-- The octets of two IPv6 headers that differ in the next header and the destination. -/
lemma ipHdrBytes_same {ip ip' : IpHdr} {k : ℕ}
    (h : ip' = { ip with proto := ip'.proto, destipaddr := ip'.destipaddr })
    (hproto : k = 6 → ip'.proto = ip.proto) (hdst : 24 ≤ k → ip'.destipaddr = ip.destipaddr) :
    (ipHdrBytes ip')[k]? = (ipHdrBytes ip)[k]? := by
  rw [h]
  generalize ip'.proto = proto at hproto
  generalize ip'.destipaddr = destipaddr at hdst
  have hsrc := ip.srcipaddr.length_u8
  rcases Nat.lt_or_ge k 24 with hlt | hge
  · have hlen : ∀ p d, k < (ip.vtc :: ip.tcflow :: wordBytes ip.flow ++ wordBytes ip.len ++
        [p, d] ++ ip.srcipaddr.u8).length := by
      intro p d
      simp only [wordBytes, List.length_append, List.length_cons, List.length_nil]
      omega
    unfold ipHdrBytes
    rw [List.getElem?_append_left (hlen _ _), List.getElem?_append_left (hlen _ _)]
    rcases eq_or_ne k 6 with rfl | hne
    · exact congrArg some (hproto rfl)
    · interval_cases k
      case «6» => exact absurd rfl hne
      all_goals rfl
  · have hlen : ∀ p d, (ip.vtc :: ip.tcflow :: wordBytes ip.flow ++ wordBytes ip.len ++
        [p, d] ++ ip.srcipaddr.u8).length = 24 := by
      intro p d
      simp only [wordBytes, List.length_append, List.length_cons, List.length_nil]
      omega
    unfold ipHdrBytes
    rw [List.getElem?_append_right (by rw [hlen]; exact hge),
      List.getElem?_append_right (by rw [hlen]; exact hge), hlen, hlen, hdst hge]

/-- The octets of two UDP headers that differ in the checksum. -/
lemma udpHdrBytes_same {udp udp' : UdpHdr} {k : ℕ}
    (h : udp' = { udp with udpchksum := udp'.udpchksum })
    (hchksum : 6 ≤ k → udp'.udpchksum = udp.udpchksum) :
    (udpHdrBytes udp')[k]? = (udpHdrBytes udp)[k]? := by
  rcases Nat.lt_or_ge k 6 with hlt | hge
  · rw [h]
    interval_cases k <;> rfl
  · rw [h, hchksum hge]

end Iphc

/-! ## What one frame does -/

section Frame
variable {cfg : LowpanConfig} {a : Arrival} {pos unc len : ℕ}

lemma memcpy_same {b b' : ℕ → UInt8} {l l' : List UInt8} {k : ℕ} (hlow : pos ≤ k)
    (hhigh : k < pos + l.length) (h : l'[k - pos]? = l[k - pos]?) :
    memcpy b' pos l' k = memcpy b pos l k := by
  rw [memcpy, memcpy, if_pos hlow, if_pos hlow, h, List.getElem?_eq_getElem (by omega)]
  rfl

namespace Arrival

/-- The lengths of the headers do not depend on what the buffer held. -/
lemma uncompressHdr_lengths (cfg : LowpanConfig) (a : Arrival) (b : ℕ → UInt8) :
    (uncompressHdr cfg a.frame a.hdr b).map Prod.snd = a.headerLengths cfg := by
  have hlengths := @uncompressHdrHc06_eq_iphcLengths cfg.contexts a.frame.data a.frame.sender
    a.frame.receiver a.hdr.rimeHdrLen a.hdr.fragSize a.frame.datalen (ipHdrAt b, udpHdrAt b)
  unfold uncompressHdr headerLengths
  by_cases hfragn : a.hdr.rimeHdrLen = fragnHdrLen
  · rw [if_pos hfragn, if_pos hfragn, hfragn]
    rfl
  rw [if_neg hfragn, if_neg hfragn]
  by_cases hiphc : cfg.compression = .hc06 ∧ a.frame.data a.hdr.rimeHdrLen &&& 0xe0 = dispatchIphc
  · rw [if_pos hiphc, if_pos (show a.Iphc cfg from ⟨hfragn, hiphc⟩), ← hlengths]
    rfl
  · rw [if_neg hiphc, if_neg (fun h : a.Iphc cfg => hiphc h.2)]
    split_ifs <;> rfl

/-- A frame that is counted joins the reassembly, and its headers are uncompressed. -/
lemma counted_eq_some (h : a.counted cfg = some (pos, unc, len)) :
    pos = a.hdr.fragOffset.toNat <<< 3 ∧ ∃ s buffer rimeHdrLen,
      joinReassembly a.now a.frame a.hdr a.current = some s ∧
      uncompressHdr cfg a.frame a.hdr s.sicslowpanBuf = some (buffer, rimeHdrLen, unc) ∧
      rimeHdrLen ≤ a.frame.datalen ∧ len = a.frame.datalen - rimeHdrLen := by
  unfold counted at h
  split_ifs at h with hrefuses
  obtain ⟨⟨rime, unc'⟩, hlengths, h⟩ := Option.bind_eq_some_iff.mp h
  split_ifs at h with hlen
  simp only [Option.some.injEq, Prod.mk.injEq] at h
  obtain ⟨rfl, rfl, rfl⟩ := h
  rcases hjoin : joinReassembly a.now a.frame a.hdr a.current with - | s
  · exact absurd (joinReassembly_eq_none_iff.mp hjoin) hrefuses
  rw [← uncompressHdr_lengths cfg a s.sicslowpanBuf] at hlengths
  obtain ⟨⟨buffer, lengths⟩, hhdr, rfl⟩ := Option.map_eq_some_iff.mp hlengths
  exact ⟨rfl, s, buffer, rime, rfl, hhdr, Nat.le_of_not_lt hlen, rfl⟩

/-- The headers are at the start of the packet. -/
lemma counted_pos (h : a.counted cfg = some (pos, unc, len)) (hfirst : a.hdr.rimeHdrLen ≠ fragnHdrLen) :
    pos = 0 := by
  have hoffset : a.hdr.fragOffset = 0 := readFragHdr_fragOffset hfirst
  rw [(counted_eq_some h).1, hoffset]
  rfl

/-- A frame that is not counted is refused, or its headers are not known or not all there. -/
lemma counted_eq_none (h : a.counted cfg = none) :
    joinReassembly a.now a.frame a.hdr a.current = none ∨
    ∃ s, joinReassembly a.now a.frame a.hdr a.current = some s ∧
      ∀ buffer rimeHdrLen unc,
        uncompressHdr cfg a.frame a.hdr s.sicslowpanBuf = some (buffer, rimeHdrLen, unc) →
        a.frame.datalen < rimeHdrLen := by
  rcases hjoin : joinReassembly a.now a.frame a.hdr a.current with - | s
  · exact .inl rfl
  refine .inr ⟨s, rfl, fun buffer rime unc hhdr => ?_⟩
  have hnot : ¬Refuses a.frame a.current a.hdr := fun hrefuses => by
    rw [joinReassembly_eq_none_iff.mpr hrefuses] at hjoin
    cases hjoin
  have hlengths := uncompressHdr_lengths cfg a s.sicslowpanBuf
  rw [hhdr, Option.map_some] at hlengths
  rw [counted, if_neg hnot, ← hlengths, Option.bind_some] at h
  by_contra hle
  rw [if_neg hle] at h
  cases h

/-- The buffer behind a frame that is counted: the uncompressed headers, and the payload. -/
lemma bufferAfter_of_counted (h : a.counted cfg = some (pos, unc, len)) :
    ∃ rimeHdrLen, rimeHdrLen + len = a.frame.datalen ∧ a.headerLengths cfg = some (rimeHdrLen, unc) ∧
      ∀ b, ∃ buffer, uncompressHdr cfg a.frame a.hdr b = some (buffer, rimeHdrLen, unc) ∧
        a.bufferAfter cfg b =
          memcpy buffer (unc + pos) (copyBytes a.frame.data rimeHdrLen len) := by
  obtain ⟨rfl, s, buffer, rime, hjoin, hhdr, hle, rfl⟩ := counted_eq_some h
  have hlengths := uncompressHdr_lengths cfg a s.sicslowpanBuf
  rw [hhdr, Option.map_some] at hlengths
  refine ⟨rime, Nat.add_sub_cancel' hle, hlengths.symm, fun b => ?_⟩
  rw [← uncompressHdr_lengths cfg a b] at hlengths
  obtain ⟨⟨buffer', lengths⟩, hhdr', hsnd⟩ := Option.map_eq_some_iff.mp hlengths.symm
  obtain rfl : lengths = (rime, unc) := hsnd
  have hcurrent : (a.withBuffer b).current = { a.current with sicslowpanBuf := b } :=
    cancelExpired_buffer _ _ _
  have hhdrs : (a.withBuffer b).hdr = a.hdr := by
    unfold hdr
    rw [hcurrent]
    rfl
  have hjoin' : joinReassembly a.now a.frame (a.withBuffer b).hdr (a.withBuffer b).current =
      some { s with sicslowpanBuf := b } := by
    rw [hhdrs, hcurrent, joinReassembly_buffer, hjoin]
    rfl
  refine ⟨buffer', hhdr', ?_⟩
  have hinput := input_taken (a := a.withBuffer b) hjoin' (by rw [hhdrs]; exact hhdr')
  rw [hhdrs] at hinput
  exact (congrArg (fun r => r.1.sicslowpanBuf) hinput).trans
    (copyPayload_buffer a.frame a.hdr rime unc _ hle)

/-- The payload is written. -/
lemma writes_payload (h : a.counted cfg = some (pos, unc, len)) {k : ℕ} (hlow : pos + unc ≤ k)
    (hhigh : k < pos + unc + len) : a.Writes cfg k := by
  obtain ⟨rime, -, -, hbuffer⟩ := bufferAfter_of_counted h
  have hlen : (copyBytes a.frame.data rime len).length = len := by simp [copyBytes]
  intro b b'
  obtain ⟨buffer, -, hb⟩ := hbuffer b
  obtain ⟨buffer', -, hb'⟩ := hbuffer b'
  rw [hb, hb']
  exact memcpy_same (by omega) (by omega) rfl

/-- Headers that are sent as they are, are written. -/
lemma writes_ipv6 (hiphc : ¬a.Iphc cfg) (h : a.counted cfg = some (pos, unc, len)) {k : ℕ}
    (hk : k < pos + unc) (hlow : pos ≤ k) : a.Writes cfg k := by
  obtain ⟨rime, -, hlengths, hbuffer⟩ := bufferAfter_of_counted h
  have hfirst : a.hdr.rimeHdrLen ≠ fragnHdrLen := by
    intro hfragn
    rw [headerLengths, if_pos hfragn, Option.some.injEq, Prod.mk.injEq] at hlengths
    omega
  obtain rfl := counted_pos h hfirst
  rw [headerLengths, if_neg hfirst, if_neg hiphc] at hlengths
  split_ifs at hlengths with hdispatch
  simp only [Option.some.injEq, Prod.mk.injEq] at hlengths
  obtain ⟨rfl, rfl⟩ := hlengths
  intro b b'
  obtain ⟨buffer, hhdr, hb⟩ := hbuffer b
  obtain ⟨buffer', hhdr', hb'⟩ := hbuffer b'
  have hnot : ¬ (cfg.compression = .hc06 ∧
      a.frame.data a.hdr.rimeHdrLen &&& 0xe0 = dispatchIphc) := fun h => hiphc ⟨hfirst, h⟩
  rw [uncompressHdr, if_neg hfirst, if_neg hnot, if_pos hdispatch, Option.some.injEq,
    Prod.mk.injEq] at hhdr hhdr'
  rw [hb, hb', memcpy_of_notMem (.inl (by omega)), memcpy_of_notMem (.inl (by omega)), ← hhdr.1,
    ← hhdr'.1]
  exact memcpy_same (Nat.zero_le _) (by simpa [copyBytes] using hk) rfl

/-- Of compressed headers, the fields that the frame has are written. -/
lemma writes_iphc (hiphc : a.Iphc cfg) (h : a.counted cfg = some (pos, unc, len)) {k : ℕ}
    (hk : k < pos + unc) (hbrings : a.BringsHeader cfg k) : a.Writes cfg k := by
  obtain ⟨rime, -, hlengths, hbuffer⟩ := bufferAfter_of_counted h
  obtain rfl := counted_pos h hiphc.1
  rw [headerLengths, if_neg hiphc.1, if_pos hiphc, Option.some.injEq, iphcLengths] at hlengths
  rcases haddrs : iphcAddrsEnd cfg.contexts a.frame.data a.frame.sender a.frame.receiver
    a.hdr.rimeHdrLen with - | ptr
  · rw [haddrs] at hlengths
    simp only [Prod.mk.injEq] at hlengths
    omega
  rw [haddrs] at hlengths
  simp only at hlengths
  obtain ⟨hproto, hdst, hchksum⟩ := hbrings hiphc ptr haddrs
  intro b b'
  obtain ⟨buffer, hhdr, hb⟩ := hbuffer b
  obtain ⟨buffer', hhdr', hb'⟩ := hbuffer b'
  have hsame := uncompressHdrHc06_same a.hdr.fragSize a.frame.datalen (ipHdrAt b, udpHdrAt b)
    (ipHdrAt b', udpHdrAt b') haddrs
  rw [uncompressHdr, if_neg hiphc.1, if_pos hiphc.2] at hhdr hhdr'
  simp only [Option.some.injEq, Prod.mk.injEq] at hhdr hhdr'
  rw [hb, hb', memcpy_of_notMem (.inl (by omega)), memcpy_of_notMem (.inl (by omega)), ← hhdr.1,
    ← hhdr'.1]
  clear hb hb' hbuffer hhdr hhdr'
  generalize uncompressHdrHc06 cfg.contexts a.frame.data a.frame.sender a.frame.receiver
    a.hdr.rimeHdrLen a.hdr.fragSize a.frame.datalen (ipHdrAt b, udpHdrAt b) = r at hsame ⊢
  generalize uncompressHdrHc06 cfg.contexts a.frame.data a.frame.sender a.frame.receiver
    a.hdr.rimeHdrLen a.hdr.fragSize a.frame.datalen (ipHdrAt b', udpHdrAt b') = r' at hsame ⊢
  rcases Nat.lt_or_ge k uipIphLen with hip | hudp
  · rw [memcpy_of_notMem (.inl hip), memcpy_of_notMem (.inl hip)]
    have hbytes := ipHdrBytes_same hsame.ip (fun h6 => hsame.proto (hproto h6))
      (fun h24 => hsame.destipaddr (hdst h24 hip))
    refine (memcpy_same (Nat.zero_le _) ?_ hbytes).symm
    rw [Nat.zero_add, ipHdrBytes_length]
    exact hip
  · have hnhc : IsNhcUdp a.frame.data a.hdr.rimeHdrLen ptr := by
      by_contra hnot
      rw [if_neg hnot, Prod.mk.injEq] at hlengths
      omega
    rw [if_pos hnhc, Prod.mk.injEq] at hlengths
    have hbytes := udpHdrBytes_same (k := k - uipIphLen) (hsame.udp hnhc) fun h6 =>
      hsame.udpchksum hnhc (hchksum (by unfold uipIphLen at *; omega))
    refine (memcpy_same hudp ?_ hbytes).symm
    rw [show (udpHdrBytes r.udp).length = uipUdphLen from rfl]
    omega

/-- What a frame covers, it writes. -/
lemma Covers.writes {k : ℕ} (h : a.Covers cfg k) : a.Writes cfg k := by
  obtain ⟨pos, unc, len, hcounted, hlow, hhigh, hbrings⟩ := h
  by_cases hhdr : k < pos + unc
  · by_cases hiphc : a.Iphc cfg
    · exact writes_iphc hiphc hcounted hhdr (hbrings hhdr)
    · exact writes_ipv6 hiphc hcounted hhdr hlow
  · exact writes_payload hcounted (Nat.le_of_not_lt hhdr) hhigh

/-- What is counted under the condition is covered. -/
lemma Adds.covers {before : List Arrival} (h : a.counted cfg = some (pos, unc, len))
    (hadds : a.Adds cfg before pos unc len) {k : ℕ} (hlow : pos ≤ k)
    (hhigh : k < pos + unc + len) : a.Covers cfg k :=
  ⟨pos, unc, len, h, hlow, hhigh, hadds.headers k hlow⟩

/-- What a fragment does that is counted. -/
lemma input_counted (h : a.counted cfg = some (pos, unc, len)) (hsize : 0 < a.hdr.fragSize) :
    ∃ s, s.packetId = a.packetId ∧
      (s.processedIpLen = a.current.processedIpLen + UInt16.ofNat unc + UInt16.ofNat len ∨
        s.processedIpLen = a.hdr.fragSize ∧
          a.hdr.fragSize.toNat ≤ a.current.processedIpLen.toNat + unc + len) ∧
      input cfg a.now a.frame a.found =
        if s.processedIpLen = 0 ∨ s.processedIpLen = s.sicslowpanLen then
          ({ s with sicslowpanLen := 0, processedIpLen := 0 },
            some (copyBytes s.sicslowpanBuf 0 s.sicslowpanLen.toNat))
        else (s, none) := by
  obtain ⟨rfl, s, buffer, rime, hjoin, hhdr, hle, rfl⟩ := counted_eq_some h
  obtain ⟨hid, hprocessed⟩ := joinReassembly_eq_some hsize hjoin
  rw [input_taken hjoin hhdr, copyPayload, if_neg (Nat.not_lt.mpr hle)]
  refine ⟨_, ?_, ?_, rfl⟩
  · rw [countOctets, if_pos hsize]
    exact hid
  · rw [countOctets, if_pos hsize]
    simp only
    rcases hdr_cases hsize with ⟨-, ⟨hfirst, hlast⟩ | ⟨hfirst, hrime, hlast⟩⟩
    · rw [hfirst, hlast, hprocessed]
      exact .inl rfl
    · rw [uncompressHdr, if_pos hrime] at hhdr
      simp only [Option.some.injEq, Prod.mk.injEq] at hhdr
      obtain ⟨-, rfl, rfl⟩ := hhdr
      rw [hfirst, hprocessed]
      by_cases hreached : a.current.processedIpLen.toNat + a.frame.datalen ≥
          a.hdr.fragSize.toNat + fragnHdrLen
      · rw [hlast, decide_eq_true hreached]
        refine .inr ⟨rfl, ?_⟩
        rw [hrime]
        omega
      · rw [hlast, decide_eq_false hreached]
        refine .inl ?_
        rw [show UInt16.ofNat 0 = 0 from rfl, UInt16.add_zero]
        rfl

/-- A frame that is not counted is dropped; a reassembly that is going on stays as it is. -/
lemma input_not_counted (h : a.counted cfg = none) :
    (input cfg a.now a.frame a.found).2 = none ∧
    (input cfg a.now a.frame a.found).1.processedIpLen = a.current.processedIpLen ∧
    (0 < a.current.processedIpLen →
      (input cfg a.now a.frame a.found).1.packetId = a.current.packetId) := by
  rcases counted_eq_none h with hjoin | ⟨s, hjoin, hshort⟩
  · rw [input_eq, hjoin]
    exact ⟨rfl, rfl, fun _ => rfl⟩
  obtain ⟨hprocessed, hgoing⟩ := joinReassembly_going hjoin
  rcases hhdr : uncompressHdr cfg a.frame a.hdr s.sicslowpanBuf with - | ⟨buffer, rime, unc⟩
  · rw [input_eq, hjoin]
    simp only
    rw [hhdr]
    exact ⟨rfl, hprocessed, hgoing⟩
  · rw [input_taken hjoin hhdr, copyPayload, if_pos (hshort buffer rime unc hhdr)]
    exact ⟨rfl, hprocessed, hgoing⟩

/-- A packet in one frame leaves no reassembly behind. -/
lemma input_unfragmented (h : a.counted cfg = some (pos, unc, len))
    (hsize : ¬ 0 < a.hdr.fragSize) : (input cfg a.now a.frame a.found).1.processedIpLen = 0 := by
  obtain ⟨-, s, buffer, rime, hjoin, hhdr, hle, -⟩ := counted_eq_some h
  have hzero : a.hdr.fragSize = 0 := by
    by_contra hne
    exact hsize (UInt16.pos_iff_ne_zero.mpr hne)
  have hidle : a.current.processedIpLen = 0 := by
    by_contra hne
    rw [joinReassembly, if_pos (UInt16.pos_iff_ne_zero.mpr hne), if_pos (.inr hzero)] at hjoin
    cases hjoin
  have hs : s.processedIpLen = 0 := (joinReassembly_going hjoin).1.trans hidle
  rw [input_taken hjoin hhdr, copyPayload, if_neg (Nat.not_lt.mpr hle)]
  simp only [countOctets, gt_iff_lt, hsize, if_false, hs, true_or, if_true]

end Arrival

/-- A packet that is sent leaves the reassembly alone, unless it is given up half way, but for the
count, which is zero behind a packet of several fragments. -/
lemma output_kept (cfg : LowpanConfig) (uipLladdr : Lladdr) (c : Call) (s : Lowpan) :
    (output cfg uipLladdr c.dest c.packet c.alloc s).1.packetId = s.packetId ∧
    (¬c.Abandons cfg uipLladdr →
      (output cfg uipLladdr c.dest c.packet c.alloc s).1.processedIpLen = s.processedIpLen ∨
      (output cfg uipLladdr c.dest c.packet c.alloc s).1.processedIpLen = 0) := by
  have hcases := output_cases cfg uipLladdr c s
  unfold output at hcases ⊢
  dsimp only at hcases ⊢
  split_ifs at hcases ⊢ with hsplit halloc hok
  · exact ⟨rfl, fun _ => .inr rfl⟩
  · refine ⟨rfl, fun hnot => ?_⟩
    rcases hcases with ⟨-, _, heq⟩ | ⟨-, heq⟩ | ⟨-, _, _, _, _, heq, -, hiff, -⟩ <;>
      rw [Prod.mk.injEq, Prod.mk.injEq] at heq
    · cases heq.2.1
    · cases heq.2.1
    · exact absurd (heq.2.2.trans (hiff.mpr hnot)) Bool.false_ne_true
  · exact ⟨rfl, fun _ => .inl rfl⟩
  · exact ⟨rfl, fun _ => .inl rfl⟩

end Frame

/-! ## The count -/

section Count
variable {cfg : LowpanConfig} {uipLladdr : Lladdr} {r r' : Receiver} {now : ℕ} {p : Packetbuf}
  {log before : List Arrival} {a : Arrival} {id : PacketId} {n : UInt16}

/-- What is covered was covered by fragments of the packet; all of it is covered, or as many octets
are as were counted. -/
structure Counts (cfg : LowpanConfig) (log : List Arrival) (id : PacketId) (n : UInt16) : Prop where
  belongs : ∀ y ∈ log, ∀ k, y.Covers cfg k → y.packetId = id
  count : (∀ k < id.size.toNat, ∃ y ∈ log, y.Covers cfg k) ∨
    ∃ octets : Finset ℕ, octets.card = n.toNat ∧
      ∀ k ∈ octets, k < id.size.toNat ∧ ∃ y ∈ log, y.Covers cfg k

/-- The count is right, unless no reassembly is going on or `output` has left its own count. -/
def Receiver.Sound (cfg : LowpanConfig) (r : Receiver) : Prop :=
  (∀ h ∈ r.handed, h.Written cfg) ∧
    (r.lowpan.processedIpLen = 0 ∨ r.spoiled = true ∨
      Counts cfg r.log r.lowpan.packetId r.lowpan.processedIpLen)

/-- A frame that is not counted does not matter. -/
lemma Counts.cons (h : Counts cfg log id n) (hnone : a.counted cfg = none) :
    Counts cfg (a :: log) id n := by
  have hcovered : ∀ k, (∃ y ∈ log, y.Covers cfg k) → ∃ y ∈ a :: log, y.Covers cfg k := by
    rintro k ⟨y, hy, hk⟩
    exact ⟨y, List.mem_cons_of_mem _ hy, hk⟩
  constructor
  · intro y hy k hk
    rcases List.mem_cons.mp hy with rfl | hy
    · obtain ⟨_, _, _, hcounted, -⟩ := hk
      rw [hnone] at hcounted
      cases hcounted
    · exact h.belongs y hy k hk
  · rcases h.count with hall | ⟨octets, hcard, hoctets⟩
    · exact .inl fun k hk => hcovered k (hall k hk)
    · exact .inr ⟨octets, hcard, fun k hk => ⟨(hoctets k hk).1, hcovered k (hoctets k hk).2⟩⟩

/-- All octets are covered when their number is the size. -/
lemma Counts.complete (h : Counts cfg log id id.size) :
    ∀ k < id.size.toNat, ∃ y ∈ log, y.packetId = id ∧ y.Covers cfg k := by
  have hcovered : ∀ k < id.size.toNat, ∃ y ∈ log, y.Covers cfg k := by
    rcases h.count with hall | ⟨octets, hcard, hcovered⟩
    · exact hall
    · intro k hk
      have hsub : octets ⊆ Finset.range id.size.toNat :=
        fun k hk => Finset.mem_range.mpr (hcovered k hk).1
      have heq := Finset.eq_of_subset_of_card_le hsub (by rw [Finset.card_range, hcard])
      exact (hcovered k (heq ▸ Finset.mem_range.mpr hk)).2
  intro k hk
  obtain ⟨y, hy, hcovers⟩ := hcovered k hk
  exact ⟨y, hy, h.belongs y hy k hcovers, hcovers⟩

/-- The octets of the packet that were covered before the fragment joined. -/
lemma Receiver.Sound.prior (h : r.Sound cfg) (hclean : r.spoiledBefore now p = false)
    {pos unc len : ℕ} (hcounted : (r.arrival now p).counted cfg = some (pos, unc, len))
    (hsize : 0 < (r.arrival now p).hdr.fragSize) :
    Counts cfg (r.before now p) (r.arrival now p).packetId
      (r.arrival now p).current.processedIpLen := by
  unfold Receiver.before
  by_cases hstarts : (r.arrival now p).Starts
  · rw [if_pos hstarts]
    refine ⟨by simp, .inr ⟨∅, ?_, by simp⟩⟩
    rw [hstarts.1]
    rfl
  · have hgoing : (r.arrival now p).current.processedIpLen ≠ 0 := fun h0 => hstarts ⟨h0, hsize⟩
    have hfound : (r.arrival now p).current = r.lowpan :=
      (Arrival.current_eq _).resolve_left hgoing
    have hunspoiled : r.spoiled = false := by
      simpa only [Receiver.spoiledBefore, hstarts, decide_false, Bool.not_false,
        Bool.true_and] using hclean
    obtain ⟨-, s, -, -, hjoin, -⟩ := Arrival.counted_eq_some hcounted
    obtain ⟨hid, -⟩ := Arrival.joinReassembly_eq_some hsize hjoin
    have hsame := (Arrival.joinReassembly_going hjoin).2 (UInt16.pos_iff_ne_zero.mpr hgoing)
    rw [if_neg hstarts, ← hid, hsame, hfound]
    rw [hfound] at hgoing
    refine (h.2.resolve_left hgoing).resolve_left ?_
    rw [hunspoiled]
    exact Bool.false_ne_true

/-- The octets that a fragment adds are counted with those that were covered before. -/
lemma Arrival.Adds.union {pos unc len : ℕ} (hadds : a.Adds cfg before pos unc len)
    (hcounted : a.counted cfg = some (pos, unc, len)) {octets : Finset ℕ}
    (hcovered : ∀ k ∈ octets, k < a.hdr.fragSize.toNat ∧ ∃ y ∈ before, y.Covers cfg k) :
    ∃ octets' : Finset ℕ, octets'.card = octets.card + unc + len ∧
      octets'.card ≤ a.hdr.fragSize.toNat ∧
      ∀ k ∈ octets', k < a.hdr.fragSize.toNat ∧ ∃ y ∈ a :: before, y.Covers cfg k := by
  let added := Finset.Ico pos (pos + unc + len)
  have hdisjoint : Disjoint octets added := by
    rw [Finset.disjoint_left]
    intro k hk hnew
    obtain ⟨hlow, hhigh⟩ := Finset.mem_Ico.mp hnew
    obtain ⟨-, y, hy, hcovers⟩ := hcovered k hk
    exact hadds.new k hlow hhigh y hy hcovers
  have hmem : ∀ k ∈ octets ∪ added, k < a.hdr.fragSize.toNat ∧ ∃ y ∈ a :: before, y.Covers cfg k := by
    intro k hk
    rcases Finset.mem_union.mp hk with hk | hk
    · obtain ⟨hfits, y, hy, hcovers⟩ := hcovered k hk
      exact ⟨hfits, y, List.mem_cons_of_mem _ hy, hcovers⟩
    · obtain ⟨hlow, hhigh⟩ := Finset.mem_Ico.mp hk
      exact ⟨hadds.fits k hlow hhigh, a, List.mem_cons_self .., hadds.covers hcounted hlow hhigh⟩
  refine ⟨octets ∪ added, ?_, ?_, hmem⟩
  · rw [Finset.card_union_of_disjoint hdisjoint, Nat.card_Ico]
    omega
  · rw [← Finset.card_range a.hdr.fragSize.toNat]
    exact Finset.card_le_card fun k hk => Finset.mem_range.mpr (hmem k hk).1

/-- A fragment that meets the condition keeps the count right, and it is zero only if all octets are
covered. -/
lemma Counts.step {pos unc len : ℕ} {processed : UInt16}
    (h : Counts cfg before a.packetId a.current.processedIpLen)
    (hcounted : a.counted cfg = some (pos, unc, len)) (hsize : 0 < a.hdr.fragSize)
    (hok : a.Adds cfg before pos unc len ∨ a.AllCovered cfg (a :: before))
    (hprocessed : processed = a.current.processedIpLen + UInt16.ofNat unc + UInt16.ofNat len ∨
      processed = a.hdr.fragSize ∧
        a.hdr.fragSize.toNat ≤ a.current.processedIpLen.toNat + unc + len) :
    Counts cfg (a :: before) a.packetId processed ∧
      (processed = 0 → a.AllCovered cfg (a :: before)) := by
  have hbelongs : ∀ y ∈ a :: before, ∀ k, y.Covers cfg k → y.packetId = a.packetId := by
    intro y hy k hk
    rcases List.mem_cons.mp hy with rfl | hy
    · rfl
    · exact h.belongs y hy k hk
  have hcomplete : a.AllCovered cfg (a :: before) →
      Counts cfg (a :: before) a.packetId processed ∧
        (processed = 0 → a.AllCovered cfg (a :: before)) := by
    intro hall
    refine ⟨⟨hbelongs, .inl fun k hk => ?_⟩, fun _ => hall⟩
    obtain ⟨y, hy, -, hcovers⟩ := hall k hk
    exact ⟨y, hy, hcovers⟩
  rcases hok with hadds | hall
  swap
  · exact hcomplete hall
  rcases h.count with hall | ⟨octets, hcard, hcovered⟩
  · refine hcomplete fun k hk => ?_
    obtain ⟨y, hy, hcovers⟩ := hall k hk
    exact ⟨y, List.mem_cons_of_mem _ hy, h.belongs y hy k hcovers, hcovers⟩
  obtain ⟨octets', hunion, hle, hmem⟩ := hadds.union hcounted hcovered
  rw [hcard] at hunion
  have hsum : processed.toNat = a.current.processedIpLen.toNat + unc + len := by
    have hbound := (Arrival.hdr_cases hsize).1
    rcases hprocessed with hsum | ⟨hlast, hreached⟩
    · rw [hsum, UInt16.toNat_add, UInt16.toNat_add, UInt16.toNat_ofNat', UInt16.toNat_ofNat']
      omega
    · rw [hlast]
      omega
  refine ⟨⟨hbelongs, .inr ⟨octets', hunion.trans hsum.symm, hmem⟩⟩, fun hzero => ?_⟩
  -- a reassembly that starts counts at least one octet
  rw [hzero] at hsum
  have hnone : a.current.processedIpLen.toNat + unc + len = 0 := hsum.symm
  have hidle : a.current.processedIpLen = 0 := UInt16.toNat_inj.mp (by
    rw [show (0 : UInt16).toNat = 0 from rfl]
    omega)
  have hpos := hadds.starts ⟨hidle, hsize⟩
  omega

/-- A packet that is handed up while all its octets are covered is written. -/
lemma Receiver.hands_written (hall : (r.arrival now p).AllCovered cfg (r.arrival now p :: r.before now p))
    (hlen : ∀ packet, (input cfg now p r.lowpan).2 = some packet →
      packet.length = (r.arrival now p).hdr.fragSize.toNat) :
    ∀ h ∈ r.hands cfg now p, h.Written cfg := by
  intro h hh
  unfold Receiver.hands at hh
  rcases hpacket : (input cfg now p r.lowpan).2 with - | packet
  · rw [hpacket] at hh
    cases hh
  rw [hpacket] at hh
  dsimp only at hh
  split_ifs at hh
  · obtain rfl := List.mem_singleton.mp hh
    intro k hk
    have hlength := hlen packet hpacket
    obtain ⟨y, hy, hid, hcovers⟩ := hall k (hlength ▸ hk)
    obtain ⟨hs, ht, hl⟩ := PacketId.mk.inj hid
    exact ⟨y, hy, hs, ht, by rw [hlength, hl], hcovers.writes⟩
  · cases hh

/-- A frame that is not counted leaves the count right. -/
lemma Receiver.Sound.not_counted (h : r.Sound cfg) (hnone : (r.arrival now p).counted cfg = none) :
    (r.arrive cfg now p).lowpan.processedIpLen = 0 ∨ (r.arrive cfg now p).spoiled = true ∨
      Counts cfg (r.arrive cfg now p).log (r.arrive cfg now p).lowpan.packetId
        (r.arrive cfg now p).lowpan.processedIpLen := by
  obtain ⟨-, hprocessed, hid⟩ := Arrival.input_not_counted hnone
  rcases eq_or_ne (r.arrival now p).current.processedIpLen 0 with hzero | hgoing
  · exact .inl (hprocessed.trans hzero)
  have hnot : ¬ (r.arrival now p).Starts := fun hstarts => hgoing hstarts.1
  have hfound : (r.arrival now p).current = r.lowpan :=
    (Arrival.current_eq _).resolve_left hgoing
  have hid := hid (UInt16.pos_iff_ne_zero.mpr hgoing)
  rw [hfound] at hgoing hprocessed hid
  simp only [Receiver.arrive, Receiver.spoiledBefore, Receiver.before, hnot, decide_false,
    Bool.not_false, Bool.true_and, if_false]
  refine .inr ((h.2.resolve_left hgoing).imp_right fun hcounts => ?_)
  have hid : (input cfg now p r.lowpan).1.packetId = _ := hid
  have hprocessed : (input cfg now p r.lowpan).1.processedIpLen = _ := hprocessed
  rw [hid, hprocessed]
  exact hcounts.cons hnone

/-- What a frame that meets the condition does. -/
lemma Receiver.Sound.arrive (h : r.Sound cfg) (hok : r.AddsOctets cfg (.frame now p)) :
    (r.arrive cfg now p).Sound cfg := by
  rcases hcounted : (r.arrival now p).counted cfg with - | ⟨pos, unc, len⟩
  · have hsilent : (input cfg now p r.lowpan).2 = none := (Arrival.input_not_counted hcounted).1
    refine ⟨?_, h.not_counted hcounted⟩
    simp only [Receiver.arrive, Receiver.hands, hsilent]
    exact h.1
  by_cases hsize : 0 < (r.arrival now p).hdr.fragSize
  swap
  · refine ⟨?_, .inl (Arrival.input_unfragmented hcounted hsize)⟩
    simp only [Receiver.arrive, Receiver.hands]
    rcases (input cfg now p r.lowpan).2 with - | packet
    · exact h.1
    · simp only [gt_iff_lt, hsize, if_false]
      exact h.1
  obtain ⟨s, hid, hprocessed, hinput⟩ := Arrival.input_counted hcounted hsize
  have hlen : s.sicslowpanLen = (r.arrival now p).hdr.fragSize := congrArg PacketId.size hid
  have hcond := hok pos unc len hcounted hsize
  have hcounts := fun hclean => (h.prior hclean hcounted hsize).step hcounted hsize
    (hcond.imp_left And.right) hprocessed
  have hinput : input cfg now p r.lowpan = _ := hinput
  by_cases hdone : s.processedIpLen = 0 ∨ s.processedIpLen = s.sicslowpanLen
  · rw [if_pos hdone] at hinput
    refine ⟨?_, .inl (by rw [Receiver.arrive, hinput])⟩
    -- under both conditions the octets are covered by fragments of the packet
    have hall : (r.arrival now p).AllCovered cfg (r.arrival now p :: r.before now p) := by
      rcases hcond with ⟨hclean, -⟩ | hall
      · obtain ⟨hright, hzero⟩ := hcounts hclean
        rcases hdone with hnone | hfull
        · exact hzero hnone
        · rw [hfull, hlen] at hright
          exact hright.complete
      · exact hall
    have hwritten := Receiver.hands_written hall fun packet hpacket => by
      rw [hinput] at hpacket
      rw [← Option.some.inj hpacket, ← hlen]
      simp [copyBytes]
    intro handed hhanded
    rcases List.mem_append.mp hhanded with hnew | hold
    · exact hwritten handed hnew
    · exact h.1 handed hold
  · rw [if_neg hdone] at hinput
    constructor
    · simp only [Receiver.arrive, Receiver.hands, hinput]
      exact h.1
    · refine .inr ?_
      simp only [Receiver.arrive, hinput]
      rcases hclean : r.spoiledBefore now p with - | -
      · exact .inr (hid ▸ (hcounts hclean).1)
      · exact .inl rfl

/-- What a packet does that is sent. -/
lemma Receiver.Sound.send (h : r.Sound cfg) (c : Call) : (r.send cfg uipLladdr c).Sound cfg := by
  obtain ⟨hid, hprocessed⟩ := output_kept cfg uipLladdr c r.lowpan
  refine ⟨h.1, ?_⟩
  by_cases hgives : c.Abandons cfg uipLladdr
  · exact .inr (.inl (by simp [Receiver.send, hgives]))
  · rcases hprocessed hgives with hprocessed | hzero
    swap
    · exact .inl hzero
    rcases h.2 with hzero | hspoiled | hcounts
    · exact .inl (hprocessed.trans hzero)
    · exact .inr (.inl (by simp [Receiver.send, hspoiled]))
    · refine .inr (.inr ?_)
      dsimp only [Receiver.send]
      rw [hid, hprocessed]
      exact hcounts

lemma Receiver.Sound.step {e : ReceiverEvent} (h : r.Sound cfg) (hok : r.AddsOctets cfg e)
    (hstep : r.step cfg uipLladdr e = .ok r') : r'.Sound cfg := by
  cases e with
  | frame now p =>
    obtain rfl := Except.ok.inj hstep
    exact h.arrive hok
  | output c =>
    obtain rfl := Except.ok.inj hstep
    exact h.send c

end Count

/-- A node that has received nothing. -/
def silent : Receiver := ⟨idleLowpan, [], [], false⟩

end Sicslowpan
end Contiki

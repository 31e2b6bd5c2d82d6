import Contiki.Sicslowpan.Arrivals

/-!
# Frames that cannot be expanded

`uncompress_hdr_hc06` has no result.  When a context is missing it returns with the lengths as they
were, so that the compressed headers pass for payload; a compressed next header that is not UDP is
passed over, and the lengths are those of the IPv6 header.  `input` goes on in both cases.

* `iphcLengths` — the lengths that `uncompress_hdr_hc06` leaves behind, for every frame.
* `unexpandable_kept_iff` — when a frame that cannot be expanded is without consequence.
-/

namespace Contiki
namespace Sicslowpan

/-! ## The parts of the compressed headers -/

section Iphc
variable (contexts : List AddrContext) (buffer : ℕ → UInt8) (sender receiver : Lladdr) (start : ℕ)

/-- The place behind the fields in front of the addresses. -/
def iphcFieldsEnd : ℕ :=
  let iphc0 := buffer start
  let ptr := if buffer (start + 1) &&& iphcCid ≠ 0 then start + 3 else start + 2
  (uncompressTtl buffer iphc0 (uncompressNh buffer iphc0 0 (uncompressTf buffer iphc0 ptr).2).2).2

/-- The place behind the source address; no result when its context is not known. -/
def iphcSrcEnd : Option ℕ :=
  (uncompressSrc contexts buffer sender (buffer (start + 1)) (buffer (start + 2))
    (iphcFieldsEnd buffer start)).map Prod.snd

/-- The place behind the addresses; no result when a context is not known. -/
def iphcAddrsEnd : Option ℕ :=
  (iphcSrcEnd contexts buffer sender start).bind fun ptr =>
    (uncompressDst contexts buffer receiver (buffer (start + 1)) (buffer (start + 2)) .unspecified
      ptr).map Prod.snd

/-- The next header is compressed and is a UDP header. -/
def IsNhcUdp (ptr : ℕ) : Prop := buffer start &&& iphcNhC ≠ 0 ∧ buffer ptr &&& 0xF8 = 0xF0

instance (ptr : ℕ) : Decidable (IsNhcUdp buffer start ptr) := inferInstanceAs (Decidable (_ ∧ _))

/-- What is left in `rime_hdr_len` and `uncomp_hdr_len`. -/
def iphcLengths : ℕ × ℕ :=
  match iphcAddrsEnd contexts buffer sender receiver start with
  | none => (start, 0)
  | some ptr =>
    if IsNhcUdp buffer start ptr then
      ((uncompressUdp buffer ⟨0, 0, 0, 0⟩ ptr).2, uipIphLen + uipUdphLen)
    else (ptr, uipIphLen)

/-- The frame refers to a context that is not known, or to a compressed next header that is not
UDP. -/
def Unexpandable : Prop :=
  ∀ ptr, iphcAddrsEnd contexts buffer sender receiver start = some ptr →
    buffer start &&& iphcNhC ≠ 0 ∧ buffer ptr &&& 0xF8 ≠ 0xF0

variable {contexts buffer sender receiver start}

/-- **The lengths.**  They do not depend on what the buffer held. -/
lemma uncompressHdrHc06_eq_iphcLengths (ipLen : UInt16) (datalen : ℕ) (old : IpHdr × UdpHdr) :
    ((uncompressHdrHc06 contexts buffer sender receiver start ipLen datalen old).rimeHdrLen,
      (uncompressHdrHc06 contexts buffer sender receiver start ipLen datalen old).uncompHdrLen) =
      iphcLengths contexts buffer sender receiver start := by
  simp only [uncompressHdrHc06, iphcLengths, iphcAddrsEnd, iphcSrcEnd, iphcFieldsEnd]
  rcases uncompressTf buffer (buffer start) _ with ⟨⟨vtc, tcflow, flow⟩, p₁⟩
  simp only
  have hnh := uncompressNh_ptr buffer (buffer start) old.1.proto 0 p₁
  generalize uncompressNh buffer (buffer start) old.1.proto p₁ = nh at hnh ⊢
  generalize uncompressNh buffer (buffer start) 0 p₁ = nh' at hnh ⊢
  rcases nh with ⟨proto, p₂⟩
  rcases nh' with ⟨proto', p₂'⟩
  obtain rfl : p₂ = p₂' := hnh
  simp only
  rcases uncompressTtl buffer (buffer start) p₂ with ⟨ttl, p₃⟩
  simp only
  rcases uncompressSrc contexts buffer sender _ _ p₃ with - | ⟨srcipaddr, p₄⟩
  · rfl
  simp only [Option.map_some, Option.bind_some]
  have hdst := uncompressDst_ptr contexts buffer receiver (buffer (start + 1)) (buffer (start + 2))
    old.1.destipaddr .unspecified p₄
  rw [← hdst]
  generalize uncompressDst contexts buffer receiver _ _ old.1.destipaddr p₄ = dst
  rcases dst with - | ⟨destipaddr, p₅⟩
  · rfl
  simp only [Option.map_some, finishLengths]
  by_cases hudp : buffer start &&& iphcNhC ≠ 0 ∧ buffer p₅ &&& 0xF8 = 0xF0
  · rw [if_pos hudp, if_pos (show IsNhcUdp buffer start p₅ from hudp),
      uncompressUdp_ptr buffer old.2 ⟨0, 0, 0, 0⟩ p₅]
  · rw [if_neg hudp, if_neg (show ¬IsNhcUdp buffer start p₅ from hudp)]

/-- Of a frame that cannot be expanded, no UDP header is uncompressed. -/
lemma Unexpandable.lengths (h : Unexpandable contexts buffer sender receiver start) :
    iphcLengths contexts buffer sender receiver start =
        ((iphcAddrsEnd contexts buffer sender receiver start).getD start,
          if iphcAddrsEnd contexts buffer sender receiver start = none then 0 else uipIphLen) := by
  unfold iphcLengths
  rcases haddrs : iphcAddrsEnd contexts buffer sender receiver start with - | ptr
  · rfl
  · have hnot : ¬IsNhcUdp buffer start ptr := fun hudp => (h ptr haddrs).2 hudp.2
    simp only [if_neg hnot]
    rfl

end Iphc

/-! ## Input -/

section Input
variable (cfg : LowpanConfig) (now : ℕ) (p : Packetbuf) (s : Lowpan)

/-- The frame has IPHC headers, behind its fragmentation header. -/
structure IsIphc (f : FragInfo) : Prop where
  compression : cfg.compression = .hc06
  notFragn : f.rimeHdrLen ≠ fragnHdrLen
  inside : f.rimeHdrLen < p.datalen
  dispatch : p.data f.rimeHdrLen &&& 0xe0 = dispatchIphc

/-- The state of the reassembly is the same. -/
structure SameReassembly (s s' : Lowpan) : Prop where
  sicslowpanLen : s'.sicslowpanLen = s.sicslowpanLen
  processedIpLen : s'.processedIpLen = s.processedIpLen
  reassTag : s'.reassTag = s.reassTag
  fragSender : s'.fragSender = s.fragSender

/-- A reassembly is going on to which the frame does not belong. -/
def Refuses (f : FragInfo) : Prop :=
  0 < s.processedIpLen ∧ (f.fragSize = 0 ∨ f.fragSize ≠ s.sicslowpanLen ∨ s.reassTag ≠ f.fragTag ∨
    s.fragSender ≠ p.sender)

instance (f : FragInfo) : Decidable (Refuses p s f) := inferInstanceAs (Decidable (_ ∧ _))

/-- The frame starts a reassembly that was not set up before. -/
def SetsUp (f : FragInfo) : Prop :=
  s.processedIpLen = 0 ∧ 0 < f.fragSize ∧
    (f.fragSize ≠ s.sicslowpanLen ∨ f.fragTag ≠ s.reassTag ∨ p.sender ≠ s.fragSender)

variable {cfg now p s}

lemma joinReassembly_eq_none_iff {f : FragInfo} :
    joinReassembly now p f s = none ↔ Refuses p s f := by
  unfold joinReassembly Refuses
  split_ifs with hgoing hforeign hsize
  · refine ⟨fun _ => ⟨hgoing, ?_⟩, fun _ => rfl⟩
    tauto
  · simp only [false_iff, not_and]
    intro _ h
    refine hforeign ?_
    by_cases hzero : f.fragSize = 0
    · exact .inr hzero
    · exact .inl ⟨UInt16.pos_iff_ne_zero.mpr hzero, h.resolve_left hzero⟩
  · simp only [false_iff]
    exact fun h => hgoing h.1
  · simp only [false_iff]
    exact fun h => hgoing h.1

/-- A frame that joins leaves the state of the reassembly alone, or it sets one up. -/
lemma joinReassembly_same {f : FragInfo} {s' : Lowpan} (h : joinReassembly now p f s = some s') :
    s'.processedIpLen = s.processedIpLen ∧ (f.fragSize = 0 → s.processedIpLen = 0) ∧
      (SameReassembly s s' ↔ ¬SetsUp p s f) := by
  have hnot : ¬Refuses p s f := fun hrefuses => by
    rw [joinReassembly_eq_none_iff.mpr hrefuses] at h
    cases h
  have hzero : f.fragSize = 0 → s.processedIpLen = 0 := by
    intro hsize
    by_contra hne
    exact hnot ⟨UInt16.pos_iff_ne_zero.mpr hne, .inl hsize⟩
  unfold joinReassembly at h
  split_ifs at h with hgoing hforeign hsize
  · cases h
    refine ⟨rfl, hzero, fun _ hsets => ?_, fun _ => ⟨rfl, rfl, rfl, rfl⟩⟩
    rw [hsets.1] at hgoing
    exact absurd hgoing (by decide)
  · cases h
    have hidle : s.processedIpLen = 0 := by
      by_contra hne
      exact hgoing (UInt16.pos_iff_ne_zero.mpr hne)
    refine ⟨rfl, hzero, fun hsame hsets => ?_, fun hsets => ?_⟩
    · obtain ⟨hlen, -, htag, hsender⟩ := hsame
      rcases hsets.2.2 with hne | hne | hne
      · exact hne hlen
      · exact hne htag
      · exact hne hsender
    · have hkept : ¬(f.fragSize ≠ s.sicslowpanLen ∨ f.fragTag ≠ s.reassTag ∨ p.sender ≠ s.fragSender) :=
        fun hne => hsets ⟨hidle, hsize, hne⟩
      rw [not_or, not_or, not_not, not_not, not_not] at hkept
      exact ⟨hkept.1, rfl, hkept.2.1, hkept.2.2⟩
  · cases h
    exact ⟨rfl, hzero, fun _ hsets => hsize hsets.2.1, fun _ => ⟨rfl, rfl, rfl, rfl⟩⟩

/-- A frame with IPHC headers is a first fragment, or not a fragment. -/
lemma IsIphc.frag {processed : UInt16} (h : IsIphc cfg p (readFragHdr p processed)) :
    (readFragHdr p processed).lastFragment = false ∧
      (0 < (readFragHdr p processed).fragSize → (readFragHdr p processed).firstFragment = true) := by
  have hnot := h.notFragn
  unfold readFragHdr at *
  dsimp only at *
  split_ifs at * with hfirst hfragn
  · exact ⟨rfl, fun _ => rfl⟩
  · exact absurd rfl hnot
  · exact ⟨rfl, fun hsize => absurd hsize (by decide)⟩

lemma IsIphc.uncompressHdr {f : FragInfo} (h : IsIphc cfg p f) (buffer : ℕ → UInt8) :
    ∃ buffer', uncompressHdr cfg p f buffer = some (buffer',
      iphcLengths cfg.contexts p.data p.sender p.receiver f.rimeHdrLen) := by
  have hlengths := @uncompressHdrHc06_eq_iphcLengths cfg.contexts p.data p.sender p.receiver
    f.rimeHdrLen f.fragSize p.datalen (ipHdrAt buffer, udpHdrAt buffer)
  unfold Sicslowpan.uncompressHdr
  rw [if_neg h.notFragn, if_pos ⟨h.compression, h.dispatch⟩, ← hlengths]
  exact ⟨_, rfl⟩

/-- What is taken for payload completes a packet, or it is counted. -/
lemma copyPayload_counts {f : FragInfo} {rimeHdrLen unc : ℕ} (hlen : rimeHdrLen ≤ p.datalen)
    (hlast : f.lastFragment = false) (hfirst : 0 < f.fragSize → f.firstFragment = true)
    (hidle : f.fragSize = 0 → s.processedIpLen = 0) (hpos : 0 < unc + (p.datalen - rimeHdrLen))
    (hunc : unc ≤ uipIphLen) :
    (copyPayload p f rimeHdrLen unc s).2 ≠ none ∨
      (copyPayload p f rimeHdrLen unc s).1.processedIpLen ≠ s.processedIpLen := by
  unfold copyPayload countOctets
  rw [if_neg (Nat.not_lt.mpr hlen)]
  dsimp only
  by_cases hsize : f.fragSize > 0
  · rw [if_pos hsize, hlast, hfirst hsize, if_pos rfl, if_neg Bool.false_ne_true]
    dsimp only
    split_ifs with hdone
    · exact .inl (Option.some_ne_none _)
    · right
      dsimp only
      intro heq
      have hsum := congrArg UInt16.toNat heq
      have hle := p.datalen_le
      have hlt := s.processedIpLen.toNat_lt
      rw [UInt16.toNat_add, UInt16.toNat_add, UInt16.toNat_ofNat', UInt16.toNat_ofNat'] at hsum
      unfold packetbufSize at hle
      unfold uipIphLen at hunc
      omega
  · rw [if_neg hsize]
    dsimp only
    have hzero : f.fragSize = 0 := by
      by_contra hne
      exact hsize (UInt16.pos_iff_ne_zero.mpr hne)
    rw [if_pos (.inl (hidle hzero))]
    exact .inl (Option.some_ne_none _)

/-- **Frames that cannot be expanded.**  Nothing is delivered and the state of the reassembly stays what
it is after the check of its timer, if and only if the frame is refused, or it ends in front of the
next header that is not known and sets up no reassembly. -/
theorem unexpandable_kept_iff {a : Arrival} (hiphc : IsIphc cfg a.frame a.hdr)
    (hunexp : Unexpandable cfg.contexts a.frame.data a.frame.sender a.frame.receiver
      a.hdr.rimeHdrLen) :
    ((input cfg a.now a.frame a.found).2 = none ∧
        SameReassembly a.current (input cfg a.now a.frame a.found).1) ↔
      Refuses a.frame a.current a.hdr ∨
      (∃ ptr, iphcAddrsEnd cfg.contexts a.frame.data a.frame.sender a.frame.receiver
          a.hdr.rimeHdrLen = some ptr ∧ a.frame.datalen < ptr) ∧
        ¬SetsUp a.frame a.current a.hdr := by
  obtain ⟨hlast, hfirst⟩ : a.hdr.lastFragment = false ∧
    (0 < a.hdr.fragSize → a.hdr.firstFragment = true) := hiphc.frag
  have hlengths := hunexp.lengths
  rw [Arrival.input_eq]
  generalize a.hdr = f at *
  generalize a.current = s₀
  generalize a.frame = p at *
  generalize a.now = now
  rcases hjoin : joinReassembly now p f s₀ with - | s₁
  · refine ⟨fun _ => .inl (joinReassembly_eq_none_iff.mp hjoin), fun _ => ⟨rfl, rfl, rfl, rfl, rfl⟩⟩
  have hnot : ¬Refuses p s₀ f := fun hrefuses => by
    rw [joinReassembly_eq_none_iff.mpr hrefuses] at hjoin
    cases hjoin
  obtain ⟨hprocessed, hidle, hsame⟩ := joinReassembly_same hjoin
  obtain ⟨buffer, hhdr⟩ := hiphc.uncompressHdr s₁.sicslowpanBuf
  rw [or_iff_right hnot]
  simp only [hhdr]
  have hinside := hiphc.inside
  generalize iphcLengths cfg.contexts p.data p.sender p.receiver f.rimeHdrLen = lengths at hlengths ⊢
  generalize iphcAddrsEnd cfg.contexts p.data p.sender p.receiver f.rimeHdrLen = addrs at hlengths ⊢
  subst hlengths
  dsimp only
  by_cases hshort : p.datalen < addrs.getD f.rimeHdrLen
  · have hsame' : SameReassembly s₀ { s₁ with sicslowpanBuf := buffer } ↔ SameReassembly s₀ s₁ :=
      ⟨fun h => ⟨h.1, h.2, h.3, h.4⟩, fun h => ⟨h.1, h.2, h.3, h.4⟩⟩
    rw [copyPayload, if_pos hshort]
    dsimp only
    rw [hsame', hsame]
    rcases addrs with - | ptr
    · exact absurd hinside (Nat.lt_asymm hshort)
    · exact ⟨fun h => ⟨⟨ptr, rfl, hshort⟩, h.2⟩, fun h => ⟨rfl, h.2⟩⟩
  · rw [Nat.not_lt] at hshort
    constructor
    · rintro ⟨hnone, hkept⟩
      have hpos : 0 < (if addrs = none then 0 else uipIphLen) +
          (p.datalen - addrs.getD f.rimeHdrLen) := by
        rcases addrs with - | ptr
        · rw [if_pos rfl, Nat.zero_add]
          exact Nat.sub_pos_of_lt hinside
        · rw [if_neg (Option.some_ne_none ptr)]
          exact Nat.add_pos_left (by decide) _
      have hunc : (if addrs = none then 0 else uipIphLen) ≤ uipIphLen := by
        split_ifs
        · exact Nat.zero_le _
        · exact Nat.le_refl _
      rcases copyPayload_counts (s := { s₁ with sicslowpanBuf := buffer }) hshort hlast hfirst
        (fun hzero => hprocessed.trans (hidle hzero)) hpos hunc with hsome | hne
      · exact absurd hnone hsome
      · exact absurd (hkept.processedIpLen.trans hprocessed.symm) hne
    · rintro ⟨⟨ptr, rfl, hlt⟩, -⟩
      exact absurd hlt (Nat.not_lt.mpr hshort)

/-- The address of a node. -/
def eui64 : Lladdr := ⟨[0x02, 0x12, 0x74, 0x00, 0x00, 0x00, 0x00, 0x01], rfl⟩

/-- A frame whose source address refers to the context 5. -/
def contextFrame : Packetbuf := .ofFrame ([0x7a, 0xf3, 0x55] ++ List.replicate 10 7) eui64 eui64

/-- A node that has received nothing. -/
def idleLowpan : Lowpan := ⟨fun _ => 0, 0, 0, 0, 0, eui64, ⟨0, 0⟩⟩

/-- The frame arrives there. -/
def contextArrival : Arrival := ⟨0, contextFrame, idleLowpan⟩

lemma isIphc_contextArrival : IsIphc hc06Config contextFrame contextArrival.hdr :=
  ⟨rfl, by decide, by decide, by decide⟩

lemma unexpandable_contextArrival : Unexpandable hc06Config.contexts contextFrame.data eui64 eui64
    contextArrival.hdr.rimeHdrLen := by
  have hnone : iphcAddrsEnd hc06Config.contexts contextFrame.data eui64 eui64
      contextArrival.hdr.rimeHdrLen = none := by decide +kernel
  intro ptr hptr
  rw [hnone] at hptr
  cases hptr

/-- The node holds no context. -/
theorem unexpandable_kept_iff_context :
    ((input hc06Config 0 contextFrame idleLowpan).2 = none ∧
        SameReassembly contextArrival.current (input hc06Config 0 contextFrame idleLowpan).1) ↔
      Refuses contextFrame contextArrival.current contextArrival.hdr ∨
      (∃ ptr, iphcAddrsEnd hc06Config.contexts contextFrame.data eui64 eui64
          contextArrival.hdr.rimeHdrLen = some ptr ∧ contextFrame.datalen < ptr) ∧
        ¬SetsUp contextFrame contextArrival.current contextArrival.hdr :=
  unexpandable_kept_iff (a := contextArrival) isIphc_contextArrival unexpandable_contextArrival

/-- The frame is delivered as it came, as if it were a packet of its own. -/
theorem not_unexpandable_kept : ∃ (cfg : LowpanConfig) (a : Arrival), IsIphc cfg a.frame a.hdr ∧
    Unexpandable cfg.contexts a.frame.data a.frame.sender a.frame.receiver a.hdr.rimeHdrLen ∧
    (input cfg a.now a.frame a.found).2 ≠ none :=
  ⟨hc06Config, contextArrival, isIphc_contextArrival, unexpandable_contextArrival,
    by decide +kernel⟩

end Input
end Sicslowpan
end Contiki

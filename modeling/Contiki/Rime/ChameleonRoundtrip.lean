import Contiki.Rime.Chameleon

/-!
# When a Chameleon header comes back

A header that was packed is unpacked to the same attributes and addresses exactly when its bits are
counted without a wrap of the eight bits of `hdrsize`, and no attribute has lost bits.

* `unpackHeader_restores_iff` — the condition, for a channel and the values of a packet.
-/

namespace Contiki
namespace Rime

variable {size : ℕ}

/-- A packet with these values comes back from every header that is packed for it: the channel, the
values of its list, and the packet behind the header.  Between the two a packet of any content is
received in a buffer of any content. -/
def Restores (channelList : List Channel) (c : Channel) (p₀ : Packetbuf size) : Prop :=
  ∀ (p p' q : Packetbuf size) (stack : ℕ → ℕ → UInt8), p.attr = p₀.attr → p.addr = p₀.addr →
    packHeader c p = some p' → q.data = p'.bytes →
    let r := unpackHeader channelList stack q
    r.1 = some c ∧ (∀ a ∈ c.attrlist, p.SameVal r.2 a.type) ∧ r.2.data = p.bytes

/-- The last entry of each type has a value that survives. -/
def LastKept (c : Channel) (p : Packetbuf size) : Prop :=
  ∀ l₁ a l₂, c.attrlist = l₁ ++ a :: l₂ → (∀ b ∈ l₂, b.type ≠ a.type) → p.Keeps a

/-! ## Headers that are received -/

lemma headerFields_append (p : Packetbuf size) (l₁ l₂ : List AttrEntry) (bitptr : ℕ) :
    headerFields p (l₁ ++ l₂) bitptr =
      headerFields p l₁ bitptr ++ headerFields p l₂ (bitptr + headerSize l₁) := by
  induction l₁ generalizing bitptr with
  | nil => rfl
  | cons a rest ih =>
      have hsize : bitptr + headerSize (a :: rest) = bitptr + a.len.toNat + headerSize rest := by
        rw [Nat.add_assoc]
        rfl
      have hcons : ∀ l, headerFields p (a :: l) bitptr =
          fields (bitptr % 8) a.len.toNat (p.valBytes a.type) ++ headerFields p l (bitptr + a.len.toNat) :=
        fun _ => rfl
      rw [hsize, List.cons_append, hcons, hcons, ih, List.append_assoc]

/-- The fields of one entry in a header. -/
lemma BitHolds.entry {mem : ℕ → UInt8} {hdrptr : ℕ} {p : Packetbuf size} {l₁ l₂ : List AttrEntry} {a : AttrEntry}
    (h : BitHolds mem (8 * hdrptr) (headerFields p (l₁ ++ a :: l₂) 0)) :
    getBits mem (hdrptr + headerSize l₁ / 8) (headerSize l₁ % 8) a.len.toNat =
      readBytes (headerSize l₁ % 8) a.len.toNat (p.valBytes a.type) := by
  rw [headerFields_append, bitHolds_append, width_headerFields] at h
  obtain ⟨hentry, -⟩ := bitHolds_append.mp h.2
  rw [Nat.zero_add, ← bit_place] at hentry
  exact getBits_holds (Nat.mod_lt _ (by omega)) hentry

/-- The header of a packet that is received is read again. -/
lemma unpackHeader_holds {channelList : List Channel} {c : Channel} {p q : Packetbuf size} {hdr : List UInt8}
    (stack : ℕ → ℕ → UInt8) (hlookup : channelLookup channelList c.channelno = some c)
    (hhdr : IsHeader c p hdr) (hq : q.data = hdr ++ p.bytes) :
    ∃ q₂ : Packetbuf size, q₂.data = p.bytes ∧
      BitHolds q₂.mem (8 * (q.dataptr + 2)) (headerFields p c.attrlist 0) ∧
      unpackHeader channelList stack q = (some c, unpackAttrs stack (q.dataptr + 2) c.attrlist 0 q₂) := by
  have hlen : hdrbytesize c.hdrsize + 2 ≤ q.buflen := by
    have hlength := congrArg List.length hq
    rw [Packetbuf.data, length_copyBytes, List.length_append, hhdr.length] at hlength
    omega
  have hchannel : q.data.take 2 = [c.channelno.toUInt8, (c.channelno >>> 8).toUInt8] := by
    rw [hq, List.take_append_of_le_length (by rw [hhdr.length]; omega), hhdr.channel]
  have hholds : Holds q.mem q.dataptr hdr := by
    have hdata := holds_copyBytes q.mem q.dataptr q.buflen
    rw [← Packetbuf.data, hq] at hdata
    exact (holds_append.mp hdata).1
  obtain ⟨q₂, hmem, hdata, hunpack⟩ := unpackHeader_eq stack hlen hchannel hlookup
  refine ⟨q₂, ?_, ?_, hunpack⟩
  · rw [hdata, hq, ← hhdr.length, List.drop_left]
  · rw [hmem]
    exact hhdr.fields _ _ hholds

/-- A type that a list has has a last entry. -/
lemma exists_last_entry {l : List AttrEntry} {t : AttrType} (h : ∃ a ∈ l, a.type = t) :
    ∃ l₁ a l₂, l = l₁ ++ a :: l₂ ∧ a.type = t ∧ ∀ b ∈ l₂, b.type ≠ t := by
  induction l with
  | nil =>
      obtain ⟨a, ha, -⟩ := h
      cases ha
  | cons b rest ih =>
      by_cases hlater : ∃ a ∈ rest, a.type = t
      · obtain ⟨l₁, a, l₂, rfl, hlast⟩ := ih hlater
        exact ⟨b :: l₁, a, l₂, rfl, hlast⟩
      · push Not at hlater
        obtain ⟨a, ha, htype⟩ := h
        rcases List.mem_cons.mp ha with rfl | ha
        · exact ⟨[], a, rest, rfl, htype, hlater⟩
        · exact absurd htype (hlater a ha)

/-! ## Values that are kept -/

lemma Packetbuf.carries_congr {p p₀ : Packetbuf size} (hattr : p.attr = p₀.attr) {a : AttrEntry}
    (h : p₀.Carries a) : p.Carries a := by
  unfold Packetbuf.Carries at h ⊢
  rwa [hattr]

lemma Packetbuf.keeps_congr {p p₀ : Packetbuf size} (hattr : p.attr = p₀.attr) {a : AttrEntry} :
    p.Keeps a ↔ p₀.Keeps a := by
  unfold Packetbuf.Keeps
  rw [hattr]

/-- Up to 255 bits everything comes back whose last entry survives. -/
lemma restores_of_kept {channelList : List Channel} {c : Channel} {p₀ : Packetbuf size}
    (hlookup : channelLookup channelList c.channelno = some c) (hcarries : ∀ a ∈ c.attrlist, p₀.Carries a)
    (htotal : headerSize c.attrlist < 256) (hkept : LastKept c p₀) : Restores channelList c p₀ := by
  intro p p' q stack hattr haddr hpack hq
  have hcarries' : ∀ a ∈ c.attrlist, p.Carries a := fun a ha => Packetbuf.carries_congr hattr (hcarries a ha)
  obtain ⟨hdr, hhdr, hbytes⟩ := packHeader_holds hpack htotal fun a ha => fits_of_carries (hcarries' a ha)
  obtain ⟨q₂, hdata, hholds, hunpack⟩ := unpackHeader_holds stack hlookup hhdr (hq.trans hbytes)
  rw [hunpack]
  refine ⟨rfl, fun a ha => ?_, (unpackAttrs_mem ..).2.trans hdata⟩
  obtain ⟨l₁, b, l₂, hsplit, htype, hlast⟩ := exists_last_entry ⟨a, ha, rfl⟩
  have hb : b ∈ c.attrlist := by
    rw [hsplit]
    exact List.mem_append_right _ List.mem_cons_self
  obtain ⟨r, hr⟩ := unpackAttrs_last stack (q.dataptr + 2) l₁ (a := b)
    (fun b' hb' => htype ▸ hlast b' hb') q₂
  rw [← hsplit] at hr
  rw [hsplit] at hholds
  rw [BitHolds.entry hholds] at hr
  have hkeeps := (Packetbuf.keeps_congr hattr).mpr (hkept l₁ b l₂ hsplit fun b' hb' => htype ▸ hlast b' hb')
  rw [← htype]
  exact (setVal_of_keeps (hcarries' b hb) hkeeps _ _ r).trans hr

/-! ## Values that are lost -/

/-- An empty packet with the values of `p`. -/
def Packetbuf.blank (p : Packetbuf size) : Packetbuf size :=
  { p with
    mem := fun _ => 0
    hdrptr := packetbufHdrSize
    hdrptr_le := le_refl _
    bufptr := 0
    buflen := 0 }

/-- A packet that is received; `g` is what stands behind it in the buffer. -/
def Packetbuf.received (p : Packetbuf size) (l : List UInt8) (g : UInt8) : Packetbuf size :=
  { p.blank with
    mem := fun k => l.getD (k - packetbufHdrSize) g
    buflen := l.length }

lemma Packetbuf.received_data (p : Packetbuf size) (l : List UInt8) (g : UInt8) : (p.received l g).data = l := by
  have hholds : Holds (p.received l g).mem packetbufHdrSize l := holds_of_get fun k hk => by
    show l.getD (packetbufHdrSize + k - packetbufHdrSize) g = l[k]
    rw [Nat.add_sub_cancel_left, List.getD_eq_getElem _ _ hk]
  exact hholds.copyBytes

lemma hdrbytesize_le (n : UInt8) : hdrbytesize n ≤ 32 := by
  have hn := n.toNat_lt
  unfold hdrbytesize
  split_ifs <;> omega

lemma packHeader_blank (c : Channel) (p : Packetbuf size) : ∃ p', packHeader c p.blank = some p' := by
  have hroom := hdrbytesize_le c.hdrsize
  have halloc : ∃ q, p.blank.hdralloc (hdrbytesize c.hdrsize + 2) = some q := by
    refine ⟨_, if_pos ⟨?_, ?_⟩⟩
    · show 48 ≥ hdrbytesize c.hdrsize + 2
      omega
    · show 48 - 48 + 0 + (hdrbytesize c.hdrsize + 2) ≤ 128
      omega
  obtain ⟨q, hq⟩ := halloc
  unfold packHeader
  rw [hq]
  exact ⟨_, rfl⟩

/-- Without a wrap of the size, a value is not restored when its last entry loses it. -/
lemma kept_of_restores {channelList : List Channel} {c : Channel} {p₀ : Packetbuf size}
    (hlookup : channelLookup channelList c.channelno = some c) (hcarries : ∀ a ∈ c.attrlist, p₀.Carries a)
    (htotal : headerSize c.attrlist < 256) (h : Restores channelList c p₀) : LastKept c p₀ := by
  intro l₁ a l₂ hsplit hlast
  by_contra hlost
  have ha : a ∈ c.attrlist := by
    rw [hsplit]
    exact List.mem_append_right _ List.mem_cons_self
  obtain ⟨p', hpack⟩ := packHeader_blank c p₀
  have hcarries' : ∀ a ∈ c.attrlist, p₀.blank.Carries a := hcarries
  have hlost' : ¬ p₀.blank.Keeps a := hlost
  obtain ⟨hdr, hhdr, hbytes⟩ := packHeader_holds hpack htotal fun a ha => fits_of_carries (hcarries' a ha)
  obtain ⟨stack, hstack⟩ := setVal_of_not_keeps (hcarries' a ha) hlost'
  have hq := p₀.received_data p'.bytes 0
  obtain ⟨-, hsame, -⟩ := h p₀.blank p' (p₀.received p'.bytes 0) (fun _ => stack) rfl rfl hpack hq
  obtain ⟨q₂, -, hholds, hunpack⟩ := unpackHeader_holds (fun _ => stack) hlookup hhdr (hq.trans hbytes)
  have hval := hsame a ha
  rw [hunpack] at hval
  obtain ⟨r, hr⟩ := unpackAttrs_last (fun _ => stack) ((p₀.received p'.bytes 0).dataptr + 2) l₁ hlast q₂
  rw [hsplit] at hholds hval
  rw [BitHolds.entry hholds] at hr
  exact hstack _ r (hval.trans hr.symm)

/-! ## Headers whose size wraps -/

lemma packHeader_length {c : Channel} {p p' : Packetbuf size} (h : packHeader c p = some p') :
    p'.bytes.length = hdrbytesize c.hdrsize + 2 + p.bytes.length := by
  have hptr := p.hdrptr_le
  unfold packHeader at h
  cases halloc : p.hdralloc (hdrbytesize c.hdrsize + 2) with
  | none =>
      rw [halloc] at h
      cases h
  | some q =>
      rw [halloc] at h
      cases h
      obtain ⟨hfit, rfl⟩ := Packetbuf.hdralloc_eq halloc
      simp only [Packetbuf.bytes, Packetbuf.hdr, Packetbuf.data, Packetbuf.hdrlen, List.length_append,
        length_copyBytes]
      omega

/-- Where a channel is found, its list is read from what the buffer has behind the number. -/
lemma unpackHeader_some {channelList : List Channel} {c : Channel} {q r : Packetbuf size}
    {stack : ℕ → ℕ → UInt8} (h : unpackHeader channelList stack q = (some c, r)) :
    ∃ q₂ : Packetbuf size, q₂.mem = q.mem ∧ r = unpackAttrs stack (q.dataptr + 2) c.attrlist 0 q₂ := by
  unfold unpackHeader at h
  cases h₁ : q.hdrreduce 2 with
  | none =>
      rw [h₁] at h
      cases h
  | some q₁ =>
      obtain ⟨-, rfl⟩ := Packetbuf.hdrreduce_eq h₁
      simp only [h₁] at h
      split at h
      · cases h
      · split at h
        · cases h
        · rename_i c' hlookup q₂ h₂
          obtain ⟨-, hq₂⟩ := Packetbuf.hdrreduce_eq h₂
          obtain ⟨hc, hr⟩ := Prod.mk.inj h
          obtain rfl := Option.some.inj hc
          exact ⟨q₂, by rw [hq₂], hr.symm⟩

/-- The last byte that is read has the last bit at its end. -/
lemma getBits_last (vallen : ℕ) (hlow : 1 ≤ vallen) {bitpos : ℕ} (hbit : bitpos < 8) (pos : ℕ) :
    ∀ mem, (getBits mem pos bitpos vallen).length = (vallen + 7) / 8 ∧
      ((getBits mem pos bitpos vallen).getLastD 0).toNat.testBit 0 = bitOf mem (8 * pos + bitpos + vallen - 1) := by
  -- a field of one to eight bits, as a byte
  have hfield : ∀ (mem : ℕ → UInt8) (p n : ℕ), 1 ≤ n → n ≤ 8 →
      (UInt8.ofNat (readBits mem p n)).toNat.testBit 0 = bitOf mem (p + n - 1) := by
    intro mem p n hn hn'
    have hlt := readBits_lt mem p n
    have hpow : 2 ^ n ≤ 2 ^ 8 := Nat.pow_le_pow_right (by omega) hn'
    rw [UInt8.toNat_ofNat_of_lt' (hlt.trans_le hpow), testBit_readBits, decide_eq_true (by omega), Bool.true_and]
    congr 1
    omega
  by_cases hshort : vallen < 8
  · intro mem
    rw [getBits_eq _ _ _ hbit, if_pos hshort, show (vallen + 7) / 8 = 1 by omega]
    exact ⟨rfl, hfield mem _ _ hlow (by omega)⟩
  by_cases hbits : vallen % 8 ≠ 0
  · intro mem
    rw [getBits_eq _ _ _ hbit, if_neg hshort, if_pos hbits]
    constructor
    · rw [List.length_append, List.length_map, List.length_range, List.length_singleton]
      omega
    · rw [List.getLastD_concat, hfield _ _ _ (by omega) (by omega)]
      congr 1
      omega
  · intro mem
    rw [getBits_eq _ _ _ hbit, if_neg hshort, if_neg hbits, List.append_nil]
    obtain ⟨m, hm⟩ : ∃ m, vallen / 8 = m + 1 := ⟨vallen / 8 - 1, by omega⟩
    constructor
    · rw [List.length_map, List.length_range]
      omega
    · rw [hm, List.range_succ, List.map_append, List.map_cons, List.map_nil, List.getLastD_concat,
        hfield _ _ _ (by omega) (by omega)]
      congr 1
      omega

lemma attrOfBytes_inj {l l' : List UInt8} {n : ℕ} (hn : n = 1 ∨ n = 2) (hl : l.length = n) (hl' : l'.length = n)
    (h : attrOfBytes (memcpy (fun _ => 0) 0 l) = attrOfBytes (memcpy (fun _ => 0) 0 l')) : l = l' := by
  have hnat := congrArg UInt16.toNat h
  rcases hn with rfl | rfl
  · obtain ⟨a, rfl⟩ := List.length_eq_one_iff.mp hl
    obtain ⟨b, rfl⟩ := List.length_eq_one_iff.mp hl'
    rw [attrOfBytes_single, attrOfBytes_single] at hnat
    rw [UInt8.toNat_inj.mp hnat]
  · obtain ⟨a, b, rfl⟩ := List.length_eq_two.mp hl
    obtain ⟨a', b', rfl⟩ := List.length_eq_two.mp hl'
    rw [attrOfBytes_toNat, attrOfBytes_toNat] at hnat
    have ha := a.toNat_lt
    have ha' := a'.toNat_lt
    rw [UInt8.toNat_inj.mp (show a.toNat = a'.toNat by omega), UInt8.toNat_inj.mp (show b.toNat = b'.toNat by omega)]

/-- The bytes from which a value was restored are its own. -/
lemma setVal_inj {p : Packetbuf size} {a : AttrEntry} (hc : p.Carries a) {stack stack' : ℕ → UInt8}
    {l l' : List UInt8} {r r' : Packetbuf size} (hl : l.length = (a.len.toNat + 7) / 8)
    (hl' : l'.length = (a.len.toNat + 7) / 8) (h : p.SameVal (r.setVal stack l a.type) a.type)
    (h' : p.SameVal (r'.setVal stack' l' a.type) a.type) : l = l' := by
  obtain ⟨type, len⟩ := a
  cases type with
  | attr t =>
      obtain ⟨hlow, hhigh, -⟩ := hc
      have hlow' : 1 ≤ len.toNat := hlow
      have hhigh' : len.toNat ≤ 16 := hhigh
      refine attrOfBytes_inj (show (len.toNat + 7) / 8 = 1 ∨ _ = 2 by omega) hl hl' ?_
      exact ((Packetbuf.setAttr_self ..).symm.trans h).trans ((Packetbuf.setAttr_self ..).symm.trans h').symm
  | addr t =>
      obtain ⟨hdvd, hlow, hhigh⟩ := hc
      have hfit : (len.toNat + 7) / 8 ≤ size := by
        have hdvd' : 8 ∣ len.toNat := hdvd
        have hhigh' : len.toNat ≤ 8 * size := hhigh
        omega
      have htake : ∀ (m : ℕ → UInt8) (k : List UInt8), k.length = (len.toNat + 7) / 8 →
          rimeaddrAt size (memcpy m 0 k) = p.addr t → k = (p.addr t).u8.take ((len.toNat + 7) / 8) := by
        intro m k hk haddr
        obtain ⟨d, hd⟩ := Nat.exists_eq_add_of_le hfit
        have hbytes : copyBytes (memcpy m 0 k) 0 size = (p.addr t).u8 := congrArg Rimeaddr.u8 haddr
        rw [← hbytes, show copyBytes (memcpy m 0 k) 0 size =
          copyBytes (memcpy m 0 k) 0 ((len.toNat + 7) / 8 + d) by rw [← hd], copyBytes_add,
          List.take_left' (length_copyBytes ..), copyBytes_memcpy _ 0 hk]
      rw [htake stack l hl ((Packetbuf.setAddr_self ..).symm.trans h),
        htake stack' l' hl' ((Packetbuf.setAddr_self ..).symm.trans h')]

lemma Packetbuf.Carries.pos {p : Packetbuf size} {a : AttrEntry} (h : p.Carries a) : 1 ≤ a.len.toNat := by
  obtain ⟨type, len⟩ := a
  cases type with
  | attr t => exact h.1
  | addr t => exact le_trans (by decide) h.2.1

/-- From 256 bits on the last entry lies behind the header that is sent. -/
lemma not_restores_of_wrap {channelList : List Channel} {c : Channel} {p₀ : Packetbuf size}
    (hcarries : ∀ a ∈ c.attrlist, p₀.Carries a) (htotal : 256 ≤ headerSize c.attrlist) :
    ¬ Restores channelList c p₀ := by
  intro h
  obtain ⟨l₁, a, hsplit⟩ : ∃ l₁ a, c.attrlist = l₁ ++ [a] := by
    rcases List.eq_nil_or_concat' c.attrlist with hnil | hconcat
    · rw [hnil] at htotal
      exact absurd htotal (by decide)
    · exact hconcat
  have ha : a ∈ c.attrlist := by
    rw [hsplit]
    exact List.mem_append_right _ List.mem_cons_self
  have hlen : 1 ≤ a.len.toNat := Packetbuf.Carries.pos (hcarries a ha)
  have hsum : headerSize c.attrlist = headerSize l₁ + a.len.toNat := by
    rw [hsplit]
    simp [headerSize]
  obtain ⟨p', hpack⟩ := packHeader_blank c p₀
  have hbytes : p'.bytes.length = hdrbytesize c.hdrsize + 2 := by
    rw [packHeader_length hpack]
    rfl
  -- what is read for the last entry, with `g` behind the packet
  have hread : ∀ g : UInt8, ∃ (r : Packetbuf size) (m : ℕ → UInt8),
      p₀.blank.SameVal (r.setVal (fun _ => 0) (getBits m (packetbufHdrSize + 2 + headerSize l₁ / 8)
        (headerSize l₁ % 8) a.len.toNat) a.type) a.type ∧
      bitOf m (8 * (packetbufHdrSize + 2 + headerSize l₁ / 8) + headerSize l₁ % 8 + a.len.toNat - 1) =
        g.toNat.testBit (7 - (headerSize c.attrlist - 1) % 8) := by
    intro g
    obtain ⟨hchannel, hsame, -⟩ := h p₀.blank p' (p₀.received p'.bytes g) (fun _ _ => 0) rfl rfl hpack
      (p₀.received_data p'.bytes g)
    rcases hunpack : unpackHeader channelList (fun _ _ => 0) (p₀.received p'.bytes g) with ⟨c', r⟩
    rw [hunpack] at hchannel hsame
    obtain rfl : c' = some c := hchannel
    obtain ⟨q₂, hmem, rfl⟩ := unpackHeader_some hunpack
    have hval := hsame a ha
    rw [hsplit] at hval
    obtain ⟨r, hr⟩ := @unpackAttrs_last _ (fun _ _ => 0) ((p₀.received p'.bytes g).dataptr + 2) l₁
      [] a (fun _ hb => by cases hb) q₂
    refine ⟨r, q₂.mem, hval.trans hr.symm, ?_⟩
    have hroom := hdrbytesize_le c.hdrsize
    have hbehind : 8 * hdrbytesize c.hdrsize ≤ headerSize c.attrlist - 1 := by
      have hwrap : c.hdrsize.toNat = headerSize c.attrlist % 256 := by
        rw [c.hdrsize_eq, UInt8.toNat_ofNat']
      unfold hdrbytesize
      rw [hwrap]
      split_ifs <;> omega
    rw [show 8 * (packetbufHdrSize + 2 + headerSize l₁ / 8) + headerSize l₁ % 8 + a.len.toNat - 1 =
      8 * (packetbufHdrSize + 2) + (headerSize c.attrlist - 1) by omega, hmem]
    unfold bitOf
    rw [show (8 * (packetbufHdrSize + 2) + (headerSize c.attrlist - 1)) / 8 =
      packetbufHdrSize + (2 + (headerSize c.attrlist - 1) / 8) by omega]
    show (p'.bytes.getD (packetbufHdrSize + (2 + (headerSize c.attrlist - 1) / 8) - packetbufHdrSize) g).toNat.testBit
      _ = _
    rw [List.getD_eq_default _ _ (by rw [hbytes]; omega)]
    congr 1
    omega
  obtain ⟨r, m, hval, hbit⟩ := hread 0
  obtain ⟨r', m', hval', hbit'⟩ := hread 255
  obtain ⟨hlength, hlast⟩ := getBits_last a.len.toNat hlen (Nat.mod_lt (headerSize l₁) (show 0 < 8 by omega))
    (packetbufHdrSize + 2 + headerSize l₁ / 8) m
  obtain ⟨hlength', hlast'⟩ := getBits_last a.len.toNat hlen (Nat.mod_lt (headerSize l₁) (show 0 < 8 by omega))
    (packetbufHdrSize + 2 + headerSize l₁ / 8) m'
  have hcarries' : p₀.blank.Carries a := hcarries a ha
  rw [setVal_inj hcarries' hlength hlength' hval hval', hlast', hbit', hbit] at hlast
  have hmod : (headerSize c.attrlist - 1) % 8 < 8 := Nat.mod_lt _ (by omega)
  revert hlast
  generalize (headerSize c.attrlist - 1) % 8 = i at hmod
  interval_cases i <;> decide

/-- The headers of a channel that the receiver has open restore the values of a packet, in any buffer,
exactly when the bits of the list are fewer than 256 and the last entry of each type keeps its value. -/
theorem unpackHeader_restores_iff (channelList : List Channel) (c : Channel) (p₀ : Packetbuf size)
    (hlookup : channelLookup channelList c.channelno = some c) (hcarries : ∀ a ∈ c.attrlist, p₀.Carries a) :
    Restores channelList c p₀ ↔ headerSize c.attrlist < 256 ∧ LastKept c p₀ := by
  constructor
  · intro h
    have htotal : headerSize c.attrlist < 256 := by
      by_contra hwrap
      exact not_restores_of_wrap hcarries (Nat.not_lt.mp hwrap) h
    exact ⟨htotal, kept_of_restores hlookup hcarries htotal h⟩
  · rintro ⟨htotal, hkept⟩
    exact restores_of_kept hlookup hcarries htotal hkept

/-- A channel with one attribute of twelve bits. -/
def twelveBits : Channel := ⟨130, [⟨.attr .epacketId, 12⟩], 12, rfl⟩

/-- A packet whose attribute has this value. -/
def identified (id : UInt16) : Packetbuf 2 :=
  (Packetbuf.mk (fun _ => 0) packetbufHdrSize (le_refl _) 0 0 (fun _ => 0) fun _ => .null 2).setAttr .epacketId id

/-- A channel with an address and three attributes; all but the first begin within a byte. -/
def mixedBits : Channel :=
  ⟨131, [⟨.attr .hops, 5⟩, ⟨.addr .esender, 16⟩, ⟨.attr .epacketId, 12⟩, ⟨.attr .reliable, 1⟩], 34, rfl⟩

/-- The identifier has twelve bits in the header, and is below 256. -/
theorem unpackHeader_restores_twelve : Restores [mixedBits] mixedBits (identified 0xBC) := by
  have hentries : ∀ a ∈ mixedBits.attrlist, (identified 0xBC).Carries a ∧ (identified 0xBC).Keeps a := by
    intro a ha
    simp only [mixedBits, List.mem_cons, List.not_mem_nil, or_false] at ha
    rcases ha with rfl | rfl | rfl | rfl
    · exact ⟨⟨by decide, by decide, by decide⟩, fun _ _ => by decide⟩
    · exact ⟨⟨by decide, by decide, by decide⟩, rfl⟩
    · exact ⟨⟨by decide, by decide, by decide⟩, fun _ _ => by decide⟩
    · exact ⟨⟨by decide, by decide, by decide⟩, fun _ _ => by decide⟩
  refine (unpackHeader_restores_iff [mixedBits] mixedBits (identified 0xBC) rfl
    fun a ha => (hentries a ha).1).mpr ⟨by decide, fun l₁ a l₂ hlist _ => (hentries a ?_).2⟩
  rw [hlist]
  exact List.mem_append_right _ List.mem_cons_self

/-- The upper four bits of a value of twelve bits are lost. -/
theorem unpackHeader_not_restores :
    ¬ ∀ (size : ℕ) (channelList : List Channel) (c : Channel) (p₀ : Packetbuf size),
      channelLookup channelList c.channelno = some c → (∀ a ∈ c.attrlist, p₀.Carries a) →
        Restores channelList c p₀ := by
  intro h
  have hcarries : ∀ a ∈ twelveBits.attrlist, (identified 0xABC).Carries a := by
    intro a ha
    rw [List.mem_singleton.mp ha]
    exact ⟨by decide, by decide, by decide⟩
  have hrestores := h 2 [twelveBits] twelveBits (identified 0xABC) rfl hcarries
  have hkeeps : (identified 0xABC).Keeps ⟨.attr .epacketId, 12⟩ :=
    kept_of_restores rfl hcarries (by decide) hrestores [] _ [] rfl fun _ hb => by cases hb
  exact absurd (hkeeps (by decide) (by decide)) (by decide)

end Rime
end Contiki

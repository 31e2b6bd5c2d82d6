import Contiki.Net.HeaderChain
import Contiki.Net.UpperLayer

/-!
# Chains of extension headers

Extension headers that a node has to accept: options headers that hold only padding, and routing
headers with no segment left.  The loop over the next header fields goes over them one by one, as
long as they have less than 256 bytes together.

* `ExtHdr.headerStep_eq` — one header.
* `headerLoop_chain` — a chain of headers.
-/

namespace Contiki

/-! ## Headers -/

/-- An extension header, without the field that says what comes next. -/
structure ExtHdr where
  proto : UInt8
  len : UInt8
  body : List UInt8
  length_body : body.length = len.toNat * 8 + 6

/-- Options that are only padding. -/
inductive Padding : List UInt8 → Prop
  | nil : Padding []
  | pad1 {l : List UInt8} (h : Padding l) : Padding (0 :: l)
  | padn {l : List UInt8} (n : UInt8) (pad : List UInt8) (hpad : pad.length = n.toNat)
      (h : Padding l) : Padding (1 :: n :: (pad ++ l))

namespace ExtHdr

/-- The bytes of a header. -/
def octets (hdr : ExtHdr) (next : UInt8) : List UInt8 := next :: hdr.len :: hdr.body

/-- The length of a header. -/
def size (hdr : ExtHdr) : ℕ := hdr.len.toNat * 8 + 8

/-- A header that a node accepts whatever it knows: padding, or a routing header with no segment
left. -/
def Admissible (hdr : ExtHdr) : Prop :=
  (hdr.proto = 0 ∨ hdr.proto = 60) ∧ Padding hdr.body ∨ hdr.proto = 43 ∧ hdr.body[1]? = some 0

lemma length_octets (hdr : ExtHdr) (next : UInt8) : (hdr.octets next).length = hdr.size := by
  unfold octets size
  rw [List.length_cons, List.length_cons, hdr.length_body]

end ExtHdr

/-- The first field for the next header, in front of a chain that `proto` follows. -/
def firstProto (proto : UInt8) : List ExtHdr → UInt8
  | [] => proto
  | hdr :: _ => hdr.proto

/-- The bytes of a chain of headers that `proto` follows. -/
def chainOctets (proto : UInt8) : List ExtHdr → List UInt8
  | [] => []
  | hdr :: hdrs => hdr.octets (firstProto proto hdrs) ++ chainOctets proto hdrs

/-- The length of a chain of headers. -/
def chainSize (hdrs : List ExtHdr) : ℕ := (hdrs.map ExtHdr.size).sum

lemma length_chainOctets (proto : UInt8) (hdrs : List ExtHdr) :
    (chainOctets proto hdrs).length = chainSize hdrs := by
  induction hdrs with
  | nil => rfl
  | cons hdr hdrs ih =>
    rw [chainOctets, List.length_append, hdr.length_octets, ih]
    rfl

/-- The headers that a bitmap still admits: one hop-by-hop options header, two destination options
headers, and one routing header. -/
structure ExtBitmap.Admits (bitmap : ExtBitmap) (hdrs : List ExtHdr) : Prop where
  hbho : hdrs.countP (fun hdr => hdr.proto = 0) + bitmap.hbho.toNat ≤ 1
  desto : hdrs.countP (fun hdr => hdr.proto = 60) + bitmap.desto1.toNat + bitmap.desto2.toNat ≤ 2
  desto1 : bitmap.desto2 = true → bitmap.desto1 = true
  routing : hdrs.countP (fun hdr => hdr.proto = 43) + bitmap.routing.toNat ≤ 1

/-- A chain of headers that a node accepts. -/
structure AdmissibleChain (hdrs : List ExtHdr) : Prop where
  admissible : ∀ hdr ∈ hdrs, hdr.Admissible
  admits : ExtBitmap.Admits {} hdrs

/-! ## One header -/

lemma toNat_ofNat_of_lt {n : ℕ} (h : n < 256) : (UInt8.ofNat n).toNat = n :=
  UInt8.toNat_ofNat_of_lt' h

/-- The options are gone through up to the end of the header. -/
lemma optionsFrom_padding {p : UipBuf} {base fuel offset : ℕ} {l : List UInt8} (h : Padding l)
    (hl : Holds p.bytes (base + offset) l) (hend : offset + l.length = p.extHdrLen base)
    (hshort : p.extHdrLen base < 256) (hfuel : l.length < fuel) :
    p.optionsFrom base fuel (UInt8.ofNat offset) = some .proceed := by
  have hoffset : (UInt8.ofNat offset).toNat = offset := toNat_ofNat_of_lt (by omega)
  obtain ⟨fuel, rfl⟩ : ∃ n, fuel = n + 1 := ⟨fuel - 1, by omega⟩
  induction h generalizing fuel offset with
  | nil =>
    rw [List.length_nil, Nat.add_zero] at hend
    rw [UipBuf.optionsFrom, if_neg]
    rw [hoffset]
    omega
  | pad1 h ih =>
    rw [List.length_cons] at hend hfuel
    have hstep : p.optionStep base (UInt8.ofNat offset) = .next (UInt8.ofNat (offset + 1)) := by
      unfold UipBuf.optionStep
      dsimp only
      rw [hoffset, if_pos hl.1, UInt8.ofNat_add]
      rfl
    obtain ⟨fuel, rfl⟩ : ∃ n, fuel = n + 1 := ⟨fuel - 1, by omega⟩
    rw [UipBuf.optionsFrom, if_pos (by rw [hoffset]; omega), hstep]
    exact ih hl.2 (by omega) (toNat_ofNat_of_lt (by omega)) fuel (by omega)
  | padn n pad hpad h ih =>
    rw [List.length_cons, List.length_cons, List.length_append, hpad] at hend hfuel
    obtain ⟨htype, hlen, hrest⟩ := hl
    have hstep : p.optionStep base (UInt8.ofNat offset) =
        .next (UInt8.ofNat (offset + 2 + n.toNat)) := by
      unfold UipBuf.optionStep
      dsimp only
      rw [hoffset, htype, hlen, if_neg (by decide), if_pos rfl, UInt8.ofNat_add, UInt8.ofNat_add,
        UInt8.ofNat_toNat, UInt8.add_assoc, UInt8.add_comm n, ← UInt8.add_assoc]
      rfl
    have hrest' := (holds_append.mp hrest).2
    rw [hpad, show base + offset + 1 + 1 + n.toNat = base + (offset + 2 + n.toNat) by omega] at hrest'
    obtain ⟨fuel, rfl⟩ : ∃ n, fuel = n + 1 := ⟨fuel - 1, by omega⟩
    rw [UipBuf.optionsFrom, if_pos (by rw [hoffset]; omega), hstep]
    exact ih hrest' (by omega) (toNat_ofNat_of_lt (by omega)) fuel (by omega)

namespace ExtHdr
variable {hdr : ExtHdr} {next : UInt8} {p : UipBuf} {base : ℕ}

lemma extHdrLen_eq (h : Holds p.bytes base (hdr.octets next)) : p.extHdrLen base = hdr.size := by
  unfold UipBuf.extHdrLen
  rw [h.2.1]
  rfl

/-- Padding is accepted. -/
lemma extHdrOptionsProcess_eq (h : Holds p.bytes base (hdr.octets next)) (hpad : Padding hdr.body)
    (hshort : hdr.size < 256) : p.extHdrOptionsProcess base = some .proceed := by
  have hlen := extHdrLen_eq h
  have hbody := hdr.length_body
  unfold size at *
  apply @optionsFrom_padding _ _ _ 2 _ hpad h.2.2
  · omega
  · omega
  · omega

/-- A routing header has no segment left. -/
lemma segLeft_eq (h : Holds p.bytes base (hdr.octets next)) (hroute : hdr.body[1]? = some 0) :
    p.bytes (base + 3) = 0 := by
  obtain ⟨hlt, hget⟩ := List.getElem?_eq_some_iff.mp hroute
  have hbyte := h.get 3 (by
    rw [hdr.length_octets]
    exact Nat.lt_of_lt_of_le (by decide : 3 < 8) (Nat.le_add_left 8 _))
  rw [hbyte]
  exact hget

end ExtHdr

/-! ## A chain of headers -/

namespace HeaderState
variable {s : HeaderState} {node : IpNode} {hdr : ExtHdr} {hdrs : List ExtHdr} {next : UInt8} {n : ℕ}

/-- One header is left behind. -/
lemma headerStep_eq (hadm : hdr.Admissible) (hadmits : s.bitmap.Admits (hdr :: hdrs))
    (hproto : s.bytes s.nextHdr = hdr.proto) (hhdr : Holds s.bytes s.extBuf (hdr.octets next))
    (hshort : hdr.size < 256) :
    ∃ bitmap, ExtBitmap.Admits bitmap hdrs ∧
      s.headerStep node = .ok (s.skipHeader s.extBuf bitmap) := by
  obtain ⟨hhbho, hdesto, hdesto1, hrouting⟩ := hadmits
  rw [List.countP_cons] at hhbho hdesto hrouting
  unfold headerStep stepAt
  dsimp only
  rw [hproto]
  rcases hadm with ⟨hoptions, hpad⟩ | ⟨hroute, hleft⟩
  · have hoptionsHeader : ∀ bitmap, s.optionsHeader s.extBuf bitmap =
        .ok (s.skipHeader s.extBuf bitmap) := by
      intro bitmap
      unfold optionsHeader
      rw [ExtHdr.extHdrOptionsProcess_eq hhdr hpad hshort]
    rcases hoptions with hzero | hsixty
    · rw [hzero] at hhbho hdesto hrouting ⊢
      have hseen : s.bitmap.hbho = false := by
        apply eq_false_of_ne_true
        intro htrue
        rw [htrue] at hhbho
        simp at hhbho
      rw [if_neg (by decide), if_neg (by decide), if_neg (by decide), if_pos rfl, hseen,
        if_neg (by decide), hoptionsHeader]
      refine ⟨{ s.bitmap with hbho := true }, ⟨?_, ?_, hdesto1, ?_⟩, rfl⟩
      · rw [hseen] at hhbho
        exact hhbho
      · exact hdesto
      · exact hrouting
    · rw [hsixty] at hhbho hdesto hrouting ⊢
      rw [if_neg (by decide), if_neg (by decide), if_neg (by decide), if_neg (by decide), if_pos rfl]
      cases h₁ : s.bitmap.desto1 with
      | false =>
        have h₂ : s.bitmap.desto2 = false := by
          apply eq_false_of_ne_true
          intro htrue
          rw [hdesto1 htrue] at h₁
          cases h₁
        rw [if_neg (by decide), hoptionsHeader]
        rw [h₁, h₂] at hdesto
        refine ⟨{ s.bitmap with desto1 := true }, ⟨hhbho, ?_, fun _ => rfl, hrouting⟩, rfl⟩
        show _ + 1 + s.bitmap.desto2.toNat ≤ 2
        rw [h₂]
        exact hdesto
      | true =>
        rw [if_pos rfl]
        cases h₂ : s.bitmap.desto2 with
        | true =>
          rw [h₁, h₂] at hdesto
          simp at hdesto
        | false =>
          rw [if_neg (by decide), hoptionsHeader]
          rw [h₁, h₂] at hdesto
          refine ⟨{ s.bitmap with desto1 := true, desto2 := true },
            ⟨hhbho, ?_, fun _ => rfl, hrouting⟩, rfl⟩
          show _ + 1 + 1 ≤ 2
          simpa using hdesto
  · rw [hroute] at hhbho hdesto hrouting ⊢
    have hseen : s.bitmap.routing = false := by
      apply eq_false_of_ne_true
      intro htrue
      rw [htrue] at hrouting
      simp at hrouting
    rw [if_neg (by decide), if_neg (by decide), if_neg (by decide), if_neg (by decide),
      if_neg (by decide), if_pos rfl, hseen, if_neg (by decide)]
    unfold routingHeader
    rw [if_pos (ExtHdr.segLeft_eq hhdr hleft)]
    refine ⟨{ s.bitmap with routing := true }, ⟨hhbho, hdesto, hdesto1, ?_⟩, rfl⟩
    rw [hseen] at hrouting
    exact hrouting

/-- The chain of headers is left behind, header by header. -/
lemma headerLoop_chain {proto : UInt8} {fuel : ℕ} (htracks : s.Tracks n)
    (hadm : ∀ hdr ∈ hdrs, hdr.Admissible) (hadmits : s.bitmap.Admits hdrs)
    (hproto : s.bytes s.nextHdr = firstProto proto hdrs)
    (hhdrs : Holds s.bytes s.chainEnd (chainOctets proto hdrs))
    (hend : s.chainEnd + chainSize hdrs ≤ n) (hn : n < uipIphLen + 256) :
    ∃ s' : HeaderState, headerLoop node (fuel + hdrs.length) s = headerLoop node fuel s' ∧
      s'.toUipBuf = s.toUipBuf ∧ s'.bytes s'.nextHdr = proto ∧ s'.Tracks n ∧
      s'.chainEnd = s.chainEnd + chainSize hdrs := by
  induction hdrs generalizing s with
  | nil => exact ⟨s, rfl, rfl, hproto, htracks, rfl⟩
  | cons hdr hdrs ih =>
    have hsize : chainSize (hdr :: hdrs) = hdr.size + chainSize hdrs := List.sum_cons
    have hpos : 0 < hdr.size := Nat.succ_pos _
    have hcounted : s.Counted := by
      unfold Counted
      omega
    have hbase := htracks.extBuf_eq_iff.mpr hcounted
    obtain ⟨hfirst, hrest⟩ := holds_append.mp hhdrs
    have hle := htracks.le
    obtain ⟨bitmap, hadmits', hstep⟩ := headerStep_eq (hadm hdr List.mem_cons_self)
      hadmits hproto (hbase ▸ hfirst) (by unfold uipIphLen at *; omega)
    have hlen := ExtHdr.extHdrLen_eq hfirst
    rw [hdr.length_octets] at hrest
    rw [hbase] at hstep
    have hnext : (s.skipHeader s.chainEnd bitmap).chainEnd = s.chainEnd + hdr.size := by
      show s.chainEnd + s.extHdrLen s.chainEnd = _
      rw [hlen]
    obtain ⟨s', hloop, hbuf, hproto', htracks', hend'⟩ := ih (s := s.skipHeader s.chainEnd bitmap)
      (htracks.skipHeader (by omega) bitmap) (fun hdr h => hadm hdr (List.mem_cons_of_mem _ h))
      hadmits' hfirst.1 (by rw [hnext]; exact hrest) (by omega)
    refine ⟨s', ?_, hbuf, hproto', htracks', by omega⟩
    rw [List.length_cons, ← Nat.add_assoc, headerLoop, hstep]
    exact hloop

end HeaderState

end Contiki

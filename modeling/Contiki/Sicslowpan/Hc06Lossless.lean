import Contiki.Sicslowpan.Hc06Roundtrip
import Mathlib.Data.List.Nodup

/-!
# HC06 is lossless, up to one prefix

`uncompressHdrHc06_spec` puts the fields together: what the decompressor makes of the compressed
headers depends on the two addresses that it can restore.  `hc06_lossless_iff` says when these are
the addresses of the sender.  They are, with contexts whose numbers are distinct and fit into
their four bits (`numbersFound`), unless the prefix of a link-local source is left out because
words 1 to 3 of the destination are zero.
-/

namespace Contiki
namespace Sicslowpan

/-! ## The headers, field by field -/

section Headers
variable {contexts : List AddrContext} {uipLladdr rimeDestaddr : Lladdr} {ip : IpHdr}
  {udp : UdpHdr} {buffer : ℕ → UInt8} {start : ℕ}

/-- The headers with all that does not depend on a context, before the lengths are filled in. -/
def restoredFields (ip old : IpHdr) : IpHdr :=
  { old with
    vtc := ip.vtc
    tcflow := ip.tcflow
    flow := ip.flow
    proto := if ip.proto = uipProtoUdp then old.proto else ip.proto
    ttl := ip.ttl }

/-- The decompressor goes through the compressed headers field by field. -/
lemma uncompressHdrHc06_spec (hversion : ip.vtc >>> 4 = 6)
    (h : Holds buffer start (compressHdrHc06 contexts uipLladdr rimeDestaddr ip udp))
    (ipLen : UInt16) (datalen : ℕ) (old : IpHdr × UdpHdr) :
    uncompressHdrHc06 contexts buffer uipLladdr rimeDestaddr start ipLen datalen old =
      match restoredSrc contexts ip with
      | none => ⟨restoredFields ip old.1, old.2, start, 0⟩
      | some srcipaddr =>
        match restoredDst contexts ip with
        | none => ⟨{ restoredFields ip old.1 with srcipaddr }, old.2, start, 0⟩
        | some destipaddr =>
          finishLengths ipLen datalen
            ⟨{ restoredFields ip old.1 with srcipaddr, destipaddr, proto := ip.proto },
              if ip.proto = uipProtoUdp then { udp with udplen := old.2.udplen } else old.2,
              start + (compressHdrHc06 contexts uipLladdr rimeDestaddr ip udp).length,
              uncompHdrLen ip⟩ := by
  have hiphc : ∀ b0 b1 : UInt8, [b0, b1].length = 2 := fun _ _ => rfl
  unfold compressHdrHc06 at h ⊢
  simp only [holds_append, List.length_append, ← Nat.add_assoc, hiphc] at h ⊢
  obtain ⟨⟨⟨⟨⟨⟨⟨⟨h0, h1, -⟩, hctx⟩, htf⟩, hnh⟩, httl⟩, hsrc⟩, hdst⟩, hudp⟩ := h
  obtain ⟨hfl, htc, hnhc, hlim⟩ := iphc0_fields (compressTf_bits ip) (compressNh_bits ip)
    (compressTtl_bits ip)
  have hflag : (if contextByte contexts ip then iphcCid else 0) ∈ [0x00, iphcCid] := by
    split_ifs <;> simp
  obtain ⟨hcid, hsac, hsam, hm, hdac, hdam⟩ := iphc1_fields hflag
    (compressSrc_bits contexts uipLladdr ip) (compressDst_bits contexts rimeDestaddr ip)
  rw [← h0] at hfl htc hnhc hlim
  rw [← h1] at hcid hsac hsam hm hdac hdam
  have hptr : (if buffer (start + 1) &&& iphcCid ≠ 0 then start + 3 else start + 2) =
      start + 2 + (if contextByte contexts ip then [contextNumbers contexts ip] else []).length := by
    rw [hcid]
    cases contextByte contexts ip <;> simp +decide
  have hnumbers : contextByte contexts ip = true → buffer (start + 1) &&& iphcCid ≠ 0 ∧
      buffer (start + 2) = contextNumbers contexts ip := by
    intro hbyte
    rw [if_pos hbyte] at hctx
    rw [hcid, if_pos hbyte]
    exact ⟨by decide, hctx.1⟩
  unfold uncompressHdrHc06
  simp only
  rw [hptr, uncompressTf_spec hversion hfl htc htf]
  simp only
  rw [uncompressNh_spec old.1.proto hnhc hnh]
  simp only
  rw [uncompressTtl_spec hlim httl]
  simp only
  rw [uncompressSrc_spec hsac hsam hnumbers hsrc]
  cases restoredSrc contexts ip with
  | none => rfl
  | some srcipaddr =>
      simp only [Option.map_some]
      rw [uncompressDst_spec old.1.destipaddr hm hdac hdam hnumbers hdst]
      cases restoredDst contexts ip with
      | none => rfl
      | some destipaddr =>
          simp only [Option.map_some]
          by_cases hproto : ip.proto = uipProtoUdp
          · rw [if_pos hproto] at hudp
            obtain ⟨hnhcUdp, hread⟩ := uncompressUdp_spec old.2 hudp
            have hbit : (compressNh ip).1 ≠ 0 := by
              rw [compressNh, if_pos hproto]
              decide
            rw [hread, hnhc, if_pos ⟨hbit, hnhcUdp⟩]
            simp [restoredFields, hproto, uncompHdrLen]
          · have hbit : (compressNh ip).1 = 0 := by rw [compressNh, if_neg hproto]
            rw [hnhc, hbit, if_neg (fun hc => hc.1 rfl)]
            simp [restoredFields, hproto, uncompHdrLen]

end Headers
/-! ## Addresses that are restored -/

/-- Under the number that is sent, the receiver finds the prefix of the context. -/
def FoundUnder (contexts : List AddrContext) (number : UInt8) (c : AddrContext) : Prop :=
  (addrContextLookupByNumber contexts number).map AddrContext.ctxPrefix = some c.ctxPrefix

instance (contexts : List AddrContext) (number : UInt8) (c : AddrContext) :
    Decidable (FoundUnder contexts number c) :=
  inferInstanceAs (Decidable (_ = _))

/-- The upper bits of the number of the destination's context, which get into the number of the
source's context. -/
def spill : Option AddrContext → UInt8
  | none => 0
  | some c => c.number >>> 4

/-- The prefix of a link-local source is left out although it is not zero behind its first
word. -/
def PrefixLost (ip : IpHdr) : Prop :=
  ip.srcipaddr.uipIsAddrLinkLocal = true ∧
    (ip.srcipaddr.u16Zero 1 && ip.srcipaddr.u16Zero 2 && ip.srcipaddr.u16Zero 3) = false ∧
    (ip.destipaddr.u16Zero 1 && ip.destipaddr.u16Zero 2 && ip.destipaddr.u16Zero 3) = true

instance (ip : IpHdr) : Decidable (PrefixLost ip) := inferInstanceAs (Decidable (_ ∧ _))

/-- The receiver can restore the source address: it finds the context, or there is none and the
prefix is not lost. -/
def SrcRecoverable (contexts : List AddrContext) (ip : IpHdr) : Prop :=
  match srcContext contexts ip with
  | some c => FoundUnder contexts ((c.number &&& 0x0f) ||| spill (dstContext contexts ip)) c
  | none => ¬ PrefixLost ip

/-- The receiver can restore the destination address. -/
def DstRecoverable (contexts : List AddrContext) (ip : IpHdr) : Prop :=
  match dstContext contexts ip with
  | some c => FoundUnder contexts (c.number &&& 0x0f) c
  | none => True

instance (contexts : List AddrContext) (ip : IpHdr) : Decidable (SrcRecoverable contexts ip) :=
  match hctx : srcContext contexts ip with
  | some c =>
    decidable_of_iff
      (FoundUnder contexts ((c.number &&& 0x0f) ||| spill (dstContext contexts ip)) c)
      (by rw [SrcRecoverable, hctx])
  | none => decidable_of_iff (¬ PrefixLost ip) (by rw [SrcRecoverable, hctx])

instance (contexts : List AddrContext) (ip : IpHdr) : Decidable (DstRecoverable contexts ip) :=
  match hctx : dstContext contexts ip with
  | some c =>
    decidable_of_iff (FoundUnder contexts (c.number &&& 0x0f) c) (by rw [DstRecoverable, hctx])
  | none => .isTrue (by rw [DstRecoverable, hctx]; trivial)

section Addresses
variable {contexts : List AddrContext} {ip : IpHdr}

lemma number_of_src (x y : UInt8) :
    ((x <<< 4) ||| y) >>> 4 = (x &&& (0x0f : UInt8)) ||| (y >>> 4) := by
  apply UInt8.eq_of_toBitVec_eq
  ext i hi
  simp only [UInt8.toBitVec_and, UInt8.toBitVec_or, UInt8.toBitVec_shiftLeft,
    UInt8.toBitVec_shiftRight]
  interval_cases i <;> simp

lemma number_of_dst (x y : UInt8) : ((x <<< 4) ||| y) &&& (0x0f : UInt8) = y &&& 0x0f := by
  apply UInt8.eq_of_toBitVec_eq
  ext i hi
  simp only [UInt8.toBitVec_and, UInt8.toBitVec_or, UInt8.toBitVec_shiftLeft]
  interval_cases i <;> simp

/-- The number that the receiver reads for the source. -/
lemma contextNumbers_src {c : AddrContext} (h : srcContext contexts ip = some c) :
    contextNumbers contexts ip >>> 4 =
      (c.number &&& 0x0f) ||| spill (dstContext contexts ip) := by
  unfold contextNumbers
  rw [h]
  cases dstContext contexts ip with
  | none =>
      have hnumber := number_of_src c.number 0
      rwa [UInt8.or_zero] at hnumber
  | some d => exact number_of_src c.number d.number

/-- The number that the receiver reads for the destination. -/
lemma contextNumbers_dst {d : AddrContext} (h : dstContext contexts ip = some d) :
    contextNumbers contexts ip &&& 0x0f = d.number &&& 0x0f := by
  unfold contextNumbers
  rw [h]
  cases srcContext contexts ip with
  | none => simp
  | some c => exact number_of_dst c.number d.number

/-- An address keeps its interface identifier; it is restored when its prefix is. -/
lemma ofBytes_drop_iff {p : List UInt8} (hp : p.length = 8) (a : IpAddr) :
    IpAddr.ofBytes (p ++ a.u8.drop 8) = a ↔ p = a.u8.take 8 := by
  have hlen : (p ++ a.u8.drop 8).length = 16 := by
    rw [List.length_append, List.length_drop, a.length_u8, hp]
  have hu8 := IpAddr.ofBytes_u8 hlen
  constructor
  · intro h
    rw [h] at hu8
    rw [hu8, List.take_left' hp]
  · rintro rfl
    rw [List.take_append_drop, IpAddr.ofBytes_self]

/-- The context that is found for an address has its prefix. -/
lemma prefix_of_lookup {a : IpAddr} {c : AddrContext}
    (h : addrContextLookupByPrefix contexts a = some c) : c.ctxPrefix = a.u8.take 8 := by
  have hc := List.find?_some h
  rw [Bool.and_eq_true, beq_iff_eq] at hc
  exact hc.2

lemma restored_iff_foundUnder {a : IpAddr} {c : AddrContext} (number : UInt8)
    (h : c.ctxPrefix = a.u8.take 8) :
    (addrContextLookupByNumber contexts number).map
        (fun c => IpAddr.ofBytes (c.ctxPrefix ++ a.u8.drop 8)) = some a ↔
      FoundUnder contexts number c := by
  unfold FoundUnder
  cases addrContextLookupByNumber contexts number with
  | none => simp
  | some d =>
      rw [Option.map_some, Option.map_some, Option.some_inj, Option.some_inj, h]
      exact ofBytes_drop_iff d.length_ctxPrefix a

/-- The zeros that are put behind the link-local prefix are right when words 1 to 3 are zero. -/
lemma linkLocal_restored_iff {a : IpAddr} (h : a.uipIsAddrLinkLocal = true) :
    IpAddr.ofBytes (llPrefix ++ List.replicate 6 0 ++ a.u8.drop 8) = a ↔
      (a.u16Zero 1 && a.u16Zero 2 && a.u16Zero 3) = true := by
  rw [ofBytes_drop_iff rfl]
  obtain ⟨b0, b1, b2, b3, b4, b5, b6, b7, b8, b9, b10, b11, b12, b13, b14, b15, hbytes⟩ :=
    exists_bytes a
  simp only [IpAddr.uipIsAddrLinkLocal, hbytes, List.getD_cons_succ, List.getD_cons_zero,
    Bool.and_eq_true, beq_iff_eq] at h
  obtain ⟨rfl, rfl⟩ := h
  simp only [IpAddr.u16Zero, hbytes, List.getD_cons_succ, List.getD_cons_zero, Nat.reduceMul,
    Nat.reduceAdd, Bool.and_eq_true, beq_iff_eq]
  simp [llPrefix, List.replicate, eq_comm, and_assoc]

lemma restoredSrc_iff : restoredSrc contexts ip = some ip.srcipaddr ↔ SrcRecoverable contexts ip := by
  unfold restoredSrc SrcRecoverable
  cases hctx : srcContext contexts ip with
  | some c =>
      have hlookup : addrContextLookupByPrefix contexts ip.srcipaddr = some c := by
        unfold srcContext at hctx
        split_ifs at hctx
        exact hctx
      rw [contextNumbers_src hctx]
      exact restored_iff_foundUnder _ (prefix_of_lookup hlookup)
  | none =>
      simp only
      by_cases hleft : (!ip.srcipaddr.uipIsAddrUnspecified && ip.srcipaddr.uipIsAddrLinkLocal &&
          ip.destipaddr.u16Zero 1 && ip.destipaddr.u16Zero 2 && ip.destipaddr.u16Zero 3) = true
      · rw [if_pos hleft, Option.some_inj]
        simp only [Bool.and_eq_true, Bool.not_eq_true'] at hleft
        obtain ⟨⟨⟨⟨hunspec, hll⟩, h1⟩, h2⟩, h3⟩ := hleft
        rw [linkLocal_restored_iff hll, PrefixLost, hll, h1, h2, h3]
        simp [and_assoc]
      · rw [if_neg hleft]
        simp only [true_iff]
        rintro ⟨hll, -, hzero⟩
        simp only [Bool.and_eq_true] at hzero
        have hspec : ip.srcipaddr.uipIsAddrUnspecified = false := by
          rw [Bool.eq_false_iff]
          intro h
          rw [unspecified_of_zero h] at hll
          exact absurd hll (by decide)
        exact hleft (by simp [hspec, hll, hzero])

lemma restoredDst_iff :
    restoredDst contexts ip = some ip.destipaddr ↔ DstRecoverable contexts ip := by
  unfold restoredDst DstRecoverable
  cases hctx : dstContext contexts ip with
  | some c =>
      have hlookup : addrContextLookupByPrefix contexts ip.destipaddr = some c := by
        unfold dstContext at hctx
        split_ifs at hctx
        exact hctx
      rw [contextNumbers_dst hctx]
      exact restored_iff_foundUnder _ (prefix_of_lookup hlookup)
  | none => simp

/-- Distinct numbers lead back to the context. -/
lemma foundUnder_number (hnodup : ((contexts.filter AddrContext.used).map AddrContext.number).Nodup)
    {c : AddrContext} (hc : c ∈ contexts) (hused : c.used = true) :
    FoundUnder contexts c.number c := by
  unfold FoundUnder addrContextLookupByNumber
  cases hfind : contexts.find? fun d => d.used && d.number == c.number with
  | none =>
      have hnone := List.find?_eq_none.mp hfind c hc
      simp [hused] at hnone
  | some d =>
      have hd := List.find?_some hfind
      rw [Bool.and_eq_true, beq_iff_eq] at hd
      have hmem := List.mem_of_find?_eq_some hfind
      have heq := List.inj_on_of_nodup_map hnodup (List.mem_filter.mpr ⟨hmem, hd.1⟩)
        (List.mem_filter.mpr ⟨hc, hused⟩) hd.2
      rw [heq, Option.map_some]

/-- With distinct numbers that fit into four bits, as `sicslowpan_init` gives them out, the
receiver finds the contexts of both addresses. -/
lemma numbersFound (ip : IpHdr) (hnodup : ((contexts.filter AddrContext.used).map AddrContext.number).Nodup)
    (hfit : ∀ c ∈ contexts, c.used = true → c.number < 16) :
    (∀ c, srcContext contexts ip = some c →
      FoundUnder contexts ((c.number &&& 0x0f) ||| spill (dstContext contexts ip)) c) ∧
    ∀ c, dstContext contexts ip = some c → FoundUnder contexts (c.number &&& 0x0f) c := by
  have hfound : ∀ a c, addrContextLookupByPrefix contexts a = some c →
      c.number < 16 ∧ FoundUnder contexts c.number c := by
    intro a c hc
    have hmem := List.mem_of_find?_eq_some hc
    have hused := (Bool.and_eq_true _ _ ▸ List.find?_some hc : _ ∧ _).1
    exact ⟨hfit c hmem hused, foundUnder_number hnodup hmem hused⟩
  have hdst : ∀ c, dstContext contexts ip = some c →
      c.number < 16 ∧ FoundUnder contexts c.number c := by
    intro c hc
    unfold dstContext at hc
    split_ifs at hc
    exact hfound _ c hc
  have hspill : spill (dstContext contexts ip) = 0 := by
    cases hctx : dstContext contexts ip with
    | none => rfl
    | some d => exact (nibble_of_lt (hdst d hctx).1).2
  constructor
  · intro c hc
    unfold srcContext at hc
    split_ifs at hc
    obtain ⟨hlt, hc'⟩ := hfound _ c hc
    rwa [hspill, UInt8.or_zero, (nibble_of_lt hlt).1]
  · intro c hc
    obtain ⟨hlt, hc'⟩ := hdst c hc
    rwa [(nibble_of_lt hlt).1]

end Addresses

/-! ## The lengths -/

/-- How the compressed headers travel: where they begin, the size that is announced for the
packet, and the length of the frame. -/
inductive Carried (ip : IpHdr) (headers : List UInt8) : ℕ → UInt16 → ℕ → Prop
  /-- With all of the packet in one frame. -/
  | whole (payload : List UInt8) :
    uncompHdrLen ip + payload.length = uipIphLen + ip.len.toNat →
    headers.length + payload.length ≤ macMaxPayload →
    Carried ip headers 0 0 (headers.length + payload.length)
  /-- In the first fragment, behind its header. -/
  | firstFragment {datalen : ℕ} :
    uipIphLen + ip.len.toNat < 2 ^ 16 →
    Carried ip headers frag1HdrLen (ip.len + UInt16.ofNat uipIphLen) datalen

section Lengths
variable {ip : IpHdr} {headers : List UInt8} {start datalen : ℕ} {ipLen : UInt16}

/-- The length field is computed from what the frame says. -/
lemma finishLengths_len (h : Carried ip headers start ipLen datalen) (r : Uncompressed)
    (hhdr : r.rimeHdrLen = start + headers.length) (hunc : r.uncompHdrLen = uncompHdrLen ip) :
    finishLengths ipLen datalen r =
      { r with
        ip := { r.ip with len := ip.len }
        udp := if r.ip.proto = uipProtoUdp then { r.udp with udplen := ip.len } else r.udp } := by
  unfold finishLengths
  cases h with
  | whole payload hlen hle =>
      have hlt := ip.len.toNat_lt
      unfold macMaxPayload at hle
      have hunc' : uncompHdrLen ip ≤ 48 := by
        unfold uncompHdrLen
        split_ifs <;> decide
      have hbyte : (UInt8.ofNat (headers.length + payload.length) - UInt8.ofNat r.rimeHdrLen +
          UInt8.ofNat r.uncompHdrLen - UInt8.ofNat uipIphLen).toUInt16 = ip.len := by
        apply UInt16.toNat_inj.mp
        rw [hhdr, hunc]
        simp only [UInt8.toNat_toUInt16, UInt8.toNat_sub, UInt8.toNat_add, UInt8.toNat_ofNat']
        unfold uipIphLen at hlen ⊢
        omega
      simp only [if_true, hbyte]
  | firstFragment hlen =>
      have hne : ip.len + UInt16.ofNat uipIphLen ≠ 0 := by
        intro h0
        have hnat := congrArg UInt16.toNat h0
        rw [UInt16.toNat_add, UInt16.toNat_ofNat'] at hnat
        unfold uipIphLen at hlen hnat
        simp at hnat
        omega
      simp only [if_neg hne, UInt16.add_sub_cancel]

end Lengths

/-! ## Both headers -/

/-- Whatever the buffer held before, the decompressor restores all fields of the IP header, and of
the UDP header if there is one. -/
def Restores (contexts : List AddrContext) (buffer : ℕ → UInt8) (sender receiver : Lladdr)
    (start : ℕ) (ipLen : UInt16) (datalen : ℕ) (ip : IpHdr) (udp : UdpHdr) : Prop :=
  ∀ old, (uncompressHdrHc06 contexts buffer sender receiver start ipLen datalen old).ip = ip ∧
    (ip.proto = uipProtoUdp →
      (uncompressHdrHc06 contexts buffer sender receiver start ipLen datalen old).udp = udp)

lemma exists_ne_addr (a : IpAddr) : ∃ b : IpAddr, b ≠ a := by
  by_cases h : IpAddr.unspecified = a
  · exact ⟨.ofBytes [1], h ▸ by decide⟩
  · exact ⟨.unspecified, h⟩

/-- Compression and decompression with the same contexts and link-layer addresses restore all
fields if and only if both addresses are recoverable. -/
theorem hc06_lossless_iff (contexts : List AddrContext) (uipLladdr rimeDestaddr : Lladdr)
    (ip : IpHdr) (udp : UdpHdr) (buffer : ℕ → UInt8) (start : ℕ) (ipLen : UInt16) (datalen : ℕ)
    (hversion : ip.vtc >>> 4 = 6) (hudplen : ip.proto = uipProtoUdp → udp.udplen = ip.len)
    (hframe : Holds buffer start (compressHdrHc06 contexts uipLladdr rimeDestaddr ip udp))
    (hcarried : Carried ip (compressHdrHc06 contexts uipLladdr rimeDestaddr ip udp) start ipLen
      datalen) :
    Restores contexts buffer uipLladdr rimeDestaddr start ipLen datalen ip udp ↔
      SrcRecoverable contexts ip ∧ DstRecoverable contexts ip := by
  have hspec := uncompressHdrHc06_spec hversion hframe ipLen datalen
  rw [← restoredSrc_iff, ← restoredDst_iff]
  constructor
  · intro hrestores
    cases hsrc : restoredSrc contexts ip with
    | none =>
        -- the old source address stays
        obtain ⟨b, hb⟩ := exists_ne_addr ip.srcipaddr
        have hip := (hrestores ({ ip with srcipaddr := b }, udp)).1
        rw [hspec, hsrc] at hip
        exact absurd (congrArg IpHdr.srcipaddr hip) hb
    | some a =>
        cases hdst : restoredDst contexts ip with
        | none =>
            obtain ⟨b, hb⟩ := exists_ne_addr ip.destipaddr
            have hip := (hrestores ({ ip with destipaddr := b }, udp)).1
            rw [hspec, hsrc, hdst] at hip
            exact absurd (congrArg IpHdr.destipaddr hip) hb
        | some b =>
            have hip := (hrestores (ip, udp)).1
            rw [hspec, hsrc, hdst] at hip
            simp only at hip
            rw [finishLengths_len hcarried _ rfl rfl] at hip
            exact ⟨congrArg some (congrArg IpHdr.srcipaddr hip),
              congrArg some (congrArg IpHdr.destipaddr hip)⟩
  · rintro ⟨hsrc, hdst⟩ old
    rw [hspec, hsrc, hdst]
    simp only
    rw [finishLengths_len hcarried _ rfl rfl]
    refine ⟨rfl, fun hproto => ?_⟩
    simp only [if_pos hproto, ← hudplen hproto]

/-- A packet from `fe80:1::1` to `aaaa::1`: words 1 to 3 of the destination are zero, so the prefix
of the source is left out. -/
theorem not_hc06_lossless :
    ¬ ∀ (contexts : List AddrContext) (uipLladdr rimeDestaddr : Lladdr) (ip : IpHdr) (udp : UdpHdr)
      (buffer : ℕ → UInt8) (start : ℕ) (ipLen : UInt16) (datalen : ℕ),
      ((contexts.filter AddrContext.used).map AddrContext.number).Nodup →
      ip.vtc >>> 4 = 6 → (ip.proto = uipProtoUdp → udp.udplen = ip.len) →
      Holds buffer start (compressHdrHc06 contexts uipLladdr rimeDestaddr ip udp) →
      Carried ip (compressHdrHc06 contexts uipLladdr rimeDestaddr ip udp) start ipLen datalen →
      Restores contexts buffer uipLladdr rimeDestaddr start ipLen datalen ip udp := by
  intro h
  let mac : Lladdr := ⟨[0x02, 0x12, 0x74, 0x00, 0x00, 0x00, 0x00, 0x01], by decide⟩
  let ip : IpHdr :=
    { vtc := 0x60
      tcflow := 0
      flow := 0
      len := 4
      proto := 58
      ttl := 64
      srcipaddr := .ofBytes [0xfe, 0x80, 0, 1, 0, 0, 0, 0, 0, 0, 0, 0, 0, 0, 0, 1]
      destipaddr := .ofBytes [0xaa, 0xaa, 0, 0, 0, 0, 0, 0, 0, 0, 0, 0, 0, 0, 0, 1] }
  let udp : UdpHdr := ⟨0, 0, 0, 0⟩
  let headers := compressHdrHc06 [] mac mac ip udp
  have hrestores := h [] mac mac ip udp (fun k => headers.getD k 0) 0 0 (headers.length + 4)
    (by decide) (by decide) (by decide) (holds_getD headers 0)
    (.whole [128, 0, 0, 0] (by decide) (by decide))
  have hsrc := congrArg IpHdr.srcipaddr (hrestores (ip, udp)).1
  exact absurd hsrc (by decide +kernel)

/-- A UDP packet between two nodes of a network whose prefix is a context. -/
theorem hc06_lossless_iff_udp :
    let contexts : List AddrContext := [⟨true, 0, [0xaa, 0xaa, 0, 0, 0, 0, 0, 0], by decide⟩]
    let mac : Lladdr := ⟨[0x02, 0x12, 0x74, 0x00, 0x00, 0x00, 0x00, 0x01], by decide⟩
    let ip : IpHdr :=
      { vtc := 0x60
        tcflow := 0
        flow := 0
        len := 10
        proto := uipProtoUdp
        ttl := 64
        srcipaddr := .ofBytes [0xaa, 0xaa, 0, 0, 0, 0, 0, 0, 0x02, 0x12, 0x74, 0, 0, 0, 0, 2]
        destipaddr := .ofBytes [0xaa, 0xaa, 0, 0, 0, 0, 0, 0, 0x00, 0x12, 0x74, 0, 0, 0, 0, 1] }
    let udp : UdpHdr := ⟨0xF0B1, 0xF0B2, 10, 0x1234⟩
    let headers := compressHdrHc06 contexts mac mac ip udp
    Restores contexts (fun k => headers.getD k 0) mac mac 0 0 (headers.length + 2) ip udp := by
  intro contexts mac ip udp headers
  exact (hc06_lossless_iff contexts mac mac ip udp (fun k => headers.getD k 0) 0 0
    (headers.length + 2) (by decide) (by decide) (holds_getD headers 0)
    (.whole [0, 0] (by decide +kernel) (by decide +kernel))).mpr
    ⟨by decide +kernel, by decide +kernel⟩

end Sicslowpan
end Contiki

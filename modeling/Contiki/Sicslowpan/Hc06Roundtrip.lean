import Contiki.Sicslowpan.Hc06
import Mathlib.Tactic.IntervalCases

/-!
# Decompression undoes compression

Each field of the headers is read back from what was written for it (`uncompressTf_spec`,
`uncompressAddr_64`, `uncompressDst_spec`, `uncompressUdp_spec`, ...), and the headers are the
sequence of their fields.  One field can be lost: `compress_hdr_hc06` leaves the prefix of a
link-local source address out when words 1 to 3 of the destination are zero, and the
decompressor puts zeros into the source.  `hc06_lossless_iff` says exactly when all fields are
restored.
-/

namespace Contiki
namespace Sicslowpan

/-! ## Reading what was written -/

section
variable {buffer : ℕ → UInt8} {ptr : ℕ}

lemma wordAt_of_holds {v : UInt16} (h : Holds buffer ptr (wordBytes v)) : wordAt buffer ptr = v := by
  obtain ⟨h0, h1, -⟩ := (h : Holds buffer ptr [_, _])
  rw [wordAt, h0, h1, word16_of_bytes]

lemma copyBytes_of_holds {l : List UInt8} (h : Holds buffer ptr l) :
    copyBytes buffer ptr l.length = l :=
  h.map_range

end

/-! ## Encoding bits -/

/-- The fields of the first encoding byte, read back through their masks. -/
lemma iphc0_fields {tf nh ttl : UInt8} (htf : tf ∈ [0x00, 0x08, 0x10, (0x18 : UInt8)])
    (hnh : nh ∈ [0x00, (0x04 : UInt8)]) (httl : ttl ∈ [0, 1, 2, (3 : UInt8)]) :
    (dispatchIphc ||| tf ||| nh ||| ttl) &&& iphcFlC = tf &&& iphcFlC ∧
      (dispatchIphc ||| tf ||| nh ||| ttl) &&& iphcTcC = tf &&& iphcTcC ∧
      (dispatchIphc ||| tf ||| nh ||| ttl) &&& iphcNhC = nh ∧
      (dispatchIphc ||| tf ||| nh ||| ttl) &&& 0x03 = ttl := by
  have hd : dispatchIphc &&& iphcFlC = 0 ∧ dispatchIphc &&& iphcTcC = 0 ∧
      dispatchIphc &&& iphcNhC = 0 ∧ dispatchIphc &&& 0x03 = 0 := by decide
  have ht : tf &&& iphcNhC = 0 ∧ tf &&& 0x03 = 0 := by
    revert tf
    simp only [List.forall_mem_cons, List.not_mem_nil, false_imp_iff, implies_true]
    decide
  have hn : nh &&& iphcFlC = 0 ∧ nh &&& iphcTcC = 0 ∧ nh &&& iphcNhC = nh ∧ nh &&& 0x03 = 0 := by
    revert nh
    simp only [List.forall_mem_cons, List.not_mem_nil, false_imp_iff, implies_true]
    decide
  have hl : ttl &&& iphcFlC = 0 ∧ ttl &&& iphcTcC = 0 ∧ ttl &&& iphcNhC = 0 ∧
      ttl &&& 0x03 = ttl := by
    revert ttl
    simp only [List.forall_mem_cons, List.not_mem_nil, false_imp_iff, implies_true]
    decide
  simp [byte_or_and, hd, ht, hn, hl]

/-- The bits of the source address in the second encoding byte. -/
def srcBits : List UInt8 := [0x00, 0x10, 0x20, 0x30, 0x40, 0x50, 0x60, 0x70]

/-- The bits of the destination address in the second encoding byte. -/
def dstBits : List UInt8 := [0x00, 0x01, 0x02, 0x03, 0x05, 0x06, 0x07, 0x08, 0x09, 0x0a, 0x0b]

lemma srcBits_and : ∀ src ∈ srcBits, src &&& iphcCid = 0 ∧ src &&& iphcM = 0 ∧
    src &&& iphcDac = 0 ∧ src &&& iphcDam11 = 0 := by
  simp only [srcBits, List.forall_mem_cons, List.not_mem_nil, false_imp_iff, implies_true]
  decide

lemma dstBits_and : ∀ dst ∈ dstBits, dst &&& iphcCid = 0 ∧ dst &&& iphcSac = 0 ∧
    dst &&& iphcSam11 = 0 := by
  simp only [dstBits, List.forall_mem_cons, List.not_mem_nil, false_imp_iff, implies_true]
  decide

/-- The fields of the second encoding byte, read back through their masks. -/
lemma iphc1_fields {cid src dst : UInt8} (hcid : cid ∈ [0x00, iphcCid]) (hsrc : src ∈ srcBits)
    (hdst : dst ∈ dstBits) :
    (cid ||| src ||| dst) &&& iphcCid = cid ∧
      (cid ||| src ||| dst) &&& iphcSac = src &&& iphcSac ∧
      (cid ||| src ||| dst) &&& iphcSam11 = src &&& iphcSam11 ∧
      (cid ||| src ||| dst) &&& iphcM = dst &&& iphcM ∧
      (cid ||| src ||| dst) &&& iphcDac = dst &&& iphcDac ∧
      (cid ||| src ||| dst) &&& iphcDam11 = dst &&& iphcDam11 := by
  obtain ⟨hs1, hs2, hs3, hs4⟩ := srcBits_and src hsrc
  obtain ⟨hd1, hd2, hd3⟩ := dstBits_and dst hdst
  have hc : ∀ m ∈ [iphcSac, iphcSam11, iphcM, iphcDac, iphcDam11], cid &&& m = 0 := by
    revert cid
    simp only [List.forall_mem_cons, List.not_mem_nil, false_imp_iff, implies_true]
    decide
  have hself : cid &&& iphcCid = cid := by
    revert cid
    simp only [List.forall_mem_cons, List.not_mem_nil, false_imp_iff, implies_true]
    decide
  simp only [List.forall_mem_cons] at hc
  obtain ⟨hc1, hc2, hc3, hc4, hc5, -⟩ := hc
  simp [byte_or_and, hself, hs1, hs2, hs3, hs4, hd1, hd2, hd3, hc1, hc2, hc3, hc4, hc5]

/-! ## Traffic class and flow label -/

section TrafficClass
variable (ip : IpHdr)

lemma trafficClass_high : (trafficClass ip >>> 2) &&& (0x0f : UInt8) = ip.vtc &&& 0x0f := by
  unfold trafficClass
  apply UInt8.eq_of_toBitVec_eq
  ext i hi
  simp only [UInt8.toBitVec_and, UInt8.toBitVec_or, UInt8.toBitVec_shiftLeft,
    UInt8.toBitVec_shiftRight]
  interval_cases i <;> simp

lemma trafficClass_ecn : (trafficClass ip >>> 2) &&& (0x30 : UInt8) = ip.tcflow &&& 0x30 := by
  unfold trafficClass
  apply UInt8.eq_of_toBitVec_eq
  ext i hi
  simp only [UInt8.toBitVec_and, UInt8.toBitVec_or, UInt8.toBitVec_shiftLeft,
    UInt8.toBitVec_shiftRight]
  interval_cases i <;> simp

lemma trafficClass_low : trafficClass ip <<< 6 = (ip.tcflow &&& 0xC0 : UInt8) := by
  unfold trafficClass
  apply UInt8.eq_of_toBitVec_eq
  ext i hi
  simp only [UInt8.toBitVec_and, UInt8.toBitVec_or, UInt8.toBitVec_shiftLeft,
    UInt8.toBitVec_shiftRight]
  interval_cases i <;> simp

/-- ECN and the upper bits of the flow label, in one byte. -/
lemma trafficClass_flow (b : UInt8) (hb : b = (trafficClass ip &&& 0xc0) ||| (ip.tcflow &&& 0x0F)) :
    (b &&& (0x0F : UInt8)) ||| ((b >>> 2) &&& (0x30 : UInt8)) = ip.tcflow &&& (0x3f : UInt8) := by
  subst hb
  unfold trafficClass
  apply UInt8.eq_of_toBitVec_eq
  ext i hi
  simp only [UInt8.toBitVec_and, UInt8.toBitVec_or, UInt8.toBitVec_shiftLeft,
    UInt8.toBitVec_shiftRight]
  interval_cases i <;> simp

/-- The four forms of traffic class and flow label. -/
lemma compressTf_cases :
    ((ip.tcflow &&& 0x0F = 0 ∧ ip.flow = 0) ∧ (ip.vtc &&& 0x0F = 0 ∧ ip.tcflow &&& 0xF0 = 0) ∧
      compressTf ip = (0x18, [])) ∨
    ((ip.tcflow &&& 0x0F = 0 ∧ ip.flow = 0) ∧ compressTf ip = (0x10, [trafficClass ip])) ∨
    ((ip.vtc &&& 0x0F = 0 ∧ ip.tcflow &&& 0xF0 = 0) ∧ compressTf ip = (0x08,
      ((trafficClass ip &&& 0xc0) ||| (ip.tcflow &&& 0x0F)) :: wordBytes ip.flow)) ∨
    compressTf ip = (0x00, trafficClass ip :: ip.tcflow :: wordBytes ip.flow) := by
  unfold compressTf
  simp only
  split_ifs with hflow htc htc
  · simp only [Bool.and_eq_true, beq_iff_eq] at hflow htc
    exact .inl ⟨hflow, htc, rfl⟩
  · simp only [Bool.and_eq_true, beq_iff_eq] at hflow
    exact .inr (.inl ⟨hflow, rfl⟩)
  · simp only [Bool.and_eq_true, beq_iff_eq] at htc
    exact .inr (.inr (.inl ⟨htc, rfl⟩))
  · exact .inr (.inr (.inr rfl))

lemma compressTf_bits : (compressTf ip).1 ∈ [0x00, 0x08, 0x10, (0x18 : UInt8)] := by
  rcases compressTf_cases ip with ⟨-, -, h⟩ | ⟨-, h⟩ | ⟨-, h⟩ | h <;> rw [h] <;> simp

variable {ip} {buffer : ℕ → UInt8} {ptr : ℕ} {iphc0 : UInt8}

/-- A byte put together from the version and the upper nibble of the traffic class. -/
lemma vtc_join {vtc : UInt8} (h : vtc >>> 4 = 6) : 0x60 ||| (vtc &&& 0x0f) = vtc := by
  have hsplit := byte_split vtc 0xf0 0x0f (by decide)
  rwa [high_nibble, h] at hsplit

/-- The second byte of the header: ECN, the rest of the traffic class, and the flow label. -/
lemma tcflow_join (t : UInt8) : (t &&& 0x30) ||| (t &&& 0xC0) ||| (t &&& 0x0f) = t := by
  have hhigh : (t &&& 0x30) ||| (t &&& 0xC0) = t &&& 0xf0 := by
    rw [UInt8.and_comm t, UInt8.and_comm t, UInt8.and_comm t, ← byte_or_and]
    rfl
  rw [hhigh, byte_split t 0xf0 0x0f (by decide)]

lemma tcflow_of_flow_zero {t : UInt8} (h : t &&& 0x0F = 0) :
    ((t &&& 0xC0) &&& (0xC0 : UInt8)) ||| (t &&& 0x30) = t := by
  have hjoin := tcflow_join t
  rwa [h, UInt8.or_zero, UInt8.or_comm, ← UInt8.and_self (a := (0xC0 : UInt8)), ← UInt8.and_assoc]
    at hjoin

lemma tcflow_of_class_zero {t : UInt8} (h : t &&& 0xF0 = 0) : t &&& 0x3f = t := by
  have hlow := byte_split t 0xf0 0x0f (by decide)
  rw [h, UInt8.zero_or] at hlow
  rw [← hlow, UInt8.and_assoc]
  rfl

lemma tcflow_of_zero {t : UInt8} (hflow : t &&& 0x0F = 0) (hclass : t &&& 0xF0 = 0) : t = 0 := by
  rw [← byte_split t 0xf0 0x0f (by decide), hflow, hclass]
  rfl

lemma uncompressTf_spec (hversion : ip.vtc >>> 4 = 6)
    (hfl : iphc0 &&& iphcFlC = (compressTf ip).1 &&& iphcFlC)
    (htc : iphc0 &&& iphcTcC = (compressTf ip).1 &&& iphcTcC)
    (h : Holds buffer ptr (compressTf ip).2) :
    uncompressTf buffer iphc0 ptr =
      ((ip.vtc, ip.tcflow, ip.flow), ptr + (compressTf ip).2.length) := by
  have hvtc := vtc_join hversion
  unfold uncompressTf
  rw [hfl, htc]
  rcases compressTf_cases ip with ⟨hflow, hclass, heq⟩ | ⟨hflow, heq⟩ | ⟨hclass, heq⟩ | heq
  · -- everything is left out
    rw [hclass.1] at hvtc
    have htcflow := tcflow_of_zero hflow.1 hclass.2
    simp +decide [iphcFlC, iphcTcC, heq, ← hvtc, htcflow, hflow.2]
  · rw [heq] at h
    obtain ⟨h0, -⟩ := h
    have hlow := tcflow_of_flow_zero hflow.1
    simp +decide [iphcFlC, iphcTcC, heq, h0, trafficClass_high, trafficClass_ecn, trafficClass_low, hvtc,
      hlow, hflow.2]
  · rw [heq] at h
    obtain ⟨h0, hword⟩ := h
    rw [hclass.1] at hvtc
    have hlow := (trafficClass_flow ip _ h0).trans (tcflow_of_class_zero hclass.2)
    simp +decide [iphcFlC, iphcTcC, heq, hlow, wordAt_of_holds hword, ← hvtc, wordBytes]
  · rw [heq] at h
    obtain ⟨h0, h1, hword⟩ := h
    have hjoin := tcflow_join ip.tcflow
    simp +decide [iphcFlC, iphcTcC, heq, h0, h1, trafficClass_high, trafficClass_ecn, trafficClass_low,
      hvtc, hjoin, wordAt_of_holds hword, wordBytes]

end TrafficClass

/-! ## Next header and hop limit -/

section NextHeader
variable {ip : IpHdr} {buffer : ℕ → UInt8} {ptr : ℕ} {iphc0 : UInt8}

lemma compressNh_bits (ip : IpHdr) : (compressNh ip).1 ∈ [0x00, (0x04 : UInt8)] := by
  unfold compressNh
  split_ifs <;> simp [iphcNhC]

lemma compressTtl_bits (ip : IpHdr) : (compressTtl ip).1 ∈ [0, 1, 2, (3 : UInt8)] := by
  unfold compressTtl
  split_ifs <;> simp

/-- Unless it is UDP, the next header is read back. -/
lemma uncompressNh_spec (old : UInt8) (hnh : iphc0 &&& iphcNhC = (compressNh ip).1)
    (h : Holds buffer ptr (compressNh ip).2) :
    uncompressNh buffer iphc0 old ptr =
      (if ip.proto = uipProtoUdp then old else ip.proto, ptr + (compressNh ip).2.length) := by
  unfold uncompressNh
  rw [hnh]
  by_cases hudp : ip.proto = uipProtoUdp
  · simp +decide [compressNh, hudp]
  · rw [compressNh, if_neg hudp] at h
    simp [compressNh, hudp, h.1]

lemma uncompressTtl_spec (httl : iphc0 &&& 0x03 = (compressTtl ip).1)
    (h : Holds buffer ptr (compressTtl ip).2) :
    uncompressTtl buffer iphc0 ptr = (ip.ttl, ptr + (compressTtl ip).2.length) := by
  unfold uncompressTtl
  rw [httl]
  by_cases h1 : ip.ttl = 1
  · simp [compressTtl, ttlValues, h1]
  by_cases h64 : ip.ttl = 64
  · simp +decide [compressTtl, ttlValues, h64]
  by_cases h255 : ip.ttl = 255
  · simp +decide [compressTtl, ttlValues, h255]
  rw [compressTtl, if_neg h1, if_neg h64, if_neg h255] at h
  simp [compressTtl, h1, h64, h255, h.1]

end NextHeader

/-! ## Interface identifiers -/

section Iid
variable {buffer : ℕ → UInt8} {ptr : ℕ} {a : IpAddr} {lladdr : Lladdr} {pfx l : List UInt8}
  {conf : UInt8}

/-- The bytes of an address. -/
lemma exists_bytes (a : IpAddr) : ∃ b0 b1 b2 b3 b4 b5 b6 b7 b8 b9 b10 b11 b12 b13 b14 b15,
    a.u8 = [b0, b1, b2, b3, b4, b5, b6, b7, b8, b9, b10, b11, b12, b13, b14, b15] := by
  obtain ⟨u8, hlen⟩ := a
  match u8, hlen with
  | [b0, b1, b2, b3, b4, b5, b6, b7, b8, b9, b10, b11, b12, b13, b14, b15], _ =>
    exact ⟨b0, b1, b2, b3, b4, b5, b6, b7, b8, b9, b10, b11, b12, b13, b14, b15, rfl⟩

/-- The three forms of an interface identifier: made of the link-layer address, sixteen bits, or
all of it. -/
lemma compressAddr64_cases (bitpos : UInt8) (a : IpAddr) (lladdr : Lladdr) :
    (a.u8.drop 8 = (lladdr.u8.getD 0 0 ^^^ 0x02) :: lladdr.u8.drop 1 ∧
      compressAddr64 bitpos a lladdr = (3 <<< bitpos, [])) ∨
    (a.u8.drop 8 = [0, 0, 0, 0xff, 0xfe, 0] ++ a.u8.drop 14 ∧
      compressAddr64 bitpos a lladdr = (2 <<< bitpos, a.u8.drop 14)) ∨
    compressAddr64 bitpos a lladdr = (1 <<< bitpos, a.u8.drop 8) := by
  unfold compressAddr64
  split_ifs with hmac hiid
  · exact .inl ⟨by simpa [IpAddr.uipIsAddrMacAddrBased] using hmac, rfl⟩
  · refine .inr (.inl ⟨?_, rfl⟩)
    obtain ⟨b0, b1, b2, b3, b4, b5, b6, b7, b8, b9, b10, b11, b12, b13, b14, b15, hbytes⟩ :=
      exists_bytes a
    simp only [IpAddr.isIid16BitCompressable, IpAddr.u16Zero, hbytes, List.getD_cons_succ,
      List.getD_cons_zero, Nat.reduceMul, Nat.reduceAdd, Bool.and_eq_true, beq_iff_eq] at hiid
    obtain ⟨⟨⟨⟨⟨rfl, rfl⟩, rfl⟩, rfl⟩, rfl⟩, rfl⟩ := hiid
    simp [hbytes]
  · exact .inr (.inr rfl)

/-- Eight bytes from the packet. -/
lemma uncompressAddr_post8 (hpre : nibbleCount (conf >>> 4) = pfx.length)
    (hpost : nibbleCount (conf &&& 0x0f) = 8) (hpfx : pfx.length ≤ 8) (hl : l.length = 8)
    (h : Holds buffer ptr l) : uncompressAddr buffer pfx conf (some lladdr) ptr =
      (.ofBytes (pfx ++ List.replicate (8 - pfx.length) 0 ++ l), ptr + 8) := by
  have hcopy := copyBytes_of_holds h
  rw [hl] at hcopy
  have hzeros : 16 - (pfx.length + 8) = 8 - pfx.length := by omega
  simp [uncompressAddr, hpre, hpost, hcopy, hzeros]

/-- Two bytes from the packet. -/
lemma uncompressAddr_post2 (hpre : nibbleCount (conf >>> 4) = pfx.length)
    (hpost : nibbleCount (conf &&& 0x0f) = 2) (hpfx : pfx.length = 2 ∨ pfx.length = 8)
    (hl : l.length = 2) (h : Holds buffer ptr l) :
    uncompressAddr buffer pfx conf (some lladdr) ptr =
      (.ofBytes (pfx ++ List.replicate (8 - pfx.length) 0 ++ ([0, 0, 0, 0xff, 0xfe, 0] ++ l)),
        ptr + 2) := by
  have hcopy := copyBytes_of_holds h
  rw [hl] at hcopy
  have hlt : pfx.length < 11 := by omega
  have hset : ((pfx ++ List.replicate (14 - pfx.length) (0 : UInt8) ++ l).set 11 0xff).set 12 0xfe =
      pfx ++ List.replicate (8 - pfx.length) 0 ++ ([0, 0, 0, 0xff, 0xfe, 0] ++ l) := by
    rcases hpfx with h2 | h8
    · match pfx, h2 with
      | [p0, p1], _ => rfl
    · match pfx, h8 with
      | [p0, p1, p2, p3, p4, p5, p6, p7], _ => rfl
  have hzeros : 16 - (pfx.length + 2) = 14 - pfx.length := by omega
  simp only [uncompressAddr, hpre, hpost, hcopy, hzeros, List.take_length, hset, hlt, and_self,
    if_true, gt_iff_lt, Nat.zero_lt_succ]

/-- The identifier that belongs to the link-layer address. -/
lemma uncompressAddr_post0 (hpre : nibbleCount (conf >>> 4) = pfx.length)
    (hpost : nibbleCount (conf &&& 0x0f) = 0) (hpfx : pfx.length = 2 ∨ pfx.length = 8) :
    uncompressAddr buffer pfx conf (some lladdr) ptr =
      (.ofBytes (pfx ++ List.replicate (8 - pfx.length) 0 ++
        ((lladdr.u8.getD 0 0 ^^^ 0x02) :: lladdr.u8.drop 1)), ptr) := by
  have hpos : 0 < pfx.length := by omega
  have htake : (IpAddr.ofBytes (pfx ++ List.replicate (16 - pfx.length) 0)).u8.take 8 =
      pfx ++ List.replicate (8 - pfx.length) 0 := by
    rcases hpfx with h2 | h8
    · match pfx, h2 with
      | [p0, p1], _ => rfl
    · match pfx, h8 with
      | [p0, p1, p2, p3, p4, p5, p6, p7], _ => rfl
  simp [uncompressAddr, hpre, hpost, copyBytes, hpos, IpAddr.uipDs6SetAddrIid, htake]

/-- An interface identifier is read back behind the prefix that the decompressor assumes. -/
lemma uncompressAddr_64 {confs : List UInt8} (hconf : pfx.length = 2 ∧ confs = uncLlconf ∨
      pfx.length = 8 ∧ confs = uncCtxconf)
    (h : Holds buffer ptr (compressAddr64 0 a lladdr).2) :
    uncompressAddr buffer pfx (confs.getD (compressAddr64 0 a lladdr).1.toNat 0) (some lladdr) ptr =
      (.ofBytes (pfx ++ List.replicate (8 - pfx.length) 0 ++ a.u8.drop 8),
        ptr + (compressAddr64 0 a lladdr).2.length) := by
  have hpfx : pfx.length = 2 ∨ pfx.length = 8 := hconf.imp And.left And.left
  have h8 : (a.u8.drop 8).length = 8 := by rw [List.length_drop, a.length_u8]
  have h2 : (a.u8.drop 14).length = 2 := by rw [List.length_drop, a.length_u8]
  rcases compressAddr64_cases 0 a lladdr with ⟨hiid, heq⟩ | ⟨hiid, heq⟩ | heq
  · rw [heq, hiid]
    rcases hconf with ⟨hlen, rfl⟩ | ⟨hlen, rfl⟩
    · show uncompressAddr buffer pfx 0x20 (some lladdr) ptr = _
      exact uncompressAddr_post0 (by rw [hlen]; decide) (by decide) hpfx
    · show uncompressAddr buffer pfx 0x80 (some lladdr) ptr = _
      exact uncompressAddr_post0 (by rw [hlen]; decide) (by decide) hpfx
  · rw [heq] at h ⊢
    rw [hiid, h2]
    rcases hconf with ⟨hlen, rfl⟩ | ⟨hlen, rfl⟩
    · show uncompressAddr buffer pfx 0x22 (some lladdr) ptr = _
      exact uncompressAddr_post2 (by rw [hlen]; decide) (by decide) hpfx h2 h
    · show uncompressAddr buffer pfx 0x82 (some lladdr) ptr = _
      exact uncompressAddr_post2 (by rw [hlen]; decide) (by decide) hpfx h2 h
  · rw [heq] at h ⊢
    rw [h8]
    rcases hconf with ⟨hlen, rfl⟩ | ⟨hlen, rfl⟩
    · show uncompressAddr buffer pfx 0x28 (some lladdr) ptr = _
      exact uncompressAddr_post8 (by rw [hlen]; decide) (by decide) (by omega) h8 h
    · show uncompressAddr buffer pfx 0x88 (some lladdr) ptr = _
      exact uncompressAddr_post8 (by rw [hlen]; decide) (by decide) (by omega) h8 h

/-- A full address is read back. -/
lemma uncompressAddr_full (h : Holds buffer ptr a.u8) (lladdr : Option Lladdr) :
    uncompressAddr buffer pfx 0x0f lladdr ptr = (a, ptr + 16) := by
  have hcopy := copyBytes_of_holds h
  rw [a.length_u8] at hcopy
  have hpre : nibbleCount ((0x0f : UInt8) >>> 4) = 0 := by decide
  have hpost : nibbleCount 0x0f = 16 := by decide
  simp [uncompressAddr, hpre, hpost, hcopy]

/-- The mode of an interface identifier, moved to the bits of the source address. -/
lemma compressAddr64_sam (a : IpAddr) (lladdr : Lladdr) :
    (compressAddr64 iphcSamBit a lladdr).2 = (compressAddr64 0 a lladdr).2 ∧
      ((compressAddr64 0 a lladdr).1, (compressAddr64 iphcSamBit a lladdr).1) ∈
        [(1, 0x10), (2, 0x20), (3, (0x30 : UInt8))] := by
  unfold compressAddr64
  split_ifs <;> simp +decide [iphcSamBit]

/-- What the masks read of the bits of a source address with an interface identifier. -/
lemma sam_fields : ∀ m ∈ [(1, 0x10), (2, 0x20), ((3 : UInt8), (0x30 : UInt8))], m.1 ≠ 0 ∧
    (iphcSac ||| m.2) &&& iphcSac ≠ 0 ∧ m.2 &&& iphcSac = 0 ∧
    (((iphcSac ||| m.2) &&& iphcSam11) >>> iphcSamBit) &&& (0x03 : UInt8) = m.1 ∧
    ((m.2 &&& iphcSam11) >>> iphcSamBit) &&& (0x03 : UInt8) = m.1 := by
  simp only [List.forall_mem_cons, List.not_mem_nil, false_imp_iff, implies_true]
  decide

end Iid

/-! ## The source address -/

section Source
variable (contexts : List AddrContext) (uipLladdr : Lladdr) (ip : IpHdr)

/-- The source address that the receiver reads, if it knows the context. -/
def restoredSrc : Option IpAddr :=
  match srcContext contexts ip with
  | some _ =>
    (addrContextLookupByNumber contexts (contextNumbers contexts ip >>> 4)).map fun c =>
      .ofBytes (c.ctxPrefix ++ ip.srcipaddr.u8.drop 8)
  | none =>
    if !ip.srcipaddr.uipIsAddrUnspecified && ip.srcipaddr.uipIsAddrLinkLocal &&
        ip.destipaddr.u16Zero 1 && ip.destipaddr.u16Zero 2 && ip.destipaddr.u16Zero 3 then
      some (.ofBytes (llPrefix ++ List.replicate 6 0 ++ ip.srcipaddr.u8.drop 8))
    else some ip.srcipaddr

/-- The four forms of a source address, with what is restored of them. -/
lemma compressSrc_cases :
    (ip.srcipaddr.uipIsAddrUnspecified = true ∧ compressSrc contexts uipLladdr ip = (iphcSac, []) ∧
      restoredSrc contexts ip = some ip.srcipaddr) ∨
    (∃ c, srcContext contexts ip = some c ∧ contextByte contexts ip = true ∧
      compressSrc contexts uipLladdr ip =
        (iphcSac ||| (compressAddr64 iphcSamBit ip.srcipaddr uipLladdr).1,
          (compressAddr64 iphcSamBit ip.srcipaddr uipLladdr).2)) ∨
    (compressSrc contexts uipLladdr ip = compressAddr64 iphcSamBit ip.srcipaddr uipLladdr ∧
      restoredSrc contexts ip =
        some (.ofBytes (llPrefix ++ List.replicate 6 0 ++ ip.srcipaddr.u8.drop 8))) ∨
    (compressSrc contexts uipLladdr ip = (0, ip.srcipaddr.u8) ∧
      restoredSrc contexts ip = some ip.srcipaddr) := by
  unfold restoredSrc compressSrc srcContext contextByte
  by_cases hunspec : ip.srcipaddr.uipIsAddrUnspecified = true
  · exact .inl ⟨hunspec, by rw [if_pos hunspec], by simp [hunspec]⟩
  · rw [if_neg hunspec, if_neg hunspec]
    cases hctx : addrContextLookupByPrefix contexts ip.srcipaddr with
    | some c => exact .inr (.inl ⟨c, rfl, by simp, rfl⟩)
    | none =>
        by_cases hll : (ip.srcipaddr.uipIsAddrLinkLocal && ip.destipaddr.u16Zero 1 &&
            ip.destipaddr.u16Zero 2 && ip.destipaddr.u16Zero 3) = true
        · refine .inr (.inr (.inl ⟨if_pos hll, ?_⟩))
          rw [if_pos]
          simpa [hunspec] using hll
        · refine .inr (.inr (.inr ⟨if_neg hll, ?_⟩))
          rw [if_neg]
          simpa [hunspec] using hll

lemma compressSrc_bits : (compressSrc contexts uipLladdr ip).1 ∈ srcBits := by
  obtain ⟨-, hmode⟩ := compressAddr64_sam ip.srcipaddr uipLladdr
  simp only [List.mem_cons, Prod.mk.injEq, List.not_mem_nil, or_false] at hmode
  rcases compressSrc_cases contexts uipLladdr ip with ⟨-, h, -⟩ | ⟨c, -, -, h⟩ | ⟨h, -⟩ | ⟨h, -⟩
  · rw [h]
    show iphcSac ∈ srcBits
    decide
  · rw [h]
    rcases hmode with ⟨-, h⟩ | ⟨-, h⟩ | ⟨-, h⟩ <;> simp only [h] <;> decide
  · rw [h]
    rcases hmode with ⟨-, h⟩ | ⟨-, h⟩ | ⟨-, h⟩ <;> simp only [h] <;> decide
  · simp [h, srcBits]

variable {contexts uipLladdr ip} {buffer : ℕ → UInt8} {ptr : ℕ} {iphc1 ctx : UInt8}

lemma unspecified_of_zero {a : IpAddr} (h : a.uipIsAddrUnspecified = true) :
    a = .unspecified := by
  obtain ⟨b0, b1, b2, b3, b4, b5, b6, b7, b8, b9, b10, b11, b12, b13, b14, b15, hbytes⟩ :=
    exists_bytes a
  have hrange : List.range 8 = [0, 1, 2, 3, 4, 5, 6, 7] := rfl
  simp only [IpAddr.uipIsAddrUnspecified, IpAddr.u16Zero, hbytes, hrange, List.all_cons,
    List.all_nil, List.getD_cons_succ, List.getD_cons_zero, Nat.reduceMul, Nat.reduceAdd,
    Bool.and_eq_true, beq_iff_eq] at h
  obtain ⟨⟨rfl, rfl⟩, ⟨rfl, rfl⟩, ⟨rfl, rfl⟩, ⟨rfl, rfl⟩, ⟨rfl, rfl⟩, ⟨rfl, rfl⟩, ⟨rfl, rfl⟩,
    ⟨rfl, rfl⟩, -⟩ := h
  apply IpAddr.ext
  rw [hbytes]
  rfl

/-- The decompressor reads what the receiver can restore of the source address. -/
lemma uncompressSrc_spec
    (hsac : iphc1 &&& iphcSac = (compressSrc contexts uipLladdr ip).1 &&& iphcSac)
    (hsam : iphc1 &&& iphcSam11 = (compressSrc contexts uipLladdr ip).1 &&& iphcSam11)
    (hcid : contextByte contexts ip = true → iphc1 &&& iphcCid ≠ 0 ∧
      ctx = contextNumbers contexts ip)
    (h : Holds buffer ptr (compressSrc contexts uipLladdr ip).2) :
    uncompressSrc contexts buffer uipLladdr iphc1 ctx ptr =
      (restoredSrc contexts ip).map fun a =>
        (a, ptr + (compressSrc contexts uipLladdr ip).2.length) := by
  obtain ⟨hbytes, hmode⟩ := compressAddr64_sam ip.srcipaddr uipLladdr
  obtain ⟨hne, hsac1, hsac0, hsam1, hsam0⟩ := sam_fields _ hmode
  unfold uncompressSrc
  simp only [hsac, hsam]
  rcases compressSrc_cases contexts uipLladdr ip with
    ⟨hunspec, heq, hrestored⟩ | ⟨c, hctx, hbyte, heq⟩ | ⟨heq, hrestored⟩ | ⟨heq, hrestored⟩
  · rw [hrestored, unspecified_of_zero hunspec, heq]
    rfl
  · obtain ⟨hflag, rfl⟩ := hcid hbyte
    rw [heq] at h ⊢
    rw [hbytes] at h ⊢
    simp only [hsac1, hsam1, hflag, ne_eq, not_false_eq_true, if_true, hne, if_false, restoredSrc,
      hctx]
    cases addrContextLookupByNumber contexts (contextNumbers contexts ip >>> 4) with
    | none => rfl
    | some c' =>
        have hiid := uncompressAddr_64 (.inr ⟨c'.length_ctxPrefix, rfl⟩) h
        rw [c'.length_ctxPrefix] at hiid
        simpa using hiid
  · rw [heq] at h ⊢
    rw [hbytes] at h ⊢
    simp only [hsac0, hsam0, hrestored, ne_eq, not_true_eq_false, if_false, Option.map_some]
    exact congrArg some (uncompressAddr_64 (.inl ⟨rfl, rfl⟩) h)
  · rw [heq] at h ⊢
    rw [hrestored, ip.srcipaddr.length_u8, if_neg (not_not.mpr (UInt8.zero_and (a := iphcSac)))]
    have hfull : uncLlconf.getD ((((0 : UInt8) &&& iphcSam11) >>> iphcSamBit) &&& 0x03).toNat 0 =
        0x0f := by decide
    simp only [hfull]
    exact congrArg some (uncompressAddr_full h _)

end Source

/-! ## The destination address -/

section Destination
variable (contexts : List AddrContext) (rimeDestaddr : Lladdr) (ip : IpHdr)

/-- The destination address that the receiver reads, if it knows the context. -/
def restoredDst : Option IpAddr :=
  match dstContext contexts ip with
  | some _ =>
    (addrContextLookupByNumber contexts (contextNumbers contexts ip &&& 0x0f)).map fun c =>
      .ofBytes (c.ctxPrefix ++ ip.destipaddr.u8.drop 8)
  | none => some ip.destipaddr

/-- A multicast address is two bytes, zeros, and the bytes from the packet. -/
lemma uncompressAddr_mcast {buffer : ℕ → UInt8} {ptr : ℕ} (p0 p1 conf : UInt8) {l : List UInt8}
    (hpre : nibbleCount (conf >>> 4) = 2) (hpost : nibbleCount (conf &&& 0x0f) = l.length)
    (hl : l.length = 1 ∨ l.length = 3 ∨ l.length = 5) (h : Holds buffer ptr l) :
    uncompressAddr buffer [p0, p1] conf none ptr =
      (.ofBytes ([p0, p1] ++ List.replicate (14 - l.length) 0 ++ l), ptr + l.length) := by
  have hcopy := copyBytes_of_holds h
  have hpos : 0 < l.length := by omega
  have hne : l.length ≠ 2 := by omega
  have hzeros : 16 - (2 + l.length) = 14 - l.length := by omega
  simp [uncompressAddr, hpre, hpost, hcopy, hpos, hne, hzeros]

/-- The six forms of a destination address. -/
lemma compressDst_cases :
    (ip.destipaddr.isMcastAddrCompressable8 = true ∧ ip.destipaddr.uipIsAddrMcast = true ∧
      compressDst contexts rimeDestaddr ip = (iphcM ||| 3, ip.destipaddr.u8.drop 15)) ∨
    (ip.destipaddr.isMcastAddrCompressable32 = true ∧ ip.destipaddr.uipIsAddrMcast = true ∧
      compressDst contexts rimeDestaddr ip =
        (iphcM ||| 2, ip.destipaddr.u8.getD 1 0 :: ip.destipaddr.u8.drop 13)) ∨
    (ip.destipaddr.isMcastAddrCompressable48 = true ∧ ip.destipaddr.uipIsAddrMcast = true ∧
      compressDst contexts rimeDestaddr ip =
        (iphcM ||| 1, ip.destipaddr.u8.getD 1 0 :: ip.destipaddr.u8.drop 11)) ∨
    (ip.destipaddr.uipIsAddrMcast = true ∧
      compressDst contexts rimeDestaddr ip = (iphcM, ip.destipaddr.u8)) ∨
    (∃ c, dstContext contexts ip = some c ∧ contextByte contexts ip = true ∧
      compressDst contexts rimeDestaddr ip =
        (iphcDac ||| (compressAddr64 iphcDamBit ip.destipaddr rimeDestaddr).1,
          (compressAddr64 iphcDamBit ip.destipaddr rimeDestaddr).2)) ∨
    (dstContext contexts ip = none ∧ (ip.destipaddr.uipIsAddrLinkLocal &&
        ip.destipaddr.u16Zero 1 && ip.destipaddr.u16Zero 2 && ip.destipaddr.u16Zero 3) = true ∧
      compressDst contexts rimeDestaddr ip =
        compressAddr64 iphcDamBit ip.destipaddr rimeDestaddr) ∨
    (dstContext contexts ip = none ∧
      compressDst contexts rimeDestaddr ip = (0, ip.destipaddr.u8)) := by
  unfold compressDst dstContext contextByte
  simp only
  by_cases hmcast : ip.destipaddr.uipIsAddrMcast = true
  · simp only [hmcast, if_true, true_and]
    by_cases h8 : ip.destipaddr.isMcastAddrCompressable8 = true
    · exact .inl ⟨h8, if_pos h8⟩
    rw [if_neg h8]
    by_cases h32 : ip.destipaddr.isMcastAddrCompressable32 = true
    · exact .inr (.inl ⟨h32, if_pos h32⟩)
    rw [if_neg h32]
    by_cases h48 : ip.destipaddr.isMcastAddrCompressable48 = true
    · exact .inr (.inr (.inl ⟨h48, if_pos h48⟩))
    exact .inr (.inr (.inr (.inl (if_neg h48))))
  · rw [if_neg hmcast, if_neg hmcast]
    cases hctx : addrContextLookupByPrefix contexts ip.destipaddr with
    | some c => exact .inr (.inr (.inr (.inr (.inl ⟨c, rfl, by simp, rfl⟩))))
    | none =>
        by_cases hll : (ip.destipaddr.uipIsAddrLinkLocal && ip.destipaddr.u16Zero 1 &&
            ip.destipaddr.u16Zero 2 && ip.destipaddr.u16Zero 3) = true
        · exact .inr (.inr (.inr (.inr (.inr (.inl ⟨rfl, hll, if_pos hll⟩)))))
        · exact .inr (.inr (.inr (.inr (.inr (.inr ⟨rfl, if_neg hll⟩)))))

/-- The mode of an interface identifier, at the bits of the destination address. -/
lemma compressAddr64_dam (a : IpAddr) (lladdr : Lladdr) :
    (compressAddr64 iphcDamBit a lladdr).1 ∈ [1, 2, (3 : UInt8)] := by
  unfold compressAddr64
  split_ifs <;> simp +decide [iphcDamBit]

/-- What the masks read of the bits of a multicast address. -/
lemma mcast_fields : ∀ m ∈ [0, 1, 2, (3 : UInt8)], (iphcM ||| m) &&& iphcM ≠ 0 ∧
    (iphcM ||| m) &&& iphcDac = 0 ∧
    (((iphcM ||| m) &&& iphcDam11) >>> iphcDamBit) &&& (0x03 : UInt8) = m := by
  simp only [List.forall_mem_cons, List.not_mem_nil, false_imp_iff, implies_true]
  decide

/-- The address that is put together from the bytes of a multicast address. -/
lemma mcast_restored (hmcast : ip.destipaddr.uipIsAddrMcast = true) :
    (ip.destipaddr.isMcastAddrCompressable8 = true → .ofBytes ([0xff, 0x02] ++
      List.replicate (14 - (ip.destipaddr.u8.drop 15).length) 0 ++ ip.destipaddr.u8.drop 15) =
        ip.destipaddr) ∧
    (ip.destipaddr.isMcastAddrCompressable32 = true → .ofBytes ([0xff, ip.destipaddr.u8.getD 1 0] ++
      List.replicate (14 - (ip.destipaddr.u8.drop 13).length) 0 ++ ip.destipaddr.u8.drop 13) =
        ip.destipaddr) ∧
    (ip.destipaddr.isMcastAddrCompressable48 = true → .ofBytes ([0xff, ip.destipaddr.u8.getD 1 0] ++
      List.replicate (14 - (ip.destipaddr.u8.drop 11).length) 0 ++ ip.destipaddr.u8.drop 11) =
        ip.destipaddr) := by
  obtain ⟨b0, b1, b2, b3, b4, b5, b6, b7, b8, b9, b10, b11, b12, b13, b14, b15, hbytes⟩ :=
    exists_bytes ip.destipaddr
  simp only [IpAddr.uipIsAddrMcast, hbytes, List.getD_cons_zero, beq_iff_eq] at hmcast
  subst hmcast
  simp only [IpAddr.isMcastAddrCompressable8, IpAddr.isMcastAddrCompressable32,
    IpAddr.isMcastAddrCompressable48, IpAddr.u16Zero, hbytes, List.getD_cons_succ,
    List.getD_cons_zero, Nat.reduceMul, Nat.reduceAdd, Bool.and_eq_true, beq_iff_eq]
  refine ⟨?_, ?_, ?_⟩
  · rintro ⟨⟨⟨⟨⟨⟨⟨rfl, rfl, rfl⟩, rfl, rfl⟩, rfl, rfl⟩, rfl, rfl⟩, rfl, rfl⟩, rfl, rfl⟩, rfl⟩
    exact IpAddr.ext hbytes.symm
  · rintro ⟨⟨⟨⟨⟨⟨rfl, rfl⟩, rfl, rfl⟩, rfl, rfl⟩, rfl, rfl⟩, rfl, rfl⟩, rfl⟩
    exact IpAddr.ext hbytes.symm
  · rintro ⟨⟨⟨⟨⟨rfl, rfl⟩, rfl, rfl⟩, rfl, rfl⟩, rfl, rfl⟩, rfl⟩
    exact IpAddr.ext hbytes.symm

/-- A link-local address whose words 1 to 3 are zero has the prefix that the decompressor puts
before its interface identifier. -/
lemma linkLocal_restored {a : IpAddr} (h : (a.uipIsAddrLinkLocal && a.u16Zero 1 && a.u16Zero 2 &&
    a.u16Zero 3) = true) :
    .ofBytes (llPrefix ++ List.replicate (8 - llPrefix.length) 0 ++ a.u8.drop 8) = a := by
  obtain ⟨b0, b1, b2, b3, b4, b5, b6, b7, b8, b9, b10, b11, b12, b13, b14, b15, hbytes⟩ :=
    exists_bytes a
  simp only [IpAddr.uipIsAddrLinkLocal, IpAddr.u16Zero, hbytes, List.getD_cons_succ,
    List.getD_cons_zero, Nat.reduceMul, Nat.reduceAdd, Bool.and_eq_true, beq_iff_eq] at h
  obtain ⟨⟨⟨⟨rfl, rfl⟩, rfl, rfl⟩, rfl, rfl⟩, rfl, rfl⟩ := h
  rw [hbytes]
  exact IpAddr.ext hbytes.symm

/-- What the masks read of the bits of a destination address with an interface identifier. -/
lemma dam_fields : ∀ m ∈ [1, 2, (3 : UInt8)],
    (iphcDac ||| m) &&& iphcM = 0 ∧ m &&& iphcM = 0 ∧
    (iphcDac ||| m) &&& iphcDac ≠ 0 ∧ m &&& iphcDac = 0 ∧
    (((iphcDac ||| m) &&& iphcDam11) >>> iphcDamBit) &&& (0x03 : UInt8) = m ∧
    ((m &&& iphcDam11) >>> iphcDamBit) &&& (0x03 : UInt8) = m := by
  simp only [List.forall_mem_cons, List.not_mem_nil, false_imp_iff, implies_true]
  decide

lemma compressDst_bits : (compressDst contexts rimeDestaddr ip).1 ∈ dstBits := by
  have hmode := compressAddr64_dam ip.destipaddr rimeDestaddr
  simp only [List.mem_cons, List.not_mem_nil, or_false] at hmode
  rcases compressDst_cases contexts rimeDestaddr ip with
    ⟨-, -, h⟩ | ⟨-, -, h⟩ | ⟨-, -, h⟩ | ⟨-, h⟩ | ⟨c, -, -, h⟩ | ⟨-, -, h⟩ | ⟨-, h⟩
  · rw [h]
    show iphcM ||| 3 ∈ dstBits
    decide
  · rw [h]
    show iphcM ||| 2 ∈ dstBits
    decide
  · rw [h]
    show iphcM ||| 1 ∈ dstBits
    decide
  · rw [h]
    show iphcM ∈ dstBits
    decide
  · rw [h]
    rcases hmode with h | h | h <;> simp only [h] <;> decide
  · rw [h]
    rcases hmode with h | h | h <;> simp only [h] <;> decide
  · simp [h, dstBits]

variable {contexts rimeDestaddr ip} {buffer : ℕ → UInt8} {ptr : ℕ} {iphc1 ctx : UInt8}

/-- The decompressor reads what the receiver can restore of the destination address. -/
lemma uncompressDst_spec (old : IpAddr)
    (hm : iphc1 &&& iphcM = (compressDst contexts rimeDestaddr ip).1 &&& iphcM)
    (hdac : iphc1 &&& iphcDac = (compressDst contexts rimeDestaddr ip).1 &&& iphcDac)
    (hdam : iphc1 &&& iphcDam11 = (compressDst contexts rimeDestaddr ip).1 &&& iphcDam11)
    (hcid : contextByte contexts ip = true → iphc1 &&& iphcCid ≠ 0 ∧
      ctx = contextNumbers contexts ip)
    (h : Holds buffer ptr (compressDst contexts rimeDestaddr ip).2) :
    uncompressDst contexts buffer rimeDestaddr iphc1 ctx old ptr =
      (restoredDst contexts ip).map fun a =>
        (a, ptr + (compressDst contexts rimeDestaddr ip).2.length) := by
  have hbit : compressAddr64 iphcDamBit ip.destipaddr rimeDestaddr =
    compressAddr64 0 ip.destipaddr rimeDestaddr := rfl
  have hmode := compressAddr64_dam ip.destipaddr rimeDestaddr
  rw [hbit] at hmode
  obtain ⟨hm1, hm0, hdac1, hdac0, hdam1, hdam0⟩ := dam_fields _ hmode
  have hlen : ∀ k, (ip.destipaddr.u8.drop k).length = 16 - k := fun k => by
    rw [List.length_drop, ip.destipaddr.length_u8]
  unfold uncompressDst
  simp only [hm, hdac, hdam]
  rcases compressDst_cases contexts rimeDestaddr ip with
    ⟨h8, hmcast, heq⟩ | ⟨h32, hmcast, heq⟩ | ⟨h48, hmcast, heq⟩ | ⟨hmcast, heq⟩ |
    ⟨c, hctx, hbyte, heq⟩ | ⟨hctx, hll, heq⟩ | ⟨hctx, heq⟩
  · obtain ⟨hflag, hnodac, hfield⟩ := mcast_fields 3 (by decide)
    rw [heq] at h ⊢
    have hread := uncompressAddr_mcast 0xff 0x02 0x21 (by decide) (by rw [hlen]; decide)
      (.inl (hlen 15)) h
    rw [(mcast_restored ip hmcast).1 h8] at hread
    simp only [hflag, hnodac, hfield, ne_eq, not_true_eq_false, not_false_eq_true, if_true, if_false,
      restoredDst, dstContext, hmcast, Option.map_some]
    exact congrArg some hread
  · obtain ⟨hflag, hnodac, hfield⟩ := mcast_fields 2 (by decide)
    rw [heq] at h ⊢
    have hread := uncompressAddr_mcast 0xff (ip.destipaddr.u8.getD 1 0) 0x23 (by decide)
      (by rw [hlen]; decide) (.inr (.inl (hlen 13))) h.2
    rw [(mcast_restored ip hmcast).2.1 h32] at hread
    simp only [hflag, hnodac, hfield, ne_eq, not_true_eq_false, not_false_eq_true, if_true, if_false,
      restoredDst, dstContext, hmcast, Option.map_some, h.1, List.length_cons]
    rw [Nat.add_assoc ptr 1, Nat.add_comm 1] at hread
    exact congrArg some hread
  · obtain ⟨hflag, hnodac, hfield⟩ := mcast_fields 1 (by decide)
    rw [heq] at h ⊢
    have hread := uncompressAddr_mcast 0xff (ip.destipaddr.u8.getD 1 0) 0x25 (by decide)
      (by rw [hlen]; decide) (.inr (.inr (hlen 11))) h.2
    rw [(mcast_restored ip hmcast).2.2 h48] at hread
    simp only [hflag, hnodac, hfield, ne_eq, not_true_eq_false, not_false_eq_true, if_true, if_false,
      restoredDst, dstContext, hmcast, Option.map_some, h.1, List.length_cons]
    rw [Nat.add_assoc ptr 1, Nat.add_comm 1] at hread
    exact congrArg some hread
  · obtain ⟨hflag, hnodac, hfield⟩ := mcast_fields 0 (by decide)
    rw [UInt8.or_zero] at hflag hnodac hfield
    rw [heq] at h ⊢
    simp only [hflag, hnodac, hfield, ne_eq, not_true_eq_false, not_false_eq_true, if_true, if_false,
      restoredDst, dstContext, hmcast, Option.map_some, ip.destipaddr.length_u8]
    exact congrArg some (uncompressAddr_full h none)
  · obtain ⟨hflag, rfl⟩ := hcid hbyte
    rw [heq, hbit] at h ⊢
    simp only [hm1, hdac1, hdam1, hflag, ne_eq, not_true_eq_false, not_false_eq_true, if_true,
      if_false, restoredDst, hctx]
    cases addrContextLookupByNumber contexts (contextNumbers contexts ip &&& 0x0f) with
    | none => rfl
    | some c' =>
        have hiid := uncompressAddr_64 (.inr ⟨c'.length_ctxPrefix, rfl⟩) h
        rw [c'.length_ctxPrefix] at hiid
        simpa using hiid
  · rw [heq, hbit] at h ⊢
    have hread := uncompressAddr_64 (.inl ⟨(rfl : llPrefix.length = 2), rfl⟩) h
    rw [linkLocal_restored hll] at hread
    simp only [hm0, hdac0, hdam0, ne_eq, not_true_eq_false, if_false, restoredDst, hctx,
      Option.map_some]
    exact congrArg some hread
  · rw [heq] at h ⊢
    simp only [UInt8.zero_and, ne_eq, not_true_eq_false, if_false, restoredDst, hctx,
      Option.map_some, ip.destipaddr.length_u8]
    exact congrArg some (uncompressAddr_full h _)

end Destination

/-! ## The UDP header -/

section Udp
variable {udp : UdpHdr} {buffer : ℕ → UInt8} {ptr : ℕ}

/-- A port in the range of 256 ports is its low byte there. -/
lemma port_8bit {v : UInt16} (h : v &&& 0xff00 = udp8BitPortMin) :
    udp8BitPortMin + (v - udp8BitPortMin).toUInt8.toUInt16 = v := by
  have hlt : (v &&& 0x00ff).toNat < 256 := by
    rw [UInt16.toNat_and]
    exact Nat.and_lt_two_pow _ (show 255 < 2 ^ 8 by omega)
  have hv : v.toNat = 0xF000 + (v &&& 0x00ff).toNat := by
    conv_lhs => rw [← word_split v 0xff00 0x00ff (by decide), h, UInt16.toNat_or]
    exact shiftLeft_or_eq (a := 0xF0) (n := 8) hlt
  apply UInt16.toNat_inj.mp
  simp only [UInt16.toNat_add, UInt8.toNat_toUInt16, UInt16.toNat_toUInt8, UInt16.toNat_sub]
  have hmin : udp8BitPortMin.toNat = 0xF000 := rfl
  omega

/-- A port in the range of sixteen ports is a nibble there. -/
lemma port_4bit {v : UInt16} (h : v &&& 0xfff0 = udp4BitPortMin) :
    ∃ n < 16, v.toNat = 0xF0B0 + n := by
  have hlt : (v &&& 0x000f).toNat < 16 := by
    rw [UInt16.toNat_and]
    exact Nat.and_lt_two_pow _ (show 15 < 2 ^ 4 by omega)
  refine ⟨_, hlt, ?_⟩
  conv_lhs => rw [← word_split v 0xfff0 0x000f (by decide), h, UInt16.toNat_or]
  exact shiftLeft_or_eq (a := 0xF0B) (n := 4) hlt

/-- The byte with the nibbles of two ports. -/
lemma ports_4bit {v w : UInt16} (hv : v &&& 0xfff0 = udp4BitPortMin)
    (hw : w &&& 0xfff0 = udp4BitPortMin) {b : UInt8}
    (hb : b = ((v - udp4BitPortMin) <<< 4).toUInt8 + (w - udp4BitPortMin).toUInt8) :
    udp4BitPortMin + (b >>> 4).toUInt16 = v ∧ udp4BitPortMin + (b &&& 0x0F).toUInt16 = w := by
  obtain ⟨m, hm, hv⟩ := port_4bit hv
  obtain ⟨n, hn, hw⟩ := port_4bit hw
  have hmin : udp4BitPortMin.toNat = 0xF0B0 := rfl
  have hbyte : b.toNat = 16 * m + n := by
    rw [hb, UInt8.toNat_add, UInt16.toNat_toUInt8, UInt16.toNat_toUInt8, UInt16.toNat_shiftLeft,
      UInt16.toNat_sub, UInt16.toNat_sub, hv, hw, hmin, Nat.shiftLeft_eq]
    simp
    omega
  constructor
  · apply UInt16.toNat_inj.mp
    rw [UInt16.toNat_add, UInt8.toNat_toUInt16, UInt8.toNat_shiftRight, hbyte, hmin, hv,
      Nat.shiftRight_eq_div_pow]
    simp
    omega
  · apply UInt16.toNat_inj.mp
    rw [UInt16.toNat_add, UInt8.toNat_toUInt16, UInt8.toNat_and, hbyte, hmin, hw,
      show (0x0F : UInt8).toNat = 2 ^ 4 - 1 from rfl, Nat.and_two_pow_sub_one_eq_mod]
    omega

/-- Ports and checksum are read back, in each of the four forms of the ports. -/
lemma uncompressUdp_spec (old : UdpHdr) (h : Holds buffer ptr (compressUdp udp)) :
    buffer ptr &&& 0xF8 = 0xF0 ∧ uncompressUdp buffer old ptr =
      ({ udp with udplen := old.udplen }, ptr + (compressUdp udp).length) := by
  unfold compressUdp at h ⊢
  simp only [holds_append] at h
  obtain ⟨hports, hchksum⟩ := h
  have hsum := wordAt_of_holds hchksum
  split_ifs at hports hsum ⊢ with h4 hd hs
  · obtain ⟨h0, h1, -⟩ := hports
    obtain ⟨hsrc, hdest⟩ := ports_4bit h4.1 h4.2 h1
    replace hsum : wordAt buffer (ptr + 2) = udp.udpchksum := hsum
    refine ⟨by rw [h0]; decide, ?_⟩
    simpa +decide [uncompressUdp, h0, hsum, wordBytes, nhcUdpCsP] using ⟨hsrc, hdest⟩
  · obtain ⟨⟨h0, hword⟩, hlow⟩ := holds_append.mp hports
    have hdest : udp8BitPortMin + (buffer (ptr + 3)).toUInt16 = udp.destport := by
      rw [show buffer (ptr + 3) = _ from hlow.1, port_8bit hd]
    replace hsum : wordAt buffer (ptr + 4) = udp.udpchksum := hsum
    refine ⟨by rw [h0]; decide, ?_⟩
    simp +decide [uncompressUdp, h0, wordAt_of_holds hword, hdest, hsum, wordBytes, nhcUdpCsP]
  · obtain ⟨h0, h1, hword⟩ := hports
    have hsrc : udp8BitPortMin + (buffer (ptr + 1)).toUInt16 = udp.srcport := by
      rw [h1, port_8bit hs]
    replace hsum : wordAt buffer (ptr + 4) = udp.udpchksum := hsum
    refine ⟨by rw [h0]; decide, ?_⟩
    simp +decide [uncompressUdp, h0, wordAt_of_holds hword, hsrc, hsum, wordBytes, nhcUdpCsP]
  · obtain ⟨⟨h0, hsrc⟩, hdest⟩ := holds_append.mp hports
    replace hdest : Holds buffer (ptr + 3) (wordBytes udp.destport) := hdest
    replace hsum : wordAt buffer (ptr + 5) = udp.udpchksum := hsum
    refine ⟨by rw [h0]; decide, ?_⟩
    simp +decide [uncompressUdp, h0, wordAt_of_holds hsrc, wordAt_of_holds hdest, hsum, wordBytes,
      nhcUdpCsP]

end Udp
end Sicslowpan
end Contiki

import Contiki.Sicslowpan.Fragmentation
import Contiki.Sicslowpan.Hc06Lossless

/-!
# Packets and their headers

A packet is a list of bytes that begins with its headers.  `IpPacket.restored` is the packet that
the receiver puts together of it: with HC06 the source address can differ (`restored_eq_iff`).
`uncompressHdr_first` says that the headers of the first frame are decompressed to those of the
restored packet.
-/

namespace Contiki
namespace Sicslowpan

lemma wordBytes_wordAt (b : ℕ → UInt8) (k : ℕ) : wordBytes (wordAt b k) = [b k, b (k + 1)] := by
  have hlow : (wordAt b k).toNat = (b k).toNat * 2 ^ 8 + (b (k + 1)).toNat := by
    have hk := (b k).toNat_lt
    unfold wordAt
    rw [UInt16.toNat_or, UInt16.toNat_shiftLeft, UInt8.toNat_toUInt16, UInt8.toNat_toUInt16]
    rw [← shiftLeft_or_eq (b (k + 1)).toNat_lt, Nat.mod_eq_of_lt]
    · rfl
    · show (b k).toNat <<< 8 < 2 ^ 16
      rw [Nat.shiftLeft_eq]
      omega
  have h1 := (b (k + 1)).toNat_lt
  unfold wordBytes
  congr 1
  · apply UInt8.toNat_inj.mp
    rw [UInt16.toNat_toUInt8, UInt16.toNat_shiftRight, hlow]
    show ((b k).toNat * 2 ^ 8 + (b (k + 1)).toNat) >>> 8 % 2 ^ 8 = _
    rw [Nat.shiftRight_eq_div_pow]
    have h0 := (b k).toNat_lt
    omega
  · congr 1
    apply UInt8.toNat_inj.mp
    rw [UInt16.toNat_toUInt8, hlow]
    omega

/-- The bytes of the header that is read from a buffer. -/
lemma ipHdrBytes_ipHdrAt (b : ℕ → UInt8) : ipHdrBytes (ipHdrAt b) = copyBytes b 0 uipIphLen := by
  have hsplit : copyBytes b 0 uipIphLen = copyBytes b 0 8 ++ copyBytes b 8 16 ++ copyBytes b 24 16 := by
    rw [show uipIphLen = 8 + 16 + 16 from rfl, copyBytes_add, copyBytes_add]
  rw [hsplit, ipHdrBytes, ipHdrAt, wordBytes_wordAt, wordBytes_wordAt,
    IpAddr.ofBytes_u8 (length_copyBytes b 8 16), IpAddr.ofBytes_u8 (length_copyBytes b 24 16)]
  rfl

lemma udpHdrBytes_udpHdrAt (b : ℕ → UInt8) :
    udpHdrBytes (udpHdrAt b) = copyBytes b uipIphLen uipUdphLen := by
  rw [udpHdrBytes, udpHdrAt, wordBytes_wordAt, wordBytes_wordAt, wordBytes_wordAt, wordBytes_wordAt]
  rfl

lemma ipHdrBytes_length (ip : IpHdr) : (ipHdrBytes ip).length = uipIphLen := by
  simp [ipHdrBytes, wordBytes, ip.srcipaddr.length_u8, ip.destipaddr.length_u8, uipIphLen]

/-! ## Packets -/

section
variable (cfg : LowpanConfig) (ip : IpHdr)

/-- With the contexts of the configuration, no address is without a result. -/
lemma exists_restoredSrc : ∃ a, restoredSrc cfg.contexts ip = some a := by
  have hfound := (numbersFound ip cfg.nodup_numbers cfg.numbers_fit).1
  cases hctx : srcContext cfg.contexts ip with
  | some c =>
      refine ⟨ip.srcipaddr, restoredSrc_iff.mpr ?_⟩
      rw [SrcRecoverable, hctx]
      exact hfound c hctx
  | none =>
      rw [restoredSrc, hctx]
      simp only
      split_ifs
      · exact ⟨_, rfl⟩
      · exact ⟨_, rfl⟩

lemma restoredDst_destipaddr : restoredDst cfg.contexts ip = some ip.destipaddr := by
  have hfound := (numbersFound ip cfg.nodup_numbers cfg.numbers_fit).2
  rw [restoredDst_iff, DstRecoverable]
  cases hctx : dstContext cfg.contexts ip with
  | some c => exact hfound c hctx
  | none => trivial

end

/-- An IPv6 packet that the buffers hold, with its headers in order. -/
structure IpPacket where
  bytes : List UInt8
  length_lt : bytes.length < 2 ^ 11
  uncompHdrLen_le : uncompHdrLen (uipIpBuf bytes) ≤ bytes.length
  version : (uipIpBuf bytes).vtc >>> 4 = 6
  length_eq : uipIphLen + (uipIpBuf bytes).len.toNat = bytes.length
  udplen_eq : (uipIpBuf bytes).proto = uipProtoUdp →
    (uipUdpBuf bytes).udplen = (uipIpBuf bytes).len

namespace IpPacket
variable (cfg : LowpanConfig) (packet : IpPacket)

/-- The IPv6 header of the packet. -/
abbrev ip : IpHdr := uipIpBuf packet.bytes

/-- Where the UDP header of the packet would be. -/
abbrev udp : UdpHdr := uipUdpBuf packet.bytes

/-- The headers are compressed with HC06. -/
def UsesHc06 : Prop := packet.bytes.length ≥ cfg.compressionThreshold ∧ cfg.compression = .hc06

instance : Decidable (packet.UsesHc06 cfg) := inferInstanceAs (Decidable (_ ∧ _))

/-- The packet that the receiver can restore. -/
def restored : List UInt8 :=
  if packet.UsesHc06 cfg then
    ipHdrBytes { packet.ip with
      srcipaddr := (restoredSrc cfg.contexts packet.ip).getD packet.ip.srcipaddr } ++
      packet.bytes.drop uipIphLen
  else packet.bytes

lemma uipIphLen_le : uipIphLen ≤ packet.bytes.length := by
  have h := packet.length_eq
  omega

lemma bytes_split : packet.bytes = ipHdrBytes packet.ip ++ packet.bytes.drop uipIphLen := by
  have htake : packet.bytes.take uipIphLen = ipHdrBytes packet.ip := by
    rw [ip, uipIpBuf, ipHdrBytes_ipHdrAt]
    have hle : 0 + uipIphLen ≤ packet.bytes.length := by
      rw [Nat.zero_add]
      exact packet.uipIphLen_le
    exact (copyBytes_getD hle).symm
  rw [← htake, List.take_append_drop]

lemma length_restored : (packet.restored cfg).length = packet.bytes.length := by
  have hle := packet.uipIphLen_le
  unfold restored
  split_ifs
  · rw [List.length_append, ipHdrBytes_length, List.length_drop]
    omega
  · rfl

/-- Only the header can differ. -/
lemma restored_drop : (packet.restored cfg).drop uipIphLen = packet.bytes.drop uipIphLen := by
  unfold restored
  split_ifs
  · exact List.drop_left' (ipHdrBytes_length _)
  · rfl

lemma restored_drop_of_le {k : ℕ} (h : uipIphLen ≤ k) :
    (packet.restored cfg).drop k = packet.bytes.drop k := by
  obtain ⟨j, rfl⟩ := Nat.exists_eq_add_of_le h
  rw [← List.drop_drop, packet.restored_drop, List.drop_drop]

/-- The packet is restored if and only if its source address is. -/
lemma restored_eq_iff : packet.restored cfg = packet.bytes ↔
    (packet.UsesHc06 cfg → SrcRecoverable cfg.contexts packet.ip) := by
  unfold restored
  split_ifs with hhc06
  · obtain ⟨a, ha⟩ := exists_restoredSrc cfg packet.ip
    rw [← restoredSrc_iff, ha, Option.getD_some, Option.some_inj]
    constructor
    · intro h _
      rw [packet.bytes_split, List.drop_left' (ipHdrBytes_length _)] at h
      have hhdr := List.append_cancel_right h
      have hsrc := List.append_cancel_right hhdr
      exact IpAddr.ext (List.append_cancel_left hsrc)
    · intro h
      rw [h hhc06]
      exact packet.bytes_split.symm
  · exact ⟨fun _ h => absurd h hhc06, fun _ => rfl⟩

end IpPacket

/-! ## Headers in the first frame -/

section FirstFrame
variable {cfg : LowpanConfig} {uipLladdr dest : Lladdr} {packet : IpPacket} {p : Packetbuf}

lemma compressHdr_eq : compressHdr cfg uipLladdr dest packet.bytes =
    if packet.UsesHc06 cfg then
      (compressHdrHc06 cfg.contexts uipLladdr dest packet.ip packet.udp, uncompHdrLen packet.ip)
    else (dispatchIpv6 :: packet.bytes.take uipIphLen, uipIphLen) := by
  have hle : 0 + uipIphLen ≤ packet.bytes.length := by
    rw [Nat.zero_add]
    exact packet.uipIphLen_le
  have hipv6 : compressHdrIpv6 packet.bytes =
      (dispatchIpv6 :: packet.bytes.take uipIphLen, uipIphLen) := by
    rw [compressHdrIpv6, copyBytes_getD hle, List.drop_zero]
  by_cases hhc06 : packet.UsesHc06 cfg
  · rw [if_pos hhc06, compressHdr, if_pos hhc06.1, hhc06.2]
  · rw [if_neg hhc06]
    unfold compressHdr
    split_ifs with hlen
    · cases hcomp : cfg.compression with
      | ipv6 => exact hipv6
      | hc06 => exact absurd ⟨hlen, hcomp⟩ hhc06
    · exact hipv6

/-- The dispatch of the compressed headers. -/
lemma compressHdrHc06_dispatch (uipLladdr dest : Lladdr) (contexts : List AddrContext) (ip : IpHdr) (udp : UdpHdr) :
    ∃ l, compressHdrHc06 contexts uipLladdr dest ip udp =
      (dispatchIphc ||| (compressTf ip).1 ||| (compressNh ip).1 ||| (compressTtl ip).1) :: l :=
  ⟨_, rfl⟩

lemma dispatch_bits {tf nh ttl : UInt8} (htf : tf ∈ [0x00, 0x08, 0x10, (0x18 : UInt8)])
    (hnh : nh ∈ [0x00, (0x04 : UInt8)]) (httl : ttl ∈ [0, 1, 2, (3 : UInt8)]) :
    (dispatchIphc ||| tf ||| nh ||| ttl) &&& 0xe0 = dispatchIphc := by
  have ht : tf &&& 0xe0 = 0 := by
    revert tf
    simp only [List.forall_mem_cons, List.not_mem_nil, false_imp_iff, implies_true]
    decide
  have hn : nh &&& 0xe0 = 0 := by
    revert nh
    simp only [List.forall_mem_cons, List.not_mem_nil, false_imp_iff, implies_true]
    decide
  have hl : ttl &&& 0xe0 = 0 := by
    revert ttl
    simp only [List.forall_mem_cons, List.not_mem_nil, false_imp_iff, implies_true]
    decide
  rw [byte_or_and, byte_or_and, byte_or_and, ht, hn, hl]
  rfl

/-- The headers that are read from a first fragment. -/
lemma uncompressHc06_first {old : IpHdr × UdpHdr}
    (hdata : Holds p.data frag1HdrLen
      (compressHdrHc06 cfg.contexts uipLladdr dest packet.ip packet.udp)) :
    uncompressHdrHc06 cfg.contexts p.data uipLladdr dest frag1HdrLen
        (UInt16.ofNat packet.bytes.length) p.datalen old =
      ⟨{ packet.ip with
          srcipaddr := (restoredSrc cfg.contexts packet.ip).getD packet.ip.srcipaddr },
        if packet.ip.proto = uipProtoUdp then packet.udp else old.2,
        frag1HdrLen + (compressHdrHc06 cfg.contexts uipLladdr dest packet.ip packet.udp).length,
        uncompHdrLen packet.ip⟩ := by
  have hlen := packet.length_eq
  have hsize : UInt16.ofNat packet.bytes.length = packet.ip.len + UInt16.ofNat uipIphLen := by
    rw [← hlen, UInt16.ofNat_add, UInt16.ofNat_toNat, UInt16.add_comm]
  have hcarried : Carried packet.ip
      (compressHdrHc06 cfg.contexts uipLladdr dest packet.ip packet.udp) frag1HdrLen
      (UInt16.ofNat packet.bytes.length) p.datalen := by
    rw [hsize]
    refine .firstFragment ?_
    have hlt := packet.length_lt
    rw [← hlen] at hlt
    exact hlt.trans (by norm_num)
  obtain ⟨a, ha⟩ := exists_restoredSrc cfg packet.ip
  rw [uncompressHdrHc06_spec packet.version hdata, ha, restoredDst_destipaddr]
  simp only
  rw [finishLengths_len hcarried _ rfl rfl]
  by_cases hproto : packet.ip.proto = uipProtoUdp
  · simp only [if_pos hproto, Option.getD_some, ← packet.udplen_eq hproto]
    rfl
  · simp only [if_neg hproto, Option.getD_some]
    rfl

/-- The decompressor puts the headers of the restored packet at the start of the buffer. -/
lemma uncompressHdr_first (f : FragInfo) (buffer : ℕ → UInt8)
    (hdata : Holds p.data frag1HdrLen (compressHdr cfg uipLladdr dest packet.bytes).1)
    (hsender : p.sender = uipLladdr) (hreceiver : p.receiver = dest)
    (hrime : f.rimeHdrLen = frag1HdrLen) (hsize : f.fragSize = UInt16.ofNat packet.bytes.length) :
    uncompressHdr cfg p f buffer =
      some (memcpy buffer 0
          ((packet.restored cfg).take (compressHdr cfg uipLladdr dest packet.bytes).2),
        frag1HdrLen + (compressHdr cfg uipLladdr dest packet.bytes).1.length,
        (compressHdr cfg uipLladdr dest packet.bytes).2) := by
  have hne : f.rimeHdrLen ≠ fragnHdrLen := by
    rw [hrime]
    decide
  unfold uncompressHdr
  rw [if_neg hne, hrime]
  rw [compressHdr_eq] at hdata ⊢
  by_cases hhc06 : packet.UsesHc06 cfg
  · rw [if_pos hhc06] at hdata ⊢
    obtain ⟨l, hl⟩ := compressHdrHc06_dispatch uipLladdr dest cfg.contexts packet.ip packet.udp
    have hdispatch : p.data frag1HdrLen &&& 0xe0 = dispatchIphc := by
      have h0 := hdata
      simp only [hl] at h0
      rw [h0.1]
      exact dispatch_bits (compressTf_bits _) (compressNh_bits _) (compressTtl_bits _)
    rw [if_pos ⟨hhc06.2, hdispatch⟩]
    simp only
    rw [hsender, hreceiver, hsize, uncompressHc06_first hdata, IpPacket.restored, if_pos hhc06]
    simp only
    generalize ha : ipHdrBytes { packet.ip with
      srcipaddr := (restoredSrc cfg.contexts packet.ip).getD packet.ip.srcipaddr } = hdr
    have hlen : hdr.length = uipIphLen := by rw [← ha, ipHdrBytes_length]
    by_cases hproto : packet.ip.proto = uipProtoUdp
    · have hunc : uncompHdrLen packet.ip = hdr.length + uipUdphLen := by
        rw [uncompHdrLen, if_pos hproto, hlen]
      have hle : uipIphLen + uipUdphLen ≤ packet.bytes.length := by
        have h := packet.uncompHdrLen_le
        rwa [hunc, hlen] at h
      have hudp : udpHdrBytes packet.udp = (packet.bytes.drop uipIphLen).take uipUdphLen := by
        rw [IpPacket.udp, uipUdpBuf, udpHdrBytes_udpHdrAt, copyBytes_getD hle]
      rw [if_pos hproto, hunc, List.take_length_add_append, hudp]
      have hcopy := memcpy_memcpy buffer 0 hdr ((packet.bytes.drop uipIphLen).take uipUdphLen)
      rw [Nat.zero_add, hlen] at hcopy
      rw [hcopy]
    · have hkept : Holds (memcpy buffer 0 hdr) uipIphLen (udpHdrBytes (udpHdrAt buffer)) := by
        rw [udpHdrBytes_udpHdrAt]
        exact (holds_copyBytes buffer uipIphLen uipUdphLen).memcpy (.inr (by omega))
      have hunc : uncompHdrLen packet.ip = hdr.length := by
        rw [uncompHdrLen, if_neg hproto, hlen]
      rw [if_neg hproto, memcpy_of_holds hkept, hunc, List.take_left]
  · rw [if_neg hhc06] at hdata ⊢
    obtain ⟨hdispatch, hhdr⟩ := hdata
    have hcopy := copyBytes_of_holds hhdr
    have hlen : (packet.bytes.take uipIphLen).length = uipIphLen := by
      rw [List.length_take, Nat.min_eq_left packet.uipIphLen_le]
    rw [hlen] at hcopy
    have hnot : ¬ (cfg.compression = .hc06 ∧ p.data frag1HdrLen &&& 0xe0 = dispatchIphc) := by
      rw [hdispatch]
      rintro ⟨-, h⟩
      exact absurd h (by decide)
    rw [if_neg hnot, if_pos hdispatch, IpPacket.restored, if_neg hhc06]
    simp only
    rw [show frag1HdrLen + ipv6HdrLen = frag1HdrLen + 1 from rfl, hcopy, List.length_cons, hlen]
    rfl

end FirstFrame

end Sicslowpan
end Contiki

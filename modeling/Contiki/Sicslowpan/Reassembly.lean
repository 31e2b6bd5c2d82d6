import Contiki.Lib.Tiles
import Contiki.Sicslowpan.Packets

/-!
# Fragments are put together again

The fragments that `output` makes of a packet cover it without gap and overlap (`fragments_tile`),
and each fits into a frame.  `input_fragment` says what one of them does to the receiver, whenever
it comes: its octets are copied to their place, and they are counted.  So the packet is complete
with the last fragment and not earlier, in whichever order they come (`inputAll_fragments`).
-/

namespace Contiki
namespace Sicslowpan

/-! ## The fragments of a packet -/

section Fragments
variable {cfg : LowpanConfig} {uipLladdr dest : Lladdr} {packet : IpPacket} {tag : UInt16}

lemma compressTf_length (ip : IpHdr) : (compressTf ip).2.length ≤ 4 := by
  rcases compressTf_cases ip with ⟨-, -, h⟩ | ⟨-, h⟩ | ⟨-, h⟩ | h <;> rw [h] <;> simp [wordBytes]

lemma compressAddr64_length (bitpos : UInt8) (a : IpAddr) (lladdr : Lladdr) :
    (compressAddr64 bitpos a lladdr).2.length ≤ 8 := by
  rcases compressAddr64_cases bitpos a lladdr with ⟨-, h⟩ | ⟨-, h⟩ | h <;> rw [h] <;>
    simp [a.length_u8]

lemma compressSrc_length (uipLladdr : Lladdr) (contexts : List AddrContext) (ip : IpHdr) :
    (compressSrc contexts uipLladdr ip).2.length ≤ 16 := by
  have h64 := compressAddr64_length iphcSamBit ip.srcipaddr uipLladdr
  rcases compressSrc_cases contexts uipLladdr ip with ⟨-, h, -⟩ | ⟨c, -, -, h⟩ | ⟨h, -⟩ | ⟨h, -⟩
  · rw [h]
    simp
  · rw [h]
    exact h64.trans (by omega)
  · rw [h]
    exact h64.trans (by omega)
  · rw [h]
    exact Nat.le_of_eq ip.srcipaddr.length_u8

lemma compressDst_length (dest : Lladdr) (contexts : List AddrContext) (ip : IpHdr) :
    (compressDst contexts dest ip).2.length ≤ 16 := by
  have h64 := compressAddr64_length iphcDamBit ip.destipaddr dest
  have hlen := ip.destipaddr.length_u8
  rcases compressDst_cases contexts dest ip with
    ⟨-, -, h⟩ | ⟨-, -, h⟩ | ⟨-, -, h⟩ | ⟨-, h⟩ | ⟨c, -, -, h⟩ | ⟨-, -, h⟩ | ⟨-, h⟩ <;> rw [h]
  · simp [hlen]
  · simp [hlen]
  · simp [hlen]
  · exact Nat.le_of_eq hlen
  · exact h64.trans (by omega)
  · exact h64.trans (by omega)
  · exact Nat.le_of_eq hlen

lemma compressUdp_length (udp : UdpHdr) : (compressUdp udp).length ≤ 7 := by
  unfold compressUdp
  simp only
  split_ifs <;> simp [wordBytes]

variable (cfg uipLladdr dest packet) in
/-- The compressed headers leave room for a payload in the first fragment. -/
lemma compressHdr_length : (compressHdr cfg uipLladdr dest packet.bytes).1.length ≤ 48 := by
  rw [compressHdr_eq]
  split_ifs
  · have htf := compressTf_length packet.ip
    have hsrc := compressSrc_length uipLladdr cfg.contexts packet.ip
    have hdst := compressDst_length dest cfg.contexts packet.ip
    have hudp := compressUdp_length packet.udp
    have hnh : (compressNh packet.ip).2.length ≤ 1 := by
      unfold compressNh
      split_ifs <;> simp
    have httl : (compressTtl packet.ip).2.length ≤ 1 := by
      unfold compressTtl
      split_ifs <;> simp
    unfold compressHdrHc06
    simp only [List.length_append, List.length_cons, List.length_nil]
    split_ifs <;> simp only [List.length_cons, List.length_nil] <;> omega
  · simp [uipIphLen]

variable (cfg uipLladdr dest packet) in
lemma compressHdr_unc : (compressHdr cfg uipLladdr dest packet.bytes).2 % 8 = 0 ∧
    uipIphLen ≤ (compressHdr cfg uipLladdr dest packet.bytes).2 ∧
    (compressHdr cfg uipLladdr dest packet.bytes).2 ≤ packet.bytes.length := by
  have hle := packet.uncompHdrLen_le
  have hip := packet.uipIphLen_le
  rw [compressHdr_eq]
  split_ifs
  · unfold uncompHdrLen at hle ⊢
    split_ifs at hle ⊢
    · exact ⟨show (uipIphLen + uipUdphLen) % 8 = 0 by decide, Nat.le_add_right _ _, hle⟩
    · exact ⟨show uipIphLen % 8 = 0 by decide, Nat.le_refl _, hle⟩
  · exact ⟨show uipIphLen % 8 = 0 by decide, Nat.le_refl _, hip⟩

/-- The payload of a fragment is a multiple of eight octets. -/
lemma and_0xf8 {n : ℕ} (h : n ≤ macMaxPayload) : n &&& 0xf8 = n / 8 * 8 := by
  have hlt : n < 103 := Nat.lt_succ_of_le h
  interval_cases n <;> rfl

lemma fragHdr_length (bytes : List UInt8) (dispatch tag : UInt16) :
    (fragHdr bytes dispatch tag).length = frag1HdrLen := rfl

/-- The first fragment carries a part of the payload and not all of it. -/
lemma firstFragment_spec (tag : UInt16)
    (hsplit : packet.bytes.length + (compressHdr cfg uipLladdr dest packet.bytes).1.length >
      macMaxPayload + (compressHdr cfg uipLladdr dest packet.bytes).2) :
    let f := firstFragment cfg uipLladdr dest packet.bytes tag
    f.frame.length ≤ macMaxPayload ∧ f.octets % 8 = 0 ∧
      (compressHdr cfg uipLladdr dest packet.bytes).2 ≤ f.octets ∧ 0 < f.octets ∧
      f.octets ≤ packet.bytes.length := by
  have hhdr := compressHdr_length cfg uipLladdr dest packet
  obtain ⟨h8, hip, hle⟩ := compressHdr_unc cfg uipLladdr dest packet
  unfold firstFragment
  generalize compressHdr cfg uipLladdr dest packet.bytes = c at *
  obtain ⟨hdr, u⟩ := c
  simp only at *
  have hpayload : macMaxPayload - (hdr.length + frag1HdrLen) ≤ macMaxPayload := Nat.sub_le _ _
  rw [and_0xf8 hpayload]
  unfold macMaxPayload frag1HdrLen uipIphLen at *
  simp only [List.length_append, List.length_take, fragHdr_length]
  unfold frag1HdrLen
  omega

lemma followingFragment_length (bytes : List UInt8) (pos n : ℕ) :
    (followingFragment bytes tag pos n).frame.length ≤ fragnHdrLen + n := by
  simp only [followingFragment, List.length_append, List.length_take, fragHdr_length,
    List.length_singleton]
  unfold frag1HdrLen fragnHdrLen
  omega

/-- The ranges of fragments. -/
abbrev FragmentTiles := Tiles Fragment.offset Fragment.octets

/-- A fragment that is one of the following fragments of a packet. -/
def IsFollowing (bytes : List UInt8) (tag : UInt16) (f : Fragment) : Prop :=
  f.offset % 8 = 0 ∧ f.octets ≤ 96 ∧ f = followingFragment bytes tag f.offset f.octets

lemma sendFollowing_done (bytes : List UInt8) (alloc : ℕ → Bool) (tag : UInt16)
    (rounds k n : ℕ) : sendFollowing bytes alloc tag rounds k bytes.length n =
      ([], bytes.length, true) := by
  cases rounds with
  | zero => rfl
  | succ rounds => rw [sendFollowing, if_neg (Nat.lt_irrefl _)]

/-- The loop makes fragments up to the end of the packet. -/
lemma sendFollowing_spec (bytes : List UInt8) (tag : UInt16) (rounds k pos n : ℕ)
    (hpos : pos ≤ bytes.length) (hrounds : bytes.length ≤ pos + rounds) (h8 : pos % 8 = 0)
    (hn : n = 96) : ∃ fs, sendFollowing bytes (fun _ => true) tag rounds k pos n =
      (fs, bytes.length, true) ∧ FragmentTiles pos bytes.length fs ∧
      ∀ f ∈ fs, IsFollowing bytes tag f := by
  induction rounds generalizing k pos with
  | zero =>
      obtain rfl : pos = bytes.length := by omega
      exact ⟨[], rfl, rfl, by simp⟩
  | succ rounds ih =>
      subst hn
      unfold sendFollowing
      by_cases hlt : pos < bytes.length
      · rw [if_pos hlt]
        by_cases hlast : bytes.length - pos < 96
        · -- the last fragment
          have hend : pos + (bytes.length - pos) = bytes.length := by omega
          rw [if_pos hlast]
          simp only [if_true, hend, sendFollowing_done]
          refine ⟨_, rfl, ⟨rfl, by simp only [followingFragment]; omega, ?_⟩, ?_⟩
          · exact hend
          · intro f hf
            obtain rfl := List.mem_singleton.mp hf
            exact ⟨h8, Nat.le_of_lt hlast, rfl⟩
        · obtain ⟨fs, hfs, htiles, hall⟩ := ih (k + 1) (pos + 96) (by omega) (by omega) (by omega)
          rw [if_neg hlast]
          simp only [if_true, hfs]
          refine ⟨_, rfl, ⟨rfl, by simp [followingFragment], htiles⟩, ?_⟩
          intro f hf
          rcases List.mem_cons.mp hf with rfl | hf
          · exact ⟨h8, Nat.le_refl _, rfl⟩
          · exact hall f hf
      · obtain rfl : pos = bytes.length := by omega
        rw [if_neg hlt]
        exact ⟨[], rfl, rfl, by simp⟩

/-- What is known of the fragments of a packet. -/
structure IsFragments (cfg : LowpanConfig) (uipLladdr dest : Lladdr) (packet : IpPacket)
    (tag : UInt16) (frags : List Fragment) : Prop where
  tiles : FragmentTiles 0 packet.bytes.length frags
  fits : ∀ f ∈ frags, f.frame.length ≤ macMaxPayload
  aligned : ∀ f ∈ frags, f.offset % 8 = 0
  forms : ∀ f ∈ frags, f = firstFragment cfg uipLladdr dest packet.bytes tag ∧
      (compressHdr cfg uipLladdr dest packet.bytes).2 ≤ f.octets ∨
    uipIphLen ≤ f.offset ∧ IsFollowing packet.bytes tag f

/-- `output` splits a packet into its fragments. -/
lemma output_fragments {s : Lowpan} {frags : List Fragment}
    (h : (output cfg uipLladdr dest packet.bytes (fun _ => true) s).2.1 = .fragments frags) :
    IsFragments cfg uipLladdr dest packet s.myTag frags := by
  unfold output at h
  simp only [if_true] at h
  by_cases hsplit : packet.bytes.length + (compressHdr cfg uipLladdr dest packet.bytes).1.length >
      macMaxPayload + (compressHdr cfg uipLladdr dest packet.bytes).2
  · obtain ⟨hfits, h8, hunc, hpos, hle⟩ := firstFragment_spec s.myTag hsplit
    obtain ⟨fs, hfs, htiles, hall⟩ := sendFollowing_spec packet.bytes s.myTag packet.bytes.length 1
      (firstFragment cfg uipLladdr dest packet.bytes s.myTag).octets _ hle (by omega) h8 rfl
    have h96 : (macMaxPayload - fragnHdrLen) &&& 0xf8 = 96 := rfl
    rw [if_pos hsplit, h96, hfs] at h
    obtain rfl := Sent.fragments.inj h
    have hip := (compressHdr_unc cfg uipLladdr dest packet).2.1
    refine ⟨⟨rfl, hpos, by rwa [Nat.zero_add]⟩, ?_, ?_, ?_⟩
    · intro f hf
      rcases List.mem_cons.mp hf with rfl | hf
      · exact hfits
      · obtain ⟨-, hoctets, heq⟩ := hall f hf
        rw [heq]
        exact (followingFragment_length _ _ _).trans
          (show fragnHdrLen + f.octets ≤ 102 by unfold fragnHdrLen; omega)
    · intro f hf
      rcases List.mem_cons.mp hf with rfl | hf
      · rfl
      · exact (hall f hf).1
    · intro f hf
      rcases List.mem_cons.mp hf with rfl | hf
      · exact .inl ⟨rfl, hunc⟩
      · exact .inr ⟨hip.trans (hunc.trans (htiles.mem hf).1), hall f hf⟩
  · rw [if_neg hsplit] at h
    cases h

variable (cfg uipLladdr dest packet) in
lemma output_splits (s : Lowpan)
    (hsplit : packet.bytes.length + (compressHdr cfg uipLladdr dest packet.bytes).1.length >
      macMaxPayload + (compressHdr cfg uipLladdr dest packet.bytes).2) :
    ∃ frags, (output cfg uipLladdr dest packet.bytes (fun _ => true) s).2.1 = .fragments frags := by
  unfold output
  simp only [if_true]
  rw [if_pos hsplit]
  split_ifs
  · exact ⟨_, rfl⟩
  · exact ⟨_, rfl⟩

end Fragments

/-! ## What the receiver reads -/

section Read
variable {cfg : LowpanConfig} {uipLladdr dest : Lladdr} {packet : IpPacket} {tag : UInt16}
  {f : Fragment} {p : Packetbuf}

/-- A frame that has arrived is the frame of a fragment. -/
structure Carries (uipLladdr dest : Lladdr) (f : Fragment) (p : Packetbuf) : Prop where
  data : Holds p.data 0 f.frame
  datalen : p.datalen = f.frame.length
  sender : p.sender = uipLladdr
  receiver : p.receiver = dest

lemma word_or_and (x y m : UInt16) : (x ||| y) &&& m = (x &&& m) ||| (y &&& m) := by
  apply UInt16.eq_of_toBitVec_eq
  ext i
  simp [Bool.and_or_distrib_right]

/-- Dispatch and size in the first word of a fragment. -/
lemma dispatch_size {n : ℕ} (hn : n < 2 ^ 11) {d : UInt16} (hd : d = dispatchFrag1 ∨ d = dispatchFragn) :
    (((d <<< 8) ||| UInt16.ofNat n) &&& 0xf800) >>> 8 = d ∧
      ((d <<< 8) ||| UInt16.ofNat n) &&& 0x07ff = UInt16.ofNat n := by
  have hlow : UInt16.ofNat n &&& 0x07ff = UInt16.ofNat n := by
    apply UInt16.toNat_inj.mp
    rw [UInt16.toNat_and, UInt16.toNat_ofNat', Nat.mod_eq_of_lt (hn.trans (by norm_num))]
    exact (Nat.and_two_pow_sub_one_eq_mod n 11).trans (Nat.mod_eq_of_lt hn)
  have hhigh : UInt16.ofNat n &&& 0xf800 = 0 := by
    rw [← hlow, UInt16.and_assoc]
    exact UInt16.and_zero
  rw [word_or_and, word_or_and, hlow, hhigh, UInt16.or_zero]
  rcases hd with rfl | rfl
  · exact ⟨by decide, UInt16.zero_or⟩
  · exact ⟨by decide, UInt16.zero_or⟩

/-- The words at the start of a fragment. -/
lemma fragHdr_words {b : ℕ → UInt8} {bytes l : List UInt8} {d : UInt16}
    (h : Holds b 0 (fragHdr bytes d tag ++ l)) :
    wordAt b 0 = (d <<< 8) ||| UInt16.ofNat bytes.length ∧ wordAt b 2 = tag ∧
      Holds b frag1HdrLen l := by
  obtain ⟨hhdr, hrest⟩ := holds_append.mp h
  obtain ⟨hsize, htag⟩ := holds_append.mp hhdr
  exact ⟨wordAt_of_holds hsize, wordAt_of_holds htag, hrest⟩

lemma readFragHdr_first
    (h : Carries uipLladdr dest (firstFragment cfg uipLladdr dest packet.bytes tag) p)
    (processed : UInt16) : readFragHdr p processed =
      ⟨UInt16.ofNat packet.bytes.length, tag, 0, frag1HdrLen, true, false⟩ := by
  have hdata := h.data
  simp only [firstFragment, List.append_assoc] at hdata
  obtain ⟨hsize, htag, -⟩ := fragHdr_words hdata
  obtain ⟨hd, hn⟩ := dispatch_size packet.length_lt (.inl rfl : dispatchFrag1 = _ ∨ _)
  rw [readFragHdr, hsize, htag]
  simp only [hd, hn, if_true]

lemma readFragHdr_following {pos n : ℕ}
    (h : Carries uipLladdr dest (followingFragment packet.bytes tag pos n) p)
    (processed : UInt16) : readFragHdr p processed =
      ⟨UInt16.ofNat packet.bytes.length, tag, UInt8.ofNat (pos >>> 3), fragnHdrLen, false,
        decide (processed.toNat + p.datalen ≥ packet.bytes.length + fragnHdrLen)⟩ := by
  have hdata := h.data
  simp only [followingFragment, List.append_assoc] at hdata
  obtain ⟨hsize, htag, hrest⟩ := fragHdr_words hdata
  obtain ⟨hd, hn⟩ := dispatch_size packet.length_lt (.inr rfl : dispatchFragn = _ ∨ _)
  have hlen : (UInt16.ofNat packet.bytes.length).toNat = packet.bytes.length := by
    rw [UInt16.toNat_ofNat', Nat.mod_eq_of_lt (packet.length_lt.trans (by norm_num))]
  have hne : dispatchFragn ≠ dispatchFrag1 := by decide
  rw [readFragHdr, hsize, htag]
  simp only [hd, hn, hne, if_false, if_true, hlen]
  rw [show p.data 4 = _ from hrest.1]

/-- The octets of the restored packet that a fragment stands for. -/
def content (cfg : LowpanConfig) (packet : IpPacket) (f : Fragment) : List UInt8 :=
  ((packet.restored cfg).drop f.offset).take f.octets

lemma content_length (hle : f.offset + f.octets ≤ packet.bytes.length) :
    (content cfg packet f).length = f.octets := by
  rw [content, List.length_take, List.length_drop, packet.length_restored cfg]
  omega

/-- What the frame of a fragment has in it, as `input` takes it apart: headers are uncompressed,
and the payload is copied, so that the octets of the fragment come to their place. -/
structure Places (cfg : LowpanConfig) (packet : IpPacket) (f : Fragment) (p : Packetbuf)
    (info : FragInfo) (rimeHdrLen uncompHdrLen : ℕ) : Prop where
  uncompress : ∀ buffer, ∃ buffer',
    uncompressHdr cfg p info buffer = some (buffer', rimeHdrLen, uncompHdrLen) ∧
    memcpy buffer' (uncompHdrLen + info.fragOffset.toNat <<< 3)
      (copyBytes p.data rimeHdrLen (p.datalen - rimeHdrLen)) =
        memcpy buffer f.offset (content cfg packet f)
  rimeHdrLen_le : rimeHdrLen ≤ p.datalen
  octets : f.octets = uncompHdrLen + (p.datalen - rimeHdrLen)

/-- The first fragment is placed at the start of the buffer. -/
lemma places_first
    (h : Carries uipLladdr dest (firstFragment cfg uipLladdr dest packet.bytes tag) p)
    (hle : (firstFragment cfg uipLladdr dest packet.bytes tag).octets ≤ packet.bytes.length) :
    Places cfg packet (firstFragment cfg uipLladdr dest packet.bytes tag) p
      ⟨UInt16.ofNat packet.bytes.length, tag, 0, frag1HdrLen, true, false⟩
      (frag1HdrLen + (compressHdr cfg uipLladdr dest packet.bytes).1.length)
      (compressHdr cfg uipLladdr dest packet.bytes).2 := by
  have hip := (compressHdr_unc cfg uipLladdr dest packet).2.1
  obtain ⟨hdata, hdatalen, hsender, hreceiver⟩ := h
  simp only [firstFragment, List.append_assoc] at hdata hdatalen hle ⊢
  obtain ⟨-, -, hrest⟩ := fragHdr_words hdata
  obtain ⟨hhdr, hpayload⟩ := holds_append.mp hrest
  have hunc := fun buffer => uncompressHdr_first ⟨UInt16.ofNat packet.bytes.length, tag, 0,
    frag1HdrLen, true, false⟩ buffer hhdr hsender hreceiver rfl rfl
  generalize hn : (macMaxPayload -
    ((compressHdr cfg uipLladdr dest packet.bytes).1.length + frag1HdrLen)) &&& 0xf8 = n at *
  generalize compressHdr cfg uipLladdr dest packet.bytes = c at *
  obtain ⟨hdr, u⟩ := c
  simp only at *
  have hlen : ((packet.bytes.drop u).take n).length = n := by
    rw [List.length_take, List.length_drop]
    omega
  have hpay : p.datalen - (frag1HdrLen + hdr.length) = n := by
    rw [hdatalen]
    simp only [List.length_append, fragHdr_length, hlen]
    omega
  refine ⟨fun buffer => ⟨_, hunc buffer, ?_⟩, ?_, ?_⟩
  · have hcopy := copyBytes_of_holds hpayload
    rw [hlen] at hcopy
    have htake : ((packet.restored cfg).take u).length = u := by
      rw [List.length_take, packet.length_restored cfg]
      omega
    have hplace := memcpy_memcpy buffer 0 ((packet.restored cfg).take u)
      ((packet.bytes.drop u).take n)
    rw [htake, Nat.zero_add, ← packet.restored_drop_of_le cfg hip, ← List.take_add] at hplace
    rw [hpay, hcopy, ← packet.restored_drop_of_le cfg hip]
    show memcpy _ (u + 0) _ = _
    rw [Nat.add_zero, hplace, content, List.drop_zero, Nat.add_comm u n]
  · rw [hdatalen]
    simp only [List.length_append, fragHdr_length]
    omega
  · rw [hpay, Nat.add_comm]

lemma places_following (cfg : LowpanConfig) {pos n : ℕ} (processed : UInt16)
    (h : Carries uipLladdr dest (followingFragment packet.bytes tag pos n) p) (h8 : pos % 8 = 0)
    (hip : uipIphLen ≤ pos) (hle : pos + n ≤ packet.bytes.length) :
    Places cfg packet (followingFragment packet.bytes tag pos n) p
      ⟨UInt16.ofNat packet.bytes.length, tag, UInt8.ofNat (pos >>> 3), fragnHdrLen, false,
        decide (processed.toNat + p.datalen ≥ packet.bytes.length + fragnHdrLen)⟩ fragnHdrLen 0 := by
  obtain ⟨hdata, hdatalen, hsender, hreceiver⟩ := h
  simp only [followingFragment, List.append_assoc] at hdata hdatalen
  obtain ⟨-, -, hrest⟩ := fragHdr_words hdata
  have hlen : ((packet.bytes.drop pos).take n).length = n := by
    rw [List.length_take, List.length_drop]
    omega
  have hpayload : Holds p.data fragnHdrLen ((packet.bytes.drop pos).take n) := hrest.2
  have hn : p.datalen - fragnHdrLen = n := by
    rw [hdatalen]
    simp only [List.length_append, fragHdr_length, List.length_singleton, hlen]
    unfold frag1HdrLen fragnHdrLen
    omega
  have hoffset : (UInt8.ofNat (pos >>> 3)).toNat <<< 3 = pos := by
    have hlt := packet.length_lt
    rw [UInt8.toNat_ofNat', Nat.shiftRight_eq_div_pow, Nat.shiftLeft_eq]
    omega
  refine ⟨fun buffer => ⟨buffer, rfl, ?_⟩, ?_, ?_⟩
  · have hcopy := copyBytes_of_holds hpayload
    rw [hlen] at hcopy
    rw [hn, hcopy, Nat.zero_add, hoffset, ← packet.restored_drop_of_le cfg hip]
    rfl
  · rw [hdatalen]
    simp only [List.length_append, fragHdr_length, List.length_singleton]
    unfold frag1HdrLen fragnHdrLen
    omega
  · rw [hn, Nat.zero_add]
    rfl

/-- `input` knows what fragment it has, and counts its octets. -/
lemma readFragHdr_fragment {frags : List Fragment}
    (hfrags : IsFragments cfg uipLladdr dest packet tag frags) (hf : f ∈ frags)
    (h : Carries uipLladdr dest f p) (processed : UInt16)
    (hroom : processed.toNat + f.octets ≤ packet.bytes.length) : ∃ rimeHdrLen uncompHdrLen,
      Places cfg packet f p (readFragHdr p processed) rimeHdrLen uncompHdrLen ∧
      (readFragHdr p processed).fragSize = UInt16.ofNat packet.bytes.length ∧
      (readFragHdr p processed).fragTag = tag ∧
      ∀ s : Lowpan, s.processedIpLen = processed →
        countOctets (readFragHdr p processed) uncompHdrLen (p.datalen - rimeHdrLen) s =
          { s with processedIpLen := processed + UInt16.ofNat f.octets } := by
  obtain ⟨-, hpos, hle⟩ := hfrags.tiles.mem hf
  have hlt := packet.length_lt
  have hsize : UInt16.ofNat packet.bytes.length > 0 := by
    show 0 < (UInt16.ofNat packet.bytes.length).toNat
    rw [UInt16.toNat_ofNat', Nat.mod_eq_of_lt (hlt.trans (by norm_num))]
    omega
  rcases hfrags.forms f hf with ⟨heq, -⟩ | ⟨hip, h8, -, heq⟩
  · rw [heq] at h hle
    have hplaces := places_first h (by simpa [firstFragment] using hle)
    rw [← heq] at hplaces
    rw [heq, readFragHdr_first h processed, ← heq]
    refine ⟨_, _, hplaces, rfl, rfl, fun s hs => ?_⟩
    simp only [countOctets, hsize, if_true, hs, Bool.false_eq_true, if_false]
    rw [hplaces.octets, UInt16.ofNat_add, UInt16.add_assoc]
  · rw [heq] at h
    have hplaces := places_following cfg processed h h8 hip hle
    rw [← heq] at hplaces
    rw [readFragHdr_following h processed]
    refine ⟨_, _, hplaces, rfl, rfl, fun s hs => ?_⟩
    have hoctets := hplaces.octets
    rw [Nat.zero_add] at hoctets
    have hdatalen := hplaces.rimeHdrLen_le
    simp only [countOctets, hsize, if_true, Bool.false_eq_true, if_false, hs]
    rw [← hoctets]
    by_cases hlast : processed.toNat + p.datalen ≥ packet.bytes.length + fragnHdrLen
    · -- the last fragment to come makes the sum the size of the packet
      have hsum : packet.bytes.length = processed.toNat + f.octets := by omega
      simp only [hlast, decide_true, if_true]
      rw [hsum, UInt16.ofNat_add, UInt16.ofNat_toNat]
    · simp only [hlast, decide_false, Bool.false_eq_true, if_false]

end Read

/-! ## The receiver -/

section Receiver
variable {cfg : LowpanConfig} {uipLladdr dest : Lladdr} {packet : IpPacket} {tag : UInt16}
  {f : Fragment} {p : Packetbuf} {t now : ℕ} {got frags : List Fragment} {r : Lowpan}

/-- The receiver has got some fragments of the packet since the time `t`. -/
structure Gathered (cfg : LowpanConfig) (uipLladdr : Lladdr) (packet : IpPacket) (tag : UInt16)
    (t : ℕ) (got : List Fragment) (r : Lowpan) : Prop where
  processed : r.processedIpLen.toNat = (got.map Fragment.octets).sum
  sicslowpanLen : r.sicslowpanLen = UInt16.ofNat packet.bytes.length
  reassTag : r.reassTag = tag
  fragSender : r.fragSender = uipLladdr
  reassTimer : r.reassTimer = ⟨t, reassMaxage⟩
  octets : ∀ f ∈ got, Holds r.sicslowpanBuf f.offset (content cfg packet f)

/-- Before the first fragment the receiver is idle; after it the time is not up. -/
def Awaits (cfg : LowpanConfig) (uipLladdr : Lladdr) (packet : IpPacket) (tag : UInt16) (t now : ℕ)
    (got : List Fragment) (r : Lowpan) : Prop :=
  got = [] ∧ r.processedIpLen = 0 ∧ now = t ∨
    got ≠ [] ∧ Gathered cfg uipLladdr packet tag t got r ∧ t ≤ now ∧ now < t + reassMaxage

lemma Awaits.processed (h : Awaits cfg uipLladdr packet tag t now got r) :
    r.processedIpLen.toNat = (got.map Fragment.octets).sum := by
  rcases h with ⟨rfl, hzero, -⟩ | ⟨-, hgathered, -⟩
  · rw [hzero]
    rfl
  · exact hgathered.processed

/-- A fragment starts the reassembly or belongs to it. -/
lemma joinReassembly_fragment (h : Awaits cfg uipLladdr packet tag t now got r)
    (hgot : ∀ g ∈ got, 0 < g.octets) (hpacket : 0 < packet.bytes.length)
    {info : FragInfo} (hsize : info.fragSize = UInt16.ofNat packet.bytes.length)
    (htag : info.fragTag = tag) (hsender : p.sender = uipLladdr) :
    (cancelExpired now r).processedIpLen = r.processedIpLen ∧
    ∃ s, joinReassembly now p info (cancelExpired now r) = some s ∧
      Gathered cfg uipLladdr packet tag t got s ∧ s.processedIpLen = r.processedIpLen ∧
      s.sicslowpanBuf = r.sicslowpanBuf := by
  have hlt := packet.length_lt
  have hpos : info.fragSize > 0 := by
    show 0 < info.fragSize.toNat
    rw [hsize, UInt16.toNat_ofNat', Nat.mod_eq_of_lt (hlt.trans (by norm_num))]
    exact hpacket
  rcases h with ⟨rfl, hzero, rfl⟩ | ⟨hne, hgathered, hlow, hhigh⟩
  · have hcancel : (cancelExpired now r).processedIpLen = 0 ∧
        (cancelExpired now r).sicslowpanBuf = r.sicslowpanBuf := by
      unfold cancelExpired
      split_ifs
      · exact ⟨rfl, rfl⟩
      · exact ⟨hzero, rfl⟩
    have hnot : ¬ (cancelExpired now r).processedIpLen > 0 := by
      rw [hcancel.1]
      decide
    refine ⟨hcancel.1.trans hzero.symm, { cancelExpired now r with
        sicslowpanLen := info.fragSize
        reassTag := info.fragTag
        reassTimer := ⟨now, reassMaxage⟩
        fragSender := p.sender }, ?_, ?_, hcancel.1.trans hzero.symm, hcancel.2⟩
    · rw [joinReassembly, if_neg hnot, if_pos hpos]
    · exact ⟨by rw [hcancel.1]; rfl, hsize, htag, hsender, rfl, by simp⟩
  · have hcancel : cancelExpired now r = r := by
      rw [cancelExpired, hgathered.reassTimer, if_neg]
      simp only [timerExpired, decide_eq_true_eq]
      omega
    have hprocessed : r.processedIpLen > 0 := by
      show 0 < r.processedIpLen.toNat
      rw [hgathered.processed]
      obtain ⟨g, l, rfl⟩ := List.exists_cons_of_ne_nil hne
      have hg := hgot g List.mem_cons_self
      rw [List.map_cons, List.sum_cons]
      omega
    have hjoin : ¬ (info.fragSize > 0 ∧ (info.fragSize ≠ r.sicslowpanLen ∨
        r.reassTag ≠ info.fragTag ∨ r.fragSender ≠ p.sender) ∨ info.fragSize = 0) := by
      rw [hgathered.sicslowpanLen, hgathered.reassTag, hgathered.fragSender, hsize, htag, hsender]
      rw [hsize] at hpos
      rintro (⟨-, h | h | h⟩ | h)
      · exact h rfl
      · exact h rfl
      · exact h rfl
      · rw [h] at hpos
        exact absurd hpos (by decide)
    rw [hcancel]
    exact ⟨rfl, r, by rw [joinReassembly, if_pos hprocessed, if_neg hjoin], hgathered, rfl, rfl⟩

/-- What a fragment does to the receiver, whenever it comes. -/
lemma input_fragment (hfrags : IsFragments cfg uipLladdr dest packet tag frags)
    (hgot : ∀ g ∈ got, g ∈ frags) (hf : f ∈ frags)
    (hroom : (got.map Fragment.octets).sum + f.octets ≤ packet.bytes.length)
    (hapart : ∀ g ∈ got, Apart Fragment.offset Fragment.octets g f)
    (h : Awaits cfg uipLladdr packet tag t now got r) (hcarries : Carries uipLladdr dest f p) :
    ∃ r', Gathered cfg uipLladdr packet tag t (f :: got) r' ∧ input cfg now p r =
      if (got.map Fragment.octets).sum + f.octets = packet.bytes.length then
        ({ r' with sicslowpanLen := 0, processedIpLen := 0 },
          some (copyBytes r'.sicslowpanBuf 0 packet.bytes.length))
      else (r', none) := by
  have hlt := packet.length_lt
  have hsum := h.processed
  obtain ⟨-, hpos, hle⟩ := hfrags.tiles.mem hf
  have hgotPos : ∀ g ∈ got, 0 < g.octets := fun g hg => (hfrags.tiles.mem (hgot g hg)).2.1
  obtain ⟨rimeHdrLen, uncompHdrLen, hplaces, hsize, htag, hcount⟩ :=
    readFragHdr_fragment hfrags hf hcarries r.processedIpLen (by rw [hsum]; exact hroom)
  obtain ⟨hcancel, s, hjoin, hgathered, hprocessed, hbuf⟩ :=
    joinReassembly_fragment h hgotPos (by omega) hsize htag hcarries.sender
  obtain ⟨buffer, hunc, hplace⟩ := hplaces.uncompress s.sicslowpanBuf
  let r' : Lowpan := { s with
    sicslowpanBuf := memcpy s.sicslowpanBuf f.offset (content cfg packet f)
    processedIpLen := r.processedIpLen + UInt16.ofNat f.octets }
  have hoctets : r'.processedIpLen.toNat = (got.map Fragment.octets).sum + f.octets := by
    show (r.processedIpLen + UInt16.ofNat f.octets).toNat = _
    rw [UInt16.toNat_add, UInt16.toNat_ofNat', hsum]
    omega
  refine ⟨r', ⟨?_, hgathered.sicslowpanLen, hgathered.reassTag, hgathered.fragSender,
    hgathered.reassTimer, ?_⟩, ?_⟩
  · rw [hoctets, List.map_cons, List.sum_cons, Nat.add_comm]
  · intro g hg
    rcases List.mem_cons.mp hg with rfl | hg
    · exact holds_memcpy _ _ _
    · refine (hgathered.octets g hg).memcpy ?_
      rw [content_length hle, content_length (hfrags.tiles.mem (hgot g hg)).2.2]
      exact hapart g hg
  · have hsteps : input cfg now p r = copyPayload p (readFragHdr p r.processedIpLen) rimeHdrLen
        uncompHdrLen { s with sicslowpanBuf := buffer } := by
      simp only [input, hcancel, hjoin, hunc]
    have hlen : (UInt16.ofNat packet.bytes.length).toNat = packet.bytes.length := by
      rw [UInt16.toNat_ofNat', Nat.mod_eq_of_lt (hlt.trans (by norm_num))]
    have hdone : (r'.processedIpLen = 0 ∨ r'.processedIpLen = r'.sicslowpanLen) ↔
        (got.map Fragment.octets).sum + f.octets = packet.bytes.length := by
      rw [show r'.sicslowpanLen = _ from hgathered.sicslowpanLen, ← UInt16.toNat_inj,
        ← UInt16.toNat_inj, hoctets, hlen, UInt16.toNat_zero]
      omega
    rw [hsteps, copyPayload, if_neg (Nat.not_lt.mpr hplaces.rimeHdrLen_le)]
    simp only
    have hcounted := hcount { s with
      sicslowpanBuf := memcpy s.sicslowpanBuf f.offset (content cfg packet f) } hprocessed
    rw [hplace, hcounted]
    by_cases hall : (got.map Fragment.octets).sum + f.octets = packet.bytes.length
    · rw [if_pos hall]
      refine (if_pos (hdone.mpr hall)).trans ?_
      rw [hgathered.sicslowpanLen, hlen]
    · rw [if_neg hall]
      exact if_neg fun hc => hall (hdone.mp hc)

/-! ## Any order -/

/-- Frames that arrive one after the other; the packets that are handed on. -/
def inputAll (cfg : LowpanConfig) : List (ℕ × Packetbuf) → Lowpan → List (Option (List UInt8))
  | [], _ => []
  | (now, p) :: arrivals, s =>
    let (s, delivered) := input cfg now p s
    delivered :: inputAll cfg arrivals s

/-- Once all octets are there, they are those of the restored packet. -/
lemma gathered_octets (hfrags : IsFragments cfg uipLladdr dest packet tag frags)
    (hperm : got.Perm frags) (h : Gathered cfg uipLladdr packet tag t got r) :
    copyBytes r.sicslowpanBuf 0 packet.bytes.length = packet.restored cfg := by
  have hlen := packet.length_restored cfg
  have hholds := hfrags.tiles.holds (Nat.le_of_eq hlen.symm)
    fun f hf => h.octets f (hperm.symm.subset hf)
  rw [List.drop_zero, Nat.sub_zero, List.take_of_length_le (Nat.le_of_eq hlen)] at hholds
  have hcopy := copyBytes_of_holds hholds
  rwa [hlen] at hcopy

/-- In whichever order the fragments come, the last one completes the restored packet. -/
lemma inputAll_fragments (hfrags : IsFragments cfg uipLladdr dest packet tag frags)
    {rest : List Fragment} {arrivals : List (ℕ × Packetbuf)} (hne : rest ≠ [])
    (hperm : (got ++ rest).Perm frags)
    (hcarries : List.Forall₂ (fun f a => Carries uipLladdr dest f a.2) rest arrivals)
    (hstart : got = [] → r.processedIpLen = 0 ∧ ∀ a ∈ arrivals.head?, a.1 = t)
    (hgathered : got ≠ [] → Gathered cfg uipLladdr packet tag t got r)
    (htimes : ∀ a ∈ arrivals, t ≤ a.1 ∧ a.1 < t + reassMaxage) :
    inputAll cfg arrivals r =
      List.replicate (rest.length - 1) none ++ [some (packet.restored cfg)] := by
  induction rest generalizing got arrivals r with
  | nil => exact absurd rfl hne
  | cons f rest ih =>
      obtain _ | ⟨hcarry, hothers⟩ := hcarries
      rename_i a arrivals
      have hf : f ∈ frags := hperm.subset (List.mem_append_right _ List.mem_cons_self)
      have hgot : ∀ g ∈ got, g ∈ frags := fun g hg => hperm.subset (List.mem_append_left _ hg)
      have hsum := (hperm.map Fragment.octets).sum_eq
      have htotal := hfrags.tiles.sum
      rw [List.map_append, List.map_cons, List.sum_append, List.sum_cons] at hsum
      have hapart : ∀ g ∈ got, Apart Fragment.offset Fragment.octets g f := fun g hg =>
        (List.pairwise_append.mp (hfrags.tiles.pairwise_perm hperm)).2.2 g hg f List.mem_cons_self
      have hawaits : Awaits cfg uipLladdr packet tag t a.1 got r := by
        by_cases hnil : got = []
        · obtain ⟨hzero, htime⟩ := hstart hnil
          exact .inl ⟨hnil, hzero, htime a rfl⟩
        · exact .inr ⟨hnil, hgathered hnil, htimes a List.mem_cons_self⟩
      obtain ⟨r', hr', hinput⟩ := input_fragment hfrags hgot hf (by omega) hapart hawaits hcarry
      have hmoved : (f :: got ++ rest).Perm frags := List.perm_middle.symm.trans hperm
      unfold inputAll
      rw [hinput]
      by_cases hlast : rest = []
      · subst hlast
        obtain _ | _ := hothers
        rw [List.append_nil] at hmoved
        rw [if_pos (by simp at hsum; omega), gathered_octets hfrags hmoved hr']
        rfl
      · obtain ⟨g, rest', hg⟩ := List.exists_cons_of_ne_nil hlast
        have hpos : 0 < (rest.map Fragment.octets).sum := by
          have hgpos := (hfrags.tiles.mem (hperm.subset (List.mem_append_right _
            (List.mem_cons_of_mem _ (hg ▸ List.mem_cons_self))) : g ∈ frags)).2.1
          rw [hg, List.map_cons, List.sum_cons]
          omega
        rw [if_neg (by omega)]
        simp only
        rw [ih hlast hmoved hothers (fun h => absurd h (List.cons_ne_nil _ _)) (fun _ => hr')
          (fun b hb => htimes b (List.mem_cons_of_mem _ hb)), hg]
        rfl

/-- The frames of all fragments arrive, in some order, before the time is up. -/
structure Arrives (uipLladdr dest : Lladdr) (frags : List Fragment)
    (arrivals : List (ℕ × Packetbuf)) : Prop where
  order : ∃ l : List Fragment, l.Perm frags ∧
    List.Forall₂ (fun f a => Carries uipLladdr dest f a.2) l arrivals
  times : ∃ t, (∀ a ∈ arrivals.head?, a.1 = t) ∧
    ∀ a ∈ arrivals, t ≤ a.1 ∧ a.1 < t + reassMaxage

lemma IsFragments.ne_nil (hfrags : IsFragments cfg uipLladdr dest packet tag frags) :
    frags ≠ [] := by
  rintro rfl
  have hempty : 0 = packet.bytes.length := hfrags.tiles
  have hle := packet.uipIphLen_le
  rw [← hempty] at hle
  exact absurd hle (by decide)

/-- An idle receiver hands on one packet, with the last frame. -/
lemma inputAll_arrives (hfrags : IsFragments cfg uipLladdr dest packet tag frags)
    {arrivals : List (ℕ × Packetbuf)} (h : Arrives uipLladdr dest frags arrivals)
    (hidle : r.processedIpLen = 0) : inputAll cfg arrivals r =
      List.replicate (frags.length - 1) none ++ [some (packet.restored cfg)] := by
  obtain ⟨⟨l, hperm, hcarries⟩, t, hhead, htimes⟩ := h
  have hne : l ≠ [] := by
    rintro rfl
    exact hfrags.ne_nil hperm.nil_eq.symm
  rw [← hperm.length_eq]
  have hnil : ([] ++ l).Perm frags := hperm
  exact inputAll_fragments hfrags hne hnil hcarries (fun _ => ⟨hidle, hhead⟩)
    (fun h => absurd rfl h) htimes

/-- A frame as it comes from the MAC. -/
def Packetbuf.ofFrame (frame : List UInt8) (sender receiver : Lladdr) : Packetbuf where
  data k := frame.getD k 0
  datalen := min frame.length packetbufSize
  sender
  receiver
  datalen_le := Nat.min_le_right _ _

lemma exists_arrives (hfrags : IsFragments cfg uipLladdr dest packet tag frags) :
    ∃ arrivals, Arrives uipLladdr dest frags arrivals := by
  refine ⟨frags.map fun f => (0, Packetbuf.ofFrame f.frame uipLladdr dest),
    ⟨frags, .refl _, ?_⟩, 0, ?_, ?_⟩
  · rw [List.forall₂_map_right_iff, List.forall₂_same]
    intro f hf
    have hle : f.frame.length ≤ packetbufSize := (hfrags.fits f hf).trans (by decide)
    exact ⟨holds_getD f.frame 0, Nat.min_eq_left hle, rfl, rfl⟩
  · intro a ha
    obtain ⟨f, -, rfl⟩ := List.mem_map.mp (List.mem_of_mem_head? ha)
    rfl
  · intro a ha
    obtain ⟨f, -, rfl⟩ := List.mem_map.mp ha
    exact ⟨Nat.le_refl 0, show 0 < 0 + reassMaxage by decide⟩

end Receiver

/-! ## The whole way -/

/-- No prefix is lost that the receiver needs: HC06 is not used, or there is a context for the
source, or the prefix that is left out is that of all link-local addresses. -/
def PrefixKept (cfg : LowpanConfig) (packet : IpPacket) : Prop :=
  packet.UsesHc06 cfg → srcContext cfg.contexts packet.ip = none → ¬ PrefixLost packet.ip

lemma prefixKept_iff (cfg : LowpanConfig) (packet : IpPacket) :
    PrefixKept cfg packet ↔ packet.restored cfg = packet.bytes := by
  rw [packet.restored_eq_iff cfg, PrefixKept, SrcRecoverable]
  cases hctx : srcContext cfg.contexts packet.ip with
  | some c =>
      have hfound := (numbersFound packet.ip cfg.nodup_numbers cfg.numbers_fit).1 c hctx
      simp [hfound]
  | none => simp

/-- A packet that `output` has split: every fragment fits into a frame and begins at a multiple of
eight octets, every octet is in one fragment, and an idle receiver hands on one packet, with the
last frame, in whichever order the frames arrive.  It is the packet that was sent if and only if no
prefix is lost. -/
theorem fragments_reassembled_iff (cfg : LowpanConfig) (uipLladdr dest : Lladdr)
    (packet : IpPacket) (s : Lowpan) (frags : List Fragment)
    (hsent : (output cfg uipLladdr dest packet.bytes (fun _ => true) s).2.1 = .fragments frags) :
    (∀ f ∈ frags, f.frame.length ≤ macMaxPayload) ∧ (∀ f ∈ frags, f.offset % 8 = 0) ∧
    (∀ k, frags.countP (fun f => decide (f.offset ≤ k ∧ k < f.offset + f.octets)) =
      if k < packet.bytes.length then 1 else 0) ∧
    ((∀ (arrivals : List (ℕ × Packetbuf)) (r : Lowpan), Arrives uipLladdr dest frags arrivals →
        r.processedIpLen = 0 → inputAll cfg arrivals r =
          List.replicate (frags.length - 1) none ++ [some packet.bytes]) ↔
      PrefixKept cfg packet) := by
  have hfrags := output_fragments hsent
  refine ⟨hfrags.fits, hfrags.aligned, fun k => ?_, ?_⟩
  · have hcount := hfrags.tiles.countP k
    simpa using hcount
  rw [prefixKept_iff]
  constructor
  · intro h
    obtain ⟨arrivals, harrives⟩ := exists_arrives hfrags
    let idle : Lowpan := ⟨fun _ => 0, 0, 0, 0, 0, uipLladdr, ⟨0, 0⟩⟩
    have hrun := h arrivals idle harrives rfl
    rw [inputAll_arrives hfrags harrives rfl, List.append_cancel_left_eq, List.singleton_inj,
      Option.some_inj] at hrun
    exact hrun
  · intro h arrivals r harrives hidle
    rw [inputAll_arrives hfrags harrives hidle, h]

/-- HC06 without contexts. -/
def hc06Config : LowpanConfig := 
  ⟨.hc06, 0, [], LowpanConfig.nodup_numbers_nil, LowpanConfig.numbers_fit_nil⟩

/-- An ICMPv6 packet of 120 octets. -/
def pingPacket (srcipaddr : List UInt8) : List UInt8 :=
  [0x60, 0, 0, 0, 0, 80, 58, 64] ++ srcipaddr ++
    [0xaa, 0xaa, 0, 0, 0, 0, 0, 0, 0, 0, 0, 0, 0, 0, 0, 1] ++ List.replicate 80 0

/-- The packet from `fe80:1::1` to `aaaa::1` is put together as one from `fe80::1`. -/
theorem not_fragments_reassembled :
    ¬ ∀ (cfg : LowpanConfig) (uipLladdr dest : Lladdr) (packet : IpPacket) (s : Lowpan)
      (frags : List Fragment),
      (output cfg uipLladdr dest packet.bytes (fun _ => true) s).2.1 = .fragments frags →
      (∀ f ∈ frags, f.frame.length ≤ macMaxPayload) ∧ (∀ f ∈ frags, f.offset % 8 = 0) ∧
      (∀ k, frags.countP (fun f => decide (f.offset ≤ k ∧ k < f.offset + f.octets)) =
        if k < packet.bytes.length then 1 else 0) ∧
      ∀ (arrivals : List (ℕ × Packetbuf)) (r : Lowpan), Arrives uipLladdr dest frags arrivals →
        r.processedIpLen = 0 → inputAll cfg arrivals r =
          List.replicate (frags.length - 1) none ++ [some packet.bytes] := by
  intro hall
  let mac : Lladdr := ⟨[0x02, 0x12, 0x74, 0x00, 0x00, 0x00, 0x00, 0x01], by decide⟩
  let packet : IpPacket :=
    ⟨pingPacket [0xfe, 0x80, 0, 1, 0, 0, 0, 0, 0, 0, 0, 0, 0, 0, 0, 1], by decide +kernel,
      by decide +kernel, by decide +kernel, by decide +kernel, by decide +kernel⟩
  let idle : Lowpan := ⟨fun _ => 0, 0, 0, 0, 0, mac, ⟨0, 0⟩⟩
  obtain ⟨frags, hsent⟩ := output_splits hc06Config mac mac packet idle (by decide +kernel)
  have hfrags := output_fragments hsent
  obtain ⟨arrivals, harrives⟩ := exists_arrives hfrags
  have hrun := (hall hc06Config mac mac packet idle frags hsent).2.2.2 arrivals idle harrives rfl
  rw [inputAll_arrives hfrags harrives rfl, List.append_cancel_left_eq, List.singleton_inj,
    Option.some_inj] at hrun
  exact absurd hrun (by decide +kernel)

/-- The packet from `fe80::1` comes through. -/
theorem fragments_reassembled_linkLocal : ∃ (packet : IpPacket) (frags : List Fragment),
    packet.bytes = pingPacket [0xfe, 0x80, 0, 0, 0, 0, 0, 0, 0, 0, 0, 0, 0, 0, 0, 1] ∧
    ∃ uipLladdr dest : Lladdr, IsFragments hc06Config uipLladdr dest packet 0 frags ∧
    ∀ (arrivals : List (ℕ × Packetbuf)) (r : Lowpan), Arrives uipLladdr dest frags arrivals →
      r.processedIpLen = 0 → inputAll hc06Config arrivals r =
        List.replicate (frags.length - 1) none ++ [some packet.bytes] := by
  let mac : Lladdr := ⟨[0x02, 0x12, 0x74, 0x00, 0x00, 0x00, 0x00, 0x01], by decide⟩
  let packet : IpPacket :=
    ⟨pingPacket [0xfe, 0x80, 0, 0, 0, 0, 0, 0, 0, 0, 0, 0, 0, 0, 0, 1], by decide +kernel,
      by decide +kernel, by decide +kernel, by decide +kernel, by decide +kernel⟩
  let idle : Lowpan := ⟨fun _ => 0, 0, 0, 0, 0, mac, ⟨0, 0⟩⟩
  obtain ⟨frags, hsent⟩ := output_splits hc06Config mac mac packet idle (by decide +kernel)
  have hkept : PrefixKept hc06Config packet := fun _ _ h => absurd h (by decide +kernel)
  exact ⟨packet, frags, rfl, mac, mac, output_fragments hsent,
    (fragments_reassembled_iff hc06Config mac mac packet idle frags hsent).2.2.2.mpr hkept⟩

end Sicslowpan
end Contiki

import Contiki.Net.Checksum
import Contiki.Net.UpperLayer

/-!
# Checksum fields

The checksums of TCP, UDP and ICMPv6 are filled in over a field that is zero, as the complement of
`upper_layer_chksum`; for UDP a complement that is zero is sent as `0xffff`.

* `UipBuf.fillChksum`, `UipBuf.udpFillChksum`, `udpSend` — a checksum is filled in.
* `UipBuf.CoversChksum` — the upper-layer part reaches over its checksum field.
* `chksum_verifies` — what `chksum` returns, and that a checksum that is filled in verifies.
-/

namespace Contiki

/-- The protocols that have a checksum. -/
inductive ChksumProto
  | tcp
  | udp
  | icmp6
deriving DecidableEq

namespace ChksumProto

/-- `UIP_PROTO_TCP`, `UIP_PROTO_UDP` and `UIP_PROTO_ICMP6`. -/
def proto : ChksumProto → UInt8
  | tcp => 6
  | udp => 17
  | icmp6 => 58

/-- The place of the checksum field, in words of the header. -/
def field : ChksumProto → ℕ
  | tcp => 8
  | udp => 3
  | icmp6 => 1

end ChksumProto

namespace UipBuf
variable (p : UipBuf) (q : ChksumProto) (extLen : UInt8)

/-- The checksum field behind extension headers of `uip_ext_len` bytes. -/
def chksumAt : ℕ := uipIphLen + extLen.toNat + 2 * q.field

/-- The checksum field is zero. -/
def clearChksum : UipBuf := ⟨memcpy p.bytes (chksumAt q extLen) (wordBytes 0), p.len⟩

/-- `uip_tcpchksum`, `uip_udpchksum` and `uip_icmp6chksum`. -/
def protoChksum : UInt16 := p.upperLayerChksum (uipIphLen + extLen.toNat) q.proto

/-- `UIP_UDP_BUF->udpchksum = 0` and `UIP_UDP_BUF->udpchksum = ~(uip_udpchksum ())`, and so for the other
protocols. -/
def fillChksum : UipBuf :=
  let p := p.clearChksum q extLen
  ⟨memcpy p.bytes (chksumAt q extLen) (wordBytes (~~~p.protoChksum q extLen)), p.len⟩

/-- The checksum of UDP, where zero is replaced. -/
def udpFillChksum : UipBuf :=
  let p := p.fillChksum .udp extLen
  if wordAt p.bytes (chksumAt .udp extLen) = 0 then
    ⟨memcpy p.bytes (chksumAt .udp extLen) (wordBytes 0xffff), p.len⟩
  else p

/-- The packet has its checksum field: the upper-layer part, as long as the IPv6 header says, reaches over
it. -/
def CoversChksum : Prop :=
  2 * q.field + 2 ≤ (p.upperLayerLen (uipIphLen + extLen.toNat)).toNat

instance : Decidable (p.CoversChksum q extLen) := inferInstanceAs (Decidable (_ ≤ _))

end UipBuf

/-- What `udp_send` writes to the headers behind the length. -/
def udpHeaders (src : IpAddr) (base : ℕ) (slen : UInt16) (conn : Endpoint) (ttl : UInt8) :
    List (ℕ × List UInt8) :=
  [(7, [ttl]), (6, [17]), (base + 4, wordBytes (slen + 8)), (base + 6, wordBytes 0),
    (base, wordBytes conn.lport), (base + 2, wordBytes conn.rport), (24, conn.ripaddr.u8), (8, src.u8)]

/-- `udp_send`, with `uip_slen` and `uip_udp_conn` and its `ttl`. -/
def udpSend (node : IpNode) (extLen : UInt8) (slen : UInt16) (conn : Endpoint) (ttl : UInt8)
    (p : UipBuf) : Option UipBuf :=
  let base := uipIphLen + extLen.toNat
  if slen = 0 then none
  else
    let len := slen + 48
    let src := uipDs6SelectSrc node.addrList conn.ripaddr
    let bytes := memcpyAll (memcpy p.bytes 4 (wordBytes (len - 40))) (udpHeaders src base slen conn ttl)
    some (UipBuf.udpFillChksum ⟨bytes, len⟩ extLen)

namespace UipBuf
variable {p : UipBuf} {q : ChksumProto} {extLen : UInt8}

/-! ## Filled fields -/

/-- A write to the checksum field leaves the length of the upper-layer part as it is. -/
lemma upperLayerLen_memcpy (p : UipBuf) (q : ChksumProto) (extLen : UInt8) (v : UInt16) (base : ℕ) :
    (⟨memcpy p.bytes (chksumAt q extLen) (wordBytes v), p.len⟩ : UipBuf).upperLayerLen base =
      p.upperLayerLen base := by
  have hat : 40 ≤ chksumAt q extLen := by
    have hiph : uipIphLen = 40 := rfl
    unfold chksumAt
    omega
  unfold upperLayerLen payloadLen wordAt
  dsimp only
  rw [memcpy_of_notMem (.inl (by omega)), memcpy_of_notMem (.inl (by omega))]

lemma CoversChksum.clear (h : p.CoversChksum q extLen) :
    (p.clearChksum q extLen).CoversChksum q extLen := by
  unfold CoversChksum clearChksum
  rw [upperLayerLen_memcpy]
  exact h

lemma wordAt_memcpy (b : ℕ → UInt8) (pos : ℕ) (v : UInt16) :
    wordAt (memcpy b pos (wordBytes v)) pos = v :=
  Sicslowpan.wordAt_of_holds (holds_memcpy _ _ _)

/-- The cleared packet verifies with any field that complements its checksum modulo 65535. -/
lemma CoversChksum.fill (h : p.CoversChksum q extLen) {v : UInt16}
    (hv : (v.toNat + ((p.clearChksum q extLen).protoChksum q extLen).toNat) % 65535 = 0) :
    (⟨memcpy (p.clearChksum q extLen).bytes (chksumAt q extLen) (wordBytes v), p.len⟩ :
      UipBuf).protoChksum q extLen = 0xffff :=
  (p.clearChksum q extLen).upperLayerChksum_fill q.proto hv (Nat.le_add_right _ _) h.clear
    (wordAt_memcpy _ _ _)

lemma not_mod (c : UInt16) : ((~~~c).toNat + c.toNat) % 65535 = 0 := by
  have hnot : (~~~c).toNat = 65535 - c.toNat := UInt16.toNat_not _
  have hlt := c.toNat_lt
  omega

/-- A checksum that is filled in verifies. -/
lemma CoversChksum.fillChksum (h : p.CoversChksum q extLen) :
    (p.fillChksum q extLen).protoChksum q extLen = 0xffff :=
  h.fill (not_mod _)

lemma wordAt_fillChksum (p : UipBuf) (q : ChksumProto) (extLen : UInt8) :
    wordAt (p.fillChksum q extLen).bytes (chksumAt q extLen) =
      ~~~(p.clearChksum q extLen).protoChksum q extLen :=
  wordAt_memcpy _ _ _

lemma memcpy_overwrite (b : ℕ → UInt8) (pos : ℕ) (v w : UInt16) :
    memcpy (memcpy b pos (wordBytes v)) pos (wordBytes w) = memcpy b pos (wordBytes w) := by
  have hlen : ∀ u, (wordBytes u).length = 2 := fun _ => rfl
  funext k
  by_cases hk : k < pos ∨ pos + 2 ≤ k
  · rw [memcpy_of_notMem (by rwa [hlen]), memcpy_of_notMem (by rwa [hlen]), memcpy_of_notMem (by rwa [hlen])]
  · have hlt : k - pos < (wordBytes w).length := by
      rw [hlen]
      omega
    rw [show k = pos + (k - pos) by omega]
    rw [(holds_memcpy _ pos (wordBytes w)).get _ hlt, (holds_memcpy b pos (wordBytes w)).get _ hlt]

/-- The checksum of UDP verifies also where zero is replaced, and it is there for the receiver to look at. -/
lemma CoversChksum.udpFillChksum (h : p.CoversChksum .udp extLen) :
    (p.udpFillChksum extLen).protoChksum .udp extLen = 0xffff ∧
      wordAt (p.udpFillChksum extLen).bytes (chksumAt .udp extLen) ≠ 0 := by
  unfold UipBuf.udpFillChksum
  dsimp only
  split_ifs with hzero
  · rw [wordAt_fillChksum] at hzero
    -- zero is the complement of `0xffff`, and so is `0xffff` modulo 65535
    have hfull : (p.clearChksum .udp extLen).protoChksum .udp extLen = 0xffff := by
      have hnot := not_mod ((p.clearChksum .udp extLen).protoChksum .udp extLen)
      have hne : (p.clearChksum .udp extLen).protoChksum .udp extLen ≠ 0 :=
        upperLayerChksum_ne_zero _ _ _
      have hpos : ((p.clearChksum .udp extLen).protoChksum .udp extLen).toNat ≠ 0 :=
        fun h => hne (UInt16.toNat_inj.mp h)
      have hlt := ((p.clearChksum .udp extLen).protoChksum .udp extLen).toNat_lt
      rw [hzero, UInt16.toNat_zero] at hnot
      apply UInt16.toNat_inj.mp
      show _ = 65535
      omega
    rw [wordAt_memcpy]
    refine ⟨?_, by decide⟩
    have hbytes : memcpy (p.fillChksum .udp extLen).bytes (chksumAt .udp extLen) (wordBytes 0xffff) =
        memcpy (p.clearChksum .udp extLen).bytes (chksumAt .udp extLen) (wordBytes 0xffff) :=
      memcpy_overwrite _ _ _ _
    rw [hbytes]
    apply h.fill
    rw [hfull]
    rfl
  · exact ⟨h.fillChksum, hzero⟩

end UipBuf

section
variable {node : IpNode} {extLen : UInt8} {slen : UInt16} {conn : Endpoint} {ttl : UInt8} {p t : UipBuf}

/-- Behind the length, nothing is written to it. -/
lemma memcpyAll_udpHeaders (b : ℕ → UInt8) (src : IpAddr) {base k : ℕ} (slen : UInt16) (conn : Endpoint)
    (ttl : UInt8) (hbase : uipIphLen ≤ base) (hk : k < 6) :
    memcpyAll b (udpHeaders src base slen conn ttl) k = b k := by
  have hiph : uipIphLen = 40 := rfl
  apply memcpyAll_of_notMem
  unfold udpHeaders
  simp only [List.forall_mem_cons]
  refine ⟨?_, ?_, ?_, ?_, ?_, ?_, ?_, ?_, fun _ h => absurd h List.not_mem_nil⟩
  all_goals
    left
    omega

/-- A datagram that is longer than the extension headers of the packet that it answers verifies. -/
theorem udpSend_verifies (h : udpSend node extLen slen conn ttl p = some t)
    (hlen : 8 ≤ (slen + 8 - extLen.toUInt16).toNat) : t.protoChksum .udp extLen = 0xffff := by
  unfold udpSend at h
  split_ifs at h with hzero
  injection h with h
  subst h
  refine (UipBuf.CoversChksum.udpFillChksum ?_).1
  have hpayload : slen + 48 - 40 = slen + 8 := by grind
  have hext : UInt16.ofNat (uipIphLen + extLen.toNat - uipIphLen) = extLen.toUInt16 := by
    rw [Nat.add_sub_cancel_left, UInt16.ofNat_uInt8ToNat]
  unfold UipBuf.CoversChksum UipBuf.upperLayerLen UipBuf.payloadLen wordAt
  dsimp only
  rw [hext, hpayload, memcpyAll_udpHeaders _ _ _ _ _ (Nat.le_add_right _ _) (by omega),
    memcpyAll_udpHeaders _ _ _ _ _ (Nat.le_add_right _ _) (by omega)]
  have hlength := UipBuf.wordAt_memcpy p.bytes 4 (slen + 8)
  unfold wordAt at hlength
  rw [hlength]
  exact hlen

end

/-- `chksum` returns the one's complement sum of the words, and zero only if everything is zero.  A
checksum that is filled in verifies, for UDP also where zero is replaced. -/
theorem chksum_verifies :
    (∀ bytes sum pos len,
      (chksum bytes sum pos len).toNat = endAround 65535 (sum.toNat + wordSum bytes pos len) ∧
      (chksum bytes sum pos len = 0 ↔ sum = 0 ∧ ∀ k < len, bytes (pos + k) = 0)) ∧
    (∀ (p : UipBuf) q extLen, p.CoversChksum q extLen →
      (p.fillChksum q extLen).protoChksum q extLen = 0xffff) ∧
    (∀ (p : UipBuf) extLen, p.CoversChksum .udp extLen →
      (p.udpFillChksum extLen).protoChksum .udp extLen = 0xffff ∧
        wordAt (p.udpFillChksum extLen).bytes (UipBuf.chksumAt .udp extLen) ≠ 0) := by
  refine ⟨fun bytes sum pos len => ⟨chksum_toNat _ _ _ _, ?_⟩, fun p q extLen h => h.fillChksum,
    fun p extLen h => h.udpFillChksum⟩
  rw [← UInt16.toNat_inj, chksum_toNat, UInt16.toNat_zero, endAround_eq_zero_iff, Nat.add_eq_zero_iff,
    wordSum_eq_zero_iff, ← UInt16.toNat_inj, UInt16.toNat_zero]

/-- A UDP datagram of 20 octets behind 8 octets of extension headers. -/
def datagram : UipBuf :=
  ⟨fun k => if k = 4 then 0 else if k = 5 then 28 else UInt8.ofNat (7 * k + 1), 68⟩

/-- The checksum of a datagram is filled in, and verifies. -/
theorem chksum_verifies_datagram :
    datagram.CoversChksum .udp 8 ∧ (datagram.udpFillChksum 8).protoChksum .udp 8 = 0xffff ∧
      wordAt (datagram.udpFillChksum 8).bytes (UipBuf.chksumAt .udp 8) ≠ 0 ∧
      datagram.CoversChksum .icmp6 8 ∧ (datagram.fillChksum .icmp6 8).protoChksum .icmp6 8 = 0xffff := by
  have hudp : datagram.CoversChksum .udp 8 := by decide
  have hicmp : datagram.CoversChksum .icmp6 8 := by decide
  have hfilled := chksum_verifies.2.2 _ _ hudp
  exact ⟨hudp, hfilled.1, hfilled.2, hicmp, chksum_verifies.2.1 _ _ _ hicmp⟩

/-- Four octets of data are sent in answer to a packet with extension headers: the length of the
upper-layer part ends in front of the field. -/
theorem not_chksum_verifies :
    ¬∀ (p : UipBuf) q extLen, (p.fillChksum q extLen).protoChksum q extLen = 0xffff := by
  intro h
  have hfilled := h ⟨fun k => if k = 5 then 12 else 0, 52⟩ .udp 8
  exact absurd hfilled (by decide +kernel)

end Contiki

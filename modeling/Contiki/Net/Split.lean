import Contiki.Net.ChecksumFields
import Contiki.Net.ParkedPackets
import Contiki.Net.Solicitations
import Contiki.Net.Tcp

/-!
# Splitting of TCP segments

`uip_split_output` sends a full-sized segment in two halves.  The second half is made from what
`tcpip_ipv6_output` leaves in `uip_buf` when the first half has been dealt with.

* `IpStack.uipSplitOutput` — the two halves.
* `UipBuf.CarriesPart` — a packet carries a part of the payload of a segment.
* `IpStack.splitSecond_carries` — what the second half needs of the buffer.
* `IpStack.split_invisible` — when it finds it.
-/

namespace Contiki

/-- `memcpy` octet by octet, the lowest first; the ranges may overlap. -/
def copyForward (b : ℕ → UInt8) (dst src : ℕ) : ℕ → ℕ → UInt8
  | 0 => b
  | n + 1 => Function.update (copyForward b dst src n) (dst + n) (copyForward b dst src n (src + n))

/-- `BUF->seqno`. -/
def seqnoAt (b : ℕ → UInt8) : SeqNo := ⟨b 44, b 45, b 46, b 47⟩

def splitLen1 (tcplen : UInt16) : UInt16 := tcplen / 2

def splitLen2 (tcplen : UInt16) : UInt16 :=
  if splitLen1 tcplen + splitLen1 tcplen < tcplen then splitLen1 tcplen + 1 else splitLen1 tcplen

namespace IpStack
variable {cfg : StackConfig} {δ : Type} (tcplen : UInt16) (appdata : ℕ) (s t : IpStack cfg δ)

/-- `BUF->tcpchksum = 0` and `BUF->tcpchksum = ~(uip_tcpchksum())`. -/
def fillTcpchksum : IpStack cfg δ :=
  let s := s.writeBuf 56 (wordBytes 0)
  s.writeBuf 56 (wordBytes (~~~s.uipBuf.protoChksum .tcp s.uipExtLen))

/-- `uip_len` is set, and `BUF->len`. -/
def setSplitLen (len : UInt16) : IpStack cfg δ :=
  let s := s.setLen (len + 60)
  s.writeBuf 4 (wordBytes (s.uipBuf.len - 40))

/-- The first packet is created. -/
def splitFirst : IpStack cfg δ := (s.setSplitLen (splitLen1 tcplen)).fillTcpchksum

/-- The second packet is created, from what is in the buffer now; `uip_appdata` is an offset like those in
the packet. -/
def splitSecond : IpStack cfg δ :=
  let len1 := splitLen1 tcplen
  let s := s.setSplitLen (splitLen2 tcplen)
  let bytes := copyForward s.uipBuf.bytes appdata (appdata + len1.toNat) (splitLen2 tcplen).toNat
  let s : IpStack cfg δ := { s with uipBuf := { s.uipBuf with bytes } }
  let acc32 := (seqnoAt s.uipBuf.bytes).uipAdd32 len1
  (s.writeBuf 44 [acc32.b0, acc32.b1, acc32.b2, acc32.b3]).fillTcpchksum

/-- `uip_split_output`, with `UIP_TCP_MSS`. -/
def uipSplitOutput (mss : UInt16) : Except StackFault (IpStack cfg δ) :=
  if s.uipBuf.bytes 6 = 6 ∧ s.uipBuf.len.toNat = mss.toNat + 60 then do
    let tcplen := s.uipBuf.len - 60
    let t ← (s.splitFirst tcplen).tcpipIpv6Output
    (t.splitSecond tcplen appdata).tcpipIpv6Output
  else s.tcpipIpv6Output

end IpStack

/-! ## What the halves carry -/

/-- The places of the length, the sequence number and the checksum in the headers. -/
def Rewritten (k : ℕ) : Prop := 4 ≤ k ∧ k < 6 ∨ 44 ≤ k ∧ k < 48 ∨ 56 ≤ k ∧ k < 58

/-- The packet is a TCP segment of the same connection with `n` octets of the payload, from `start` on: its length and
the length field match, the sequence number is advanced, its checksum verifies, and the rest of the headers is the
same. -/
structure UipBuf.CarriesPart (orig p : UipBuf) (start n : ℕ) : Prop where
  len : p.len.toNat = n + 60
  payloadLen : p.payloadLen.toNat + 40 = n + 60
  payload : ∀ k < n, p.bytes (60 + k) = orig.bytes (60 + start + k)
  seqno : (seqnoAt p.bytes).toNat = ((seqnoAt orig.bytes).toNat + start) % 2 ^ 32
  header : ∀ k < 60, ¬Rewritten k → p.bytes k = orig.bytes k
  chksum : p.protoChksum .tcp 0 = 0xffff

/-- The places of `uip_buf` that the second packet is made from: the headers but for the length and the checksum, and
the second half of the payload. -/
def Needed (tcplen : UInt16) (k : ℕ) : Prop :=
  (k < 60 ∧ ¬(4 ≤ k ∧ k < 6) ∧ ¬(56 ≤ k ∧ k < 58)) ∨
    (60 + (splitLen1 tcplen).toNat ≤ k ∧ k < 60 + tcplen.toNat)

/-- They are as in the segment. -/
def KeepsNeeded (tcplen : UInt16) (orig b : ℕ → UInt8) : Prop := ∀ k, Needed tcplen k → b k = orig k

namespace IpStack
variable {cfg : StackConfig} {δ : Type} (s : IpStack cfg δ)

/-- A full-sized TCP segment without extension headers is in `uip_buf`, its payload behind the headers. -/
structure FullSized (mss : UInt16) (appdata : ℕ) : Prop where
  proto : s.uipBuf.bytes 6 = 6
  len : s.uipBuf.len.toNat = mss.toNat + 60
  room : s.uipBuf.len.toNat ≤ cfg.bufsize.toNat
  extLen : s.uipExtLen = 0
  appdata : appdata = 60

/-- The two packets that are passed to `tcpip_ipv6_output` carry the two halves of the segment. -/
structure SplitsInvisibly (mss : UInt16) (appdata : ℕ) : Prop where
  first : s.uipBuf.CarriesPart (s.splitFirst mss).uipBuf 0 (mss.toNat / 2)
  second : ∃ t, (s.splitFirst mss).tcpipIpv6Output = .ok t ∧
    s.uipSplitOutput appdata mss = (t.splitSecond mss appdata).tcpipIpv6Output ∧
    s.uipBuf.CarriesPart (t.splitSecond mss appdata).uipBuf (mss.toNat / 2) (mss.toNat - mss.toNat / 2)

/-- The neighbour that the packet in `uip_buf` is sent to, if it takes no source route. -/
def hopTaken : Option IpAddr :=
  let dest := s.uipBuf.destipaddr
  if s.uipBuf.len = 0 ∨ s.uipBuf.len > s.node.linkMtu ∨ dest.uipIsAddrUnspecified ∨ dest.uipIsAddrMcast then none
  else s.plainHop dest

/-- The link-layer address of a neighbour is known, and a packet waits for it in a block. -/
def WaitsFor (hop : IpAddr) (b : Fin maxNumQueuedPackets) : Prop :=
  ∃ i, s.uipDs6NbrLookup hop = some i ∧ (s.nbrCache i).state ≠ .incomplete ∧ (s.nbrCache i).packethandle = some b

/-- The packet that waits is copied over the one in `uip_buf`: what the second half needs is as in the segment. -/
def RestoredBy (orig : UipBuf) (tcplen : UInt16) (b : Fin maxNumQueuedPackets) : Prop :=
  KeepsNeeded tcplen orig.bytes (memcpy s.uipBuf.bytes 0 (s.packetsMemb.mem b).bytes)

/-- The first half is sent, or dropped, and nothing else is put into `uip_buf` that the second half would show: no
solicitation, since no entry is made for an unknown neighbour, and no other packet that waited for the neighbour.
Where a routing header is inserted, a packet that waited happens to restore the segment. -/
structure LeavesSecond (orig : UipBuf) (tcplen : UInt16) : Prop where
  unknown : ∀ hop, s.hopTaken = some hop → s.uipDs6NbrLookup hop = none →
    (s.uipDs6NbrAdd hop none false .incomplete).1 = none
  waiting : ∀ hop b, s.hopTaken = some hop → s.WaitsFor hop b → s.RestoredBy orig tcplen b
  routed : ∀ r, s.srcRouteTaken = some r → ∃ hop u b, s.insertRh4 r = .ok (hop, u) ∧ u.WaitsFor hop b ∧
    u.RestoredBy orig tcplen b

end IpStack

/-! ## Octets -/

/-- A copy to the front reads what was there before. -/
lemma copyForward_apply (b : ℕ → UInt8) {dst src : ℕ} (h : dst ≤ src) (n k : ℕ) :
    copyForward b dst src n k = if dst ≤ k ∧ k < dst + n then b (src + (k - dst)) else b k := by
  induction n generalizing k with
  | zero => rw [copyForward, if_neg (by omega)]
  | succ n ih =>
    have hread : copyForward b dst src n (src + n) = b (src + n) := by rw [ih, if_neg (by omega)]
    rw [copyForward, hread]
    by_cases hk : k = dst + n
    · subst hk
      rw [Function.update_self, if_pos (by omega), Nat.add_sub_cancel_left]
    · rw [Function.update_of_ne hk, ih]
      by_cases hin : dst ≤ k ∧ k < dst + n
      · rw [if_pos hin, if_pos (by omega)]
      · rw [if_neg hin, if_neg (by omega)]

lemma toNat_splitLen1 (tcplen : UInt16) : (splitLen1 tcplen).toNat = tcplen.toNat / 2 := UInt16.toNat_div _ _

/-- The second half is the rest. -/
lemma toNat_splitLen2 (tcplen : UInt16) : (splitLen2 tcplen).toNat = tcplen.toNat - tcplen.toNat / 2 := by
  have hlt := tcplen.toNat_lt
  have hhalf := toNat_splitLen1 tcplen
  have hsum : (splitLen1 tcplen + splitLen1 tcplen).toNat = tcplen.toNat / 2 + tcplen.toNat / 2 := by
    rw [UInt16.toNat_add, hhalf]
    omega
  unfold splitLen2
  by_cases hodd : splitLen1 tcplen + splitLen1 tcplen < tcplen
  · rw [if_pos hodd, UInt16.toNat_add, hhalf, UInt16.toNat_one]
    rw [UInt16.lt_iff_toNat_lt, hsum] at hodd
    omega
  · rw [if_neg hodd, hhalf]
    rw [UInt16.lt_iff_toNat_lt, hsum] at hodd
    omega

lemma seqnoAt_congr {b b' : ℕ → UInt8} (h : ∀ k, 44 ≤ k → k < 48 → b' k = b k) : seqnoAt b' = seqnoAt b := by
  unfold seqnoAt
  rw [h 44 (by omega) (by omega), h 45 (by omega) (by omega), h 46 (by omega) (by omega), h 47 (by omega) (by omega)]

lemma seqnoAt_memcpy (b : ℕ → UInt8) (n : SeqNo) : seqnoAt (memcpy b 44 [n.b0, n.b1, n.b2, n.b3]) = n := by
  obtain ⟨h0, h1, h2, h3, -⟩ := holds_memcpy b 44 [n.b0, n.b1, n.b2, n.b3]
  unfold seqnoAt
  rw [h0, h1, h2, h3]

namespace UipBuf
variable {orig p : UipBuf} {start n : ℕ}

lemma fillChksum_bytes (p : UipBuf) {k : ℕ} (hk : k < 56 ∨ 58 ≤ k) : (p.fillChksum .tcp 0).bytes k = p.bytes k := by
  have hat : chksumAt .tcp 0 = 56 := rfl
  show memcpy (memcpy p.bytes (chksumAt .tcp 0) (wordBytes 0)) (chksumAt .tcp 0) (wordBytes _) k = _
  rw [hat, memcpy_of_notMem (by show _ ∨ 56 + 2 ≤ k; omega), memcpy_of_notMem (by show _ ∨ 56 + 2 ≤ k; omega)]

lemma payloadLen_congr {q : UipBuf} (h : ∀ k, 4 ≤ k → k < 6 → q.bytes k = p.bytes k) : q.payloadLen = p.payloadLen := by
  unfold payloadLen wordAt
  rw [h 4 (by omega) (by omega), h 5 (by omega) (by omega)]

/-- The checksum is all that a part lacks. -/
lemma carriesPart_fillChksum (hlen : p.len.toNat = n + 60) (hfield : p.payloadLen.toNat + 40 = n + 60)
    (hpayload : ∀ k < n, p.bytes (60 + k) = orig.bytes (60 + start + k))
    (hseqno : (seqnoAt p.bytes).toNat = ((seqnoAt orig.bytes).toNat + start) % 2 ^ 32)
    (hheader : ∀ k < 60, ¬Rewritten k → p.bytes k = orig.bytes k) :
    orig.CarriesPart (p.fillChksum .tcp 0) start n where
  len := hlen
  payloadLen := by
    rw [payloadLen_congr fun k _ hk => p.fillChksum_bytes (.inl (by omega))]
    exact hfield
  payload k hk := by rw [fillChksum_bytes _ (by omega), hpayload k hk]
  seqno := by
    rw [seqnoAt_congr fun k _ hk => p.fillChksum_bytes (.inl (by omega))]
    exact hseqno
  header k hk hkept := by
    unfold Rewritten at hkept
    rw [fillChksum_bytes _ (by omega), hheader k hk (by unfold Rewritten; omega)]
  chksum := by
    refine CoversChksum.fillChksum ?_
    show 2 * 8 + 2 ≤ (p.payloadLen - 0).toNat
    rw [UInt16.sub_zero]
    omega

end UipBuf

namespace IpStack
variable {cfg : StackConfig} {δ : Type} {s t u : IpStack cfg δ} {tcplen : UInt16}

lemma fillTcpchksum_bytes (s : IpStack cfg δ) {k : ℕ} (hk : k < 56 ∨ 58 ≤ k) :
    s.fillTcpchksum.uipBuf.bytes k = s.uipBuf.bytes k := by
  unfold fillTcpchksum
  rw [writeBuf_of_notMem (by show _ ∨ 56 + 2 ≤ k; omega), writeBuf_of_notMem (by show _ ∨ 56 + 2 ≤ k; omega)]

lemma fillTcpchksum_uipBuf (hext : s.uipExtLen = 0) : s.fillTcpchksum.uipBuf = s.uipBuf.fillChksum .tcp 0 := by
  show UipBuf.mk (memcpy _ 56 (wordBytes (~~~UipBuf.protoChksum _ .tcp s.uipExtLen))) _ = _
  rw [hext]
  rfl

lemma setSplitLen_bytes (s : IpStack cfg δ) (len : UInt16) {k : ℕ} (hk : k < 4 ∨ 6 ≤ k) :
    (s.setSplitLen len).uipBuf.bytes k = s.uipBuf.bytes k := by
  unfold setSplitLen
  exact writeBuf_of_notMem (by show _ ∨ 4 + 2 ≤ k; omega)

lemma setSplitLen_extLen (s : IpStack cfg δ) (len : UInt16) : (s.setSplitLen len).uipExtLen = s.uipExtLen := by
  unfold setSplitLen
  rw [writeBuf_uipExtLen]
  rfl

/-- The length of a packet with `len` octets of payload, and its length field. -/
lemma setSplitLen_len (s : IpStack cfg δ) {len : UInt16} (hlen : len.toNat + 60 < 65536) :
    (s.setSplitLen len).uipBuf.len.toNat = len.toNat + 60 ∧
      (s.setSplitLen len).uipBuf.payloadLen.toNat + 40 = len.toNat + 60 := by
  have htotal : (len + 60).toNat = len.toNat + 60 := by
    rw [UInt16.toNat_add]
    show (len.toNat + 60) % 65536 = _
    omega
  have hfield : (s.setSplitLen len).uipBuf.payloadLen = len + 60 - 40 :=
    Sicslowpan.wordAt_of_holds (holds_memcpy _ _ _)
  refine ⟨htotal, ?_⟩
  rw [hfield, UInt16.toNat_sub_of_le _ _ (by rw [UInt16.le_iff_toNat_le, htotal]; show 40 ≤ _; omega), htotal]
  show len.toNat + 60 - 40 + 40 = _
  omega

/-- The first packet carries the first half. -/
lemma splitFirst_carries (hext : s.uipExtLen = 0) (hlen : tcplen.toNat + 60 < 65536) :
    s.uipBuf.CarriesPart (s.splitFirst tcplen).uipBuf 0 (tcplen.toNat / 2) := by
  have hhalf := toNat_splitLen1 tcplen
  obtain ⟨htotal, hfield⟩ := s.setSplitLen_len (show (splitLen1 tcplen).toNat + 60 < 65536 by omega)
  rw [hhalf] at htotal hfield
  have hset : (s.setSplitLen (splitLen1 tcplen)).uipExtLen = 0 := hext
  unfold splitFirst
  rw [fillTcpchksum_uipBuf hset]
  refine UipBuf.carriesPart_fillChksum htotal hfield (fun k _ => ?_) ?_ fun k _ hkept => ?_
  · exact setSplitLen_bytes _ _ (by omega)
  · have hlt := (seqnoAt s.uipBuf.bytes).toNat_lt
    rw [seqnoAt_congr fun k hk _ => s.setSplitLen_bytes _ (by omega), Nat.add_zero, Nat.mod_eq_of_lt hlt]
  · unfold Rewritten at hkept
    exact setSplitLen_bytes _ _ (by omega)

/-! ## The second half -/

/-- The buffer that the second packet is made in, ahead of its sequence number. -/
def splitCopied (t : IpStack cfg δ) (tcplen : UInt16) : ℕ → UInt8 :=
  copyForward (t.setSplitLen (splitLen2 tcplen)).uipBuf.bytes 60 (60 + (splitLen1 tcplen).toNat)
    (splitLen2 tcplen).toNat

lemma splitCopied_payload (t : IpStack cfg δ) {k : ℕ} (hk : k < tcplen.toNat - tcplen.toNat / 2) :
    t.splitCopied tcplen (60 + k) = t.uipBuf.bytes (60 + tcplen.toNat / 2 + k) := by
  unfold splitCopied
  rw [copyForward_apply _ (Nat.le_add_right _ _), toNat_splitLen2, toNat_splitLen1, if_pos (by omega),
    setSplitLen_bytes _ _ (by omega)]
  congr 1
  omega

lemma splitCopied_header (t : IpStack cfg δ) {k : ℕ} (hk : k < 60) :
    t.splitCopied tcplen k = (t.setSplitLen (splitLen2 tcplen)).uipBuf.bytes k := by
  unfold splitCopied
  rw [copyForward_apply _ (Nat.le_add_right _ _), if_neg (by omega)]

/-- The second packet, without its checksum. -/
lemma splitSecond_eq (t : IpStack cfg δ) (tcplen : UInt16) : ∃ v : IpStack cfg δ, v.uipExtLen = t.uipExtLen ∧
    t.splitSecond tcplen 60 = v.fillTcpchksum ∧ v.uipBuf.len = (t.setSplitLen (splitLen2 tcplen)).uipBuf.len ∧
    seqnoAt v.uipBuf.bytes = (seqnoAt t.uipBuf.bytes).uipAdd32 (splitLen1 tcplen) ∧
    ∀ k, k < 44 ∨ 48 ≤ k → v.uipBuf.bytes k = t.splitCopied tcplen k := by
  have hseqno : seqnoAt (t.splitCopied tcplen) = seqnoAt t.uipBuf.bytes :=
    seqnoAt_congr fun k _ hk => by rw [splitCopied_header _ (by omega), setSplitLen_bytes _ _ (by omega)]
  let acc32 := (seqnoAt (t.splitCopied tcplen)).uipAdd32 (splitLen1 tcplen)
  let copied : IpStack cfg δ := { t.setSplitLen (splitLen2 tcplen) with
    uipBuf := ⟨t.splitCopied tcplen, (t.setSplitLen (splitLen2 tcplen)).uipBuf.len⟩ }
  have hext : copied.uipExtLen = (t.setSplitLen (splitLen2 tcplen)).uipExtLen := rfl
  refine ⟨copied.writeBuf 44 [acc32.b0, acc32.b1, acc32.b2, acc32.b3], ?_, rfl, rfl, ?_, fun k hk => ?_⟩
  · rw [writeBuf_uipExtLen, hext, setSplitLen_extLen]
  · exact (seqnoAt_memcpy _ _).trans (congrArg (·.uipAdd32 (splitLen1 tcplen)) hseqno)
  · exact memcpy_of_notMem hk

/-- The second packet carries the second half if the buffer keeps what it needs. -/
lemma splitSecond_carries {orig : UipBuf} (hext : t.uipExtLen = 0) (hlen : tcplen.toNat + 60 < 65536)
    (hkeeps : KeepsNeeded tcplen orig.bytes t.uipBuf.bytes) :
    orig.CarriesPart (t.splitSecond tcplen 60).uipBuf (tcplen.toNat / 2) (tcplen.toNat - tcplen.toNat / 2) := by
  obtain ⟨v, hvext, hv, hvlen, hvseqno, hvbytes⟩ := t.splitSecond_eq tcplen
  have hrest := toNat_splitLen2 tcplen
  obtain ⟨htotal, hfield⟩ := t.setSplitLen_len (show (splitLen2 tcplen).toNat + 60 < 65536 by omega)
  rw [hrest] at htotal hfield
  rw [hv, fillTcpchksum_uipBuf (hvext.trans hext)]
  refine UipBuf.carriesPart_fillChksum (hvlen ▸ htotal) ?_ (fun k hk => ?_) ?_ fun k hk hkept => ?_
  · rw [UipBuf.payloadLen_congr (p := (t.setSplitLen (splitLen2 tcplen)).uipBuf) fun k _ hk => ?_]
    · exact hfield
    · rw [hvbytes k (.inl (by omega)), splitCopied_header _ (by omega)]
  · rw [hvbytes _ (.inr (by omega)), splitCopied_payload t hk]
    exact hkeeps _ (.inr (by rw [toNat_splitLen1]; omega))
  · rw [hvseqno, SeqNo.uipAdd32_toNat, toNat_splitLen1,
      seqnoAt_congr fun k _ hk => hkeeps k (.inl ⟨by omega, by omega, by omega⟩)]
  · unfold Rewritten at hkept
    rw [hvbytes k (by omega), splitCopied_header _ (by omega), setSplitLen_bytes _ _ (by omega)]
    exact hkeeps k (.inl ⟨by omega, by omega, by omega⟩)

/-- A second packet that carries the second half shows that the buffer kept what it needs. -/
lemma keepsNeeded_of_carries {orig : UipBuf}
    (h : orig.CarriesPart (t.splitSecond tcplen 60).uipBuf (tcplen.toNat / 2) (tcplen.toNat - tcplen.toNat / 2)) :
    KeepsNeeded tcplen orig.bytes t.uipBuf.bytes := by
  obtain ⟨v, -, hv, -, hvseqno, hvbytes⟩ := t.splitSecond_eq tcplen
  have hlt := tcplen.toNat_lt
  rw [hv] at h
  have hseqno : seqnoAt t.uipBuf.bytes = seqnoAt orig.bytes := by
    have hsecond := h.seqno
    have ht := (seqnoAt t.uipBuf.bytes).toNat_lt
    have horig := (seqnoAt orig.bytes).toNat_lt
    rw [seqnoAt_congr fun k _ hk => v.fillTcpchksum_bytes (.inl (by omega)), hvseqno, SeqNo.uipAdd32_toNat,
      toNat_splitLen1] at hsecond
    exact SeqNo.toNat_inj (by omega)
  rintro k (⟨hk, hlen, hchksum⟩ | ⟨hlow, hhigh⟩)
  · by_cases hseq : 44 ≤ k ∧ k < 48
    · obtain ⟨h0, h1, h2, h3⟩ := SeqNo.mk.inj hseqno
      obtain rfl | rfl | rfl | rfl : k = 44 ∨ k = 45 ∨ k = 46 ∨ k = 47 := by omega
      · exact h0
      · exact h1
      · exact h2
      · exact h3
    · have hheader := h.header k hk (by unfold Rewritten; omega)
      rw [fillTcpchksum_bytes _ (by omega), hvbytes k (by omega), splitCopied_header _ hk,
        setSplitLen_bytes _ _ (by omega)] at hheader
      exact hheader
  · rw [toNat_splitLen1] at hlow
    obtain ⟨j, rfl⟩ := Nat.exists_eq_add_of_le hlow
    have hpayload := h.payload j (by omega)
    rw [fillTcpchksum_bytes _ (by omega), hvbytes _ (by omega), splitCopied_payload t (by omega)] at hpayload
    exact hpayload

/-! ## What is left in the buffer -/

section left
variable {orig : UipBuf} {hop : IpAddr} {i : Fin cfg.nbrNb} {b : Fin maxNumQueuedPackets}

lemma uipPacketqueueFree_uipBuf (s : IpStack cfg δ) (i : Fin cfg.nbrNb) :
    (s.uipPacketqueueFree i).uipBuf = s.uipBuf := by
  unfold uipPacketqueueFree
  cases (s.nbrCache i).packethandle with
  | none => rfl
  | some b => rfl

/-- Parking a packet leaves it in the buffer. -/
lemma park_keeps (h : s.park i = .ok t) : t.uipBuf = s.uipBuf ∧ t.uipExtLen = s.uipExtLen := by
  unfold park at h
  cases halloc : s.uipPacketqueueAlloc i with
  | none =>
    rw [halloc] at h
    cases h
    exact ⟨rfl, rfl⟩
  | some r =>
    obtain ⟨b, u⟩ := r
    rw [halloc] at h
    have hu : u.uipBuf = s.uipBuf ∧ u.uipExtLen = s.uipExtLen := by
      unfold uipPacketqueueAlloc at halloc
      split_ifs at halloc
      obtain ⟨⟨c, memb⟩, -, heq⟩ := Option.map_eq_some_iff.mp halloc
      cases heq
      exact ⟨rfl, rfl⟩
    dsimp only at h
    split_ifs at h
    cases h
    exact hu

/-- For a neighbour that was not in the cache, a solicitation is left in the buffer. -/
lemma outputNew_proto (h : s.outputNew i = .ok t) : t.uipBuf.bytes 6 = 58 := by
  unfold outputNew at h
  obtain ⟨u, -, h⟩ := bind_eq_ok.mp h
  cases h
  exact (uipNd6NsOutput_holds u (if u.node.isMyAddr u.uipBuf.srcipaddr then some u.uipBuf.srcipaddr else none) none
    (u.nbrCache i).ipaddr).proto

/-- The packet that waited is copied over the one in the buffer. -/
lemma outputParked_some (hb : (s.nbrCache i).packethandle = some b) :
    (s.outputParked i).uipBuf.bytes = memcpy s.uipBuf.bytes 0 (s.packetsMemb.mem b).bytes := by
  have hlen : s.uipPacketqueueBuflen i = (s.packetsMemb.mem b).queueBufLen := by
    unfold uipPacketqueueBuflen
    rw [hb]
  unfold outputParked
  rw [hb]
  dsimp only
  rw [hlen]
  by_cases hzero : (s.packetsMemb.mem b).queueBufLen = 0
  · have hnil : (s.packetsMemb.mem b).bytes = [] := by
      unfold PacketqueuePacket.bytes
      rw [hzero]
      rfl
    rw [if_neg (not_not.mpr hzero), hnil, memcpy_of_holds holds_nil]
  · rw [if_pos hzero]
    exact congrArg UipBuf.bytes (uipPacketqueueFree_uipBuf _ i)

lemma outputParked_none (hnone : (s.nbrCache i).packethandle = none) : s.outputParked i = s := by
  unfold outputParked
  rw [hnone]

/-- The state in which the packet is sent to a neighbour whose link-layer address is known. -/
lemma outputKnown_eq (s : IpStack cfg δ) (i : Fin cfg.nbrNb) : ∃ u : IpStack cfg δ,
    s.outputKnown i = (u.outputParked i).outputDone ∧ u.uipBuf = s.uipBuf ∧ u.packetsMemb = s.packetsMemb ∧
      (u.nbrCache i).packethandle = (s.nbrCache i).packethandle := by
  unfold outputKnown
  by_cases hstale : (s.nbrCache i).state = .stale
  · rw [if_pos hstale]
    exact ⟨_, rfl, rfl, rfl, by simp [tcpipOutput, setNbr]⟩
  · rw [if_neg hstale]
    exact ⟨_, rfl, rfl, rfl, by simp [tcpipOutput, setNbr]⟩

lemma outputKnown_extLen (s : IpStack cfg δ) (i : Fin cfg.nbrNb) : (s.outputKnown i).uipExtLen = 0 := by
  obtain ⟨u, hu, -⟩ := s.outputKnown_eq i
  rw [hu]
  rfl

lemma outputKnown_some (hb : (s.nbrCache i).packethandle = some b) :
    (s.outputKnown i).uipBuf.bytes = memcpy s.uipBuf.bytes 0 (s.packetsMemb.mem b).bytes := by
  obtain ⟨u, hu, hbuf, hmemb, hhandle⟩ := s.outputKnown_eq i
  rw [hu, ← hbuf, ← hmemb]
  exact outputParked_some (hhandle.trans hb)

lemma outputKnown_none (hnone : (s.nbrCache i).packethandle = none) :
    (s.outputKnown i).uipBuf.bytes = s.uipBuf.bytes := by
  obtain ⟨u, hu, hbuf, -, hhandle⟩ := s.outputKnown_eq i
  rw [hu, ← hbuf]
  exact congrArg (·.uipBuf.bytes) (outputParked_none (hhandle.trans hnone))

lemma uipDs6NbrAdd_uipBuf (s : IpStack cfg δ) (hop : IpAddr) :
    (s.uipDs6NbrAdd hop none false .incomplete).2.uipBuf = s.uipBuf := nbrAddFrom_uipBuf hop none false .incomplete 2 s

lemma nbrAddFrom_uipExtLen (s : IpStack cfg δ) (hop : IpAddr) (calls : ℕ) :
    (nbrAddFrom hop none false .incomplete calls s).2.uipExtLen = s.uipExtLen := by
  induction calls generalizing s with
  | zero => rfl
  | succ calls ih =>
    rw [nbrAddFrom]
    split
    · rfl
    · rfl
    · split
      · rw [ih]
        unfold uipDs6NbrRm uipPacketqueueFree
        split <;> rfl
      · rfl

/-- What is left when a packet is sent to a next hop: the packet, unless a solicitation is sent or another packet
waited. -/
lemma outputTo_left (h : s.outputTo hop = .ok t) (hproto : t.uipBuf.bytes 6 = 6) :
    (t.uipBuf.bytes = s.uipBuf.bytes ∧
      (s.uipDs6NbrLookup hop = none → (s.uipDs6NbrAdd hop none false .incomplete).1 = none) ∧
      ∀ b, ¬s.WaitsFor hop b) ∨
    ∃ b, s.WaitsFor hop b ∧ t.uipBuf.bytes = memcpy s.uipBuf.bytes 0 (s.packetsMemb.mem b).bytes := by
  unfold outputTo at h
  cases hlook : s.uipDs6NbrLookup hop with
  | none =>
    rw [hlook] at h
    have hwaits : ∀ b, ¬s.WaitsFor hop b := by
      rintro b ⟨i, hi, -⟩
      exact absurd (hlook.symm.trans hi) nofun
    cases hadd : s.uipDs6NbrAdd hop none false .incomplete with
    | mk i? u =>
      have hbuf := s.uipDs6NbrAdd_uipBuf hop
      rw [hadd] at h hbuf
      cases i? with
      | none =>
        cases h
        have hbytes : u.uipBuf.bytes = s.uipBuf.bytes := congrArg UipBuf.bytes hbuf
        exact .inl ⟨hbytes, fun _ => rfl, hwaits⟩
      | some i => exact absurd (hproto.symm.trans (outputNew_proto h)) (by decide)
  | some i =>
    rw [hlook] at h
    dsimp only at h
    by_cases hstate : (s.nbrCache i).state = .incomplete
    · rw [if_pos hstate] at h
      obtain ⟨u, hpark, rfl⟩ := map_eq_ok.mp h
      have hbytes : u.uipBuf.bytes = s.uipBuf.bytes := congrArg UipBuf.bytes (park_keeps hpark).1
      refine .inl ⟨hbytes, nofun, ?_⟩
      rintro b ⟨j, hj, hknown, -⟩
      obtain rfl := Option.some.inj (hlook.symm.trans hj)
      exact hknown hstate
    · rw [if_neg hstate] at h
      cases h
      cases hhandle : (s.nbrCache i).packethandle with
      | none =>
        refine .inl ⟨outputKnown_none hhandle, nofun, ?_⟩
        rintro b ⟨j, hj, -, hb⟩
        obtain rfl := Option.some.inj (hlook.symm.trans hj)
        exact absurd (hhandle.symm.trans hb) nofun
      | some b => exact .inr ⟨b, ⟨i, hlook, hstate, hhandle⟩, outputKnown_some hhandle⟩

/-- A packet that waits is sent behind the one in the buffer, which is the last thing that is done. -/
lemma outputTo_waiting (h : s.WaitsFor hop b) : ∃ t, s.outputTo hop = .ok t ∧ t.uipExtLen = 0 ∧
    t.uipBuf.bytes = memcpy s.uipBuf.bytes 0 (s.packetsMemb.mem b).bytes := by
  obtain ⟨i, hlook, hknown, hb⟩ := h
  refine ⟨s.outputKnown i, ?_, s.outputKnown_extLen i, outputKnown_some hb⟩
  unfold outputTo
  rw [hlook]
  exact if_neg hknown

/-- A packet without extension headers is sent to a neighbour, or parked or dropped, and left in the buffer. -/
lemma outputTo_leaves (hext : s.uipExtLen = 0) (hlen : s.uipBuf.len.toNat ≤ cfg.bufsize.toNat)
    (hunknown : s.uipDs6NbrLookup hop = none → (s.uipDs6NbrAdd hop none false .incomplete).1 = none)
    (hwaiting : ∀ b, ¬s.WaitsFor hop b) : ∃ t, s.outputTo hop = .ok t ∧ t.uipExtLen = 0 ∧
      t.uipBuf.bytes = s.uipBuf.bytes := by
  unfold outputTo
  cases hlook : s.uipDs6NbrLookup hop with
  | none =>
    have hnone := hunknown hlook
    have hkept : (s.uipDs6NbrAdd hop none false .incomplete).2.uipExtLen = s.uipExtLen := s.nbrAddFrom_uipExtLen hop 2
    have hbuf := s.uipDs6NbrAdd_uipBuf hop
    dsimp only
    cases hadd : s.uipDs6NbrAdd hop none false .incomplete with
    | mk i? u =>
      rw [hadd] at hnone hkept hbuf
      obtain rfl : i? = none := hnone
      have hbytes : u.uipBuf.bytes = s.uipBuf.bytes := congrArg UipBuf.bytes hbuf
      exact ⟨_, rfl, hkept.trans hext, hbytes⟩
  | some i =>
    dsimp only
    by_cases hstate : (s.nbrCache i).state = .incomplete
    · rw [if_pos hstate]
      obtain ⟨u, hpark⟩ := park_ok hlen i
      obtain ⟨hbuf, hkept⟩ := park_keeps hpark
      have hbytes : u.uipBuf.bytes = s.uipBuf.bytes := congrArg UipBuf.bytes hbuf
      exact ⟨u.setLen 0, map_eq_ok.mpr ⟨u, hpark, rfl⟩, hkept.trans hext, hbytes⟩
    · rw [if_neg hstate]
      refine ⟨_, rfl, s.outputKnown_extLen i, outputKnown_none ?_⟩
      cases hhandle : (s.nbrCache i).packethandle with
      | none => rfl
      | some b => exact absurd ⟨i, hlook, hstate, hhandle⟩ (hwaiting b)

end left

/-! ## The first half on its way -/

/-- A routing header that has its place leaves its number in the IPv6 header. -/
lemma insertRh4_proto {r : Fin cfg.srcRouteNb} {hop : IpAddr} (hplaced : s.RoutePlaced r)
    (h : s.insertRh4 r = .ok (hop, t)) : t.uipBuf.bytes 6 = 43 := by
  obtain ⟨hhops, hheaders, hspace, hindex⟩ := hplaced
  have hstart : s.rh4Start = cfg.llhLen.toNat + uipIphLen + s.uipExtLen.toNat := rfl
  have hiph : uipIphLen = 40 := rfl
  unfold insertRh4 at h
  dsimp only at h
  split at h
  · cases h
  · obtain ⟨s₁, hroom, h⟩ := bind_eq_ok.mp h
    obtain ⟨⟨pos₂, s₂⟩, hput, h⟩ := bind_eq_ok.mp h
    obtain ⟨⟨pos₃, s₃⟩, hall, h⟩ := bind_eq_ok.mp h
    cases h
    have hroute : s₂.srcRoutingTable = s.srcRoutingTable := by
      have honly : OnlyPacket s s₁ := by
        unfold makeRoom at hroom
        dsimp only at hroom
        split_ifs at hroom
        cases hroom
        exact (OnlyPacket.refl s).writeBuf _ _
      rw [show s₂ = { s with uipBuf := s₂.uipBuf, uipExtLen := s₂.uipExtLen } from (honly.writeBuf _ _).putAt hput]
    have hpos : pos₂ = UInt8.ofNat s.rh4Start + UInt8.ofNat 1 := by
      unfold putAt at hput
      split at hput
      · cases hput
        rfl
      · cases hput
    -- the rest of the header lies behind the IPv6 header
    have hplaces : ∀ w ∈ putAllPlaces pos₂ (rh4Parts cfg (s.srcRoutingTable.hops r)
        (s₂.srcRoutingTable.routes r).ipaddr), w.2 = 0 ∨
          s.rh4Start ≤ w.1 ∧ w.1 + w.2 ≤ cfg.llhLen.toNat + cfg.bufsize.toNat := by
      intro w hw
      rw [hpos, hroute] at hw
      have hin := rh4Places_inside hhops hindex w (List.mem_cons_of_mem _ hw)
      omega
    obtain ⟨pos, t, ht, -, -, hkept⟩ := putAll_ok (s := s₂.writeBuf 6 [43]) (show cfg.llhLen.toNat ≤ s.rh4Start by omega)
      hplaces
    obtain ⟨rfl, rfl⟩ : pos = pos₃ ∧ t = s₃ := Prod.mk.inj (Except.ok.inj (ht.symm.trans hall))
    rw [addRhLen_bytes _ _ (Nat.le_refl 6), hkept 6 (by omega)]
    exact (holds_writeBuf s₂ 6 [43]).1

/-- A packet that takes no source route is sent to a neighbour, or it is dealt with at once and left in the
buffer. -/
lemma tcpipIpv6Output_eq (hext : s.uipExtLen = 0) (hroute : s.srcRouteTaken = none) :
    (∃ hop, s.hopTaken = some hop ∧ s.tcpipIpv6Output = s.outputTo hop) ∨
    (s.hopTaken = none ∧ ∃ t, s.tcpipIpv6Output = .ok t ∧ t.uipExtLen = 0 ∧ t.uipBuf.bytes = s.uipBuf.bytes) := by
  unfold tcpipIpv6Output hopTaken
  dsimp only
  by_cases hzero : s.uipBuf.len = 0
  · rw [if_pos hzero, if_pos (.inl hzero)]
    exact .inr ⟨rfl, s, rfl, hext, rfl⟩
  rw [if_neg hzero]
  by_cases hdrop : s.uipBuf.len > s.node.linkMtu ∨ s.uipBuf.destipaddr.uipIsAddrUnspecified = true
  · rw [if_pos hdrop, if_pos (.inr (hdrop.imp_right .inl))]
    exact .inr ⟨rfl, _, rfl, hext, rfl⟩
  rw [if_neg hdrop]
  obtain ⟨hmtu, hunspec⟩ := not_or.mp hdrop
  by_cases hmcast : s.uipBuf.destipaddr.uipIsAddrMcast = true
  · rw [if_pos hmcast, if_pos (.inr (.inr (.inr hmcast)))]
    exact .inr ⟨rfl, _, rfl, rfl, rfl⟩
  have hnone : ¬(s.uipBuf.len = 0 ∨ s.uipBuf.len > s.node.linkMtu ∨ s.uipBuf.destipaddr.uipIsAddrUnspecified = true ∨
      s.uipBuf.destipaddr.uipIsAddrMcast = true) := by
    rintro (h | h | h | h)
    · exact hzero h
    · exact hmtu h
    · exact hunspec h
    · exact hmcast h
  rw [if_neg hmcast, if_neg hnone, nextHop_eq hroute hzero hmtu (eq_false_of_ne_true hunspec) (eq_false_of_ne_true hmcast),
    ok_bind]
  cases hhop : s.plainHop s.uipBuf.destipaddr with
  | none => exact .inr ⟨rfl, _, rfl, hext, rfl⟩
  | some hop => exact .inl ⟨hop, rfl, rfl⟩

/-- A packet that takes a source route is sent with its routing header. -/
lemma tcpipIpv6Output_routed {r : Fin cfg.srcRouteNb} (hroute : s.srcRouteTaken = some r) :
    s.tcpipIpv6Output = s.insertRh4 r >>= fun x => x.2.outputTo x.1 := by
  unfold srcRouteTaken at hroute
  dsimp only at hroute
  split_ifs at hroute with hskip
  have hzero : s.uipBuf.len ≠ 0 := fun h => hskip (.inl h)
  have hdrop : ¬(s.uipBuf.len > s.node.linkMtu ∨ s.uipBuf.destipaddr.uipIsAddrUnspecified = true) :=
    fun h => hskip (.inr (h.imp_right .inl))
  have hmcast : ¬s.uipBuf.destipaddr.uipIsAddrMcast = true := fun h => hskip (.inr (.inr (.inr (.inl h))))
  have hlink : ¬s.node.isAddrOnlink s.uipBuf.destipaddr = true := fun h => hskip (.inr (.inr (.inr (.inr h))))
  have hnext : s.nextHop = (s.insertRh4 r).map some := by
    unfold nextHop
    dsimp only
    rw [if_neg hlink, hroute]
  unfold tcpipIpv6Output
  rw [if_neg hzero, if_neg hdrop, if_neg hmcast, hnext]
  cases s.insertRh4 r with
  | error f => rfl
  | ok x => rfl

lemma WaitsFor.unique {hop : IpAddr} {b b' : Fin maxNumQueuedPackets} (h : s.WaitsFor hop b) (h' : s.WaitsFor hop b') :
    b = b' := by
  obtain ⟨i, hi, -, hb⟩ := h
  obtain ⟨j, hj, -, hb'⟩ := h'
  obtain rfl := Option.some.inj (hi.symm.trans hj)
  exact Option.some.inj (hb.symm.trans hb')

lemma restoredBy_of {orig : UipBuf} {b : Fin maxNumQueuedPackets}
    (hbytes : t.uipBuf.bytes = memcpy s.uipBuf.bytes 0 (s.packetsMemb.mem b).bytes)
    (hkeeps : KeepsNeeded tcplen orig.bytes t.uipBuf.bytes) : s.RestoredBy orig tcplen b := by
  unfold RestoredBy
  rw [← hbytes]
  exact hkeeps

lemma hopTaken_routed {hop : IpAddr} (h : s.hopTaken = some hop) : s.srcRouteTaken = none := by
  unfold hopTaken at h
  dsimp only at h
  split_ifs at h
  exact srcRouteTaken_of_plainHop h

/-- What the second half needs is in the segment as it was given. -/
lemma splitFirst_keeps (s : IpStack cfg δ) (tcplen : UInt16) :
    KeepsNeeded tcplen s.uipBuf.bytes (s.splitFirst tcplen).uipBuf.bytes := by
  intro k hk
  unfold splitFirst
  rcases hk with ⟨-, hlen, hchksum⟩ | ⟨hlow, -⟩
  · rw [fillTcpchksum_bytes _ (by omega), setSplitLen_bytes _ _ (by omega)]
  · rw [fillTcpchksum_bytes _ (by omega), setSplitLen_bytes _ _ (by omega)]

section split
variable {mss : UInt16} {appdata : ℕ}

/-- A first half that is dealt with leaves what the second half needs. -/
lemma LeavesSecond.output {orig : UipBuf} (h : s.LeavesSecond orig tcplen) (hext : s.uipExtLen = 0)
    (hroom : s.uipBuf.len.toNat ≤ cfg.bufsize.toNat) (hkeeps : KeepsNeeded tcplen orig.bytes s.uipBuf.bytes) :
    ∃ t, s.tcpipIpv6Output = .ok t ∧ t.uipExtLen = 0 ∧ KeepsNeeded tcplen orig.bytes t.uipBuf.bytes := by
  cases hroute : s.srcRouteTaken with
  | none =>
    rcases tcpipIpv6Output_eq hext hroute with ⟨hop, hhop, hout⟩ | ⟨-, t, hout, ht, hbytes⟩
    · rw [hout]
      by_cases hwaits : ∃ b, s.WaitsFor hop b
      · obtain ⟨b, hb⟩ := hwaits
        obtain ⟨t, ht, htext, hbytes⟩ := outputTo_waiting hb
        exact ⟨t, ht, htext, hbytes ▸ h.waiting hop b hhop hb⟩
      · obtain ⟨t, ht, htext, hbytes⟩ := outputTo_leaves hext hroom (h.unknown hop hhop) (not_exists.mp hwaits)
        exact ⟨t, ht, htext, hbytes ▸ hkeeps⟩
    · exact ⟨t, hout, ht, hbytes ▸ hkeeps⟩
  | some r =>
    obtain ⟨hop, u, b, hinsert, hb, hrestored⟩ := h.routed r hroute
    obtain ⟨t, ht, htext, hbytes⟩ := outputTo_waiting hb
    refine ⟨t, ?_, htext, hbytes ▸ hrestored⟩
    rw [tcpipIpv6Output_routed hroute, hinsert]
    exact ht

/-- A first half that leaves what the second half needs was sent without a solicitation, and so on. -/
lemma leavesSecond_of_output {orig : UipBuf} (hext : s.uipExtLen = 0) (horig : orig.bytes 6 = 6)
    (hplaced : ∀ r, s.srcRouteTaken = some r → s.RoutePlaced r) (hout : s.tcpipIpv6Output = .ok t)
    (hkeeps : KeepsNeeded tcplen orig.bytes t.uipBuf.bytes) : s.LeavesSecond orig tcplen := by
  have hproto : t.uipBuf.bytes 6 = 6 := (hkeeps 6 (.inl ⟨by omega, by omega, by omega⟩)).trans horig
  have hplain : ∀ hop, s.hopTaken = some hop → s.outputTo hop = .ok t := by
    intro hop hhop
    rcases tcpipIpv6Output_eq hext (hopTaken_routed hhop) with ⟨hop', hhop', hout'⟩ | ⟨hnone, -⟩
    · obtain rfl := Option.some.inj (hhop.symm.trans hhop')
      exact hout'.symm.trans hout
    · exact absurd (hhop.symm.trans hnone) nofun
  refine ⟨fun hop hhop hlook => ?_, fun hop b hhop hb => ?_, fun r hroute => ?_⟩
  · rcases outputTo_left (hplain hop hhop) hproto with ⟨-, hunknown, -⟩ | ⟨b, ⟨i, hi, -⟩, -⟩
    · exact hunknown hlook
    · exact absurd (hlook.symm.trans hi) nofun
  · rcases outputTo_left (hplain hop hhop) hproto with ⟨-, -, hnone⟩ | ⟨b', hb', hbytes⟩
    · exact absurd hb (hnone b)
    · obtain rfl := hb.unique hb'
      exact restoredBy_of hbytes hkeeps
  · rw [tcpipIpv6Output_routed hroute] at hout
    obtain ⟨⟨hop, u⟩, hinsert, hto⟩ := bind_eq_ok.mp hout
    have hnum := insertRh4_proto (hplaced r hroute) hinsert
    rcases outputTo_left hto hproto with ⟨hbytes, -⟩ | ⟨b, hb, hbytes⟩
    · rw [← hbytes] at hnum
      exact absurd (hproto.symm.trans hnum) (by decide)
    · exact ⟨hop, u, b, hinsert, hb, restoredBy_of hbytes hkeeps⟩

lemma FullSized.payload (h : s.FullSized mss appdata) : s.uipBuf.len - 60 = mss := by
  have hlen := h.len
  apply UInt16.toNat_inj.mp
  rw [UInt16.toNat_sub_of_le _ _ (by rw [UInt16.le_iff_toNat_le]; show 60 ≤ _; omega)]
  show s.uipBuf.len.toNat - 60 = _
  omega

lemma FullSized.run (h : s.FullSized mss appdata) : s.uipSplitOutput appdata mss =
    (s.splitFirst mss).tcpipIpv6Output >>= fun t => (t.splitSecond mss appdata).tcpipIpv6Output := by
  unfold uipSplitOutput
  rw [if_pos ⟨h.proto, h.len⟩, h.payload]

lemma splitFirst_extLen (s : IpStack cfg δ) (tcplen : UInt16) : (s.splitFirst tcplen).uipExtLen = s.uipExtLen := by
  unfold splitFirst fillTcpchksum
  rw [writeBuf_uipExtLen, writeBuf_uipExtLen, setSplitLen_extLen]

lemma FullSized.extLen_first (h : s.FullSized mss appdata) : (s.splitFirst mss).uipExtLen = 0 := by
  rw [splitFirst_extLen, h.extLen]

lemma FullSized.first (h : s.FullSized mss appdata) :
    s.uipBuf.CarriesPart (s.splitFirst mss).uipBuf 0 (mss.toNat / 2) := by
  have hlen := h.len
  have hlt := s.uipBuf.len.toNat_lt
  exact splitFirst_carries h.extLen (by omega)

lemma FullSized.room_first (h : s.FullSized mss appdata) :
    (s.splitFirst mss).uipBuf.len.toNat ≤ cfg.bufsize.toNat := by
  have hlen := h.len
  have hroom := h.room
  have hsize := h.first.len
  omega

lemma FullSized.splits (h : s.FullSized mss appdata) (hleaves : (s.splitFirst mss).LeavesSecond s.uipBuf mss) :
    s.SplitsInvisibly mss appdata := by
  have hlen := h.len
  have hlt := s.uipBuf.len.toNat_lt
  obtain ⟨t, ht, htext, hkeeps⟩ := hleaves.output h.extLen_first h.room_first (s.splitFirst_keeps mss)
  refine ⟨h.first, t, ht, ?_, ?_⟩
  · rw [h.run, ht, ok_bind]
  · rw [h.appdata]
    exact splitSecond_carries htext (by omega) hkeeps

lemma FullSized.leaves (h : s.FullSized mss appdata)
    (hplaced : ∀ r, (s.splitFirst mss).srcRouteTaken = some r → (s.splitFirst mss).RoutePlaced r)
    (hsplits : s.SplitsInvisibly mss appdata) : (s.splitFirst mss).LeavesSecond s.uipBuf mss := by
  obtain ⟨t, ht, -, hsecond⟩ := hsplits.second
  rw [h.appdata] at hsecond
  exact leavesSecond_of_output h.extLen_first h.proto hplaced ht (keepsNeeded_of_carries hsecond)

/-- **Splitting is invisible** if the first half leaves what the second half needs; and only then, where a routing
header that is inserted has its place. -/
theorem split_invisible (h : s.FullSized mss appdata) :
    ((s.splitFirst mss).LeavesSecond s.uipBuf mss → s.SplitsInvisibly mss appdata) ∧
      ((∀ r, (s.splitFirst mss).srcRouteTaken = some r → (s.splitFirst mss).RoutePlaced r) →
        s.SplitsInvisibly mss appdata → (s.splitFirst mss).LeavesSecond s.uipBuf mss) :=
  ⟨h.splits, h.leaves⟩

/-- A TCP segment with 100 octets of payload, to `aa00::` on the link. -/
def onlinkSegment : IpStack smallCfg Unit :=
  { smallStack 1 with uipBuf := ⟨fun k => if k = 6 then 6 else if k = 24 then 0xaa else 0, 160⟩ }

/-- The link-layer address of `aa00::` is known. -/
def knownSegment : IpStack smallCfg Unit :=
  onlinkSegment.setNbr ⟨0, Nat.zero_lt_one⟩ fun n =>
    { n with isused := true, ipaddr := .ofBytes (0xaa :: List.replicate 15 0), state := .reachable }

theorem split_invisible_known : knownSegment.SplitsInvisibly 100 60 := by
  have hlook : (knownSegment.splitFirst 100).hopTaken.bind (knownSegment.splitFirst 100).uipDs6NbrLookup =
    some ⟨0, Nat.zero_lt_one⟩ := rfl
  refine (split_invisible ⟨rfl, rfl, by decide, rfl, rfl⟩).1 ⟨fun hop hhop hnone => ?_, ?_, ?_⟩
  · rw [hhop] at hlook
    exact absurd (hnone.symm.trans hlook) nofun
  · rintro hop b - ⟨i, -, -, hb⟩
    have hnone : ((knownSegment.splitFirst 100).nbrCache i).packethandle = none := by
      obtain rfl : i = ⟨0, Nat.zero_lt_one⟩ := Fin.ext (Nat.lt_one_iff.mp i.isLt)
      rfl
    exact absurd (hnone.symm.trans hb) nofun
  · intro r hroute
    have hnone : (knownSegment.splitFirst 100).srcRouteTaken = none := rfl
    exact absurd (hnone.symm.trans hroute) nofun

/-- The link-layer address is not known: the second packet is made from a solicitation. -/
theorem split_visible : ¬onlinkSegment.SplitsInvisibly 100 60 := by
  intro h
  obtain ⟨t, ht, -, hsecond⟩ := h.second
  have hproto : (onlinkSegment.splitFirst 100).tcpipIpv6Output.map (fun t => t.uipBuf.bytes 6) = .ok 58 := rfl
  rw [ht] at hproto
  have hkept := keepsNeeded_of_carries hsecond 6 (.inl ⟨by omega, by omega, by omega⟩)
  have hsix : onlinkSegment.uipBuf.bytes 6 = 6 := rfl
  exact absurd ((Except.ok.inj hproto).symm.trans (hkept.trans hsix)) (by decide)

end split

end IpStack
end Contiki

import Contiki.Net.TcpLength
import Contiki.Net.UpperLayer
import Contiki.Sicslowpan.Packets

/-!
# Upper layers behind extension headers

`s.Shifted s' n`: in the state `s'` the packet of `s` has `n` bytes of extension headers in front of
its upper-layer header.  The three upper layers treat the two alike to a different extent.

* `Shifted.upperLayerChksum` — the checksum is the same.
* `Shifted.udpInput_eq_iff` — UDP hands on the same data; a reply is built in another place.
* `Shifted.tcpInput_eq_iff` — TCP counts the extension headers as data.
* `Shifted.echoRequestInput_packet` — an echo request has the same reply.
-/

namespace Contiki

open Sicslowpan

lemma memcpy_congr {b b' : ℕ → UInt8} {pos k : ℕ} {l : List UInt8} (h : b' k = b k) :
    memcpy b' pos l k = memcpy b pos l k := by
  unfold memcpy
  rw [h]

/-- The checksum depends on the bytes that it covers only. -/
lemma chksum_congr {b b' : ℕ → UInt8} {sum : UInt16} {pos pos' len : ℕ}
    (h : ∀ k < len, b' (pos' + k) = b (pos + k)) : chksum b' sum pos' len = chksum b sum pos len := by
  induction len using Nat.twoStepInduction generalizing sum pos pos' with
  | zero => rfl
  | one =>
    have hbyte : b' pos' = b pos := h 0 Nat.one_pos
    rw [chksum, chksum, hbyte]
  | more len ih _ =>
    have hfirst : b' pos' = b pos := h 0 (Nat.succ_pos _)
    have hsecond : b' (pos' + 1) = b (pos + 1) := h 1 (by omega)
    have hword : wordAt b' pos' = wordAt b pos := by
      rw [wordAt, wordAt, hfirst, hsecond]
    rw [chksum, chksum, hword]
    apply ih
    intro k hk
    rw [show pos' + 2 + k = pos' + (k + 2) by omega, show pos + 2 + k = pos + (k + 2) by omega]
    exact h (k + 2) (by omega)

/-- A checksum depends on the packet that the IPv6 header announces. -/
lemma UipBuf.upperLayerChksum_congr {p p' : UipBuf} (proto : UInt8)
    (h : ∀ k < uipIphLen + p.payloadLen.toNat, p'.bytes k = p.bytes k) :
    p'.upperLayerChksum uipIphLen proto = p.upperLayerChksum uipIphLen proto := by
  have hpayload : p'.payloadLen = p.payloadLen := by
    unfold payloadLen wordAt
    rw [h 4 (by unfold uipIphLen; omega), h 5 (by unfold uipIphLen; omega)]
  have hlen : ∀ q : UipBuf, q.upperLayerLen uipIphLen = q.payloadLen := by
    intro q
    unfold upperLayerLen
    rw [Nat.sub_self]
    exact UInt16.sub_zero _
  have hpseudo : ∀ sum, chksum p'.bytes sum 8 32 = chksum p.bytes sum 8 32 := fun sum =>
    chksum_congr fun k hk => h (8 + k) (by unfold uipIphLen; omega)
  have hupper : ∀ sum, chksum p'.bytes sum uipIphLen p.payloadLen.toNat =
      chksum p.bytes sum uipIphLen p.payloadLen.toNat := fun sum =>
    chksum_congr fun k hk => h (uipIphLen + k) (by omega)
  unfold upperLayerChksum
  rw [hlen, hlen, hpayload]
  dsimp only
  rw [hpseudo, hupper]

namespace HeaderState

/-- `s'` has the packet of `s` with `n` bytes of extension headers in front of its upper-layer
header. -/
structure Shifted (s s' : HeaderState) (n : ℕ) : Prop where
  extLen : s.extLen = 0
  extLen' : s'.extLen.toNat = n
  len : s'.len = s.len + UInt16.ofNat n
  payloadLen : s'.payloadLen = s.payloadLen + UInt16.ofNat n
  header : ∀ k, k < 4 ∨ 7 ≤ k ∧ k < uipIphLen → s'.bytes k = s.bytes k
  payload : ∀ k, uipIphLen ≤ k → s'.bytes (k + n) = s.bytes k

namespace Shifted
variable {s s' : HeaderState} {n : ℕ} {node : IpNode} {t : Transport} {app : App}

lemma extBuf (h : s.Shifted s' n) : s.extBuf = uipIphLen := by
  unfold HeaderState.extBuf
  rw [h.extLen]
  rfl

lemma extBuf' (h : s.Shifted s' n) : s'.extBuf = s.extBuf + n := by
  rw [h.extBuf]
  unfold HeaderState.extBuf
  rw [h.extLen']

lemma lt (h : s.Shifted s' n) : n < 256 := by
  rw [← h.extLen']
  exact s'.extLen.toNat_lt

lemma toUInt16_extLen' (h : s.Shifted s' n) : s'.extLen.toUInt16 = UInt16.ofNat n := by
  have hlt := h.lt
  apply UInt16.toNat_inj.mp
  rw [UInt8.toNat_toUInt16, h.extLen', UInt16.toNat_ofNat', Nat.mod_eq_of_lt (by omega)]

/-- A byte of the upper-layer header. -/
lemma byteAt (h : s.Shifted s' n) (k : ℕ) : s'.bytes (s'.extBuf + k) = s.bytes (s.extBuf + k) := by
  rw [h.extBuf', show s.extBuf + n + k = s.extBuf + k + n by omega]
  apply h.payload
  rw [h.extBuf]
  exact Nat.le_add_right _ _

lemma wordAt (h : s.Shifted s' n) (k : ℕ) :
    Contiki.wordAt s'.bytes (s'.extBuf + k) = Contiki.wordAt s.bytes (s.extBuf + k) := by
  unfold Contiki.wordAt
  rw [Nat.add_assoc, Nat.add_assoc, h.byteAt, h.byteAt]

lemma wordAt_zero (h : s.Shifted s' n) :
    Contiki.wordAt s'.bytes s'.extBuf = Contiki.wordAt s.bytes s.extBuf := h.wordAt 0

lemma srcipaddr (h : s.Shifted s' n) : s'.srcipaddr = s.srcipaddr := by
  unfold UipBuf.srcipaddr
  rw [copyBytes_congr fun k hk => h.header (8 + k) (.inr ⟨by omega, by unfold uipIphLen; omega⟩)]

lemma destipaddr (h : s.Shifted s' n) : s'.destipaddr = s.destipaddr := by
  unfold UipBuf.destipaddr
  rw [copyBytes_congr fun k hk => h.header (24 + k) (.inr ⟨by omega, by unfold uipIphLen; omega⟩)]

/-- The length of the upper-layer packet. -/
lemma upperLayerLen (h : s.Shifted s' n) : s'.upperLayerLen s'.extBuf = s.payloadLen := by
  unfold UipBuf.upperLayerLen
  rw [h.extBuf', h.extBuf, Nat.add_sub_cancel_left, h.payloadLen, UInt16.add_sub_cancel]

lemma upperLayerLen_base (h : s.Shifted s' n) : s.upperLayerLen s.extBuf = s.payloadLen := by
  unfold UipBuf.upperLayerLen
  rw [h.extBuf, Nat.sub_self]
  exact UInt16.sub_zero _

/-- The checksum is the same. -/
lemma upperLayerChksum (h : s.Shifted s' n) (proto : UInt8) :
    s'.upperLayerChksum s'.extBuf proto = s.upperLayerChksum s.extBuf proto := by
  have hpseudo : ∀ sum, chksum s'.bytes sum 8 32 = chksum s.bytes sum 8 32 := by
    intro sum
    apply chksum_congr
    intro k hk
    exact h.header (8 + k) (.inr ⟨by omega, by unfold uipIphLen; omega⟩)
  have hpayload : ∀ sum len, chksum s'.bytes sum s'.extBuf len = chksum s.bytes sum s.extBuf len :=
    fun sum len => chksum_congr fun k _ => h.byteAt k
  unfold UipBuf.upperLayerChksum
  rw [h.upperLayerLen, h.upperLayerLen_base]
  dsimp only
  rw [hpseudo, hpayload]

/-! ## UDP -/

lemma udpConn (h : s.Shifted s' n) : s'.udpConn t = s.udpConn t := by
  unfold HeaderState.udpConn
  rw [h.wordAt_zero, h.wordAt, h.srcipaddr]

lemma udpData (h : s.Shifted s' n) : s'.udpData = s.udpData := by
  have hlen : s'.len - 48 - s'.extLen.toUInt16 = s.len - 48 - s.extLen.toUInt16 := by
    rw [h.len, h.toUInt16_extLen', h.extLen]
    apply UInt16.toNat_inj.mp
    rw [UInt16.toNat_sub, UInt16.toNat_sub, UInt16.toNat_sub, UInt16.toNat_sub, UInt16.toNat_add]
    show (65536 - (UInt16.ofNat n).toNat + (65536 - 48 + (s.len.toNat + (UInt16.ofNat n).toNat) %
      65536) % 65536) % 65536 = (65536 - 0 + (65536 - 48 + s.len.toNat) % 65536) % 65536
    have hlt := (UInt16.ofNat n).toNat_lt
    omega
  unfold HeaderState.udpData
  dsimp only
  rw [hlen, h.extLen', h.extLen]
  apply copyBytes_congr
  intro k _
  rw [show uipIpudphLen + n + k = uipIpudphLen + k + n by omega]
  apply h.payload
  unfold uipIpudphLen uipIphLen
  omega

end Shifted

/-- The datagram is dropped, or its application sends nothing. -/
def UdpUnanswered (t : Transport) (app : App) (s : HeaderState) : Prop :=
  Contiki.wordAt s.bytes (s.extBuf + 2) = 0 ∨ ∀ i, s.udpConn t = some i → app.udpSend i s.udpData = []

namespace Shifted
variable {s s' : HeaderState} {n : ℕ} {node : IpNode} {t : Transport} {app : App}

/-- A datagram has the same outcome when nothing answers it. -/
lemma udpInput_eq_iff (h : s.Shifted s' n) (hpos : 0 < n) :
    s'.udpInput t app = s.udpInput t app ↔ s.UdpUnanswered t app := by
  have hbase : s'.extBuf ≠ s.extBuf := by
    rw [h.extBuf']
    omega
  unfold udpInput UdpUnanswered
  rw [h.wordAt, h.udpConn, h.udpData]
  by_cases hport : Contiki.wordAt s.bytes (s.extBuf + 2) = 0
  · rw [if_pos hport, if_pos hport]
    exact iff_of_true rfl (.inl hport)
  rw [if_neg hport, if_neg hport, or_iff_right hport]
  cases s.udpConn t with
  | none => exact iff_of_true rfl nofun
  | some i =>
    dsimp only
    by_cases hreply : app.udpSend i s.udpData = []
    · rw [if_pos hreply, if_pos hreply]
      refine iff_of_true rfl fun j hj => ?_
      cases hj
      exact hreply
    · rw [if_neg hreply, if_neg hreply]
      refine iff_of_false (fun heq => ?_) fun hall => hreply (hall i rfl)
      have hplaced := InputOutcome.udp.inj heq
      exact hbase (congrArg Placed.hdrAt (Option.some.inj hplaced.2.2))

/-! ## TCP -/

lemma tcpHdrAt (h : s.Shifted s' n) :
    Contiki.tcpHdrAt s'.bytes s'.extBuf = Contiki.tcpHdrAt s.bytes s.extBuf := by
  have hseqno : ∀ k, seqNoAt s'.bytes (s'.extBuf + k) = seqNoAt s.bytes (s.extBuf + k) := by
    intro k
    unfold seqNoAt
    rw [Nat.add_assoc, Nat.add_assoc, Nat.add_assoc, Nat.add_assoc, Nat.add_assoc, Nat.add_assoc,
      h.byteAt, h.byteAt, h.byteAt, h.byteAt]
  unfold Contiki.tcpHdrAt
  rw [hseqno, hseqno, h.byteAt, h.byteAt, h.wordAt, h.wordAt]

lemma tcpConn (h : s.Shifted s' n) : s'.tcpConn t = s.tcpConn t := by
  unfold HeaderState.tcpConn
  rw [h.wordAt_zero, h.wordAt, h.srcipaddr]

end Shifted

/-! ### Options -/

/-- The options of a TCP header: each has its length, up to the end of the header or of the list. -/
inductive TcpOptions : List UInt8 → Prop
  | nil : TcpOptions []
  | eol (l : List UInt8) : TcpOptions (0 :: l)
  | nop {l : List UInt8} (h : TcpOptions l) : TcpOptions (1 :: l)
  | option {l : List UInt8} (kind len : UInt8) (data : List UInt8) (hkind : 1 < kind)
      (hlen : data.length + 2 = len.toNat) (h : TcpOptions l) :
      TcpOptions (kind :: len :: (data ++ l))

end HeaderState

namespace UipConn
open HeaderState

/-- The loop over the options ends. -/
lemma parseMss_ne_none {optdata : ℕ → UInt8} {limit fuel : ℕ} {c : UInt8} {l : List UInt8}
    (h : TcpOptions l) (hl : Holds optdata c.toNat l) (hend : c.toNat + l.length = limit)
    (hlimit : limit < 256) (hfuel : l.length < fuel) : parseMss optdata limit fuel c ≠ none := by
  induction h generalizing c fuel with
  | nil =>
    obtain ⟨fuel, rfl⟩ : ∃ n, fuel = n + 1 := ⟨fuel - 1, by omega⟩
    rw [List.length_nil, Nat.add_zero] at hend
    rw [parseMss, if_neg (by omega)]
    exact Option.some_ne_none _
  | eol l =>
    obtain ⟨fuel, rfl⟩ : ∃ n, fuel = n + 1 := ⟨fuel - 1, by omega⟩
    rw [List.length_cons] at hend
    rw [parseMss, if_pos (by omega)]
    dsimp only
    rw [if_pos hl.1]
    exact Option.some_ne_none _
  | nop h ih =>
    obtain ⟨fuel, rfl⟩ : ∃ n, fuel = n + 1 := ⟨fuel - 1, by omega⟩
    rw [List.length_cons] at hend hfuel
    have hnext : (c + 1).toNat = c.toNat + 1 := by
      rw [UInt8.toNat_add]
      exact Nat.mod_eq_of_lt (by show c.toNat + 1 < 256; omega)
    rw [parseMss, if_pos (by omega)]
    dsimp only
    rw [hl.1, if_neg (by decide), if_pos rfl]
    apply ih
    · rw [hnext]
      exact hl.2
    · omega
    · omega
  | option kind len data hkind hlen h ih =>
    obtain ⟨fuel, rfl⟩ : ∃ n, fuel = n + 1 := ⟨fuel - 1, by omega⟩
    rw [List.length_cons, List.length_cons, List.length_append] at hend hfuel
    obtain ⟨htype, hoptlen, hrest⟩ := hl
    have hnext : (c + len).toNat = c.toNat + len.toNat := by
      rw [UInt8.toNat_add]
      exact Nat.mod_eq_of_lt (by show c.toNat + len.toNat < 256; omega)
    have hzero : len ≠ 0 := by
      rintro rfl
      exact absurd hlen (Nat.succ_ne_zero _)
    rw [parseMss, if_pos (by omega)]
    dsimp only
    rw [htype, hoptlen, if_neg (by rintro rfl; exact absurd hkind (by decide)),
      if_neg (by rintro rfl; exact absurd hkind (by decide))]
    split_ifs
    · exact Option.some_ne_none _
    · apply ih
      · rw [hnext, ← hlen, show c.toNat + (data.length + 2) = c.toNat + 1 + 1 + data.length by omega]
        exact (holds_append.mp hrest).2
      · omega
      · omega

variable {cfg : TcpConfig} {conn : UipConn} {hdr : TcpHdr} {calls : List AppCall}
  {appdata : ℕ → UInt8}

lemma announceMss_ne_none
    (h : parseMss appdata (((hdr.tcpoffset >>> 4).toNat - 5) * 4) 257 0 ≠ none) :
    conn.announceMss cfg hdr appdata ≠ none := by
  unfold announceMss
  rw [Ne, Option.map_eq_none_iff]
  exact h

/-- A segment whose options can be gone through has a result. -/
lemma uipSegment_ne_none (uipLen : UInt16)
    (h : parseMss appdata (((hdr.tcpoffset >>> 4).toNat - 5) * 4) 257 0 ≠ none) :
    conn.uipSegment cfg hdr appdata uipLen calls ≠ none := by
  have hstate : ∀ (conn : UipConn) acked len,
      conn.inState cfg hdr acked appdata len calls ≠ none := by
    intro conn acked len
    unfold inState
    split
    case h_2 =>
      unfold inSynSent
      split_ifs
      · rw [Ne, Option.map_eq_none_iff]
        exact announceMss_ne_none h
      · exact Option.some_ne_none _
    all_goals exact Option.some_ne_none _
  unfold uipSegment
  dsimp only
  split_ifs
  · exact Option.some_ne_none _
  · exact Option.some_ne_none _
  · exact Option.some_ne_none _
  · exact hstate _ _ _
  · exact hstate _ _ _

lemma foundListen_ne_none (iss : SeqNo)
    (h : parseMss appdata (((hdr.tcpoffset >>> 4).toNat - 5) * 4) 257 0 ≠ none) :
    conn.foundListen cfg iss hdr appdata ≠ none := by
  unfold foundListen
  rw [Ne, Option.map_eq_none_iff]
  exact announceMss_ne_none h

/-- A new connection is answered. -/
lemma foundListen_sent {iss : SeqNo} {res : TcpResult}
    (h : conn.foundListen cfg iss hdr appdata = some res) : res.sent ≠ none := by
  obtain ⟨conn', -, rfl⟩ := Option.map_eq_some_iff.mp h
  exact Option.some_ne_none _

/-- The length of the data, in natural numbers. -/
lemma toNat_dataLen {uipLen : UInt16}
    (h : uipIphLen + (hdr.tcpoffset >>> 4).toNat * 4 ≤ uipLen.toNat) :
    (dataLen hdr uipLen).toNat = uipLen.toNat - (uipIphLen + (hdr.tcpoffset >>> 4).toNat * 4) := by
  have hlt := uipLen.toNat_lt
  have hnibble : (hdr.tcpoffset >>> 4).toNat < 16 := by
    rw [UInt8.toNat_shiftRight, Nat.shiftRight_eq_div_pow]
    have hoffset := hdr.tcpoffset.toNat_lt
    show hdr.tcpoffset.toNat / 16 < 16
    omega
  have hoctets : ((hdr.tcpoffset >>> 4) <<< 2).toNat = (hdr.tcpoffset >>> 4).toNat * 4 := by
    rw [UInt8.toNat_shiftLeft, Nat.shiftLeft_eq]
    exact Nat.mod_eq_of_lt (by show (hdr.tcpoffset >>> 4).toNat * 4 < 256; omega)
  unfold dataLen uipIphLen at *
  rw [UInt16.toNat_sub, UInt16.toNat_sub, UInt8.toNat_toUInt16, hoctets]
  show (65536 - 40 + (65536 - (hdr.tcpoffset >>> 4).toNat * 4 + uipLen.toNat) % 65536) % 65536 = _
  omega

end UipConn

namespace HeaderState

/-- The TCP header fits into the packet, with well-formed options. -/
structure TcpHdrFits (s : HeaderState) : Prop where
  le : uipIphLen + ((tcpHdrAt s.bytes s.extBuf).tcpoffset >>> 4).toNat * 4 ≤ s.len.toNat
  options : TcpOptions (copyBytes s.bytes (s.extBuf + 20)
    (((tcpHdrAt s.bytes s.extBuf).tcpoffset >>> 4).toNat * 4 - 20))

/-- The loop over the options ends: they are behind the TCP header when there are no extension
headers. -/
lemma TcpHdrFits.parse {s : HeaderState} (h : s.TcpHdrFits) (hbase : s.extBuf = uipIphLen) :
    UipConn.parseMss (fun k => s.bytes (uipIptcphLen + k))
      ((((tcpHdrAt s.bytes s.extBuf).tcpoffset >>> 4).toNat - 5) * 4) 257 0 ≠ none := by
  have hnibble : ((tcpHdrAt s.bytes s.extBuf).tcpoffset >>> 4).toNat < 16 := by
    rw [UInt8.toNat_shiftRight, Nat.shiftRight_eq_div_pow]
    have hoffset := (tcpHdrAt s.bytes s.extBuf).tcpoffset.toNat_lt
    show (tcpHdrAt s.bytes s.extBuf).tcpoffset.toNat / 16 < 16
    omega
  have hlength := length_copyBytes s.bytes (s.extBuf + 20)
    (((tcpHdrAt s.bytes s.extBuf).tcpoffset >>> 4).toNat * 4 - 20)
  apply UipConn.parseMss_ne_none h.options
  · apply holds_of_get
    intro k hk
    have hbyte := (holds_copyBytes s.bytes (s.extBuf + 20) _).get k hk
    rw [← hbyte, hbase]
    show s.bytes (uipIptcphLen + (0 + k)) = s.bytes (uipIptcphLen + k)
    rw [Nat.zero_add]
  · show 0 + _ = _
    omega
  · omega
  · omega

/-- The segment is dropped; or it is for a connection to which its length does not count. -/
def TcpUnanswered (t : Transport) (s : HeaderState) : Prop :=
  let hdr := tcpHdrAt s.bytes s.extBuf
  let destport := wordAt s.bytes (s.extBuf + 2)
  (destport = 0 ∨ wordAt s.bytes s.extBuf = 0) ∨
    match s.tcpConn t with
    | some i => ∀ e, t.tcpConns[i]? = some e → e.conn.LengthBlind hdr
    | none =>
      if hdr.flags = { syn := true } then
        destport ∈ t.listenPorts ∧ freeConn t.tcpConns 0 none = none
      else hdr.flags.rst = true

lemma freeConn_lt {conns : List TcpEndpoint} {i j : ℕ} {best : Option (ℕ × UInt8)}
    (hbest : ∀ b ∈ best, b.1 < i) (h : freeConn conns i best = some j) : j < i + conns.length := by
  induction conns generalizing i best with
  | nil =>
    obtain ⟨b, hb, rfl⟩ := Option.map_eq_some_iff.mp h
    exact hbest b hb
  | cons e rest ih =>
    rw [List.length_cons]
    unfold freeConn at h
    split_ifs at h
    · cases h
      omega
    · have hlt := ih (by rintro b ⟨⟩; exact Nat.lt_succ_self i) h
      omega
    · have hlt := ih (fun b hb => Nat.lt_succ_of_lt (hbest b hb)) h
      omega

lemma tcpOutcome_eq_iff {s s' : HeaderState} (hbase : s'.extBuf ≠ s.extBuf) {i : ℕ} {e : Endpoint}
    {res : TcpResult} {o' : Option TcpResult} :
    s'.tcpOutcome i e o' = s.tcpOutcome i e (some res) ↔
      ∃ res', o' = some res' ∧ res'.conn = res.conn ∧ res'.event = res.event ∧ res.sent = none ∧
        res'.sent = none := by
  constructor
  · intro h
    cases o' with
    | none => cases h
    | some res' =>
      obtain ⟨-, hconn, hevent, hreply⟩ := InputOutcome.tcp.inj h
      refine ⟨res', rfl, congrArg TcpEndpoint.conn hconn, hevent, ?_⟩
      cases hsent : res.sent with
      | none =>
        rw [hsent] at hreply
        exact ⟨rfl, Option.map_eq_none_iff.mp hreply⟩
      | some sent =>
        exfalso
        rw [hsent] at hreply
        obtain ⟨sent', -, hplaced⟩ := Option.map_eq_some_iff.mp hreply
        exact hbase (congrArg Placed.hdrAt hplaced)
  · rintro ⟨res', rfl, hconn, hevent, hsent, hsent'⟩
    unfold tcpOutcome
    dsimp only
    rw [hconn, hevent, hsent, hsent']
    rfl

namespace Shifted
variable {s s' : HeaderState} {n : ℕ} {t : Transport} {app : App}

/-- A segment has the same outcome when its length does not count. -/
lemma tcpInput_eq_iff (h : s.Shifted s' n) (hpos : 0 < n) (hlen : s.len.toNat + n < 65536)
    (hfits : s.TcpHdrFits) : s'.tcpInput t app = s.tcpInput t app ↔ s.TcpUnanswered t := by
  have hbase : s'.extBuf ≠ s.extBuf := by
    rw [h.extBuf']
    omega
  have hlen' : s'.len.toNat = s.len.toNat + n := by
    rw [h.len, UInt16.toNat_add, UInt16.toNat_ofNat', Nat.mod_eq_of_lt (a := n) (by omega)]
    exact Nat.mod_eq_of_lt hlen
  have hparse := hfits.parse h.extBuf
  have hfit := hfits.le
  have hdata := UipConn.toNat_dataLen hfit
  have hdata' := @UipConn.toNat_dataLen (Contiki.tcpHdrAt s.bytes s.extBuf) s'.len
    (by omega)
  unfold tcpInput TcpUnanswered
  dsimp only
  rw [h.wordAt_zero, h.wordAt, h.tcpConn, h.tcpHdrAt, h.srcipaddr]
  generalize Contiki.tcpHdrAt s.bytes s.extBuf = hdr at *
  by_cases hport : Contiki.wordAt s.bytes (s.extBuf + 2) = 0 ∨ Contiki.wordAt s.bytes s.extBuf = 0
  · rw [if_pos hport, if_pos hport]
    exact iff_of_true rfl (.inl hport)
  rw [if_neg hport, if_neg hport, or_iff_right hport]
  have hreset : s'.resetInput hdr = s.resetInput hdr ↔ hdr.flags.rst = true := by
    unfold resetInput
    split_ifs with hrst
    · exact iff_of_true rfl hrst
    · refine iff_of_false (fun heq => ?_) hrst
      exact hbase (congrArg Placed.hdrAt (InputOutcome.reset.inj heq))
  cases hconn : s.tcpConn t with
  | some i =>
    dsimp only
    cases hget : t.tcpConns[i]? with
    | none => exact iff_of_true rfl nofun
    | some e =>
      dsimp only
      obtain ⟨res, hres⟩ := Option.ne_none_iff_exists'.mp
        (UipConn.uipSegment_ne_none s.len
          hparse)
      rw [hres, tcpOutcome_eq_iff hbase]
      constructor
      · rintro ⟨res', hres', hsame, hevent, hsent, hsent'⟩ e' he'
        cases he'
        apply UipConn.lengthBlind_of_same _ _ hres hres'
        · exact ⟨hsent, hsent', congrArg UipConn.rcvNxt hsame, hevent⟩
        · intro heq
          rw [heq] at hdata'
          omega
        · show 0 < (UipConn.dataLen hdr s'.len).toNat
          omega
      · intro hblind
        obtain ⟨res₀, hsent, hall⟩ := (hblind e rfl).uipSegment
        rw [hall] at hres
        cases hres
        exact ⟨res, hall _ _, rfl, rfl, hsent, hsent⟩
  | none =>
    dsimp only
    by_cases hsyn : hdr.flags = { syn := true }
    · rw [if_neg (not_not.mpr hsyn), if_neg (not_not.mpr hsyn), if_pos hsyn]
      by_cases hlisten : Contiki.wordAt s.bytes (s.extBuf + 2) ∈ t.listenPorts
      · rw [if_pos hlisten, if_pos hlisten, and_iff_right hlisten]
        cases hfree : freeConn t.tcpConns 0 none with
        | none => exact iff_of_true rfl rfl
        | some i =>
          have hi := freeConn_lt (fun b hb => absurd hb (Option.not_mem_none b)) hfree
          rw [Nat.zero_add] at hi
          dsimp only
          rw [List.getElem?_eq_getElem hi]
          dsimp only
          refine iff_of_false ?_ nofun
          obtain ⟨conn, hannounce⟩ := Option.ne_none_iff_exists'.mp
            (UipConn.foundListen_ne_none t.iss
              hparse)
          rw [hannounce, tcpOutcome_eq_iff hbase]
          rintro ⟨res', -, -, -, hsent, -⟩
          exact UipConn.foundListen_sent hannounce hsent
      · rw [if_neg hlisten, if_neg hlisten, hreset]
        refine iff_of_false (fun hrst => ?_) fun hboth => hlisten hboth.1
        rw [hsyn] at hrst
        cases hrst
    · rw [if_pos hsyn, if_pos hsyn, if_neg hsyn]
      exact hreset

end Shifted

/-! ## Echo requests -/

section
variable {s s' : HeaderState} {n : ℕ} {node : IpNode}

/-- The addresses of an echo reply are written into the IPv6 header. -/
lemma echoAddresses_payload (s : HeaderState) (node : IpNode) {k : ℕ} (hk : uipIphLen ≤ k) :
    s.echoAddresses node k = s.bytes k := by
  have hlength : ∀ a b : IpAddr, (a.u8 ++ b.u8).length = 32 := by
    intro a b
    rw [List.length_append, a.length_u8, b.length_u8]
  have hlow : memcpy s.bytes 7 [node.curHopLimit] k = s.bytes k :=
    memcpy_of_notMem (.inr (by unfold uipIphLen at hk; show 8 ≤ k; omega))
  unfold uipIphLen at hk
  unfold echoAddresses
  split_ifs
  · rw [memcpy_of_notMem (.inr (by rw [hlength]; omega)), hlow]
  · rw [memcpy_of_notMem (.inr (by rw [hlength]; omega)), hlow]

/-- The fields in front of the hop limit stay. -/
lemma echoAddresses_low (s : HeaderState) (node : IpNode) {k : ℕ} (hk : k < 7) :
    s.echoAddresses node k = s.bytes k := by
  have hlow : memcpy s.bytes 7 [node.curHopLimit] k = s.bytes k := memcpy_of_notMem (.inl hk)
  unfold echoAddresses
  split_ifs
  · rw [memcpy_of_notMem (.inl (by omega)), hlow]
  · rw [memcpy_of_notMem (.inl (by omega)), hlow]

namespace Shifted

lemma echoAddresses (h : s.Shifted s' n) {k : ℕ} (hk : k < 4 ∨ 7 ≤ k ∧ k < uipIphLen) :
    s'.echoAddresses node k = s.echoAddresses node k := by
  unfold HeaderState.echoAddresses
  rw [h.srcipaddr, h.destipaddr]
  split_ifs
  · exact memcpy_congr (memcpy_congr (h.header k hk))
  · exact memcpy_congr (memcpy_congr (h.header k hk))

/-- Without its extension headers, an echo request is the one that had none. -/
lemma echoMove (h : s.Shifted s' n) (hpos : 0 < n) (hproto : s.bytes 6 = 58)
    (hlen : s.len = s.payloadLen + 40) (hfits : s.payloadLen.toNat + 40 < 65536) :
    (s'.echoMove (s'.echoAddresses node)).len = s.len ∧
      ∀ k < s.len.toNat, k < uipIphLen ∨ uipIphLen + 4 ≤ k →
        (s'.echoMove (s'.echoAddresses node)).bytes k = s.echoAddresses node k := by
  have hext : s'.extLen > 0 := by
    show 0 < s'.extLen.toNat
    rw [h.extLen']
    exact hpos
  have hlen' : s'.len - s'.extLen.toUInt16 = s.len := by
    rw [h.len, h.toUInt16_extLen', UInt16.add_sub_cancel]
  have hoctets : s.len - 40 = s.payloadLen := by
    rw [hlen, UInt16.add_sub_cancel]
  have hcount : (s.len - 40 - 4).toNat = (65536 - 4 + s.payloadLen.toNat) % 65536 := by
    rw [hoctets, UInt16.toNat_sub]
    rfl
  have hsize : s.len.toNat = s.payloadLen.toNat + 40 := by
    rw [hlen, UInt16.toNat_add]
    exact Nat.mod_eq_of_lt hfits
  unfold HeaderState.echoMove
  rw [if_pos hext, hlen']
  dsimp only
  rw [hoctets] at hcount ⊢
  refine ⟨rfl, fun k hk hplace => ?_⟩
  rw [h.extBuf', h.extBuf, h.extLen']
  have hdest : uipIphLen + n + 4 - n = 44 := by
    unfold uipIphLen
    omega
  rw [hdest]
  unfold uipIphLen at hplace
  rcases hplace with hlow | hhigh
  · -- the IPv6 header
    rw [memcpy_of_notMem (.inl (by omega))]
    by_cases hword : 4 ≤ k ∧ k < 6
    · have hbytes := holds_memcpy (memcpy (s'.echoAddresses node) 6 [58]) 4 (wordBytes s.payloadLen)
      rw [UipBuf.payloadLen, wordBytes_wordAt] at hbytes ⊢
      obtain ⟨hfour, hfive, -⟩ := hbytes
      have hold : s.echoAddresses node k = s.bytes k := echoAddresses_low s node (by omega)
      rw [hold]
      obtain rfl | rfl : k = 4 ∨ k = 5 := by omega
      · exact hfour
      · exact hfive
    rw [memcpy_of_notMem (by show k < 4 ∨ 4 + 2 ≤ k; omega)]
    by_cases hsix : k = 6
    · rw [hsix, echoAddresses_low s node (by decide), hproto]
      exact (holds_memcpy (s'.echoAddresses node) 6 [58]).1
    · rw [memcpy_of_notMem (by show k < 6 ∨ 6 + 1 ≤ k; omega)]
      exact h.echoAddresses (by unfold uipIphLen; omega)
  · -- the data of the request is moved
    obtain ⟨j, rfl⟩ : ∃ j, k = 44 + j := ⟨k - 44, by omega⟩
    have hj : j < (s.payloadLen - 4).toNat := by omega
    have hsource : memcpy (memcpy (s'.echoAddresses node) 6 [58]) 4 (wordBytes s.payloadLen)
        (uipIphLen + n + 4 + j) = s.bytes (44 + j) := by
      rw [memcpy_of_notMem (.inr ?_), memcpy_of_notMem (.inr ?_), echoAddresses_payload _ _ ?_,
        show uipIphLen + n + 4 + j = 44 + j + n by unfold uipIphLen; omega]
      · exact h.payload _ (by unfold uipIphLen; omega)
      · show uipIphLen ≤ uipIphLen + n + 4 + j
        omega
      · show 6 + 1 ≤ uipIphLen + n + 4 + j
        omega
      · show 4 + 2 ≤ uipIphLen + n + 4 + j
        omega
    rw [(holds_memcpy _ 44 _).get j (by rw [length_copyBytes]; exact hj),
      ← (holds_copyBytes _ _ _).get j (by rw [length_copyBytes]; exact hj), hsource,
      echoAddresses_payload _ _ (by unfold uipIphLen; omega)]

/-- The reply to an echo request is the same. -/
lemma echoRequestInput_packet (h : s.Shifted s' n) (hpos : 0 < n) (hproto : s.bytes 6 = 58)
    (hlen : s.len = s.payloadLen + 40) (hfits : s.payloadLen.toNat + 40 < 65536) :
    (s'.echoRequestInput node).packet = (s.echoRequestInput node).packet := by
  obtain ⟨hlen', hbytes⟩ := h.echoMove hpos hproto hlen hfits
  have hsize : s.len.toNat = s.payloadLen.toNat + 40 := by
    rw [hlen, UInt16.toNat_add]
    exact Nat.mod_eq_of_lt hfits
  have hmove : s.echoMove (s.echoAddresses node) = ⟨s.echoAddresses node, s.len⟩ := by
    unfold HeaderState.echoMove
    rw [h.extLen, if_neg (by decide)]
  unfold HeaderState.echoRequestInput
  rw [hmove]
  generalize s'.echoMove (s'.echoAddresses node) = p' at *
  dsimp only
  -- the type, the code and the checksum
  have hreply : ∀ k < s.len.toNat, memcpy p'.bytes uipIphLen [129, 0, 0, 0] k =
      memcpy (s.echoAddresses node) uipIphLen [129, 0, 0, 0] k := by
    intro k hk
    by_cases hplace : k < uipIphLen ∨ uipIphLen + 4 ≤ k
    · exact memcpy_congr (hbytes k hk hplace)
    · obtain ⟨j, rfl⟩ : ∃ j, k = uipIphLen + j := ⟨k - uipIphLen, by omega⟩
      have hj : j < [(129 : UInt8), 0, 0, 0].length := by
        show j < 4
        omega
      rw [(holds_memcpy _ uipIphLen _).get j hj, (holds_memcpy _ uipIphLen _).get j hj]
  have hpayload : (UipBuf.payloadLen
      ⟨memcpy (s.echoAddresses node) uipIphLen [129, 0, 0, 0], s.len⟩) = s.payloadLen := by
    unfold UipBuf.payloadLen Contiki.wordAt
    dsimp only
    rw [memcpy_of_notMem (.inl (by decide)), memcpy_of_notMem (.inl (by decide)),
      echoAddresses_low s node (by decide), echoAddresses_low s node (by decide)]
  have hchksum := @UipBuf.upperLayerChksum_congr
    ⟨memcpy (s.echoAddresses node) uipIphLen [129, 0, 0, 0], s.len⟩
    ⟨memcpy p'.bytes uipIphLen [129, 0, 0, 0], p'.len⟩ 58 (by
      rw [hpayload, Nat.add_comm]
      exact fun k hk => hreply k (by rw [hsize]; exact hk))
  rw [hchksum]
  unfold UipBuf.packet
  dsimp only
  rw [hlen']
  apply copyBytes_congr
  intro k hk
  rw [Nat.zero_add]
  exact memcpy_congr (hreply k hk)

end Shifted
end

end HeaderState

end Contiki

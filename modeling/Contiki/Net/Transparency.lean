import Contiki.Net.ExtHeaders
import Contiki.Net.Shifted

/-!
# Packets with and without extension headers

Extension headers that a node has to accept are put between the IPv6 header of a packet and its
payload.  An echo request is answered as before, and a UDP datagram that nothing answers is handed
on as before.  The other upper layers take the extension headers for a part of the packet: TCP does
not subtract their length from `uip_len` and looks for the data and the options behind a TCP header
without extension headers; replies of UDP and TCP leave the extension headers where they are.

* `process_eq_iff` — what a packet leads to, and what it leads to with extension headers.
* `headers_transparent` — the result, for all lengths of the headers.
-/

namespace Contiki

/-! ## Packets -/

/-- Extension headers are put in front of the payload. -/
def UipBuf.insertHeaders (p : UipBuf) (hdrs : List ExtHdr) : UipBuf where
  bytes k :=
    if k < uipIphLen then
      memcpy (memcpy p.bytes 4 (wordBytes (p.payloadLen + UInt16.ofNat (chainSize hdrs)))) 6
        [firstProto (p.bytes 6) hdrs] k
    else ((chainOctets (p.bytes 6) hdrs)[k - uipIphLen]?).getD (p.bytes (k - chainSize hdrs))
  len := p.len + UInt16.ofNat (chainSize hdrs)

/-- A valid TCP segment, UDP datagram or echo request behind the headers. -/
def HeaderState.UpperValid (s : HeaderState) : Prop :=
  s.bytes s.nextHdr = 6 ∧ s.upperLayerChksum s.extBuf 6 = 0xffff ∧ s.TcpHdrFits ∨
  s.bytes s.nextHdr = 17 ∧ (wordAt s.bytes (s.extBuf + 6) = 0 ∨
    s.upperLayerChksum s.extBuf 17 = 0xffff) ∧ 8 ≤ s.payloadLen.toNat ∨
  s.bytes s.nextHdr = 58 ∧ s.upperLayerChksum s.extBuf 58 = 0xffff ∧ 8 ≤ s.payloadLen.toNat ∧
    s.bytes s.extBuf = 128

/-- A packet for this node, which is received as long as its header says, with a valid payload and
without extension headers.  The loop over the next header fields begins in the state `s`. -/
structure UpperPacket (node : IpNode) (p : UipBuf) (s : HeaderState) : Prop where
  input : ipInput node p = .ok s
  received : uipIphLen + p.payloadLen.toNat ≤ p.len.toNat
  valid : s.UpperValid

/-- What the packet leads to does not depend on where its upper-layer header is, and on how long the
packet is: an echo request, a datagram that nothing answers, or a segment whose length does not
count. -/
def HeaderState.Unanswered (t : Transport) (app : App) (s : HeaderState) : Prop :=
  (s.bytes s.nextHdr = 6 → s.TcpUnanswered t) ∧ (s.bytes s.nextHdr = 17 → s.UdpUnanswered t app)

/-! ## Headers that are put in -/

lemma AdmissibleChain.length_le {hdrs : List ExtHdr} (h : AdmissibleChain hdrs) :
    hdrs.length ≤ 4 := by
  have hcount : hdrs.length = hdrs.countP (fun hdr => hdr.proto = 0) +
      hdrs.countP (fun hdr => hdr.proto = 60) + hdrs.countP (fun hdr => hdr.proto = 43) := by
    have hall := h.admissible
    clear h
    induction hdrs with
    | nil => rfl
    | cons hdr hdrs ih =>
      have htail := ih fun hdr hmem => hall hdr (List.mem_cons_of_mem _ hmem)
      rw [List.length_cons, List.countP_cons, List.countP_cons, List.countP_cons]
      rcases hall hdr List.mem_cons_self with ⟨hzero | hsixty, -⟩ | ⟨hroute, -⟩
      · rw [hzero, if_pos (by decide), if_neg (by decide), if_neg (by decide)]
        omega
      · rw [hsixty, if_neg (by decide), if_pos (by decide), if_neg (by decide)]
        omega
      · rw [hroute, if_neg (by decide), if_neg (by decide), if_pos (by decide)]
        omega
  have hhbho : hdrs.countP (fun hdr => hdr.proto = 0) + 0 ≤ 1 := h.admits.hbho
  have hdesto : hdrs.countP (fun hdr => hdr.proto = 60) + 0 + 0 ≤ 2 := h.admits.desto
  have hrouting : hdrs.countP (fun hdr => hdr.proto = 43) + 0 ≤ 1 := h.admits.routing
  omega

namespace UipBuf
variable (p : UipBuf) (hdrs : List ExtHdr)

lemma insertHeaders_nil : p.insertHeaders [] = p := by
  have hword : wordBytes (p.payloadLen + UInt16.ofNat (chainSize [])) = [p.bytes 4, p.bytes 5] := by
    have hzero : p.payloadLen + UInt16.ofNat (chainSize []) = wordAt p.bytes 4 := UInt16.add_zero _
    rw [hzero, Sicslowpan.wordBytes_wordAt]
  have hlen : p.len + UInt16.ofNat (chainSize []) = p.len := UInt16.add_zero _
  have hfields : memcpy (memcpy p.bytes 4 [p.bytes 4, p.bytes 5]) 6 [p.bytes 6] = p.bytes := by
    have hlength : Holds p.bytes 4 [p.bytes 4, p.bytes 5] := ⟨rfl, rfl, trivial⟩
    have hproto : Holds p.bytes 6 [p.bytes 6] := ⟨rfl, trivial⟩
    rw [memcpy_of_holds hlength, memcpy_of_holds hproto]
  unfold insertHeaders
  rw [hword, hlen]
  show UipBuf.mk (fun k => if k < uipIphLen then
    memcpy (memcpy p.bytes 4 [p.bytes 4, p.bytes 5]) 6 [p.bytes 6] k else p.bytes k) p.len = p
  rw [hfields]
  congr 1
  funext k
  exact ite_self _

/-- The other fields of the IPv6 header stay. -/
lemma insertHeaders_header {k : ℕ} (hk : k < 4 ∨ 7 ≤ k ∧ k < uipIphLen) :
    (p.insertHeaders hdrs).bytes k = p.bytes k := by
  show (if k < uipIphLen then _ else _) = _
  unfold uipIphLen at *
  rw [if_pos (by omega), memcpy_of_notMem (by show k < 6 ∨ 6 + 1 ≤ k; omega),
    memcpy_of_notMem (by show k < 4 ∨ 4 + 2 ≤ k; omega)]

lemma insertHeaders_payloadLen : (p.insertHeaders hdrs).payloadLen =
    p.payloadLen + UInt16.ofNat (chainSize hdrs) := by
  have hword := holds_memcpy p.bytes 4 (wordBytes (p.payloadLen + UInt16.ofNat (chainSize hdrs)))
  have hkept := @Holds.memcpy _ _ _ _ [firstProto (p.bytes 6) hdrs] _ hword (.inl (Nat.le_refl 6))
  apply Sicslowpan.wordAt_of_holds
  exact ⟨hkept.1, hkept.2.1, trivial⟩

lemma insertHeaders_proto : (p.insertHeaders hdrs).bytes 6 = firstProto (p.bytes 6) hdrs := by
  have hproto := holds_memcpy
    (memcpy p.bytes 4 (wordBytes (p.payloadLen + UInt16.ofNat (chainSize hdrs)))) 6
    [firstProto (p.bytes 6) hdrs]
  exact hproto.1

/-- The chain of headers stands behind the IPv6 header. -/
lemma insertHeaders_chain :
    Holds (p.insertHeaders hdrs).bytes uipIphLen (chainOctets (p.bytes 6) hdrs) := by
  apply holds_of_get
  intro k hk
  show (if uipIphLen + k < uipIphLen then _ else _) = _
  rw [if_neg (by omega), Nat.add_sub_cancel_left, List.getElem?_eq_getElem hk, Option.getD_some]

/-- The payload stands behind the headers. -/
lemma insertHeaders_payload {k : ℕ} (hk : uipIphLen ≤ k) :
    (p.insertHeaders hdrs).bytes (k + chainSize hdrs) = p.bytes k := by
  show (if k + chainSize hdrs < uipIphLen then _ else _) = _
  rw [if_neg (by omega), List.getElem?_eq_none (by rw [length_chainOctets]; omega),
    Option.getD_none, Nat.add_sub_cancel]

end UipBuf

variable {node : IpNode} {t : Transport} {app : App} {p : UipBuf} {s : HeaderState}
  {hdrs : List ExtHdr}

lemma ipInput_eq_ok (h : ipInput node p = .ok s) :
    p.payloadLen ≤ p.len ∧
      s = { bytes := p.bytes, len := p.payloadLen + 40, nextHdr := 6, extLen := 0, bitmap := {},
            chainEnd := uipIphLen } := by
  unfold ipInput at h
  dsimp only at h
  split_ifs at h with hvtc hlen hsrc hdest
  cases h
  exact ⟨hlen, rfl⟩

/-- With extension headers, the packet is one for this node, too. -/
lemma ipInput_insertHeaders (h : ipInput node p = .ok s)
    (hlen : (p.insertHeaders hdrs).payloadLen ≤ (p.insertHeaders hdrs).len) :
    ipInput node (p.insertHeaders hdrs) =
      .ok { bytes := (p.insertHeaders hdrs).bytes, len := (p.insertHeaders hdrs).payloadLen + 40,
            nextHdr := 6, extLen := 0, bitmap := {}, chainEnd := uipIphLen } := by
  have hvtc : (p.insertHeaders hdrs).bytes 0 = p.bytes 0 :=
    p.insertHeaders_header hdrs (.inl (by decide))
  have hsrc : (p.insertHeaders hdrs).srcipaddr = p.srcipaddr := by
    unfold UipBuf.srcipaddr
    rw [copyBytes_congr fun k hk => p.insertHeaders_header hdrs (.inr ⟨by omega, by
      unfold uipIphLen; omega⟩)]
  have hdest : (p.insertHeaders hdrs).destipaddr = p.destipaddr := by
    unfold UipBuf.destipaddr
    rw [copyBytes_congr fun k hk => p.insertHeaders_header hdrs (.inr ⟨by omega, by
      unfold uipIphLen; omega⟩)]
  unfold UipBuf.srcipaddr at hsrc
  unfold UipBuf.destipaddr at hdest
  unfold ipInput UipBuf.srcipaddr UipBuf.destipaddr at h ⊢
  dsimp only at h ⊢
  rw [hvtc, if_pos hlen, hsrc, hdest]
  split_ifs at h with hversion hshort hmcast hmine
  rw [if_neg hversion, if_neg hmcast, if_pos hmine]

/-- Behind the extension headers, the packet is the one without them. -/
lemma exists_shifted (t : Transport) (app : App) (fuel : ℕ) (hpacket : UpperPacket node p s)
    (hadm : AdmissibleChain hdrs) (hfits : p.len.toNat + chainSize hdrs < 65536)
    (hshort : chainSize hdrs < 256) :
    ∃ s', s.Shifted s' (chainSize hdrs) ∧ s'.bytes s'.nextHdr = s.bytes s.nextHdr ∧
      uipProcess node t app (fuel + hdrs.length) (p.insertHeaders hdrs) =
        (headerLoop node fuel s').bind (upperInput node t app) := by
  obtain ⟨hinput, hreceived, -⟩ := hpacket
  obtain ⟨-, rfl⟩ := ipInput_eq_ok hinput
  have hcount : (UInt16.ofNat (chainSize hdrs)).toNat = chainSize hdrs := by
    rw [UInt16.toNat_ofNat', Nat.mod_eq_of_lt (by omega)]
  have hpayload : (p.insertHeaders hdrs).payloadLen.toNat =
      p.payloadLen.toNat + chainSize hdrs := by
    rw [p.insertHeaders_payloadLen, UInt16.toNat_add, hcount]
    exact Nat.mod_eq_of_lt (by show _ < 65536; omega)
  have hlen : (p.insertHeaders hdrs).len.toNat = p.len.toNat + chainSize hdrs := by
    show (p.len + UInt16.ofNat (chainSize hdrs)).toNat = _
    rw [UInt16.toNat_add, hcount]
    exact Nat.mod_eq_of_lt (by show _ < 65536; omega)
  have hinput' := ipInput_insertHeaders hinput (by
    show (p.insertHeaders hdrs).payloadLen.toNat ≤ (p.insertHeaders hdrs).len.toNat
    omega)
  obtain ⟨s', hloop, hbuf, hproto, htracks, hend⟩ := @HeaderState.headerLoop_chain _
    node _ (uipIphLen + chainSize hdrs) _ _
    (HeaderState.tracks_of_ipInput hinput') hadm.admissible hadm.admits
    (p.insertHeaders_proto hdrs) (p.insertHeaders_chain hdrs) (Nat.le_refl _) (by omega)
  have hend' : s'.chainEnd = uipIphLen + chainSize hdrs := hend
  obtain ⟨hbytes, hlen'⟩ := UipBuf.mk.inj hbuf
  refine ⟨s', ⟨rfl, ?_, ?_, ?_, ?_, ?_⟩, hproto, ?_⟩
  · rw [htracks.extLen, hend', Nat.add_sub_cancel_left]
    exact Nat.mod_eq_of_lt hshort
  · rw [hlen', p.insertHeaders_payloadLen]
    show p.payloadLen + _ + 40 = p.payloadLen + 40 + _
    rw [UInt16.add_assoc, UInt16.add_comm (UInt16.ofNat _), ← UInt16.add_assoc]
  · unfold UipBuf.payloadLen
    rw [hbytes]
    exact p.insertHeaders_payloadLen hdrs
  · intro k hk
    rw [hbytes]
    exact p.insertHeaders_header hdrs hk
  · intro k hk
    rw [hbytes]
    exact p.insertHeaders_payload hdrs hk
  · unfold uipProcess
    rw [hinput']
    dsimp only
    rw [hloop]

/-- A valid payload leads to something. -/
lemma exists_outcome (node : IpNode) (t : Transport) (app : App) (hvalid : s.UpperValid) :
    ∃ o, ∀ fuel, (headerLoop node (fuel + 1) s).bind (upperInput node t app) = some o := by
  unfold headerLoop HeaderState.headerStep HeaderState.stepAt
  dsimp only
  rcases hvalid with ⟨hproto, hchksum, -⟩ | ⟨hproto, hchksum, -⟩ | ⟨hproto, hchksum, -, htype⟩
  · rw [hproto, if_pos rfl, if_pos hchksum]
    exact ⟨s.tcpInput t app, fun _ => rfl⟩
  · have haccept : ¬(wordAt s.bytes (s.extBuf + 6) ≠ 0 ∧
        s.upperLayerChksum s.extBuf 17 ≠ 0xffff) := by
      rintro ⟨hnonzero, hwrong⟩
      exact hchksum.elim hnonzero hwrong
    rw [hproto, if_neg (by decide), if_pos rfl, if_neg haccept]
    exact ⟨s.udpInput t app, fun _ => rfl⟩
  · rw [hproto, if_neg (by decide), if_neg (by decide), if_pos rfl, if_pos hchksum]
    refine ⟨.sent (s.echoRequestInput node).packet, fun _ => ?_⟩
    show (if s.bytes s.extBuf = 128 then _ else _) = _
    rw [if_pos htype]

/-- What the payload leads to, and what it leads to behind extension headers. -/
lemma upperInput_eq_iff {s' : HeaderState} {n fuel fuel' : ℕ} (h : s.Shifted s' n) (hpos : 0 < n)
    (hproto : s'.bytes s'.nextHdr = s.bytes s.nextHdr) (hnext : s.nextHdr = 6)
    (hlen : s.len = s.payloadLen + 40) (hfits : s.payloadLen.toNat + 40 + n < 65536)
    (hvalid : s.UpperValid) :
    (headerLoop node (fuel' + 1) s').bind (upperInput node t app) =
      (headerLoop node (fuel + 1) s).bind (upperInput node t app) ↔ s.Unanswered t app := by
  have hsize : s.len.toNat = s.payloadLen.toNat + 40 := by
    rw [hlen, UInt16.toNat_add]
    exact Nat.mod_eq_of_lt (by show s.payloadLen.toNat + 40 < 65536; omega)
  unfold headerLoop HeaderState.headerStep HeaderState.stepAt HeaderState.Unanswered
  dsimp only
  rw [hproto, h.upperLayerChksum, h.wordAt]
  rcases hvalid with ⟨htcp, hchksum, hhdr⟩ | ⟨hudp, hchksum, -⟩ | ⟨hicmp, hchksum, -, htype⟩
  · rw [htcp, if_pos rfl, if_pos rfl, if_pos hchksum, if_pos hchksum]
    show some (s'.tcpInput t app) = some (s.tcpInput t app) ↔ _
    rw [Option.some_inj, h.tcpInput_eq_iff hpos (by omega) hhdr]
    exact ⟨fun hblind => ⟨fun _ => hblind, fun hudp => absurd hudp (by decide)⟩, fun hall => hall.1 rfl⟩
  · have haccept : ¬(wordAt s.bytes (s.extBuf + 6) ≠ 0 ∧
        s.upperLayerChksum s.extBuf 17 ≠ 0xffff) := by
      rintro ⟨hnonzero, hwrong⟩
      exact hchksum.elim hnonzero hwrong
    have htcp : ¬(17 : UInt8) = 6 := by decide
    rw [hudp, if_neg htcp, if_neg htcp, if_pos rfl, if_pos rfl, if_neg haccept, if_neg haccept]
    show some (s'.udpInput t app) = some (s.udpInput t app) ↔ _
    rw [Option.some_inj, h.udpInput_eq_iff hpos]
    exact ⟨fun hnone => ⟨fun h => absurd h htcp, fun _ => hnone⟩, fun hall => hall.2 rfl⟩
  · have htype' : s'.bytes s'.extBuf = 128 := (h.byteAt 0).trans htype
    have htcp : ¬(58 : UInt8) = 6 := by decide
    have hudp : ¬(58 : UInt8) = 17 := by decide
    rw [hicmp, if_neg htcp, if_neg htcp, if_neg hudp, if_neg hudp, if_pos rfl, if_pos rfl,
      if_pos hchksum, if_pos hchksum]
    refine iff_of_true ?_ ⟨fun h => absurd h htcp, fun h => absurd h hudp⟩
    show (if s'.bytes s'.extBuf = 128 then _ else _) = if s.bytes s.extBuf = 128 then _ else _
    rw [if_pos htype', if_pos htype, h.echoRequestInput_packet hpos (by rw [← hnext]; exact hicmp)
      hlen (by omega)]

/-- A packet without extension headers leads to something. -/
lemma process_eq_some (t : Transport) (app : App) {fuel : ℕ} (hpacket : UpperPacket node p s)
    (hfuel : 0 < fuel) : ∃ o, uipProcess node t app fuel p = some o := by
  obtain ⟨o, hall⟩ := exists_outcome node t app hpacket.valid
  obtain ⟨fuel, rfl⟩ : ∃ n, fuel = n + 1 := ⟨fuel - 1, by omega⟩
  refine ⟨o, ?_⟩
  unfold uipProcess
  rw [hpacket.input]
  exact hall fuel

/-- With at most 255 bytes of extension headers, a packet leads to the same exactly when nothing
answers it and its length does not count. -/
lemma process_eq_iff (t : Transport) (app : App) {fuel : ℕ} (hpacket : UpperPacket node p s)
    (hadm : AdmissibleChain hdrs) (hfits : p.len.toNat + chainSize hdrs < 65536)
    (hshort : chainSize hdrs < 256) (hfuel : 4 < fuel) :
    uipProcess node t app fuel (p.insertHeaders hdrs) = uipProcess node t app fuel p ↔
      hdrs = [] ∨ s.Unanswered t app := by
  have hlength := hadm.length_le
  by_cases hnil : hdrs = []
  · rw [hnil, p.insertHeaders_nil]
    exact iff_of_true rfl (.inl rfl)
  have hpos : 0 < chainSize hdrs := by
    obtain ⟨hdr, rest, rfl⟩ := List.exists_cons_of_ne_nil hnil
    show 0 < hdr.size + chainSize rest
    exact Nat.add_pos_left (Nat.succ_pos _) _
  rw [or_iff_right hnil]
  obtain ⟨rest, rfl⟩ : ∃ n, fuel = n + 1 + hdrs.length := ⟨fuel - 1 - hdrs.length, by omega⟩
  obtain ⟨s', hshifted, hproto, hprocess'⟩ := exists_shifted t app (rest + 1) hpacket hadm hfits
    hshort
  have hprocess : uipProcess node t app (rest + 1 + hdrs.length) p =
      (headerLoop node (rest + hdrs.length + 1) s).bind (upperInput node t app) := by
    unfold uipProcess
    rw [hpacket.input, Nat.add_right_comm]
  obtain ⟨hinput, hreceived, hvalid⟩ := hpacket
  rw [hprocess, hprocess']
  obtain ⟨-, rfl⟩ := ipInput_eq_ok hinput
  have hlt : p.payloadLen.toNat + 40 + chainSize hdrs < 65536 := by
    unfold uipIphLen at hreceived
    omega
  exact upperInput_eq_iff hshifted hpos hproto rfl rfl hlt hvalid

/-- **Extension headers are transparent** to a payload that nothing answers and whose length does
not count, and to echo requests, as long as they have less than 256 bytes together. -/
theorem headers_transparent (t : Transport) (app : App) {fuel : ℕ} (hpacket : UpperPacket node p s)
    (hadm : AdmissibleChain hdrs) (hfits : p.len.toNat + chainSize hdrs < 65536)
    (hfuel : 4 < fuel) :
    ∃ o, uipProcess node t app fuel p = some o ∧
      (hdrs = [] ∨ chainSize hdrs < 256 ∧ s.Unanswered t app →
        uipProcess node t app fuel (p.insertHeaders hdrs) = some o) ∧
      (chainSize hdrs < 256 → uipProcess node t app fuel (p.insertHeaders hdrs) = some o →
        hdrs = [] ∨ s.Unanswered t app) := by
  obtain ⟨o, hprocess⟩ := process_eq_some t app hpacket (Nat.zero_lt_of_lt hfuel)
  refine ⟨o, hprocess, ?_, ?_⟩
  · rw [← hprocess]
    rintro (rfl | ⟨hshort, hnone⟩)
    · rw [p.insertHeaders_nil]
    · exact (process_eq_iff t app hpacket hadm hfits hshort hfuel).mpr (.inr hnone)
  · intro hshort hsame
    rw [← hprocess] at hsame
    exact (process_eq_iff t app hpacket hadm hfits hshort hfuel).mp hsame

/-! ## A segment behind a hop-by-hop options header -/

/-- A host with one address. -/
def linkNode : IpNode where
  nAddr := 1
  addrList _ :=
    { isused := true
      ipaddr := .ofBytes [0xfe, 0x80, 0, 0, 0, 0, 0, 0, 0, 0, 0, 0, 0, 0, 0, 1]
      state := .preferred
      isinfinite := true }
  nMaddr := 0
  maddrList := nofun
  nPrefix := 0
  prefixList := nofun
  curHopLimit := 64
  router := false
  linkMtu := 1280

/-- A TCP segment for this host, with one byte of data. -/
def segmentPacket : UipBuf where
  bytes k :=
    [0x60, 0, 0, 0, 0, 21, 6, 64,
      0xfe, 0x80, 0, 0, 0, 0, 0, 0, 0, 0, 0, 0, 0, 0, 0, 2,
      0xfe, 0x80, 0, 0, 0, 0, 0, 0, 0, 0, 0, 0, 0, 0, 0, 1,
      0x10, 0, 0x20, 0, 0, 0, 0, 5, 0, 0, 0, 0, 0x50, 0x10, 0, 0, 0x41, 0xca, 0, 0, 0x41].getD k 0
  len := 61

/-- The connection that the segment is for. -/
def oneConn : Transport where
  tcpConfig := ⟨1220, 1220, 1220, 120⟩
  tcpConns :=
    [{ lport := 0x2000
       rport := 0x1000
       ripaddr := .ofBytes [0xfe, 0x80, 0, 0, 0, 0, 0, 0, 0, 0, 0, 0, 0, 0, 0, 2]
       conn :=
        { rcvNxt := ⟨0, 0, 0, 5⟩
          sndNxt := ⟨0, 0, 0, 0⟩
          len := 0
          mss := 1220
          initialmss := 1220
          sa := 0
          sv := 4
          rto := 3
          state := .established
          stopped := false
          timer := 3
          nrtx := 0 } }]
  listenPorts := []
  udpConns := []
  iss := ⟨0, 0, 0, 0⟩

/-- An application that only reads. -/
def silentApp : App := ⟨[], fun _ _ => []⟩

/-- A hop-by-hop options header that is only padding. -/
def padHdr : ExtHdr := ⟨0, 0, [1, 4, 0, 0, 0, 0], rfl⟩

/-- The state in front of the segment. -/
def segmentState : HeaderState where
  bytes := segmentPacket.bytes
  len := 61
  nextHdr := 6
  extLen := 0
  bitmap := {}
  chainEnd := uipIphLen

lemma segmentPacket_upper : UpperPacket linkNode segmentPacket segmentState where
  input := rfl
  received := by decide
  valid := .inl ⟨rfl, by decide +kernel, ⟨by decide, .nil⟩⟩

lemma padHdr_admissible : AdmissibleChain [padHdr] where
  admissible := by
    intro hdr hmem
    rw [List.mem_singleton.mp hmem]
    exact .inl ⟨.inl rfl, .padn 4 [0, 0, 0, 0] rfl .nil⟩
  admits := ⟨by decide, by decide, nofun, by decide⟩

/-- The header counts as eight bytes of data. -/
theorem not_headers_transparent : ¬ ∀ (node : IpNode) (t : Transport) (app : App) (p : UipBuf)
    (s : HeaderState) (hdrs : List ExtHdr) (fuel : ℕ), UpperPacket node p s →
    AdmissibleChain hdrs → p.len.toNat + chainSize hdrs < 65536 → 4 < fuel →
    uipProcess node t app fuel (p.insertHeaders hdrs) = uipProcess node t app fuel p := by
  intro h
  have hsame := h linkNode oneConn silentApp segmentPacket segmentState [padHdr] 5
    segmentPacket_upper padHdr_admissible (by decide) (by decide)
  rw [process_eq_iff oneConn silentApp segmentPacket_upper padHdr_admissible (by decide)
    (by decide) (by decide)] at hsame
  rcases hsame with hnil | hnone
  · cases hnil
  · rcases hnone.1 rfl with hport | hblind
    · exact absurd hport (by decide)
    · rcases hblind _ rfl with hrst | ⟨-, -, hstopped | ⟨hfin, -⟩⟩
      · exact absurd hrst (by decide)
      · exact absurd hstopped (by decide)
      · exact absurd hfin (by decide)

/-- The connection, while the application takes no data. -/
def stoppedConn : Transport :=
  { oneConn with
    tcpConns := oneConn.tcpConns.map fun e => { e with conn := { e.conn with stopped := true } } }

lemma segmentState_unanswered : segmentState.Unanswered stoppedConn silentApp := by
  have hconn : segmentState.tcpConn stoppedConn = some 0 := by decide +kernel
  refine ⟨fun _ => .inr ?_, fun hudp => absurd hudp (by decide)⟩
  rw [hconn]
  intro e he
  cases he
  exact .inr ⟨by decide, by decide, .inl rfl⟩

/-- A segment for a connection that takes no data leads to the same with a header as without. -/
theorem headers_transparent_segment :
    ∃ o, uipProcess linkNode stoppedConn silentApp 5 segmentPacket = some o ∧
      uipProcess linkNode stoppedConn silentApp 5 (segmentPacket.insertHeaders [padHdr]) = some o := by
  obtain ⟨o, hprocess, hsame, -⟩ := headers_transparent stoppedConn silentApp segmentPacket_upper
    padHdr_admissible (by decide) (by decide : 4 < 5)
  exact ⟨o, hprocess, hsame (.inr ⟨by decide, segmentState_unanswered⟩)⟩

end Contiki

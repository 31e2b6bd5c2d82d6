import Contiki.Lib.Reads
import Contiki.Mac.Framer802154

/-!
# What `frame802154_parse` reads

The parser of frames with every access to the frame made explicit.  It compares the length of the header
with that of the frame when it is through with it; and of an addressing mode that is reserved it takes the
PAN ID, but it writes no address.

* `Frame802154.readFrame` — the accesses; on a frame they give what `parse` gives.
* `Frame802154.hdrEnd` — the length of the header, from its first two octets.
* `FrameReads.readsOnlyFrame_iff` — for which frames nothing but the frame matters.
-/

namespace Contiki

open Reads Rime

namespace Frame802154

/-! ## The accesses -/

/-- A PAN ID is read. -/
def readPidAt (pos : ℕ) : Reads ℕ UInt8 UInt16 := do
  let low ← read pos
  let high ← read (pos + 1)
  pure (low.toUInt16 + high.toUInt16 <<< 8)

/-- An address is read, if the mode is that of a short or of a long one. -/
def readAddrAt (size : ℕ) (mode : UInt8) (pos : ℕ) (addr : ℕ → UInt8) :
    Reads ℕ UInt8 ((ℕ → UInt8) × ℕ) :=
  if mode = frame802154Shortaddrmode then do
    let second ← read (pos + 1)
    let first ← read pos
    pure (memcpy (nullAddr size addr) 0 [second, first], pos + 2)
  else if mode = frame802154Longaddrmode then do
    let octets ← readRange pos 8
    pure (memcpy addr 0 octets.reverse, pos + 8)
  else pure (addr, pos)

/-- The destination is read. -/
def readDest (size : ℕ) (fcf : Frame802154Fcf) (addr : ℕ → UInt8) :
    Reads ℕ UInt8 (UInt16 × (ℕ → UInt8) × ℕ) :=
  if fcf.destAddrMode ≠ 0 then do
    let pid ← readPidAt 3
    let addr ← readAddrAt size fcf.destAddrMode 5 addr
    pure (pid, addr)
  else pure (0, nullAddr size addr, 3)

/-- The source is read, from the place `pos` on. -/
def readSrc (size : ℕ) (fcf : Frame802154Fcf) (destPid : UInt16) (pos : ℕ) (addr : ℕ → UInt8) :
    Reads ℕ UInt8 (UInt16 × (ℕ → UInt8) × ℕ) :=
  if fcf.srcAddrMode ≠ 0 then
    if fcf.panidCompression = 0 then do
      let pid ← readPidAt pos
      let addr ← readAddrAt size fcf.srcAddrMode (pos + 2) addr
      pure (pid, addr)
    else do
      let addr ← readAddrAt size fcf.srcAddrMode pos addr
      pure (destPid, addr)
  else pure (0, nullAddr size addr, pos)

/-- `frame802154_parse`. -/
def readFrame (size : ℕ) (len : UInt8) (pf : Frame802154) : Reads ℕ UInt8 (Frame802154 × UInt8) :=
  if len < 3 then pure (pf, 0)
  else do
    let p0 ← read 0
    let p1 ← read 1
    let seq ← read 2
    let fcf := Frame802154Fcf.decode p0 p1
    let dest ← readDest size fcf pf.destAddr
    let src ← readSrc size fcf dest.1 dest.2.2 pf.srcAddr
    let c := UInt8.ofNat src.2.2
    pure ({ fcf, seq, destPid := dest.1, destAddr := dest.2.1, srcPid := src.1, srcAddr := src.2.1,
            payload := src.2.2, payloadLen := len - c },
      if c > len then 0 else c)

section
variable (data : ℕ → UInt8) (size : ℕ)

@[simp] lemma run_readPidAt (pos : ℕ) : (readPidAt pos).run data = readPid data pos := rfl

@[simp] lemma run_readAddrAt (mode : UInt8) (pos : ℕ) (addr : ℕ → UInt8) :
    (readAddrAt size mode pos addr).run data = readAddr size mode data pos addr := by
  unfold readAddrAt readAddr
  rw [run_ite, run_ite]
  simp only [run_bind, run_read, run_readRange, run_pure]
  rfl

lemma run_readDest (fcf : Frame802154Fcf) (addr : ℕ → UInt8) :
    (readDest size fcf addr).run data = parseDest size data fcf addr := by
  unfold readDest parseDest
  rw [run_ite]
  simp

lemma run_readSrc (fcf : Frame802154Fcf) (destPid : UInt16) (pos : ℕ) (addr : ℕ → UInt8) :
    (readSrc size fcf destPid pos addr).run data = parseSrc size data fcf destPid pos addr := by
  unfold readSrc parseSrc
  rw [run_ite, run_ite]
  simp

/-- On a frame, the accesses give what `parse` gives. -/
lemma run_readFrame (len : UInt8) (pf : Frame802154) :
    (readFrame size len pf).run data = parse size data len pf := by
  unfold readFrame parse
  rw [run_ite]
  simp [run_readDest, run_readSrc]

end

/-! ## The end of the header -/

/-- What the destination takes of a header. -/
def destLen (fcf : Frame802154Fcf) : ℕ :=
  if fcf.destAddrMode ≠ 0 then 2 + (addrLen fcf.destAddrMode).toNat else 0

/-- What the source takes of a header. -/
def srcLen (fcf : Frame802154Fcf) : ℕ :=
  if fcf.srcAddrMode ≠ 0 then
    (if fcf.panidCompression = 0 then 2 else 0) + (addrLen fcf.srcAddrMode).toNat
  else 0

/-- The length of the header, by its addressing modes. -/
def hdrEnd (fcf : Frame802154Fcf) : ℕ := 3 + destLen fcf + srcLen fcf

section
variable {data : ℕ → UInt8} {size n : ℕ} {mode : UInt8} {addr : ℕ → UInt8} {fcf : Frame802154Fcf} {pos : ℕ}

lemma within_readPidAt : (readPidAt pos).Within data (· < n) ↔ pos + 2 ≤ n := by
  unfold readPidAt
  simp only [within_bind, within_read, within_pure, and_true]
  omega

lemma within_readAddrAt :
    (readAddrAt size mode pos addr).Within data (· < n) ↔
      (addrLen mode).toNat = 0 ∨ pos + (addrLen mode).toNat ≤ n := by
  unfold readAddrAt addrLen
  split_ifs with hshort hlong
  · simp only [within_bind, within_read, within_pure, and_true]
    show _ ↔ (2 : ℕ) = 0 ∨ pos + 2 ≤ n
    omega
  · simp only [within_bind, within_readRange, within_pure, and_true]
    rfl
  · exact iff_of_true (within_pure _ _ _) (.inl rfl)

lemma readAddr_pos : (readAddr size mode data pos addr).2 = pos + (addrLen mode).toNat := by
  unfold readAddr addrLen
  split_ifs <;> rfl

lemma parseDest_pos : (parseDest size data fcf addr).2.2 = 3 + destLen fcf := by
  unfold parseDest destLen
  split_ifs with hmode
  · have hpos : (readAddr size fcf.destAddrMode data 5 addr).2 = 5 + (addrLen fcf.destAddrMode).toNat :=
      readAddr_pos
    show (readAddr size fcf.destAddrMode data 5 addr).2 = _
    omega
  · rfl

lemma parseSrc_pos {destPid : UInt16} :
    (parseSrc size data fcf destPid pos addr).2.2 = pos + srcLen fcf := by
  unfold parseSrc srcLen
  split_ifs with hmode hpan
  · rw [readAddr_pos, Nat.add_assoc]
  · rw [readAddr_pos, Nat.zero_add]
  · rfl

lemma within_readDest (h : 3 ≤ n) :
    (readDest size fcf addr).Within data (· < n) ↔ 3 + destLen fcf ≤ n := by
  unfold readDest destLen
  split_ifs with hmode
  · simp only [within_bind, within_readPidAt, within_readAddrAt, within_pure, and_true]
    omega
  · exact iff_of_true (within_pure _ _ _) h

lemma within_readSrc {destPid : UInt16} (hpos : pos ≤ n) :
    (readSrc size fcf destPid pos addr).Within data (· < n) ↔ pos + srcLen fcf ≤ n := by
  unfold readSrc srcLen
  split_ifs with hmode hpan
  · simp only [within_bind, within_readPidAt, within_readAddrAt, within_pure, and_true]
    omega
  · simp only [within_bind, within_readAddrAt, within_pure, and_true]
    omega
  · exact iff_of_true (within_pure _ _ _) hpos

/-- The parser stays within the frame if it does not look at it, or if the header does not go beyond
the frame. -/
lemma within_readFrame {len : UInt8} {pf : Frame802154} :
    (readFrame size len pf).Within data (· < len.toNat) ↔
      len < 3 ∨ hdrEnd (.decode (data 0) (data 1)) ≤ len.toNat := by
  unfold readFrame
  split_ifs with hlen
  · exact iff_of_true (within_pure _ _ _) (.inl hlen)
  · have hthree : 3 ≤ len.toNat := UInt8.le_iff_toNat_le.mp (UInt8.not_lt.mp hlen)
    simp only [within_bind, within_read, within_pure, and_true, run_read, run_readDest, hlen, false_or]
    obtain ⟨fcf, hfcf⟩ : ∃ fcf, Frame802154Fcf.decode (data 0) (data 1) = fcf := ⟨_, rfl⟩
    rw [hfcf, within_readDest hthree, parseDest_pos]
    unfold hdrEnd
    constructor
    · rintro ⟨h0, h1, h2, hdest, hsrc⟩
      exact (within_readSrc hdest).mp hsrc
    · intro hend
      have hdest : 3 + destLen fcf ≤ len.toNat := (Nat.le_add_right ..).trans hend
      exact ⟨by omega, by omega, by omega, hdest, (within_readSrc hdest).mpr hend⟩

end

lemma hdrEnd_le (fcf : Frame802154Fcf) : hdrEnd fcf ≤ 23 := by
  have hdest := addrLen_le fcf.destAddrMode
  have hsrc := addrLen_le fcf.srcAddrMode
  unfold hdrEnd destLen srcLen
  split_ifs <;> omega

lemma hdrEnd_toNat (fcf : Frame802154Fcf) : (UInt8.ofNat (hdrEnd fcf)).toNat = hdrEnd fcf :=
  UInt8.toNat_ofNat_of_lt' ((hdrEnd_le fcf).trans_lt (by decide))

section
variable {data : ℕ → UInt8} {size : ℕ} {len : UInt8} {pf : Frame802154}

/-- What the parser returns of a frame that has its first three octets. -/
lemma parse_of_le (h : ¬ len < 3) :
    parse size data len pf =
      ({ fcf := .decode (data 0) (data 1)
         seq := data 2
         destPid := (parseDest size data (.decode (data 0) (data 1)) pf.destAddr).1
         destAddr := (parseDest size data (.decode (data 0) (data 1)) pf.destAddr).2.1
         srcPid := (parseSrc size data (.decode (data 0) (data 1))
          (parseDest size data (.decode (data 0) (data 1)) pf.destAddr).1
          (3 + destLen (.decode (data 0) (data 1))) pf.srcAddr).1
         srcAddr := (parseSrc size data (.decode (data 0) (data 1))
          (parseDest size data (.decode (data 0) (data 1)) pf.destAddr).1
          (3 + destLen (.decode (data 0) (data 1))) pf.srcAddr).2.1
         payload := hdrEnd (.decode (data 0) (data 1))
         payloadLen := len - UInt8.ofNat (hdrEnd (.decode (data 0) (data 1))) },
        if UInt8.ofNat (hdrEnd (.decode (data 0) (data 1))) > len then 0
        else UInt8.ofNat (hdrEnd (.decode (data 0) (data 1)))) := by
  unfold parse hdrEnd
  rw [if_neg h, ← parseDest_pos, ← parseSrc_pos]

/-- What is returned is not more than there is, and the payload is the rest. -/
lemma parse_length (h : (parse size data len pf).2 ≠ 0) :
    (parse size data len pf).2.toNat ≤ len.toNat ∧
      (parse size data len pf).1.payloadLen.toNat = len.toNat - (parse size data len pf).2.toNat := by
  by_cases hlen : len < 3
  · unfold parse at h
    rw [if_pos hlen] at h
    exact absurd rfl h
  · rw [parse_of_le hlen] at h ⊢
    by_cases hend : UInt8.ofNat (hdrEnd (.decode (data 0) (data 1))) > len
    · exact absurd (if_pos hend) h
    · have hle := UInt8.not_lt.mp hend
      simp only [hend, if_false]
      exact ⟨UInt8.le_iff_toNat_le.mp hle, UInt8.toNat_sub_of_le _ _ hle⟩

end

/-! ## The addresses -/

/-- An address made of octets of the frame, the last one first, and of zeros. -/
def octetsAt (size : ℕ) (data : ℕ → UInt8) (pos k : ℕ) : List UInt8 :=
  ((copyBytes data pos k).reverse ++ List.replicate size 0).take size

/-- Whatever stands on the stack, the address is made of the octets at one place of the frame. -/
def TakenFrom (size : ℕ) (data : ℕ → UInt8) (n : ℕ) (addr : Frame802154 → ℕ → UInt8) : Prop :=
  ∃ pos k, pos + k ≤ n ∧ ∀ pf, (rimeaddrAt size (addr pf)).u8 = octetsAt size data pos k

section
variable {data : ℕ → UInt8} {size n : ℕ} {mode : UInt8} {addr : ℕ → UInt8} {fcf : Frame802154Fcf} {pos : ℕ}

lemma rimeaddrAt_of_getD {l : List UInt8} (h : ∀ k < size, addr k = l.getD k 0) :
    (rimeaddrAt size addr).u8 = (l ++ List.replicate size 0).take size := by
  apply List.ext_getElem
  · rw [(rimeaddrAt size addr).length_u8, List.length_take, List.length_append, List.length_replicate]
    omega
  · intro k hk hk'
    rw [(rimeaddrAt size addr).length_u8] at hk
    have hget : (rimeaddrAt size addr).u8[k] = addr k := by
      simp [rimeaddrAt, copyBytes]
    rw [hget, h k hk, List.getElem_take]
    by_cases hl : k < l.length
    · rw [List.getElem_append_left hl, List.getD_eq_getElem _ _ hl]
    · rw [List.getElem_append_right (Nat.not_lt.mp hl), List.getElem_replicate,
        List.getD_eq_default _ _ (Nat.not_lt.mp hl)]

/-- The null address. -/
lemma nullAddr_octets : (rimeaddrAt size (nullAddr size addr)).u8 = octetsAt size data 0 0 := by
  refine rimeaddrAt_of_getD (l := []) fun k hk => ?_
  unfold nullAddr memcpy
  simp [hk]

/-- An address of a valid mode is taken from its place. -/
lemma readAddr_octets (hsize : size ≤ 8)
    (hmode : mode = frame802154Shortaddrmode ∨ mode = frame802154Longaddrmode) :
    (rimeaddrAt size (readAddr size mode data pos addr).1).u8 =
      octetsAt size data pos (addrLen mode).toNat := by
  refine rimeaddrAt_of_getD fun k hk => ?_
  rcases hmode with rfl | rfl
  · show memcpy (nullAddr size addr) 0 [data (pos + 1), data pos] k = [data (pos + 1), data pos].getD k 0
    unfold nullAddr memcpy
    by_cases htwo : k < 2
    · simp [htwo]
    · simp [hk]
  · show memcpy addr 0 (copyBytes data pos 8).reverse k = (copyBytes data pos 8).reverse.getD k 0
    have hlen : k < (copyBytes data pos 8).reverse.length := by
      rw [List.length_reverse, length_copyBytes]
      omega
    have hget := (holds_memcpy addr 0 (copyBytes data pos 8).reverse).get k hlen
    rw [Nat.zero_add] at hget
    rw [hget, List.getD_eq_getElem _ _ hlen]

end

lemma and_three_cases (x : UInt8) :
    x &&& 3 = 0 ∨ x &&& 3 = 1 ∨ x &&& 3 = frame802154Shortaddrmode ∨ x &&& 3 = frame802154Longaddrmode := by
  have hlt : (x &&& 3).toNat < 4 := by
    rw [UInt8.toNat_and]
    exact Nat.and_lt_two_pow _ (n := 2) (by decide)
  simp only [← UInt8.toNat_inj]
  show _ = 0 ∨ _ = 1 ∨ _ = 2 ∨ _ = 3
  omega

section
variable {data : ℕ → UInt8} {size n : ℕ} {fcf : Frame802154Fcf}

/-- The destination of a frame is taken from the frame, unless its mode is the reserved one. -/
lemma parseDest_taken (hsize : size ≤ 8) (hend : 3 + destLen fcf ≤ n)
    (hmode : fcf.destAddrMode = 0 ∨ fcf.destAddrMode = frame802154Shortaddrmode ∨
      fcf.destAddrMode = frame802154Longaddrmode) :
    TakenFrom size data n fun pf => (parseDest size data fcf pf.destAddr).2.1 := by
  unfold parseDest destLen at *
  split_ifs at * with hzero
  · exact ⟨5, (addrLen fcf.destAddrMode).toNat, by omega, fun pf =>
      readAddr_octets hsize (hmode.resolve_left hzero)⟩
  · exact ⟨0, 0, Nat.zero_le _, fun pf => nullAddr_octets⟩

/-- The source of a frame likewise. -/
lemma parseSrc_taken {destPid : Frame802154 → UInt16} {pos : ℕ} (hsize : size ≤ 8)
    (hend : pos + srcLen fcf ≤ n)
    (hmode : fcf.srcAddrMode = 0 ∨ fcf.srcAddrMode = frame802154Shortaddrmode ∨
      fcf.srcAddrMode = frame802154Longaddrmode) :
    TakenFrom size data n fun pf => (parseSrc size data fcf (destPid pf) pos pf.srcAddr).2.1 := by
  unfold parseSrc srcLen at *
  split_ifs at * with hzero hpan
  · exact ⟨pos + 2, (addrLen fcf.srcAddrMode).toNat, by omega, fun pf =>
      readAddr_octets hsize (hmode.resolve_left hzero)⟩
  · exact ⟨pos, (addrLen fcf.srcAddrMode).toNat, by omega, fun pf =>
      readAddr_octets hsize (hmode.resolve_left hzero)⟩
  · exact ⟨0, 0, Nat.zero_le _, fun pf => nullAddr_octets⟩

end

end Frame802154

/-! ## Nothing but the frame -/

namespace FrameReads
open Frame802154

/-- The packet buffer has the frame in it: `len` octets, as they stand in `data`. -/
def HoldsFrame {size : ℕ} (data : ℕ → UInt8) (len : UInt8) (p : Rime.Packetbuf size) : Prop :=
  p.buflen = len.toNat ∧ ∀ k < len.toNat, p.mem (p.dataptr + k) = data k

/-- For the `len` octets of a frame the parser looks at nothing else: it reads only them, the header is
not longer than they are and the payload is the rest, the addresses it hands on are taken from them, and
so the sender of a packet is the same whatever stands on the stack or behind the frame. -/
structure ReadsOnlyFrame (size : ℕ) (data : ℕ → UInt8) (len : UInt8) : Prop where
  reads : ∀ pf, (readFrame size len pf).Within data (· < len.toNat)
  length : ∀ pf, (parse size data len pf).2 ≠ 0 →
    (parse size data len pf).2.toNat ≤ len.toNat ∧
      (parse size data len pf).1.payloadLen.toNat = len.toNat - (parse size data len pf).2.toNat
  dest : (∀ pf, (parse size data len pf).2 ≠ 0) →
    TakenFrom size data len.toNat fun pf => (parse size data len pf).1.destAddr
  src : (∀ pf, (parse size data len pf).2 ≠ 0) →
    TakenFrom size data len.toNat fun pf => (parse size data len pf).1.srcAddr
  sender : ∀ (panid panid' : UInt16) (pf pf' : Frame802154) (p p' : Rime.Packetbuf size),
    HoldsFrame data len p → HoldsFrame data len p' →
    (Framer802154.parse panid pf p).2 ≠ 0 → (Framer802154.parse panid' pf' p').2 ≠ 0 →
    (Framer802154.parse panid pf p).1.addr .sender = (Framer802154.parse panid' pf' p').1.addr .sender

/-- The frame is too short to be looked at, or its header does not go beyond it and no address has the
reserved mode. -/
def Complete (data : ℕ → UInt8) (len : UInt8) : Prop :=
  len < 3 ∨ hdrEnd (.decode (data 0) (data 1)) ≤ len.toNat ∧
    (Frame802154Fcf.decode (data 0) (data 1)).destAddrMode ≠ 1 ∧
    (Frame802154Fcf.decode (data 0) (data 1)).srcAddrMode ≠ 1

section
variable {size : ℕ} {data : ℕ → UInt8} {len : UInt8}

/-- The sender that the framer sets is the source the parser hands on. -/
lemma parse_sender {panid : UInt16} {pf : Frame802154} {p : Rime.Packetbuf size} (hp : HoldsFrame data len p)
    (hread : (readFrame size len pf).Within data (· < len.toNat))
    (h : (Framer802154.parse panid pf p).2 ≠ 0) :
    (parse size data len pf).2 ≠ 0 ∧ (Framer802154.parse panid pf p).1.addr .sender =
      rimeaddrAt size (parse size data len pf).1.srcAddr := by
  have hsame : parse size (fun k => p.mem (p.dataptr + k)) (UInt8.ofNat p.buflen) pf =
      parse size data len pf := by
    rw [hp.1, UInt8.ofNat_toNat, ← run_readFrame, ← run_readFrame]
    exact hread.run_congr hp.2
  unfold Framer802154.parse at h ⊢
  simp only [hsame] at h ⊢
  by_cases hok : (parse size data len pf).2 = 0
  · rw [if_pos hok] at h
    exact absurd rfl h
  · rw [if_neg hok] at h ⊢
    refine ⟨hok, ?_⟩
    cases hreduce : p.hdrreduce (p.buflen - (parse size data len pf).1.payloadLen.toNat) with
    | none =>
      rw [hreduce] at h
      exact absurd rfl h
    | some q =>
      simp only [hreduce] at h ⊢
      split_ifs at h ⊢ with hpan hbroadcast
      · exact absurd rfl h
      · simp
      · simp

lemma parse_ne_zero (hlen : ¬ len < 3) (hend : hdrEnd (.decode (data 0) (data 1)) ≤ len.toNat)
    (pf : Frame802154) : (parse size data len pf).2 ≠ 0 := by
  have hle : UInt8.ofNat (hdrEnd (.decode (data 0) (data 1))) ≤ len := by
    rw [UInt8.le_iff_toNat_le, hdrEnd_toNat]
    exact hend
  rw [parse_of_le hlen]
  simp only [UInt8.not_lt.mpr hle, if_false]
  intro hzero
  have hnat := congrArg UInt8.toNat hzero
  rw [hdrEnd_toNat] at hnat
  unfold hdrEnd at hnat
  exact absurd hnat (by show _ ≠ 0; omega)

lemma parse_eq_zero (hlen : len < 3) (pf : Frame802154) : (parse size data len pf).2 = 0 := by
  unfold parse
  rw [if_pos hlen]

/-- What stands on the stack, with an octet all over its addresses. -/
def stackFrame (b : UInt8) : Frame802154 :=
  { fcf := .decode 0 0, seq := 0, destPid := 0, destAddr := fun _ => b, srcPid := 0, srcAddr := fun _ => b,
    payload := 0, payloadLen := 0 }

/-- An address that is left as it was is not taken from the frame. -/
lemma not_takenFrom {n : ℕ} {addr : Frame802154 → ℕ → UInt8} (hsize : 0 < size)
    (h : ∀ b, addr (stackFrame b) = fun _ => b) : ¬ TakenFrom size data n addr := by
  rintro ⟨pos, k, hk, htaken⟩
  have hsame := (htaken (stackFrame 0)).trans (htaken (stackFrame 1)).symm
  rw [h, h] at hsame
  have hhead : (copyBytes (fun _ => (0 : UInt8)) 0 size)[0]? = (copyBytes (fun _ => (1 : UInt8)) 0 size)[0]? :=
    congrArg (fun l : List UInt8 => l[0]?) hsame
  simp [copyBytes, hsize] at hhead

/-- Octets behind the frame are read if its header goes beyond it, and an address of the reserved mode is
left as it was. -/
lemma complete_of_readsOnlyFrame (hsize : 0 < size) (h : ReadsOnlyFrame size data len) :
    Complete data len := by
  by_cases hlen : len < 3
  · exact .inl hlen
  · have hend := (within_readFrame.mp (h.reads (stackFrame 0))).resolve_left hlen
    have hok : ∀ pf, (parse size data len pf).2 ≠ 0 := parse_ne_zero hlen hend
    refine .inr ⟨hend, fun hmode => ?_, fun hmode => ?_⟩
    · refine not_takenFrom hsize (fun b => ?_) (h.dest hok)
      rw [parse_of_le hlen]
      show (parseDest size data _ _).2.1 = _
      unfold parseDest
      rw [hmode]
      rfl
    · refine not_takenFrom hsize (fun b => ?_) (h.src hok)
      rw [parse_of_le hlen]
      show (parseSrc size data _ _ _ _).2.1 = _
      unfold parseSrc
      rw [hmode]
      split_ifs with hzero hpan
      · rfl
      · rfl
      · exact absurd (by decide) hzero

lemma Complete.mode {mode x : UInt8} (hx : mode = x &&& 3) (h : mode ≠ 1) :
    mode = 0 ∨ mode = frame802154Shortaddrmode ∨ mode = frame802154Longaddrmode := by
  rcases and_three_cases x with h0 | h1 | hvalid
  · exact .inl (hx.trans h0)
  · exact absurd (hx.trans h1) h
  · exact .inr (hvalid.imp hx.trans hx.trans)

lemma Complete.src_taken (hsize : size ≤ 8) (h : Complete data len)
    (hok : ∀ pf, (parse size data len pf).2 ≠ 0) :
    TakenFrom size data len.toNat fun pf => (parse size data len pf).1.srcAddr := by
  have hlen : ¬ len < 3 := fun hlen => hok (stackFrame 0) (parse_eq_zero hlen _)
  obtain ⟨hend, hdest, hsrc⟩ := h.resolve_left hlen
  simp only [parse_of_le hlen]
  exact parseSrc_taken hsize hend (Complete.mode rfl hsrc)

lemma Complete.dest_taken (hsize : size ≤ 8) (h : Complete data len)
    (hok : ∀ pf, (parse size data len pf).2 ≠ 0) :
    TakenFrom size data len.toNat fun pf => (parse size data len pf).1.destAddr := by
  have hlen : ¬ len < 3 := fun hlen => hok (stackFrame 0) (parse_eq_zero hlen _)
  obtain ⟨hend, hdest, hsrc⟩ := h.resolve_left hlen
  simp only [parse_of_le hlen]
  exact parseDest_taken hsize ((Nat.le_add_right ..).trans hend) (Complete.mode rfl hdest)

lemma Complete.within (h : Complete data len) (pf : Frame802154) :
    (readFrame size len pf).Within data (· < len.toNat) :=
  within_readFrame.mpr (h.imp_right And.left)

/-- Nothing but the frame matters just if the frame has all of its header and no address of it has the
reserved mode. -/
theorem readsOnlyFrame_iff (hpos : 0 < size) (hsize : size ≤ 8) :
    ReadsOnlyFrame size data len ↔ Complete data len := by
  refine ⟨complete_of_readsOnlyFrame hpos, fun h => ⟨h.within, fun _ => parse_length,
    h.dest_taken hsize, h.src_taken hsize, ?_⟩⟩
  intro panid panid' pf pf' p p' hp hp' hparse hparse'
  obtain ⟨hok, hsender⟩ := parse_sender hp (h.within pf) hparse
  obtain ⟨hok', hsender'⟩ := parse_sender hp' (h.within pf') hparse'
  have hall : ∀ pf, (parse size data len pf).2 ≠ 0 := by
    have hlen : ¬ len < 3 := fun hlen => hok (parse_eq_zero hlen _)
    exact parse_ne_zero hlen (h.resolve_left hlen).1
  obtain ⟨pos, k, hk, htaken⟩ := h.src_taken hsize hall
  rw [hsender, hsender']
  exact Rimeaddr.ext ((htaken pf).trans (htaken pf').symm)

/-- A frame with short addresses and a payload of one octet. -/
def shortFrame : ℕ → UInt8 := fun k => [0x41, 0x88, 7, 0xcd, 0xab, 2, 0, 1, 0, 0x2a].getD k 0

theorem readsOnlyFrame_iff_short :
    (0 < 2 ∧ 2 ≤ 8) ∧ (ReadsOnlyFrame 2 shortFrame 10 ↔ Complete shortFrame 10) ∧ Complete shortFrame 10 :=
  ⟨by decide, readsOnlyFrame_iff (by decide) (by decide), .inr (by decide)⟩

/-- A frame whose source has the reserved mode: its sender is what stood on the stack.  And a frame that
ends behind its sequence number, although it announces two long addresses. -/
theorem not_readsOnlyFrame :
    ¬ ReadsOnlyFrame 2 (fun k => [0x01, 0x48, 7, 0xcd, 0xab, 2, 0, 0xcd, 0xab, 0x2a].getD k 0) 10 ∧
      ¬ ReadsOnlyFrame 8 (fun k => [0x01, 0xcc, 7].getD k 0) 3 := by
  constructor
  · intro h
    exact absurd (complete_of_readsOnlyFrame (by decide) h) (by unfold Complete; decide)
  · intro h
    exact absurd (complete_of_readsOnlyFrame (by decide) h) (by unfold Complete; decide)

end
end FrameReads
end Contiki

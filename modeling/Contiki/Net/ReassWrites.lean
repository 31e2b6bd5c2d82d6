import Contiki.Lib.Run
import Contiki.Net.ReassBitmap
import Mathlib.Data.List.Induction

/-!
# The bounds of the reassembly

`uip_reass` looks at the end of a fragment within the fragmentable part of the packet.  The fragment is
stored behind the headers, the bitmap is indexed by the end of the fragment, and a packet that is
complete is copied back with the headers of the fragment that came last.

* `Reass.StaysInside` — a call keeps within the arrays, and gives up a packet that does not fit without
  storing the fragment.
* `Reass.KeepsInside` — what a fragment has to be for that.
* `Reass.staysInside_iff` — in every state that is reached, the one is the other.
-/

namespace Contiki

namespace HeaderState
variable (bufsize : UInt16) (s : HeaderState)

/-- The end of the fragment within the fragmentable part. -/
def fragEnd : ℕ := s.fragOffset.toNat + s.fragLen.toNat

/-- The fragment can be stored: behind the headers there is room for it, and the bitmap has the byte of
its end. -/
def FragFits : Prop :=
  s.extBuf + s.fragEnd ≤ bufsize.toNat ∧ s.fragEnd / 64 < bufsize.toNat / 64

instance : Decidable (s.FragFits bufsize) := inferInstanceAs (Decidable (_ ∧ _))

/-- The code does not store the fragment: its end is beyond the size of the buffer, or it is not the last
one and its length is not a multiple of eight. -/
def FragRefused : Prop :=
  bufsize.toNat < s.fragEnd ∨ s.more = true ∧ s.fragLen % 8 ≠ 0

instance : Decidable (s.FragRefused bufsize) := inferInstanceAs (Decidable (_ ∨ _))

lemma fragOffset_dvd : 8 ∣ s.fragOffset.toNat := by
  apply Nat.dvd_of_mod_eq_zero
  rw [← Nat.and_two_pow_sub_one_eq_mod _ 3]
  unfold fragOffset
  rw [UInt16.toNat_and, Nat.and_assoc]
  exact Nat.and_zero _

end HeaderState

namespace Reass
variable (bufsize : UInt16) (r : Reass) (s : HeaderState)

/-! ## What is promised -/

/-- The fragment is one of the packet that is being reassembled, or begins a reassembly. -/
def Matches : Prop :=
  r.on = false ∨ copyBytes r.buf 8 32 = copyBytes s.bytes 8 32 ∧ s.fragId = r.id

instance : Decidable (Matches r s) := inferInstanceAs (Decidable (_ ∨ _))

/-- The call keeps within the arrays.  A fragment of the packet that does not fit ends the reassembly, with
nothing of it stored: what is behind the headers stays as it was, and no block is marked. -/
def StaysInside (icmp6ErrorOutput : HeaderState → HeaderState) : Prop :=
  ∃ len r' s', r.reass bufsize icmp6ErrorOutput s = .ok (len, r', s') ∧
    (Matches r s → ¬s.FragFits bufsize → r'.on = false ∧ (∀ k, s.extBuf ≤ k → r'.buf k = r.buf k) ∧
      ∀ n, bit r'.bitmap n = true → bit r.bitmap n = true)

/-! ## The condition -/

/-- The block was stored in this reassembly, or it lies in the fragment. -/
def Covered (n : ℕ) : Prop :=
  r.on = true ∧ bit r.bitmap n = true ∨ s.fragOffset.toNat / 8 ≤ n ∧ n < s.fragEnd / 8

/-- The length of the fragmentable part, as far as it is known. -/
def partLen : UInt16 := if s.more = false then s.fragOffset + s.fragLen else r.reasslen

/-- The last fragment is there, and exactly the blocks of the packet are. -/
def Completes : Prop :=
  (s.more = false ∨ r.on = true ∧ r.lastFrag = true) ∧
    ∀ n, n / 8 ≤ (r.partLen s).toNat / 64 → (Covered r s n ↔ n < (r.partLen s).toNat / 8)

/-- The headers fit where they are copied, and a fragment that is not refused fits behind them; if it completes
the packet, the packet fits behind its headers. -/
structure KeepsInside : Prop where
  headers : r.on = false ∨ Matches r s ∧ s.fragOffset = 0 → s.extBuf ≤ bufsize.toNat
  fits : Matches r s → ¬s.FragRefused bufsize → s.FragFits bufsize
  whole : Matches r s → ¬s.FragRefused bufsize → Completes r s →
    (r.partLen s + (40 + s.extLen.toUInt16)).toNat ≤ bufsize.toNat

/-- The last fragment, when it was stored, ends within the bitmap. -/
def Sound : Prop :=
  r.on = true → r.lastFrag = true → r.reasslen.toNat / 64 < bufsize.toNat / 64

variable {bufsize r s}

/-! ## One call -/

/-- The bitmap shows a packet of which also the blocks in a range are there. -/
def Shows (bitmap : ℕ → BitVec 8) (reasslen offset len : ℕ) : Prop :=
  ∀ n, n / 8 ≤ reasslen / 64 →
    ((bit bitmap n = true ∨ offset / 8 ≤ n ∧ n < (offset + len) / 8) ↔ n < reasslen / 8)

/-- What is stored keeps within the arrays, exactly under three conditions. -/
lemma store_cases {offset len : ℕ} (h8 : 8 ∣ offset)
    (hlast : (offset + len) / 64 < bufsize.toNat / 64 → r.lastFrag = true →
      r.reasslen.toNat / 64 < bufsize.toNat / 64) :
    (∃ res, r.store bufsize s offset len = .ok res ∧ Sound bufsize res.2.1) ∧
        s.extBuf + offset + len ≤ bufsize.toNat ∧ (offset + len) / 64 < bufsize.toNat / 64 ∧
        (r.lastFrag = true → Shows r.bitmap r.reasslen.toNat offset len →
          (r.reasslen + (40 + s.extLen.toUInt16)).toNat ≤ bufsize.toNat) ∨
      (∃ e, r.store bufsize s offset len = .error e) ∧
        ¬(s.extBuf + offset + len ≤ bufsize.toNat ∧ (offset + len) / 64 < bufsize.toNat / 64 ∧
        (r.lastFrag = true → Shows r.bitmap r.reasslen.toNat offset len →
          (r.reasslen + (40 + s.extLen.toUInt16)).toNat ≤ bufsize.toNat)) := by
  unfold store
  by_cases hroom : s.extBuf + offset + len ≤ bufsize.toNat
  · rw [if_pos hroom]
    by_cases hmap : (offset + len) / 64 < bufsize.toNat / 64
    · obtain ⟨bitmap', hmark, hbits⟩ : ∃ bitmap', mark (bufsize.toNat / 64) r.bitmap offset len = .ok bitmap' ∧
          ∀ n, bit bitmap' n =
            (bit r.bitmap n || decide (offset / 8 ≤ n ∧ n < (offset + len) / 8)) := mark_ok h8 hmap
      rw [hmark, ok_bind]
      dsimp only
      by_cases hl : r.lastFrag = true
      · obtain ⟨b, hfull, hb⟩ : ∃ b, full (bufsize.toNat / 64) bitmap' r.reasslen.toNat = .ok b ∧
            (b = true ↔ ∀ n, n / 8 ≤ r.reasslen.toNat / 64 →
              bit bitmap' n = decide (n < r.reasslen.toNat / 8)) := full_ok (hlast hmap hl)
        have hshows : b = true ↔ Shows r.bitmap r.reasslen.toNat offset len := by
          rw [hb]
          unfold Shows
          refine forall_congr' fun n => imp_congr_right fun _ => ?_
          rw [hbits, ← Bool.coe_iff_coe, Bool.or_eq_true, decide_eq_true_eq, decide_eq_true_eq]
        rw [if_pos hl, hfull, ok_bind]
        by_cases hwhole : b = true
        · rw [if_pos hwhole]
          unfold finish
          by_cases hcopy : (r.reasslen + (40 + s.extLen.toUInt16)).toNat ≤ bufsize.toNat
          · refine .inl ⟨⟨_, if_pos hcopy, fun hon => ?_⟩, hroom, hmap, fun _ _ => hcopy⟩
            exact absurd hon Bool.false_ne_true
          · refine .inr ⟨⟨_, if_neg hcopy⟩, fun h => hcopy ?_⟩
            exact h.2.2 hl (hshows.mp hwhole)
        · rw [if_neg hwhole]
          refine .inl ⟨⟨_, rfl, fun _ _ => hlast hmap hl⟩, hroom, hmap, fun _ hshow => ?_⟩
          exact absurd (hshows.mpr hshow) hwhole
      · rw [if_neg hl]
        exact .inl ⟨⟨_, rfl, fun _ h => absurd h hl⟩, hroom, hmap, fun h => absurd h hl⟩
    · rw [mark_error (Nat.not_lt.mp hmap)]
      exact .inr ⟨⟨_, rfl⟩, fun h => hmap h.2.1⟩
  · rw [if_neg hroom]
    exact .inr ⟨⟨_, rfl⟩, fun h => hroom h.1⟩

/-- Headers that are copied leave what is behind them. -/
lemma memcpy_headers {b b' : ℕ → UInt8} {n k : ℕ} (hk : n ≤ k) : memcpy b 0 (copyBytes b' 0 n) k = b k := by
  apply memcpy_of_notMem
  rw [length_copyBytes]
  omega

/-- The headers are copied, when there is room for them. -/
lemma copyHeaders_cases (bufsize : UInt16) (r : Reass) (s : HeaderState) :
    s.extBuf ≤ bufsize.toNat ∧ r.copyHeaders bufsize s =
        .ok { r with buf := memcpy r.buf 0 (copyBytes s.bytes 0 s.extBuf) } ∨
      ¬s.extBuf ≤ bufsize.toNat ∧ ∃ e, r.copyHeaders bufsize s = .error e := by
  unfold copyHeaders
  by_cases h : s.extBuf ≤ bufsize.toNat
  · exact .inl ⟨h, if_pos h⟩
  · exact .inr ⟨h, _, if_neg h⟩

section
variable (bufsize) (icmp6ErrorOutput : HeaderState → HeaderState) (s₀ : HeaderState)

/-- What `uip_reass` does with a fragment of the packet, behind its headers; `s₀` is `uip_buf` before. -/
def behindHeaders (r : Reass) (s : HeaderState) : Except ReassFault (UInt16 × Reass × HeaderState) :=
  if s₀.fragOffset.toNat > bufsize.toNat ∨ s₀.fragOffset.toNat + s₀.fragLen.toNat > bufsize.toNat then
    .ok (0, r.stop, s)
  else if s₀.more = false then
    store bufsize { r with lastFrag := true, reasslen := s₀.fragOffset + s₀.fragLen } s
      s₀.fragOffset.toNat s₀.fragLen.toNat
  else if s₀.fragLen % 8 ≠ 0 then
    .ok ((icmp6ErrorOutput s).len, { r.stop with errorMsg := true }, icmp6ErrorOutput s)
  else
    store bufsize r s s₀.fragOffset.toNat s₀.fragLen.toNat

/-- The fragment is not refused, or fits, and the packet fits that it completes. -/
def StoresInside (r : Reass) (s : HeaderState) : Prop :=
  ¬s.FragRefused bufsize → s.FragFits bufsize ∧
    (s.more = false ∨ r.lastFrag = true →
      Shows r.bitmap (r.partLen s).toNat s.fragOffset.toNat s.fragLen.toNat →
      (r.partLen s + (40 + s.extLen.toUInt16)).toNat ≤ bufsize.toNat)

end

/-- A refused fragment ends the reassembly with nothing stored. -/
def GivenUp (r : Reass) (res : UInt16 × Reass × HeaderState) : Prop :=
  res.2.1.on = false ∧ res.2.1.buf = r.buf ∧ res.2.1.bitmap = r.bitmap

/-- What has to fit is what is stored, for a fragment that is not refused. -/
lemma storesInside_iff {s₀ : HeaderState} (hext : s.extLen = s₀.extLen) (hnot : ¬s₀.FragRefused bufsize)
    {t : Reass} (hbitmap : t.bitmap = r.bitmap)
    (hlast : t.lastFrag = true ↔ s₀.more = false ∨ r.lastFrag = true)
    (hlen : t.reasslen = r.partLen s₀) :
    StoresInside bufsize r s₀ ↔ s.extBuf + s₀.fragOffset.toNat + s₀.fragLen.toNat ≤ bufsize.toNat ∧
      (s₀.fragOffset.toNat + s₀.fragLen.toNat) / 64 < bufsize.toNat / 64 ∧
      (t.lastFrag = true → Shows t.bitmap t.reasslen.toNat s₀.fragOffset.toNat s₀.fragLen.toNat →
        (t.reasslen + (40 + s.extLen.toUInt16)).toNat ≤ bufsize.toNat) := by
  have hbuf : s.extBuf = s₀.extBuf := by
    unfold HeaderState.extBuf
    rw [hext]
  unfold StoresInside HeaderState.FragFits HeaderState.fragEnd
  rw [hbitmap, hlast, hlen, hext, hbuf, Nat.add_assoc, and_assoc]
  exact ⟨fun h => h hnot, fun h _ => h⟩

lemma behindHeaders_cases (icmp6ErrorOutput : HeaderState → HeaderState) (s₀ : HeaderState)
    (hext : s.extLen = s₀.extLen) (hon : r.on = true) (hsound : Sound bufsize r) :
    (∃ res, behindHeaders bufsize icmp6ErrorOutput s₀ r s = .ok res ∧ Sound bufsize res.2.1 ∧
        (¬s₀.FragFits bufsize → GivenUp r res)) ∧ StoresInside bufsize r s₀ ∨
      (∃ e, behindHeaders bufsize icmp6ErrorOutput s₀ r s = .error e) ∧ ¬StoresInside bufsize r s₀ := by
  have hbuf : s.extBuf = s₀.extBuf := by
    unfold HeaderState.extBuf
    rw [hext]
  have h8 := s₀.fragOffset_dvd
  have hstop : ∀ r' : Reass, r'.on = false → Sound bufsize r' := fun r' hoff hon' => by
    rw [hoff] at hon'
    cases hon'
  unfold behindHeaders
  by_cases hend : bufsize.toNat < s₀.fragEnd
  · have hguard : s₀.fragOffset.toNat > bufsize.toNat ∨
        s₀.fragOffset.toNat + s₀.fragLen.toNat > bufsize.toNat := .inr hend
    rw [if_pos hguard]
    exact .inl ⟨⟨_, rfl, hstop _ rfl, fun _ => ⟨rfl, rfl, rfl⟩⟩, fun h => absurd (.inl hend) h⟩
  · have hguard : ¬(s₀.fragOffset.toNat > bufsize.toNat ∨
        s₀.fragOffset.toNat + s₀.fragLen.toNat > bufsize.toNat) := by
      unfold HeaderState.fragEnd at hend
      omega
    rw [if_neg hguard]
    by_cases hmore : s₀.more = false
    · have hnot : ¬s₀.FragRefused bufsize := by
        rintro (h | ⟨h, -⟩)
        · exact hend h
        · rw [hmore] at h
          cases h
      have hlen : (s₀.fragOffset + s₀.fragLen).toNat = s₀.fragOffset.toNat + s₀.fragLen.toNat := by
        have hlt := bufsize.toNat_lt
        rw [UInt16.toNat_add]
        exact Nat.mod_eq_of_lt (by omega)
      rw [if_pos hmore, storesInside_iff hext hnot (r := r)
        (t := { r with lastFrag := true, reasslen := s₀.fragOffset + s₀.fragLen }) rfl
        ⟨fun _ => .inl hmore, fun _ => rfl⟩ (if_pos hmore).symm]
      have hlast : (s₀.fragOffset.toNat + s₀.fragLen.toNat) / 64 < bufsize.toNat / 64 → true = true →
          (s₀.fragOffset + s₀.fragLen).toNat / 64 < bufsize.toNat / 64 := fun hmap _ => by
        rw [hlen]
        exact hmap
      rcases store_cases (s := s) (r := { r with lastFrag := true, reasslen := s₀.fragOffset + s₀.fragLen }) h8
        hlast with ⟨⟨res, hres, hsnd⟩, hcond⟩ | hbad
      · refine .inl ⟨⟨res, hres, hsnd, fun hfit => absurd ?_ hfit⟩, hcond⟩
        rw [hbuf, Nat.add_assoc] at hcond
        exact ⟨hcond.1, hcond.2.1⟩
      · exact .inr hbad
    · rw [if_neg hmore]
      by_cases hmod : s₀.fragLen % 8 ≠ 0
      · rw [if_pos hmod]
        refine .inl ⟨⟨_, rfl, hstop _ rfl, fun _ => ⟨rfl, rfl, rfl⟩⟩, fun h => absurd (.inr ⟨?_, hmod⟩) h⟩
        exact Bool.eq_true_of_not_eq_false hmore
      · have hnot : ¬s₀.FragRefused bufsize := by
          rintro (h | ⟨-, h⟩)
          · exact hend h
          · exact hmod h
        rw [if_neg hmod, storesInside_iff hext hnot (r := r) (t := r) rfl
          ⟨.inr, fun h => h.resolve_left hmore⟩ (if_neg hmore).symm]
        rcases store_cases (s := s) h8 (fun _ hl => hsound hon hl) with ⟨⟨res, hres, hsnd⟩, hcond⟩ | hbad
        · refine .inl ⟨⟨res, hres, hsnd, fun hfit => absurd ?_ hfit⟩, hcond⟩
          rw [hbuf, Nat.add_assoc] at hcond
          exact ⟨hcond.1, hcond.2.1⟩
        · exact .inr hbad

/-- A fragment of the packet that is being reassembled. -/
lemma fragment_cases (icmp6ErrorOutput : HeaderState → HeaderState) (hon : r.on = true)
    (hsound : Sound bufsize r) :
    (∃ res, r.fragment bufsize icmp6ErrorOutput s = .ok res ∧ Sound bufsize res.2.1 ∧
        (¬s.FragFits bufsize → res.2.1.on = false ∧ (∀ k, s.extBuf ≤ k → res.2.1.buf k = r.buf k) ∧
          res.2.1.bitmap = r.bitmap)) ∧
        (s.fragOffset = 0 → s.extBuf ≤ bufsize.toNat) ∧ StoresInside bufsize r s ∨
      (∃ e, r.fragment bufsize icmp6ErrorOutput s = .error e) ∧
        ¬((s.fragOffset = 0 → s.extBuf ≤ bufsize.toNat) ∧ StoresInside bufsize r s) := by
  have hfragment : r.fragment bufsize icmp6ErrorOutput s =
      (if s.fragOffset = 0 then r.firstFragment bufsize s else .ok (r, s)) >>= fun x =>
        behindHeaders bufsize icmp6ErrorOutput s x.1 x.2 := by
    unfold fragment
    by_cases hzero : s.fragOffset = 0
    · rw [if_pos hzero, if_pos hzero]
      rfl
    · rw [if_neg hzero, if_neg hzero]
      rfl
  rw [hfragment]
  by_cases hzero : s.fragOffset = 0
  · rw [if_pos hzero]
    -- the headers are copied from `uip_buf` with another next header, behind which nothing changes
    obtain ⟨s', hs'⟩ : ∃ s' : HeaderState,
        s' = { s with bytes := memcpy s.bytes s.nextHdr [s.bytes s.extBuf] } := ⟨_, rfl⟩
    have hext : s'.extLen = s.extLen := by rw [hs']
    have hbuf : s'.extBuf = s.extBuf := by
      unfold HeaderState.extBuf
      rw [hext]
    have hfirst : r.firstFragment bufsize s =
        copyHeaders bufsize { r with firstFrag := true } s' >>= fun r₁ => .ok (r₁, s') := by
      rw [hs']
      rfl
    rw [hfirst]
    rcases copyHeaders_cases bufsize { r with firstFrag := true } s' with
      ⟨hroom, heq⟩ | ⟨hroom, e, heq⟩
    · rw [hbuf] at hroom
      rw [heq, ok_bind, ok_bind]
      dsimp only
      rcases behindHeaders_cases icmp6ErrorOutput s (s := s')
        (r := { r with firstFrag := true, buf := memcpy r.buf 0 (copyBytes s'.bytes 0 s'.extBuf) })
        hext hon hsound with ⟨⟨res, hres, hsnd, hgive⟩, hstores⟩ | ⟨herr, hnot⟩
      · refine .inl ⟨⟨res, hres, hsnd, fun hfit => ?_⟩, fun _ => hroom, hstores⟩
        obtain ⟨hoff, hbufs, hbitmap⟩ := hgive hfit
        refine ⟨hoff, fun k hk => ?_, hbitmap⟩
        rw [hbufs]
        exact memcpy_headers (hbuf.trans_le hk)
      · exact .inr ⟨herr, fun h => hnot h.2⟩
    · rw [heq, error_bind, error_bind]
      rw [hbuf] at hroom
      exact .inr ⟨⟨e, rfl⟩, fun h => hroom (h.1 hzero)⟩
  · rw [if_neg hzero, ok_bind]
    dsimp only
    rcases behindHeaders_cases icmp6ErrorOutput s (s := s) rfl hon hsound with
      ⟨⟨res, hres, hsnd, hgive⟩, hstores⟩ | ⟨herr, hnot⟩
    · refine .inl ⟨⟨res, hres, hsnd, fun hfit => ?_⟩, fun h => absurd h hzero, hstores⟩
      obtain ⟨hoff, hbuf, hbitmap⟩ := hgive hfit
      exact ⟨hoff, fun k _ => by rw [hbuf], hbitmap⟩
    · exact .inr ⟨herr, fun h => hnot h.2⟩

/-! ## A call in any state -/

/-- The reassembly has begun with the fragment. -/
def begun (r : Reass) (s : HeaderState) : Reass :=
  { r with
    buf := memcpy r.buf 0 (copyBytes s.bytes 0 s.extBuf)
    timer := true
    on := true
    firstFrag := false
    lastFrag := false
    errorMsg := false
    id := s.fragId
    bitmap := fun _ => 0 }

lemma begun_addrs (r : Reass) (s : HeaderState) :
    copyBytes (begun r s).buf 8 32 = copyBytes s.bytes 8 32 := by
  refine copyBytes_congr fun k hk => ?_
  have hcopy : memcpy r.buf 0 (copyBytes s.bytes 0 s.extBuf) (0 + (8 + k)) = s.bytes (0 + (8 + k)) :=
    memcpy_copyBytes r.buf s.bytes 0 0 (by
    unfold HeaderState.extBuf uipIphLen
    omega)
  rwa [Nat.zero_add] at hcopy

lemma bit_zero (n : ℕ) : bit (fun _ => 0) n = false := by
  unfold bit
  simp

/-- The blocks in the bitmap and those of the fragment are those of the packet. -/
lemma completes_iff (hon : r.on = true) :
    Completes r s ↔ (s.more = false ∨ r.lastFrag = true) ∧
      Shows r.bitmap (r.partLen s).toNat s.fragOffset.toNat s.fragLen.toNat := by
  unfold Completes Covered Shows HeaderState.fragEnd
  rw [hon]
  simp only [true_and]

/-- When the reassembly begins, only the fragment itself can complete the packet. -/
lemma completes_begun (hoff : r.on = false) :
    Completes r s ↔ (s.more = false ∨ (begun r s).lastFrag = true) ∧
      Shows (begun r s).bitmap ((begun r s).partLen s).toNat s.fragOffset.toNat s.fragLen.toNat := by
  have hpart : (begun r s).partLen s = r.partLen s := rfl
  unfold Completes Covered Shows HeaderState.fragEnd
  rw [hoff, hpart]
  have hbit : ∀ n, bit (begun r s).bitmap n = false := bit_zero
  simp only [Bool.false_eq_true, false_and, false_or, or_false, hbit]
  rw [show (begun r s).lastFrag = false from rfl]
  simp only [Bool.false_eq_true, or_false]

lemma keepsInside_of_on (hon : r.on = true) (hmatch : Matches r s) :
    KeepsInside bufsize r s ↔
      (s.fragOffset = 0 → s.extBuf ≤ bufsize.toNat) ∧ StoresInside bufsize r s := by
  have hne : ¬r.on = false := by
    rw [hon]
    exact Bool.noConfusion
  constructor
  · intro h
    refine ⟨fun hzero => h.headers (.inr ⟨hmatch, hzero⟩), fun hnot => ⟨h.fits hmatch hnot, ?_⟩⟩
    exact fun hlast hshows => h.whole hmatch hnot ((completes_iff hon).mpr ⟨hlast, hshows⟩)
  · rintro ⟨hheaders, hstores⟩
    refine ⟨fun h => hheaders (h.resolve_left hne).2, fun _ hnot => (hstores hnot).1, ?_⟩
    intro _ hnot hcompletes
    obtain ⟨hlast, hshows⟩ := (completes_iff hon).mp hcompletes
    exact (hstores hnot).2 hlast hshows

lemma keepsInside_of_off (hoff : r.on = false) :
    KeepsInside bufsize r s ↔ s.extBuf ≤ bufsize.toNat ∧ StoresInside bufsize (begun r s) s := by
  constructor
  · intro h
    refine ⟨h.headers (.inl hoff), fun hnot => ⟨h.fits (.inl hoff) hnot, ?_⟩⟩
    exact fun hlast hshows => h.whole (.inl hoff) hnot ((completes_begun hoff).mpr ⟨hlast, hshows⟩)
  · rintro ⟨hheaders, hstores⟩
    refine ⟨fun _ => hheaders, fun _ hnot => (hstores hnot).1, fun _ hnot hcompletes => ?_⟩
    obtain ⟨hlast, hshows⟩ := (completes_begun hoff).mp hcompletes
    exact (hstores hnot).2 hlast hshows

/-- A call keeps within the arrays exactly if its fragment is as it has to be; and what the next calls rely on
stays. -/
lemma reass_cases (icmp6ErrorOutput : HeaderState → HeaderState) (hsound : Sound bufsize r) :
    (StaysInside bufsize r s icmp6ErrorOutput ↔ KeepsInside bufsize r s) ∧
      ∀ res, r.reass bufsize icmp6ErrorOutput s = .ok res → Sound bufsize res.2.1 := by
  unfold StaysInside
  by_cases hon : r.on = false
  · rw [keepsInside_of_off hon]
    have hmatch : copyBytes (begun r s).buf 8 32 = copyBytes s.bytes 8 32 ∧ s.fragId = (begun r s).id :=
      ⟨begun_addrs r s, rfl⟩
    have hbegin : r.reass bufsize icmp6ErrorOutput s = (copyHeaders bufsize r s >>= fun r₁ =>
        .ok { r₁ with
          timer := true, on := true, firstFrag := false, lastFrag := false, errorMsg := false
          id := s.fragId, bitmap := fun _ => 0 }) >>= fun r₁ : Reass =>
        if copyBytes r₁.buf 8 32 = copyBytes s.bytes 8 32 ∧ s.fragId = r₁.id then
          r₁.fragment bufsize icmp6ErrorOutput s
        else .ok (0, r₁, s) := by
      unfold reass start
      rw [if_pos hon]
    rcases copyHeaders_cases bufsize r s with ⟨hroom, heq⟩ | ⟨hroom, e, heq⟩
    · have hfragment : r.reass bufsize icmp6ErrorOutput s =
          (begun r s).fragment bufsize icmp6ErrorOutput s := by
        rw [hbegin, heq, ok_bind, ok_bind]
        exact if_pos hmatch
      rw [hfragment]
      rcases fragment_cases icmp6ErrorOutput (r := begun r s) (s := s) rfl
        (fun _ h => absurd h Bool.false_ne_true) with
        ⟨⟨⟨len, r', s'⟩, hres, hsnd, hgive⟩, -, hstores⟩ | ⟨⟨e, herr⟩, hnot⟩
      · refine ⟨iff_of_true ⟨len, r', s', hres, fun _ hfit => ?_⟩ ⟨hroom, hstores⟩, fun res h => ?_⟩
        · obtain ⟨hoff, hbuf, hbitmap⟩ := hgive hfit
          refine ⟨hoff, fun k hk => (hbuf k hk).trans ?_, fun n hn => ?_⟩
          · exact memcpy_headers hk
          · rw [hbitmap] at hn
            exact absurd ((bit_zero n).symm.trans hn) Bool.false_ne_true
        · rw [hres] at h
          cases h
          exact hsnd
      · refine ⟨iff_of_false ?_ fun h => hnot ⟨fun _ => hroom, h.2⟩, fun res h => ?_⟩
        · rintro ⟨len, r', s', hres, -⟩
          rw [herr] at hres
          cases hres
        · rw [herr] at h
          cases h
    · have herr : r.reass bufsize icmp6ErrorOutput s = .error e := by
        rw [hbegin, heq]
        rfl
      refine ⟨iff_of_false ?_ fun h => hroom h.1, fun res h => ?_⟩
      · rintro ⟨len, r', s', hres, -⟩
        rw [herr] at hres
        cases hres
      · rw [herr] at h
        cases h
  · have hon' : r.on = true := Bool.eq_true_of_not_eq_false hon
    by_cases hmatch : copyBytes r.buf 8 32 = copyBytes s.bytes 8 32 ∧ s.fragId = r.id
    · have heq : r.reass bufsize icmp6ErrorOutput s = r.fragment bufsize icmp6ErrorOutput s := by
        unfold reass
        rw [if_neg hon, ok_bind]
        exact if_pos hmatch
      rw [heq, keepsInside_of_on hon' (.inr hmatch)]
      rcases fragment_cases icmp6ErrorOutput (s := s) hon' hsound with
        ⟨⟨⟨len, r', s'⟩, hres, hsnd, hgive⟩, hcond⟩ | ⟨⟨e, herr⟩, hnot⟩
      · refine ⟨iff_of_true ⟨len, r', s', hres, fun _ hfit => ?_⟩ hcond, fun res h => ?_⟩
        · obtain ⟨hoff, hbuf, hbitmap⟩ := hgive hfit
          refine ⟨hoff, hbuf, fun n hn => ?_⟩
          rwa [hbitmap] at hn
        · rw [hres] at h
          cases h
          exact hsnd
      · refine ⟨iff_of_false ?_ hnot, fun res h => ?_⟩
        · rintro ⟨len, r', s', hres, -⟩
          rw [herr] at hres
          cases hres
        · rw [herr] at h
          cases h
    · have heq : r.reass bufsize icmp6ErrorOutput s = .ok (0, r, s) := by
        unfold reass
        rw [if_neg hon, ok_bind]
        exact if_neg hmatch
      have hnot : ¬Matches r s := fun h => hmatch (h.resolve_left hon)
      refine ⟨iff_of_true ⟨0, r, s, heq, fun h => absurd h hnot⟩ ?_, fun res h => ?_⟩
      · refine ⟨fun h => ?_, fun h => absurd h hnot, fun h => absurd h hnot⟩
        rcases h with h | h
        · exact absurd h hon
        · exact absurd h.1 hnot
      · rw [heq] at h
        cases h
        exact hsound

/-! ## Runs -/

end Reass

/-- A fragment is handed to `uip_reass`, or the reassembly timer runs out and calls `uip_reass_over`. -/
inductive ReassStep
  | fragment (s : HeaderState)
  | timeout

namespace Reass
variable (bufsize : UInt16) (icmp6ErrorOutput : HeaderState → HeaderState)

/-- A step of the reassembly. -/
def step (r : Reass) : ReassStep → Except ReassFault Reass
  | .fragment s => (r.reass bufsize icmp6ErrorOutput s).map fun res => res.2.1
  | .timeout => .ok r.stop

variable {bufsize icmp6ErrorOutput}

lemma sound_step {r r' : Reass} (h : Sound bufsize r) {e : ReassStep}
    (hstep : r.step bufsize icmp6ErrorOutput e = .ok r') : Sound bufsize r' := by
  cases e with
  | fragment s =>
    obtain ⟨res, hres, rfl⟩ := map_eq_ok.mp hstep
    exact (reass_cases icmp6ErrorOutput h).2 res hres
  | timeout =>
    cases hstep
    exact fun hon => absurd hon Bool.false_ne_true

lemma sound_run {r r' : Reass} (h : Sound bufsize r) {es : List ReassStep}
    (hrun : runEvents (step bufsize icmp6ErrorOutput) r es = .ok r') : Sound bufsize r' := by
  induction es generalizing r with
  | nil =>
    cases hrun
    exact h
  | cons e es ih =>
    unfold runEvents at hrun
    cases hstep : r.step bufsize icmp6ErrorOutput e with
    | error f =>
      rw [hstep] at hrun
      cases hrun
    | ok r₁ =>
      rw [hstep] at hrun
      exact ih (sound_step h hstep) hrun

/-- A run is extended by a step. -/
lemma runEvents_snoc {σ ε φ : Type*} {f : σ → ε → Except φ σ} {t t' : σ} {es : List ε}
    (h : runEvents f t es = .ok t') (e : ε) : runEvents f t (es ++ [e]) = f t' e := by
  induction es generalizing t with
  | nil =>
    cases h
    rw [List.nil_append]
    unfold runEvents
    cases f t' e <;> rfl
  | cons a es ih =>
    rw [List.cons_append]
    unfold runEvents at h ⊢
    cases hstep : f t a with
    | error e =>
      rw [hstep] at h
      cases h
    | ok t₁ =>
      rw [hstep] at h
      exact ih h

/-- In every run from an idle buffer, all calls keep within the arrays if and only if all fragments are, in the
state in which they come, as they have to be. -/
theorem staysInside_iff (bufsize : UInt16) (icmp6ErrorOutput : HeaderState → HeaderState) {r : Reass}
    (hidle : r.on = false) (es : List ReassStep) :
    (∀ pre s, pre ++ [.fragment s] <+: es →
        ∃ r', runEvents (step bufsize icmp6ErrorOutput) r pre = .ok r' ∧
          StaysInside bufsize r' s icmp6ErrorOutput) ↔
      ∀ pre s, pre ++ [.fragment s] <+: es →
        ∀ r', runEvents (step bufsize icmp6ErrorOutput) r pre = .ok r' → KeepsInside bufsize r' s := by
  have hsound : Sound bufsize r := fun hon => by
    rw [hidle] at hon
    cases hon
  constructor
  · intro h pre s hpre r' hrun
    obtain ⟨r₁, hrun₁, hstays⟩ := h pre s hpre
    rw [hrun] at hrun₁
    cases hrun₁
    exact (reass_cases icmp6ErrorOutput (sound_run hsound hrun)).1.mp hstays
  · intro h
    -- the calls before have kept within the arrays, by induction on their number
    have hruns : ∀ pre : List ReassStep, pre <+: es →
        ∃ r', runEvents (step bufsize icmp6ErrorOutput) r pre = .ok r' := by
      intro pre
      induction pre using List.reverseRecOn with
      | nil => exact fun _ => ⟨r, rfl⟩
      | append_singleton pre e ih =>
        intro hpre
        obtain ⟨r', hrun⟩ := ih ((List.prefix_append pre [e]).trans hpre)
        rw [runEvents_snoc hrun]
        cases e with
        | timeout => exact ⟨_, rfl⟩
        | fragment s =>
          obtain ⟨len, r₁, s₁, hres, -⟩ :=
            (reass_cases icmp6ErrorOutput (sound_run hsound hrun)).1.mpr (h pre s hpre r' hrun)
          exact ⟨r₁, map_eq_ok.mpr ⟨_, hres, rfl⟩⟩
    intro pre s hpre
    obtain ⟨r', hrun⟩ := hruns pre ((List.prefix_append pre _).trans hpre)
    exact ⟨r', hrun, (reass_cases icmp6ErrorOutput (sound_run hsound hrun)).1.mpr (h pre s hpre r' hrun)⟩

/-- Nothing is being reassembled. -/
def idle : Reass where
  on := false
  buf := fun _ => 0
  bitmap := fun _ => 0
  reasslen := 0
  firstFrag := false
  lastFrag := false
  errorMsg := false
  id := []
  timer := false

/-- The last fragment of a packet without extension headers, 200 bytes from the offset 40 on. -/
def fragmentBehind : HeaderState where
  bytes := fun k => if k = 43 then 40 else 0
  len := 248
  nextHdr := 6
  extLen := 0
  bitmap := {}
  chainEnd := 40

/-- In a buffer of 240 bytes the fragment ends where the fragmentable part may end, and not behind the headers. -/
theorem not_staysInside : ¬∀ (r : Reass) (es : List ReassStep), r.on = false →
    ∀ pre s, pre ++ [.fragment s] <+: es →
      ∃ r', runEvents (step 240 fun s => s) r pre = .ok r' ∧ StaysInside 240 r' s fun s => s := by
  intro h
  obtain ⟨r', hrun, hstays⟩ := h idle [.fragment fragmentBehind] rfl [] fragmentBehind (List.prefix_refl _)
  cases hrun
  have hkeeps := (reass_cases (fun s => s) fun hon => absurd hon Bool.false_ne_true).1.mp hstays
  exact absurd (hkeeps.fits (.inl rfl) (by decide)) (by decide)

/-- A fragment that fits behind the headers. -/
theorem staysInside_iff_idle :
    ∃ r', runEvents (step 480 fun s => s) idle [] = .ok r' ∧ StaysInside 480 r' fragmentBehind fun s => s := by
  refine (staysInside_iff 480 (fun s => s) (r := idle) rfl [.fragment fragmentBehind]).mpr ?_ [] fragmentBehind
    (List.prefix_refl _)
  intro pre s hpre r' hrun
  cases pre with
  | nil =>
    cases hrun
    obtain ⟨hs, -⟩ := List.cons_prefix_cons.mp hpre
    cases hs
    exact ⟨fun _ => by decide, fun _ _ => by decide, fun _ _ _ => by decide⟩
  | cons e pre =>
    have hlen := hpre.length_le
    simp at hlen

end Reass
end Contiki

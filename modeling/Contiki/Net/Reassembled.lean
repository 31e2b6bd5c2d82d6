import Contiki.Lib.Tiles
import Contiki.Net.ReassBitmap
import Contiki.Sicslowpan.Packets

/-!
# Packets put together from their fragments

A `CutPacket` is a packet that fits the buffer, with a way to cut its fragmentable part.
`CutPacket.Reassembles` says that `uip_reass` gives the packet back when all of its fragments have come,
in any order and any number of times.  `Holding` is what is known of the reassembly buffer in between.

* `CutPacket.fragment_eq` — a fragment of the packet reaches the copy into the buffer.
* `CutPacket.full_iff` — the bitmap is full when every fragment has come.
* `CutPacket.reassembles_iff` — the packet is reassembled unless its end falls behind the bitmap.
-/

namespace Contiki
open Sicslowpan

/-- A packet, and the offset and the length of the fragments that its fragmentable part is cut into. -/
structure CutPacket (bufsize : UInt16) where
  bytes : ℕ → UInt8
  extLen : UInt8
  /-- The place of the last next header field of the unfragmentable part. -/
  nextHdr : ℕ
  /-- The length of the fragmentable part. -/
  size : ℕ
  id : List UInt8
  frags : List (ℕ × ℕ)
  nextHdr_mem : nextHdr = 6 ∨ 40 ≤ nextHdr
  nextHdr_lt : nextHdr < 40 + extLen.toNat
  size_pos : 0 < size
  fits : 40 + extLen.toNat + size ≤ bufsize.toNat
  length : wordAt bytes 4 = UInt16.ofNat (extLen.toNat + size)
  cut : Tiles Prod.fst Prod.snd 0 size frags
  aligned : ∀ f ∈ frags, 8 ∣ f.1
  /-- A fragment has to be received into a buffer of the same size. -/
  received : ∀ f ∈ frags, 48 + extLen.toNat + f.2 ≤ bufsize.toNat
  id_length : id.length = 4

namespace CutPacket
variable {bufsize : UInt16} (pkt : CutPacket bufsize)

/-- The place of the fragmentable part. -/
def base : ℕ := 40 + pkt.extLen.toNat

/-- The loop over the headers has come to the fragment header of the fragment `f` of the packet. -/
structure IsFragment (f : ℕ × ℕ) (s : HeaderState) : Prop where
  extLen : s.extLen = pkt.extLen
  nextHdr : s.nextHdr = pkt.nextHdr
  len : s.len.toNat = pkt.base + 8 + f.2
  headers : ∀ k < pkt.base, k ≠ 4 → k ≠ 5 → k ≠ pkt.nextHdr → s.bytes k = pkt.bytes k
  next : s.bytes pkt.base = pkt.bytes pkt.nextHdr
  offset : s.fragOffset.toNat = f.1
  more : s.more = decide (f.1 + f.2 < pkt.size)
  id : s.fragId = pkt.id
  data : ∀ k < f.2, s.bytes (pkt.base + 8 + k) = pkt.bytes (pkt.base + f.1 + k)

/-- A fragment comes: the reassembly is over when all have come. -/
def arrive (seen : List (ℕ × ℕ)) (f : ℕ × ℕ) : List (ℕ × ℕ) :=
  if ∀ g ∈ pkt.frags, g ∈ f :: seen then [] else f :: seen

/-- The fragments that have come since the reassembly began last. -/
def sinceStart (arrivals : List (ℕ × ℕ)) : List (ℕ × ℕ) := arrivals.foldl pkt.arrive []

/-- The packet stands in `uip_buf`. -/
structure IsWhole (len : UInt16) (s : HeaderState) : Prop where
  len : len.toNat = pkt.base + pkt.size
  bytes : ∀ k < pkt.base + pkt.size, s.bytes k = pkt.bytes k

end CutPacket

/-- The calls of `uip_reass` one after another. -/
def Reass.run (bufsize : UInt16) (icmp6ErrorOutput : HeaderState → HeaderState) (r : Reass) :
    List HeaderState → Except ReassFault Reass
  | [] => .ok r
  | s :: ss => do
    let (_, r, _) ← r.reass bufsize icmp6ErrorOutput s
    r.run bufsize icmp6ErrorOutput ss

namespace CutPacket
variable {bufsize : UInt16} (pkt : CutPacket bufsize) (icmp6ErrorOutput : HeaderState → HeaderState)

/-- On an idle buffer, whatever fragments of the packet have come: the next one completes the packet
when every fragment has come since the start, and then the packet is the original one. -/
def Reassembles : Prop :=
  ∀ (r : Reass) (arrivals : List ((ℕ × ℕ) × HeaderState)) (f : ℕ × ℕ) (s : HeaderState),
    r.on = false → (∀ a ∈ arrivals, a.1 ∈ pkt.frags ∧ pkt.IsFragment a.1 a.2) →
    f ∈ pkt.frags → pkt.IsFragment f s →
    ∃ r₁ len r₂ s', r.run bufsize icmp6ErrorOutput (arrivals.map Prod.snd) = .ok r₁ ∧
      r₁.reass bufsize icmp6ErrorOutput s = .ok (len, r₂, s') ∧
      (len ≠ 0 ↔ ∀ g ∈ pkt.frags, g ∈ f :: pkt.sinceStart (arrivals.map Prod.fst)) ∧
      (len ≠ 0 → r₂.errorMsg = false ∧ pkt.IsWhole len s')

variable {pkt icmp6ErrorOutput} {f : ℕ × ℕ} {seen stored : List (ℕ × ℕ)} {r : Reass} {s : HeaderState}

/-! ## The cut -/

lemma mem_le (hf : f ∈ pkt.frags) : 0 < f.2 ∧ f.1 + f.2 ≤ pkt.size := (pkt.cut.mem hf).2

/-- Another fragment begins where one ends that is not the last. -/
lemma aligned_end (hf : f ∈ pkt.frags) (hlast : f.1 + f.2 ≠ pkt.size) : 8 ∣ f.1 + f.2 := by
  have hle := (mem_le hf).2
  obtain ⟨g, hg, hlow, hhigh⟩ := pkt.cut.exists_mem (k := f.1 + f.2) (by omega)
  have hne : f ≠ g := by
    rintro rfl
    omega
  have hapart := pkt.cut.apart hf hg hne
  unfold Apart at hapart
  have heq : g.1 = f.1 + f.2 := by omega
  rw [← heq]
  exact pkt.aligned g hg

lemma base_le : pkt.base + pkt.size ≤ bufsize.toNat := pkt.fits

/-- Every fragment has come when one that is the last has, and the blocks of the packet are covered. -/
lemma all_seen_iff (hseen : ∀ g ∈ seen, g ∈ pkt.frags) :
    (∀ g ∈ pkt.frags, g ∈ seen) ↔ (∃ g ∈ seen, g.1 + g.2 = pkt.size) ∧
      ∀ n < pkt.size / 8, ∃ g ∈ seen, g.1 / 8 ≤ n ∧ n < (g.1 + g.2) / 8 := by
  have hpos := pkt.size_pos
  constructor
  · intro hall
    constructor
    · obtain ⟨g, hg, hlow, hhigh⟩ := pkt.cut.exists_mem (k := pkt.size - 1) (by omega)
      have hle := (mem_le hg).2
      exact ⟨g, hall g hg, by omega⟩
    · intro n hn
      obtain ⟨g, hg, hlow, hhigh⟩ := pkt.cut.exists_mem (k := 8 * n) (by omega)
      refine ⟨g, hall g hg, by omega, ?_⟩
      by_cases hlast : g.1 + g.2 = pkt.size
      · omega
      · have hend := aligned_end hg hlast
        omega
  · rintro ⟨⟨l, hl, hend⟩, hblocks⟩ g hg
    have hpos := mem_le hg
    by_cases hlast : g.1 + g.2 = pkt.size
    · have hl' := mem_le (hseen l hl)
      have heq : g = l := pkt.cut.eq_of_mem hg (hseen l hl) (k := pkt.size - 1) (by omega) (by omega)
      rw [heq]
      exact hl
    · have hstart := pkt.aligned g hg
      have hg8 := aligned_end hg hlast
      obtain ⟨x, hx, hlow, hhigh⟩ := hblocks (g.1 / 8) (by omega)
      have hxstart := pkt.aligned x (hseen x hx)
      have heq : g = x := pkt.cut.eq_of_mem hg (hseen x hx) (k := g.1) (by omega) (by omega)
      rw [heq]
      exact hx

/-! ## Bytes of the buffer -/

lemma IsFragment.extBuf_eq (hs : pkt.IsFragment f s) : s.extBuf = pkt.base := by
  unfold HeaderState.extBuf base uipIphLen
  rw [hs.extLen]

lemma IsFragment.fragLen_eq (hs : pkt.IsFragment f s) : s.fragLen.toNat = f.2 := by
  have hlen := hs.len
  have hlt := s.len.toNat_lt
  unfold base at hlen
  unfold HeaderState.fragLen
  rw [hs.extLen]
  have hext : pkt.extLen.toUInt16.toNat = pkt.extLen.toNat := UInt8.toNat_toUInt16 _
  have h1 : (s.len - pkt.extLen.toUInt16).toNat = s.len.toNat - pkt.extLen.toNat := by
    rw [UInt16.toNat_sub_of_le _ _ (UInt16.le_iff_toNat_le.mpr (by omega)), hext]
  have h2 : (s.len - pkt.extLen.toUInt16 - 40).toNat = s.len.toNat - pkt.extLen.toNat - 40 := by
    have hle : (40 : UInt16).toNat ≤ (s.len - pkt.extLen.toUInt16).toNat := by
      show 40 ≤ _
      omega
    rw [UInt16.toNat_sub_of_le _ _ (UInt16.le_iff_toNat_le.mpr hle), h1]
    rfl
  have hle : (8 : UInt16).toNat ≤ (s.len - pkt.extLen.toUInt16 - 40).toNat := by
    show 8 ≤ _
    omega
  rw [UInt16.toNat_sub_of_le _ _ (UInt16.le_iff_toNat_le.mpr hle), h2]
  show s.len.toNat - pkt.extLen.toNat - 40 - 8 = f.2
  omega

/-! ## The reassembly of the packet -/

variable (pkt) in
/-- The fragments in `seen` have come, and the data of those in `stored` have been copied. -/
structure Holding (seen stored : List (ℕ × ℕ)) (r : Reass) : Prop where
  on : r.on = true
  addrs : copyBytes r.buf 8 32 = copyBytes pkt.bytes 8 32
  id : r.id = pkt.id
  noError : r.errorMsg = false
  bits : ∀ n, Reass.bit r.bitmap n = true ↔ ∃ g ∈ stored, g.1 / 8 ≤ n ∧ n < (g.1 + g.2) / 8
  last : r.lastFrag = true ↔ ∃ g ∈ seen, g.1 + g.2 = pkt.size
  reasslen : r.lastFrag = true → r.reasslen.toNat = pkt.size
  data : ∀ g ∈ stored, ∀ k < g.2, r.buf (pkt.base + g.1 + k) = pkt.bytes (pkt.base + g.1 + k)
  headers : (∃ g ∈ seen, g.1 = 0) → ∀ k < pkt.base, k ≠ 4 → k ≠ 5 → r.buf k = pkt.bytes k

/-- The addresses are those of the packet where its headers are, up to two fields. -/
lemma addrs_of_headers {b : ℕ → UInt8}
    (h : ∀ k < pkt.base, k ≠ 4 → k ≠ 5 → k ≠ pkt.nextHdr → b k = pkt.bytes k) :
    copyBytes b 8 32 = copyBytes pkt.bytes 8 32 := by
  refine copyBytes_congr fun k hk => ?_
  have hnext := pkt.nextHdr_mem
  exact h (8 + k) (by unfold base; omega) (by omega) (by omega) (by omega)

lemma copyHeaders_eq (hext : s.extBuf = pkt.base) (r : Reass) :
    r.copyHeaders bufsize s =
      .ok { r with buf := memcpy r.buf 0 (copyBytes s.bytes 0 pkt.base) } := by
  have hle := pkt.base_le
  unfold Reass.copyHeaders
  rw [hext, if_pos (by omega)]

lemma headers_copied {b b' : ℕ → UInt8} {k : ℕ} (hk : k < pkt.base) :
    memcpy b 0 (copyBytes b' 0 pkt.base) k = b' k := by
  have hcopy := memcpy_copyBytes b b' 0 0 hk
  rwa [Nat.zero_add] at hcopy

/-- The reassembly begins with no fragment. -/
lemma start_eq (hs : pkt.IsFragment f s) (r : Reass) :
    ∃ r', r.start bufsize s = .ok r' ∧ pkt.Holding [] [] r' := by
  unfold Reass.start
  rw [copyHeaders_eq hs.extBuf_eq, ok_bind]
  refine ⟨_, rfl, ?_⟩
  exact {
    on := rfl
    addrs := addrs_of_headers fun k hk h4 h5 hnext =>
      (headers_copied hk).trans (hs.headers k hk h4 h5 hnext)
    id := hs.id
    noError := rfl
    bits := fun n => by simp [Reass.bit]
    last := by simp
    reasslen := nofun
    data := nofun
    headers := by simp }

variable (pkt) in
/-- The data of a fragment are in `uip_buf` behind the headers. -/
structure Carries (f : ℕ × ℕ) (s : HeaderState) : Prop where
  extLen : s.extLen = pkt.extLen
  data : ∀ k < f.2, s.bytes (pkt.base + 8 + k) = pkt.bytes (pkt.base + f.1 + k)

lemma Carries.extBuf_eq (hs : pkt.Carries f s) : s.extBuf = pkt.base := by
  unfold HeaderState.extBuf base uipIphLen
  rw [hs.extLen]

/-- The first fragment brings the headers. -/
lemma firstFragment_eq (hs : pkt.IsFragment f s) (r : Reass) :
    ∃ r' s', r.firstFragment bufsize s = .ok (r', s') ∧ pkt.Carries f s' ∧
      r' = { r with firstFrag := true, buf := r'.buf } ∧
      (∀ k, pkt.base ≤ k → r'.buf k = r.buf k) ∧
      ∀ k < pkt.base, k ≠ 4 → k ≠ 5 → r'.buf k = pkt.bytes k := by
  have hlt := pkt.nextHdr_lt
  have hnext : pkt.nextHdr < pkt.base := hlt
  unfold Reass.firstFragment
  dsimp only
  rw [copyHeaders_eq (by exact hs.extBuf_eq), ok_bind]
  refine ⟨_, _, rfl, ⟨hs.extLen, fun k hk => ?_⟩, rfl, fun k hk => ?_, fun k hk h4 h5 => ?_⟩
  · rw [← hs.data k hk]
    exact memcpy_of_notMem (.inr (by rw [hs.nextHdr, List.length_singleton]; omega))
  · dsimp only
    rw [memcpy_of_notMem]
    right
    rwa [length_copyBytes, Nat.zero_add]
  · refine (headers_copied hk).trans ?_
    by_cases hkn : k = pkt.nextHdr
    · have hfirst := (holds_memcpy s.bytes s.nextHdr [s.bytes s.extBuf]).1
      rw [hkn, ← hs.next, ← hs.extBuf_eq, ← hs.nextHdr]
      exact hfirst
    · refine (memcpy_of_notMem ?_).trans (hs.headers k hk h4 h5 hkn)
      rw [hs.nextHdr, List.length_singleton]
      omega

/-- The headers are there when the first fragment has come. -/
lemma prepare_eq (hr : pkt.Holding seen stored r) (hs : pkt.IsFragment f s) :
    ∃ r' s',
      (∀ next : Reass × HeaderState → Except ReassFault (UInt16 × Reass × HeaderState),
        (if s.fragOffset = 0 then r.firstFragment bufsize s >>= next else .ok (r, s) >>= next) =
          next (r', s')) ∧
      pkt.Carries f s' ∧ r' = { r with firstFrag := r'.firstFrag, buf := r'.buf } ∧
      (∀ k, pkt.base ≤ k → r'.buf k = r.buf k) ∧
      copyBytes r'.buf 8 32 = copyBytes pkt.bytes 8 32 ∧
      ((∃ g ∈ f :: seen, g.1 = 0) → ∀ k < pkt.base, k ≠ 4 → k ≠ 5 → r'.buf k = pkt.bytes k) := by
  by_cases hzero : s.fragOffset = 0
  · obtain ⟨r', s', heq, hcarries, hr', hhigh, hheaders⟩ := firstFragment_eq hs r
    refine ⟨r', s', fun next => ?_, hcarries, ?_, hhigh, ?_, fun _ => hheaders⟩
    · rw [if_pos hzero, heq, ok_bind]
    · rw [hr']
    · exact addrs_of_headers fun k hk h4 h5 _ => hheaders k hk h4 h5
  · refine ⟨r, s, fun next => if_neg hzero, ⟨hs.extLen, hs.data⟩, rfl, fun _ _ => rfl, hr.addrs,
      fun ⟨g, hg, hg0⟩ => ?_⟩
    have hne : f.1 ≠ 0 := fun h0 => hzero (UInt16.toNat_inj.mp (hs.offset.trans h0))
    rcases List.mem_cons.mp hg with rfl | hg
    · exact absurd hg0 hne
    · exact hr.headers ⟨g, hg, hg0⟩

/-- **A fragment of the packet**: it is copied into the buffer. -/
lemma fragment_eq (hr : pkt.Holding seen stored r) (hf : f ∈ pkt.frags) (hs : pkt.IsFragment f s) :
    ∃ r' s', r.fragment bufsize icmp6ErrorOutput s = r'.store bufsize s' f.1 f.2 ∧
      pkt.Holding (f :: seen) stored r' ∧ pkt.Carries f s' := by
  have hle := (mem_le hf).2
  have hfits := pkt.base_le
  have hlt := bufsize.toNat_lt
  obtain ⟨r', s', heq, hcarries, hr', hhigh, haddrs, hheaders⟩ := prepare_eq hr hs
  have hdata : ∀ g ∈ stored, ∀ k < g.2,
      r'.buf (pkt.base + g.1 + k) = pkt.bytes (pkt.base + g.1 + k) := fun g hg k hk =>
    (hhigh _ (by omega)).trans (hr.data g hg k hk)
  unfold Reass.fragment
  dsimp only
  rw [heq, hs.offset, hs.fragLen_eq, if_neg (by omega)]
  dsimp only
  by_cases hlast : f.1 + f.2 = pkt.size
  · have hmore : s.more = false := by
      rw [hs.more, decide_eq_false]
      omega
    rw [if_pos hmore]
    refine ⟨_, s', rfl, ?_, hcarries⟩
    have hlen : (s.fragOffset + s.fragLen).toNat = pkt.size := by
      rw [UInt16.toNat_add, hs.offset, hs.fragLen_eq, hlast]
      exact Nat.mod_eq_of_lt (by omega)
    exact {
      on := by rw [hr']; exact hr.on
      addrs := haddrs
      id := by rw [hr']; exact hr.id
      noError := by rw [hr']; exact hr.noError
      bits := by rw [hr']; exact hr.bits
      last := iff_of_true rfl ⟨f, List.mem_cons_self, hlast⟩
      reasslen := fun _ => hlen
      data := hdata
      headers := hheaders }
  · have hmore : s.more = true := by
      rw [hs.more, decide_eq_true_eq]
      omega
    have hmod : ¬ s.fragLen % 8 ≠ 0 := by
      have hend := aligned_end hf hlast
      have hstart := pkt.aligned f hf
      refine not_not_intro (UInt16.toNat_inj.mp ?_)
      rw [UInt16.toNat_mod, hs.fragLen_eq]
      show f.2 % 8 = 0
      omega
    rw [if_neg (by rw [hmore]; nofun), if_neg hmod]
    refine ⟨r', s', rfl, ?_, hcarries⟩
    have hlast' : r'.lastFrag = r.lastFrag := by rw [hr']
    have hlen' : r'.reasslen = r.reasslen := by rw [hr']
    exact {
      on := by rw [hr']; exact hr.on
      addrs := haddrs
      id := by rw [hr']; exact hr.id
      noError := by rw [hr']; exact hr.noError
      bits := by rw [hr']; exact hr.bits
      last := by
        rw [hlast', hr.last]
        simp [hlast]
      reasslen := by rw [hlast', hlen']; exact hr.reasslen
      data := hdata
      headers := hheaders }

/-- The copy of a fragment and the update of the bitmap. -/
lemma stored_holding {bitmap : ℕ → BitVec 8} (hr : pkt.Holding (f :: seen) stored r)
    (hs : pkt.Carries f s)
    (hbits : ∀ n, Reass.bit bitmap n =
      (Reass.bit r.bitmap n || decide (f.1 / 8 ≤ n ∧ n < (f.1 + f.2) / 8))) :
    pkt.Holding (f :: seen) (f :: stored)
      { r with
        buf := memcpy r.buf (pkt.base + f.1) (copyBytes s.bytes (pkt.base + 8) f.2)
        bitmap } := by
  have hhigh : ∀ k < pkt.base,
      memcpy r.buf (pkt.base + f.1) (copyBytes s.bytes (pkt.base + 8) f.2) k = r.buf k :=
    fun k hk => memcpy_of_notMem (.inl (by omega))
  have hbase : 40 ≤ pkt.base := Nat.le_add_right _ _
  exact {
    on := hr.on
    addrs := by
      rw [← hr.addrs]
      exact copyBytes_congr fun k hk => hhigh _ (by omega)
    id := hr.id
    noError := hr.noError
    bits := fun n => by
      rw [hbits, Bool.or_eq_true, hr.bits, decide_eq_true_eq, or_comm]
      simp only [List.mem_cons, exists_eq_or_imp]
    last := hr.last
    reasslen := hr.reasslen
    data := by
      intro g hg k hk
      by_cases hin : f.1 ≤ g.1 + k ∧ g.1 + k < f.1 + f.2
      · obtain ⟨j, hj⟩ : ∃ j, g.1 + k = f.1 + j := ⟨g.1 + k - f.1, by omega⟩
        have hcopy := memcpy_copyBytes r.buf s.bytes (pkt.base + f.1) (pkt.base + 8)
          (show j < f.2 by omega)
        rw [show pkt.base + g.1 + k = pkt.base + f.1 + j by omega, ← hs.data j (by omega), ← hcopy]
      · refine (memcpy_of_notMem ?_).trans ?_
        · rw [length_copyBytes]
          omega
        · rcases List.mem_cons.mp hg with rfl | hg
          · omega
          · exact hr.data g hg k hk
    headers := fun h0 k hk h4 h5 => (hhigh k hk).trans (hr.headers h0 k hk h4 h5) }

/-- The check of the bitmap: with the last fragment, it is full when every fragment has come. -/
lemma full_iff (hsize : pkt.size / 64 < bufsize.toNat / 64) (hseen : ∀ g ∈ seen, g ∈ pkt.frags)
    (hr : pkt.Holding seen seen r) (hlast : r.lastFrag = true) :
    ∃ b, Reass.full (bufsize.toNat / 64) r.bitmap r.reasslen.toNat = .ok b ∧
      (b = true ↔ ∀ g ∈ pkt.frags, g ∈ seen) := by
  rw [hr.reasslen hlast]
  obtain ⟨b, heq, hb⟩ := @Reass.full_ok (bufsize.toNat / 64) r.bitmap pkt.size hsize
  have hbounds : ∀ n, Reass.bit r.bitmap n = true → n < pkt.size / 8 := by
    intro n hn
    obtain ⟨g, hg, -, hhigh⟩ := (hr.bits n).mp hn
    have hle := (mem_le (hseen g hg)).2
    omega
  refine ⟨b, heq, hb.trans ?_⟩
  rw [all_seen_iff hseen]
  constructor
  · intro h
    refine ⟨hr.last.mp hlast, fun n hn => (hr.bits n).mp ?_⟩
    rw [h n (by omega), decide_eq_true_eq]
    exact hn
  · rintro ⟨-, hblocks⟩ n -
    by_cases hn : n < pkt.size / 8
    · rw [decide_eq_true hn]
      exact (hr.bits n).mpr (hblocks n hn)
    · rw [decide_eq_false hn]
      exact Bool.eq_false_iff.mpr fun hbit => hn (hbounds n hbit)

/-- The bytes of a packet whose fragments are all there. -/
lemma all_data (hr : pkt.Holding seen seen r) (hall : ∀ g ∈ pkt.frags, g ∈ seen) {k : ℕ}
    (hk : k < pkt.base + pkt.size) (h4 : k ≠ 4) (h5 : k ≠ 5) : r.buf k = pkt.bytes k := by
  have hpos := pkt.size_pos
  by_cases hbase : k < pkt.base
  · obtain ⟨g, hg, hlow, hhigh⟩ := pkt.cut.exists_mem (k := 0) (by omega)
    exact hr.headers ⟨g, hall g hg, by omega⟩ k hbase h4 h5
  · obtain ⟨g, hg, hlow, hhigh⟩ := pkt.cut.exists_mem (k := k - pkt.base) (by omega)
    have hdata := hr.data g (hall g hg) (k - pkt.base - g.1) (by omega)
    rwa [show pkt.base + g.1 + (k - pkt.base - g.1) = k by omega] at hdata

/-- The packet that is complete is copied to `uip_buf`. -/
lemma finish_eq (hr : pkt.Holding seen seen r) (hs : pkt.Carries f s) (hlast : r.lastFrag = true)
    (hall : ∀ g ∈ pkt.frags, g ∈ seen) :
    ∃ len r' s', r.finish bufsize s = .ok (len, r', s') ∧ len ≠ 0 ∧ r'.on = false ∧
      r'.errorMsg = false ∧ pkt.IsWhole len s' := by
  have hfits := pkt.base_le
  have hlt := bufsize.toNat_lt
  have hbase : pkt.base = 40 + pkt.extLen.toNat := rfl
  have hpos := pkt.size_pos
  have hext : pkt.extLen.toUInt16.toNat = pkt.extLen.toNat := UInt8.toNat_toUInt16 _
  have h40 : (40 : UInt16).toNat = 40 := rfl
  have hlen : (r.reasslen + (40 + s.extLen.toUInt16)).toNat = pkt.base + pkt.size := by
    rw [UInt16.toNat_add, UInt16.toNat_add, hs.extLen, hext, hr.reasslen hlast, h40,
      Nat.mod_eq_of_lt (a := 40 + pkt.extLen.toNat) (by omega), Nat.mod_eq_of_lt (by omega)]
    omega
  have hword : r.reasslen + (40 + s.extLen.toUInt16) - 40 = wordAt pkt.bytes 4 := by
    apply UInt16.toNat_inj.mp
    rw [UInt16.toNat_sub_of_le _ _ (UInt16.le_iff_toNat_le.mpr (by rw [hlen, h40]; omega)), hlen, h40,
      pkt.length, UInt16.toNat_ofNat_of_lt' (by show _ < 2 ^ 16; omega)]
    omega
  unfold Reass.finish
  dsimp only
  rw [if_pos (by omega)]
  refine ⟨_, _, _, rfl, fun hzero => ?_, rfl, hr.noError, ⟨hlen, fun k hk => ?_⟩⟩
  · rw [hzero] at hlen
    have h0 : (0 : UInt16).toNat = 0 := rfl
    omega
  · dsimp only
    rw [hword, wordBytes_wordAt, hlen]
    have hbytes := holds_memcpy (memcpy s.bytes 0 (copyBytes r.buf 0 (pkt.base + pkt.size))) 4
      [pkt.bytes 4, pkt.bytes (4 + 1)]
    by_cases h4 : k = 4
    · rw [h4]
      exact hbytes.1
    by_cases h5 : k = 5
    · rw [h5]
      exact hbytes.2.1
    have hcopy := memcpy_copyBytes s.bytes r.buf 0 0 hk
    rw [Nat.zero_add] at hcopy
    refine (memcpy_of_notMem ?_).trans (hcopy.trans (all_data hr hall hk h4 h5))
    show k < 4 ∨ 4 + 2 ≤ k
    omega

/-! ## Calls of `uip_reass` -/

variable (pkt) in
/-- Either the buffer is idle, or it holds the fragments that have come. -/
def Ready (seen : List (ℕ × ℕ)) (r : Reass) : Prop :=
  (seen = [] ∧ r.on = false) ∨ pkt.Holding seen seen r

variable (icmp6ErrorOutput) in
/-- A call with a fragment of the packet copies the fragment into the buffer. -/
lemma reass_eq (hr : pkt.Ready seen r) (hf : f ∈ pkt.frags) (hs : pkt.IsFragment f s) :
    ∃ r' s', r.reass bufsize icmp6ErrorOutput s = r'.store bufsize s' f.1 f.2 ∧
      pkt.Holding (f :: seen) seen r' ∧ pkt.Carries f s' := by
  have haddrs := addrs_of_headers hs.headers
  have hgo : ∀ r', pkt.Holding seen seen r' →
      (if copyBytes r'.buf 8 32 = copyBytes s.bytes 8 32 ∧ s.fragId = r'.id then
        r'.fragment bufsize icmp6ErrorOutput s
      else .ok (0, r', s)) = r'.fragment bufsize icmp6ErrorOutput s :=
    fun r' hr' => if_pos ⟨hr'.addrs.trans haddrs.symm, hs.id.trans hr'.id.symm⟩
  unfold Reass.reass
  rcases hr with ⟨rfl, hoff⟩ | hr
  · obtain ⟨r', hstart, hr'⟩ := start_eq hs r
    rw [if_pos hoff, hstart, ok_bind]
    dsimp only
    rw [hgo r' hr']
    exact fragment_eq hr' hf hs
  · rw [if_neg (by rw [hr.on]; nofun), ok_bind]
    dsimp only
    rw [hgo r hr]
    exact fragment_eq hr hf hs

/-- The copy of a fragment within the bitmap. -/
lemma store_eq (hsize : pkt.size / 64 < bufsize.toNat / 64)
    (hseen : ∀ g ∈ f :: seen, g ∈ pkt.frags) (hr : pkt.Holding (f :: seen) seen r)
    (hs : pkt.Carries f s) :
    ∃ len r' s', r.store bufsize s f.1 f.2 = .ok (len, r', s') ∧
      (len ≠ 0 ↔ ∀ g ∈ pkt.frags, g ∈ f :: seen) ∧
      (len ≠ 0 → r'.errorMsg = false ∧ pkt.IsWhole len s') ∧ pkt.Ready (pkt.arrive seen f) r' := by
  have hf := hseen f List.mem_cons_self
  have hle := (mem_le hf).2
  have hfits := pkt.base_le
  have hend : (f.1 + f.2) / 64 ≤ pkt.size / 64 := Nat.div_le_div_right hle
  obtain ⟨bitmap, hmark, hbits⟩ := @Reass.mark_ok (bufsize.toNat / 64) r.bitmap f.1 f.2
    (pkt.aligned f hf) (by omega)
  have hstored := stored_holding hr hs hbits
  -- Without every fragment, the call returns 0.
  have hwaits : ∀ r', pkt.Holding (f :: seen) (f :: seen) r' → (¬ ∀ g ∈ pkt.frags, g ∈ f :: seen) →
      ((0 : UInt16) ≠ 0 ↔ ∀ g ∈ pkt.frags, g ∈ f :: seen) ∧
      ((0 : UInt16) ≠ 0 → r'.errorMsg = false ∧ pkt.IsWhole 0 s) ∧
      pkt.Ready (pkt.arrive seen f) r' := by
    intro r' hr' hnot
    refine ⟨iff_of_false (fun h => h rfl) hnot, fun h => absurd rfl h, .inr ?_⟩
    unfold arrive
    rwa [if_neg hnot]
  unfold Reass.store
  rw [hs.extBuf_eq, if_pos (by omega), hmark, ok_bind]
  dsimp only
  by_cases hlast : r.lastFrag = true
  · obtain ⟨b, hfull, hb⟩ := full_iff hsize hseen hstored hlast
    rw [if_pos hlast, hfull, ok_bind]
    by_cases hall : ∀ g ∈ pkt.frags, g ∈ f :: seen
    · obtain ⟨len, r', s', hfinish, hlen, hoff, herror, hwhole⟩ :=
        finish_eq hstored hs hlast hall
      rw [if_pos (hb.mpr hall)]
      refine ⟨len, r', s', hfinish, iff_of_true hlen hall, fun _ => ⟨herror, hwhole⟩, .inl ⟨?_, hoff⟩⟩
      exact if_pos hall
    · rw [if_neg (mt hb.mp hall)]
      exact ⟨0, _, s, rfl, hwaits _ hstored hall⟩
  · rw [if_neg hlast]
    refine ⟨0, _, s, rfl, hwaits _ hstored fun hall => hlast (hr.last.mpr ?_)⟩
    exact ((all_seen_iff hseen).mp hall).1

lemma arrive_subset (hseen : ∀ g ∈ seen, g ∈ pkt.frags) (hf : f ∈ pkt.frags) :
    ∀ g ∈ pkt.arrive seen f, g ∈ pkt.frags := by
  intro g hg
  unfold arrive at hg
  split_ifs at hg
  · cases hg
  · rcases List.mem_cons.mp hg with rfl | hg
    · exact hf
    · exact hseen g hg

variable (icmp6ErrorOutput) in
/-- **A call with a fragment of the packet.** -/
lemma reass_step (hsize : pkt.size / 64 < bufsize.toNat / 64) (hseen : ∀ g ∈ seen, g ∈ pkt.frags)
    (hr : pkt.Ready seen r) (hf : f ∈ pkt.frags) (hs : pkt.IsFragment f s) :
    ∃ len r' s', r.reass bufsize icmp6ErrorOutput s = .ok (len, r', s') ∧
      (len ≠ 0 ↔ ∀ g ∈ pkt.frags, g ∈ f :: seen) ∧
      (len ≠ 0 → r'.errorMsg = false ∧ pkt.IsWhole len s') ∧ pkt.Ready (pkt.arrive seen f) r' := by
  obtain ⟨r₁, s₁, heq, hr₁, hs₁⟩ := reass_eq icmp6ErrorOutput hr hf hs
  rw [heq]
  exact store_eq hsize (List.forall_mem_cons.mpr ⟨hf, hseen⟩) hr₁ hs₁

variable (icmp6ErrorOutput) in
/-- Any number of calls with fragments of the packet. -/
lemma run_ready (hsize : pkt.size / 64 < bufsize.toNat / 64) (hseen : ∀ g ∈ seen, g ∈ pkt.frags)
    (hr : pkt.Ready seen r) (arrivals : List ((ℕ × ℕ) × HeaderState))
    (harrivals : ∀ a ∈ arrivals, a.1 ∈ pkt.frags ∧ pkt.IsFragment a.1 a.2) :
    ∃ r', r.run bufsize icmp6ErrorOutput (arrivals.map Prod.snd) = .ok r' ∧
      pkt.Ready ((arrivals.map Prod.fst).foldl pkt.arrive seen) r' ∧
      ∀ g ∈ (arrivals.map Prod.fst).foldl pkt.arrive seen, g ∈ pkt.frags := by
  induction arrivals generalizing seen r with
  | nil => exact ⟨r, rfl, hr, hseen⟩
  | cons a arrivals ih =>
    obtain ⟨⟨ha, hs⟩, hrest⟩ := List.forall_mem_cons.mp harrivals
    obtain ⟨len, r₁, s₁, heq, -, -, hr₁⟩ :=
      reass_step icmp6ErrorOutput hsize hseen hr ha hs
    obtain ⟨r', hrun, hr', hseen'⟩ := ih (arrive_subset hseen ha) hr₁ hrest
    refine ⟨r', ?_, hr', hseen'⟩
    rw [List.map_cons, Reass.run, heq, ok_bind]
    exact hrun

/-! ## A fragment in `uip_buf` -/

variable (pkt) in
/-- The fragment header and the headers before it are put in front of the data. -/
def fragmentBytes (f : ℕ × ℕ) : ℕ → UInt8 :=
  let more := if f.1 + f.2 < pkt.size then 1 else 0
  let fragHdr := [pkt.bytes pkt.nextHdr, 0] ++ wordBytes (UInt16.ofNat (f.1 + more)) ++ pkt.id
  let b := memcpy pkt.bytes 4 (wordBytes (UInt16.ofNat (pkt.extLen.toNat + 8 + f.2)))
  let b := memcpy b pkt.nextHdr [44]
  let b := memcpy b pkt.base fragHdr
  memcpy b (pkt.base + 8) (copyBytes pkt.bytes (pkt.base + f.1) f.2)

variable (pkt) in
/-- The state of the loop over the headers at the fragment. -/
def fragmentState (f : ℕ × ℕ) : HeaderState where
  bytes := pkt.fragmentBytes f
  len := UInt16.ofNat (pkt.base + 8 + f.2)
  nextHdr := pkt.nextHdr
  extLen := pkt.extLen
  bitmap := {}
  chainEnd := pkt.base

/-- The two fields of the word with the offset. -/
lemma offset_and_more {n m : ℕ} (hn : n < 65536) (h8 : 8 ∣ n) (hm : m < 2) :
    (UInt16.ofNat (n + m) &&& 0xfff8).toNat = n ∧ (UInt16.ofNat (n + m) &&& 1).toNat = m := by
  have hof : (UInt16.ofNat (n + m)).toNat = n + m := UInt16.toNat_ofNat_of_lt' (by
    show n + m < 2 ^ 16
    omega)
  have hhigh : UInt16.ofNat (n + m) &&& (0xfff8 : UInt16) =
      (UInt16.ofNat (n + m) >>> 3) <<< 3 := by
    apply UInt16.eq_of_toBitVec_eq
    ext i hi
    simp only [UInt16.toBitVec_and, UInt16.toBitVec_shiftLeft, UInt16.toBitVec_shiftRight]
    interval_cases i <;> simp
  have hone : (UInt16.ofNat (n + m) &&& 1).toNat = m := by
    rw [UInt16.toNat_and, hof]
    refine (Nat.and_two_pow_sub_one_eq_mod (n + m) 1).trans ?_
    omega
  refine ⟨?_, hone⟩
  rw [hhigh, UInt16.toNat_shiftLeft, UInt16.toNat_shiftRight, hof]
  show ((n + m) >>> 3) <<< 3 % 2 ^ 16 = n
  rw [Nat.shiftRight_eq_div_pow, Nat.shiftLeft_eq]
  omega

lemma fragmentState_isFragment (hf : f ∈ pkt.frags) : pkt.IsFragment f (pkt.fragmentState f) := by
  have hle := mem_le hf
  have hfits := pkt.base_le
  have hreceived := pkt.received f hf
  have hlt := bufsize.toNat_lt
  have hbase : pkt.base = 40 + pkt.extLen.toNat := rfl
  have hnext := pkt.nextHdr_lt
  have hmem := pkt.nextHdr_mem
  have hlen : (wordBytes (UInt16.ofNat (pkt.extLen.toNat + 8 + f.2))).length = 2 := rfl
  obtain ⟨b, hb⟩ : ∃ b, b = memcpy (memcpy pkt.bytes 4
      (wordBytes (UInt16.ofNat (pkt.extLen.toNat + 8 + f.2)))) pkt.nextHdr [44] := ⟨_, rfl⟩
  obtain ⟨more, hm⟩ : ∃ more, more = if f.1 + f.2 < pkt.size then 1 else 0 := ⟨_, rfl⟩
  obtain ⟨hdr, hh⟩ : ∃ hdr, hdr =
      [pkt.bytes pkt.nextHdr, 0] ++ wordBytes (UInt16.ofNat (f.1 + more)) ++ pkt.id := ⟨_, rfl⟩
  have hhdr : hdr.length = 8 := by
    rw [hh, List.length_append, List.length_append, pkt.id_length]
    rfl
  have hbytes : pkt.fragmentBytes f = memcpy (memcpy b pkt.base hdr) (pkt.base + 8)
      (copyBytes pkt.bytes (pkt.base + f.1) f.2) := by
    rw [hh, hm, hb]
    rfl
  have hholds : Holds (pkt.fragmentBytes f) pkt.base hdr := by
    rw [hbytes]
    exact (holds_memcpy b pkt.base hdr).memcpy (.inl (by rw [hhdr]))
  have hword : wordAt (pkt.fragmentBytes f) (pkt.base + 2) = UInt16.ofNat (f.1 + more) := by
    rw [hh] at hholds
    obtain ⟨h0, h1, -⟩ := (holds_append.mp (holds_append.mp hholds).1).2
    unfold wordAt
    exact (congrArg₂ (fun x y : UInt8 => x.toUInt16 <<< 8 ||| y.toUInt16) h0 h1).trans
      (word16_of_bytes _)
  have hmore : more < 2 := by
    rw [hm]
    split <;> omega
  obtain ⟨hoffset, hflag⟩ := offset_and_more (show f.1 < 65536 by omega) (pkt.aligned f hf) hmore
  exact {
    extLen := rfl
    nextHdr := rfl
    len := UInt16.toNat_ofNat_of_lt' (by show pkt.base + 8 + f.2 < 2 ^ 16; omega)
    headers := fun k hk h4 h5 hkn => by
      show pkt.fragmentBytes f k = _
      rw [hbytes, memcpy_of_notMem (.inl (by omega)), memcpy_of_notMem (.inl hk), hb,
        memcpy_of_notMem (by rw [List.length_singleton]; omega), memcpy_of_notMem (by rw [hlen]; omega)]
    next := by
      rw [hh] at hholds
      exact hholds.1
    offset := by
      unfold HeaderState.fragOffset HeaderState.offsetresmore
      show (wordAt (pkt.fragmentBytes f) (pkt.base + 2) &&& 0xfff8).toNat = f.1
      rw [hword, hoffset]
    more := by
      unfold HeaderState.more HeaderState.offsetresmore
      show decide (wordAt (pkt.fragmentBytes f) (pkt.base + 2) &&& 1 ≠ 0) = _
      rw [hword, decide_eq_decide, ← UInt16.toNat_inj.ne, hflag, hm]
      show (if _ then 1 else 0) ≠ 0 ↔ _
      simp
    id := by
      rw [hh] at hholds
      have hid := (holds_append.mp hholds).2
      have hread := hid.map_range
      rw [pkt.id_length] at hread
      exact hread
    data := fun k hk => by
      show pkt.fragmentBytes f _ = _
      rw [hbytes]
      exact memcpy_copyBytes _ _ _ _ hk }

/-! ## The whole -/

/-- A packet whose last fragment ends behind the bitmap is not reassembled: the call with this fragment
is out of bounds. -/
lemma not_reassembles (h : ¬ pkt.size / 64 < bufsize.toNat / 64) :
    ¬ pkt.Reassembles icmp6ErrorOutput := by
  intro hall
  have hpos := pkt.size_pos
  have hfits := pkt.base_le
  obtain ⟨f, hf, hlow, hhigh⟩ := pkt.cut.exists_mem (k := pkt.size - 1) (by omega)
  have hle := (mem_le hf).2
  have hend : f.1 + f.2 = pkt.size := by omega
  have hs := fragmentState_isFragment hf
  let r : Reass := ⟨false, fun _ => 0, fun _ => 0, 0, false, false, false, [], false⟩
  have hr : pkt.Ready [] r := .inl ⟨rfl, rfl⟩
  obtain ⟨r₁, len, r₂, s', hrun, hreass, -⟩ :=
    hall r [] f (pkt.fragmentState f) rfl (List.forall_mem_nil _) hf hs
  cases hrun
  obtain ⟨r₃, s₃, heq, hr₃, hs₃⟩ := reass_eq icmp6ErrorOutput hr hf hs
  rw [heq] at hreass
  unfold Reass.store at hreass
  rw [hs₃.extBuf_eq, if_pos (by omega),
    Reass.mark_error (by rw [hend]; exact Nat.le_of_not_lt h)] at hreass
  cases hreass

/-- **Reassembly of a packet**: it succeeds unless the last fragment ends behind the bitmap, which has
one byte for 64 whole bytes of the buffer. -/
theorem reassembles_iff (pkt : CutPacket bufsize) (icmp6ErrorOutput : HeaderState → HeaderState) :
    pkt.Reassembles icmp6ErrorOutput ↔ pkt.size / 64 < bufsize.toNat / 64 := by
  constructor
  · intro h
    by_contra hsize
    exact not_reassembles hsize h
  · intro hsize r arrivals f s hoff harrivals hf hs
    have hr : pkt.Ready [] r := .inl ⟨rfl, hoff⟩
    obtain ⟨r₁, hrun, hr₁, hseen⟩ :=
      run_ready icmp6ErrorOutput hsize (List.forall_mem_nil _) hr arrivals harrivals
    obtain ⟨len, r₂, s', heq, hiff, hwhole, -⟩ := reass_step icmp6ErrorOutput hsize hseen hr₁ hf hs
    exact ⟨r₁, len, r₂, s', hrun, heq, hiff, hwhole⟩

/-- A packet of 232 bytes in two fragments, for a buffer of 240 bytes. -/
def twoFragments : CutPacket 240 where
  bytes := fun k => if k = 5 then 192 else 0
  extLen := 0
  nextHdr := 6
  size := 192
  id := [0, 0, 0, 1]
  frags := [(0, 96), (96, 96)]
  nextHdr_mem := .inl rfl
  nextHdr_lt := by decide
  size_pos := by decide
  fits := by decide
  length := by decide
  cut := ⟨rfl, by decide, rfl, by decide, rfl⟩
  aligned := by decide
  received := by decide
  id_length := rfl

/-- The bitmap for a buffer of 240 bytes has three bytes, and the end of the packet is in a fourth one. -/
theorem twoFragments_not_reassembles : ¬ twoFragments.Reassembles (fun s => s) :=
  not_reassembles (by decide)

end CutPacket
end Contiki

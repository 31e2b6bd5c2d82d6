import Contiki.Lib.Buffer
import Contiki.Lib.Repack

/-!
# A line code of ten bits for a byte

`gcr.c` sends each half of a byte as one of 16 code words of five bits.  Sender and receiver keep the bits that
wait in an accumulator of 16 bits, which is filled and emptied at different widths.

* `Gcr.Packs.pump_spec` — what has come out of the accumulator, and what is left in it.
* `Gcr.packs_encode`, `Gcr.packs_decode` — sender and receiver.
* `Gcr.roundtrips` — what is sent comes back.
* `gcr_roundtrip_detects` — which errors are detected besides.
-/

namespace Contiki

/-- `GCR_encode`. -/
def gcrEncodeTable : List ℕ := [
  0x0a, 0x0b, 0x12, 0x13,
  0x0e, 0x0f, 0x16, 0x17,
  0x09, 0x19, 0x1a, 0x1b,
  0x0d, 0x1d, 0x1e, 0x15]

/-- `GCR_decode`, with 0xff where there is no code word. -/
def gcrDecodeTable : List ℕ := [
  0xff, 0xff, 0xff, 0xff,
  0xff, 0xff, 0xff, 0xff,
  0xff, 0x08, 0x00, 0x01,
  0xff, 0x0c, 0x04, 0x05,
  0xff, 0xff, 0x02, 0x03,
  0xff, 0x0f, 0x06, 0x07,
  0xff, 0x09, 0x0a, 0x0b,
  0xff, 0x0d, 0x0e, 0xff]

/-- `gcr_val` and `gcr_bits`. -/
structure Gcr where
  val : UInt16
  bits : UInt8

namespace Gcr

def gcrInit : Gcr := ⟨0, 0⟩

def gcrFinished (s : Gcr) : Bool := s.bits == 0

/-- The ten bits for a byte. -/
def gcrCode (rawData : UInt8) : ℕ :=
  (gcrEncodeTable.getD (rawData >>> 4).toNat 0 <<< 5) ||| gcrEncodeTable.getD (rawData &&& 0xf).toNat 0

def gcrEncode (s : Gcr) (rawData : UInt8) : Gcr where
  val := s.val ||| UInt16.ofNat (gcrCode rawData <<< s.bits.toNat)
  bits := s.bits + 10

/-- `gcr_get_encoded`; `none` is an answer of 0. -/
def gcrGetEncoded (s : Gcr) : Option (UInt8 × Gcr) :=
  if s.bits ≥ 8 then some ((s.val &&& 0xff).toUInt8, ⟨s.val >>> 8, s.bits - 8⟩) else none

def gcrDecode (s : Gcr) (gcrData : UInt8) : Gcr where
  val := s.val ||| UInt16.ofNat (gcrData.toNat <<< s.bits.toNat)
  bits := s.bits + 8

/-- `gcr_valid`; the table's `unsigned char`s are shifted as `int`s. -/
def gcrValid (s : Gcr) : Bool :=
  if s.bits ≥ 10 then
    let val := s.val &&& 0x3ff
    !(gcrDecodeTable.getD (val >>> 5).toNat 0 <<< 4 == 0xff || gcrDecodeTable.getD (val &&& 0x1f).toNat 0 == 0xff)
  else true

/-- `gcr_get_decoded`; `none` is an answer of 0. -/
def gcrGetDecoded (s : Gcr) : Option (UInt8 × Gcr) :=
  if s.bits ≥ 10 then
    let val := s.val &&& 0x3ff
    some (UInt8.ofNat (gcrDecodeTable.getD (val >>> 5).toNat 0 <<< 4 ||| gcrDecodeTable.getD (val &&& 0x1f).toNat 0),
      ⟨s.val >>> 10, s.bits - 10⟩)
  else none

/-- The loop of a client that gets what there is to get. -/
def drain {α : Type} (get : Gcr → Option (α × Gcr)) : ℕ → Gcr → List α × Gcr
  | 0, s => ([], s)
  | fuel + 1, s =>
    match get s with
    | none => ([], s)
    | some (c, s) =>
      let (cs, s) := drain get fuel s
      (c :: cs, s)

/-- The loop of a client that puts a byte in and gets what there is to get, over and over. -/
def pump {α : Type} (put : Gcr → UInt8 → Gcr) (get : Gcr → Option (α × Gcr)) : Gcr → List UInt8 → List α × Gcr
  | s, [] => ([], s)
  | s, c :: cs =>
    let s := put s c
    let (out, s) := drain get s.bits.toNat s
    let (rest, s) := pump put get s cs
    (out ++ rest, s)

/-- `gcr_get_decoded`, `gcr_valid` being asked first. -/
def gcrGetChecked (s : Gcr) : Option ((Bool × UInt8) × Gcr) :=
  s.gcrGetDecoded.map fun r => ((s.gcrValid, r.1), r.2)

/-- The bytes that are sent for a list of bytes. -/
def gcrSend (data : List UInt8) : List UInt8 × Gcr := pump gcrEncode gcrGetEncoded gcrInit data

/-- The bytes that are got from a list of received bytes, each with what `gcr_valid` answered. -/
def gcrReceive (stream : List UInt8) : List (Bool × UInt8) × Gcr := pump gcrDecode gcrGetChecked gcrInit stream

end Gcr

/-- A group of five bits that stands for half a byte. -/
def CodeWord (g : ℕ) : Prop := g ∈ gcrEncodeTable

instance (g : ℕ) : Decidable (CodeWord g) := inferInstanceAs (Decidable (g ∈ gcrEncodeTable))

/-- The ten bits of a stream behind the first `k` times ten; the first bit of a byte is its lowest. -/
def tenBits (stream : List UInt8) (k : ℕ) : ℕ :=
  Nat.ofDigits 256 (stream.map UInt8.toNat) / 1024 ^ k % 1024

/-- Before ten bits of which a half is no code word are got, `gcr_valid` answers 0. -/
def GcrDetects (stream : List UInt8) : Prop :=
  ∀ k < 8 * stream.length / 10, ∃ answer, (Gcr.gcrReceive stream).1[k]? = some answer ∧
    (¬CodeWord (tenBits stream k / 32) ∨ ¬CodeWord (tenBits stream k % 32) → answer.1 = false)

/-- What is sent for some bytes is got back, and nothing waits in either direction. -/
def GcrRoundtrips (data : List UInt8) : Prop :=
  let sent := Gcr.gcrSend data
  let got := Gcr.gcrReceive sent.1
  got.1.map Prod.snd = data ∧ sent.2.gcrFinished ∧ got.2.gcrFinished

/-- The line code carries some bytes in fours, and finds the errors in a received stream. -/
structure GcrCarries (data stream : List UInt8) : Prop where
  roundtrips : 4 ∣ data.length → GcrRoundtrips data
  detects : GcrDetects stream

namespace Gcr

/-! ## The accumulator -/

/-- `put` fills the accumulator with `a` bits for a byte, `get` takes `b` bits out, and both fit. -/
structure Packs {α : Type} (a b : ℕ) (code : UInt8 → ℕ) (f : ℕ → α) (put : Gcr → UInt8 → Gcr)
    (get : Gcr → Option (α × Gcr)) : Prop where
  pos : 0 < b
  code_lt : ∀ c, code c < 2 ^ a
  room : ∀ x y n, a * x = b * y + n → n < b → n + a ≤ 16
  put : ∀ s c, s.val.toNat < 2 ^ s.bits.toNat → s.bits.toNat + a ≤ 16 →
    (put s c).val.toNat = s.val.toNat + 2 ^ s.bits.toNat * code c ∧ (put s c).bits.toNat = s.bits.toNat + a
  get_none : ∀ s, s.bits.toNat < b → get s = none
  get_some : ∀ s, b ≤ s.bits.toNat → ∃ s', get s = some (f (s.val.toNat % 2 ^ b), s') ∧
    s'.val.toNat = s.val.toNat / 2 ^ b ∧ s'.bits.toNat = s.bits.toNat - b

namespace Packs
variable {α : Type} {a b : ℕ} {code : UInt8 → ℕ} {f : ℕ → α} {put : Gcr → UInt8 → Gcr}
  {get : Gcr → Option (α × Gcr)} {xs ys : List ℕ} {s : Gcr}

lemma drain_spec (h : Packs a b code f put get) {fuel : ℕ} (hfuel : s.bits.toNat ≤ fuel)
    (hs : Repacked a b xs ys s.val.toNat s.bits.toNat) :
    ∃ ys' s', drain get fuel s = (ys'.map f, s') ∧
      Repacked a b xs (ys ++ ys') s'.val.toNat s'.bits.toNat ∧ s'.bits.toNat < b := by
  have hpos := h.pos
  induction fuel generalizing s ys with
  | zero => exact ⟨[], s, rfl, by rwa [List.append_nil], by omega⟩
  | succ fuel ih =>
    by_cases hbits : b ≤ s.bits.toNat
    · obtain ⟨s', hget, hval, hrest⟩ := h.get_some s hbits
      have htake := hs.take hbits
      rw [← hval, ← hrest] at htake
      obtain ⟨ys', s'', hdrain, hlast, hlt⟩ := ih (by omega) htake
      refine ⟨s.val.toNat % 2 ^ b :: ys', s'', ?_, ?_, hlt⟩
      · rw [drain, hget]
        simp only [hdrain, List.map_cons]
      · rwa [List.append_assoc] at hlast
    · refine ⟨[], s, ?_, by rwa [List.append_nil], by omega⟩
      rw [drain, h.get_none s (by omega)]
      rfl

/-- What has come out, and what is left. -/
lemma pump_spec (h : Packs a b code f put get) (hs : Repacked a b xs ys s.val.toNat s.bits.toNat)
    (hbits : s.bits.toNat < b) (cs : List UInt8) :
    ∃ ys' s', pump put get s cs = (ys'.map f, s') ∧
      Repacked a b (xs ++ cs.map code) (ys ++ ys') s'.val.toNat s'.bits.toNat ∧ s'.bits.toNat < b := by
  induction cs generalizing s xs ys with
  | nil => exact ⟨[], s, rfl, by rwa [List.map_nil, List.append_nil, List.append_nil], hbits⟩
  | cons c cs ih =>
    obtain ⟨hval, hfull⟩ := h.put s c hs.lt (h.room _ _ _ hs.length hbits)
    have hput := hs.put (h.code_lt c)
    rw [← hval, ← hfull] at hput
    obtain ⟨ys₁, s₁, hdrain, h₁, hlt₁⟩ := h.drain_spec (Nat.le_refl _) hput
    obtain ⟨ys₂, s₂, hpump, h₂, hlt₂⟩ := ih h₁ hlt₁
    refine ⟨ys₁ ++ ys₂, s₂, ?_, ?_, hlt₂⟩
    · simp only [pump, hdrain, hpump, List.map_append]
    · rw [List.map_cons, List.append_cons]
      rwa [List.append_assoc ys] at h₂

end Packs

/-- Bits that go in above the ones that are there. -/
lemma toNat_or_shiftLeft {v : UInt16} {n a code : ℕ} (hv : v.toNat < 2 ^ n) (hcode : code < 2 ^ a)
    (hn : n + a ≤ 16) : (v ||| UInt16.ofNat (code <<< n)).toNat = v.toNat + 2 ^ n * code := by
  have hshift : code <<< n < 2 ^ 16 := by
    rw [Nat.shiftLeft_eq]
    calc code * 2 ^ n < 2 ^ a * 2 ^ n := Nat.mul_lt_mul_of_pos_right hcode (Nat.two_pow_pos n)
      _ = 2 ^ (n + a) := by rw [← pow_add, Nat.add_comm]
      _ ≤ 2 ^ 16 := Nat.pow_le_pow_right (by omega) hn
  rw [UInt16.toNat_or, UInt16.toNat_ofNat', Nat.mod_eq_of_lt hshift, Nat.shiftLeft_eq, Nat.or_comm,
    Nat.mul_comm, ← Nat.two_pow_add_eq_or_of_lt hv, Nat.add_comm]

lemma toNat_add_bits {n k : UInt8} (h : n.toNat + k.toNat ≤ 16) : (n + k).toNat = n.toNat + k.toNat := by
  rw [UInt8.toNat_add]
  exact Nat.mod_eq_of_lt (by omega)

lemma toNat_sub_bits {n k : UInt8} (h : k.toNat ≤ n.toNat) : (n - k).toNat = n.toNat - k.toNat :=
  UInt8.toNat_sub_of_le _ _ (UInt8.le_iff_toNat_le.mpr h)

lemma gcrCode_lt (c : UInt8) : gcrCode c < 2 ^ 10 := by
  revert c
  apply byte_cases
  decide +kernel

/-- The sender turns ten bits for a byte into bytes. -/
lemma packs_encode : Packs 10 8 gcrCode UInt8.ofNat gcrEncode gcrGetEncoded where
  pos := by decide
  code_lt := gcrCode_lt
  room := by omega
  put s c hs hroom := ⟨toNat_or_shiftLeft hs (gcrCode_lt c) hroom, toNat_add_bits hroom⟩
  get_none s hs := if_neg fun hge : s.bits ≥ 8 => absurd (UInt8.le_iff_toNat_le.mp hge) (Nat.not_le.mpr hs)
  get_some s hs := by
    have hge : s.bits ≥ 8 := UInt8.le_iff_toNat_le.mpr hs
    refine ⟨⟨s.val >>> 8, s.bits - 8⟩, (if_pos hge).trans ?_, ?_, toNat_sub_bits (UInt8.le_iff_toNat_le.mp hge)⟩
    · congr 2
      apply UInt8.toNat_inj.mp
      rw [UInt16.toNat_toUInt8, UInt16.toNat_and, UInt8.toNat_ofNat', Nat.mod_mod]
      show (s.val.toNat &&& 2 ^ 8 - 1) % 2 ^ 8 = _
      rw [Nat.and_two_pow_sub_one_eq_mod, Nat.mod_mod]
    · rw [UInt16.toNat_shiftRight]
      exact Nat.shiftRight_eq_div_pow _ _

/-- Whether `gcr_valid` takes ten bits for two code words. -/
def accepts (g : ℕ) : Bool :=
  !(gcrDecodeTable.getD (g / 32) 0 <<< 4 == 0xff || gcrDecodeTable.getD (g % 32) 0 == 0xff)

/-- The byte that is got for ten bits. -/
def decoded (g : ℕ) : UInt8 :=
  UInt8.ofNat (gcrDecodeTable.getD (g / 32) 0 <<< 4 ||| gcrDecodeTable.getD (g % 32) 0)

lemma toNat_low (v : UInt16) : (v &&& 0x3ff).toNat = v.toNat % 2 ^ 10 := by
  rw [UInt16.toNat_and]
  exact Nat.and_two_pow_sub_one_eq_mod v.toNat 10

lemma toNat_halves (v : UInt16) : (v >>> 5).toNat = v.toNat / 32 ∧ (v &&& 0x1f).toNat = v.toNat % 32 := by
  rw [UInt16.toNat_shiftRight, UInt16.toNat_and]
  exact ⟨Nat.shiftRight_eq_div_pow _ _, Nat.and_two_pow_sub_one_eq_mod v.toNat 5⟩

/-- The receiver turns bytes into ten bits for a byte. -/
lemma packs_decode : Packs 8 10 UInt8.toNat (fun g => (accepts g, decoded g)) gcrDecode gcrGetChecked where
  pos := by decide
  code_lt := UInt8.toNat_lt
  room := by omega
  put s c hs hroom := ⟨toNat_or_shiftLeft hs c.toNat_lt hroom, toNat_add_bits hroom⟩
  get_none s hs := by
    have hlt : ¬s.bits ≥ 10 := fun hge => absurd (UInt8.le_iff_toNat_le.mp hge) (Nat.not_le.mpr hs)
    rw [gcrGetChecked, gcrGetDecoded, if_neg hlt]
    rfl
  get_some s hs := by
    have hge : s.bits ≥ 10 := UInt8.le_iff_toNat_le.mpr hs
    refine ⟨⟨s.val >>> 10, s.bits - 10⟩, ?_, ?_, toNat_sub_bits (UInt8.le_iff_toNat_le.mp hge)⟩
    · rw [gcrGetChecked, gcrGetDecoded, gcrValid, if_pos hge, if_pos hge]
      simp only [(toNat_halves _).1, (toNat_halves _).2, toNat_low]
      rfl
    · rw [UInt16.toNat_shiftRight]
      exact Nat.shiftRight_eq_div_pow _ _

/-- The byte for the ten bits of a byte. -/
lemma decoded_gcrCode (c : UInt8) : decoded (gcrCode c) = c := by
  revert c
  apply byte_cases
  decide +kernel

/-- The half that is shifted is never found to be no code word. -/
lemma accepts_iff {g : ℕ} (hg : g < 2 ^ 10) : accepts g = true ↔ CodeWord (g % 32) := by
  have hlow : ∀ n < 32, gcrDecodeTable.getD n 0 = 0xff ↔ ¬CodeWord n := by decide
  have hhigh : ∀ n < 32, gcrDecodeTable.getD n 0 <<< 4 ≠ 0xff := by decide
  have hdiv : g / 32 < 32 := by omega
  have hmod := hlow (g % 32) (Nat.mod_lt _ (by decide))
  simp only [accepts, Bool.not_eq_true', Bool.or_eq_false_iff, beq_eq_false_iff_ne]
  constructor
  · rintro ⟨-, hcode⟩
    exact not_not.mp (mt hmod.mpr hcode)
  · intro hcode
    exact ⟨hhigh _ hdiv, fun heq => hmod.mp heq hcode⟩

/-! ## Both directions -/

/-- What is sent in fours of bytes is got back. -/
theorem roundtrips {data : List UInt8} (hdata : 4 ∣ data.length) : GcrRoundtrips data := by
  obtain ⟨ys, s, hsent, hout, hbits⟩ := packs_encode.pump_spec (s := gcrInit) (Repacked.start 10 8) (by decide) data
  obtain ⟨zs, s', hgot, hback, hbits'⟩ :=
    packs_decode.pump_spec (s := gcrInit) (Repacked.start 8 10) (by decide) (ys.map UInt8.ofNat)
  rw [List.nil_append, List.nil_append] at hout hback
  have hys : (ys.map UInt8.ofNat).map UInt8.toNat = ys := by
    rw [List.map_map]
    refine (List.map_congr_left fun y hy => ?_).trans (List.map_id ys)
    exact UInt8.toNat_ofNat_of_lt' (hout.groups y hy)
  rw [hys] at hback
  have hempty : s.bits.toNat = 0 := by
    have hlength := hout.length
    rw [List.length_map] at hlength
    omega
  have hval : s.val.toNat = 0 := by
    have hlt := hout.lt
    rw [hempty] at hlt
    omega
  rw [hempty, hval] at hout
  obtain ⟨rfl, hempty'⟩ := hout.inverse hback (by decide)
    (fun x hx => by obtain ⟨c, -, rfl⟩ := List.mem_map.mp hx; exact gcrCode_lt c) hbits'
  have hsent' : gcrSend data = (ys.map UInt8.ofNat, s) := hsent
  have hgot' : gcrReceive (gcrSend data).1 = ((data.map gcrCode).map fun g => (accepts g, decoded g), s') := by
    rw [hsent']
    exact hgot
  refine ⟨?_, ?_, ?_⟩
  · rw [hgot', List.map_map, List.map_map]
    exact (List.map_congr_left fun c _ => decoded_gcrCode c).trans (List.map_id data)
  · rw [hsent']
    exact beq_iff_eq.mpr (UInt8.toNat_inj.mp hempty)
  · rw [hgot']
    exact beq_iff_eq.mpr (UInt8.toNat_inj.mp hempty')

/-- What is got for the groups of ten bits, and what `gcr_valid` answers for them. -/
theorem gcrReceive_get {stream : List UInt8} {k : ℕ} (hk : k < 8 * stream.length / 10) :
    (gcrReceive stream).1[k]? = some (accepts (tenBits stream k), decoded (tenBits stream k)) := by
  obtain ⟨ys, s, hgot, hout, hbits⟩ := packs_decode.pump_spec (s := gcrInit) (Repacked.start 8 10) (by decide) stream
  rw [List.nil_append, List.nil_append] at hout
  have hcount : k < ys.length := by
    have hlength := hout.length
    rw [List.length_map] at hlength
    omega
  have hgroup : ys[k] = tenBits stream k := hout.get hcount
  have hreceive : gcrReceive stream = (ys.map fun g => (accepts g, decoded g), s) := hgot
  rw [hreceive, List.getElem?_map, List.getElem?_eq_getElem hcount, hgroup]
  rfl

end Gcr

/-- **Ten bits for a byte.**  What is sent in fours of bytes is got back, and nothing waits in either
direction; of the errors in a received stream, those are detected where not only the upper half of ten bits
is no code word: the table's entry for the upper half is shifted before it is compared. -/
theorem gcr_roundtrip_detects (data stream : List UInt8) :
    GcrCarries data stream ↔
      ∀ k < 8 * stream.length / 10, CodeWord (tenBits stream k % 32) → CodeWord (tenBits stream k / 32) := by
  have hdetects : GcrDetects stream ↔
      ∀ k < 8 * stream.length / 10, CodeWord (tenBits stream k % 32) → CodeWord (tenBits stream k / 32) := by
    refine forall_congr' fun k => forall_congr' fun hk => ?_
    have hlt : tenBits stream k < 2 ^ 10 := Nat.mod_lt _ (by decide)
    simp only [Gcr.gcrReceive_get hk, Option.some.injEq, exists_eq_left', ← Bool.not_eq_true, Gcr.accepts_iff hlt]
    tauto
  constructor
  · intro hcarries
    exact hdetects.mp hcarries.detects
  · intro hcode
    exact ⟨Gcr.roundtrips, hdetects.mpr hcode⟩

/-- The upper half of the first ten bits is no code word, the lower half is. -/
theorem gcr_undetected : ¬∀ data stream, GcrCarries data stream := by
  intro h
  obtain ⟨answer, hanswer, hdetects⟩ := (h [] [0x0a, 0x00]).detects 0 (by decide)
  have hfirst : (Gcr.gcrReceive [0x0a, 0x00]).1[0]? = some (true, 0xf0) := by decide
  rw [hfirst] at hanswer
  obtain rfl := Option.some.inj hanswer
  exact absurd (hdetects (.inl (by decide))) (by decide)

end Contiki

import Contiki.Lib.Buffer

/-!
# Fields of bits in a buffer

A buffer as a sequence of bits, the most significant bit of each byte first.  A field is a number with
its width; fields stand one behind the other at any bit.

* `readBits` — a field as a number, with the bits that it has.
* `BitHolds` — fields that stand in a buffer from a bit on, as `Holds` says it of bytes.
* `Writes`, `Writes.append` — fields are written, everything else stays.
-/

namespace Contiki

/-- The bit `k` of a buffer. -/
def bitOf (b : ℕ → UInt8) (k : ℕ) : Bool := (b (k / 8)).toNat.testBit (7 - k % 8)

section
variable {b b' b'' : ℕ → UInt8} {pos n : ℕ}

lemma bitOf_byte (b : ℕ → UInt8) (k : ℕ) {i : ℕ} (hi : i < 8) :
    bitOf b (8 * k + i) = (b k).toNat.testBit (7 - i) := by
  unfold bitOf
  rw [show (8 * k + i) / 8 = k by omega, show (8 * k + i) % 8 = i by omega]

/-- A byte is given by its bits. -/
lemma byte_of_bitOf {k k' : ℕ} (h : ∀ i < 8, bitOf b (8 * k + i) = bitOf b' (8 * k' + i)) :
    b k = b' k' := by
  apply UInt8.toNat_inj.mp
  apply Nat.eq_of_testBit_eq
  intro j
  by_cases hj : j < 8
  · have hbit := h (7 - j) (by omega)
    rwa [bitOf_byte _ _ (by omega), bitOf_byte _ _ (by omega), show 7 - (7 - j) = j by omega] at hbit
  · have hbig : 2 ^ 8 ≤ 2 ^ j := Nat.pow_le_pow_right (by omega) (by omega)
    rw [Nat.testBit_lt_two_pow ((UInt8.toNat_lt _).trans_le hbig),
      Nat.testBit_lt_two_pow ((UInt8.toNat_lt _).trans_le hbig)]

/-! ## Fields as numbers -/

/-- The number that stands in `n` bits from `pos` on. -/
def readBits (b : ℕ → UInt8) (pos : ℕ) : ℕ → ℕ
  | 0 => 0
  | n + 1 => Nat.bit (bitOf b (pos + n)) (readBits b pos n)

lemma testBit_readBits (b : ℕ → UInt8) (pos n j : ℕ) :
    (readBits b pos n).testBit j = (decide (j < n) && bitOf b (pos + (n - 1 - j))) := by
  induction n generalizing j with
  | zero => simp [readBits]
  | succ n ih =>
      unfold readBits
      cases j with
      | zero =>
          rw [Nat.testBit_bit_zero, show pos + (n + 1 - 1 - 0) = pos + n by omega]
          simp
      | succ j =>
          rw [Nat.testBit_bit_succ, ih, show n + 1 - 1 - (j + 1) = n - 1 - j by omega]
          simp

lemma readBits_lt (b : ℕ → UInt8) (pos n : ℕ) : readBits b pos n < 2 ^ n := by
  apply Nat.lt_pow_two_of_testBit
  intro j hj
  rw [testBit_readBits, decide_eq_false (by omega), Bool.false_and]

/-- A number that has these bits. -/
lemma readBits_eq {v : ℕ} (hv : v < 2 ^ n) (h : ∀ k < n, bitOf b (pos + k) = v.testBit (n - 1 - k)) :
    readBits b pos n = v := by
  apply Nat.eq_of_testBit_eq
  intro j
  rw [testBit_readBits]
  by_cases hj : j < n
  · rw [decide_eq_true hj, Bool.true_and, h _ (by omega), show n - 1 - (n - 1 - j) = j by omega]
  · rw [decide_eq_false hj, Bool.false_and]
    exact (Nat.testBit_lt_two_pow (hv.trans_le (Nat.pow_le_pow_right (by omega) (by omega)))).symm

lemma readBits_congr {pos' : ℕ} (h : ∀ k < n, bitOf b' (pos' + k) = bitOf b (pos + k)) :
    readBits b' pos' n = readBits b pos n := by
  refine readBits_eq (readBits_lt ..) fun k hk => ?_
  rw [h k hk, testBit_readBits, decide_eq_true (by omega), Bool.true_and,
    show n - 1 - (n - 1 - k) = k by omega]

/-- Eight bits from the first one of a byte on are the byte. -/
lemma readBits_byte (b : ℕ → UInt8) (k : ℕ) : readBits b (8 * k) 8 = (b k).toNat :=
  readBits_eq (UInt8.toNat_lt _) fun _ hi => bitOf_byte b k hi

/-! ## Fields in a row -/

/-- The number of bits of the fields. -/
def width (fields : List (ℕ × ℕ)) : ℕ := (fields.map (·.2)).sum

@[simp] lemma width_nil : width [] = 0 := rfl

@[simp] lemma width_cons (f : ℕ × ℕ) (fields : List (ℕ × ℕ)) : width (f :: fields) = f.2 + width fields :=
  rfl

@[simp] lemma width_append (fs gs : List (ℕ × ℕ)) : width (fs ++ gs) = width fs + width gs := by
  simp [width]

/-- The fields, each with its value and width, stand in the buffer from the bit `pos` on. -/
def BitHolds (b : ℕ → UInt8) : ℕ → List (ℕ × ℕ) → Prop
  | _, [] => True
  | pos, (v, n) :: fields => readBits b pos n = v ∧ BitHolds b (pos + n) fields

lemma bitHolds_cons {f : ℕ × ℕ} {fs : List (ℕ × ℕ)} :
    BitHolds b pos (f :: fs) ↔ readBits b pos f.2 = f.1 ∧ BitHolds b (pos + f.2) fs := .rfl

lemma bitHolds_append {fs gs : List (ℕ × ℕ)} :
    BitHolds b pos (fs ++ gs) ↔ BitHolds b pos fs ∧ BitHolds b (pos + width fs) gs := by
  induction fs generalizing pos with
  | nil => simp [BitHolds]
  | cons f fs ih =>
      rw [List.cons_append, width_cons, ← Nat.add_assoc, bitHolds_cons, bitHolds_cons, ih, and_assoc]

/-- Fields are found wherever the same bits stand. -/
lemma BitHolds.congr {pos' : ℕ} {fs : List (ℕ × ℕ)} (h : BitHolds b pos fs)
    (hbits : ∀ k < width fs, bitOf b' (pos' + k) = bitOf b (pos + k)) : BitHolds b' pos' fs := by
  induction fs generalizing pos pos' with
  | nil => trivial
  | cons f fs ih =>
      rw [width_cons] at hbits
      refine ⟨(readBits_congr fun k hk => hbits k (by omega)).trans h.1, ih h.2 fun k hk => ?_⟩
      rw [Nat.add_assoc, Nat.add_assoc]
      exact hbits (f.2 + k) (by omega)

/-! ## Writing fields -/

/-- The bits from `pos` on are zero, `n` of them. -/
def ZeroBits (b : ℕ → UInt8) (pos n : ℕ) : Prop := ∀ k < n, bitOf b (pos + k) = false

/-- The fields are written, and no other bit changes. -/
structure Writes (b b' : ℕ → UInt8) (pos : ℕ) (fields : List (ℕ × ℕ)) : Prop where
  holds : BitHolds b' pos fields
  frame : ∀ k, k < pos ∨ pos + width fields ≤ k → bitOf b' k = bitOf b k

lemma Writes.refl (b : ℕ → UInt8) (pos : ℕ) : Writes b b pos [] := ⟨trivial, fun _ _ => rfl⟩

lemma Writes.append {fs gs : List (ℕ × ℕ)} (h : Writes b b' pos fs)
    (h' : Writes b' b'' (pos + width fs) gs) : Writes b b'' pos (fs ++ gs) where
  holds := by
    refine bitHolds_append.mpr ⟨h.holds.congr fun k hk => ?_, h'.holds⟩
    exact h'.frame _ (.inl (by omega))
  frame k hk := by
    rw [width_append] at hk
    rw [h'.frame k (by omega), h.frame k (by omega)]

lemma ZeroBits.mono {m : ℕ} (h : ZeroBits b pos n) (hm : m ≤ n) : ZeroBits b pos m :=
  fun k hk => h k (hk.trans_le hm)

/-- Zeros behind some fields stay when the fields are written. -/
lemma ZeroBits.behind {fs : List (ℕ × ℕ)} (h : ZeroBits b pos (width fs + n)) (hw : Writes b b' pos fs) :
    ZeroBits b' (pos + width fs) n := fun k hk => by
  rw [hw.frame _ (.inr (by omega)), Nat.add_assoc]
  exact h _ (by omega)

/-- Outside of the fields the bytes stay. -/
lemma Writes.byte {fs : List (ℕ × ℕ)} (h : Writes b b' pos fs) {k : ℕ}
    (hk : 8 * k + 8 ≤ pos ∨ pos + width fs ≤ 8 * k) : b' k = b k :=
  byte_of_bitOf fun i hi => h.frame _ (by omega)

/-- A field is put over zeros. -/
lemma writes_of_or {v : ℕ} (hv : v < 2 ^ n) (hz : ZeroBits b pos n)
    (h : ∀ k, bitOf b' k = (bitOf b k || (decide (pos ≤ k ∧ k < pos + n) && v.testBit (pos + n - 1 - k)))) :
    Writes b b' pos [(v, n)] where
  holds := by
    refine ⟨readBits_eq hv fun k hk => ?_, trivial⟩
    rw [h, hz k hk, Bool.false_or, decide_eq_true (by omega), Bool.true_and,
      show pos + n - 1 - (pos + k) = n - 1 - k by omega]
  frame k hk := by
    rw [width_cons, width_nil] at hk
    rw [h, decide_eq_false (by omega), Bool.false_and, Bool.or_false]

/-- Bytes are fields of eight bits. -/
def byteFields (l : List UInt8) : List (ℕ × ℕ) := l.map fun v => (v.toNat, 8)

@[simp] lemma width_byteFields (l : List UInt8) : width (byteFields l) = 8 * l.length := by
  induction l with
  | nil => rfl
  | cons v l ih =>
      rw [byteFields, List.map_cons, width_cons, ← byteFields, ih, List.length_cons]
      omega

lemma Holds.bits {l : List UInt8} {k : ℕ} (h : Holds b k l) : BitHolds b (8 * k) (byteFields l) := by
  induction l generalizing k with
  | nil => trivial
  | cons v l ih =>
      obtain ⟨hv, hl⟩ := h
      refine ⟨?_, ih hl⟩
      rw [readBits_byte, hv]

/-- The bytes that are read, field by field. -/
lemma BitHolds.bytes {l : List UInt8} (h : BitHolds b pos (byteFields l)) :
    ((List.range l.length).map fun i => UInt8.ofNat (readBits b (pos + 8 * i) 8)) = l := by
  induction l generalizing pos with
  | nil => rfl
  | cons v l ih =>
      obtain ⟨hv, hl⟩ := h
      rw [List.length_cons, List.range_succ_eq_map, List.map_cons, List.map_map]
      congr 1
      · rw [Nat.mul_zero, Nat.add_zero, hv, UInt8.ofNat_toNat]
      · rw [← ih hl, List.length_map, List.length_range]
        refine List.map_congr_left fun i _ => ?_
        show UInt8.ofNat (readBits b (pos + 8 * (i + 1)) 8) = _
        rw [show pos + 8 * (i + 1) = pos + 8 + 8 * i by omega]

lemma writes_memcpy (b : ℕ → UInt8) (k : ℕ) (l : List UInt8) :
    Writes b (memcpy b k l) (8 * k) (byteFields l) := by
  refine ⟨(holds_memcpy b k l).bits, fun j hj => ?_⟩
  rw [width_byteFields] at hj
  unfold bitOf
  rw [memcpy_of_notMem (by omega)]

end
end Contiki

import Mathlib.Data.List.Basic
import Mathlib.Data.Nat.Bitwise
import Mathlib.Tactic.Common
import Mathlib.Tactic.IntervalCases
import Mathlib.Tactic.NormNum

/-!
# Messages in a buffer

A message is written as a list of bytes and read at offsets of a buffer that goes on behind it.
`Holds b pos l` says that the list `l` stands in the buffer `b` at the offset `pos`.

* `holds_append` — a message in parts is read part by part.
* `Holds.get` — one byte of a message, by its offset in it.
* `holds_memcpy`, `Holds.memcpy` — what a copy puts into a buffer, and what it leaves.
* `memcpyAll_of_notMem`, `memcpyAll_filter` — what copies to several places leave.
* `byte_cases` — a statement about all bytes, decided byte by byte.
* `byte_split`, `word_split` — masks that together cover a byte or a word.
* `field_left`, `field_right` — a byte with two fields.
* `word16_of_bytes`, `word32_of_bytes` — words put together from their bytes.
-/

namespace Contiki

section
variable {α : Type*}

/-- The list stands in the buffer at the offset `pos`. -/
def Holds (b : ℕ → α) : ℕ → List α → Prop
  | _, [] => True
  | pos, a :: l => b pos = a ∧ Holds b (pos + 1) l

variable {b : ℕ → α} {pos : ℕ} {l l' : List α}

@[simp] lemma holds_nil : Holds b pos [] := trivial

@[simp] lemma holds_cons {a : α} : Holds b pos (a :: l) ↔ b pos = a ∧ Holds b (pos + 1) l := .rfl

lemma holds_append : Holds b pos (l ++ l') ↔ Holds b pos l ∧ Holds b (pos + l.length) l' := by
  induction l generalizing pos with
  | nil => simp
  | cons a l ih =>
      have hpos : pos + 1 + l.length = pos + (a :: l).length := by
        rw [List.length_cons]
        omega
      rw [List.cons_append, holds_cons, ih, hpos, holds_cons, and_assoc]

/-- The byte at an offset in the message. -/
lemma Holds.get (h : Holds b pos l) (k : ℕ) (hk : k < l.length) : b (pos + k) = l[k] := by
  induction l generalizing pos k with
  | nil => cases hk
  | cons a l ih =>
      cases k with
      | zero => exact h.1
      | succ k =>
          have hrest := ih h.2 k (Nat.lt_of_succ_lt_succ hk)
          rw [show pos + (k + 1) = pos + 1 + k by omega, hrest, List.getElem_cons_succ]

/-- Reading as many bytes as the message has gives the message. -/
lemma Holds.map_range (h : Holds b pos l) :
    ((List.range l.length).map fun k => b (pos + k)) = l := by
  apply List.ext_getElem
  · simp
  · intro k hk hl
    rw [List.getElem_map, List.getElem_range]
    exact h.get k hl

lemma holds_of_get (h : ∀ k (hk : k < l.length), b (pos + k) = l[k]) : Holds b pos l := by
  induction l generalizing pos with
  | nil => trivial
  | cons a l ih =>
      refine ⟨h 0 (Nat.succ_pos _), ih fun k hk => ?_⟩
      have hrest := h (k + 1) (Nat.succ_lt_succ hk)
      rw [show pos + 1 + k = pos + (k + 1) by omega, hrest, List.getElem_cons_succ]

/-- The buffer that has a message at its start and `a` behind it. -/
lemma holds_getD (l : List α) (a : α) : Holds (fun k => l.getD k a) 0 l :=
  holds_of_get fun k hk => by
    rw [Nat.zero_add, List.getD_eq_getElem _ _ hk]

/-! ## Copies -/

/-- The buffer with a list copied to the offset `pos`. -/
def memcpy (b : ℕ → α) (pos : ℕ) (l : List α) : ℕ → α := fun k =>
  if pos ≤ k then (l[k - pos]?).getD (b k) else b k

lemma holds_memcpy (b : ℕ → α) (pos : ℕ) (l : List α) : Holds (memcpy b pos l) pos l :=
  holds_of_get fun k hk => by
    simp [memcpy, List.getElem?_eq_getElem hk]

/-- Outside of the range that is copied to, nothing changes. -/
lemma memcpy_of_notMem {k : ℕ} (h : k < pos ∨ pos + l.length ≤ k) : memcpy b pos l k = b k := by
  unfold memcpy
  rcases h with h | h
  · rw [if_neg (Nat.not_le.mpr h)]
  · rw [if_pos (by omega), List.getElem?_eq_none (by omega), Option.getD_none]

/-- A message stays where the copy does not reach. -/
lemma Holds.memcpy {pos' : ℕ} (h : Holds b pos l)
    (hdisj : pos + l.length ≤ pos' ∨ pos' + l'.length ≤ pos) :
    Holds (memcpy b pos' l') pos l :=
  holds_of_get fun k hk => by
    rw [memcpy_of_notMem (by omega), h.get k hk]

/-- A message stays where another byte is written. -/
lemma Holds.update (h : Holds b pos l) {k : ℕ} (a : α)
    (hk : k < pos ∨ pos + l.length ≤ k) : Holds (Function.update b k a) pos l := by
  refine holds_of_get fun j hj => ?_
  rw [Function.update_of_ne (by omega)]
  exact h.get j hj

/-- Two copies, one behind the other. -/
lemma memcpy_memcpy (b : ℕ → α) (pos : ℕ) (l l' : List α) :
    memcpy (memcpy b pos l) (pos + l.length) l' = memcpy b pos (l ++ l') := by
  funext k
  by_cases hlow : k < pos
  · rw [memcpy_of_notMem (.inl (by omega)), memcpy_of_notMem (.inl hlow),
      memcpy_of_notMem (.inl hlow)]
  obtain ⟨j, rfl⟩ : ∃ j, k = pos + j := ⟨k - pos, by omega⟩
  by_cases hmid : j < l.length
  · have hleft := (holds_append.mp (holds_memcpy b pos (l ++ l'))).1
    rw [memcpy_of_notMem (.inl (by omega)), (holds_memcpy b pos l).get j hmid, hleft.get j hmid]
  obtain ⟨i, rfl⟩ : ∃ i, j = l.length + i := ⟨j - l.length, by omega⟩
  rw [← Nat.add_assoc]
  by_cases hhigh : i < l'.length
  · have hright := (holds_append.mp (holds_memcpy b pos (l ++ l'))).2
    rw [(holds_memcpy _ (pos + l.length) l').get i hhigh, hright.get i hhigh]
  · rw [memcpy_of_notMem (.inr (by omega)), memcpy_of_notMem (.inr (by omega)),
      memcpy_of_notMem (.inr (by rw [List.length_append]; omega))]

/-- Copying what stands there changes nothing. -/
lemma memcpy_of_holds (h : Holds b pos l) : Contiki.memcpy b pos l = b := by
  funext k
  by_cases hk : k < pos ∨ pos + l.length ≤ k
  · exact memcpy_of_notMem hk
  · obtain ⟨j, rfl⟩ : ∃ j, k = pos + j := ⟨k - pos, by omega⟩
    have hj : j < l.length := by omega
    rw [(holds_memcpy b pos l).get j hj, h.get j hj]

/-- Lists are copied to their places, one after the other. -/
def memcpyAll (b : ℕ → α) (writes : List (ℕ × List α)) : ℕ → α :=
  writes.foldl (fun b w => memcpy b w.1 w.2) b

variable {b : ℕ → α} {writes writes' : List (ℕ × List α)}

lemma memcpyAll_append :
    memcpyAll b (writes ++ writes') = memcpyAll (memcpyAll b writes) writes' :=
  List.foldl_append

/-- Outside of the places that are copied to, nothing changes. -/
lemma memcpyAll_of_notMem {k : ℕ} (h : ∀ w ∈ writes, k < w.1 ∨ w.1 + w.2.length ≤ k) :
    memcpyAll b writes k = b k := by
  induction writes generalizing b with
  | nil => rfl
  | cons w writes ih =>
    obtain ⟨hw, hrest⟩ := List.forall_mem_cons.mp h
    exact (ih hrest).trans (memcpy_of_notMem hw)

/-- Copies of what stands in the buffer can be left out, where the places lie one behind the
other. -/
lemma memcpyAll_filter {keep : ℕ × List α → Bool}
    (hplaces : writes.Pairwise fun w w' => w.1 + w.2.length ≤ w'.1)
    (h : ∀ w ∈ writes, keep w = false → Holds b w.1 w.2) :
    memcpyAll b (writes.filter keep) = memcpyAll b writes := by
  induction writes generalizing b with
  | nil => rfl
  | cons w writes ih =>
    obtain ⟨hw, hplaces⟩ := List.pairwise_cons.mp hplaces
    obtain ⟨hhead, hrest⟩ := List.forall_mem_cons.mp h
    cases hkeep : keep w with
    | true =>
      rw [List.filter_cons_of_pos hkeep]
      exact ih hplaces fun w' hw' hkeep' => (hrest w' hw' hkeep').memcpy (.inr (hw w' hw'))
    | false =>
      rw [List.filter_cons_of_neg (by simp [hkeep])]
      refine (ih hplaces hrest).trans ?_
      show _ = memcpyAll (memcpy b w.1 w.2) writes
      rw [memcpy_of_holds (hhead hkeep)]

end

/-! ## Bytes and words -/

/-- A statement about bytes holds of all of them when it does of the 256 bytes. -/
lemma byte_cases {P : UInt8 → Prop} (h : ∀ n : Fin 256, P (UInt8.ofNat n)) (x : UInt8) : P x := by
  have hx := h ⟨x.toNat, x.toNat_lt⟩
  rwa [UInt8.ofNat_toNat] at hx

lemma byte_or_and (x y m : UInt8) : (x ||| y) &&& m = (x &&& m) ||| (y &&& m) := by
  apply UInt8.eq_of_toBitVec_eq
  ext i
  simp [Bool.and_or_distrib_right]

/-- Two masks that together cover a byte. -/
lemma byte_split (x m m' : UInt8) (h : m ||| m' = 0xff) : (x &&& m) ||| (x &&& m') = x := by
  have hall : x &&& 0xff = x := UInt8.and_neg_one
  conv_rhs => rw [← hall, ← h]
  apply UInt8.eq_of_toBitVec_eq
  ext i hi
  simp [Bool.and_or_distrib_left]

/-- Two masks that together cover a word. -/
lemma word_split (v m m' : UInt16) (h : m ||| m' = 0xffff) : (v &&& m) ||| (v &&& m') = v := by
  have hall : v &&& 0xffff = v := UInt16.and_neg_one
  conv_rhs => rw [← hall, ← h]
  apply UInt16.eq_of_toBitVec_eq
  ext i hi
  simp [Bool.and_or_distrib_left]

/-- A byte that fits into a mask of its lowest bits. -/
lemma and_mask_of_lt {x m : UInt8} (n : ℕ) (hm : m.toNat = 2 ^ n - 1) (h : x.toNat < 2 ^ n) :
    x &&& m = x := by
  apply UInt8.toNat_inj.mp
  rw [UInt8.toNat_and, hm, Nat.and_two_pow_sub_one_eq_mod, Nat.mod_eq_of_lt h]

/-- The upper nibble, at its place. -/
lemma high_nibble (x : UInt8) : x &&& (0xf0 : UInt8) = (x >>> 4) <<< 4 := by
  apply UInt8.eq_of_toBitVec_eq
  ext i hi
  simp only [UInt8.toBitVec_and, UInt8.toBitVec_shiftLeft, UInt8.toBitVec_shiftRight]
  interval_cases i <;> simp

/-- A byte that fits into its lower nibble. -/
lemma nibble_of_lt {x : UInt8} (h : x < 16) : x &&& 0x0f = x ∧ x >>> 4 = 0 := by
  have hlt : x.toNat < 16 := h
  constructor
  · apply UInt8.toNat_inj.mp
    rw [UInt8.toNat_and]
    exact (Nat.and_two_pow_sub_one_eq_mod x.toNat 4).trans (Nat.mod_eq_of_lt hlt)
  · apply UInt8.toNat_inj.mp
    rw [UInt8.toNat_shiftRight]
    exact Nat.shiftRight_eq_zero _ _ hlt

/-- Of two fields of a byte, the mask of the first reads the first. -/
lemma field_left {x y m m' : UInt8} (h : m' &&& m = 0) :
    ((x &&& m) ||| (y &&& m')) &&& m = x &&& m := by
  rw [byte_or_and, UInt8.and_assoc, UInt8.and_self, UInt8.and_assoc, h, UInt8.and_zero,
    UInt8.or_zero]

/-- Of two fields of a byte, the mask of the second reads the second. -/
lemma field_right {x y m m' : UInt8} (h : m &&& m' = 0) :
    ((x &&& m) ||| (y &&& m')) &&& m' = y &&& m' := by
  rw [UInt8.or_comm, field_left h]

/-- Bits put behind others are added to them. -/
lemma shiftLeft_or_eq {a b n : ℕ} (hb : b < 2 ^ n) : a <<< n ||| b = a * 2 ^ n + b := by
  rw [← Nat.shiftLeft_add_eq_or_of_lt hb, Nat.shiftLeft_eq]

/-- A word of sixteen bits is put together from its bytes. -/
lemma word16_of_bytes (v : UInt16) :
    ((v >>> 8).toUInt8.toUInt16 <<< 8) ||| v.toUInt8.toUInt16 = v := by
  apply UInt16.toNat_inj.mp
  have hv : v.toNat < 2 ^ 16 := v.toNat_lt
  have hhigh : ((v >>> 8).toUInt8.toUInt16 <<< 8).toNat = (v.toNat / 2 ^ 8) <<< 8 := by
    simp [UInt16.toNat_shiftLeft, UInt16.toNat_shiftRight, Nat.shiftRight_eq_div_pow,
      Nat.shiftLeft_eq]
    omega
  rw [UInt16.toNat_or, hhigh, UInt8.toNat_toUInt16, UInt16.toNat_toUInt8,
    shiftLeft_or_eq (by omega)]
  omega

/-- A word of sixteen bits is the sum of its bytes. -/
lemma word16_add_of_bytes (v : UInt16) :
    v.toUInt8.toUInt16 + (v >>> 8).toUInt8.toUInt16 <<< 8 = v := by
  have hv := v.toNat_lt
  apply UInt16.toNat_inj.mp
  simp only [UInt16.toNat_add, UInt16.toNat_shiftLeft, UInt8.toNat_toUInt16, UInt16.toNat_toUInt8,
    UInt16.toNat_shiftRight, UInt16.reduceToNat, Nat.shiftRight_eq_div_pow, Nat.shiftLeft_eq,
    Nat.reduceMod]
  omega

/-- A word of 32 bits is put together from its bytes. -/
lemma word32_of_bytes (v : UInt32) :
    ((v >>> 24).toUInt8.toUInt32 <<< 24) ||| ((v >>> 16).toUInt8.toUInt32 <<< 16) |||
      ((v >>> 8).toUInt8.toUInt32 <<< 8) ||| v.toUInt8.toUInt32 = v := by
  apply UInt32.toNat_inj.mp
  have hv : v.toNat < 2 ^ 32 := v.toNat_lt
  have h24 : ((v >>> 24).toUInt8.toUInt32 <<< 24).toNat = (v.toNat / 2 ^ 24) <<< 24 := by
    simp [UInt32.toNat_shiftLeft, UInt32.toNat_shiftRight, Nat.shiftRight_eq_div_pow,
      Nat.shiftLeft_eq]
    omega
  have h16 : ((v >>> 16).toUInt8.toUInt32 <<< 16).toNat = (v.toNat / 2 ^ 16 % 256) <<< 16 := by
    simp [UInt32.toNat_shiftLeft, UInt32.toNat_shiftRight, Nat.shiftRight_eq_div_pow,
      Nat.shiftLeft_eq]
    omega
  have h8 : ((v >>> 8).toUInt8.toUInt32 <<< 8).toNat = (v.toNat / 2 ^ 8 % 256) <<< 8 := by
    simp [UInt32.toNat_shiftLeft, UInt32.toNat_shiftRight, Nat.shiftRight_eq_div_pow,
      Nat.shiftLeft_eq]
    omega
  rw [UInt32.toNat_or, UInt32.toNat_or, UInt32.toNat_or, h24, h16, h8, UInt8.toNat_toUInt32,
    UInt32.toNat_toUInt8]
  -- the bytes are put together from the highest on
  have hhigh : (v.toNat / 2 ^ 24) <<< 24 ||| (v.toNat / 2 ^ 16 % 256) <<< 16 =
      (v.toNat / 2 ^ 16) <<< 16 := by
    rw [Nat.shiftLeft_eq _ 16, shiftLeft_or_eq (by omega), Nat.shiftLeft_eq]
    omega
  have hmiddle : (v.toNat / 2 ^ 16) <<< 16 ||| (v.toNat / 2 ^ 8 % 256) <<< 8 =
      (v.toNat / 2 ^ 8) <<< 8 := by
    rw [Nat.shiftLeft_eq _ 8, shiftLeft_or_eq (by omega), Nat.shiftLeft_eq]
    omega
  rw [hhigh, hmiddle, shiftLeft_or_eq (by omega)]
  omega

end Contiki

import Contiki.Net.Reass

/-!
# The bitmap of the reassembly

Each bit of the bitmap stands for eight bytes.  An update sets the bits of the blocks that lie in a
range, and the check asks for exactly the blocks that lie in the packet.

* `Reass.mark_ok`, `Reass.mark_error` — the update, within the bitmap and beyond it.
* `Reass.full_ok` — the check.
-/

namespace Contiki
namespace Reass
variable {size : ℕ} {bitmap bitmap' : ℕ → BitVec 8}

/-- The bit of the block `n`. -/
def bit (bitmap : ℕ → BitVec 8) (n : ℕ) : Bool := (bitmap (n / 8)).getMsbD (n % 8)

lemma bitmapBits_getMsbD {k j : ℕ} (hk : k < 8) (hj : j < 8) :
    (bitmapBits k).getMsbD j = decide (k ≤ j) := by
  have hall : ∀ k j : Fin 8, (bitmapBits k).getMsbD j = decide (k.val ≤ j.val) := by decide
  exact hall ⟨k, hk⟩ ⟨j, hj⟩

lemma shiftRight_and_seven (x : ℕ) : (x >>> 3) &&& 7 = x / 8 % 8 := by
  rw [Nat.shiftRight_eq_div_pow]
  exact Nat.and_two_pow_sub_one_eq_mod _ 3

lemma shiftRight_six (x : ℕ) : x >>> 6 = x / 64 := Nat.shiftRight_eq_div_pow x 6

lemma orByte_ok {i : ℕ} {b : BitVec 8} (hi : i < size) :
    ∃ bitmap', orByte size bitmap i b = .ok bitmap' ∧
      ∀ n, bit bitmap' n = (bit bitmap n || (decide (n / 8 = i) && b.getMsbD (n % 8))) := by
  refine ⟨_, if_pos hi, fun n => ?_⟩
  unfold bit
  by_cases hn : n / 8 = i
  · rw [hn, Function.update_self, BitVec.getMsbD_or, decide_eq_true rfl, Bool.true_and]
  · rw [Function.update_of_ne hn, decide_eq_false hn, Bool.false_and, Bool.or_false]

lemma fill_ok {n i : ℕ} (hn : i + n ≤ size) :
    ∃ bitmap', fill size n bitmap i = .ok bitmap' ∧
      ∀ k, bit bitmap' k = (bit bitmap k || decide (i ≤ k / 8 ∧ k / 8 < i + n)) := by
  induction n generalizing bitmap i with
  | zero =>
    refine ⟨bitmap, rfl, fun k => ?_⟩
    rw [decide_eq_false (by omega), Bool.or_false]
  | succ n ih =>
    obtain ⟨bitmap', hfill, hbits⟩ := ih (i := i + 1)
      (by omega)
    refine ⟨bitmap', ?_, fun k => ?_⟩
    · rw [fill, if_pos (by omega), hfill]
    · rw [hbits]
      have hlt : k % 8 < 8 := Nat.mod_lt _ (by decide)
      have hones : ∀ j : Fin 8, (0xff : BitVec 8).getMsbD j = true := by decide
      unfold bit
      by_cases hk : k / 8 = i
      · rw [hk, Function.update_self, hones ⟨_, hlt⟩, Bool.true_or,
          decide_eq_true (show i ≤ i ∧ i < i + (n + 1) by omega), Bool.or_true]
      · have hiff : (i + 1 ≤ k / 8 ∧ k / 8 < i + 1 + n) ↔ (i ≤ k / 8 ∧ k / 8 < i + (n + 1)) := by
          omega
        rw [Function.update_of_ne hk, decide_eq_decide.mpr hiff]

/-- **The update of the bitmap**: the blocks that lie in the range are set. -/
lemma mark_ok {offset len : ℕ} (hoffset : 8 ∣ offset) (hsize : (offset + len) / 64 < size) :
    ∃ bitmap', mark size bitmap offset len = .ok bitmap' ∧
      ∀ n, bit bitmap' n =
        (bit bitmap n || decide (offset / 8 ≤ n ∧ n < (offset + len) / 8)) := by
  have hle : offset / 64 ≤ (offset + len) / 64 := Nat.div_le_div_right (Nat.le_add_right _ _)
  have hlow : offset / 8 % 8 < 8 := Nat.mod_lt _ (by decide)
  have hhigh : (offset + len) / 8 % 8 < 8 := Nat.mod_lt _ (by decide)
  unfold mark
  rw [shiftRight_six, shiftRight_six, shiftRight_and_seven, shiftRight_and_seven]
  by_cases hsame : offset / 64 = (offset + len) / 64
  · rw [if_pos hsame]
    obtain ⟨bitmap', heq, hbits⟩ := @orByte_ok size _ (offset / 64)
      (bitmapBits (offset / 8 % 8) &&& ~~~bitmapBits ((offset + len) / 8 % 8)) (by omega)
    refine ⟨bitmap', heq, fun n => ?_⟩
    have hmod : n % 8 < 8 := Nat.mod_lt _ (by decide)
    rw [hbits, BitVec.getMsbD_and, BitVec.getMsbD_not, bitmapBits_getMsbD hlow hmod,
      bitmapBits_getMsbD hhigh hmod, decide_eq_true hmod, Bool.true_and, ← decide_not,
      ← Bool.decide_and, ← Bool.decide_and]
    congr 1
    rw [decide_eq_decide]
    omega
  · rw [if_neg hsame]
    obtain ⟨b₁, h₁, hbits₁⟩ := @orByte_ok size _ (offset / 64)
      (bitmapBits (offset / 8 % 8)) (by omega)
    obtain ⟨b₂, h₂, hbits₂⟩ := @fill_ok size _
      ((offset + len) / 64 - (1 + offset / 64)) (1 + offset / 64) (by omega)
    obtain ⟨b₃, h₃, hbits₃⟩ := orByte_ok (i := (offset + len) / 64)
      (b := ~~~bitmapBits ((offset + len) / 8 % 8)) hsize
    refine ⟨b₃, ?_, fun n => ?_⟩
    · rw [h₁, ok_bind, h₂, ok_bind, h₃]
    · have hmod : n % 8 < 8 := Nat.mod_lt _ (by decide)
      rw [hbits₃, hbits₂, hbits₁, BitVec.getMsbD_not, bitmapBits_getMsbD hlow hmod,
        bitmapBits_getMsbD hhigh hmod, decide_eq_true hmod, Bool.true_and, ← decide_not,
        ← Bool.decide_and, ← Bool.decide_and, Bool.or_assoc, Bool.or_assoc, ← Bool.decide_or,
        ← Bool.decide_or]
      congr 1
      rw [decide_eq_decide]
      omega

lemma orByte_error {i : ℕ} {b : BitVec 8} (hi : size ≤ i) :
    orByte size bitmap i b = .error .bitmapBounds := if_neg (Nat.not_lt.mpr hi)

/-- An access of `uip_reassbitmap` that is out of bounds is the only error of the loop. -/
lemma fill_error {n i : ℕ} {e : ReassFault} (h : fill size n bitmap i = .error e) :
    e = .bitmapBounds := by
  induction n generalizing bitmap i with
  | zero => cases h
  | succ n ih =>
    rw [fill] at h
    split_ifs at h
    · exact ih h
    · cases h
      rfl

/-- An update that ends beyond the bitmap is out of bounds. -/
lemma mark_error {offset len : ℕ} (hsize : size ≤ (offset + len) / 64) :
    mark size bitmap offset len = .error .bitmapBounds := by
  unfold mark
  rw [shiftRight_six, shiftRight_six, shiftRight_and_seven, shiftRight_and_seven]
  by_cases hsame : offset / 64 = (offset + len) / 64
  · rw [if_pos hsame]
    exact orByte_error (by omega)
  · rw [if_neg hsame]
    cases h₁ : orByte size bitmap (offset / 64) (bitmapBits (offset / 8 % 8)) with
    | error e =>
      unfold orByte at h₁
      split_ifs at h₁
      cases h₁
      rfl
    | ok b₁ =>
      rw [ok_bind]
      cases h₂ : fill size ((offset + len) / 64 - (1 + offset / 64)) b₁ (1 + offset / 64) with
      | error e =>
        rw [fill_error h₂]
        rfl
      | ok b₂ =>
        rw [ok_bind]
        exact orByte_error hsize

/-! ## The check -/

lemma allSet_ok {n i : ℕ} (hn : i + n ≤ size) :
    ∃ b, allSet size bitmap n i = .ok b ∧
      (b = true ↔ ∀ q, i ≤ q ∧ q < i + n → bitmap q = 0xff) := by
  induction n generalizing i with
  | zero =>
    refine ⟨true, rfl, iff_of_true rfl fun q hq => ?_⟩
    omega
  | succ n ih =>
    rw [allSet, if_pos (by omega)]
    by_cases hi : bitmap i = 0xff
    · obtain ⟨b, heq, hb⟩ := ih (i := i + 1) (by omega)
      rw [if_neg (not_not_intro hi)]
      refine ⟨b, heq, hb.trans ⟨fun h q hq => ?_, fun h q hq => h q (by omega)⟩⟩
      by_cases hqi : q = i
      · rw [hqi]
        exact hi
      · exact h q (by omega)
    · rw [if_pos hi]
      exact ⟨false, rfl, iff_of_false nofun fun h => hi (h i (by omega))⟩

/-- A byte of the bitmap is full when its bits are set. -/
lemma eq_ones_iff (q : ℕ) : bitmap q = 0xff ↔ ∀ n, n / 8 = q → bit bitmap n = true := by
  have hones : ∀ j : Fin 8, (0xff : BitVec 8).getMsbD j = true := by decide
  refine ⟨fun h n hn => ?_, fun h => BitVec.eq_of_getMsbD_eq fun j hj => ?_⟩
  · unfold bit
    rw [hn, h]
    exact hones ⟨_, Nat.mod_lt _ (by decide)⟩
  · have hbit := h (8 * q + j) (by omega)
    unfold bit at hbit
    rw [show (8 * q + j) / 8 = q by omega, show (8 * q + j) % 8 = j by omega] at hbit
    exact hbit.trans (hones ⟨j, hj⟩).symm

lemma eq_mask_iff {k : ℕ} (hk : k < 8) (q : ℕ) :
    bitmap q = ~~~bitmapBits k ↔ ∀ n, n / 8 = q → bit bitmap n = decide (n % 8 < k) := by
  have hmask : ∀ j, j < 8 → (~~~bitmapBits k).getMsbD j = decide (j < k) := by
    intro j hj
    rw [BitVec.getMsbD_not, bitmapBits_getMsbD hk hj, decide_eq_true hj, Bool.true_and, ← decide_not,
      decide_eq_decide]
    omega
  refine ⟨fun h n hn => ?_, fun h => BitVec.eq_of_getMsbD_eq fun j hj => ?_⟩
  · unfold bit
    rw [hn, h]
    exact hmask _ (Nat.mod_lt _ (by decide))
  · have hbit := h (8 * q + j) (by omega)
    unfold bit at hbit
    rw [show (8 * q + j) / 8 = q by omega, show (8 * q + j) % 8 = j by omega] at hbit
    exact hbit.trans (hmask j hj).symm

/-- **The check of the bitmap**: the blocks of the packet are set, and no block behind them in the same
byte. -/
lemma full_ok {reasslen : ℕ} (hsize : reasslen / 64 < size) :
    ∃ b, full size bitmap reasslen = .ok b ∧
      (b = true ↔ ∀ n, n / 8 ≤ reasslen / 64 → bit bitmap n = decide (n < reasslen / 8)) := by
  unfold full
  obtain ⟨b, hset, hb⟩ := @allSet_ok size bitmap (reasslen / 64) 0
    (by omega)
  rw [shiftRight_six, shiftRight_and_seven, hset, ok_bind]
  have hmod : reasslen / 8 % 8 < 8 := Nat.mod_lt _ (by decide)
  cases b with
  | true =>
    have hall := hb.mp rfl
    refine ⟨decide (bitmap (reasslen / 64) = ~~~bitmapBits (reasslen / 8 % 8)), ?_, ?_⟩
    · rw [if_pos rfl, if_pos hsize]
    · rw [decide_eq_true_eq, eq_mask_iff hmod]
      refine ⟨fun h n hn => ?_, fun h n hn => ?_⟩
      · by_cases hlast : n / 8 = reasslen / 64
        · rw [h n hlast, decide_eq_decide]
          omega
        · rw [(eq_ones_iff (n / 8)).mp (hall (n / 8) (by omega)) n rfl, eq_comm, decide_eq_true_eq]
          omega
      · rw [h n hn.le, decide_eq_decide]
        omega
  | false =>
    refine ⟨false, rfl, iff_of_false nofun fun h => ?_⟩
    refine absurd (hb.mpr fun q hq => (eq_ones_iff q).mpr fun n hn => ?_) nofun
    rw [h n (by omega), decide_eq_true_eq]
    omega

end Reass
end Contiki

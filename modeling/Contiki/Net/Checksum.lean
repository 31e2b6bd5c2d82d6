import Contiki.Lib.OnesComplement
import Contiki.Net.Uip6
import Contiki.Sicslowpan.Hc06Roundtrip

/-!
# Checksums

`chksum` adds words with their carry, so that its result is the one's complement sum of the words.  A
message whose checksum field holds the complement of the checksum of the rest verifies.

* `chksum_toNat`, `chksum_mod` — the sum that `chksum` computes.
* `wordSum_memcpy` — a word is put into what it covers.
* `UipBuf.upperLayerChksum_fill`, `UipBuf.upperLayerChksum_complement` — a checksum that is filled in
  verifies.
-/

namespace Contiki

/-- The sum of the words of a message, the last octet of an odd number of them taken for the higher one. -/
def wordSum (bytes : ℕ → UInt8) : ℕ → ℕ → ℕ
  | _, 0 => 0
  | pos, 1 => ((bytes pos).toUInt16 <<< 8).toNat
  | pos, len + 2 => (wordAt bytes pos).toNat + wordSum bytes (pos + 2) len

/-- A carry is added back. -/
lemma addCarry_toNat (sum t : UInt16) :
    (addCarry sum t).toNat = endAround 65535 (sum.toNat + t.toNat) := by
  have hsum := sum.toNat_lt
  have ht := t.toNat_lt
  unfold addCarry
  split_ifs with hcarry
  · rw [UInt16.lt_iff_toNat_lt, UInt16.toNat_add] at hcarry
    rw [UInt16.toNat_add, UInt16.toNat_add, UInt16.toNat_one, endAround_of_gt (by omega) (by omega)]
    omega
  · rw [UInt16.lt_iff_toNat_lt, UInt16.toNat_add] at hcarry
    rw [UInt16.toNat_add, endAround_of_le (by omega)]
    omega

/-- The checksum is the one's complement sum of the words, by induction on their number. -/
lemma chksum_toNat (bytes : ℕ → UInt8) (sum : UInt16) (pos len : ℕ) :
    (chksum bytes sum pos len).toNat = endAround 65535 (sum.toNat + wordSum bytes pos len) := by
  induction len using Nat.twoStepInduction generalizing sum pos with
  | zero =>
    have hsum := sum.toNat_lt
    rw [chksum, wordSum, endAround_of_le (by omega)]
    rfl
  | one =>
    rw [chksum, wordSum]
    exact addCarry_toNat _ _
  | more len ih _ => rw [chksum, ih, wordSum, addCarry_toNat, endAround_add, Nat.add_assoc]

lemma chksum_mod (bytes : ℕ → UInt8) (sum : UInt16) (pos len : ℕ) :
    (chksum bytes sum pos len).toNat % 65535 = (sum.toNat + wordSum bytes pos len) % 65535 := by
  rw [chksum_toNat]
  exact endAround_modEq _ _

lemma shiftedByte_toNat (x : UInt8) : (x.toUInt16 <<< 8).toNat = x.toNat * 256 := by
  have hx := x.toNat_lt
  rw [UInt16.toNat_shiftLeft, UInt8.toNat_toUInt16, Nat.shiftLeft_eq]
  show x.toNat * 2 ^ 8 % 2 ^ 16 = _
  omega

lemma wordAt_toNat (b : ℕ → UInt8) (pos : ℕ) :
    (wordAt b pos).toNat = (b pos).toNat * 256 + (b (pos + 1)).toNat := by
  have hlow := (b (pos + 1)).toNat_lt
  unfold wordAt
  rw [UInt16.toNat_or, shiftedByte_toNat, UInt8.toNat_toUInt16, Nat.mul_comm _ 256]
  exact (Nat.two_pow_add_eq_or_of_lt (i := 8) hlow _).symm

lemma toNat_eq_zero_iff (x : UInt8) : x.toNat = 0 ↔ x = 0 := UInt8.toNat_inj (b := 0)

/-- The words sum up to zero only if all bytes are zero. -/
lemma wordSum_eq_zero_iff {b : ℕ → UInt8} {pos len : ℕ} :
    wordSum b pos len = 0 ↔ ∀ k < len, b (pos + k) = 0 := by
  induction len using Nat.twoStepInduction generalizing pos with
  | zero => simp [wordSum]
  | one =>
    rw [wordSum, shiftedByte_toNat]
    constructor
    · intro hsum k hk
      obtain rfl : k = 0 := by omega
      have hbyte : (b pos).toNat = 0 := by omega
      exact (toNat_eq_zero_iff _).mp hbyte
    · intro hbytes
      have hbyte : b pos = 0 := hbytes 0 Nat.one_pos
      rw [hbyte]
      rfl
  | more len ih _ =>
    rw [wordSum, wordAt_toNat, Nat.add_eq_zero_iff, ih]
    constructor
    · rintro ⟨hword, hrest⟩ k hk
      obtain rfl | rfl | hbehind : k = 0 ∨ k = 1 ∨ 2 ≤ k := by omega
      · have hfirst : (b pos).toNat = 0 := by omega
        exact (toNat_eq_zero_iff _).mp hfirst
      · exact (toNat_eq_zero_iff _).mp (by omega)
      · rw [show pos + k = pos + 2 + (k - 2) by omega]
        exact hrest (k - 2) (by omega)
    · intro hbytes
      have hfirst : b pos = 0 := hbytes 0 (by omega)
      have hsecond : b (pos + 1) = 0 := hbytes 1 (by omega)
      refine ⟨by rw [hfirst, hsecond]; rfl, fun k hk => ?_⟩
      rw [show pos + 2 + k = pos + (k + 2) by omega]
      exact hbytes (k + 2) (by omega)

lemma wordSum_congr {b b' : ℕ → UInt8} {pos len : ℕ} (h : ∀ k < len, b' (pos + k) = b (pos + k)) :
    wordSum b' pos len = wordSum b pos len := by
  induction len using Nat.twoStepInduction generalizing pos with
  | zero => rfl
  | one =>
    have hbyte : b' pos = b pos := h 0 Nat.one_pos
    rw [wordSum, wordSum, hbyte]
  | more len ih _ =>
    have hfirst : b' pos = b pos := h 0 (Nat.succ_pos _)
    have hsecond : b' (pos + 1) = b (pos + 1) := h 1 (by omega)
    have hword : wordAt b' pos = wordAt b pos := by
      rw [wordAt, wordAt, hfirst, hsecond]
    rw [wordSum, wordSum, hword, ih fun k hk => ?_]
    rw [show pos + 2 + k = pos + (k + 2) by omega]
    exact h (k + 2) (by omega)

/-- A word at an even offset takes the place of another one. -/
lemma wordSum_memcpy (b : ℕ → UInt8) (pos : ℕ) (v : UInt16) {k len : ℕ} (hk : 2 * k + 2 ≤ len) :
    wordSum (memcpy b (pos + 2 * k) (wordBytes v)) pos len + (wordAt b (pos + 2 * k)).toNat =
      wordSum b pos len + v.toNat := by
  have hlen : (wordBytes v).length = 2 := rfl
  induction k generalizing pos len with
  | zero =>
    obtain ⟨len, rfl⟩ : ∃ n, len = n + 2 := ⟨len - 2, by omega⟩
    have hword : wordAt (memcpy b pos (wordBytes v)) pos = v :=
      Sicslowpan.wordAt_of_holds (holds_memcpy _ _ _)
    have hrest : wordSum (memcpy b pos (wordBytes v)) (pos + 2) len = wordSum b (pos + 2) len :=
      wordSum_congr fun j hj => memcpy_of_notMem (.inr (by omega))
    rw [Nat.mul_zero, Nat.add_zero, wordSum, wordSum, hword, hrest]
    omega
  | succ k ih =>
    obtain ⟨len, rfl⟩ : ∃ n, len = n + 2 := ⟨len - 2, by omega⟩
    have hplace : pos + 2 * (k + 1) = pos + 2 + 2 * k := by omega
    have hword : wordAt (memcpy b (pos + 2 + 2 * k) (wordBytes v)) pos = wordAt b pos := by
      unfold wordAt
      rw [memcpy_of_notMem (.inl (by omega)), memcpy_of_notMem (.inl (by omega))]
    have hrest : wordSum (memcpy b (pos + 2 + 2 * k) (wordBytes v)) (pos + 2) len +
        (wordAt b (pos + 2 + 2 * k)).toNat = wordSum b (pos + 2) len + v.toNat := ih (pos + 2) (by omega)
    rw [hplace, wordSum, wordSum, hword]
    omega

namespace UipBuf

lemma upperLayerChksum_mod (p : UipBuf) (base : ℕ) (proto : UInt8) :
    (p.upperLayerChksum base proto).toNat % 65535 = ((p.upperLayerLen base + proto.toUInt16).toNat +
      wordSum p.bytes 8 32 + wordSum p.bytes base (p.upperLayerLen base).toNat) % 65535 := by
  unfold upperLayerChksum
  dsimp only
  have hpseudo := chksum_mod p.bytes (p.upperLayerLen base + proto.toUInt16) 8 32
  have hupper := chksum_mod p.bytes (chksum p.bytes (p.upperLayerLen base + proto.toUInt16) 8 32) base
    (p.upperLayerLen base).toNat
  split_ifs with hzero
  · rw [hzero] at hupper
    rw [UInt16.toNat_zero] at hupper
    show 65535 % 65535 = _
    omega
  · omega

/-- The checksum that is computed is never zero. -/
lemma upperLayerChksum_ne_zero (p : UipBuf) (base : ℕ) (proto : UInt8) :
    p.upperLayerChksum base proto ≠ 0 := by
  unfold upperLayerChksum
  dsimp only
  split_ifs with hzero
  · exact fun h => absurd h (by decide)
  · exact hzero

/-- A field that was zero is filled with what the checksum lacks, modulo 65535: the checksum verifies. -/
lemma upperLayerChksum_fill (p : UipBuf) {base k : ℕ} (proto : UInt8) {v : UInt16}
    (hv : (v.toNat + (p.upperLayerChksum base proto).toNat) % 65535 = 0) (hbase : uipIphLen ≤ base)
    (hk : 2 * k + 2 ≤ (p.upperLayerLen base).toNat) (hzero : wordAt p.bytes (base + 2 * k) = 0) :
    (⟨memcpy p.bytes (base + 2 * k) (wordBytes v), p.len⟩ : UipBuf).upperLayerChksum base proto =
      0xffff := by
  have hiph : uipIphLen = 40 := rfl
  set p' : UipBuf := ⟨memcpy p.bytes (base + 2 * k) (wordBytes v), p.len⟩ with hp'
  have hbytes : p'.bytes = memcpy p.bytes (base + 2 * k) (wordBytes v) := rfl
  have hpayload : p'.payloadLen = p.payloadLen := by
    unfold payloadLen wordAt
    rw [hbytes, memcpy_of_notMem (.inl (by omega)), memcpy_of_notMem (.inl (by omega))]
  have hlen : p'.upperLayerLen base = p.upperLayerLen base := by
    unfold upperLayerLen
    rw [hpayload]
  have hpseudo : wordSum p'.bytes 8 32 = wordSum p.bytes 8 32 :=
    wordSum_congr fun j hj => memcpy_of_notMem (.inl (by omega))
  have hupper := wordSum_memcpy p.bytes base v hk
  rw [hzero, UInt16.toNat_zero, Nat.add_zero, ← hbytes] at hupper
  -- the sum of the rest and of the field is a multiple of 65535
  have hbefore := p.upperLayerChksum_mod base proto
  have hafter := p'.upperLayerChksum_mod base proto
  have hne := p'.upperLayerChksum_ne_zero base proto
  have hlt' := (p'.upperLayerChksum base proto).toNat_lt
  have hpos : (p'.upperLayerChksum base proto).toNat ≠ 0 := fun h => hne (UInt16.toNat_inj.mp h)
  rw [hlen, hpseudo, hupper] at hafter
  apply UInt16.toNat_inj.mp
  show _ = 65535
  omega

/-- The complement of the checksum, in a field that was zero, makes the checksum verify. -/
lemma upperLayerChksum_complement (p : UipBuf) {base k : ℕ} (proto : UInt8) (hbase : uipIphLen ≤ base)
    (hk : 2 * k + 2 ≤ (p.upperLayerLen base).toNat) (hzero : wordAt p.bytes (base + 2 * k) = 0) :
    (⟨memcpy p.bytes (base + 2 * k) (wordBytes (~~~p.upperLayerChksum base proto)), p.len⟩ :
      UipBuf).upperLayerChksum base proto = 0xffff := by
  refine p.upperLayerChksum_fill proto ?_ hbase hk hzero
  have hnot : (~~~p.upperLayerChksum base proto).toNat =
      65535 - (p.upperLayerChksum base proto).toNat := UInt16.toNat_not _
  have hlt := (p.upperLayerChksum base proto).toNat_lt
  omega

end UipBuf
end Contiki

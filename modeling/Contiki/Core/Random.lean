import Mathlib.Data.Nat.ModEq
import Mathlib.Logic.Function.Iterate
import Mathlib.Tactic.Common

/-!
# Random numbers

`random_rand` multiplies its state by 16807 modulo the prime 2³¹ - 1.  The product is put together from
the halves of the state.  Modulo the prime 2³¹ counts as one, so that the bits of the product from this one
on are added as a number of their own.

* `toNat_randomProduct` — the sum of the parts, in which no carry is lost.
* `toNat_randomNext` — the next state, as a number.
* `RandomState.run` — the states of a generator.
* `randomRand_states` — the generator, from its own states and from the seeds.
-/

namespace Contiki

/-- The modulus of the generator. -/
def randomModulus : ℕ := 2147483647

/-- The two products of `random_rand`, put together in `lo`. -/
def randomProduct (state : UInt32) : UInt32 :=
  let lo := (16807 : UInt32) * state.toUInt16.toUInt32
  let hi := (16807 : UInt32) * (state >>> 16).toUInt16.toUInt32
  let lo := lo + ((hi &&& 0x7fff) <<< 16)
  let hi := hi <<< 1
  lo + (hi >>> 16).toUInt16.toUInt32

/-- The state that `random_rand` leaves. -/
def randomNext (state : UInt32) : UInt32 :=
  let lo := randomProduct state
  if lo.toInt32 ≤ 0 then lo - 0x7fffffff else lo

/-- `random_rand`: what it returns, where `int16` says whether an `int` has sixteen bits, and the state. -/
def randomRand (int16 : Bool) (state : UInt32) : UInt16 × UInt32 :=
  let lo := randomNext state
  (if int16 then ((lo ^^^ (lo >>> 16)) &&& 0x7fff).toUInt16 else (lo &&& 0x7fff).toUInt16, lo)

def randomInit (seed : UInt16) : UInt32 := seed.toUInt32

/-- The states of the generator: the numbers that are not zero modulo the prime. -/
def RandomState (state : UInt32) : Prop := 1 ≤ state.toNat ∧ state.toNat < randomModulus

instance (state : UInt32) : Decidable (RandomState state) := inferInstanceAs (Decidable (_ ∧ _))

/-! ## One number -/

variable {state : UInt32}

/-- **No carry is lost** when the parts of the product are added. -/
lemma toNat_randomProduct (h : state.toNat < 2 ^ 31) :
    (randomProduct state).toNat = 16807 * (state.toNat % 65536) +
      16807 * (state.toNat / 65536) % 32768 * 65536 + 16807 * (state.toNat / 65536) / 32768 := by
  have hlow : ((16807 : UInt32) * state.toUInt16.toUInt32).toNat = 16807 * (state.toNat % 65536) := by
    rw [UInt32.toNat_mul, UInt16.toNat_toUInt32, UInt32.toNat_toUInt16]
    change 16807 * (state.toNat % 65536) % 4294967296 = _
    omega
  have hhigh : ((16807 : UInt32) * (state >>> 16).toUInt16.toUInt32).toNat = 16807 * (state.toNat / 65536) := by
    rw [UInt32.toNat_mul, UInt16.toNat_toUInt32, UInt32.toNat_toUInt16, UInt32.toNat_shiftRight]
    change 16807 * ((state.toNat >>> 16) % 65536) % 4294967296 = _
    rw [Nat.shiftRight_eq_div_pow]
    have hshort : state.toNat / 2 ^ 16 < 65536 := by omega
    rw [Nat.mod_eq_of_lt hshort]
    change 16807 * (state.toNat / 65536) % 4294967296 = _
    omega
  unfold randomProduct
  dsimp only
  generalize (16807 : UInt32) * state.toUInt16.toUInt32 = lo at hlow ⊢
  generalize (16807 : UInt32) * (state >>> 16).toUInt16.toUInt32 = hi at hhigh ⊢
  have hmiddle : ((hi &&& 0x7fff) <<< 16).toNat = hi.toNat % 32768 * 65536 := by
    rw [UInt32.toNat_shiftLeft, UInt32.toNat_and]
    change ((hi.toNat &&& 2 ^ 15 - 1) <<< 16) % 4294967296 = _
    rw [Nat.and_two_pow_sub_one_eq_mod, Nat.shiftLeft_eq]
    omega
  have htop : (hi <<< 1 >>> 16).toUInt16.toUInt32.toNat = hi.toNat / 32768 := by
    rw [UInt16.toNat_toUInt32, UInt32.toNat_toUInt16, UInt32.toNat_shiftRight, UInt32.toNat_shiftLeft]
    change ((hi.toNat <<< 1 % 4294967296) >>> 16) % 65536 = _
    have hdouble : hi.toNat * 2 ^ 1 < 4294967296 := by omega
    rw [Nat.shiftLeft_eq, Nat.shiftRight_eq_div_pow, Nat.mod_eq_of_lt hdouble]
    have hshort : hi.toNat * 2 ^ 1 / 2 ^ 16 < 65536 := by omega
    rw [Nat.mod_eq_of_lt hshort]
    omega
  rw [UInt32.toNat_add, UInt32.toNat_add, hmiddle, htop, hlow, hhigh]
  omega

/-- The sign bit of a word. -/
lemma toInt32_le_zero_iff (lo : UInt32) : lo.toInt32 ≤ 0 ↔ lo.toNat = 0 ∨ 2 ^ 31 ≤ lo.toNat := by
  have hint : lo.toInt32.toInt = (lo.toNat : ℤ).bmod (2 ^ 32) := BitVec.toInt_eq_toNat_bmod _
  rw [Int32.le_iff_toInt_le, hint, Int.bmod_def, Int32.toInt_zero]
  have hlt := lo.toNat_lt
  split_ifs with hsmall
  · omega
  · omega

/-- **The next state** is the product modulo the prime. -/
lemma toNat_randomNext (h : RandomState state) :
    (randomNext state).toNat = 16807 * state.toNat % randomModulus := by
  obtain ⟨hpos, hlt⟩ := h
  unfold randomModulus at hlt ⊢
  have hproduct := toNat_randomProduct (show state.toNat < 2 ^ 31 by omega)
  have hnot : ¬2147483647 ∣ 16807 * state.toNat := by
    intro hdvd
    have hcoprime : Nat.Coprime 2147483647 16807 := by decide
    exact absurd (Nat.le_of_dvd hpos (hcoprime.dvd_of_dvd_mul_left hdvd)) (Nat.not_le.mpr hlt)
  -- the bits from 2³¹ on are counted as a number of their own
  have hsum : 16807 * state.toNat =
      (randomProduct state).toNat + 16807 * (state.toNat / 65536) / 32768 * 2147483647 := by
    omega
  have hbound : (randomProduct state).toNat < 2 * 2147483647 := by
    have hhigh : state.toNat / 65536 < 32768 := by omega
    omega
  have hpositive : (randomProduct state).toNat ≠ 0 := fun hzero => hnot ⟨_, by
    rw [hsum, hzero, Nat.zero_add, Nat.mul_comm]⟩
  have hmodulus : (randomProduct state).toNat ≠ 2147483647 := fun hone => hnot
    ⟨16807 * (state.toNat / 65536) / 32768 + 1, by
      rw [hsum, hone, Nat.mul_add, Nat.mul_comm, Nat.mul_one, Nat.add_comm]⟩
  rw [hsum, Nat.add_mul_mod_self_right]
  unfold randomNext
  dsimp only
  generalize randomProduct state = lo at hbound hpositive hmodulus ⊢
  have hiff := toInt32_le_zero_iff lo
  split_ifs with hsign
  · have hlarge : 2 ^ 31 ≤ lo.toNat := (hiff.mp hsign).resolve_left hpositive
    have hle : (0x7fffffff : UInt32) ≤ lo := by
      rw [UInt32.le_iff_toNat_le]
      change 2147483647 ≤ lo.toNat
      omega
    rw [UInt32.toNat_sub_of_le _ _ hle, Nat.mod_eq_sub_mod (by omega)]
    change lo.toNat - 2147483647 = _
    exact (Nat.mod_eq_of_lt (by omega)).symm
  · have hsmall : lo.toNat < 2147483647 := by
      have hnonneg := mt hiff.mpr hsign
      omega
    exact (Nat.mod_eq_of_lt hsmall).symm

lemma RandomState.next (h : RandomState state) : RandomState (randomNext state) := by
  have hnext := toNat_randomNext h
  obtain ⟨hpos, hlt⟩ := h
  have hcoprime : Nat.Coprime randomModulus 16807 := by decide
  constructor
  · rw [hnext, Nat.one_le_iff_ne_zero]
    intro hzero
    have hdvd := hcoprime.dvd_of_dvd_mul_left (Nat.dvd_of_mod_eq_zero hzero)
    exact absurd (Nat.le_of_dvd hpos hdvd) (Nat.not_le.mpr hlt)
  · rw [hnext]
    exact Nat.mod_lt _ (by decide)

/-! ## The states of a generator -/

/-- The state after some calls of `random_rand`. -/
def randomStates (int16 : Bool) (state : UInt32) (n : ℕ) : UInt32 :=
  (fun s => (randomRand int16 s).2)^[n] state

variable {int16 : Bool} {n : ℕ}

lemma randomStates_succ : randomStates int16 state (n + 1) = randomNext (randomStates int16 state n) := by
  unfold randomStates
  rw [Function.iterate_succ_apply']
  rfl

/-- The states are the powers of the multiplier. -/
lemma RandomState.run (h : RandomState state) (n : ℕ) : RandomState (randomStates int16 state n) ∧
    (randomStates int16 state n).toNat = 16807 ^ n * state.toNat % randomModulus := by
  induction n with
  | zero =>
    refine ⟨h, ?_⟩
    rw [Nat.pow_zero, Nat.one_mul, Nat.mod_eq_of_lt h.2]
    rfl
  | succ n ih =>
    obtain ⟨hstate, hpower⟩ := ih
    rw [randomStates_succ]
    refine ⟨hstate.next, ?_⟩
    rw [toNat_randomNext hstate, hpower, Nat.mul_mod_mod, Nat.pow_succ, Nat.mul_comm (16807 ^ n) 16807,
      Nat.mul_assoc]

/-- From the seed 0 the first state is no state of the generator, but the second is. -/
lemma randomStates_zero (int16 : Bool) : RandomState (randomStates int16 0 2) := by
  have hnext : randomStates int16 0 (0 + 1 + 1) = randomNext (randomNext 0) := by
    rw [randomStates_succ, randomStates_succ]
    rfl
  exact hnext ▸ (by decide : RandomState (randomNext (randomNext 0)))

/-- From every seed the second state and all that follow are states of the generator. -/
lemma randomStates_seed (int16 : Bool) (seed : UInt16) (hn : 2 ≤ n) :
    RandomState (randomStates int16 (randomInit seed) n) := by
  by_cases hseed : seed = 0
  · obtain ⟨k, rfl⟩ := Nat.exists_eq_add_of_le' hn
    have hsplit : randomStates int16 0 (k + 2) = randomStates int16 (randomStates int16 0 2) k :=
      Function.iterate_add_apply _ k 2 0
    rw [hseed]
    exact hsplit ▸ ((randomStates_zero int16).run k).1
  · refine (RandomState.run ⟨?_, ?_⟩ n).1
    · rw [Nat.one_le_iff_ne_zero]
      exact fun hzero => hseed (UInt16.toNat_inj.mp hzero)
    · have hlt := seed.toNat_lt
      change seed.toNat < 2147483647
      omega

/-- **The generator.**  From a state of its own `random_rand` takes the next one, the product modulo the
prime, and in the sum that it is taken from no carry is lost; so all states that follow are its own.  From
a seed the second state is, and all that follow. -/
theorem randomRand_states (int16 : Bool) :
    (∀ state, RandomState state →
      (randomRand int16 state).2.toNat = 16807 * state.toNat % randomModulus ∧
        (randomProduct state).toNat = 16807 * (state.toNat % 65536) +
          16807 * (state.toNat / 65536) % 32768 * 65536 + 16807 * (state.toNat / 65536) / 32768 ∧
        ∀ n, RandomState (randomStates int16 state n)) ∧
      ∀ seed n, 2 ≤ n → RandomState (randomStates int16 (randomInit seed) n) := by
  refine ⟨fun state h => ⟨toNat_randomNext h, ?_, fun n => (h.run n).1⟩, fun seed n hn => ?_⟩
  · exact toNat_randomProduct (h.2.trans (by decide))
  · exact randomStates_seed int16 seed hn

end Contiki

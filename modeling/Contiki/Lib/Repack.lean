import Mathlib.Data.Nat.Digits.Lemmas

/-!
# Groups of bits, taken apart anew

Groups of `a` bits go into an accumulator one after the other, each above what is there already, and groups
of `b` bits are taken out at its low end.  `Repacked a b xs ys val bits` says that `xs` went in, `ys` came out,
and the accumulator now holds the `bits` bits of `val`.

* `Repacked.put`, `Repacked.take` — the two moves.
* `Repacked.get` — each group that came out is where it stood in what went in.
* `Repacked.inverse` — taking groups apart and putting them together again.
-/

namespace Contiki

/-- The groups `xs` went in, the groups `ys` came out, and the rest is left. -/
structure Repacked (a b : ℕ) (xs ys : List ℕ) (val bits : ℕ) : Prop where
  sum : Nat.ofDigits (2 ^ a) xs = Nat.ofDigits (2 ^ b) ys + 2 ^ (b * ys.length) * val
  length : a * xs.length = b * ys.length + bits
  lt : val < 2 ^ bits
  groups : ∀ y ∈ ys, y < 2 ^ b

namespace Repacked
variable {a b val bits : ℕ} {xs ys : List ℕ}

lemma start (a b : ℕ) : Repacked a b [] [] 0 0 := ⟨rfl, rfl, Nat.one_pos, nofun⟩

/-- A group goes in above the bits that are there. -/
lemma put (h : Repacked a b xs ys val bits) {x : ℕ} (hx : x < 2 ^ a) :
    Repacked a b (xs ++ [x]) ys (val + 2 ^ bits * x) (bits + a) := by
  refine ⟨?_, ?_, ?_, h.groups⟩
  · have hpow : (2 ^ a) ^ xs.length = 2 ^ (b * ys.length) * 2 ^ bits := by
      rw [← pow_mul, h.length, pow_add]
    rw [Nat.ofDigits_append, Nat.ofDigits_singleton, h.sum, hpow]
    ring
  · rw [List.length_append, List.length_singleton, Nat.mul_add, h.length]
    omega
  · have hlt := h.lt
    calc val + 2 ^ bits * x < 2 ^ bits * 1 + 2 ^ bits * x := by omega
      _ = 2 ^ bits * (1 + x) := (Nat.mul_add _ _ _).symm
      _ ≤ 2 ^ bits * 2 ^ a := Nat.mul_le_mul_left _ (by omega)
      _ = 2 ^ (bits + a) := (pow_add 2 bits a).symm

/-- A group comes out at the low end. -/
lemma take (h : Repacked a b xs ys val bits) (hbits : b ≤ bits) :
    Repacked a b xs (ys ++ [val % 2 ^ b]) (val / 2 ^ b) (bits - b) := by
  refine ⟨?_, ?_, ?_, ?_⟩
  · have hsplit := Nat.mod_add_div val (2 ^ b)
    rw [Nat.ofDigits_append, Nat.ofDigits_singleton, h.sum, List.length_append, List.length_singleton,
      ← pow_mul, Nat.mul_add, Nat.mul_one, pow_add]
    calc Nat.ofDigits (2 ^ b) ys + 2 ^ (b * ys.length) * val
        = Nat.ofDigits (2 ^ b) ys + 2 ^ (b * ys.length) * (val % 2 ^ b + 2 ^ b * (val / 2 ^ b)) := by rw [hsplit]
      _ = _ := by ring
  · rw [List.length_append, List.length_singleton, h.length]
    have hmul := Nat.mul_add b ys.length 1
    omega
  · apply Nat.div_lt_of_lt_mul
    rw [← pow_add, Nat.add_sub_cancel' hbits]
    exact h.lt
  · intro y hy
    rcases List.mem_append.mp hy with hy | hy
    · exact h.groups y hy
    · rw [List.mem_singleton.mp hy]
      exact Nat.mod_lt _ (Nat.two_pow_pos b)

/-- A group that came out is where it stood. -/
lemma get (h : Repacked a b xs ys val bits) {k : ℕ} (hk : k < ys.length) :
    ys[k] = Nat.ofDigits (2 ^ a) xs / (2 ^ b) ^ k % 2 ^ b := by
  have hpos := Nat.two_pow_pos b
  have hlength : ys.length = k + 1 + (ys.length - k - 1) := by omega
  have hpow : 2 ^ (b * ys.length) * val = (2 ^ b) ^ k * (2 ^ b * ((2 ^ b) ^ (ys.length - k - 1) * val)) := by
    conv_lhs => rw [hlength]
    rw [pow_mul, pow_add, pow_add]
    ring
  rw [h.sum, hpow, Nat.add_mul_div_left _ _ (Nat.pow_pos hpos), Nat.add_mul_mod_self_left,
    Nat.ofDigits_div_pow_eq_ofDigits_drop k hpos ys h.groups, List.drop_eq_getElem_cons hk,
    Nat.ofDigits_cons, Nat.add_mul_mod_self_left, Nat.mod_eq_of_lt (h.groups _ (List.getElem_mem hk))]

/-- **Groups that are taken apart whole and put together again** are the groups there were. -/
lemma inverse {zs : List ℕ} (h : Repacked a b xs ys 0 0) (h' : Repacked b a ys zs val bits) (ha : 0 < a)
    (hxs : ∀ x ∈ xs, x < 2 ^ a) (hbits : bits < a) : zs = xs ∧ bits = 0 := by
  have hlength : zs.length = xs.length ∧ bits = 0 := by
    have hout := h.length
    have hback := h'.length
    rw [Nat.add_zero] at hout
    rw [← hout] at hback
    have hmod := congrArg (· % a) hback
    simp only [Nat.mul_mod_right, Nat.mul_add_mod, Nat.mod_eq_of_lt hbits] at hmod
    rw [← hmod, Nat.add_zero] at hback
    exact ⟨(Nat.eq_of_mul_eq_mul_left ha hback).symm, hmod.symm⟩
  refine ⟨?_, hlength.2⟩
  have hval : val = 0 := by
    have hlt := h'.lt
    rw [hlength.2] at hlt
    omega
  have hsum := h.sum
  rw [h'.sum, hval] at hsum
  apply Nat.ofDigits_inj_of_len_eq (Nat.one_lt_two_pow (by omega)) hlength.1 h'.groups hxs
  simpa using hsum.symm

end Repacked
end Contiki

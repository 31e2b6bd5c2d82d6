import Contiki.Lib.Bits
import Contiki.Lib.Search
import Contiki.Net.Ds6

/-!
# Source address selection

`uip_ds6_select_src` searches the addresses of the interface for the one that has the most leading bits
in common with the destination.

* `IpAddr.commonPrefix`, `getMatchLength_eq` — the number of equal leading bits, which is what
  `get_match_length` counts.
* `SelectsBest` — a longest match is picked, and the unspecified address if there is nothing to pick.
* `uipDs6SelectSrc_selects` — that is so, where the unspecified address is none of the addresses.
-/

namespace Contiki

/-! ## Equal leading bits -/

/-- The bit `k` of an address. -/
def IpAddr.bitAt (a : IpAddr) (k : ℕ) : Bool := bitOf (fun j => a.u8.getD j 0) k

/-- The number of leading bits that two addresses have in common. -/
def IpAddr.commonPrefix (a b : IpAddr) : ℕ :=
  ((List.range 128).takeWhile fun k => a.bitAt k == b.bitAt k).length

/-- The length of a prefix on which a property holds is found by the place where it ends. -/
lemma length_takeWhile_range {p : ℕ → Bool} {m n : ℕ} (hmn : m ≤ n) (hall : ∀ k < m, p k = true)
    (hend : m < n → p m = false) : ((List.range n).takeWhile p).length = m := by
  obtain ⟨d, rfl⟩ := Nat.exists_eq_add_of_le hmn
  have hprefix : ∀ k ∈ List.range m, p k = true := fun k hk => hall k (List.mem_range.mp hk)
  rw [List.range_add, List.takeWhile_append_of_pos hprefix, List.length_append, List.length_range]
  cases d with
  | zero => rfl
  | succ d =>
    have hneg : ¬p m = true := by
      rw [hend (by omega)]
      exact Bool.false_ne_true
    rw [List.range_succ_eq_map, List.map_cons, Nat.add_zero, List.takeWhile_cons_of_neg hneg]
    rfl

lemma topBit_iff (z : UInt8) : z &&& 0x80 = 0 ↔ z.toNat.testBit 7 = false := by
  have hand : z.toNat &&& 2 ^ 7 = (z.toNat.testBit 7).toNat * 2 ^ 7 := Nat.and_two_pow _ _
  rw [← UInt8.toNat_inj, UInt8.toNat_and]
  show z.toNat &&& 2 ^ 7 = 0 ↔ _
  rw [hand]
  cases z.toNat.testBit 7 <;> simp

lemma testBit_shiftLeft_one (z : UInt8) {i : ℕ} (hi : i < 7) :
    (z <<< 1).toNat.testBit (7 - i) = z.toNat.testBit (7 - (i + 1)) := by
  rw [UInt8.toNat_shiftLeft]
  show (z.toNat <<< 1 % 2 ^ 8).testBit (7 - i) = _
  rw [Nat.testBit_mod_two_pow, Nat.testBit_shiftLeft, decide_eq_true (by omega), decide_eq_true (by omega),
    Bool.true_and, Bool.true_and]
  rfl

/-- The inner loop counts the leading zeros among the `k` bits that it looks at. -/
lemma leadingZeros_spec {k : ℕ} (hk : k ≤ 8) (z : UInt8) :
    (leadingZeros k z).toNat ≤ k ∧ (∀ i < (leadingZeros k z).toNat, z.toNat.testBit (7 - i) = false) ∧
      ((leadingZeros k z).toNat < k → z.toNat.testBit (7 - (leadingZeros k z).toNat) = true) := by
  induction k generalizing z with
  | zero => simp [leadingZeros]
  | succ k ih =>
    rw [leadingZeros]
    split_ifs with htop
    · obtain ⟨hle, hzeros, hone⟩ := ih (by omega) (z <<< 1)
      have hcount : ((1 : UInt8) + leadingZeros k (z <<< 1)).toNat = (leadingZeros k (z <<< 1)).toNat + 1 := by
        rw [UInt8.toNat_add, UInt8.toNat_one]
        omega
      rw [hcount]
      refine ⟨by omega, fun i hi => ?_, fun hlt => ?_⟩
      · cases i with
        | zero => exact (topBit_iff z).mp htop
        | succ i =>
          rw [← testBit_shiftLeft_one z (by omega)]
          exact hzeros i (by omega)
      · rw [← testBit_shiftLeft_one z (by omega)]
        exact hone (by omega)
    · rw [UInt8.toNat_zero]
      refine ⟨by omega, fun i hi => absurd hi (Nat.not_lt_zero i), fun _ => ?_⟩
      exact Bool.eq_true_of_not_eq_false fun hzero => htop ((topBit_iff z).mpr hzero)

/-- A bit of the first byte, or of the bytes behind it. -/
lemma bitOf_cons_lt (x : UInt8) (xs : List UInt8) {k : ℕ} (hk : k < 8) :
    bitOf (fun j => (x :: xs).getD j 0) k = x.toNat.testBit (7 - k) := by
  unfold bitOf
  rw [Nat.div_eq_of_lt hk, Nat.mod_eq_of_lt hk]
  rfl

lemma bitOf_cons_add (x : UInt8) (xs : List UInt8) (k : ℕ) :
    bitOf (fun j => (x :: xs).getD j 0) (8 + k) = bitOf (fun j => xs.getD j 0) k := by
  unfold bitOf
  rw [show (8 + k) / 8 = k / 8 + 1 by omega, show (8 + k) % 8 = k % 8 by omega]
  rfl

/-- The outer loop counts the leading bits that two byte strings of one length have in common. -/
lemma getMatchLength_spec {xs ys : List UInt8} (hlen : xs.length = ys.length) (hfits : 8 * xs.length < 256) :
    (getMatchLength xs ys).toNat ≤ 8 * xs.length ∧
      (∀ k < (getMatchLength xs ys).toNat,
        bitOf (fun j => xs.getD j 0) k = bitOf (fun j => ys.getD j 0) k) ∧
      ((getMatchLength xs ys).toNat < 8 * xs.length →
        bitOf (fun j => xs.getD j 0) (getMatchLength xs ys).toNat ≠
          bitOf (fun j => ys.getD j 0) (getMatchLength xs ys).toNat) := by
  induction xs generalizing ys with
  | nil => simp [getMatchLength]
  | cons x xs ih =>
    cases ys with
    | nil => exact absurd hlen (by simp)
    | cons y ys =>
      rw [List.length_cons] at hfits
      rw [getMatchLength, List.length_cons]
      split_ifs with hxy
      · obtain ⟨hle, heq, hne⟩ := ih (Nat.succ.inj hlen) (by omega)
        have hcount : ((8 : UInt8) + getMatchLength xs ys).toNat = 8 + (getMatchLength xs ys).toNat := by
          rw [UInt8.toNat_add]
          show (8 + _) % 256 = _
          omega
        rw [hcount]
        refine ⟨by omega, fun k hk => ?_, fun hlt => ?_⟩
        · by_cases hbyte : k < 8
          · rw [bitOf_cons_lt _ _ hbyte, bitOf_cons_lt _ _ hbyte, hxy]
          · obtain ⟨k, rfl⟩ := Nat.exists_eq_add_of_le (Nat.not_lt.mp hbyte)
            rw [bitOf_cons_add, bitOf_cons_add]
            exact heq k (by omega)
        · rw [bitOf_cons_add, bitOf_cons_add]
          exact hne (by omega)
      · obtain ⟨hle, hzeros, hone⟩ := leadingZeros_spec (Nat.le_refl 8) (x ^^^ y)
        -- a zero of the exclusive or is a bit that the bytes have in common
        have hxor : ∀ j, (x ^^^ y).toNat.testBit j = (x.toNat.testBit j ^^ y.toNat.testBit j) := fun j => by
          rw [UInt8.toNat_xor, Nat.testBit_xor]
        have hlt8 : (leadingZeros 8 (x ^^^ y)).toNat < 8 := by
          refine lt_of_le_of_ne hle fun hall => hxy ?_
          apply UInt8.toNat_inj.mp
          apply Nat.eq_of_testBit_eq
          intro j
          by_cases hj : j < 8
          · have hbit := hzeros (7 - j) (by omega)
            rw [hxor, show 7 - (7 - j) = j by omega] at hbit
            simpa using hbit
          · have hbig : 2 ^ 8 ≤ 2 ^ j := Nat.pow_le_pow_right (by omega) (by omega)
            rw [Nat.testBit_lt_two_pow ((UInt8.toNat_lt _).trans_le hbig),
              Nat.testBit_lt_two_pow ((UInt8.toNat_lt _).trans_le hbig)]
        refine ⟨by omega, fun k hk => ?_, fun _ => ?_⟩
        · rw [bitOf_cons_lt _ _ (by omega), bitOf_cons_lt _ _ (by omega)]
          have hbit := hzeros k hk
          rw [hxor] at hbit
          simpa using hbit
        · rw [bitOf_cons_lt _ _ hlt8, bitOf_cons_lt _ _ hlt8]
          have hbit := hone hlt8
          rw [hxor] at hbit
          simpa using hbit

/-- `get_match_length` counts the leading bits that two addresses have in common. -/
lemma getMatchLength_eq (a b : IpAddr) : (getMatchLength a.u8 b.u8).toNat = a.commonPrefix b := by
  have hlen : a.u8.length = b.u8.length := a.length_u8.trans b.length_u8.symm
  have ha := a.length_u8
  obtain ⟨hle, heq, hne⟩ := getMatchLength_spec hlen (by omega)
  refine (length_takeWhile_range (by omega) (fun k hk => ?_) fun hlt => ?_).symm
  · exact beq_iff_eq.mpr (heq k hk)
  · exact beq_eq_false_iff_ne.mpr (hne (by omega))

/-! ## The longest match -/

section
variable {n : ℕ} (list : Fin n → Ds6Addr) (dst : IpAddr)

/-- An address in use that is preferred and not link-local. -/
def Selectable (i : Fin n) : Prop :=
  (list i).isused = true ∧ (list i).state = .preferred ∧ (list i).ipaddr.uipIsAddrLinkLocal = false

/-- The longest match is picked among the addresses that can be selected. -/
def PicksLongest : Prop :=
  ∃ i, Selectable list i ∧ uipDs6SelectSrc list dst = (list i).ipaddr ∧
    ∀ j, Selectable list j → dst.commonPrefix (list j).ipaddr ≤ dst.commonPrefix (list i).ipaddr

/-- A longest match is picked if there is one, and the unspecified address just if there is none. -/
def SelectsBest : Prop :=
  ((∃ i, Selectable list i) → PicksLongest list dst) ∧
    (uipDs6SelectSrc list dst = .unspecified ↔ ∀ i, ¬Selectable list i)

/-- The condition that the loop tests. -/
def selectable (i : Fin n) : Bool :=
  (list i).isused && (list i).state == .preferred && !(list i).ipaddr.uipIsAddrLinkLocal

/-- The number of bits that the loop compares. -/
def matchKey (i : Fin n) : UInt8 := getMatchLength dst.u8 (list i).ipaddr.u8

variable {list dst}

lemma selectable_iff {i : Fin n} : selectable list i = true ↔ Selectable list i := by
  unfold selectable Selectable
  simp only [Bool.and_eq_true, beq_iff_eq, Bool.not_eq_true', and_assoc]

lemma preference_matchKey : Preference fun x y : UInt8 => x ≥ y :=
  preference_ge.comap UInt8.toNat

/-- For a destination that is neither link-local nor multicast, the loop is a search for the last one of
the longest matches. -/
lemma uipDs6SelectSrc_eq_search (list : Fin n → Ds6Addr) (hll : dst.uipIsAddrLinkLocal = false)
    (hmc : dst.uipIsAddrMcast = false) :
    uipDs6SelectSrc list dst =
      ((search (fun x y : UInt8 => x ≥ y) (matchKey list dst) 0
        ((List.finRange n).filter (selectable list))).2.map fun i => (list i).ipaddr).getD .unspecified := by
  unfold uipDs6SelectSrc search
  dsimp only
  rw [hll, hmc, if_pos (by decide), List.foldl_filter]
  congr 1
  -- the loop keeps the address where the search keeps its index
  let toAddr := fun best : UInt8 × Option (Fin n) => (best.1, best.2.map fun i => (list i).ipaddr)
  refine congrArg Prod.snd (@List.foldl_hom _ _ _ toAddr _ _ (List.finRange n) (0, none) fun best i => ?_)
  unfold selectable searchStep matchKey
  dsimp only
  split_ifs <;> rfl

/-- What is selected for such a destination. -/
lemma select_cases (list : Fin n → Ds6Addr) (hll : dst.uipIsAddrLinkLocal = false)
    (hmc : dst.uipIsAddrMcast = false) :
    (∀ i, ¬Selectable list i) ∧ uipDs6SelectSrc list dst = .unspecified ∨ PicksLongest list dst := by
  have hselect := uipDs6SelectSrc_eq_search list hll hmc
  have hmem : ∀ i, i ∈ (List.finRange n).filter (selectable list) ↔ Selectable list i := fun i => by
    rw [List.mem_filter, selectable_iff]
    exact ⟨fun h => h.2, fun h => ⟨List.mem_finRange i, h⟩⟩
  have hkey : ∀ i, (matchKey list dst i).toNat = dst.commonPrefix (list i).ipaddr := fun i =>
    getMatchLength_eq _ _
  rcases search_cases preference_matchKey (matchKey list dst) 0
    ((List.finRange n).filter (selectable list)) with ⟨hnone, hall⟩ | ⟨i, hsome, hfound⟩
  · rw [hnone] at hselect
    refine .inl ⟨fun i hi => hall i ((hmem i).mpr hi) ?_, hselect⟩
    exact Nat.zero_le _
  · rw [hsome] at hselect
    refine .inr ⟨i, (hmem i).mp hfound.mem, hselect, fun j hj => ?_⟩
    have hnat : FoundIn (fun x y : ℕ => x ≥ y) (fun j => (matchKey list dst j).toNat) 0
        ((List.finRange n).filter (selectable list)) i := hfound
    rw [← hkey, ← hkey]
    exact hnat.greatest ((hmem j).mpr hj)

end

/-- For every pair of addresses the leading bits in common are counted.  For a destination that is neither
link-local nor multicast a longest match is picked; nothing but the unspecified address is selected if there
is none, and only then if the unspecified address is none of those that can be selected. -/
theorem uipDs6SelectSrc_selects :
    (∀ a b : IpAddr, (getMatchLength a.u8 b.u8).toNat = a.commonPrefix b) ∧
    ∀ {n : ℕ} (list : Fin n → Ds6Addr) (dst : IpAddr), dst.uipIsAddrLinkLocal = false →
      dst.uipIsAddrMcast = false →
      ((∃ i, Selectable list i) → PicksLongest list dst) ∧
      ((∀ i, ¬Selectable list i) → uipDs6SelectSrc list dst = .unspecified) ∧
      (uipDs6SelectSrc list dst = .unspecified →
        (∀ i, ¬Selectable list i) ∨ ∃ i, Selectable list i ∧ (list i).ipaddr = .unspecified) := by
  refine ⟨getMatchLength_eq, fun {n} list dst hll hmc => ?_⟩
  rcases select_cases list hll hmc with ⟨hnone, hunspec⟩ | hpicks
  · exact ⟨fun ⟨i, hi⟩ => absurd hi (hnone i), fun _ => hunspec, fun _ => .inl hnone⟩
  · obtain ⟨i, hi, hsrc, hlongest⟩ := hpicks
    refine ⟨fun _ => ⟨i, hi, hsrc, hlongest⟩, fun hnone => absurd hi (hnone i), fun hunspec => .inr ?_⟩
    exact ⟨i, hi, hsrc.symm.trans hunspec⟩

/-- An interface that has the unspecified address can select it. -/
theorem not_selectsBest : ¬∀ {n : ℕ} (list : Fin n → Ds6Addr) (dst : IpAddr),
    dst.uipIsAddrLinkLocal = false → dst.uipIsAddrMcast = false → SelectsBest list dst := by
  intro h
  let list : Fin 1 → Ds6Addr := fun _ => ⟨⟨true, .unspecified⟩, .preferred, true⟩
  obtain ⟨-, hiff⟩ := h list (.ofBytes [0x20, 0x01]) (by decide) (by decide)
  have hsel : Selectable list 0 := ⟨rfl, rfl, by decide⟩
  exact hiff.mp (by decide) 0 hsel

/-- Of two addresses, the one that agrees with the destination in its first two bytes. -/
theorem uipDs6SelectSrc_selects_two :
    uipDs6SelectSrc (fun i : Fin 2 => ⟨⟨true, .ofBytes [0x20, 0x01 + (UInt8.ofNat i.val)]⟩, .preferred, true⟩)
      (.ofBytes [0x20, 0x01, 0x0d, 0xb8]) ≠ .unspecified := by
  intro h
  obtain ⟨-, hselect⟩ := uipDs6SelectSrc_selects
  rcases (hselect _ _ (by decide) (by decide)).2.2 h with hnone | ⟨i, -, hi⟩
  · exact hnone 0 ⟨rfl, rfl, by decide⟩
  · revert i
    decide

end Contiki

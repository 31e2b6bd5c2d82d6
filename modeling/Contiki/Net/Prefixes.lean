import Contiki.Net.Ds6

/-!
# Prefixes and bits

A prefix length counts bits, and `uip_ipaddr_prefixcmp` compares the octets that lie in the prefix
as a whole (`uipIpaddrPrefixcmp_iff`).  `uip_ds6_route_lookup` takes the longest route that agrees
in these octets, and among equally long ones the last (`uipDs6RouteLookup_eq_some`).
`longest_match_iff` says for which tables and destinations this is the longest route that agrees in
all bits of its prefix.
-/

namespace Contiki

/-! ## Octets and bits -/

namespace IpAddr

/-- The bit `k`, counted from the left. -/
def bit (a : IpAddr) (k : ℕ) : Bool := (a.u8.getD (k / 8) 0).toNat.testBit (7 - k % 8)

/-- Two addresses agree in their first `n` bits. -/
def AgreesOn (a b : IpAddr) (n : ℕ) : Prop := ∀ k < n, a.bit k = b.bit k

lemma AgreesOn.mono {a b : IpAddr} {m n : ℕ} (h : a.AgreesOn b n) (hle : m ≤ n) :
    a.AgreesOn b m := fun k hk => h k (hk.trans_le hle)

lemma AgreesOn.symm {a b : IpAddr} {n : ℕ} (h : a.AgreesOn b n) : b.AgreesOn a n :=
  fun k hk => (h k hk).symm

/-- A byte is its eight bits. -/
lemma byte_eq_of_testBit {x y : UInt8} (h : ∀ j < 8, x.toNat.testBit j = y.toNat.testBit j) :
    x = y := by
  apply UInt8.toNat_inj.mp
  apply Nat.eq_of_testBit_eq
  intro j
  by_cases hj : j < 8
  · exact h j hj
  · have hpow : 2 ^ 8 ≤ 2 ^ j := Nat.pow_le_pow_right (by decide) (by omega)
    rw [Nat.testBit_lt_two_pow (x.toNat_lt.trans_le hpow),
      Nat.testBit_lt_two_pow (y.toNat_lt.trans_le hpow)]

lemma take_eq_iff (a b : IpAddr) (m : ℕ) :
    a.u8.take m = b.u8.take m ↔ ∀ i < m, a.u8.getD i 0 = b.u8.getD i 0 := by
  constructor
  · intro h i hi
    have hget := congrArg (fun l => l.getD i 0) h
    simpa [List.getD_eq_getElem?_getD, List.getElem?_take, hi] using hget
  · intro h
    apply List.ext_getElem?
    intro i
    rw [List.getElem?_take, List.getElem?_take]
    split_ifs with hi
    · have hget := h i hi
      by_cases hlt : i < 16
      · rw [List.getD_eq_getElem _ _ (by rw [a.length_u8]; exact hlt),
          List.getD_eq_getElem _ _ (by rw [b.length_u8]; exact hlt)] at hget
        rw [List.getElem?_eq_getElem (by rw [a.length_u8]; exact hlt),
          List.getElem?_eq_getElem (by rw [b.length_u8]; exact hlt), hget]
      · rw [List.getElem?_eq_none (by rw [a.length_u8]; omega),
          List.getElem?_eq_none (by rw [b.length_u8]; omega)]
    · rfl

/-- `uip_ipaddr_prefixcmp` compares the bits of the whole octets of the prefix. -/
lemma uipIpaddrPrefixcmp_iff (a b : IpAddr) (n : ℕ) :
    a.uipIpaddrPrefixcmp b n = true ↔ a.AgreesOn b (n / 8 * 8) := by
  rw [uipIpaddrPrefixcmp, beq_iff_eq, take_eq_iff, Nat.shiftRight_eq_div_pow]
  constructor
  · intro h k hk
    rw [bit, bit, h (k / 8) (by omega)]
  · intro h i hi
    apply byte_eq_of_testBit
    intro j hj
    have hbit := h (i * 8 + (7 - j)) (by omega)
    rw [bit, bit, show (i * 8 + (7 - j)) / 8 = i by omega,
      show 7 - (i * 8 + (7 - j)) % 8 = j by omega] at hbit
    exact hbit

end IpAddr

/-! ## The search -/

section Lookup
variable {n : ℕ} {δ : Type} {table : Fin n → Ds6Route δ} {dest : IpAddr}
  {rest : List (Fin n)} {longestmatch : UInt8} {locrt : Option (Fin n)} {i j : Fin n}

/-- The route `j` comes after `i` in the search: it is longer, or it is as long and stands
behind it. -/
def Beats (table : Fin n → Ds6Route δ) (j i : Fin n) : Prop :=
  (table i).length < (table j).length ∨ (table i).length = (table j).length ∧ i < j

lemma Beats.asymm (h : Beats table j i) : ¬ Beats table i j := by
  simp only [Beats, UInt8.lt_iff_toNat_lt, ← UInt8.toNat_inj] at h ⊢
  omega

lemma routeLookupFrom_cons : routeLookupFrom table dest (i :: rest) longestmatch locrt =
    if RouteMatches table dest i ∧ longestmatch ≤ (table i).length then
      routeLookupFrom table dest rest (table i).length (some i)
    else routeLookupFrom table dest rest longestmatch locrt := by
  have hiff : ((table i).isused && decide ((table i).length ≥ longestmatch) &&
      dest.uipIpaddrPrefixcmp (table i).ipaddr (table i).length.toNat) = true ↔
      RouteMatches table dest i ∧ longestmatch ≤ (table i).length := by
    simp only [RouteMatches, Bool.and_eq_true, decide_eq_true_eq, ge_iff_le]
    tauto
  rw [routeLookupFrom]
  simp only [hiff]

/-- Without a result, nothing in use that agrees is long enough. -/
lemma routeLookupFrom_eq_none
    (h : routeLookupFrom table dest rest longestmatch locrt = none) :
    locrt = none ∧ ∀ j ∈ rest, RouteMatches table dest j → (table j).length < longestmatch := by
  induction rest generalizing longestmatch locrt with
  | nil => exact ⟨h, by simp⟩
  | cons i rest ih =>
      rw [routeLookupFrom_cons] at h
      split_ifs at h with hi
      · cases (ih h).1
      · obtain ⟨hnone, hrest⟩ := ih h
        refine ⟨hnone, fun j hj hmatch => ?_⟩
        rcases List.mem_cons.mp hj with rfl | hj
        · rw [not_and, UInt8.not_le] at hi
          exact hi hmatch
        · exact hrest j hj hmatch

/-- The result agrees and beats everything else that does. -/
lemma routeLookupFrom_eq_some (hsorted : rest.Pairwise (· < ·))
    (hlocrt : ∀ i, locrt = some i → (table i).length = longestmatch ∧ ∀ j ∈ rest, i < j)
    (h : routeLookupFrom table dest rest longestmatch locrt = some i) :
    (locrt = some i ∨ i ∈ rest ∧ RouteMatches table dest i) ∧ longestmatch ≤ (table i).length ∧
      ∀ j ∈ rest, RouteMatches table dest j → j ≠ i → Beats table i j := by
  induction rest generalizing longestmatch locrt with
  | nil =>
      obtain ⟨hlen, -⟩ := hlocrt i h
      exact ⟨.inl h, UInt8.le_of_eq hlen.symm, by simp⟩
  | cons k rest ih =>
      obtain ⟨hk, hsorted⟩ := List.pairwise_cons.mp hsorted
      rw [routeLookupFrom_cons] at h
      split_ifs at h with hcond
      · obtain ⟨hmatch, hlong⟩ := hcond
        obtain ⟨hfound, hle, hbeats⟩ := ih hsorted
          (fun i hi => Option.some.inj hi ▸ ⟨rfl, hk⟩) h
        refine ⟨?_, UInt8.le_trans hlong hle, fun j hj hjm hne => ?_⟩
        · rcases hfound with hfound | ⟨hmem, hm⟩
          · exact .inr (Option.some.inj hfound ▸ ⟨List.mem_cons_self .., hmatch⟩)
          · exact .inr ⟨List.mem_cons_of_mem _ hmem, hm⟩
        · rcases List.mem_cons.mp hj with rfl | hj
          · rcases hfound with hfound | ⟨hmem, -⟩
            · exact absurd (Option.some.inj hfound) hne
            · rcases UInt8.lt_or_eq_of_le hle with hlt | heq
              · exact .inl hlt
              · exact .inr ⟨heq, hk i hmem⟩
          · exact hbeats j hj hjm hne
      · obtain ⟨hfound, hle, hbeats⟩ := ih hsorted
          (fun i hi => ⟨(hlocrt i hi).1, fun j hj => (hlocrt i hi).2 j (List.mem_cons_of_mem _ hj)⟩) h
        refine ⟨?_, hle, fun j hj hjm hne => ?_⟩
        · rcases hfound with hfound | ⟨hmem, hm⟩
          · exact .inl hfound
          · exact .inr ⟨List.mem_cons_of_mem _ hmem, hm⟩
        · rcases List.mem_cons.mp hj with rfl | hj
          · rw [not_and, UInt8.not_le] at hcond
            exact .inl (UInt8.lt_of_lt_of_le (hcond hjm) hle)
          · exact hbeats j hj hjm hne

/-- The search finds nothing if and only if nothing in use agrees in whole octets. -/
lemma uipDs6RouteLookup_eq_none :
    uipDs6RouteLookup table dest = none ↔ ∀ i, ¬ RouteMatches table dest i := by
  constructor
  · intro h i hi
    have hlt := (routeLookupFrom_eq_none h).2 i (List.mem_finRange i) hi
    exact absurd hlt (by simp)
  · intro h
    rcases hlookup : uipDs6RouteLookup table dest with - | i
    · rfl
    · obtain ⟨hfound, -, -⟩ := routeLookupFrom_eq_some (List.pairwise_lt_finRange n)
        (by simp) hlookup
      rcases hfound with hfound | ⟨-, hmatch⟩
      · cases hfound
      · exact absurd hmatch (h i)

/-- The search finds a route that agrees in whole octets and beats all others that do. -/
lemma uipDs6RouteLookup_eq_some (h : uipDs6RouteLookup table dest = some i) :
    RouteMatches table dest i ∧
      ∀ j, RouteMatches table dest j → j ≠ i → Beats table i j := by
  obtain ⟨hfound, -, hbeats⟩ := routeLookupFrom_eq_some (List.pairwise_lt_finRange n) (by simp) h
  rcases hfound with hfound | ⟨-, hmatch⟩
  · cases hfound
  · exact ⟨hmatch, fun j => hbeats j (List.mem_finRange j)⟩

end Lookup

/-! ## Longest match -/

section Match
variable {n m : ℕ} {δ : Type}

/-- A route in use that agrees with the destination in all bits of its prefix. -/
def RouteCovers (table : Fin n → Ds6Route δ) (dest : IpAddr) (i : Fin n) : Prop :=
  (table i).isused = true ∧ dest.AgreesOn (table i).ipaddr (table i).length.toNat

/-- The search gives a route that covers the destination, and none that covers it is longer; it
gives nothing if and only if there is none. -/
def LongestMatch (table : Fin n → Ds6Route δ) (dest : IpAddr) : Prop :=
  (uipDs6RouteLookup table dest = none ↔ ∀ i, ¬ RouteCovers table dest i) ∧
  ∀ i, uipDs6RouteLookup table dest = some i →
    RouteCovers table dest i ∧ ∀ j, RouteCovers table dest j → (table j).length ≤ (table i).length

/-- A prefix in use that agrees with the address in all of its bits. -/
def PrefixCovers (list : Fin m → Ds6Prefix) (ipaddr : IpAddr) (i : Fin m) : Prop :=
  (list i).isused = true ∧ (list i).ipaddr.AgreesOn ipaddr (list i).length.toNat

lemma RouteCovers.matches {table : Fin n → Ds6Route δ} {dest : IpAddr} {i : Fin n}
    (h : RouteCovers table dest i) : RouteMatches table dest i :=
  ⟨h.1, (IpAddr.uipIpaddrPrefixcmp_iff _ _ _).mpr (h.2.mono (Nat.div_mul_le_self _ _))⟩

/-- Routes that agree in the octets and not in the bits lose the search. -/
lemma longestMatch_iff (table : Fin n → Ds6Route δ) (dest : IpAddr) :
    LongestMatch table dest ↔ ∀ i, RouteMatches table dest i → ¬ RouteCovers table dest i →
      ∃ j, RouteCovers table dest j ∧ Beats table j i := by
  constructor
  · rintro ⟨-, hsome⟩ i hmatch hcovers
    rcases hlookup : uipDs6RouteLookup table dest with - | r
    · exact absurd hmatch (uipDs6RouteLookup_eq_none.mp hlookup i)
    · have hr := (hsome r hlookup).1
      refine ⟨r, hr, (uipDs6RouteLookup_eq_some hlookup).2 i hmatch ?_⟩
      rintro rfl
      exact hcovers hr
  · intro h
    have hfound : ∀ r, uipDs6RouteLookup table dest = some r → RouteCovers table dest r := by
      intro r hlookup
      obtain ⟨hmatch, hbeats⟩ := uipDs6RouteLookup_eq_some hlookup
      by_contra hcovers
      obtain ⟨j, hj, hbeat⟩ := h r hmatch hcovers
      have hne : j ≠ r := by
        rintro rfl
        exact hcovers hj
      exact hbeat.asymm (hbeats j hj.matches hne)
    refine ⟨⟨fun hnone i hi => uipDs6RouteLookup_eq_none.mp hnone i hi.matches, fun hnone => ?_⟩,
      fun r hlookup => ⟨hfound r hlookup, fun j hj => ?_⟩⟩
    · rcases hlookup : uipDs6RouteLookup table dest with - | r
      · rfl
      · exact absurd (hfound r hlookup) (hnone r)
    · by_cases hne : j = r
      · exact UInt8.le_of_eq (congrArg (fun i => (table i).length) hne)
      · rcases (uipDs6RouteLookup_eq_some hlookup).2 j hj.matches hne with hlt | ⟨heq, -⟩
        · exact UInt8.le_of_lt hlt
        · exact UInt8.le_of_eq heq

/-- A prefix that agrees in the octets and not in the bits is no harm where another covers the
address. -/
lemma onlink_iff (list : Fin m → Ds6Prefix) (ipaddr : IpAddr) :
    (uipDs6IsAddrOnlink list ipaddr = true ↔ ∃ i, PrefixCovers list ipaddr i) ↔
      ∀ i, (list i).isused = true →
        (list i).ipaddr.uipIpaddrPrefixcmp ipaddr (list i).length.toNat = true →
        ∃ j, PrefixCovers list ipaddr j := by
  have honlink : uipDs6IsAddrOnlink list ipaddr = true ↔ ∃ i, (list i).isused = true ∧
      (list i).ipaddr.uipIpaddrPrefixcmp ipaddr (list i).length.toNat = true := by
    simp [uipDs6IsAddrOnlink, List.any_eq_true]
  rw [honlink]
  constructor
  · exact fun h i hused hcmp => h.mp ⟨i, hused, hcmp⟩
  · refine fun h => ⟨fun ⟨i, hused, hcmp⟩ => h i hused hcmp, fun ⟨i, hused, hagrees⟩ => ⟨i, hused, ?_⟩⟩
    exact (IpAddr.uipIpaddrPrefixcmp_iff _ _ _).mpr (hagrees.mono (Nat.div_mul_le_self _ _))

/-- **Longest match.**  The search of the routing table gives a longest route that agrees with the
destination in all bits of its prefix if and only if every route that agrees in the whole octets
alone is beaten by one that agrees in all bits; and an address is found on-link for an agreement in
all bits alone if and only if, with a prefix that agrees in the whole octets, some prefix agrees in
all bits. -/
theorem longest_match_iff (table : Fin n → Ds6Route δ) (list : Fin m → Ds6Prefix) (dest : IpAddr) :
    (LongestMatch table dest ↔ ∀ i, RouteMatches table dest i → ¬ RouteCovers table dest i →
      ∃ j, RouteCovers table dest j ∧ Beats table j i) ∧
    ((uipDs6IsAddrOnlink list dest = true ↔ ∃ i, PrefixCovers list dest i) ↔
      ∀ i, (list i).isused = true →
        (list i).ipaddr.uipIpaddrPrefixcmp dest (list i).length.toNat = true →
        ∃ j, PrefixCovers list dest j) :=
  ⟨longestMatch_iff table dest, onlink_iff list dest⟩

/-- A route to `f0::/4` is found for the destination `::`. -/
theorem not_longest_match : ¬ ∀ (n m : ℕ) (table : Fin n → Ds6Route Unit)
    (list : Fin m → Ds6Prefix) (dest : IpAddr), LongestMatch table dest ∧
      (uipDs6IsAddrOnlink list dest = true ↔ ∃ i, PrefixCovers list dest i) := by
  intro hall
  let route : Ds6Route Unit := { (default : Ds6Route Unit) with
    isused := true
    ipaddr := .ofBytes [0xf0]
    length := 4 }
  have hmatch := (hall 1 0 (fun _ => route) (fun _ => default) .unspecified).1
  have hcovers := (hmatch.2 0 (by decide)).1.2 0 (by decide)
  exact absurd hcovers (by decide)

end Match

end Contiki

import Contiki.Net.HeaderChain

/-!
# The addresses of a routing header

The number of addresses in a type 4 routing header is computed from its length, the padding and the
compression of its addresses, and is kept in a byte.  When the header is too short for its padding and
its last address, the numerator is negative: its quotient by the octets of an address is rounded
towards zero, so that the number can be one, and what is left below zero wraps around.

* `HeaderState.routingAccesses` — the octets of the header that are read and written.
* `routing_header_iff` — when these lie inside the header, and when a header that cannot hold the
  addresses it announces is answered without a change.
-/

namespace Contiki

/-- Octets of a routing header that are read or written. -/
structure RoutingAccess where
  start : ℕ
  len : ℕ
  write : Bool
deriving DecidableEq

namespace UipBuf
variable (p : UipBuf) (base : ℕ)

/-- `UIP_ROUTING_BUF->pad >> 4`. -/
def routingPad : ℕ := (p.bytes (base + 5) >>> 4).toNat

/-- The octets of the header behind its first eight. -/
def routingRoom : ℕ := (p.bytes (base + 1)).toNat * 8

/-- The octets of the address with the index `ii` in the header. -/
def addrAccess (n : UInt8) (write : Bool) (ii : UInt8) : RoutingAccess :=
  ⟨p.routingAddrPos base ii, 16 - p.routingCmpr base n ii, write⟩

/-- The indices of the addresses that `routingLoop` decompresses. -/
def routingIndices (isMyAddr : IpAddr → Bool) (n : UInt8) : ℕ → UInt8 → UInt8 → List UInt8
  | 0, _, _ => []
  | fuel + 1, ii, il =>
    if ii ≤ n then
      ii :: if isMyAddr (p.routingAddr base n ii) then
          if il > 0 ∧ ii.toNat > il.toNat + 1 then []
          else routingIndices isMyAddr n fuel (ii + 1) ii
        else routingIndices isMyAddr n fuel (ii + 1) il
    else []

end UipBuf

namespace HeaderState
variable (node : IpNode) (s : HeaderState)

/-- The octets of the routing header at `base` that are read and written, with at most `fuel` turns of
the loop over its addresses. -/
def routingAccesses (base fuel : ℕ) : List RoutingAccess :=
  let n := s.routingCount base
  let segLeft := s.bytes (base + 3)
  ⟨base, 6, false⟩ ::
    if segLeft > n then []
    else
      let p : UipBuf := { s.toUipBuf with bytes := memcpy s.bytes (base + 3) [segLeft - 1] }
      let i := n - (segLeft - 1)
      let addr := p.routingAddr base n i
      ⟨base + 3, 1, true⟩ :: p.addrAccess base n false i ::
        if addr.uipIsAddrMcast || p.destipaddr.uipIsAddrMcast then []
        else
          (p.routingIndices base node.isMyAddr n fuel 1 0).map (p.addrAccess base n false) ++
            if p.routingLoop node.isMyAddr base n 512 1 0 = some false ∧
                (i < n && !node.isAddrOnlink addr) = false ∧ 1 < p.bytes 7 then
              [p.addrAccess base n true i]
            else []

/-- The next header is a type 4 routing header with segments left, and the first routing header. -/
structure AtSourceRoute : Prop where
  proto : s.bytes s.nextHdr = 43
  first : s.bitmap.routing = false
  type : s.bytes (s.extBuf + 2) = 4
  segLeft : s.bytes (s.extBuf + 3) ≠ 0

/-- The header has room for as many addresses as there are segments left, and for its padding. -/
def HoldsSegments (base : ℕ) : Prop :=
  s.routingPad base + ((s.bytes (base + 3)).toNat - 1) * (16 - s.cmprI base) + (16 - s.cmprE base) ≤
    s.routingRoom base

/-- All accesses to the routing header lie inside it, and a header without room for the segments that
are left is answered with a parameter problem or dropped, and not written to. -/
def RoutingSafe : Prop :=
  (∀ fuel, ∀ a ∈ s.routingAccesses node s.extBuf fuel,
    s.extBuf ≤ a.start ∧ a.start + a.len ≤ s.extBuf + s.extHdrLen s.extBuf) ∧
  (¬s.HoldsSegments s.extBuf →
    (s.headerStep node = .error .drop ∨
      ∃ code param, s.headerStep node = .error (.error 4 code param s.toUipBuf)) ∧
    ∀ fuel, ∀ a ∈ s.routingAccesses node s.extBuf fuel, a.write = false)

/-- The header has room for its padding and its last address.  Or it lacks some octets: fewer than an
address has, and more than one segment is left; fewer than two addresses have; or more than that, and
with the number of addresses that are missing there are more than 257 segments left. -/
def RoutingRoom (base : ℕ) : Prop :=
  let octets := 16 - s.cmprI base
  let missing := s.routingPad base + 16 - s.cmprE base - s.routingRoom base
  let segLeft := (s.bytes (base + 3)).toNat
  missing = 0 ∨ missing < octets ∧ 1 < segLeft ∨ octets ≤ missing ∧ missing < 2 * octets ∨
    2 * octets ≤ missing ∧ 257 < segLeft + missing / octets

end HeaderState

namespace UipBuf
variable {p : UipBuf} {base : ℕ} {n : UInt8}

/-! ## The number of addresses -/

lemma cmprI_lt (p : UipBuf) (base : ℕ) : p.cmprI base < 16 := by
  unfold cmprI
  rw [UInt8.toNat_shiftRight, Nat.shiftRight_eq_div_pow]
  have hbyte := (p.bytes (base + 4)).toNat_lt
  show (p.bytes (base + 4)).toNat / 16 < 16
  omega

lemma routingPad_lt (p : UipBuf) (base : ℕ) : p.routingPad base < 16 := by
  unfold routingPad
  rw [UInt8.toNat_shiftRight, Nat.shiftRight_eq_div_pow]
  have hbyte := (p.bytes (base + 5)).toNat_lt
  show (p.bytes (base + 5)).toNat / 16 < 16
  omega

lemma toNat_ofInt (x : ℤ) : (UInt8.ofInt x).toNat = (x % 256).toNat := by
  unfold UInt8.ofInt
  rw [UInt8.toNat_ofNat']
  omega

/-- There is room for the padding and the last address. -/
lemma routingCount_of_le (h : p.routingPad base + 16 ≤ p.routingRoom base + p.cmprE base) :
    (p.routingCount base).toNat =
      ((p.routingRoom base + p.cmprE base - p.routingPad base - 16) / (16 - p.cmprI base) + 1) %
        256 := by
  have hI := p.cmprI_lt base
  unfold routingCount
  rw [toNat_ofInt]
  have hnum : ((p.bytes (base + 1)).toNat * 8 - (p.bytes (base + 5) >>> 4).toNat - 16 +
      p.cmprE base : ℤ) =
      ((p.routingRoom base + p.cmprE base - p.routingPad base - 16 : ℕ) : ℤ) := by
    unfold routingRoom routingPad at *
    omega
  have hden : (16 - p.cmprI base : ℤ) = ((16 - p.cmprI base : ℕ) : ℤ) := by omega
  rw [hnum, hden]
  generalize p.routingRoom base + p.cmprE base - p.routingPad base - 16 = room
  show (((room / (16 - p.cmprI base) : ℕ) + 1 : ℤ) % 256).toNat = _
  omega

/-- There is not. -/
lemma routingCount_of_gt (h : p.routingRoom base + p.cmprE base < p.routingPad base + 16) :
    (p.routingCount base).toNat =
      let missing := p.routingPad base + 16 - p.cmprE base - p.routingRoom base
      let octets := 16 - p.cmprI base
      if missing < octets then 1 else if missing < 2 * octets then 0 else 257 - missing / octets := by
  have hI := p.cmprI_lt base
  have hE := p.cmprE_lt base
  have hpad := p.routingPad_lt base
  unfold routingCount
  rw [toNat_ofInt]
  have hnum : ((p.bytes (base + 1)).toNat * 8 - (p.bytes (base + 5) >>> 4).toNat - 16 +
      p.cmprE base : ℤ) =
      -((p.routingPad base + 16 - p.cmprE base - p.routingRoom base : ℕ) : ℤ) := by
    unfold routingRoom routingPad at *
    omega
  have hden : (16 - p.cmprI base : ℤ) = ((16 - p.cmprI base : ℕ) : ℤ) := by omega
  rw [hnum, hden, Int.neg_tdiv]
  dsimp only
  generalize hmissing : p.routingPad base + 16 - p.cmprE base - p.routingRoom base = missing
  generalize hoctets : 16 - p.cmprI base = octets
  have hpos : 0 < octets := by omega
  show ((-((missing / octets : ℕ) : ℤ) + 1) % 256).toNat = _
  have hle : missing / octets ≤ missing := Nat.div_le_self _ _
  split_ifs with hone htwo
  · rw [Nat.div_eq_of_lt hone]
    rfl
  · rw [Nat.div_eq_of_lt_le (k := 1) (by omega) (by omega)]
    rfl
  · have htwice : 2 ≤ missing / octets := (Nat.le_div_iff_mul_le hpos).mpr (by omega)
    omega

/-- With room for the padding and the last address, the header has room for all that are counted. -/
lemma room_of_count (h : p.routingPad base + 16 ≤ p.routingRoom base + p.cmprE base) {k : ℕ}
    (hk : k ≤ (p.routingCount base).toNat) (hpos : 1 ≤ k) :
    (k - 1) * (16 - p.cmprI base) + (16 - p.cmprE base) ≤ p.routingRoom base := by
  have hE := p.cmprE_lt base
  rw [routingCount_of_le h] at hk
  have hle : (k - 1) * (16 - p.cmprI base) ≤ p.routingRoom base + p.cmprE base -
      p.routingPad base - 16 := by
    refine (Nat.mul_le_mul_right _ ?_).trans (Nat.div_mul_le_self _ (16 - p.cmprI base))
    generalize (p.routingRoom base + p.cmprE base - p.routingPad base - 16) / (16 - p.cmprI base) = count
      at hk ⊢
    omega
  generalize (k - 1) * (16 - p.cmprI base) = octets at hle ⊢
  omega

/-! ## Accesses -/

/-- An access lies in the header. -/
def AccessInside (p : UipBuf) (base : ℕ) (a : RoutingAccess) : Prop :=
  base ≤ a.start ∧ a.start + a.len ≤ base + p.extHdrLen base

/-- Addresses that are counted lie in the header; the index zero comes behind 255. -/
lemma addrAccess_inside (hbase : 8 ≤ base)
    (h : p.routingPad base + 16 ≤ p.routingRoom base + p.cmprE base) {ii : UInt8}
    (hle : ii ≤ p.routingCount base) (hpos : 0 < ii.toNat ∨ p.routingCount base = 255)
    (write : Bool) : p.AccessInside base (p.addrAccess base (p.routingCount base) write ii) := by
  have hI := p.cmprI_lt base
  have hE := p.cmprE_lt base
  have hsize : p.extHdrLen base = p.routingRoom base + 8 := rfl
  have hroom := @room_of_count p base h
  rw [UInt8.le_iff_toNat_le] at hle
  unfold AccessInside addrAccess routingAddrPos routingCmpr
  dsimp only
  rw [hsize]
  rcases Nat.eq_zero_or_pos ii.toNat with hzero | hpos'
  · have hmax := hpos.resolve_left (by omega)
    have hne : ii ≠ p.routingCount base := by
      rintro rfl
      rw [hmax] at hzero
      exact absurd hzero (by decide)
    have hfit := hroom (k := 255) (by rw [hmax]; decide) (by decide)
    have hbyte := (p.bytes (base + 1)).toNat_lt
    unfold routingRoom at *
    rw [if_neg hne, hzero]
    omega
  · have hfit := hroom hle hpos'
    obtain ⟨k, hk⟩ : ∃ k, ii.toNat = k + 1 := ⟨ii.toNat - 1, by omega⟩
    rw [hk, Nat.add_mul, Nat.one_mul]
    rw [hk, Nat.add_sub_cancel] at hfit
    split_ifs with heq
    · generalize k * (16 - p.cmprI base) = octets at hfit ⊢
      omega
    · -- the address is not the last one, so the next one lies in the header as well
      have hne : ii.toNat ≠ (p.routingCount base).toNat := fun h => heq (UInt8.toNat_inj.mp h)
      have hnext := hroom (k := k + 2) (by omega) (by omega)
      rw [show k + 2 - 1 = k + 1 by omega, Nat.add_mul, Nat.one_mul] at hnext
      generalize k * (16 - p.cmprI base) = octets at hnext ⊢
      omega

/-- The loop over the addresses stays below their number; it comes to zero when its index wraps. -/
lemma mem_routingIndices {isMyAddr : IpAddr → Bool} {fuel : ℕ} {ii il k : UInt8}
    (hpos : 0 < ii.toNat ∨ n = 255) (hk : k ∈ p.routingIndices base isMyAddr n fuel ii il) :
    k ≤ n ∧ (0 < k.toNat ∨ n = 255) := by
  induction fuel generalizing ii il with
  | zero => cases hk
  | succ fuel ih =>
    rw [routingIndices] at hk
    by_cases hle : ii ≤ n
    · have hnext : 0 < (ii + 1).toNat ∨ n = 255 := by
        have hn := n.toNat_lt
        have hlt := UInt8.le_iff_toNat_le.mp hle
        rw [UInt8.toNat_add, ← UInt8.toNat_inj]
        show 0 < (ii.toNat + 1) % 256 ∨ n.toNat = 255
        omega
      rw [if_pos hle] at hk
      rcases List.mem_cons.mp hk with rfl | hk
      · exact ⟨hle, hpos⟩
      split_ifs at hk with hmine hloop
      · cases hk
      · exact ih hnext hk
      · exact ih hnext hk
    · rw [if_neg hle] at hk
      cases hk

end UipBuf

namespace HeaderState
variable {node : IpNode} {s : HeaderState} {base fuel : ℕ} {a : RoutingAccess}

/-- The octets that are accessed: the fixed part of the header, the segments left, or an address. -/
lemma mem_routingAccesses (hleft : s.bytes (base + 3) ≠ 0)
    (ha : a ∈ s.routingAccesses node base fuel) :
    a = ⟨base, 6, false⟩ ∨ s.bytes (base + 3) ≤ s.routingCount base ∧
      (a = ⟨base + 3, 1, true⟩ ∨ ∃ ii write, ii ≤ s.routingCount base ∧
        (0 < ii.toNat ∨ s.routingCount base = 255) ∧
        a = s.addrAccess base (s.routingCount base) write ii) := by
  unfold routingAccesses at ha
  dsimp only at ha
  rcases List.mem_cons.mp ha with rfl | ha
  · exact .inl rfl
  right
  by_cases hgt : s.bytes (base + 3) > s.routingCount base
  · rw [if_pos hgt] at ha
    cases ha
  rw [if_neg hgt] at ha
  refine ⟨UInt8.not_lt.mp hgt, ?_⟩
  set p : UipBuf :=
    { s.toUipBuf with bytes := memcpy s.bytes (base + 3) [s.bytes (base + 3) - 1] } with hp
  -- the segments left have no part in where the addresses are
  have hcmpr : p.bytes (base + 4) = s.bytes (base + 4) := by
    rw [hp]
    exact memcpy_of_notMem (.inr (Nat.le_refl _))
  have haccess : p.addrAccess base (s.routingCount base) =
      s.addrAccess base (s.routingCount base) := by
    funext write ii
    unfold UipBuf.addrAccess UipBuf.routingAddrPos UipBuf.routingCmpr UipBuf.cmprE UipBuf.cmprI
    rw [hcmpr]
  rw [haccess] at ha
  -- the index of the address that comes next
  have hnext : s.routingCount base - (s.bytes (base + 3) - 1) ≤ s.routingCount base ∧
      0 < (s.routingCount base - (s.bytes (base + 3) - 1)).toNat := by
    have hle := UInt8.le_iff_toNat_le.mp (UInt8.not_lt.mp hgt)
    have hzero : (s.bytes (base + 3)).toNat ≠ 0 := fun h => hleft (UInt8.toNat_inj.mp h)
    have hlt := (s.routingCount base).toNat_lt
    rw [UInt8.le_iff_toNat_le, UInt8.toNat_sub, UInt8.toNat_sub]
    show (256 - (256 - 1 + _) % 256 + _) % 256 ≤ _ ∧ 0 < (256 - (256 - 1 + _) % 256 + _) % 256
    omega
  rcases List.mem_cons.mp ha with rfl | ha
  · exact .inl rfl
  right
  rcases List.mem_cons.mp ha with rfl | ha
  · exact ⟨_, _, hnext.1, .inl hnext.2, rfl⟩
  split_ifs at ha with hmcast hforward
  · cases ha
  · rcases List.mem_append.mp ha with ha | ha
    · obtain ⟨ii, hii, rfl⟩ := List.mem_map.mp ha
      obtain ⟨hle, hpos⟩ := UipBuf.mem_routingIndices (.inl (by decide)) hii
      exact ⟨ii, false, hle, hpos, rfl⟩
    · rw [List.mem_singleton] at ha
      exact ⟨_, true, hnext.1, .inl hnext.2, ha⟩
  · rw [List.append_nil] at ha
    obtain ⟨ii, hii, rfl⟩ := List.mem_map.mp ha
    obtain ⟨hle, hpos⟩ := UipBuf.mem_routingIndices (.inl (by decide)) hii
    exact ⟨ii, false, hle, hpos, rfl⟩

/-- A header with room for its padding and its last address has room for the segments that are left,
or there are more of these than addresses. -/
lemma holdsSegments_of_le (h : s.routingPad base + 16 ≤ s.routingRoom base + s.cmprE base)
    (hle : s.bytes (base + 3) ≤ s.routingCount base) : s.HoldsSegments base := by
  have hE := s.cmprE_lt base
  have hcount := UInt8.le_iff_toNat_le.mp hle
  rw [UipBuf.routingCount_of_le h] at hcount
  have hmul : ((s.bytes (base + 3)).toNat - 1) * (16 - s.cmprI base) ≤
      s.routingRoom base + s.cmprE base - s.routingPad base - 16 := by
    refine (Nat.mul_le_mul_right _ ?_).trans (Nat.div_mul_le_self _ (16 - s.cmprI base))
    generalize (s.routingRoom base + s.cmprE base - s.routingPad base - 16) / (16 - s.cmprI base) = count
      at hcount ⊢
    omega
  unfold HoldsSegments
  generalize ((s.bytes (base + 3)).toNat - 1) * (16 - s.cmprI base) = octets at hmul ⊢
  omega

/-- Without room for the padding and the last address, the header passes for one with too few
addresses, or it does not. -/
lemma routingRoom_iff (hleft : s.bytes (base + 3) ≠ 0) :
    s.RoutingRoom base ↔ s.routingPad base + 16 ≤ s.routingRoom base + s.cmprE base ∨
      s.routingCount base < s.bytes (base + 3) := by
  have hE := s.cmprE_lt base
  have hI := s.cmprI_lt base
  have hzero : (s.bytes (base + 3)).toNat ≠ 0 := fun h => hleft (UInt8.toNat_inj.mp h)
  have hlt := (s.bytes (base + 3)).toNat_lt
  rw [UInt8.lt_iff_toNat_lt]
  unfold RoutingRoom
  dsimp only
  by_cases hle : s.routingPad base + 16 ≤ s.routingRoom base + s.cmprE base
  · refine ⟨fun _ => .inl hle, fun _ => .inl ?_⟩
    omega
  · rw [UipBuf.routingCount_of_gt (by omega)]
    dsimp only
    have hmissing : s.routingPad base + 16 - s.cmprE base - s.routingRoom base ≠ 0 := by omega
    have hroom : s.routingPad base + 16 - s.cmprE base - s.routingRoom base ≤ 31 := by
      have hpad := s.routingPad_lt base
      omega
    generalize s.routingPad base + 16 - s.cmprE base - s.routingRoom base = missing at *
    generalize 16 - s.cmprI base = octets at *
    have hquot : missing / octets ≤ missing := Nat.div_le_self _ _
    generalize missing / octets = quotient at *
    split_ifs with hone htwo
    · omega
    · omega
    · omega

/-- The next header is looked at as a source route. -/
lemma AtSourceRoute.headerStep_eq (h : s.AtSourceRoute) :
    s.headerStep node = s.sourceRoute node s.extBuf := by
  unfold headerStep stepAt routingHeader
  dsimp only
  rw [h.proto, h.first, if_neg (by decide), if_neg (by decide), if_neg (by decide),
    if_neg (by decide), if_neg (by decide), if_pos rfl, if_neg Bool.false_ne_true,
    if_neg h.segLeft, if_pos h.type]

lemma eight_le_extBuf (s : HeaderState) : 8 ≤ s.extBuf := by
  unfold extBuf uipIphLen
  omega

/-- **The addresses of a routing header.**  All that is read and written for a source route lies inside
the routing header, and a header that cannot hold the segments that are left is not written to, if
and only if the header has room for its padding and its last address, or passes for one that has
fewer addresses than segments left. -/
theorem routing_header_iff (h : s.AtSourceRoute) :
    s.RoutingSafe node ↔ s.RoutingRoom s.extBuf := by
  have hE := s.cmprE_lt s.extBuf
  rw [routingRoom_iff h.segLeft]
  constructor
  · rintro ⟨-, hanswer⟩
    by_contra hnot
    rw [not_or, UInt8.not_lt] at hnot
    obtain ⟨hroom, hle⟩ := hnot
    have hfull : ¬s.HoldsSegments s.extBuf := by
      unfold HoldsSegments
      generalize ((s.bytes (s.extBuf + 3)).toNat - 1) * (16 - s.cmprI s.extBuf) = octets
      omega
    -- the segments left are counted down
    have hwrite : ⟨s.extBuf + 3, 1, true⟩ ∈ s.routingAccesses node s.extBuf 0 := by
      unfold routingAccesses
      dsimp only
      rw [if_neg (UInt8.not_lt.mpr hle)]
      exact List.mem_cons_of_mem _ List.mem_cons_self
    exact Bool.false_ne_true ((hanswer hfull).2 0 _ hwrite).symm
  · intro hcond
    have hroom : s.bytes (s.extBuf + 3) ≤ s.routingCount s.extBuf →
        s.routingPad s.extBuf + 16 ≤ s.routingRoom s.extBuf + s.cmprE s.extBuf :=
      fun hle => hcond.resolve_right (UInt8.not_lt.mpr hle)
    have hsize : s.extHdrLen s.extBuf = s.routingRoom s.extBuf + 8 := rfl
    refine ⟨fun fuel a ha => ?_, fun hfull => ?_⟩
    · rcases mem_routingAccesses h.segLeft ha with
        rfl | ⟨hle, rfl | ⟨ii, write, hii, hpos, rfl⟩⟩
      · rw [hsize]
        dsimp only
        omega
      · rw [hsize]
        dsimp only
        omega
      · exact UipBuf.addrAccess_inside s.eight_le_extBuf (hroom hle) hii hpos write
    · have hgt : s.bytes (s.extBuf + 3) > s.routingCount s.extBuf := by
        by_contra hle
        rw [gt_iff_lt, UInt8.not_lt] at hle
        exact hfull (holdsSegments_of_le (hroom hle) hle)
      refine ⟨.inr ⟨0, s.extBuf + 3, ?_⟩, fun fuel a ha => ?_⟩
      · rw [h.headerStep_eq, sourceRoute]
        dsimp only
        rw [if_pos hgt]
      · unfold routingAccesses at ha
        dsimp only at ha
        rw [if_pos hgt, List.mem_singleton] at ha
        rw [ha]

/-- A routing header with one segment left and addresses that are not compressed. -/
def routingState (len : UInt8) : HeaderState where
  bytes := memcpy (memcpy (fun _ => 0) 6 [43]) 40 [59, len, 4, 1]
  len := 80
  nextHdr := 6
  extLen := 0
  bitmap := {}
  chainEnd := 40

lemma atSourceRoute_routingState (len : UInt8) : (routingState len).AtSourceRoute := by
  refine ⟨rfl, rfl, rfl, ?_⟩
  show (1 : UInt8) ≠ 0
  decide

/-- A header with room for its address. -/
theorem routing_header_iff_one :
    (routingState 2).RoutingSafe hostNode ↔ (routingState 2).RoutingRoom 40 :=
  routing_header_iff (atSourceRoute_routingState 2)

/-- In a header with room for eight octets, an address of sixteen octets is read. -/
theorem not_routing_header : ∃ (node : IpNode) (s : HeaderState),
    s.AtSourceRoute ∧ ¬s.RoutingSafe node := by
  refine ⟨hostNode, routingState 1, atSourceRoute_routingState 1, fun h => ?_⟩
  have hread : ⟨48, 16, false⟩ ∈ (routingState 1).routingAccesses hostNode 40 0 := by decide
  exact absurd (h.1 0 _ hread).2 (by decide)

end HeaderState
end Contiki

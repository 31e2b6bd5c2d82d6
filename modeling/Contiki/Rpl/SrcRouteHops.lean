import Contiki.Rpl.SrcRoutes

/-!
# A source route is stored as a whole

`rpl_p2p_add_src_route` stores all hops of a route or none.  An earlier route to the destination is
given up before the new one is stored.

* `addSrcRoute_stores` — what is stored, and what is left when the pool is exhausted.
-/

namespace Contiki

variable {cfg : Config}

namespace Node

/-- The `k`-th address of a compressed vector, as a link-local address. -/
def hopAt (dest : IpAddr) (addrStart : ℕ → UInt8) (compr : UInt8) (k : ℕ) : IpAddr :=
  (dest.decompress compr.toNat ((List.range (16 - compr.toNat)).map fun b =>
    addrStart (k * (16 - compr.toNat) + b))).uipCreateLinklocalPrefix

/-- The number of addresses in a vector of `addrLen` bytes; the last one may be cut. -/
def numHops (addrLen compr : UInt8) : ℕ :=
  (addrLen.toNat + (16 - compr.toNat) - 1) / (16 - compr.toNat)

/-- The first `k` addresses of a vector, in its order or reversed. -/
def firstHops (dest : IpAddr) (addrStart : ℕ → UInt8) (compr : UInt8) (reverse : Bool) (k : ℕ) :
    List IpAddr :=
  let hops := (List.range k).map (hopAt dest addrStart compr)
  if reverse then hops.reverse else hops

/-- The byte that counts through the vector does not wrap: the vector is short enough, or the pool too
small for as many hops. -/
def IndexFits (cfg : Config) (addrLen compr : UInt8) : Prop :=
  numHops addrLen compr * (16 - compr.toNat) < 256 ∨ cfg.srcRouteAddrNb * (16 - compr.toNat) < 256

/-- The route `i` leads to `dest` over the given hops, and the other routes are as before. -/
structure Stores (s s' : Node cfg) (i : Fin cfg.srcRouteNb) (dest : IpAddr) (hops : List IpAddr) :
    Prop where
  isused : (s'.srcRoutingTable.routes i).isused = true
  ipaddr : (s'.srcRoutingTable.routes i).ipaddr = dest
  hops : s'.srcRoutingTable.hops i = hops
  others : SrcRoutingTable.SparesOthers i s.srcRoutingTable s'.srcRoutingTable

/-- There is no route to `dest`; the routes to other destinations are as before, and all other blocks are
free.  If there was no route to `dest` before, the same blocks are free. -/
structure GivesUp (s s' : Node cfg) (dest : IpAddr) : Prop where
  others : ∀ j, (s.srcRoutingTable.routes j).isused = true →
    (s.srcRoutingTable.routes j).ipaddr ≠ dest →
      s'.srcRoutingTable.routes j = s.srcRoutingTable.routes j ∧
        s'.srcRoutingTable.hops j = s.srcRoutingTable.hops j
  isused : ∀ j, (s'.srcRoutingTable.routes j).isused = true →
    (s.srcRoutingTable.routes j).isused = true ∧ (s.srcRoutingTable.routes j).ipaddr ≠ dest
  pool : ∀ b, s'.srcRoutingTable.addrMemb.count b ≠ 0 ↔
    ∃ j, (s.srcRoutingTable.routes j).isused = true ∧ (s.srcRoutingTable.routes j).ipaddr ≠ dest ∧
      b ∈ (s.srcRoutingTable.routes j).addrList
  same : (∀ j, (s.srcRoutingTable.routes j).isused = true →
    (s.srcRoutingTable.routes j).ipaddr ≠ dest) →
      s'.srcRoutingTable.addrMemb.count = s.srcRoutingTable.addrMemb.count

variable {t t' : SrcRoutingTable cfg.DagRef cfg.srcRouteNb cfg.srcRouteAddrNb}
  {route : Fin cfg.srcRouteNb} {dest : IpAddr} {addrStart : ℕ → UInt8} {addrLen compr : UInt8}
  {reverse : Bool}

/-! ## The loop over the vector -/

lemma firstHops_succ (k : ℕ) :
    firstHops dest addrStart compr reverse (k + 1) =
      if reverse then hopAt dest addrStart compr k :: firstHops dest addrStart compr reverse k
      else firstHops dest addrStart compr reverse k ++ [hopAt dest addrStart compr k] := by
  unfold firstHops
  rw [List.range_succ, List.map_append, List.map_singleton]
  cases reverse <;> simp

lemma length_firstHops (k : ℕ) : (firstHops dest addrStart compr reverse k).length = k := by
  unfold firstHops
  cases reverse <;> simp

lemma lt_numHops (hcompr : compr.toNat ≤ 15) (k : ℕ) :
    k * (16 - compr.toNat) < addrLen.toNat ↔ k < numHops addrLen compr := by
  unfold numHops
  rw [Nat.lt_div_iff_mul_lt (by omega)]
  omega

/-- A route has no more hops than the pool has blocks. -/
lemma length_hops_le (h : t.WellKept) (route : Fin cfg.srcRouteNb) :
    (t.hops route).length ≤ cfg.srcRouteAddrNb := by
  rw [SrcRoutingTable.hops, List.length_map]
  have hle := (h.owned.parts.nodup route).length_le_card
  rwa [Fintype.card_fin] at hle

/-- The byte that counts through the vector, when `k` addresses have been added. -/
lemma index_fits (hfits : IndexFits cfg addrLen compr) {k : ℕ} (hk : k ≤ numHops addrLen compr)
    (hpool : k ≤ cfg.srcRouteAddrNb) : k * (16 - compr.toNat) < 256 := by
  rcases hfits with hfits | hfits
  · exact Nat.lt_of_le_of_lt (Nat.mul_le_mul_right _ hk) hfits
  · exact Nat.lt_of_le_of_lt (Nat.mul_le_mul_right _ hpool) hfits

/-- When `k` addresses have been added, the loop adds the others, if it comes to its end. -/
lemma addSrcHops_hops (hcompr : compr.toNat ≤ 15) (hfits : IndexFits cfg addrLen compr) {fuel k : ℕ}
    {i : UInt8} (h : t.WellKept) (hused : (t.routes route).isused = true)
    (hk : k ≤ numHops addrLen compr) (hi : i.toNat = k * (16 - compr.toNat))
    (hhops : t.hops route = firstHops dest addrStart compr reverse k)
    (hadd : addSrcHops route dest addrStart addrLen compr reverse fuel i t = (true, t')) :
    t'.hops route = firstHops dest addrStart compr reverse (numHops addrLen compr) := by
  induction fuel generalizing i t k with
  | zero => cases hadd
  | succ fuel ih =>
    rw [addSrcHops] at hadd
    have hiff : i < addrLen ↔ k < numHops addrLen compr := by
      rw [UInt8.lt_iff_toNat_lt, hi]
      exact lt_numHops hcompr k
    by_cases hlt : i < addrLen
    · rw [if_pos hlt] at hadd
      dsimp only at hadd
      split at hadd
      · cases hadd
      · rename_i t₁ hhop
        have hk' : k + 1 ≤ numHops addrLen compr := hiff.mp hlt
        obtain ⟨hkept, hused'⟩ := h.hopAdd hused hhop
        have hhops' : t₁.hops route = firstHops dest addrStart compr reverse (k + 1) := by
          rw [(h.hopAdd_spec hhop).2.2, hhops, firstHops_succ, hopAt, hi]
        have hpool := length_hops_le hkept route
        rw [hhops', length_firstHops] at hpool
        have hindex := index_fits hfits hk' hpool
        refine ih hkept hused' hk' ?_ hhops' hadd
        have hstep : (16 - compr : UInt8).toNat = 16 - compr.toNat :=
          UInt8.toNat_sub_of_le _ _ (by rw [UInt8.le_iff_toNat_le]; show compr.toNat ≤ 16; omega)
        rw [UInt8.toNat_add, hi, hstep, ← Nat.succ_mul]
        exact Nat.mod_eq_of_lt hindex
    · rw [if_neg hlt] at hadd
      obtain rfl : k = numHops addrLen compr :=
        Nat.le_antisymm hk (Nat.not_lt.mp fun hlt' => hlt (hiff.mpr hlt'))
      rw [← (Prod.mk.inj hadd).2]
      exact hhops

/-- The loop changes the route it adds to only, and of that nothing but the hops. -/
lemma addSrcHops_spares {fuel : ℕ} {i : UInt8} {done : Bool} (h : t.WellKept)
    (hused : (t.routes route).isused = true)
    (hadd : addSrcHops route dest addrStart addrLen compr reverse fuel i t = (done, t')) :
    SrcRoutingTable.SparesOthers route t t' ∧
      (t'.routes route).toDs6Element = (t.routes route).toDs6Element := by
  induction fuel generalizing i t with
  | zero =>
    rw [← (Prod.mk.inj hadd).2]
    exact ⟨fun _ _ => ⟨rfl, rfl⟩, rfl⟩
  | succ fuel ih =>
    rw [addSrcHops] at hadd
    by_cases hlt : i < addrLen
    · rw [if_pos hlt] at hadd
      dsimp only at hadd
      split at hadd
      · rw [← (Prod.mk.inj hadd).2]
        exact ⟨fun _ _ => ⟨rfl, rfl⟩, rfl⟩
      · rename_i t₁ hhop
        obtain ⟨hkept, hused'⟩ := h.hopAdd hused hhop
        obtain ⟨hspares, helement, -⟩ := h.hopAdd_spec hhop
        obtain ⟨hspares', helement'⟩ := ih hkept hused' hadd
        exact ⟨hspares.trans hspares', helement'.trans helement⟩
    · rw [if_neg hlt] at hadd
      rw [← (Prod.mk.inj hadd).2]
      exact ⟨fun _ _ => ⟨rfl, rfl⟩, rfl⟩

/-! ## The whole route -/

/-- The entry of a route that was begun is given up again. -/
lemma givesUp_of_rm {s : Node cfg} (h : s.srcRoutingTable.WellKept) (ht : t.WellKept)
    (hspares : SrcRoutingTable.SparesOthers route s.srcRoutingTable t)
    (hbefore : ((s.srcRoutingTable.routes route).isused = false ∧ ∀ j,
        (s.srcRoutingTable.routes j).isused = true → (s.srcRoutingTable.routes j).ipaddr ≠ dest) ∨
      (s.srcRoutingTable.routes route).isused = true ∧
        (s.srcRoutingTable.routes route).ipaddr = dest) :
    GivesUp s { s with srcRoutingTable := t.uipDs6SrcRouteRm route } dest := by
  have hspares' := hspares.trans (SrcRoutingTable.sparesOthers_rm t route)
  have hother : ∀ j, (s.srcRoutingTable.routes j).isused = true →
      (s.srcRoutingTable.routes j).ipaddr ≠ dest → j ≠ route := by
    rintro j hj hne rfl
    rcases hbefore with ⟨hfree, -⟩ | ⟨-, heq⟩
    · rw [hfree] at hj
      exact Bool.noConfusion hj
    · exact hne heq
  have hne : ∀ j, j ≠ route → (s.srcRoutingTable.routes j).isused = true →
      (s.srcRoutingTable.routes j).ipaddr ≠ dest := by
    intro j hj hjused heq
    rcases hbefore with ⟨-, hnone⟩ | ⟨hused, heq'⟩
    · exact hnone j hjused heq
    · exact hj (h.unique j route hjused hused (heq.trans heq'.symm))
  have hpool := fun b => (ht.rm route).count_of_gone hspares' (by simp) b
  refine ⟨fun j hj hjne => hspares' j (hother j hj hjne), fun j hj => ?_, fun b => ?_, fun hnone => ?_⟩
  · have hjr : j ≠ route := by
      rintro rfl
      simp at hj
    have hj' : (s.srcRoutingTable.routes j).isused = true := (hspares' j hjr).1 ▸ hj
    exact ⟨hj', hne j hjr hj'⟩
  · rw [hpool b]
    constructor
    · rintro ⟨j, hjr, hb⟩
      have hj := h.isused_of_mem hb
      exact ⟨j, hj, hne j hjr hj, hb⟩
    · rintro ⟨j, hj, hjne, hb⟩
      exact ⟨j, hother j hj hjne, hb⟩
  · have hfree : (s.srcRoutingTable.routes route).addrList = [] := by
      rcases hbefore with ⟨hunused, -⟩ | ⟨hused, heq⟩
      · exact h.unused route hunused
      · exact absurd heq (hnone route hused)
    funext b
    have hiff : (t.uipDs6SrcRouteRm route).addrMemb.count b ≠ 0 ↔
        s.srcRoutingTable.addrMemb.count b ≠ 0 := by
      rw [hpool b, h.owned.parts.live_iff b]
      constructor
      · rintro ⟨j, -, hb⟩
        exact ⟨j, hb⟩
      · rintro ⟨j, hb⟩
        refine ⟨j, ?_, hb⟩
        rintro rfl
        rw [hfree] at hb
        exact List.not_mem_nil hb
    have hle := h.owned.count_le b
    have hle' := (ht.rm route).owned.count_le b
    show (t.uipDs6SrcRouteRm route).addrMemb.count b = s.srcRoutingTable.addrMemb.count b
    omega

/-- There is no place for a route to a new destination. -/
lemma givesUp_of_none {s : Node cfg} (h : s.srcRoutingTable.WellKept)
    (hnone : ∀ j, (s.srcRoutingTable.routes j).isused = true →
      (s.srcRoutingTable.routes j).ipaddr ≠ dest) : GivesUp s s dest := by
  refine ⟨fun _ _ _ => ⟨rfl, rfl⟩, fun j hj => ⟨hj, hnone j hj⟩, fun b => ?_, fun _ => rfl⟩
  rw [h.owned.parts.live_iff b]
  constructor
  · rintro ⟨j, hb⟩
    have hj := h.isused_of_mem hb
    exact ⟨j, hj, hnone j hj, hb⟩
  · rintro ⟨j, -, -, hb⟩
    exact ⟨j, hb⟩

/-- **A source route is stored with all its hops**, the addresses of the vector and then the destination,
or there is no route to the destination, and the other routes are as before. -/
theorem addSrcRoute_stores (s : Node cfg) (h : s.srcRoutingTable.WellKept) (dest : IpAddr)
    (addrStart : ℕ → UInt8) (addrLen compr : UInt8) (reverse : Bool) (hcompr : compr.toNat ≤ 15)
    (hfits : IndexFits cfg addrLen compr) :
    (∀ i s', s.rplP2pAddSrcRoute dest addrStart addrLen compr reverse = (some i, s') →
      Stores s s' i dest (firstHops dest addrStart compr reverse (numHops addrLen compr) ++
        [dest.uipCreateLinklocalPrefix])) ∧
    ∀ s', s.rplP2pAddSrcRoute dest addrStart addrLen compr reverse = (none, s') →
      GivesUp s s' dest := by
  unfold rplP2pAddSrcRoute
  split
  · rename_i t hadd
    obtain ⟨rfl, hnone⟩ := SrcRoutingTable.add_none_spec hadd
    refine ⟨fun _ _ heq => absurd (Prod.mk.inj heq).1.symm (Option.some_ne_none _), ?_⟩
    rintro s' heq
    rw [← (Prod.mk.inj heq).2]
    exact givesUp_of_none h hnone
  · rename_i route t hadd
    obtain ⟨hkept, hused⟩ := add_set_wellKept h hadd { (t.routes route).state with
      lifetime := rplDefaultLifetime.toUInt32 * rplDefaultLifetimeUnit.toUInt32 }
    obtain ⟨hspares, hnil, hdest, hbefore⟩ := SrcRoutingTable.add_spec hadd
    dsimp only
    generalize hset : t.set route _ = t₁ at hkept hused ⊢
    have hspares₁ : SrcRoutingTable.SparesOthers route s.srcRoutingTable t₁ :=
      hspares.trans (hset ▸ SrcRoutingTable.sparesOthers_update rfl rfl)
    have hnil₁ : t₁.hops route = [] := by
      rw [← hset, SrcRoutingTable.hops]
      simp [SrcRoutingTable.set, hnil]
    have hdest₁ : (t₁.routes route).ipaddr = dest := by
      rw [← hset]
      simpa [SrcRoutingTable.set] using hdest
    split
    · rename_i t₂ hhops
      obtain ⟨hspares₂, -⟩ := addSrcHops_spares hkept hused hhops
      refine ⟨fun _ _ heq => absurd (Prod.mk.inj heq).1.symm (Option.some_ne_none _), ?_⟩
      rintro s' heq
      rw [← (Prod.mk.inj heq).2]
      exact givesUp_of_rm h (addSrcHops_wellKept hkept hused hhops).1 (hspares₁.trans hspares₂) hbefore
    · rename_i t₂ hhops
      obtain ⟨hspares₂, helement₂⟩ := addSrcHops_spares hkept hused hhops
      obtain ⟨hkept₂, hused₂⟩ := addSrcHops_wellKept hkept hused hhops
      split
      · refine ⟨fun _ _ heq => absurd (Prod.mk.inj heq).1.symm (Option.some_ne_none _), ?_⟩
        rintro s' heq
        rw [← (Prod.mk.inj heq).2]
        exact givesUp_of_rm h hkept₂ (hspares₁.trans hspares₂) hbefore
      · rename_i t₃ hlast
        refine ⟨?_, fun _ heq => absurd (Prod.mk.inj heq).1 (Option.some_ne_none _)⟩
        rintro i s' heq
        obtain ⟨hi, rfl⟩ := Prod.mk.inj heq
        obtain rfl := Option.some.inj hi
        obtain ⟨hspares₃, helement₃, hhops₃⟩ := hkept₂.hopAdd_spec hlast
        have hall := addSrcHops_hops hcompr hfits hkept hused (Nat.zero_le _) (by simp)
          (by rw [hnil₁]; unfold firstHops; cases reverse <;> rfl) hhops
        refine ⟨(hkept₂.hopAdd hused₂ hlast).2, ?_, ?_, (hspares₁.trans hspares₂).trans hspares₃⟩
        · show (t₃.routes route).ipaddr = dest
          rw [helement₃, helement₂, hdest₁]
        · show t₃.hops route = _
          rw [hhops₃, hall]
          rfl

/-! ## Room for a route -/

/-- The loop comes to its end when there is room for the hops that are left. -/
lemma addSrcHops_done {t : SrcRoutingTable cfg.DagRef cfg.srcRouteNb cfg.srcRouteAddrNb}
    {route : Fin cfg.srcRouteNb} (hcompr : compr.toNat ≤ 15)
    (hfits : numHops addrLen compr * (16 - compr.toNat) < 256) {fuel k : ℕ} {i : UInt8}
    (hi : i.toNat = k * (16 - compr.toNat)) (hk : k ≤ numHops addrLen compr)
    (hfuel : numHops addrLen compr - k < fuel) (hroom : numHops addrLen compr - k ≤ t.addrMemb.room) :
    ∃ t', addSrcHops route dest addrStart addrLen compr reverse fuel i t = (true, t') ∧
      t.addrMemb.room = t'.addrMemb.room + (numHops addrLen compr - k) := by
  induction fuel generalizing i t k with
  | zero => exact absurd hfuel (Nat.not_lt_zero _)
  | succ fuel ih =>
    rw [addSrcHops]
    have hiff : i < addrLen ↔ k < numHops addrLen compr := by
      rw [UInt8.lt_iff_toNat_lt, hi]
      exact lt_numHops hcompr k
    by_cases hlt : i < addrLen
    · have hk' := hiff.mp hlt
      rw [if_pos hlt]
      dsimp only
      generalize (dest.decompress compr.toNat ((List.range (16 - compr.toNat)).map fun b =>
        addrStart (i.toNat + b))).uipCreateLinklocalPrefix = hop
      obtain ⟨t₁, hhop, hroom₁⟩ : ∃ t₁, t.uipDs6SrcRouteHopAdd route hop reverse = some t₁ ∧
          t₁.addrMemb.room + 1 = t.addrMemb.room := SrcRoutingTable.exists_hopAdd (by omega)
      rw [hhop]
      have hstep : (16 - compr : UInt8).toNat = 16 - compr.toNat :=
        UInt8.toNat_sub_of_le _ _ (by rw [UInt8.le_iff_toNat_le]; show compr.toNat ≤ 16; omega)
      have hindex : (k + 1) * (16 - compr.toNat) < 256 :=
        Nat.lt_of_le_of_lt (Nat.mul_le_mul_right _ hk') hfits
      have hi' : (i + (16 - compr)).toNat = (k + 1) * (16 - compr.toNat) := by
        rw [UInt8.toNat_add, hi, hstep, ← Nat.succ_mul]
        exact Nat.mod_eq_of_lt hindex
      obtain ⟨t', heq, hroom'⟩ := ih (t := t₁) hi' hk' (by omega) (by omega)
      exact ⟨t', heq, by omega⟩
    · have hnot := mt hiff.mpr hlt
      rw [if_neg hlt]
      exact ⟨t, rfl, by omega⟩

/-- There is an entry for a route to a destination, and room for so many hops. -/
structure HasRoom (s : Node cfg) (dest : IpAddr) (hops : ℕ) : Prop where
  entry : ∃ i, (s.srcRoutingTable.routes i).isused = false ∨ (s.srcRoutingTable.routes i).ipaddr = dest
  pool : hops ≤ s.srcRoutingTable.addrMemb.room

/-- A route for which there is room is stored. -/
lemma addSrcRoute_isSome {s : Node cfg} (hcompr : compr.toNat ≤ 15)
    (hfits : numHops addrLen compr * (16 - compr.toNat) < 256)
    (hroom : s.HasRoom dest (numHops addrLen compr + 1)) :
    ∃ i s', s.rplP2pAddSrcRoute dest addrStart addrLen compr reverse = (some i, s') := by
  obtain ⟨i, t, hadd, hmore⟩ := SrcRoutingTable.exists_add hroom.entry
  have hpool := hroom.pool
  unfold rplP2pAddSrcRoute
  rw [hadd]
  dsimp only
  generalize hset : t.set i _ = t₁
  have hroom₁ : t₁.addrMemb.room = t.addrMemb.room := by
    rw [← hset]
    rfl
  have hall := t₁.addrMemb.room_le
  obtain ⟨t₂, hhops, hroom₂⟩ : ∃ t₂,
      addSrcHops i dest addrStart addrLen compr reverse (cfg.srcRouteAddrNb + 1) 0 t₁ = (true, t₂) ∧
        t₁.addrMemb.room = t₂.addrMemb.room + (numHops addrLen compr - 0) :=
    addSrcHops_done hcompr hfits (Nat.zero_mul _).symm (Nat.zero_le _) (by omega) (by omega)
  obtain ⟨t₃, hlast, -⟩ : ∃ t₃,
      t₂.uipDs6SrcRouteHopAdd i dest.uipCreateLinklocalPrefix false = some t₃ ∧
        t₃.addrMemb.room + 1 = t₂.addrMemb.room := SrcRoutingTable.exists_hopAdd (by omega)
  rw [hhops]
  dsimp only
  rw [hlast]
  exact ⟨i, _, rfl⟩

instance : NeZero Config.default.srcRouteNb := ⟨Nat.succ_ne_zero 2⟩

lemma boot_srcRoutes_wellKept (n : UInt8) : (boot n).srcRoutingTable.WellKept :=
  .fresh (fun _ => ⟨rfl, rfl⟩) fun _ => rfl

/-- A route to the node 1 over the nodes 2 and 4. -/
theorem addSrcRoute_stores_two : ∃ i s',
    (boot 3).rplP2pAddSrcRoute (nodeAddr 1) (fun i => [2, 4].getD i 0) 2 15 false = (some i, s') ∧
      Stores (boot 3) s' i (nodeAddr 1)
        (firstHops (nodeAddr 1) (fun i => [2, 4].getD i 0) 15 false (numHops 2 15) ++
          [(nodeAddr 1).uipCreateLinklocalPrefix]) :=
  ⟨2, _, rfl, (addSrcRoute_stores (boot 3) (boot_srcRoutes_wellKept 3) (nodeAddr 1) _ 2 15 false
    (by decide) (.inr (by decide))).1 2 _ rfl⟩

/-- A node with a route to the node 1 over the node 2. -/
def routed : Node .default := ((boot 3).rplP2pAddSrcRoute (nodeAddr 1) (fun _ => 2) 1 15 false).2

/-- The route to the node 1 is lost when there is no memory for the twenty hops of another one. -/
theorem not_addSrcRoute_stores : ¬∀ s : Node .default, s.srcRoutingTable.WellKept →
    ∀ dest addrStart addrLen compr reverse s', compr.toNat ≤ 15 →
      s.rplP2pAddSrcRoute dest addrStart addrLen compr reverse = (none, s') →
        ∀ j, s'.srcRoutingTable.hops j = s.srcRoutingTable.hops j := by
  intro h
  have hkept : routed.srcRoutingTable.WellKept :=
    rplP2pAddSrcRoute_wellKept (boot_srcRoutes_wellKept 3) _ _ _ _ _
  have hnone : (routed.rplP2pAddSrcRoute (nodeAddr 1) (fun _ => 2) 20 15 false).1 = none := by
    decide +kernel
  have hhops := h routed hkept (nodeAddr 1) (fun _ => 2) 20 15 false _ (by decide)
    (Prod.ext hnone rfl) 2
  have hlost : (routed.rplP2pAddSrcRoute (nodeAddr 1) (fun _ => 2) 20 15 false).2.srcRoutingTable.hops
      2 ≠ routed.srcRoutingTable.hops 2 := by
    decide +kernel
  exact hlost hhops

end Node
end Contiki

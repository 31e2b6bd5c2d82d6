import Contiki.Rpl.Allocation

/-!
# Path metrics and ranks of the ETX objective function

What `rpl_of_etx` computes in sixteen bits, against the same quantities without a bound.

* `pathMetric_eq`, `etx_prefers_cheap` — metrics that fit are compared as costs.
* `rankGrows_iff` — when the rank of a node is above that of its parent by the minimum increase.
-/

namespace Contiki
namespace Node
variable {cfg : Config} (s : Node cfg)

/-- `calculate_path_metric` of a parent, as a number. -/
def pathMetric (d : cfg.DagRef) (p : cfg.ParentRef) : ℕ :=
  (s.calculatePathMetric d (some p)).toNat

/-- The cost of a path: an ETX and the metric of the link to the node that advertised it. -/
def pathCost (etx : UInt16) (linkMetric : UInt8) : ℕ := etx.toNat + 8 * linkMetric.toNat

/-- The true cost of the path through a parent. -/
def trueCost (p : cfg.ParentRef) : ℕ := pathCost (s.parent p).mc.obj (s.parent p).linkMetric

/-- The cost of the path through a parent; an ETX of 0 that is advertised from beyond the root counts as
the largest one. -/
def countedCost (d : cfg.DagRef) (p : cfg.ParentRef) : ℕ :=
  if (s.parent p).mc.obj = 0 ∧ (s.parent p).rank > (s.parentDag d p).rootRank then
    maxPathMetric.toNat
  else s.trueCost p

/-- The cost of the route that a DIO advertises, with the link to its sender if there is a parent. -/
def routeCost (dio : Dio) (p : Option cfg.ParentRef) : ℕ :=
  pathCost dio.mc.obj ((p.map fun p => (s.parent p).linkMetric).getD 0)

variable {s} {d : cfg.DagRef} {p q : cfg.ParentRef}

lemma pathMetric_lt (p : cfg.ParentRef) : s.pathMetric d p < 65536 := UInt16.toNat_lt _

/-! ## Routers -/

/-- A DIO of a router that is not the root, with its path metric. -/
def routerDio (etx : UInt16) : Dio :=
  { globalDio 1 with rank := 512, mc := { MetricContainer.zero with obj := etx } }

/-! ## Costs -/

lemma niEtxToRplEtx_toNat (linkMetric : UInt8) :
    (niEtxToRplEtx linkMetric).toNat = 8 * linkMetric.toNat := by
  have hlt := linkMetric.toNat_lt
  rw [niEtxToRplEtx, UInt16.toNat_mul, UInt8.toNat_toUInt16]
  show linkMetric.toNat * 8 % 65536 = _
  omega

/-- A sum of an ETX and a link metric that fits is the cost. -/
lemma add_niEtxToRplEtx {etx : UInt16} {linkMetric : UInt8} (h : pathCost etx linkMetric < 65536) :
    (etx + niEtxToRplEtx linkMetric).toNat = pathCost etx linkMetric := by
  rw [UInt16.toNat_add, niEtxToRplEtx_toNat]
  exact Nat.mod_eq_of_lt h

/-- A path metric is the cost of the path, if the cost fits. -/
lemma pathMetric_eq (h : s.countedCost d p < 65536) : s.pathMetric d p = s.countedCost d p := by
  rw [pathMetric, calculatePathMetric]
  unfold countedCost at h ⊢
  split_ifs at h ⊢
  · rfl
  · exact add_niEtxToRplEtx h

/-- Of two parents that are not preferred the one with the smaller path metric is chosen. -/
lemma etxBestParent_of_ne (hp : (s.parent p).dag = some d)
    (hpref : some p ≠ (s.dagTable d).preferredParent)
    (hqref : some q ≠ (s.dagTable d).preferredParent) :
    s.etxBestParent d p q = if s.pathMetric d p < s.pathMetric d q then some p else some q := by
  have hdag : s.parentDag d p = s.dagTable d := by
    rw [parentDag, hp]
    rfl
  unfold etxBestParent
  rw [hdag]
  refine (if_neg ?_).trans rfl
  rintro ⟨h | h, -⟩
  · exact hpref h
  · exact hqref h

/-- **Costs that fit are compared as they are.**  Neither of two parents that are not preferred is chosen
over a cheaper one, and no route is taken for better than the current one that costs more. -/
theorem etx_prefers_cheap (s : Node cfg) (d : cfg.DagRef) :
    (∀ p q, (s.parent p).dag = some d → (s.parent q).dag = some d →
      some p ≠ (s.dagTable d).preferredParent → some q ≠ (s.dagTable d).preferredParent →
      s.countedCost d p < 65536 → s.countedCost d q < 65536 →
      ∃ c, s.etxBestParent d p q = some c ∧ (c = p ∨ c = q) ∧
        s.countedCost d c ≤ s.countedCost d p ∧ s.countedCost d c ≤ s.countedCost d q) ∧
    ∀ dio p, s.routeCost dio p < 65536 → s.etxP2pRouteCmp d dio p > 0 →
      s.routeCost dio p ≤ (s.dagTable d).mc.obj.toNat := by
  constructor
  · intro p q hp hq hpref hqref hpfits hqfits
    rw [etxBestParent_of_ne hp hpref hqref, pathMetric_eq hpfits, pathMetric_eq hqfits]
    by_cases hlt : s.countedCost d p < s.countedCost d q
    · rw [if_pos hlt]
      exact ⟨p, rfl, .inl rfl, Nat.le_refl _, by omega⟩
    · rw [if_neg hlt]
      exact ⟨q, rfl, .inr rfl, by omega, Nat.le_refl _⟩
  · intro dio p hfits hbetter
    have hmetric : ∀ m : UInt16, m.toNat = s.routeCost dio p →
        (if similar cfg etxMinDiff m (s.dagTable d).mc.obj then (0 : ℤ)
          else if m > (s.dagTable d).mc.obj then -1 else 1) > 0 →
        s.routeCost dio p ≤ (s.dagTable d).mc.obj.toNat := by
      intro m hm hcmp
      split_ifs at hcmp with hsimilar hlt
      · omega
      · omega
      · rw [← hm]
        exact UInt16.not_lt.mp hlt
    cases p with
    | none =>
      refine hmetric dio.mc.obj ?_ hbetter
      rfl
    | some p =>
      refine hmetric _ ?_ hbetter
      exact add_niEtxToRplEtx hfits

/-- Three parents: the routes through the two that are not preferred cost 728 and 1128. -/
theorem etx_prefers_cheap_three : ∃ s : Node .default, s.Reachable ∧
    ∃ c, s.etxBestParent 0 2 1 = some c ∧ (c = 2 ∨ c = 1) ∧
      s.countedCost 0 c ≤ s.countedCost 0 2 ∧ s.countedCost 0 c ≤ s.countedCost 0 1 := by
  obtain ⟨s, hs, hobs⟩ := exists_reachable 3
    [.processDio (nodeLinkLocal 2) (routerDio 200), .processDio (nodeLinkLocal 4) (routerDio 600),
      .processDio (nodeLinkLocal 5) (routerDio 1000)]
    (fun s => decide ((s.parent 2).dag = some 0 ∧ (s.parent 1).dag = some 0 ∧
      (s.dagTable 0).preferredParent = some 0 ∧ s.countedCost 0 2 = 1128 ∧ s.countedCost 0 1 = 728))
    (a := true) (by decide +kernel)
  obtain ⟨hdag, hdag', hpref, hcost, hcost'⟩ := of_decide_eq_true hobs
  exact ⟨s, hs, (etx_prefers_cheap s 0).1 2 1 hdag hdag' (by rw [hpref]; decide)
    (by rw [hpref]; decide) (by omega) (by omega)⟩

/-- Beyond the root a router advertises an ETX of 0: the path through it is the cheapest one, and is not
chosen. -/
theorem not_etx_prefers_cheap : ¬∀ s : Node .default, s.Reachable → ∀ d p q,
    p ∈ (s.dagTable d).parents → q ∈ (s.dagTable d).parents →
    some p ≠ (s.dagTable d).preferredParent → some q ≠ (s.dagTable d).preferredParent →
    ∀ c, s.etxBestParent d p q = some c → s.trueCost c ≤ s.trueCost p ∧ s.trueCost c ≤ s.trueCost q := by
  intro h
  obtain ⟨s, hs, hobs⟩ := exists_reachable 3
    [.processDio (nodeLinkLocal 2) (routerDio 200), .processDio (nodeLinkLocal 4) (routerDio 0),
      .processDio (nodeLinkLocal 5) (routerDio 1000)]
    (fun s => decide (((s.dagTable 0).parents = [0, 1, 2] ∧
      (s.dagTable 0).preferredParent = some 0 ∧ s.etxBestParent 0 1 2 = some 2) ∧
        s.trueCost 1 = 128 ∧ s.trueCost 2 = 1128))
    (a := true) (by decide +kernel)
  obtain ⟨⟨hparents, hpref, hbest⟩, hcost, hcost'⟩ := of_decide_eq_true hobs
  have hle := (h s hs 0 1 2 (by rw [hparents]; decide) (by rw [hparents]; decide)
    (by rw [hpref]; decide) (by rw [hpref]; decide) 2 hbest).1
  omega

/-! ## Ranks -/

/-- The rank that `calculate_rank` starts from. -/
def baseRank (s : Node cfg) (p : cfg.ParentRef) (base : UInt16) : ℕ :=
  (if base = 0 then (s.parent p).rank else base).toNat

/-- The least increase of the rank from a parent on. -/
def minHoprankinc (s : Node cfg) (d : cfg.DagRef) (p : cfg.ParentRef) : ℕ :=
  (s.parentDag d p).config.minHoprankinc.toNat

/-- The product of the link metric, in whole ETX, and of the least increase, in sixteen bits. -/
def rankIncrease (s : Node cfg) (d : cfg.DagRef) (p : cfg.ParentRef) : ℕ :=
  (s.parent p).linkMetric.toNat / 16 * s.minHoprankinc d p % 65536

/-- The rank that is computed from a parent is infinite, or above the base by the least increase, and
by something. -/
def RankGrows (s : Node cfg) (d : cfg.DagRef) (p : cfg.ParentRef) (base : UInt16) : Prop :=
  s.etxCalculateRank d (some p) base = infiniteRank ∨
    s.baseRank p base + s.minHoprankinc d p ≤ (s.etxCalculateRank d (some p) base).toNat ∧
      s.baseRank p base < (s.etxCalculateRank d (some p) base).toNat

lemma baseRank_lt (base : UInt16) : s.baseRank p base < 65536 := UInt16.toNat_lt _

/-- `calculate_rank` of `rpl_of_etx` for a parent, on numbers. -/
lemma etxCalculateRank_toNat (base : UInt16) :
    (s.etxCalculateRank d (some p) base).toNat =
      if 65535 - s.baseRank p base < s.rankIncrease d p then 65535
      else s.baseRank p base + s.rankIncrease d p := by
  have hincrease : (((s.parent p).linkMetric / neighborInfoEtxDivisor).toUInt16 *
      (s.parentDag d p).config.minHoprankinc).toNat = s.rankIncrease d p := by
    rw [UInt16.toNat_mul, UInt8.toNat_toUInt16, UInt8.toNat_div]
    rfl
  unfold etxCalculateRank
  dsimp only
  generalize ((s.parent p).linkMetric / neighborInfoEtxDivisor).toUInt16 *
    (s.parentDag d p).config.minHoprankinc = increase at hincrease ⊢
  rw [baseRank, ← hincrease]
  generalize (if base = 0 then (s.parent p).rank else base) = b
  have hsub : (infiniteRank - b).toNat = 65535 - b.toNat := UInt16.toNat_sub_of_le _ _ (by
    rw [UInt16.le_iff_toNat_le]
    have := b.toNat_lt
    show b.toNat ≤ 65535
    omega)
  have hlt : infiniteRank - b < increase ↔ 65535 - b.toNat < increase.toNat := by
    rw [UInt16.lt_iff_toNat_lt, hsub]
  by_cases h : 65535 - b.toNat < increase.toNat
  · rw [if_pos (hlt.mpr h), if_pos h]
    rfl
  · rw [if_neg fun hc => h (hlt.mp hc), if_neg h, UInt16.toNat_add]
    exact Nat.mod_eq_of_lt (by show b.toNat + increase.toNat < 65536; have := b.toNat_lt; omega)

/-- The rank grows by the least increase exactly when the product does not wrap below it, or reaches the
infinite rank. -/
theorem rankGrows_iff (s : Node cfg) (d : cfg.DagRef) (p : cfg.ParentRef) (base : UInt16) :
    s.RankGrows d p base ↔ 65535 - s.baseRank p base ≤ s.rankIncrease d p ∨
      0 < s.rankIncrease d p ∧ s.minHoprankinc d p ≤ s.rankIncrease d p := by
  have hbase := baseRank_lt (s := s) (p := p) base
  have hinfinite : s.etxCalculateRank d (some p) base = infiniteRank ↔
      (s.etxCalculateRank d (some p) base).toNat = 65535 := by
    rw [← UInt16.toNat_inj]
    rfl
  unfold RankGrows
  rw [hinfinite, etxCalculateRank_toNat]
  split_ifs <;> omega

/-- A link of two ETX to the root of a DAG whose least increase is 32768: the node gets the rank of the
root. -/
theorem not_rankGrows : ¬∀ s : Node .default, s.Reachable → ∀ d, ∀ p ∈ (s.dagTable d).parents,
    (s.parent p).rank ≠ infiniteRank → ∀ base, s.RankGrows d p base := by
  intro h
  obtain ⟨s, hs, hobs⟩ := exists_reachable 3
    [.nbrMetric (nodeLinkLocal 2) (some 32), .processDio (nodeLinkLocal 2) { globalDio 1 with
      rank := 0x8000, dodagConfig := some { defaultDodagConfig with minHoprankinc := 0x8000 } }]
    (fun s => decide ((s.dagTable 0).parents = [0] ∧ (s.parent 0).rank = 0x8000 ∧
      (s.dagTable 0).rank = 0x8000 ∧ s.etxCalculateRank 0 (some 0) 0 = 0x8000 ∧ s.baseRank 0 0 = 0x8000))
    (a := true) (by decide +kernel)
  obtain ⟨hparents, hrank, -, hresult, hbase⟩ := of_decide_eq_true hobs
  rcases h s hs 0 0 (by rw [hparents]; decide) (by rw [hrank]; decide) 0 with hgrows | ⟨-, hgrows⟩
  · rw [hresult] at hgrows
    exact absurd hgrows (by decide)
  · rw [hresult, hbase] at hgrows
    exact absurd hgrows (by decide)

end Node
end Contiki

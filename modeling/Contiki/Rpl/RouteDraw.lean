import Contiki.Rpl.DioRelay

/-!
# The draw of a partial route

`dio_output` sends one of the cached partial routes, chosen at random.  The index is the random number
divided by a rounded quotient.

* `CachesRoutes.filled` — the routes that are cached come before the places that are free.
* `drawsCached_iff` — the index is that of a cached route unless the random number is one of the two
  largest.
-/

namespace Contiki

variable {cfg : Config}

namespace Node
variable {s s' : Node cfg} {d : cfg.DagRef} {e : cfg.P2pRef}

/-- The states in which the partial routes of the extension `e` were put there by `rpl_p2p_update_dag` and
`rpl_p2p_add_partial_route`.  In between anything else may happen, in particular to the pool the routes
are stored in. -/
inductive CachesRoutes (e : cfg.P2pRef) : Node cfg → Prop
  | empty {s : Node cfg} (h : ∀ i, (s.dagP2pTable e).partialRoutes i = []) : CachesRoutes e s
  | update {s s' : Node cfg} {d : cfg.DagRef} {dio : Dio} (h : CachesRoutes e s)
      (he : s.derefP2p d = .ok e) (hs' : s.rplP2pUpdateDag d dio = .ok s') : CachesRoutes e s'
  | add {s : Node cfg} (d : cfg.DagRef) (rdo : Rdo) (h : CachesRoutes e s) :
      CachesRoutes e (s.rplP2pAddPartialRoute d e rdo).2
  | other {s s' : Node cfg} (h : CachesRoutes e s)
      (hs' : (s'.dagP2pTable e).partialRoutes = (s.dagP2pTable e).partialRoutes) : CachesRoutes e s'

/-- The partial routes that are cached come first. -/
def Filled (e : cfg.P2pRef) (s : Node cfg) : Prop :=
  ∀ i j, i ≤ j → (s.dagP2pTable e).partialRoutes i = [] → (s.dagP2pTable e).partialRoutes j = []

/-- The routes that are cached come first, and the index that is drawn is that of one of them, if there
are any. -/
def DrawsCached (e : cfg.P2pRef) (s : Node cfg) : Prop :=
  Filled e s ∧ (0 < s.cachedRoutes e → (s.chooseRoute e).1 < s.cachedRoutes e ∧
    ∃ i, i.val = (s.chooseRoute e).1 ∧ (s.dagP2pTable e).partialRoutes i ≠ [])

/-! ## Where routes are cached -/

lemma setPartialRoute_of_ne {i j : Fin rplP2pMaxPartialRoutes} (hj : j ≠ i) (s : Node cfg)
    (l : List (Fin rplMaxSrcRouteAddrEntries)) :
    ((s.setPartialRoute e i l).dagP2pTable e).partialRoutes j = (s.dagP2pTable e).partialRoutes j := by
  simp [setPartialRoute, hj]

lemma addSrcRouteAddr_of_ne {i j : Fin rplP2pMaxPartialRoutes} (hj : j ≠ i) {addr : UInt8}
    (h : s.addSrcRouteAddr e i addr = some s') :
    (s'.dagP2pTable e).partialRoutes j = (s.dagP2pTable e).partialRoutes j := by
  unfold addSrcRouteAddr at h
  split at h
  · cases h
  · cases h
    exact setPartialRoute_of_ne hj _ _

/-- A route is copied to one place. -/
lemma copyAddrs_of_ne {i j : Fin rplP2pMaxPartialRoutes} (hj : j ≠ i) (addrs : List UInt8)
    (s : Node cfg) :
    ((copyAddrs e i addrs s).2.dagP2pTable e).partialRoutes j = (s.dagP2pTable e).partialRoutes j := by
  induction addrs generalizing s with
  | nil => rfl
  | cons addr rest ih =>
    unfold copyAddrs
    split
    · exact setPartialRoute_of_ne hj _ _
    · rename_i s' hadd
      exact (ih s').trans (addSrcRouteAddr_of_ne hj hadd)

lemma filled_add (h : Filled e s) (d : cfg.DagRef) (rdo : Rdo) :
    Filled e (s.rplP2pAddPartialRoute d e rdo).2 := by
  unfold rplP2pAddPartialRoute
  split
  · exact h
  · rename_i i hi
    obtain ⟨hfree, before, after, hsplit, hbefore⟩ := List.find?_eq_some_iff_append.mp hi
    have hnil : (s.dagP2pTable e).partialRoutes i = [] := by simpa using hfree
    intro j k hjk hj
    by_cases hki : k = i
    · by_cases hji : j = i
      · rw [hji] at hj
        rwa [hki]
      · -- An earlier place is taken, since the first free one was.
        rw [copyAddrs_of_ne hji] at hj
        have hmem : j ∈ before := by
          have hj' : j ∈ before ++ i :: after := hsplit ▸ List.mem_finRange j
          refine (List.mem_append.mp hj').resolve_right fun hlate => ?_
          have hsorted := List.pairwise_lt_finRange rplP2pMaxPartialRoutes
          rw [hsplit] at hsorted
          have hlt := (List.pairwise_cons.mp (List.pairwise_append.mp hsorted).2.1).1 j
            ((List.mem_cons.mp hlate).resolve_left hji)
          exact absurd (hki ▸ hjk) (Fin.not_le.mpr hlt)
        have htaken := hbefore j hmem
        rw [hj] at htaken
        exact Bool.noConfusion htaken
    · rw [copyAddrs_of_ne hki]
      by_cases hji : j = i
      · exact h i k (hji ▸ hjk) hnil
      · rw [copyAddrs_of_ne hji] at hj
        exact h j k hjk hj

lemma filled_update (h : s.derefP2p d = .ok e) {dio : Dio} :
    Ensures (s.rplP2pUpdateDag d dio) (Filled e) := by
  unfold rplP2pUpdateDag
  rw [h, ok_bind]
  refine .bind (fun _ _ => trivial) fun rdo _ => .bind (fun _ _ => trivial) fun _ _ => .ok ?_
  refine filled_add (fun i j _ _ => ?_) d rdo
  rw [freePartialRoutes_eq, modifyP2p_dagP2pTable, Function.update_self]

/-- **Cached routes come first**, whatever happens to the pool. -/
theorem CachesRoutes.filled (h : CachesRoutes e s) : Filled e s := by
  induction h with
  | empty h => exact fun i j _ _ => h j
  | update _ he hs' _ => exact filled_update he _ hs'
  | add d rdo _ ih => exact filled_add ih d rdo
  | other _ hs' ih =>
    intro i j hij
    rw [hs']
    exact ih i j hij

/-! ## The draw -/

lemma Filled.cached_iff (h : Filled e s) (i : Fin rplP2pMaxPartialRoutes) :
    (s.dagP2pTable e).partialRoutes i ≠ [] ↔ i.val < s.cachedRoutes e := by
  have hrange : List.finRange rplP2pMaxPartialRoutes = [0, 1, 2] := rfl
  have h01 := h 0 1 (by decide)
  have h12 := h 1 2 (by decide)
  have hcases : ∀ i : Fin rplP2pMaxPartialRoutes, i = 0 ∨ i = 1 ∨ i = 2 := by decide
  unfold cachedRoutes
  rw [hrange]
  simp only [List.filter_cons, List.filter_nil, List.length_eq_zero_iff, ne_eq, decide_not]
  by_cases h0 : (s.dagP2pTable e).partialRoutes 0 = []
  · have h1 := h01 h0
    rcases hcases i with rfl | rfl | rfl <;> simp [h0, h1, h12 h1]
  · by_cases h1 : (s.dagP2pTable e).partialRoutes 1 = []
    · rcases hcases i with rfl | rfl | rfl <;> simp [h0, h1, h12 h1]
    · by_cases h2 : (s.dagP2pTable e).partialRoutes 2 = [] <;>
        rcases hcases i with rfl | rfl | rfl <;> simp [h0, h1, h2]

lemma cachedRoutes_le (s : Node cfg) (e : cfg.P2pRef) : s.cachedRoutes e ≤ 3 := by
  unfold cachedRoutes
  exact Nat.le_trans (List.length_filter_le _ _) (by simp)

/-- The index that is drawn from two or three routes is small enough for all but the two largest random
numbers. -/
lemma chooseRoute_lt_iff (hcached : 1 < s.cachedRoutes e) :
    (s.chooseRoute e).1 < s.cachedRoutes e ↔ s.randomRand.1.toNat < 32766 := by
  have hle := cachedRoutes_le s e
  have hindex : (s.chooseRoute e).1 = s.randomRand.1.toNat / (32767 / s.cachedRoutes e) := by
    unfold chooseRoute
    dsimp only
    rw [if_pos hcached]
    rfl
  have hcases : s.cachedRoutes e = 2 ∨ s.cachedRoutes e = 3 := by omega
  rw [hindex]
  rcases hcases with h | h <;> rw [h] <;> omega

/-- **A cached route is drawn** unless there are two or three and the random number is 32766 or
32767. -/
theorem drawsCached_iff (h : CachesRoutes e s) :
    DrawsCached e s ↔ s.cachedRoutes e ≤ 1 ∨ s.randomRand.1.toNat < 32766 := by
  have hfilled := h.filled
  have hle := cachedRoutes_le s e
  have hlt : (0 < s.cachedRoutes e → (s.chooseRoute e).1 < s.cachedRoutes e) ↔
      s.cachedRoutes e ≤ 1 ∨ s.randomRand.1.toNat < 32766 := by
    by_cases hmany : 1 < s.cachedRoutes e
    · rw [chooseRoute_lt_iff hmany]
      omega
    · have hzero : (s.chooseRoute e).1 = 0 := by
        unfold chooseRoute
        dsimp only
        rw [if_neg hmany]
      rw [hzero]
      omega
  rw [← hlt]
  constructor
  · exact fun hdraws hpos => (hdraws.2 hpos).1
  · refine fun hdraw => ⟨hfilled, fun hpos => ⟨hdraw hpos, ?_⟩⟩
    have hindex := hdraw hpos
    have hplace : (s.chooseRoute e).1 < rplP2pMaxPartialRoutes := Nat.lt_of_lt_of_le hindex hle
    exact ⟨⟨(s.chooseRoute e).1, hplace⟩, rfl, (hfilled.cached_iff _).mpr hindex⟩

/-- A node of the extension 0 with two routes, and with a random number to be drawn. -/
def twoRoutes (seed : UInt32) : Node .default :=
  let rdo (via : UInt8) : Rdo := ⟨0, 0, 0, 2, 0, 3, [via]⟩
  let s := { boot 3 with randState := seed }
  ((s.rplP2pAddPartialRoute 0 0 (rdo 2)).2.rplP2pAddPartialRoute 0 0 (rdo 4)).2

lemma twoRoutes_caches (seed : UInt32) : CachesRoutes 0 (twoRoutes seed) :=
  .add 0 _ (.add 0 _ (.empty fun _ => rfl))

/-- The random number 16807 draws the second of two routes. -/
theorem drawsCached_two : DrawsCached 0 (twoRoutes 1) :=
  (drawsCached_iff (twoRoutes_caches 1)).mpr (.inr (by decide +kernel))

/-- With the random number 32767 the index is that of the third route. -/
theorem not_drawsCached : ¬∀ s : Node .default, CachesRoutes 0 s → DrawsCached 0 s := by
  intro h
  have hindex := (h _ (twoRoutes_caches 65535)).2
  have hdrawn : (twoRoutes 65535).cachedRoutes 0 = 2 ∧ ((twoRoutes 65535).chooseRoute 0).1 = 2 := by
    decide +kernel
  rw [hdrawn.1, hdrawn.2] at hindex
  exact absurd (hindex (by decide)).1 (by decide)

end Node
end Contiki

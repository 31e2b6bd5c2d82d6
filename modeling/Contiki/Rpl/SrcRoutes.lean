import Contiki.Net.SrcRoutes
import Contiki.Rpl.System

/-!
# Source routes of a node

Source routes are added by the origin of a discovery from a reply (`dro_input`), by the target of
a measurement from the request (`mo_input`), and by the target of a discovery together with its
reply (`send_dros`).  They go away when they are removed or when `rpl_purge_routes` has counted
their lifetime down.  Each of these keeps the bookkeeping of the table, also when the pool of hops
is exhausted half way; `srcRoutes_wellKept` says so for all runs.
-/

namespace Contiki

def rplP2pMoTFlag : UInt8 := 0x08

def rplP2pMoAFlag : UInt8 := 0x02

def rplP2pMoRFlag : UInt8 := 0x01

/-- `RPL_P2P_MO_N_MASK` and `RPL_P2P_MO_N_SHIFT`. -/
def rplP2pMoN (b : UInt8) : UInt8 := (b &&& 0xf0) >>> 4

/-- `RPL_P2P_MO_I_MASK` and `RPL_P2P_MO_I_SHIFT`. -/
def rplP2pMoI (b : UInt8) : UInt8 := b &&& 0x0f

namespace Node
variable {cfg : Config} {s s' : Node cfg}

/-! ## Measurements -/

/-- The address vector of a request can be used as a route back. -/
def moReversible (buffer : ℕ → UInt8) : Bool :=
  buffer 0 &&& rplLocalDefaultInstance != 0 && buffer 1 &&& rplP2pMoAFlag != 0 ||
    buffer 1 &&& rplP2pMoRFlag != 0

/-- `mo_input`, as far as it changes the source routing table: only the target of a request adds
a route.  The length of the address vector is computed in a byte, so that an index of zero gives
the longest vector. -/
def moInput (s : Node cfg) (src : IpAddr) (buffer : ℕ → UInt8) : Except Fault (Node cfg) := do
  let own ← s.ownAddr
  let origin := own.decompress rplP2pRdoCompr.toNat [buffer 4]
  let target := own.decompress rplP2pRdoCompr.toNat [buffer 5]
  if s.isMyAddr origin then .ok s
  else
    match s.nbrMetric src with
    | none => .ok s
    | some linkMetric =>
      -- the metric container comes behind the vector; its value is updated in place
      let pos := 4 + ((rplP2pMoN (buffer 3)).toNat + 2) + 6
      let pathMetric := get16 buffer pos + niEtxToRplEtx linkMetric
      let buffer := Function.update (Function.update buffer pos (pathMetric >>> 8).toUInt8)
        (pos + 1) pathMetric.toUInt8
      if s.isMyAddr target && buffer 1 &&& rplP2pMoTFlag != 0 && moReversible buffer then
        .ok (s.rplP2pAddSrcRoute origin (fun i => buffer (6 + i)) (rplP2pMoI (buffer 3) - 1)
          rplP2pRdoCompr true).2
      else .ok s

/-! ## Adding a route -/

section
variable {n m : ℕ} {route : Fin cfg.srcRouteNb}
  {t t' : SrcRoutingTable cfg.DagRef cfg.srcRouteNb cfg.srcRouteAddrNb}

lemma addSrcHops_wellKept {dest : IpAddr} {addrStart : ℕ → UInt8} {addrLen compr : UInt8}
    {reverse done : Bool} {fuel : ℕ} {i : UInt8} (h : t.WellKept)
    (hused : (t.routes route).isused = true)
    (hadd : addSrcHops route dest addrStart addrLen compr reverse fuel i t = (done, t')) :
    t'.WellKept ∧ (t'.routes route).isused = true := by
  induction fuel generalizing i t with
  | zero =>
      simp only [addSrcHops, Prod.mk.injEq] at hadd
      exact hadd.2 ▸ ⟨h, hused⟩
  | succ fuel ih =>
      simp only [addSrcHops] at hadd
      split_ifs at hadd
      · split at hadd
        · exact (Prod.mk.inj hadd).2 ▸ ⟨h, hused⟩
        · rename_i t₁ hhop
          obtain ⟨h₁, hused₁⟩ := h.hopAdd hused hhop
          exact ih h₁ hused₁ hadd
      · exact (Prod.mk.inj hadd).2 ▸ ⟨h, hused⟩

lemma addBackwardHops_wellKept {dagId : IpAddr} {addrs : List UInt8} {done : Bool}
    (h : t.WellKept) (hused : (t.routes route).isused = true)
    (hadd : addBackwardHops route dagId addrs t = (done, t')) :
    t'.WellKept ∧ (t'.routes route).isused = true := by
  induction addrs generalizing t with
  | nil => exact (Prod.mk.inj hadd).2 ▸ ⟨h, hused⟩
  | cons a rest ih =>
      simp only [addBackwardHops] at hadd
      split at hadd
      · exact (Prod.mk.inj hadd).2 ▸ ⟨h, hused⟩
      · rename_i t₁ hhop
        obtain ⟨h₁, hused₁⟩ := h.hopAdd hused hhop
        exact ih h₁ hused₁ hadd

/-- The lifetime of the new route is set before its hops are added. -/
lemma add_set_wellKept {ipaddr : IpAddr} (h : t.WellKept)
    (hadd : t.uipDs6SrcRouteAdd ipaddr = (some route, t')) (state : RouteState cfg.DagRef) :
    (t'.set route { t'.routes route with state }).WellKept ∧
      ((t'.set route { t'.routes route with state }).routes route).isused = true := by
  obtain ⟨hkept, hused⟩ := h.add hadd
  exact ⟨hkept.set_state route state, by simpa [SrcRoutingTable.set] using hused⟩

end

lemma rplP2pAddSrcRoute_wellKept (h : s.srcRoutingTable.WellKept) (dest : IpAddr)
    (addrStart : ℕ → UInt8) (addrLen compr : UInt8) (reverse : Bool) :
    (s.rplP2pAddSrcRoute dest addrStart addrLen compr reverse).2.srcRoutingTable.WellKept := by
  unfold rplP2pAddSrcRoute
  split
  · rename_i t hadd
    rw [SrcRoutingTable.add_eq_none hadd]
    exact h
  · rename_i route t hadd
    obtain ⟨hset, hused⟩ := add_set_wellKept h hadd { (t.routes route).state with
      lifetime := rplDefaultLifetime.toUInt32 * rplDefaultLifetimeUnit.toUInt32 }
    simp only
    split
    · rename_i t' hhops
      exact (addSrcHops_wellKept hset hused hhops).1.rm route
    · rename_i t' hhops
      obtain ⟨hkept, hused'⟩ := addSrcHops_wellKept hset hused hhops
      split
      · exact hkept.rm route
      · rename_i t'' hhop
        exact (hkept.hopAdd hused' hhop).1

lemma addBackwardRoute_wellKept (h : s.srcRoutingTable.WellKept) (d : cfg.DagRef)
    (addrs : List UInt8) : (s.addBackwardRoute d addrs).srcRoutingTable.WellKept := by
  unfold addBackwardRoute
  simp only
  split
  · rename_i t hadd
    rw [SrcRoutingTable.add_eq_none hadd]
    exact h
  · rename_i route t hadd
    obtain ⟨hset, hused⟩ := add_set_wellKept h hadd { (t.routes route).state with
      lifetime := UInt32.ofNat (cfg.cInt ((s.dagTable d).config.defaultLifetime.toNat *
        (s.dagTable d).config.lifetimeUnit.toNat)).toNat }
    simp only
    split
    · rename_i t' hhops
      exact (addBackwardHops_wellKept hset hused hhops).1.rm route
    · rename_i t' hhops
      obtain ⟨hkept, hused'⟩ := addBackwardHops_wellKept hset hused hhops
      split
      · exact hkept.rm route
      · rename_i t'' hhop
        exact (hkept.hopAdd hused' hhop).1

/-! ## The callers -/

lemma droOutput_srcRoutingTable {d : cfg.DagRef} {addrs : List UInt8}
    {r : Option Packet × Node cfg} (h : s.droOutput d addrs = .ok r) :
    r.2.srcRoutingTable = s.srcRoutingTable := by
  unfold droOutput at h
  split at h
  · cases h; rfl
  · obtain ⟨rdo, -, h⟩ := bind_eq_ok.mp h
    cases h
    simp only [cacheDro]
    split_ifs
    · split <;> rfl
    · rfl

lemma sendDrosFrom_wellKept (h : s.srcRoutingTable.WellKept) {d : cfg.DagRef}
    {l : List (Fin rplP2pMaxPartialRoutes)} {j : ℕ} {r : List Packet × Node cfg}
    (hsend : sendDrosFrom d l j s = .ok r) : r.2.srcRoutingTable.WellKept := by
  induction l generalizing s j r with
  | nil => cases hsend; exact h
  | cons i rest ih =>
      unfold sendDrosFrom at hsend
      obtain ⟨e, -, hsend⟩ := bind_eq_ok.mp hsend
      simp only at hsend
      split_ifs at hsend
      · exact ih h hsend
      · obtain ⟨r₁, hout, hsend⟩ := bind_eq_ok.mp hsend
        obtain ⟨r₂, hrest, hsend⟩ := bind_eq_ok.mp hsend
        cases hsend
        apply ih ?_ hrest
        rw [droOutput_srcRoutingTable hout]
        unfold backwardRoute
        split_ifs
        · exact addBackwardRoute_wellKept h d _
        · exact h
      · cases hsend
        exact h

lemma sendDros_wellKept (h : s.srcRoutingTable.WellKept) {e : cfg.P2pRef}
    {r : List Packet × Node cfg} (hsend : s.sendDros e = .ok r) :
    r.2.srcRoutingTable.WellKept := by
  unfold sendDros at hsend
  simp only at hsend
  split at hsend
  · cases hsend; exact h
  · exact sendDrosFrom_wellKept (s := s.modifyP2p e _) h hsend

lemma rplAddRoute_srcRoutingTable (s : Node cfg) (dag : Option cfg.DagRef) (prefixAddr : IpAddr)
    (prefixLen : UInt8) (nextHop : IpAddr) :
    (s.rplAddRoute dag prefixAddr prefixLen nextHop).2.srcRoutingTable = s.srcRoutingTable := by
  have hnew : (s.addNewRoute prefixAddr prefixLen nextHop).2.srcRoutingTable =
      s.srcRoutingTable := by
    unfold addNewRoute
    split <;> rfl
  unfold rplAddRoute
  split
  · rfl
  · generalize s.addNewRoute prefixAddr prefixLen nextHop = added at hnew
    obtain ⟨rep, s'⟩ := added
    cases rep with
    | none => exact hnew
    | some rep => exact hnew

lemma rplP2pAddHbhRoute_srcRoutingTable (s : Node cfg) (instanceId : UInt8)
    (dodagid target nexthop : IpAddr) :
    (s.rplP2pAddHbhRoute instanceId dodagid target nexthop).2.srcRoutingTable =
      s.srcRoutingTable := by
  have hadd := rplAddRoute_srcRoutingTable s (s.rplGetDag instanceId (some dodagid)) target 128
    nexthop
  unfold rplP2pAddHbhRoute
  split <;> rename_i heq <;> rw [heq] at hadd
  · exact hadd
  · exact hadd

lemma droStop_srcRoutingTable {dro : Dro} (h : s.droStop dro = .ok s') :
    s'.srcRoutingTable = s.srcRoutingTable := by
  unfold droStop at h
  split_ifs at h
  · split at h
    · cases h; rfl
    · obtain ⟨e, -, h⟩ := bind_eq_ok.mp h
      split_ifs at h <;> cases h <;> rfl
  · cases h; rfl

lemma droStoreRoute_wellKept (h : s.srcRoutingTable.WellKept) (dro : Dro) :
    (s.droStoreRoute dro).srcRoutingTable.WellKept := by
  unfold droStoreRoute
  split
  · rw [rplP2pAddHbhRoute_srcRoutingTable]
    exact h
  · exact rplP2pAddSrcRoute_wellKept h _ _ _ _ _

lemma droAtIntermediate_srcRoutingTable (s : Node cfg) (dst : IpAddr) (dro : Dro) :
    (s.droAtIntermediate dst dro).2.srcRoutingTable = s.srcRoutingTable := by
  unfold droAtIntermediate
  split_ifs
  · rfl
  · split
    · rfl
    · rename_i s₂ hstore
      unfold droStoreHop at hstore
      split_ifs at hstore
      · split at hstore
        · split_ifs at hstore
          cases hstore
          rfl
        · cases hstore
          exact rplP2pAddHbhRoute_srcRoutingTable s _ _ _ _
      · cases hstore
        rfl

/-- Only a reply for a source route, at the origin of its discovery, changes the table. -/
lemma droInput_wellKept (h : s.srcRoutingTable.WellKept) {dst : IpAddr} {dro : Dro}
    {r : List Packet × Node cfg} (hdro : s.droInput dst dro = .ok r) :
    r.2.srcRoutingTable.WellKept := by
  unfold droInput at hdro
  obtain ⟨s₁, hstop, hdro⟩ := bind_eq_ok.mp hdro
  rw [← droStop_srcRoutingTable hstop] at h
  split at hdro
  · unfold droAtOrigin at hdro
    obtain ⟨_, -, hdro⟩ := bind_eq_ok.mp hdro
    cases hdro
    exact droStoreRoute_wellKept h dro
  · cases hdro
    rw [droAtIntermediate_srcRoutingTable]
    exact h

lemma moInput_wellKept (h : s.srcRoutingTable.WellKept) {src : IpAddr} {buffer : ℕ → UInt8}
    (hmo : s.moInput src buffer = .ok s') : s'.srcRoutingTable.WellKept := by
  unfold moInput at hmo
  obtain ⟨own, -, hmo⟩ := bind_eq_ok.mp hmo
  simp only at hmo
  split_ifs at hmo
  · cases hmo; exact h
  · split at hmo
    · cases hmo; exact h
    · split_ifs at hmo
      · cases hmo
        exact rplP2pAddSrcRoute_wellKept h _ _ _ _ _
      · cases hmo; exact h

lemma rplPurgeRoutes_wellKept (h : s.srcRoutingTable.WellKept) :
    s.rplPurgeRoutes.srcRoutingTable.WellKept := by
  have hfold : ∀ (l : List (Fin cfg.srcRouteNb))
      (t : SrcRoutingTable cfg.DagRef cfg.srcRouteNb cfg.srcRouteAddrNb),
      t.WellKept → (l.foldl purgeSrcRoute t).WellKept := by
    intro l
    induction l with
    | nil => exact fun t ht => ht
    | cons i rest ih =>
        intro t ht
        apply ih
        unfold purgeSrcRoute
        simp only
        split_ifs
        · exact ht.rm i
        · exact ht.set_state i _
        · exact ht
  exact hfold _ _ h

/-! ## Runs -/

/-- A step of the node, as far as its source routes are concerned. -/
inductive SrcRouteStep (s s' : Node cfg) : Prop
  | droInput {dst : IpAddr} {dro : Dro} {packets : List Packet}
      (h : s.droInput dst dro = .ok (packets, s'))
  | moInput {src : IpAddr} {buffer : ℕ → UInt8} (h : s.moInput src buffer = .ok s')
  | sendDros {e : cfg.P2pRef} {packets : List Packet} (h : s.sendDros e = .ok (packets, s'))
  | remove (i : Fin cfg.srcRouteNb)
      (h : s' = { s with srcRoutingTable := s.srcRoutingTable.uipDs6SrcRouteRm i })
  | purgeRoutes (h : s' = s.rplPurgeRoutes)
  /-- anything else that the node does, which may also overwrite hops in place -/
  | elsewhere (hroutes : s'.srcRoutingTable.routes = s.srcRoutingTable.routes)
      (hcount : s'.srcRoutingTable.addrMemb.count = s.srcRoutingTable.addrMemb.count)

/-- The states of runs of such steps from start-up. -/
def SrcRouteRun (s : Node cfg) : Prop :=
  ∃ s₀ : Node cfg, s₀.Initial ∧ Relation.ReflTransGen SrcRouteStep s₀ s

lemma SrcRouteStep.wellKept (h : SrcRouteStep s s') (hs : s.srcRoutingTable.WellKept) :
    s'.srcRoutingTable.WellKept := by
  cases h with
  | droInput h => exact droInput_wellKept hs h
  | moInput h => exact moInput_wellKept hs h
  | sendDros h => exact sendDros_wellKept hs h
  | remove i h => rw [h]; exact hs.rm i
  | purgeRoutes h => rw [h]; exact rplPurgeRoutes_wellKept hs
  | elsewhere hroutes hcount =>
      exact hs.congr hcount (fun i => by rw [hroutes]) fun i => by rw [hroutes]

lemma SrcRouteRun.wellKept (h : SrcRouteRun s) : s.srcRoutingTable.WellKept := by
  obtain ⟨s₀, h₀, hrun⟩ := h
  induction hrun with
  | refl =>
      refine .fresh (fun i => ?_) fun b => ?_
      · rw [h₀.srcRoutes]
        exact ⟨rfl, rfl⟩
      · rw [h₀.srcRoutePool]
        rfl
  | tail _ hstep ih => exact hstep.wellKept ih

/-- **The pool of hops is shared out among the source routes in use.**  In every run, a block is
allocated, once, exactly when it is on the hop list of an entry in use; the lists are disjoint and
have no duplicates, entries that are not in use own no block, and no two entries in use have the
same destination. -/
theorem srcRoutes_partition_pool (h : SrcRouteRun s) :
    (∀ b, s.srcRoutingTable.addrMemb.count b = 1 ↔
      ∃ i, (s.srcRoutingTable.routes i).isused = true ∧ b ∈ (s.srcRoutingTable.routes i).addrList) ∧
    (∀ b, s.srcRoutingTable.addrMemb.count b ≤ 1) ∧
    (∀ i, (s.srcRoutingTable.routes i).addrList.Nodup) ∧
    (∀ i j b, b ∈ (s.srcRoutingTable.routes i).addrList →
      b ∈ (s.srcRoutingTable.routes j).addrList → i = j) ∧
    (∀ i, (s.srcRoutingTable.routes i).isused = false →
      (s.srcRoutingTable.routes i).addrList = []) ∧
    ∀ i j, (s.srcRoutingTable.routes i).isused = true →
      (s.srcRoutingTable.routes j).isused = true →
      (s.srcRoutingTable.routes i).ipaddr = (s.srcRoutingTable.routes j).ipaddr → i = j := by
  have hkept := h.wellKept
  refine ⟨fun b => ?_, hkept.owned.count_le, hkept.owned.parts.nodup, hkept.owned.parts.unique,
    hkept.unused, hkept.unique⟩
  have hlive := hkept.owned.parts.live_iff b
  have hle := hkept.owned.count_le b
  constructor
  · intro hone
    obtain ⟨i, hi⟩ := hlive.mp (by omega)
    refine ⟨i, ?_, hi⟩
    by_contra hunused
    rw [hkept.unused i (by simpa using hunused)] at hi
    cases hi
  · rintro ⟨i, -, hi⟩
    have hne := hlive.mpr ⟨i, hi⟩
    omega

/-- A request from the node 1 that came through the node 2 and has reached the node 3. -/
def measurementRequest : ℕ → UInt8 := fun i => [0x80, 0x0a, 0, 0x12, 1, 3, 2].getD i 0

theorem srcRoutes_partition_pool_measured : ∃ s : Node .default, SrcRouteRun s ∧
    (List.finRange Config.default.srcRouteNb).map s.srcRoutingTable.hops =
      [[], [], [nodeLinkLocal 2, nodeLinkLocal 1]] ∧
    ∀ b, s.srcRoutingTable.addrMemb.count b = 1 ↔
      ∃ i, (s.srcRoutingTable.routes i).isused = true ∧
        b ∈ (s.srcRoutingTable.routes i).addrList := by
  obtain ⟨s, hmo, hhops⟩ := exists_ok_of_map
    (x := (boot 3).moInput (nodeLinkLocal 2) measurementRequest)
    (f := fun s => (List.finRange Config.default.srcRouteNb).map s.srcRoutingTable.hops)
    (b := [[], [], [nodeLinkLocal 2, nodeLinkLocal 1]]) (by decide +kernel)
  have hrun : SrcRouteRun s := ⟨boot 3, boot_initial 3, .single (.moInput hmo)⟩
  exact ⟨s, hrun, hhops, (srcRoutes_partition_pool hrun).1⟩

end Node
end Contiki

import Contiki.Rpl.Slots

/-!
# Events that leave the DAGs in peace

Sending messages, receiving discovery replies and most of what happens in the rest of the stack
touches neither the slots, nor the parents, nor the partial routes.  `Quiet s s'` says so, and
`quiet_step` proves it for every event that is `Event.quiet`; statements about runs have to look
only at the other events.
-/

namespace Contiki

variable {cfg : Config}

/-- A DAG without what sending, the default route and the announced prefix change. -/
def Dag.core (dag : Dag cfg) : Dag cfg :=
  { dag with
    mc := .zero
    defRoute := none
    dtsnOut := 0
    dioIntcurrent := 0
    dioSend := false
    dioCounter := 0
    dioNextDelay := 0
    dioTimer := none
    prefixInfo := .zero }

/-- A P2P extension without what sending replies changes. -/
def DagP2p.core (p2p : DagP2p cfg) : DagP2p cfg :=
  { p2p with lifetime := 0, droSeq := 0, droTimer := ⟨false, none⟩ }

namespace Node

/-- The tables that `Quiet` speaks about. -/
def tables (s : Node cfg) := (s.dagTable, s.dagP2pTable, s.parentMemb, s.srcRouteAddrMemb,
  s.instanceCounter)

/-- DAGs, extensions and the pools they use are kept, up to their cores. -/
structure Quiet (s s' : Node cfg) : Prop where
  dag : ∀ d, (s'.dagTable d).core = (s.dagTable d).core
  ext : ∀ e, (s'.dagP2pTable e).core = (s.dagP2pTable e).core
  parentMemb : s'.parentMemb = s.parentMemb
  srcRouteAddrMemb : s'.srcRouteAddrMemb = s.srcRouteAddrMemb
  instanceCounter : s'.instanceCounter = s.instanceCounter

namespace Quiet
variable {s s' s'' : Node cfg}

lemma refl (s : Node cfg) : Quiet s s := ⟨fun _ => rfl, fun _ => rfl, rfl, rfl, rfl⟩

lemma trans (h : Quiet s s') (h' : Quiet s' s'') : Quiet s s'' where
  dag d := (h'.dag d).trans (h.dag d)
  ext e := (h'.ext e).trans (h.ext e)
  parentMemb := h'.parentMemb.trans h.parentMemb
  srcRouteAddrMemb := h'.srcRouteAddrMemb.trans h.srcRouteAddrMemb
  instanceCounter := h'.instanceCounter.trans h.instanceCounter

lemma slots (h : Quiet s s') : s'.slots = s.slots := by
  refine Slots.ext (funext fun d => ?_) (funext fun e => ?_)
  · have hdag := congrArg Dag.slot (h.dag d)
    exact hdag
  · have hext := congrArg DagP2p.dag (h.ext e)
    exact hext

lemma parents (h : Quiet s s') (d : cfg.DagRef) :
    (s'.dagTable d).parents = (s.dagTable d).parents :=
  have hdag := congrArg Dag.parents (h.dag d)
  hdag

lemma preferredParent (h : Quiet s s') (d : cfg.DagRef) :
    (s'.dagTable d).preferredParent = (s.dagTable d).preferredParent :=
  have hdag := congrArg Dag.preferredParent (h.dag d)
  hdag

lemma modifyDag (s : Node cfg) (d : cfg.DagRef) {f : Dag cfg → Dag cfg}
    (hf : ∀ dag, (f dag).core = dag.core) : Quiet s (s.modifyDag d f) where
  dag d' := by
    by_cases hd : d' = d
    · subst hd; simp [hf]
    · simp [hd]
  ext _ := rfl
  parentMemb := rfl
  srcRouteAddrMemb := rfl
  instanceCounter := rfl

lemma modifyP2p (s : Node cfg) (e : cfg.P2pRef) {f : DagP2p cfg → DagP2p cfg}
    (hf : ∀ p2p, (f p2p).core = p2p.core) : Quiet s (s.modifyP2p e f) where
  dag _ := rfl
  ext e' := by
    by_cases he : e' = e
    · subst he; simp [hf]
    · simp [he]
  parentMemb := rfl
  srcRouteAddrMemb := rfl
  instanceCounter := rfl

/-- A change of any table that `Quiet` does not speak about. -/
lemma of_tables (h : s'.tables = s.tables) : Quiet s s' := by
  simp only [tables, Prod.mk.injEq] at h
  obtain ⟨hdag, hext, hparent, hsrc, hcounter⟩ := h
  exact ⟨fun d => by rw [hdag], fun e => by rw [hext], hparent, hsrc, hcounter⟩

end Quiet

/-! ## Timers and metrics -/

lemma newDioInterval_quiet (s : Node cfg) (d : cfg.DagRef) : Quiet s (s.newDioInterval d) := by
  unfold newDioInterval
  exact (Quiet.of_tables rfl : Quiet s s.randomRand.2).trans (.modifyDag _ d (by intro; rfl))

lemma rplResetDioTimer_quiet (s : Node cfg) (d : cfg.DagRef) (force : Bool) :
    Quiet s (s.rplResetDioTimer d force) := by
  unfold rplResetDioTimer
  simp only
  split_ifs
  · exact (Quiet.modifyDag s d (by intro; rfl)).trans (newDioInterval_quiet _ d)
  · exact .refl s

lemma updateMetricContainer_quiet (s : Node cfg) (of : ObjectiveFunction) (d : cfg.DagRef) :
    Quiet s (s.updateMetricContainer of d) :=
  .modifyDag s d (by intro; rfl)

lemma stopDioTimer_quiet (s : Node cfg) (d : cfg.DagRef) : Quiet s (s.stopDioTimer d) :=
  .modifyDag s d (by intro; rfl)

lemma resetGlobalTimer_quiet (s : Node cfg) (d : cfg.DagRef) : Quiet s (s.resetGlobalTimer d) := by
  unfold resetGlobalTimer
  split_ifs
  · exact rplResetDioTimer_quiet s d true
  · exact .refl s

lemma countDio_quiet (s : Node cfg) (d : cfg.DagRef) : Quiet s (s.countDio d) :=
  .modifyDag s d (by intro; rfl)

/-! ## Routes -/

lemma rplRemoveRoutes_quiet (s : Node cfg) (d : cfg.DagRef) : Quiet s (s.rplRemoveRoutes d) :=
  .of_tables rfl

lemma rmDefRoute_quiet (s : Node cfg) (d : cfg.DagRef) : Quiet s (s.rmDefRoute d) := by
  unfold rmDefRoute
  split <;> exact .of_tables rfl

lemma rplSetDefaultRoute_quiet (s : Node cfg) (d : cfg.DagRef) (from_ : Option IpAddr) :
    Quiet s (s.rplSetDefaultRoute d from_) := by
  unfold rplSetDefaultRoute
  simp only
  split_ifs
  · exact .refl s
  · cases from_ with
    | none => exact rmDefRoute_quiet s d
    | some addr => exact ((rmDefRoute_quiet s d).trans (.of_tables (by rfl))).trans (.modifyDag _ d (by intro; rfl))

lemma rmParentRoutes_quiet (s : Node cfg) (d : cfg.DagRef) (addr : IpAddr) :
    Quiet s (s.rmParentRoutes d addr) := by
  unfold rmParentRoutes
  split_ifs
  · simp only
    split
    · exact .of_tables rfl
    · exact Quiet.trans (.of_tables (by rfl)) (.modifyDag _ d (by intro; rfl))
  · exact .refl s

lemma forgetDefRoute_quiet (s : Node cfg) (d : cfg.DagRef) (ipaddr : IpAddr) :
    Quiet s (s.forgetDefRoute d ipaddr) := by
  unfold forgetDefRoute
  split
  · exact .refl s
  · split_ifs
    · exact .modifyDag s d (by intro; rfl)
    · exact .refl s

/-! ## DIOs that are sent -/

lemma chooseRoute_quiet (s : Node cfg) (e : cfg.P2pRef) : Quiet s (s.chooseRoute e).2 := by
  unfold chooseRoute
  simp only
  split_ifs
  · exact .of_tables rfl
  · exact .refl s

lemma dioRdo_quiet (s : Node cfg) (d : cfg.DagRef) (e : cfg.P2pRef) :
    Ensures (s.dioRdo d e) fun r => Quiet s r.2 := by
  have hchoose := chooseRoute_quiet s e
  unfold dioRdo
  simp only
  split_ifs
  · exact .bind (fun _ _ => trivial) fun _ _ => .ok hchoose
  · exact .error _

lemma dioTail_quiet (s : Node cfg) (d : cfg.DagRef) (of : ObjectiveFunction) :
    Ensures (s.dioTail d of) fun r => Quiet s r.2 := by
  unfold dioTail
  simp only
  split_ifs
  · refine .bind (fun _ _ => trivial) fun e _ => ?_
    exact .bind (dioRdo_quiet s d e) fun r hr => .ok hr
  · exact .ok (.refl s)

lemma countDtsn_quiet (s : Node cfg) (d : cfg.DagRef) : Quiet s (s.countDtsn d) := by
  unfold countDtsn
  split_ifs
  · exact .modifyDag s d (by intro; rfl)
  · exact .refl s

lemma refreshMetric_quiet (s : Node cfg) (of : ObjectiveFunction) (d : cfg.DagRef) :
    Quiet s (s.refreshMetric of d) := by
  unfold refreshMetric
  split_ifs
  · exact .refl s
  · exact updateMetricContainer_quiet s of d

lemma dioOutput_quiet (s : Node cfg) (d : cfg.DagRef) (ucAddr : Option IpAddr) :
    Ensures (s.dioOutput d ucAddr) fun r => Quiet s r.2 := by
  unfold dioOutput
  refine .bind (fun _ _ => trivial) fun suppressed _ => ?_
  split_ifs
  · exact .ok (.refl s)
  · refine .bind (fun _ _ => trivial) fun of _ => ?_
    have hs := (countDtsn_quiet s d).trans (refreshMetric_quiet _ of d)
    refine .bind (fun _ _ => trivial) fun constr _ => ?_
    split
    · exact .ok hs
    · exact .bind (dioTail_quiet _ d of) fun r hr => .ok (hs.trans hr)

lemma sendDio_quiet (s : Node cfg) (d : cfg.DagRef) :
    Ensures (s.sendDio d) fun r => Quiet s r.2 := by
  unfold sendDio
  split_ifs
  · exact dioOutput_quiet s d none
  · exact .ok (.refl s)

lemma handleDioTimer_quiet (s : Node cfg) (d : cfg.DagRef) :
    Ensures (s.handleDioTimer d) fun r => Quiet s r.2 := by
  have hok : Quiet s { s with dioSendOk := true } := .of_tables rfl
  unfold handleDioTimer
  split_ifs
  · exact .ok (.refl s)
  · refine .ok ?_
    dsimp only
    exact .modifyDag s d (by intro; rfl)
  · refine .bind (sendDio_quiet _ d) fun r hr => .ok ((hok.trans hr).trans ?_)
    dsimp only
    exact .modifyDag _ d (by intro; rfl)
  · unfold doubleInterval
    exact .ok (hok.trans ((Quiet.modifyDag _ d (by intro; rfl)).trans (newDioInterval_quiet _ d)))

lemma disInput_quiet (s : Node cfg) (src dst : IpAddr) :
    Ensures (s.disInput src dst) fun r => Quiet s r.2 := by
  unfold disInput
  split
  · exact .ok (.refl s)
  · split_ifs
    · exact .ok (rplResetDioTimer_quiet s _ false)
    · exact dioOutput_quiet s _ _

/-! ## Replies -/

lemma cacheDro_quiet (s : Node cfg) (message : List UInt8) : Quiet s (s.cacheDro message) := by
  unfold cacheDro
  split_ifs
  · split
    · exact .refl s
    · exact .of_tables rfl
  · exact .refl s

lemma droOutput_quiet (s : Node cfg) (d : cfg.DagRef) (addrs : List UInt8) :
    Ensures (s.droOutput d addrs) fun r => Quiet s r.2 := by
  unfold droOutput
  split
  · exact .ok (.refl s)
  · rename_i e _
    refine .bind (fun _ _ => trivial) fun rdo _ => .ok ?_
    exact (Quiet.modifyP2p s e (by intro; rfl)).trans (cacheDro_quiet _ _)

lemma addBackwardRoute_quiet (s : Node cfg) (d : cfg.DagRef) (addrs : List UInt8) :
    Quiet s (s.addBackwardRoute d addrs) := by
  unfold addBackwardRoute
  simp only
  split <;> exact .of_tables rfl

lemma backwardRoute_quiet (s : Node cfg) (d : cfg.DagRef) (e : cfg.P2pRef) (j : ℕ)
    (addrs : List UInt8) : Quiet s (s.backwardRoute d e j addrs) := by
  unfold backwardRoute
  split_ifs
  · exact addBackwardRoute_quiet s d addrs
  · exact .refl s

lemma sendDrosFrom_quiet (s : Node cfg) (d : cfg.DagRef) (l : List (Fin rplP2pMaxPartialRoutes))
    (j : ℕ) : Ensures (sendDrosFrom d l j s) fun r => Quiet s r.2 := by
  induction l generalizing j s with
  | nil => exact .ok (.refl s)
  | cons i rest ih =>
      unfold sendDrosFrom
      refine .bind (fun _ _ => trivial) fun e _ => ?_
      simp only
      split_ifs
      · exact ih s j
      · refine .bind (droOutput_quiet _ d _) fun r hr => ?_
        refine .bind (ih r.2 (j + 1)) fun r' hr' => .ok ?_
        exact ((backwardRoute_quiet s d e j _).trans hr).trans hr'
      · exact .ok (.refl s)

lemma sendDros_quiet (s : Node cfg) (e : cfg.P2pRef) :
    Ensures (s.sendDros e) fun r => Quiet s r.2 := by
  unfold sendDros
  simp only
  split
  · exact .ok (.refl s)
  · exact .mono (sendDrosFrom_quiet _ _ _ 0) fun r hr => (Quiet.modifyP2p s e (by intro; rfl)).trans hr

lemma droRexmit_quiet (s : Node cfg) (c : Fin rplMaxDroCacheEntries) :
    Quiet s (s.droRexmit c).2 := by
  unfold droRexmit
  simp only
  split_ifs <;> exact .of_tables rfl

lemma droAckInput_quiet (s : Node cfg) (buffer : ℕ → UInt8) : Quiet s (s.droAckInput buffer) := by
  unfold droAckInput
  simp only
  split
  · exact .refl s
  · exact .of_tables rfl

lemma droStop_quiet (s : Node cfg) (dro : Dro) : Ensures (s.droStop dro) (Quiet s) := by
  unfold droStop
  split_ifs
  · split
    · exact .ok (.refl s)
    · rename_i d _
      refine .bind (fun _ _ => trivial) fun e _ => ?_
      split_ifs
      · exact .ok (.refl s)
      · exact .ok ((Quiet.modifyDag s d (by intro; rfl)).trans (.modifyP2p _ e (by intro; rfl)))
  · exact .ok (.refl s)

lemma addNewRoute_quiet (s : Node cfg) (prefixAddr : IpAddr) (prefixLen : UInt8)
    (nextHop : IpAddr) : Quiet s (s.addNewRoute prefixAddr prefixLen nextHop).2 := by
  unfold addNewRoute
  split <;> exact .of_tables rfl

lemma rplAddRoute_quiet (s : Node cfg) (dag : Option cfg.DagRef) (prefixAddr : IpAddr)
    (prefixLen : UInt8) (nextHop : IpAddr) :
    Quiet s (s.rplAddRoute dag prefixAddr prefixLen nextHop).2 := by
  have hnew := addNewRoute_quiet s prefixAddr prefixLen nextHop
  unfold rplAddRoute
  split
  · exact .of_tables rfl
  · generalize s.addNewRoute prefixAddr prefixLen nextHop = added at hnew
    obtain ⟨rep, s'⟩ := added
    cases rep with
    | none => exact hnew
    | some rep => exact hnew.trans (.of_tables (by rfl))

lemma rplP2pAddHbhRoute_quiet (s : Node cfg) (instanceId : UInt8) (dodagid target nexthop : IpAddr) :
    Quiet s (s.rplP2pAddHbhRoute instanceId dodagid target nexthop).2 := by
  have hadd := rplAddRoute_quiet s (s.rplGetDag instanceId (some dodagid)) target 128 nexthop
  unfold rplP2pAddHbhRoute
  split <;> rename_i heq <;> rw [heq] at hadd
  · exact hadd
  · exact hadd.trans (.of_tables (by rfl))

lemma rplP2pAddSrcRoute_quiet (s : Node cfg) (dest : IpAddr) (addrStart : ℕ → UInt8)
    (addrLen compr : UInt8) (reverse : Bool) :
    Quiet s (s.rplP2pAddSrcRoute dest addrStart addrLen compr reverse).2 := by
  unfold rplP2pAddSrcRoute
  split
  · exact .of_tables rfl
  · simp only
    split
    · exact .of_tables rfl
    · split <;> exact .of_tables rfl

lemma droStoreRoute_quiet (s : Node cfg) (dro : Dro) : Quiet s (s.droStoreRoute dro) := by
  unfold droStoreRoute
  split
  · exact rplP2pAddHbhRoute_quiet s _ _ _ _
  · exact rplP2pAddSrcRoute_quiet s _ _ _ _ _

lemma droStoreHop_quiet {s s' : Node cfg} {dro : Dro} (h : s.droStoreHop dro = some s') :
    Quiet s s' := by
  unfold droStoreHop at h
  split_ifs at h
  · split at h
    · split_ifs at h
      cases h
      exact .refl s
    · cases h
      exact rplP2pAddHbhRoute_quiet s _ _ _ _
  · cases h
    exact .refl s

lemma droAtIntermediate_quiet (s : Node cfg) (dst : IpAddr) (dro : Dro) :
    Quiet s (s.droAtIntermediate dst dro).2 := by
  unfold droAtIntermediate
  split_ifs
  · exact .refl s
  · split
    · exact .refl s
    · rename_i hstore
      exact droStoreHop_quiet hstore

lemma droInput_quiet (s : Node cfg) (dst : IpAddr) (dro : Dro) :
    Ensures (s.droInput dst dro) fun r => Quiet s r.2 := by
  unfold droInput
  refine .bind (droStop_quiet s dro) fun s' hs' => ?_
  split_ifs
  · unfold droAtOrigin
    exact .bind (fun _ _ => trivial) fun _ _ => .ok (hs'.trans (droStoreRoute_quiet s' dro))
  · exact .ok (hs'.trans (droAtIntermediate_quiet s' dst dro))

/-! ## All quiet events -/

end Node

/-- The events that neither allocate nor free, and do not look at parents. -/
def Event.quiet : Event cfg → Bool
  | .processDio .. | .setRoot .. | .discoverRoute .. | .purgeDags | .repairDag .. | .localRepair ..
  | .recalculateRanks | .linkNeighbor .. | .ipv6Neighbor .. => false
  | _ => true

namespace Node

lemma quiet_step {s s' : Node cfg} {e : Event cfg} (he : e.quiet = true)
    (h : s.next e = .ok s') : Quiet s s' := by
  obtain ⟨packets, h⟩ := next_eq_ok.mp h
  cases e with
  | processDio | setRoot | discoverRoute | purgeDags | repairDag | localRepair
  | recalculateRanks | linkNeighbor | ipv6Neighbor => cases he
  | droInput dst dro => exact droInput_quiet s dst dro _ h
  | droAckInput buffer => cases h; exact droAckInput_quiet s buffer
  | disInput src dst =>
      obtain ⟨r, hr, hs⟩ := map_eq_ok.mp h
      cases hs
      exact disInput_quiet s src dst r hr
  | setPrefix d prefixAddr len =>
      cases h
      unfold rplSetPrefix
      split_ifs
      all_goals first
        | exact .modifyDag s d (by intro; rfl)
        | exact .refl s
  | purgeRoutes => cases h; exact .of_tables rfl
  | dioTimer d =>
      obtain ⟨r, hr, hs⟩ := map_eq_ok.mp h
      cases hs
      exact handleDioTimer_quiet s d r hr
  | droTimer e => exact sendDros_quiet s e _ h
  | droRexmit c =>
      have := droRexmit_quiet s c
      cases hc : s.droRexmit c
      simp only [step, hc, Except.ok.injEq, Prod.mk.injEq] at h
      rw [hc] at this
      exact h.2 ▸ this
  | nbrMetric | addr | defrtAdd | defrtRm | randomInit => cases h; exact .of_tables rfl
  | routeAdd ipaddr length nexthop metric =>
      cases h
      split_ifs
      · exact .of_tables rfl
      · exact .refl s

end Node
end Contiki

import Contiki.Rpl.Stages
import Contiki.Rpl.System

/-!
# What the functions on one DAG leave alone

Most functions of `rpl-dag.c` work on one DAG and on the tables of parents, routes and default
routers.  `Frame d s s'` is what they keep: every other DAG, the *slot* of the DAG itself (its
allocation state, identity, mode of operation, objective function, configuration and P2P
extension), and everything that belongs to the P2P extension or the interface.

Every function has its frame lemma here; with `Frame.trans` the lemma of a caller is put
together from those of the functions it calls.
-/

namespace Contiki

/-- The part of a DAG that is decided when its slot is allocated and joined. -/
structure DagSlot (cfg : Config) where
  used : Bool
  joined : Bool
  instanceId : UInt8
  dagId : IpAddr
  mop : UInt8
  of : Option ObjectiveFunction
  config : DodagConfig
  p2p : Option cfg.P2pRef

variable {cfg : Config}

/-- The slot of a DAG. -/
@[simps]
def Dag.slot (dag : Dag cfg) : DagSlot cfg where
  used := dag.used
  joined := dag.joined
  instanceId := dag.instanceId
  dagId := dag.dagId
  mop := dag.mop
  of := dag.of
  config := dag.config
  p2p := dag.p2p

namespace Node

/-- What a function on the DAG `d` keeps. -/
structure Frame (d : cfg.DagRef) (s s' : Node cfg) : Prop where
  other : ∀ d', d' ≠ d → s'.dagTable d' = s.dagTable d'
  slot : (s'.dagTable d).slot = (s.dagTable d).slot
  dagP2pTable : s'.dagP2pTable = s.dagP2pTable
  srcRouteAddrMemb : s'.srcRouteAddrMemb = s.srcRouteAddrMemb
  instanceCounter : s'.instanceCounter = s.instanceCounter
  srcRoutingTable : s'.srcRoutingTable = s.srcRoutingTable
  addrList : s'.addrList = s.addrList
  nbrMetric : s'.nbrMetric = s.nbrMetric

namespace Frame
variable {d : cfg.DagRef} {s s' s'' : Node cfg}

lemma refl (d : cfg.DagRef) (s : Node cfg) : Frame d s s :=
  ⟨fun _ _ => rfl, rfl, rfl, rfl, rfl, rfl, rfl, rfl⟩

lemma trans (h : Frame d s s') (h' : Frame d s' s'') : Frame d s s'' where
  other d' hd := (h'.other d' hd).trans (h.other d' hd)
  slot := h'.slot.trans h.slot
  dagP2pTable := h'.dagP2pTable.trans h.dagP2pTable
  srcRouteAddrMemb := h'.srcRouteAddrMemb.trans h.srcRouteAddrMemb
  instanceCounter := h'.instanceCounter.trans h.instanceCounter
  srcRoutingTable := h'.srcRoutingTable.trans h.srcRoutingTable
  addrList := h'.addrList.trans h.addrList
  nbrMetric := h'.nbrMetric.trans h.nbrMetric

/-- Every slot is kept, also that of the DAG itself. -/
lemma slot_eq (h : Frame d s s') (d' : cfg.DagRef) :
    (s'.dagTable d').slot = (s.dagTable d').slot := by
  by_cases hd : d' = d
  · exact hd ▸ h.slot
  · rw [h.other d' hd]

/-- A change of the DAG outside its slot. -/
lemma modifyDag (s : Node cfg) (d : cfg.DagRef) {f : Dag cfg → Dag cfg}
    (hf : ∀ dag, (f dag).slot = dag.slot) : Frame d s (s.modifyDag d f) where
  other d' hd := by simp [hd]
  slot := by simp [hf]
  dagP2pTable := rfl
  srcRouteAddrMemb := rfl
  instanceCounter := rfl
  srcRoutingTable := rfl
  addrList := rfl
  nbrMetric := rfl

lemma routes (d : cfg.DagRef) (s : Node cfg) (routingTable : Fin cfg.routeNb → Ds6Route cfg.DagRef)
    (defrtList : Fin cfg.defrtNb → Ds6Defrt) :
    Frame d s { s with routingTable, defrtList } :=
  ⟨fun _ _ => rfl, rfl, rfl, rfl, rfl, rfl, rfl, rfl⟩

lemma parentMemb (d : cfg.DagRef) (s : Node cfg) (parentMemb : Memb (Parent cfg) cfg.maxParents) :
    Frame d s { s with parentMemb } :=
  ⟨fun _ _ => rfl, rfl, rfl, rfl, rfl, rfl, rfl, rfl⟩

lemma modifyParent (d : cfg.DagRef) (s : Node cfg) (p : cfg.ParentRef)
    (f : Parent cfg → Parent cfg) : Frame d s (s.modifyParent p f) :=
  Frame.parentMemb d s _

end Frame

/-! ## Timers and metrics -/

lemma randomRand_frame (d : cfg.DagRef) (s : Node cfg) : Frame d s s.randomRand.2 :=
  ⟨fun _ _ => rfl, rfl, rfl, rfl, rfl, rfl, rfl, rfl⟩

lemma stopDioTimer_frame (s : Node cfg) (d : cfg.DagRef) : Frame d s (s.stopDioTimer d) :=
  .modifyDag s d (by intro; rfl)

lemma newDioInterval_frame (s : Node cfg) (d : cfg.DagRef) : Frame d s (s.newDioInterval d) := by
  unfold newDioInterval
  exact (randomRand_frame d s).trans (.modifyDag _ d (by intro; rfl))

lemma rplResetDioTimer_frame (s : Node cfg) (d : cfg.DagRef) (force : Bool) :
    Frame d s (s.rplResetDioTimer d force) := by
  unfold rplResetDioTimer
  simp only
  split_ifs
  · exact (Frame.modifyDag s d (by intro; rfl)).trans (newDioInterval_frame _ d)
  · exact .refl d s

lemma resetGlobalTimer_frame (s : Node cfg) (d : cfg.DagRef) : Frame d s (s.resetGlobalTimer d) := by
  unfold resetGlobalTimer
  split_ifs
  · exact rplResetDioTimer_frame s d true
  · exact .refl d s

lemma updateMetricContainer_frame (s : Node cfg) (of : ObjectiveFunction) (d : cfg.DagRef) :
    Frame d s (s.updateMetricContainer of d) :=
  .modifyDag s d (by intro; rfl)

/-! ## Routes and parents -/

lemma rmDefRoute_frame (s : Node cfg) (d : cfg.DagRef) : Frame d s (s.rmDefRoute d) := by
  unfold rmDefRoute
  split
  · exact .refl d s
  · exact .routes d s _ _

lemma rplSetDefaultRoute_frame (s : Node cfg) (d : cfg.DagRef) (from_ : Option IpAddr) :
    Frame d s (s.rplSetDefaultRoute d from_) := by
  unfold rplSetDefaultRoute
  simp only
  split_ifs
  · exact .refl d s
  · cases from_ with
    | none => exact rmDefRoute_frame s d
    | some addr =>
        exact ((rmDefRoute_frame s d).trans (.routes d _ _ _)).trans (.modifyDag _ d (by intro; rfl))

lemma rmParentRoutes_frame (s : Node cfg) (d : cfg.DagRef) (addr : IpAddr) :
    Frame d s (s.rmParentRoutes d addr) := by
  unfold rmParentRoutes
  split_ifs
  · simp only
    split
    · exact .routes d s _ _
    · exact (Frame.routes d s _ _).trans ((Frame.routes d _ _ _).trans (.modifyDag _ d (by intro; rfl)))
  · exact .refl d s

lemma rplRemoveParent_frame (s : Node cfg) (d : cfg.DagRef) (p : cfg.ParentRef) :
    Frame d s (s.rplRemoveParent d p) :=
  (rmParentRoutes_frame s d _).trans ((Frame.modifyDag _ d (by intro; rfl)).trans (.parentMemb d _ _))

lemma removeParentsFrom_frame (s : Node cfg) (d : cfg.DagRef) (minimumRank : UInt16)
    (l : List cfg.ParentRef) : Frame d s (removeParentsFrom d minimumRank l s) := by
  induction l generalizing s with
  | nil => exact .refl d s
  | cons p rest ih =>
      refine Frame.trans ?_ (ih _)
      split_ifs
      · exact rplRemoveParent_frame s d p
      · exact .refl d s

lemma rplRemoveParents_frame (s : Node cfg) (d : cfg.DagRef) (minimumRank : UInt16) :
    Frame d s (s.rplRemoveParents d minimumRank) :=
  removeParentsFrom_frame s d minimumRank _

lemma removeWorstParent_frame (s : Node cfg) (d : cfg.DagRef) (minWorstRank : UInt16) :
    Frame d s (s.removeWorstParent d minWorstRank) := by
  unfold removeWorstParent
  split
  · split_ifs
    · exact rplRemoveParent_frame s d _
    · exact .refl d s
  · exact .refl d s

lemma initParent_frame (s : Node cfg) (d : cfg.DagRef) (dio : Dio) (addr : IpAddr)
    (p : cfg.ParentRef) : Frame d s (s.initParent d dio addr p) := by
  unfold initParent
  exact (Frame.modifyParent d s p _).trans (.modifyDag _ d (by intro; rfl))

lemma rplAddParent_frame (s : Node cfg) (d : cfg.DagRef) (dio : Dio) (addr : IpAddr) :
    Frame d s (s.rplAddParent d dio addr).2 := by
  unfold rplAddParent
  split
  · exact (Frame.parentMemb d s _).trans (initParent_frame _ d dio addr _)
  · refine (removeWorstParent_frame s d dio.rank).trans ?_
    simp only
    split
    · exact (Frame.parentMemb d _ _).trans (initParent_frame _ d dio addr _)
    · exact .refl d _

/-! ## Parent selection and repairs -/

lemma switchParent_frame (s : Node cfg) (of : ObjectiveFunction) (d : cfg.DagRef)
    (best : cfg.ParentRef) : Frame d s (s.switchParent of d best) :=
  (Frame.modifyDag s d (by intro; rfl)).trans
    ((updateMetricContainer_frame _ of d).trans
      ((rplSetDefaultRoute_frame _ d _).trans (resetGlobalTimer_frame _ d)))

lemma cacheBest_frame (s : Node cfg) (of : ObjectiveFunction) (d : cfg.DagRef)
    (best : cfg.ParentRef) : Frame d s (s.cacheBest of d best) := by
  unfold cacheBest
  split_ifs
  · exact .refl d s
  · exact switchParent_frame s of d best

lemma updateRank_frame (s : Node cfg) (d : cfg.DagRef) (best : cfg.ParentRef) (rank : UInt16) :
    Frame d s (s.updateRank d best rank).2 := by
  unfold updateRank
  simp only
  split_ifs <;> dsimp only
  · exact .modifyDag s d (by intro; rfl)
  · exact .modifyDag s d (by intro; rfl)
  · exact (Frame.modifyDag s d (by intro; rfl)).trans (rplRemoveParents_frame _ d 0)

lemma rplSelectParent_frame (s : Node cfg) (d : cfg.DagRef) :
    Ensures (s.rplSelectParent d) fun r => Frame d s r.2 := by
  unfold rplSelectParent
  refine .bind (fun _ _ => trivial) fun of _ => ?_
  split
  · exact .ok (.refl d s)
  · exact .ok ((cacheBest_frame s of d _).trans (updateRank_frame _ d _ _))

lemma rejoinDag_frame (s : Node cfg) (of : ObjectiveFunction) (d : cfg.DagRef) (from_ : IpAddr)
    (dio : Dio) : Frame d s (s.rejoinDag of d from_ dio) :=
  (rplSetDefaultRoute_frame s d _).trans
    ((Frame.modifyDag _ d (by intro; rfl)).trans (rplResetDioTimer_frame _ d true))

lemma globalRepair_frame (s : Node cfg) (from_ : IpAddr) (d : cfg.DagRef) (dio : Dio) :
    Ensures (s.globalRepair from_ d dio) (Frame d s) := by
  have hremove := (rplRemoveParents_frame s d 0).trans
    (Frame.modifyDag _ d (f := fun dag => { dag with version := dio.version, dtsnOut := 1 }) (by intro; rfl))
  unfold globalRepair
  refine .bind (fun _ _ => trivial) fun of _ => ?_
  split
  · rename_i s' hadd
    have hs' := hremove.trans (rplAddParent_frame _ d dio from_)
    rw [hadd] at hs'
    exact .ok (hs'.trans (.modifyDag _ d (by intro; rfl)))
  · rename_i p s' hadd
    have hs' := hremove.trans (rplAddParent_frame _ d dio from_)
    rw [hadd] at hs'
    exact .ok (hs'.trans (rejoinDag_frame s' of d from_ dio))

lemma rplRepairDag_frame (s : Node cfg) (d : cfg.DagRef) : Frame d s (s.rplRepairDag d) := by
  unfold rplRepairDag
  split_ifs
  · exact (Frame.modifyDag s d (by intro; rfl)).trans (rplResetDioTimer_frame _ d true)
  · exact .refl d s

lemma rplLocalRepair_frame (s : Node cfg) (d : cfg.DagRef) : Frame d s (s.rplLocalRepair d) :=
  (Frame.modifyDag s d (by intro; rfl)).trans
    ((rplRemoveParents_frame _ d 0).trans (rplResetDioTimer_frame _ d true))

lemma moveInDag_frame (s : Node cfg) (d : cfg.DagRef) (oldRank : UInt16) :
    Frame d s (s.moveInDag d oldRank) := by
  unfold moveInDag
  simp only
  split_ifs
  · exact .refl d s
  · exact (Frame.modifyDag s d (by intro; rfl)).trans (resetGlobalTimer_frame _ d)

lemma rplProcessParentEvent_frame (s : Node cfg) (d : cfg.DagRef) (p : cfg.ParentRef) :
    Ensures (s.rplProcessParentEvent d p) fun r => Frame d s r.2 := by
  unfold rplProcessParentEvent
  refine .bind (rplSelectParent_frame s d) fun r hr => ?_
  split
  · exact .ok (hr.trans (rplLocalRepair_frame _ d))
  · refine .bind (fun _ _ => trivial) fun of _ => ?_
    exact .ok (hr.trans (moveInDag_frame _ d _))

lemma pruneParents_frame (s : Node cfg) (d : cfg.DagRef) (p : cfg.ParentRef) :
    Frame d s (s.pruneParents d p) := by
  unfold pruneParents
  split
  · exact .refl d s
  · exact rplRemoveParent_frame s d _

lemma countDio_frame (s : Node cfg) (d : cfg.DagRef) : Frame d s (s.countDio d) :=
  .modifyDag s d (by intro; rfl)

lemma candidateParent_frame (s : Node cfg) (d : cfg.DagRef) (from_ : IpAddr) (dio : Dio) :
    Frame d s (s.candidateParent d from_ dio).2 := by
  unfold candidateParent
  split
  · refine Frame.trans ?_ (rplAddParent_frame _ d dio from_)
    split_ifs
    · exact removeWorstParent_frame s d dio.rank
    · exact .refl d s
  · simp only
    split_ifs
    · exact countDio_frame s d
    · exact .refl d s

/-! ## The P2P extension -/

/-- A DAG without its timer. -/
def untimed (dag : Dag cfg) : Dag cfg := { dag with dioTimer := none }

/-- What a function on a P2P extension keeps: of the DAGs everything but their timers, of the
extensions to whom they belong and whether they are expired, and all other tables. -/
structure P2pFrame (s s' : Node cfg) : Prop where
  dag : ∀ d, untimed (s'.dagTable d) = untimed (s.dagTable d)
  owner : ∀ e, (s'.dagP2pTable e).dag = (s.dagP2pTable e).dag
  expired : ∀ e, (s'.dagP2pTable e).expired = (s.dagP2pTable e).expired
  parentMemb : s'.parentMemb = s.parentMemb
  routingTable : s'.routingTable = s.routingTable
  defrtList : s'.defrtList = s.defrtList
  addrList : s'.addrList = s.addrList
  nbrMetric : s'.nbrMetric = s.nbrMetric

namespace P2pFrame
variable {s s' s'' : Node cfg}

lemma refl (s : Node cfg) : P2pFrame s s :=
  ⟨fun _ => rfl, fun _ => rfl, fun _ => rfl, rfl, rfl, rfl, rfl, rfl⟩

lemma trans (h : P2pFrame s s') (h' : P2pFrame s' s'') : P2pFrame s s'' where
  dag d := (h'.dag d).trans (h.dag d)
  owner e := (h'.owner e).trans (h.owner e)
  expired e := (h'.expired e).trans (h.expired e)
  parentMemb := h'.parentMemb.trans h.parentMemb
  routingTable := h'.routingTable.trans h.routingTable
  defrtList := h'.defrtList.trans h.defrtList
  addrList := h'.addrList.trans h.addrList
  nbrMetric := h'.nbrMetric.trans h.nbrMetric

lemma slot (h : P2pFrame s s') (d : cfg.DagRef) :
    (s'.dagTable d).slot = (s.dagTable d).slot :=
  have hdag := congrArg Dag.slot (h.dag d)
  hdag

lemma modifyP2p (s : Node cfg) (e : cfg.P2pRef) {f : DagP2p cfg → DagP2p cfg}
    (hf : ∀ p2p, (f p2p).dag = p2p.dag ∧ (f p2p).expired = p2p.expired) :
    P2pFrame s (s.modifyP2p e f) where
  dag _ := rfl
  owner e' := by
    by_cases he : e' = e
    · subst he; simp [hf]
    · simp [he]
  expired e' := by
    by_cases he : e' = e
    · subst he; simp [hf]
    · simp [he]
  parentMemb := rfl
  routingTable := rfl
  defrtList := rfl
  addrList := rfl
  nbrMetric := rfl

lemma stopDioTimer (s : Node cfg) (d : cfg.DagRef) : P2pFrame s (s.stopDioTimer d) where
  dag d' := by
    by_cases hd : d' = d
    · subst hd; simp [Node.stopDioTimer, untimed]
    · simp [Node.stopDioTimer, hd]
  owner _ := rfl
  expired _ := rfl
  parentMemb := rfl
  routingTable := rfl
  defrtList := rfl
  addrList := rfl
  nbrMetric := rfl

lemma srcRouteAddrMemb (s : Node cfg) (srcRouteAddrMemb : Memb UInt8 rplMaxSrcRouteAddrEntries) :
    P2pFrame s { s with srcRouteAddrMemb } :=
  ⟨fun _ => rfl, fun _ => rfl, fun _ => rfl, rfl, rfl, rfl, rfl, rfl⟩

end P2pFrame

lemma freeAddrList_frame (s : Node cfg) (e : cfg.P2pRef) (i : Fin rplP2pMaxPartialRoutes) :
    P2pFrame s (s.freeAddrList e i) := by
  unfold freeAddrList setPartialRoute
  exact (P2pFrame.srcRouteAddrMemb s _).trans (.modifyP2p _ e (by simp))

lemma freePartialRoutes_frame (s : Node cfg) (e : cfg.P2pRef) :
    P2pFrame s (s.freePartialRoutes e) := by
  unfold freePartialRoutes
  induction List.finRange rplP2pMaxPartialRoutes generalizing s with
  | nil => exact .refl s
  | cons i rest ih => exact (freeAddrList_frame s e i).trans (ih _)

lemma addSrcRouteAddr_frame {s s' : Node cfg} {e : cfg.P2pRef} {i : Fin rplP2pMaxPartialRoutes}
    {addr : UInt8} (h : s.addSrcRouteAddr e i addr = some s') : P2pFrame s s' := by
  unfold addSrcRouteAddr at h
  split at h
  · cases h
  · cases h
    unfold setPartialRoute
    exact (P2pFrame.srcRouteAddrMemb s _).trans (.modifyP2p _ e (by simp))

lemma copyAddrs_frame (s : Node cfg) (e : cfg.P2pRef) (i : Fin rplP2pMaxPartialRoutes)
    (addrs : List UInt8) : P2pFrame s (copyAddrs e i addrs s).2 := by
  induction addrs generalizing s with
  | nil => exact .refl s
  | cons addr rest ih =>
      unfold copyAddrs
      split
      · exact freeAddrList_frame s e i
      · rename_i s' hadd
        exact (addSrcRouteAddr_frame hadd).trans (ih s')

lemma rplP2pAddPartialRoute_frame (s : Node cfg) (d : cfg.DagRef) (e : cfg.P2pRef) (rdo : Rdo) :
    P2pFrame s (s.rplP2pAddPartialRoute d e rdo).2 := by
  unfold rplP2pAddPartialRoute
  split
  · exact .refl s
  · exact copyAddrs_frame s e _ _

lemma rplP2pUpdateDag_frame (s : Node cfg) (d : cfg.DagRef) (dio : Dio) :
    Ensures (s.rplP2pUpdateDag d dio) (P2pFrame s) := by
  unfold rplP2pUpdateDag
  refine .bind (fun _ _ => trivial) fun e _ => ?_
  refine .bind (fun _ _ => trivial) fun rdo _ => ?_
  refine .bind (fun _ _ => trivial) fun _ _ => .ok ?_
  exact ((P2pFrame.modifyP2p s e (by simp [copyRdo])).trans (freePartialRoutes_frame _ e)).trans
    (rplP2pAddPartialRoute_frame _ d e rdo)

lemma rplP2pProcessTarget_frame (s : Node cfg) (d : cfg.DagRef) :
    Ensures (s.rplP2pProcessTarget d) (P2pFrame s) := by
  unfold rplP2pProcessTarget
  refine .bind (fun _ _ => trivial) fun e _ => ?_
  refine .bind (fun _ _ => trivial) fun target _ => ?_
  split_ifs
  · simp only
    split_ifs
    · exact .ok (.stopDioTimer s d)
    · exact .ok ((P2pFrame.stopDioTimer s d).trans (.modifyP2p _ e (by simp)))
  · exact .ok (.refl s)

end Node
end Contiki

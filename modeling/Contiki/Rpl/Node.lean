import Contiki.Rpl.Types
import Mathlib.Tactic.Simps.Basic

/-!
# The state of a node

All static data of the RPL module and of the tables it works on, the faults that following a
null pointer or leaving an array leads to, the random number generator, and the Trickle timer
of a DAG.
-/

namespace Contiki

/-- What a computation breaks off with: the object that was absent, or an index that was too
large. -/
inductive Fault
  /-- `dag->p2p` is null -/
  | nullP2p
  /-- `dio->rdo` is null -/
  | nullRdo
  /-- `dag->preferred_parent` is null -/
  | nullPreferredParent
  /-- `dag->of` is null -/
  | nullOf
  /-- the node has no global address -/
  | nullOwnAddr
  | outOfBounds
deriving DecidableEq

/-- `rpl_dro_cache_entry_t`; `pending` says whether its timer runs. -/
structure DroCacheEntry where
  rexmits : UInt8
  pending : Bool
  buffer : List UInt8
deriving DecidableEq, Inhabited

/-- The state of one node.  `nbrMetric` is the neighbour cache together with the link metrics of
`neighbor-info`: the metric of the link to an address, if there is an entry for it. -/
structure Node (cfg : Config) where
  dagTable : cfg.DagRef → Dag cfg
  parentMemb : Memb (Parent cfg) cfg.maxParents
  dagP2pTable : cfg.P2pRef → DagP2p cfg
  srcRouteAddrMemb : Memb UInt8 rplMaxSrcRouteAddrEntries
  instanceCounter : UInt8
  routingTable : Fin cfg.routeNb → Ds6Route cfg.DagRef
  defrtList : Fin cfg.defrtNb → Ds6Defrt
  srcRoutingTable : SrcRoutingTable cfg.DagRef cfg.srcRouteNb cfg.srcRouteAddrNb
  addrList : Fin cfg.addrNb → Ds6Addr
  maddrList : Fin cfg.maddrNb → Ds6Element
  lladdr : Lladdr
  nbrMetric : IpAddr → Option UInt8
  randState : UInt32
  dioSendOk : Bool
  droCacheMemb : Memb DroCacheEntry rplMaxDroCacheEntries
  droCache : List (Fin rplMaxDroCacheEntries)

namespace Node
variable {cfg : Config} (s : Node cfg)

/-! ## Access -/

/-- Overwrite a DAG. -/
@[simps]
def setDag (d : cfg.DagRef) (dag : Dag cfg) : Node cfg :=
  { s with dagTable := Function.update s.dagTable d dag }

/-- Change a DAG. -/
@[simps]
def modifyDag (d : cfg.DagRef) (f : Dag cfg → Dag cfg) : Node cfg :=
  { s with dagTable := Function.update s.dagTable d (f (s.dagTable d)) }

/-- Overwrite a P2P extension. -/
@[simps]
def setP2p (e : cfg.P2pRef) (p2p : DagP2p cfg) : Node cfg :=
  { s with dagP2pTable := Function.update s.dagP2pTable e p2p }

/-- Change a P2P extension. -/
@[simps]
def modifyP2p (e : cfg.P2pRef) (f : DagP2p cfg → DagP2p cfg) : Node cfg :=
  { s with dagP2pTable := Function.update s.dagP2pTable e (f (s.dagP2pTable e)) }

/-- The content of a parent block. -/
def parent (p : cfg.ParentRef) : Parent cfg := s.parentMemb.mem p

/-- Change the content of a parent block. -/
@[simps]
def modifyParent (p : cfg.ParentRef) (f : Parent cfg → Parent cfg) : Node cfg :=
  { s with parentMemb := s.parentMemb.write p (f (s.parent p)) }

/-- The DAG a parent belongs to, for a parent that is on the list of `d`. -/
def parentDag (d : cfg.DagRef) (p : cfg.ParentRef) : Dag cfg :=
  s.dagTable ((s.parent p).dag.getD d)

/-- Follow `dag->p2p`. -/
def derefP2p (d : cfg.DagRef) : Except Fault cfg.P2pRef :=
  deref (s.dagTable d).p2p .nullP2p

/-- Follow `dag->of`. -/
def derefOf (d : cfg.DagRef) : Except Fault ObjectiveFunction :=
  deref (s.dagTable d).of .nullOf

/-- `rpl_get_own_addr (1)`, followed. -/
def ownAddr : Except Fault IpAddr := deref (rplGetOwnAddr s.addrList true) .nullOwnAddr

def isMyAddr (a : IpAddr) : Bool := uipDs6IsMyAddr s.addrList a

/-- `rpl_get_dag`: the first joined DAG of an instance, with the given DODAGID if one is
given. -/
def rplGetDag (instanceId : UInt8) (dodagId : Option IpAddr) : Option cfg.DagRef :=
  (List.finRange cfg.maxDagEntries).find? fun d =>
    (s.dagTable d).joined && (s.dagTable d).instanceId == instanceId &&
      match dodagId with
      | none => true
      | some id => (s.dagTable d).dagId == id

/-! ## Random numbers -/

/-- `random_rand`: the number drawn and the state of the generator after it. -/
def randomRand : UInt16 × Node cfg :=
  let lo : UInt32 := (16807 : UInt32) * (s.randState &&& 0xffff)
  let hi : UInt32 := (16807 : UInt32) * (s.randState >>> 16)
  let lo := lo + ((hi &&& 0x7fff) <<< 16)
  let hi := hi <<< 1
  let lo := lo + (hi >>> 16)
  -- `(int32_t)lo <= 0`
  let lo := if lo = 0 ∨ lo ≥ 0x80000000 then lo - 0x7fffffff else lo
  let drawn := if cfg.int16 then lo ^^^ (lo >>> 16) else lo
  (drawn.toUInt16 &&& 0x7fff, { s with randState := lo })

def randomRandMax : UInt32 := 0x7fff

/-! ## The Trickle timer of a DAG -/

/-- `ctimer_stop (&dag->dio_timer)`. -/
def stopDioTimer (d : cfg.DagRef) : Node cfg :=
  s.modifyDag d fun dag => { dag with dioTimer := none }

def newDioInterval (d : cfg.DagRef) : Node cfg :=
  let dag := s.dagTable d
  let time : UInt32 :=
    if dag.dioIntcurrent < 32 then 1 <<< dag.dioIntcurrent.toUInt32
    else cfg.shiftOver dag.dioIntcurrent
  -- from milliseconds to ticks
  let ticks := (time * cfg.clockSecond) / 1000
  let (rand, s) := s.randomRand
  -- a random number between I/2 and I
  let half := ticks >>> 1
  let time := half + (half * rand.toUInt32) / randomRandMax
  s.modifyDag d fun dag => { dag with
    dioNextDelay := ticks - time
    dioSend := true
    dioCounter := 0
    dioTimer := some (cfg.clockTime time) }

def rplResetDioTimer (d : cfg.DagRef) (force : Bool) : Node cfg :=
  let dag := s.dagTable d
  if force || dag.dioIntcurrent > dag.config.dioIntmin then
    (s.modifyDag d fun dag => { dag with
      dioCounter := 0
      dioIntcurrent := dag.config.dioIntmin }).newDioInterval d
  else s

end Node
end Contiki

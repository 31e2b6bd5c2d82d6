import Contiki.Lib.Fallible
import Contiki.Net.Ds6
import Mathlib.Algebra.Group.Nat.Defs

/-!
# The data of the RPL module

The structures of `rpl.h`, `rpl-private.h` and `rpl-p2p.h`, and the state of one node.  The
build options modelled are `WITH_RPL_P2P` with the default mode of operation (no downward
routes), so that nothing of the DAO machinery is compiled in (`dao_input`, for the other modes, has
a module of its own); table sizes, the objective function and the metric are parameters.

Pointers into the static tables are indices (`DagRef`, `P2pRef`, `ParentRef`), and a pointer
that may be `NULL` is an `Option`.  Following a null pointer is a `Fault`, which ends a run.
-/

namespace Contiki

/-! ## Constants -/

/-- `RPL_MOP_DEFAULT`, which is `RPL_MOP_NO_DOWNWARD_ROUTES` with the P2P extension. -/
def rplMopDefault : UInt8 := 0

def rplMopP2pRouteDiscovery : UInt8 := 4

def infiniteRank : UInt16 := 0xffff

/-- `RPL_DEFAULT_INSTANCE`, which is also what `RPL_ANY_INSTANCE` is looked up as. -/
def rplDefaultInstance : UInt8 := 0

def rplLocalDefaultInstance : UInt8 := 0x80

/-- `RPL_P2P_RDO_COMPR`, at the same time the least compression the node can handle and the
largest that the four bits of the field can say: a compressed address is one byte. -/
def rplP2pRdoCompr : UInt8 := 15

abbrev rplP2pMaxPartialRoutes : ℕ := 3

abbrev rplMaxSrcRouteAddrEntries : ℕ := 20

abbrev rplMaxDroCacheEntries : ℕ := 2

def rplDroCacheEntrySize : ℕ := 64

def rplMaxDroRexmits : UInt8 := 2

def rplDefaultLifetime : UInt8 := 0xff

def rplDefaultLifetimeUnit : UInt16 := 2

def defaultMinHoprankinc : UInt16 := 256

def neighborInfoEtxDivisor : UInt8 := 16

/-- `NEIGHBOR_INFO_ETX2FIX(3)`, the worst link over which a DIO is accepted. -/
def maxBidirectionalMetric : UInt8 := 3 * neighborInfoEtxDivisor

/-- `INITIAL_LINK_METRIC`, that is `NEIGHBOR_INFO_ETX2FIX(5)`. -/
def initialLinkMetric : UInt8 := 5 * neighborInfoEtxDivisor

def rplDagMcEtxDivisor : UInt16 := 128

def rplDagMcNone : UInt8 := 0

def rplDagMcEnergy : UInt8 := 2

def rplDagMcEtx : UInt8 := 7

def rplDagMcFlagP : UInt8 := 0x8

def rplDagMcFlagC : UInt8 := 0x4

def rplDagMcAggrAdditive : UInt8 := 0

/-! ## Build options -/

/-- The objective functions of the repository: `rpl_of_etx` and `rpl_of0`. -/
inductive ObjectiveFunction
  | etx
  | of0
deriving DecidableEq

/-- The routing metrics that `RPL_DAG_MC` may select. -/
inductive DagMc
  | etx
  | energy
deriving DecidableEq

/-- The configuration of a build, with what the platform decides: the width of `int`, and the
results of a division by zero and of a shift by more than the width, which the source does not
exclude. -/
structure Config where
  /-- `RPL_MAX_DAG_ENTRIES` -/
  maxDagEntries : ℕ
  /-- `RPL_MAX_PARENTS` -/
  maxParents : ℕ
  /-- `UIP_DS6_ROUTE_NB` -/
  routeNb : ℕ
  /-- `UIP_DS6_DEFRT_NB` -/
  defrtNb : ℕ
  /-- `UIP_DS6_ADDR_NB` -/
  addrNb : ℕ
  /-- `UIP_DS6_MADDR_NB` -/
  maddrNb : ℕ
  /-- `UIP_DS6_SRC_ROUTE_NB` -/
  srcRouteNb : ℕ
  /-- `UIP_DS6_SRC_ROUTE_ADDR_NB` -/
  srcRouteAddrNb : ℕ
  /-- `RPL_OF` -/
  rplOf : ObjectiveFunction
  /-- `RPL_DAG_MC` -/
  dagMc : DagMc
  /-- `RPL_GROUNDED` -/
  grounded : UInt8
  /-- `CLOCK_SECOND` -/
  clockSecond : UInt32
  /-- the width of `clock_time_t` -/
  clockWidth : ℕ
  /-- whether `int` has sixteen bits, as on the MSP430 -/
  int16 : Bool
  /-- `SENSLAB`, under which `dio_input` only accepts the DODAGIDs of that testbed -/
  senslab : Bool
  divZero : ℕ → ℕ
  shiftOver : UInt8 → UInt32

namespace Config
variable (cfg : Config)

/-- A pointer into `dag_table`. -/
abbrev DagRef : Type := Fin cfg.maxDagEntries

/-- A pointer into `dag_p2p_table`, which has `RPL_MAX_DAG_ENTRIES - 1` entries. -/
abbrev P2pRef : Type := Fin (cfg.maxDagEntries - 1)

/-- A pointer to a block of `parent_memb`. -/
abbrev ParentRef : Type := Fin cfg.maxParents

/-- A value of type `int` or, where `int` has sixteen bits, of the unsigned type that an
expression with `uint16_t` operands has. -/
def cInt (z : ℤ) : ℤ := if cfg.int16 then z % 65536 else z

/-- A number of ticks as a `clock_time_t`. -/
def clockTime (t : UInt32) : UInt32 := .ofNat (t.toNat % 2 ^ cfg.clockWidth)

lemma clockTime_of_lt {cfg : Config} {t : UInt32} (h : t.toNat < 2 ^ cfg.clockWidth) : cfg.clockTime t = t := by
  unfold clockTime
  rw [Nat.mod_eq_of_lt h]
  exact UInt32.ofNat_toNat

/-- Unsigned division. -/
def cDiv (a b : ℕ) : ℕ := if b = 0 then cfg.divZero a else a / b

/-- The sizes of the default configuration of a router, with the ETX objective function. -/
def default : Config where
  maxDagEntries := 4
  maxParents := 20
  routeNb := 4
  defrtNb := 2
  addrNb := 3
  maddrNb := 5
  srcRouteNb := 3
  srcRouteAddrNb := 8
  rplOf := .etx
  dagMc := .etx
  grounded := 0
  clockSecond := 128
  clockWidth := 32
  int16 := true
  senslab := false
  divZero := id
  shiftOver := fun _ => 0

end Config

/-! ## Messages -/

/-- `rpl_metric_container_t`.  The union `obj` is kept as its ETX member; of the energy object
the flags are the low byte and the estimate is the high byte. -/
structure MetricContainer where
  type : UInt8
  flags : UInt8
  aggr : UInt8
  prec : UInt8
  length : UInt8
  obj : UInt16
deriving DecidableEq, Inhabited

namespace MetricContainer

/-- `memset` to zero. -/
def zero : MetricContainer := ⟨0, 0, 0, 0, 0, 0⟩

def energyFlags (mc : MetricContainer) : UInt8 := mc.obj.toUInt8

def energyEst (mc : MetricContainer) : UInt8 := (mc.obj >>> 8).toUInt8

/-- The union that holds the given energy object. -/
def energyObj (flags energyEst : UInt8) : UInt16 :=
  (energyEst.toUInt16 <<< 8) ||| flags.toUInt16

end MetricContainer

/-- `rpl_dodag_config_t`. -/
structure DodagConfig where
  dioIntdoubl : UInt8
  dioIntmin : UInt8
  dioRedund : UInt8
  maxRankinc : UInt16
  minHoprankinc : UInt16
  ocp : UInt16
  defaultLifetime : UInt8
  lifetimeUnit : UInt16
deriving DecidableEq, Inhabited

def defaultDodagConfig : DodagConfig where
  dioIntdoubl := 8
  dioIntmin := 12
  dioRedund := 10
  maxRankinc := 3 * defaultMinHoprankinc
  minHoprankinc := defaultMinHoprankinc
  ocp := 1
  defaultLifetime := rplDefaultLifetime
  lifetimeUnit := rplDefaultLifetimeUnit

def p2pDefaultDodagConfig : DodagConfig where
  dioIntdoubl := 16
  dioIntmin := 6
  dioRedund := 1
  maxRankinc := 0
  minHoprankinc := defaultMinHoprankinc
  ocp := 1
  defaultLifetime := rplDefaultLifetime
  lifetimeUnit := rplDefaultLifetimeUnit

/-- `rpl_prefix_t`. -/
structure RplPrefix where
  prefixAddr : IpAddr
  lifetime : UInt32
  length : UInt8
  flags : UInt8
deriving DecidableEq, Inhabited

def raFlagAutonomous : UInt8 := 0x40

/-- `rpl_dio_rdo_t`: the route discovery option of a DIO.  The pointers into the packet buffer
are the bytes they point to; `compr` is `rplP2pRdoCompr` in every option that is accepted. -/
structure Rdo where
  bothDirections : UInt8
  numRoutes : UInt8
  hopByHop : UInt8
  lifetime : UInt8
  maxRank : UInt8
  target : UInt8
  addrs : List UInt8
deriving DecidableEq, Inhabited

/-- `rpl_dio_t`. -/
structure Dio where
  dagId : IpAddr
  rank : UInt16
  grounded : UInt8
  mop : UInt8
  preference : UInt8
  version : UInt8
  instanceId : UInt8
  dtsn : UInt8
  dodagConfig : Option DodagConfig
  routeInfo : Option RplPrefix
  prefixInfo : Option RplPrefix
  mc : MetricContainer
  rdo : Option Rdo
  constr : Option MetricContainer
deriving DecidableEq, Inhabited

/-! ## Parents, DAGs and their P2P extensions -/

variable (cfg : Config)

/-- `rpl_parent_t`; `next` is the list the parent is on. -/
structure Parent where
  dag : Option cfg.DagRef
  mc : MetricContainer
  addr : IpAddr
  rank : UInt16
  linkMetric : UInt8
  dtsn : UInt8
  updated : Bool

/-- `rpl_dag_t`.  A timer is stopped or runs with the delay it was set to. -/
structure Dag where
  mc : MetricContainer
  of : Option ObjectiveFunction
  dagId : IpAddr
  defRoute : Option (Fin cfg.defrtNb)
  rank : UInt16
  minRank : UInt16
  dtsnOut : UInt8
  instanceId : UInt8
  version : UInt8
  grounded : UInt8
  mop : UInt8
  preference : UInt8
  config : DodagConfig
  used : Bool
  joined : Bool
  dioIntcurrent : UInt8
  dioSend : Bool
  dioCounter : UInt8
  dioNextDelay : UInt32
  dioTimer : Option UInt32
  preferredParent : Option cfg.ParentRef
  parents : List cfg.ParentRef
  prefixInfo : RplPrefix
  p2p : Option cfg.P2pRef

/-- The `dro_timer` of a P2P extension: whether it was ever set, and the DAG it will send DROs
for when it fires. -/
structure DroTimer where
  started : Bool
  pending : Option cfg.DagRef

/-- `rpl_dag_p2p_t`.  A partial route is a list of blocks of `src_route_addr_memb`; the
compression is `rplP2pRdoCompr` from before the first time it is read. -/
structure DagP2p where
  dag : Option cfg.DagRef
  process : Option ℕ
  bothDirections : UInt8
  hopByHop : UInt8
  numRoutes : UInt8
  rdoLifetime : UInt8
  maxRank : UInt8
  lifetime : UInt16
  expired : Bool
  droSeq : UInt8
  droTimer : DroTimer cfg
  target : UInt8
  constr : MetricContainer
  partialRoutes : Fin rplP2pMaxPartialRoutes → List (Fin rplMaxSrcRouteAddrEntries)

variable {cfg}

/-- `memset` to zero. -/
def RplPrefix.zero : RplPrefix := ⟨.unspecified, 0, 0, 0⟩

/-- `memset` to zero. -/
def DodagConfig.zero : DodagConfig := ⟨0, 0, 0, 0, 0, 0, 0, 0⟩

/-- A block of `parent_memb` that was never written. -/
def Parent.zero : Parent cfg := ⟨none, .zero, .unspecified, 0, 0, 0, false⟩

/-- `memset` to zero. -/
def Dag.zero : Dag cfg where
  mc := .zero
  of := none
  dagId := .unspecified
  defRoute := none
  rank := 0
  minRank := 0
  dtsnOut := 0
  instanceId := 0
  version := 0
  grounded := 0
  mop := 0
  preference := 0
  config := .zero
  used := false
  joined := false
  dioIntcurrent := 0
  dioSend := false
  dioCounter := 0
  dioNextDelay := 0
  dioTimer := none
  preferredParent := none
  parents := []
  prefixInfo := .zero
  p2p := none

/-- `memset` to zero, with empty partial routes. -/
def DagP2p.zero : DagP2p cfg where
  dag := none
  process := none
  bothDirections := 0
  hopByHop := 0
  numRoutes := 0
  rdoLifetime := 0
  maxRank := 0
  lifetime := 0
  expired := false
  droSeq := 0
  droTimer := ⟨false, none⟩
  target := 0
  constr := .zero
  partialRoutes := fun _ => []

def Dag.rootRank (dag : Dag cfg) : UInt16 := dag.config.minHoprankinc

/-- `DAG_RANK` of a value of type `int`. -/
def Dag.dagRank (dag : Dag cfg) (fixptRank : ℕ) : ℕ :=
  cfg.cDiv fixptRank dag.config.minHoprankinc.toNat

def Dag.rplLifetime (dag : Dag cfg) (lifetime : UInt8) : UInt32 :=
  dag.config.lifetimeUnit.toUInt32 * lifetime.toUInt32

end Contiki

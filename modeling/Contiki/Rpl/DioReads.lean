import Contiki.Lib.Reads
import Contiki.Rpl.DioMessage
import Mathlib.Logic.Relation

/-!
# What `dio_input` reads

The message part of `dio_input` once more, with every access to the packet buffer made explicit
and in the order of the source; on a buffer it computes what `parseDio` computes.
-/

namespace Contiki

open Reads

/-- Computations over the bytes of a packet buffer. -/
abbrev ByteReads := Reads ℕ UInt8

def readGet16 (pos : ℕ) : ByteReads UInt16 := do
  let hi ← read pos
  let lo ← read (pos + 1)
  pure ((hi.toUInt16 <<< 8) ||| lo.toUInt16)

def readGet32 (pos : ℕ) : ByteReads UInt32 := do
  let b₀ ← read pos
  let b₁ ← read (pos + 1)
  let b₂ ← read (pos + 2)
  let b₃ ← read (pos + 3)
  pure ((b₀.toUInt32 <<< 24) ||| (b₁.toUInt32 <<< 16) ||| (b₂.toUInt32 <<< 8) ||| b₃.toUInt32)

/-- The base object of a DIO; its two reserved bytes are skipped. -/
def readDioBase : ByteReads Dio := do
  let instanceId ← read 0
  let version ← read 1
  let rank ← readGet16 2
  let flags ← read 4
  let dtsn ← read 5
  let dagId ← readRange 8 16
  pure
    { instanceId
      version
      rank
      grounded := flags &&& 0x80
      mop := (flags &&& 0x38) >>> 3
      preference := flags &&& 0x07
      dtsn
      dagId := .ofBytes dagId
      dodagConfig := none
      routeInfo := none
      prefixInfo := none
      mc := .zero
      rdo := none
      constr := none }

/-- The header of a metric object; the object itself is still missing. -/
def readMetricHead (j : ℕ) : ByteReads (UInt16 → MetricContainer) := do
  let type ← read j
  let flags ← read (j + 1)
  let bits ← read (j + 2)
  let length ← read (j + 3)
  pure fun obj =>
    { type
      flags := (flags <<< 1) ||| (bits >>> 7)
      aggr := (bits >>> 4) &&& 0x3
      prec := bits &&& 0xf
      length
      obj }

/-- One metric object of a DIO: a constraint or a metric. -/
def readMetricObject (j : ℕ) (dio : Dio) : ByteReads (Option Dio) := do
  let flags ← read (j + 1)
  let head ← readMetricHead j
  if (flags <<< 1) &&& rplDagMcFlagC ≠ 0 then
    if (head 0).type = rplDagMcEtx then
      let obj ← readGet16 (j + 4)
      pure (some { dio with constr := some (head obj) })
    else pure none
  else if (head 0).type = rplDagMcEtx then
    let obj ← readGet16 (j + 4)
    pure (some { dio with mc := head obj })
  else if (head 0).type = rplDagMcEnergy then
    let flags ← read (j + 4)
    let est ← read (j + 5)
    pure (some { dio with mc := head (MetricContainer.energyObj flags est) })
  else pure none

/-- The metric objects of one option. -/
def readMetricObjects (stop : ℕ) : ℕ → ℕ → Dio → ByteReads (Option Dio)
  | 0, _, dio => pure (some dio)
  | fuel + 1, j, dio =>
    if j < stop then do
      let length ← read (j + 3)
      (readMetricObject j dio).ifSome fun dio =>
        readMetricObjects stop fuel (j + (4 + length.toNat)) dio
    else pure (some dio)

/-- `RPL_OPTION_ROUTE_INFO`. -/
def readRouteInfo (i len : ℕ) : ByteReads (Option RplPrefix) :=
  if len < 9 then pure none
  else do
    let length ← read (i + 2)
    let flags ← read (i + 3)
    let lifetime ← readGet32 (i + 4)
    if (length.toNat + 7) / 8 + 8 ≤ len ∧ length ≤ 128 then
      let bytes ← readRange (i + 8) ((length.toNat + 7) / 8)
      pure (some { prefixAddr := .ofBytes bytes, lifetime, length, flags })
    else pure none

/-- `RPL_OPTION_DAG_CONF`. -/
def readDagConf (i len : ℕ) : ByteReads (Option DodagConfig) :=
  if len ≠ 16 then pure none
  else do
    let dioIntdoubl ← read (i + 3)
    let dioIntmin ← read (i + 4)
    let dioRedund ← read (i + 5)
    let maxRankinc ← readGet16 (i + 6)
    let minHoprankinc ← readGet16 (i + 8)
    let ocp ← readGet16 (i + 10)
    let defaultLifetime ← read (i + 13)
    let lifetimeUnit ← readGet16 (i + 14)
    pure (some { dioIntdoubl, dioIntmin, dioRedund, maxRankinc, minHoprankinc, ocp,
                 defaultLifetime, lifetimeUnit })

/-- `RPL_OPTION_PREFIX_INFO`. -/
def readPrefixInfo (i len : ℕ) : ByteReads (Option RplPrefix) :=
  if len ≠ 32 then pure none
  else do
    let length ← read (i + 2)
    let flags ← read (i + 3)
    let lifetime ← readGet32 (i + 8)
    let bytes ← readRange (i + 16) 16
    pure (some { prefixAddr := .ofBytes bytes, lifetime, length, flags })

/-- `RPL_DIO_SUBOPT_ROUTE_DISCOVERY`, with the addresses that `rdo` points to. -/
def readRdo (i len : ℕ) : ByteReads (Option Rdo) :=
  if len ≤ 4 then pure none
  else do
    let fields ← read (i + 2)
    if fields &&& 0x0f < rplP2pRdoCompr then pure none
    else
      let ranks ← read (i + 3)
      let target ← read (i + 4)
      let addrs ← readRange (i + 5) (len - 5)
      pure (some
        { bothDirections := fields &&& 0x80
          hopByHop := fields &&& 0x40
          numRoutes := (fields &&& 0x30) >>> 4
          lifetime := (ranks &&& 0xc0) >>> 6
          maxRank := ranks &&& 0x3f
          target
          addrs })

/-- One option of a DIO, by its type. -/
def readDioOption (type : UInt8) (i len : ℕ) (dio : Dio) : ByteReads (Option Dio) :=
  if type = rplOptionDagMetricContainer then
    if len < 6 then pure none else readMetricObjects (i + len) len (i + 2) dio
  else if type = rplOptionRouteInfo then
    (readRouteInfo i len).ifSome fun rif => pure (some { dio with routeInfo := some rif })
  else if type = rplOptionDagConf then
    (readDagConf i len).ifSome fun dcf => pure (some { dio with dodagConfig := some dcf })
  else if type = rplOptionPrefixInfo then
    (readPrefixInfo i len).ifSome fun pif => pure (some { dio with prefixInfo := some pif })
  else if type = rplDioSuboptRouteDiscovery then
    -- the length is checked before the RDO is found to be a second one; both give up
    if dio.rdo ≠ none then pure none
    else (readRdo i len).ifSome fun rdo => pure (some { dio with rdo := some rdo })
  else pure (some dio)

/-- The length of an option, which is in its second byte unless it is padding. -/
def readOptionLength (type : UInt8) (i : ℕ) : ByteReads ℕ :=
  if type = rplOptionPad1 then pure 1
  else do
    let length ← read (i + 1)
    pure (2 + length.toNat)

/-- The loop of `dio_input` over the options. -/
def readDioOptions (bufferLength : ℕ) : ℕ → ℕ → Dio → ByteReads (Option Dio)
  | 0, _, dio => pure (some dio)
  | fuel + 1, i, dio =>
    if i < bufferLength then do
      let type ← read i
      let len ← readOptionLength type i
      if len + i > bufferLength then pure none
      else
        (readDioOption type i len dio).ifSome fun dio =>
          readDioOptions bufferLength fuel (i + len) dio
    else pure (some dio)

/-- The message part of `dio_input`, with its accesses to the packet buffer. -/
def readDio (cfg : Config) (bufferLength : UInt8) : ByteReads (Option Dio) := do
  let dio ← readDioBase
  if cfg.senslab ∧ ¬senslabDagId dio.dagId then pure none
  else readDioOptions bufferLength.toNat bufferLength.toNat 24 dio

/-! ## The result on a buffer -/

section Run
variable (buffer : ℕ → UInt8)

@[simp] lemma run_readGet16 (pos : ℕ) : (readGet16 pos).run buffer = get16 buffer pos := rfl

@[simp] lemma run_readGet32 (pos : ℕ) : (readGet32 pos).run buffer = get32 buffer pos := rfl

@[simp] lemma run_readRange_bytes (pos len : ℕ) :
    (readRange pos len).run buffer = bytesAt buffer pos len :=
  run_readRange buffer pos len

lemma run_readDioBase : readDioBase.run buffer = parseDioBase buffer := by
  simp [readDioBase, parseDioBase]

@[simp] lemma run_readMetricHead (j : ℕ) (obj : UInt16) :
    (readMetricHead j).run buffer obj = readMetricContainer buffer j obj := rfl

lemma run_readMetricObject (j : ℕ) (dio : Dio) :
    (readMetricObject j dio).run buffer = parseMetricContainer buffer j dio := by
  simp only [readMetricObject, parseMetricContainer, run_bind, run_ite, run_pure]
  rfl

lemma run_readMetricObjects (stop fuel j : ℕ) (dio : Dio) :
    (readMetricObjects stop fuel j dio).run buffer =
      parseMetricContainers buffer stop fuel j dio := by
  induction fuel generalizing j dio with
  | zero => rfl
  | succ fuel ih =>
    simp only [readMetricObjects, parseMetricContainers, run_ite, run_bind, run_read, run_ifSome,
      run_readMetricObject, run_pure]
    by_cases hj : j < stop
    · rw [if_pos hj, if_pos hj]
      cases parseMetricContainer buffer j dio with
      | none => rfl
      | some dio' => exact ih _ _
    · rw [if_neg hj, if_neg hj]

lemma run_readRouteInfo (i len : ℕ) :
    (readRouteInfo i len).run buffer = parseRouteInfo buffer i len := by
  simp only [readRouteInfo, parseRouteInfo, run_bind, run_ite, run_pure]
  simp

lemma run_readDagConf (i len : ℕ) :
    (readDagConf i len).run buffer = parseDagConf buffer i len := by
  simp [readDagConf, parseDagConf]

lemma run_readPrefixInfo (i len : ℕ) :
    (readPrefixInfo i len).run buffer = parsePrefixInfo buffer i len := by
  simp [readPrefixInfo, parsePrefixInfo]

lemma run_readRdo (i len : ℕ) : (readRdo i len).run buffer = parseRdo buffer i len := by
  -- the branches first, before the bytes they test are rewritten
  simp only [readRdo, parseRdo, run_bind, run_ite, run_pure]
  simp

lemma run_readDioOption (i len : ℕ) (dio : Dio) :
    (readDioOption (buffer i) i len dio).run buffer = parseDioOption buffer i len dio := by
  simp only [readDioOption, parseDioOption, run_ite, run_ifSome, run_pure, run_readMetricObjects,
    run_readRouteInfo, run_readDagConf, run_readPrefixInfo, run_readRdo, Option.map_eq_bind]
  rfl

lemma run_readOptionLength (i : ℕ) :
    (readOptionLength (buffer i) i).run buffer = dioOptionLength buffer i := by
  simp [readOptionLength, dioOptionLength]

lemma run_readDioOptions (bufferLength fuel i : ℕ) (dio : Dio) :
    (readDioOptions bufferLength fuel i dio).run buffer =
      parseDioOptions buffer bufferLength fuel i dio := by
  induction fuel generalizing i dio with
  | zero => rfl
  | succ fuel ih =>
    simp only [readDioOptions, parseDioOptions, run_ite, run_bind, run_read, run_ifSome,
      run_readOptionLength, run_readDioOption, run_pure]
    by_cases hi : i < bufferLength
    · rw [if_pos hi, if_pos hi]
      by_cases hlen : dioOptionLength buffer i + i > bufferLength
      · rw [if_pos hlen, if_pos hlen]
      · rw [if_neg hlen, if_neg hlen]
        cases parseDioOption buffer i (dioOptionLength buffer i) dio with
        | none => rfl
        | some dio' => exact ih _ _
    · rw [if_neg hi, if_neg hi]

/-- The accesses compute what `parseDio` says. -/
theorem run_readDio (cfg : Config) (bufferLength : UInt8) :
    (readDio cfg bufferLength).run buffer = parseDio buffer cfg bufferLength := by
  simp only [readDio, parseDio, run_bind, run_ite, run_pure, run_readDioBase,
    run_readDioOptions]

end Run
end Contiki

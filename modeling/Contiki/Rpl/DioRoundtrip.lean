import Contiki.Lib.Buffer
import Contiki.Rpl.Quiet
import Mathlib.Data.Fintype.Card

/-!
# What a DIO says on the wire

`dio_output` writes a DIO and `dio_input` reads it, each field by field.  Every part of a message
has a lemma here on what is read where it stands (`parse_confOption` and the like), and
`parseDioOptions_step` puts the options together.

* `dio_roundtrip` — when the DIO that is read says what the DAG held, and what is lost otherwise.
-/

namespace Contiki

variable {cfg : Config} {b : ℕ → UInt8} {pos n : ℕ}

/-! ## Words -/

lemma get16_of_holds {v : UInt16} (h : Holds b pos (set16 v)) : get16 b pos = v := by
  obtain ⟨hhigh, hlow, -⟩ := h
  rw [get16, hhigh, hlow]
  exact word16_of_bytes v

lemma get32_of_holds {v : UInt32} (h : Holds b pos (set32 v)) : get32 b pos = v := by
  obtain ⟨h₃, h₂, h₁, h₀, -⟩ := h
  rw [get32, h₃, h₂, h₁, h₀]
  exact word32_of_bytes v

lemma bytesAt_of_holds {l : List UInt8} (h : Holds b pos l) : bytesAt b pos l.length = l :=
  h.map_range

lemma ofBytes_bytesAt {a : IpAddr} (h : Holds b pos a.u8) : .ofBytes (bytesAt b pos 16) = a := by
  have hbytes := bytesAt_of_holds h
  rw [a.length_u8] at hbytes
  rw [hbytes, IpAddr.ofBytes_self]

/-! ## The base object -/

/-- The DIO that says what stands in the base object of the message of a DAG; the grounded flag and
the preference are read from the byte that has the mode of operation only. -/
def dioOfBase (dag : Dag cfg) : Dio where
  instanceId := dag.instanceId
  version := dag.version
  rank := dag.rank
  grounded := (dag.mop <<< 3) &&& 0x80
  mop := ((dag.mop <<< 3) &&& 0x38) >>> 3
  preference := (dag.mop <<< 3) &&& 0x07
  dtsn := dag.dtsnOut
  dagId := dag.dagId
  dodagConfig := none
  routeInfo := none
  prefixInfo := none
  mc := .zero
  rdo := none
  constr := none

lemma parseDioBase_of_holds {dag : Dag cfg} (h : Holds b 0 (Node.dioBase dag)) :
    parseDioBase b = dioOfBase dag := by
  obtain ⟨hinstance, hversion, hrank₁, hrank₀, hmop, hdtsn, -, -, hdagId⟩ := h
  have hrank : get16 b 2 = dag.rank := get16_of_holds ⟨hrank₁, hrank₀, trivial⟩
  have hdagId : IpAddr.ofBytes (bytesAt b 8 16) = dag.dagId := ofBytes_bytesAt hdagId
  simp only [Nat.zero_add, Nat.reduceAdd] at hversion hmop hdtsn
  simp only [parseDioBase, dioOfBase, hinstance, hversion, hrank, hmop, hdtsn, hdagId]

/-! ## Options -/

/-- One round of the loop over the options. -/
lemma parseDioOptions_step {fuel i len : ℕ} {dio dio' : Dio} (hlen : dioOptionLength b i = len)
    (hpos : 0 < len) (hfit : i + len ≤ n) (hparse : parseDioOption b i len dio = some dio') :
    parseDioOptions b n (fuel + 1) i dio = parseDioOptions b n fuel (i + len) dio' := by
  rw [parseDioOptions, if_pos (by omega)]
  simp only [hlen, hparse]
  rw [if_neg (by omega)]

/-- The loop ends behind the last option. -/
lemma parseDioOptions_end {fuel i : ℕ} {dio : Dio} (h : n ≤ i) :
    parseDioOptions b n fuel i dio = some dio := by
  cases fuel with
  | zero => rfl
  | succ fuel => rw [parseDioOptions, if_neg (by omega)]

/-- The length of an option, from the two bytes of its header. -/
lemma dioOptionLength_of_header {i : ℕ} {type len : UInt8} (htype : b i = type)
    (hpad : type ≠ rplOptionPad1) (hlen : b (i + 1) = len) :
    dioOptionLength b i = 2 + len.toNat := by
  rw [dioOptionLength, htype, if_neg hpad, hlen]

/-- The DODAG configuration is read as it was written, with the objective code point of the
objective function. -/
lemma parse_confOption {i : ℕ} {config : DodagConfig} {ocp : UInt16}
    (h : Holds b i (Node.confOption config ocp)) (dio : Dio) :
    dioOptionLength b i = 16 ∧
      parseDioOption b i 16 dio = some { dio with dodagConfig := some { config with ocp } } := by
  obtain ⟨htype, hlen, -, hdoubl, hmin, hredund, hrankinc₁, hrankinc₀, hhop₁, hhop₀, hocp₁, hocp₀,
    -, hlifetime, hunit₁, hunit₀, -⟩ := h
  have hrankinc : get16 b (i + 6) = config.maxRankinc := get16_of_holds ⟨hrankinc₁, hrankinc₀, trivial⟩
  have hhop : get16 b (i + 8) = config.minHoprankinc := get16_of_holds ⟨hhop₁, hhop₀, trivial⟩
  have hocp : get16 b (i + 10) = ocp := get16_of_holds ⟨hocp₁, hocp₀, trivial⟩
  have hunit : get16 b (i + 14) = config.lifetimeUnit := get16_of_holds ⟨hunit₁, hunit₀, trivial⟩
  have hconf : parseDagConf b i 16 = some { config with ocp } := by
    simp only [Nat.add_assoc, Nat.reduceAdd] at hdoubl hmin hredund hlifetime
    rw [parseDagConf, if_neg (by decide), hrankinc, hhop, hocp, hunit, hdoubl, hmin, hredund,
      hlifetime]
  constructor
  · rw [dioOptionLength_of_header htype (by decide) hlen]
    rfl
  · simp only [parseDioOption, htype]
    rw [if_neg (by decide), if_neg (by decide), if_pos trivial, hconf]
    rfl

/-- The prefix information is read as it was written. -/
lemma parse_prefixOption {i : ℕ} {p : RplPrefix} (hp : p.length > 0)
    (h : Holds b i (Node.prefixOption p)) (dio : Dio) :
    dioOptionLength b i = 32 ∧
      parseDioOption b i 32 dio = some { dio with prefixInfo := some p } := by
  unfold Node.prefixOption at h
  rw [if_pos hp] at h
  obtain ⟨htype, hlen, hlength, hflags, -, -, -, -, hlife₃, hlife₂, hlife₁, hlife₀, -, -, -, -,
    haddr⟩ := h
  have hlifetime : get32 b (i + 8) = p.lifetime :=
    get32_of_holds ⟨hlife₃, hlife₂, hlife₁, hlife₀, trivial⟩
  have haddr : IpAddr.ofBytes (bytesAt b (i + 16) 16) = p.prefixAddr := ofBytes_bytesAt haddr
  have hprefix : parsePrefixInfo b i 32 = some p := by
    simp only [Nat.add_assoc, Nat.reduceAdd] at hlength hflags
    rw [parsePrefixInfo, if_neg (by decide), haddr, hlifetime, hlength, hflags]
  constructor
  · rw [dioOptionLength_of_header htype (by decide) hlen]
    rfl
  · simp only [parseDioOption, htype]
    rw [if_neg (by decide), if_neg (by decide), if_neg (by decide), if_pos trivial, hprefix]
    rfl

/-- The route discovery option that is read from the one written for an extension. -/
def wireRdo (p2p : DagP2p cfg) (vector : List UInt8) : Rdo where
  bothDirections := if p2p.bothDirections ≠ 0 then 0x80 else 0
  hopByHop := if p2p.hopByHop ≠ 0 then 0x40 else 0
  numRoutes := p2p.numRoutes &&& 3
  lifetime := p2p.rdoLifetime &&& 3
  maxRank := p2p.maxRank &&& 0x3f
  target := p2p.target
  addrs := vector

/-- The flags, the number of routes and the compression share a byte. -/
lemma rdoFlags_fields (p2p : DagP2p cfg) {x : UInt8}
    (hx : x = (if p2p.bothDirections ≠ 0 then (0x80 : UInt8) else 0) |||
      (if p2p.hopByHop ≠ 0 then (0x40 : UInt8) else 0) ||| ((p2p.numRoutes <<< 4) &&& 0x30) |||
      (rplP2pRdoCompr &&& 0x0f)) :
    x &&& 0x80 = (if p2p.bothDirections ≠ 0 then (0x80 : UInt8) else 0) ∧
      x &&& 0x40 = (if p2p.hopByHop ≠ 0 then (0x40 : UInt8) else 0) ∧
      (x &&& 0x30) >>> 4 = p2p.numRoutes &&& 3 ∧ ¬x &&& 0x0f < rplP2pRdoCompr := by
  subst hx
  generalize p2p.numRoutes = routes
  split_ifs <;> revert routes <;> refine byte_cases ?_ <;> decide +kernel

/-- The lifetime and the maximum rank share a byte. -/
lemma rdoLimits_fields (lifetime maxRank : UInt8) :
    ((((lifetime <<< 6) &&& 0xc0) ||| (maxRank &&& 0x3f)) &&& 0xc0) >>> 6 = lifetime &&& 3 ∧
      (((lifetime <<< 6) &&& 0xc0) ||| (maxRank &&& 0x3f)) &&& 0x3f = maxRank &&& 0x3f := by
  constructor
  · rw [field_left (by decide)]
    revert lifetime
    exact byte_cases (by decide +kernel)
  · exact field_right (by decide)

/-- A route discovery option is read as it was written, up to the bits that the fields have no
room for. -/
lemma parse_rdoOption {i : ℕ} {p2p : DagP2p cfg} {vector : List UInt8} (hlen : vector.length < 251)
    (h : Holds b i ([rplDioSuboptRouteDiscovery, UInt8.ofNat (2 + (1 + vector.length))] ++
      Node.rdoFields p2p ++ p2p.target :: vector)) {dio : Dio} (hrdo : dio.rdo = none) :
    dioOptionLength b i = 5 + vector.length ∧
      parseDioOption b i (5 + vector.length) dio =
        some { dio with rdo := some (wireRdo p2p vector) } := by
  obtain ⟨htype, hlength, hflags, hlimits, htarget, hvector⟩ := h
  simp only [Nat.add_assoc, Nat.reduceAdd] at hflags hlimits htarget hvector
  obtain ⟨hD, hH, hN, hC⟩ := rdoFlags_fields p2p hflags
  obtain ⟨hL, hR⟩ := rdoLimits_fields p2p.rdoLifetime p2p.maxRank
  rw [← hlimits] at hL hR
  have haddrs : bytesAt b (i + 5) (5 + vector.length - 5) = vector := by
    rw [Nat.add_sub_cancel_left]
    exact bytesAt_of_holds hvector
  constructor
  · rw [dioOptionLength_of_header htype (by decide) hlength,
      UInt8.toNat_ofNat_of_lt' (show _ < 256 by omega)]
    omega
  · have hparse : parseRdo b i (5 + vector.length) = some (wireRdo p2p vector) := by
      rw [parseRdo, if_neg (by omega), if_neg hC, hD, hH, hN, hL, hR, htarget, haddrs]
      rfl
    simp only [parseDioOption, htype]
    rw [if_neg (by decide), if_neg (by decide), if_neg (by decide), if_neg (by decide),
      if_pos trivial, if_neg (by simp [hrdo]), hparse]
    rfl

/-! ## The metric container option -/

/-- One round of the loop over the containers of an option; all that are written are six bytes
long. -/
lemma parseMetricContainers_step {fuel stop j : ℕ} {dio dio' : Dio} (hj : j < stop)
    (hlen : b (j + 3) = 2) (hparse : parseMetricContainer b j dio = some dio') :
    parseMetricContainers b stop (fuel + 1) j dio =
      parseMetricContainers b stop fuel (j + 6) dio' := by
  rw [parseMetricContainers, if_pos hj, hparse]
  simp only [hlen]
  rfl

lemma parseMetricContainers_end {fuel stop j : ℕ} {dio : Dio} (hj : stop ≤ j) :
    parseMetricContainers b stop fuel j dio = some dio := by
  cases fuel with
  | zero => rfl
  | succ fuel => rw [parseMetricContainers, if_neg (by omega)]

/-- The container that is read from a constraint that was written. -/
def wireConstr (c : MetricContainer) : MetricContainer where
  type := c.type
  flags := ((c.flags >>> 1) <<< 1) ||| (((c.aggr <<< 4) ||| c.prec) >>> 7)
  aggr := (((c.aggr <<< 4) ||| c.prec) >>> 4) &&& 0x3
  prec := ((c.aggr <<< 4) ||| c.prec) &&& 0xf
  length := 2
  obj := c.obj

/-- The flag that tells a constraint from a metric is not the lowest one, which is lost. -/
lemma constr_flag (flags : UInt8) :
    ((flags >>> 1) <<< 1) &&& rplDagMcFlagC = flags &&& rplDagMcFlagC := by
  revert flags
  exact byte_cases (by decide +kernel)

/-- A constraint is read as a constraint, or as a metric if its flag says so. -/
lemma parse_constrBytes {j : ℕ} {c : MetricContainer} {bytes : List UInt8}
    (hbytes : Node.constrBytes c = some bytes) (h : Holds b j bytes) (dio : Dio) :
    bytes.length = 6 ∧ b (j + 3) = 2 ∧ parseMetricContainer b j dio =
      some (if c.flags &&& rplDagMcFlagC ≠ 0 then { dio with constr := some (wireConstr c) }
        else { dio with mc := wireConstr c }) := by
  unfold Node.constrBytes at hbytes
  split_ifs at hbytes with htype
  cases hbytes
  obtain ⟨hj, hflags, hprec, hlen, hobj₁, hobj₀, -⟩ := h
  have hobj : get16 b (j + 4) = c.obj := get16_of_holds ⟨hobj₁, hobj₀, trivial⟩
  simp only [Nat.add_assoc, Nat.reduceAdd] at hprec hlen
  have hread : readMetricContainer b j (get16 b (j + 4)) = wireConstr c := by
    simp only [readMetricContainer, hj, hflags, hprec, hlen, hobj, wireConstr]
  have hetx : b j = rplDagMcEtx := hj.trans htype
  refine ⟨rfl, hlen, ?_⟩
  rw [parseMetricContainer, hflags, constr_flag, hread]
  split_ifs <;> rfl

/-- A metric that an objective function fills in is read as a metric. -/
lemma parse_mcBytes {j : ℕ} {mc : MetricContainer} {bytes : List UInt8}
    (hbytes : Node.mcBytes mc = some bytes) (hflags : mc.flags = rplDagMcFlagP)
    (h : Holds b j bytes) (dio : Dio) :
    bytes.length = 6 ∧ b (j + 3) = 2 ∧
      ∃ mc', parseMetricContainer b j dio = some { dio with mc := mc' } := by
  unfold Node.mcBytes at hbytes
  simp only at hbytes
  split_ifs at hbytes with hetx henergy
  · cases hbytes
    obtain ⟨hj, hflag, -, hlen, -⟩ := h
    simp only [Nat.add_assoc, Nat.reduceAdd] at hlen
    refine ⟨rfl, hlen, readMetricContainer b j (get16 b (j + 4)), ?_⟩
    rw [parseMetricContainer, hflag, hflags, if_neg (by decide), if_pos (hj.trans hetx)]
  · cases hbytes
    obtain ⟨hj, hflag, -, hlen, -⟩ := h
    simp only [Nat.add_assoc, Nat.reduceAdd] at hlen
    refine ⟨rfl, hlen, readMetricContainer b j (MetricContainer.energyObj (b (j + 4)) (b (j + 5))), ?_⟩
    rw [parseMetricContainer, hflag, hflags, if_neg (by decide), if_neg (by rw [hj]; exact hetx),
      if_pos (hj.trans henergy)]

/-- What a constraint that was written does to the DIO that is read. -/
def withConstr (c : MetricContainer) (dio : Dio) : Dio :=
  if c.type = rplDagMcNone then dio
  else if c.flags &&& rplDagMcFlagC ≠ 0 then { dio with constr := some (wireConstr c) }
  else { dio with mc := wireConstr c }

/-- A DIO without its options. -/
def Dio.head (dio : Dio) : Dio :=
  { dio with
    dodagConfig := none
    routeInfo := none
    prefixInfo := none
    mc := .zero
    rdo := none
    constr := none }

lemma head_withConstr (c : MetricContainer) (dio : Dio) : (withConstr c dio).head = dio.head := by
  unfold withConstr
  split_ifs <;> rfl

/-- An option with one container. -/
lemma parse_oneContainer {i : ℕ} {bytes : List UInt8} {dio dio' : Dio}
    (h : Holds b i ([rplOptionDagMetricContainer, 6] ++ bytes))
    (hcontainer : b (i + 2 + 3) = 2 ∧ parseMetricContainer b (i + 2) dio = some dio') :
    dioOptionLength b i = 8 ∧ parseDioOption b i 8 dio = some dio' := by
  obtain ⟨htype, hlen, -⟩ := h
  refine ⟨dioOptionLength_of_header htype (by decide) hlen, ?_⟩
  simp only [parseDioOption, htype]
  rw [if_pos trivial, if_neg (by decide),
    parseMetricContainers_step (by omega) hcontainer.1 hcontainer.2,
    parseMetricContainers_end (by omega)]

/-- An option with a metric and a constraint. -/
lemma parse_twoContainers {i : ℕ} {bytes : List UInt8} {dio dio' dio'' : Dio}
    (h : Holds b i ([rplOptionDagMetricContainer, 12] ++ bytes))
    (hfirst : b (i + 2 + 3) = 2 ∧ parseMetricContainer b (i + 2) dio = some dio')
    (hsecond : b (i + 8 + 3) = 2 ∧ parseMetricContainer b (i + 8) dio' = some dio'') :
    dioOptionLength b i = 14 ∧ parseDioOption b i 14 dio = some dio'' := by
  obtain ⟨htype, hlen, -⟩ := h
  refine ⟨dioOptionLength_of_header htype (by decide) hlen, ?_⟩
  simp only [parseDioOption, htype]
  rw [if_pos trivial, if_neg (by decide), parseMetricContainers_step (by omega) hfirst.1 hfirst.2,
    parseMetricContainers_step (by omega) hsecond.1 hsecond.2,
    parseMetricContainers_end (by omega)]

/-- The metric container option, if there is one, is read container by container; it says nothing
about the rest of the DIO. -/
lemma parse_mcOption {metric : Bool} {mc c : MetricContainer} {bytes : List UInt8} {i : ℕ}
    (hbytes : Node.mcOption metric mc c = some bytes)
    (hflags : metric = true → mc.flags = rplDagMcFlagP) (h : Holds b i bytes) (dio : Dio) :
    (bytes = [] ∧ c.type = rplDagMcNone) ∨
      (bytes.length = 8 ∨ bytes.length = 14) ∧ dioOptionLength b i = bytes.length ∧
      ∃ mc', parseDioOption b i bytes.length dio = some (withConstr c { dio with mc := mc' }) := by
  unfold Node.mcOption at hbytes
  cases metric with
  | false =>
      simp only [Bool.false_eq_true, if_false] at hbytes
      by_cases hnone : c.type = rplDagMcNone
      · rw [if_pos hnone] at hbytes
        cases hbytes
        exact .inl ⟨rfl, hnone⟩
      · right
        rw [if_neg hnone] at hbytes
        obtain ⟨cbytes, hc, rfl⟩ := Option.map_eq_some_iff.mp hbytes
        obtain ⟨hclen, hc₂, hcparse⟩ := parse_constrBytes hc h.2.2 dio
        have hone := parse_oneContainer h ⟨hc₂, hcparse⟩
        have hlen : ([rplOptionDagMetricContainer, 6] ++ cbytes).length = 8 := by
          rw [List.length_append, hclen]
          rfl
        simp only [hlen, withConstr, if_neg hnone]
        exact ⟨.inl trivial, hone.1, dio.mc, hone.2⟩
  | true =>
      right
      cases hm : Node.mcBytes mc with
      | none =>
          rw [hm] at hbytes
          cases hbytes
      | some m =>
          simp only [hm, if_true] at hbytes
          by_cases hnone : c.type = rplDagMcNone
          · rw [if_pos hnone] at hbytes
            cases hbytes
            obtain ⟨hmlen, hm₂, mc', hparse⟩ := parse_mcBytes hm (hflags rfl) h.2.2 dio
            have hone := parse_oneContainer h ⟨hm₂, hparse⟩
            have hlen : ([rplOptionDagMetricContainer, 6] ++ m).length = 8 := by
              rw [List.length_append, hmlen]
              rfl
            simp only [hlen, withConstr, if_pos hnone]
            exact ⟨.inl trivial, hone.1, mc', hone.2⟩
          · rw [if_neg hnone] at hbytes
            obtain ⟨cbytes, hc, rfl⟩ := Option.map_eq_some_iff.mp hbytes
            rw [List.append_assoc] at h ⊢
            have hparts : Holds b (i + 2) m ∧ Holds b (i + 2 + m.length) cbytes :=
              holds_append.mp h.2.2
            obtain ⟨hmlen, hm₂, mc', hmparse⟩ := parse_mcBytes hm (hflags rfl) hparts.1 dio
            rw [hmlen] at hparts
            obtain ⟨hclen, hc₂, hcparse⟩ := parse_constrBytes hc hparts.2 { dio with mc := mc' }
            have htwo := parse_twoContainers h ⟨hm₂, hmparse⟩ ⟨hc₂, hcparse⟩
            have hlen : ([rplOptionDagMetricContainer, 12] ++ (m ++ cbytes)).length = 14 := by
              rw [List.length_append, List.length_append, hmlen, hclen]
              rfl
            simp only [hlen, withConstr, if_neg hnone]
            exact ⟨.inr trivial, htwo.1, mc', htwo.2⟩

/-! ## The message -/

namespace Node

variable {s s' : Node cfg} {d : cfg.DagRef}

/-- What sending a DIO for the DAG `d` keeps. -/
structure Sends (d : cfg.DagRef) (s s' : Node cfg) : Prop where
  dag : ∃ mc dtsnOut, s'.dagTable d = { s.dagTable d with mc, dtsnOut }
  dagP2pTable : s'.dagP2pTable = s.dagP2pTable
  srcRouteAddrMemb : s'.srcRouteAddrMemb = s.srcRouteAddrMemb
  addrList : s'.addrList = s.addrList

namespace Sends
variable {s'' : Node cfg}

lemma refl (d : cfg.DagRef) (s : Node cfg) : Sends d s s :=
  ⟨⟨(s.dagTable d).mc, (s.dagTable d).dtsnOut, rfl⟩, rfl, rfl, rfl⟩

lemma trans (h : Sends d s s') (h' : Sends d s' s'') : Sends d s s'' := by
  obtain ⟨mc, dtsnOut, hdag⟩ := h.dag
  obtain ⟨mc', dtsnOut', hdag'⟩ := h'.dag
  exact ⟨⟨mc', dtsnOut', by rw [hdag', hdag]⟩, h'.dagP2pTable.trans h.dagP2pTable,
    h'.srcRouteAddrMemb.trans h.srcRouteAddrMemb, h'.addrList.trans h.addrList⟩

end Sends

lemma countDtsn_sends (s : Node cfg) (d : cfg.DagRef) :
    Sends d s (s.countDtsn d) ∧ (s.countDtsn d).randState = s.randState := by
  unfold countDtsn
  split_ifs
  · exact ⟨⟨⟨_, _, by rw [modifyDag_dagTable, Function.update_self]⟩, rfl, rfl, rfl⟩, rfl⟩
  · exact ⟨.refl d s, rfl⟩

/-- A metric container that is written has the flags that the objective functions give it. -/
lemma refreshMetric_sends (s : Node cfg) (of : ObjectiveFunction) (d : cfg.DagRef) :
    Sends d s (s.refreshMetric of d) ∧ (s.refreshMetric of d).randState = s.randState ∧
      dioBase ((s.refreshMetric of d).dagTable d) = dioBase (s.dagTable d) ∧
      ((s.dagTable d).mc.type ≠ rplDagMcNone →
        ∀ m, mcBytes ((s.refreshMetric of d).dagTable d).mc = some m →
          ((s.refreshMetric of d).dagTable d).mc.flags = rplDagMcFlagP) := by
  unfold refreshMetric
  split_ifs with hnone
  · exact ⟨.refl d s, rfl, rfl, fun h => (h hnone).elim⟩
  · have hdag : (s.updateMetricContainer of d).dagTable d = { s.dagTable d with
        mc := ((s.updateMetricContainer of d).dagTable d).mc } := by
      simp [updateMetricContainer]
    refine ⟨⟨⟨_, _, hdag⟩, rfl, rfl, rfl⟩, rfl, by rw [hdag]; rfl, fun _ m hm => ?_⟩
    simp only [updateMetricContainer, modifyDag_dagTable, Function.update_self] at hm ⊢
    cases of with
    | etx =>
        unfold etxMetricContainer
        cases cfg.dagMc <;> rfl
    | of0 =>
        -- this objective function leaves no metric to write
        cases hm

lemma chooseRoute_sends (s : Node cfg) (e : cfg.P2pRef) :
    ∃ rand, (s.chooseRoute e).2 = { s with randState := rand } := by
  unfold chooseRoute
  simp only
  split_ifs
  · exact ⟨_, rfl⟩
  · exact ⟨s.randState, rfl⟩

/-- The choice depends on the cached routes and the random number only. -/
lemma chooseRoute_congr (h : s'.dagP2pTable = s.dagP2pTable) (hrand : s'.randState = s.randState)
    (e : cfg.P2pRef) : (s'.chooseRoute e).1 = (s.chooseRoute e).1 := by
  have hcached : s'.cachedRoutes e = s.cachedRoutes e := by simp only [cachedRoutes, h]
  have hdrawn : s'.randomRand.1 = s.randomRand.1 := by simp only [randomRand, hrand]
  simp only [chooseRoute, hcached]
  split_ifs
  · show s'.randomRand.1.toNat / _ = s.randomRand.1.toNat / _
    rw [hdrawn]
  · rfl

/-- The route discovery option of a DIO has the addresses of a cached route. -/
lemma dioRdo_eq_ok {e : cfg.P2pRef} {rdo : List UInt8} (h : s.dioRdo d e = .ok (rdo, s')) :
    (∃ rand, s' = { s with randState := rand }) ∧
      ∃ i, i.val = (s.chooseRoute e).1 ∧ s'.writeRdo d e (s'.routeAddrs d e i) = .ok rdo := by
  have hchoose := chooseRoute_sends s e
  unfold dioRdo at h
  simp only at h
  split_ifs at h with hr
  obtain ⟨option, hoption, heq⟩ := bind_eq_ok.mp h
  cases heq
  exact ⟨hchoose, ⟨_, hr⟩, rfl, hoption⟩

/-- What stands behind the metric container option of a DIO that was sent in the state `s`, with
`s'` the state after it. -/
inductive DioTail (s s' : Node cfg) (d : cfg.DagRef) : List UInt8 → Prop
  | global : (s'.dagTable d).mop ≠ rplMopP2pRouteDiscovery →
      DioTail s s' d (prefixOption (s'.dagTable d).prefixInfo)
  | p2p {e : cfg.P2pRef} {i : Fin rplP2pMaxPartialRoutes} {rdo : List UInt8} :
      (s'.dagTable d).mop = rplMopP2pRouteDiscovery → (s'.dagTable d).p2p = some e →
      i.val = (s.chooseRoute e).1 → s'.writeRdo d e (s'.routeAddrs d e i) = .ok rdo →
      DioTail s s' d rdo

lemma dioTail_eq_ok {of : ObjectiveFunction} {tail : List UInt8}
    (h : s.dioTail d of = .ok (tail, s')) :
    (∃ rand, s' = { s with randState := rand }) ∧ ∃ rest, DioTail s s' d rest ∧
      tail = confOption (s'.dagTable d).config of.ocp ++ rest := by
  unfold dioTail at h
  simp only at h
  split_ifs at h with hmop
  · obtain ⟨e, he, h⟩ := bind_eq_ok.mp h
    obtain ⟨⟨rdo, s₁⟩, hrdo, h⟩ := bind_eq_ok.mp h
    cases h
    obtain ⟨⟨rand, rfl⟩, i, hi, hwrite⟩ := dioRdo_eq_ok hrdo
    exact ⟨⟨rand, rfl⟩, rdo, .p2p hmop (deref_eq_ok.mp he) hi hwrite, rfl⟩
  · cases h
    exact ⟨⟨_, rfl⟩, _, .global hmop, rfl⟩

/-- **A DIO that was sent**, in its parts. -/
structure SentDio (s s' : Node cfg) (d : cfg.DagRef) (payload : List UInt8) : Prop where
  sends : Sends d s s'
  parts : ∃ of metric constr mc rest, (s'.dagTable d).of = some of ∧
    s'.dioConstr d = .ok constr ∧ mcOption metric (s'.dagTable d).mc constr = some mc ∧
    (metric = true → (s'.dagTable d).mc.flags = rplDagMcFlagP) ∧ DioTail s s' d rest ∧
    payload = dioBase (s'.dagTable d) ++
      (mc ++ (confOption (s'.dagTable d).config of.ocp ++ rest))

lemma exists_mcBytes {mc c : MetricContainer} {bytes : List UInt8}
    (h : mcOption true mc c = some bytes) : ∃ m, mcBytes mc = some m := by
  cases hm : mcBytes mc with
  | none => simp [mcOption, hm] at h
  | some m => exact ⟨m, rfl⟩

lemma dioOutput_sent {ucAddr : Option IpAddr} {packet : Packet}
    (h : s.dioOutput d ucAddr = .ok (some packet, s')) : SentDio s s' d packet.payload := by
  unfold dioOutput at h
  obtain ⟨suppressed, -, h⟩ := bind_eq_ok.mp h
  split_ifs at h
  · cases h
  obtain ⟨of, hof, h⟩ := bind_eq_ok.mp h
  obtain ⟨constr, hconstr, h⟩ := bind_eq_ok.mp h
  split at h
  · cases h
  rename_i mc hmc
  obtain ⟨⟨tail, s₃⟩, htail, h⟩ := bind_eq_ok.mp h
  cases h
  obtain ⟨hcount, hcountRand⟩ := countDtsn_sends s d
  obtain ⟨hrefresh, hrefreshRand, hbase, hflags⟩ := refreshMetric_sends (s.countDtsn d) of d
  obtain ⟨⟨rand, rfl⟩, rest, hrest, rfl⟩ := dioTail_eq_ok htail
  have hsends := hcount.trans hrefresh
  refine ⟨⟨hsends.dag, hsends.dagP2pTable, hsends.srcRouteAddrMemb, hsends.addrList⟩, of, _, constr,
    mc, rest, ?_, hconstr, hmc, ?_, ?_, ?_⟩
  · obtain ⟨_, _, hdag⟩ := hrefresh.dag
    show (((s.countDtsn d).refreshMetric of d).dagTable d).of = some of
    rw [hdag]
    exact deref_eq_ok.mp hof
  · intro hmetric
    obtain ⟨m, hm⟩ := exists_mcBytes (hmetric ▸ hmc)
    exact hflags (of_decide_eq_true hmetric) m hm
  · cases hrest with
    | global hmop => exact .global hmop
    | p2p hmop he hi hwrite =>
        refine .p2p hmop he (hi.trans ?_) hwrite
        exact chooseRoute_congr hsends.dagP2pTable (hrefreshRand.trans hcountRand) _
  · -- the base object is written before the metric is brought up to date
    show dioBase ((s.countDtsn d).dagTable d) ++ mc ++ (_ ++ rest) =
      dioBase (((s.countDtsn d).refreshMetric of d).dagTable d) ++ (mc ++ (_ ++ rest))
    rw [hbase, List.append_assoc]

/-! ## Reading it -/

lemma writeRdo_eq_ok {e : cfg.P2pRef} {addrs rdo : List UInt8}
    (h : s.writeRdo d e addrs = .ok rdo) :
    ∃ vector, s.rdoVector d e addrs = .ok vector ∧
      rdo = [rplDioSuboptRouteDiscovery, UInt8.ofNat (2 + (1 + vector.length))] ++
        rdoFields (s.dagP2pTable e) ++ (s.dagP2pTable e).target :: vector := by
  unfold writeRdo at h
  obtain ⟨vector, hvector, h⟩ := bind_eq_ok.mp h
  cases h
  exact ⟨vector, hvector, rfl⟩

lemma rdoVector_length {e : cfg.P2pRef} {addrs vector : List UInt8}
    (h : s.rdoVector d e addrs = .ok vector) : vector.length ≤ addrs.length + 1 := by
  unfold rdoVector at h
  obtain ⟨intermediate, -, h⟩ := bind_eq_ok.mp h
  split_ifs at h
  · obtain ⟨ownAddr, -, h⟩ := bind_eq_ok.mp h
    cases h
    simp
  · cases h
    omega

/-- The lists of partial routes, which link blocks of the pool, have no block twice. -/
def LinkedRoutes (s : Node cfg) : Prop := ∀ e i, ((s.dagP2pTable e).partialRoutes i).Nodup

instance (s : Node cfg) : Decidable s.LinkedRoutes :=
  inferInstanceAs (Decidable (∀ e i, ((s.dagP2pTable e).partialRoutes i).Nodup))

/-- The partial routes that may be sent for the DAG `d` are no longer than the pool. -/
def ShortRoutes (s : Node cfg) (d : cfg.DagRef) : Prop :=
  ∀ e i, (s.dagTable d).p2p = some e → (s.routeAddrs d e i).length ≤ rplMaxSrcRouteAddrEntries

lemma LinkedRoutes.short (h : s.LinkedRoutes) (d : cfg.DagRef) : s.ShortRoutes d := by
  intro e i _
  have hlen : ((s.dagP2pTable e).partialRoutes i).length ≤ rplMaxSrcRouteAddrEntries := by
    have hcard := (h e i).length_le_card
    rwa [Fintype.card_fin] at hcard
  simp only [routeAddrs]
  split_ifs
  · exact Nat.zero_le _
  · simpa [partialRoute] using hlen

/-- What is read behind the DODAG configuration. -/
inductive TailRead (s s' : Node cfg) (d : cfg.DagRef) (dio : Dio) : Dio → Prop
  | global : (s'.dagTable d).mop ≠ rplMopP2pRouteDiscovery →
      (s'.dagTable d).prefixInfo.length = 0 → TailRead s s' d dio dio
  | announced : (s'.dagTable d).mop ≠ rplMopP2pRouteDiscovery →
      (s'.dagTable d).prefixInfo.length > 0 →
      TailRead s s' d dio { dio with prefixInfo := some (s'.dagTable d).prefixInfo }
  | p2p {e : cfg.P2pRef} {i : Fin rplP2pMaxPartialRoutes} {vector : List UInt8} :
      (s'.dagTable d).mop = rplMopP2pRouteDiscovery → (s'.dagTable d).p2p = some e →
      i.val = (s.chooseRoute e).1 → s'.rdoVector d e (s'.routeAddrs d e i) = .ok vector →
      TailRead s s' d dio { dio with rdo := some (wireRdo (s'.dagP2pTable e) vector) }

lemma parse_tail {rest : List UInt8} {i : ℕ} {dio : Dio} (fuel : ℕ) (h : DioTail s s' d rest)
    (hshort : s'.ShortRoutes d) (hrest : Holds b i rest) (hn : n = i + rest.length)
    (hrdo : dio.rdo = none) :
    rest.length ≤ 32 ∧
      ∃ dio', parseDioOptions b n (fuel + 1) i dio = some dio' ∧ TailRead s s' d dio dio' := by
  cases h with
  | global hmop =>
      by_cases hlen : (s'.dagTable d).prefixInfo.length > 0
      · have hopt := parse_prefixOption hlen hrest dio
        have hlength : (prefixOption (s'.dagTable d).prefixInfo).length = 32 := by
          simp [prefixOption, hlen, set32, (s'.dagTable d).prefixInfo.prefixAddr.length_u8]
        rw [hlength] at hn ⊢
        refine ⟨le_rfl, _, ?_, .announced hmop hlen⟩
        rw [parseDioOptions_step hopt.1 (by omega) (by omega) hopt.2,
          parseDioOptions_end (by omega)]
      · have hempty : prefixOption (s'.dagTable d).prefixInfo = [] := by
          rw [prefixOption, if_neg hlen]
        rw [hempty, List.length_nil] at hn ⊢
        have hzero : (s'.dagTable d).prefixInfo.length = 0 := by
          simpa [UInt8.pos_iff_ne_zero] using hlen
        exact ⟨Nat.zero_le _, _, parseDioOptions_end (by omega), .global hmop hzero⟩
  | @p2p e k rdo hmop he hi hwrite =>
      obtain ⟨vector, hvector, rfl⟩ := writeRdo_eq_ok hwrite
      have hlen : vector.length ≤ 21 :=
        (rdoVector_length hvector).trans (Nat.succ_le_succ (hshort _ _ he))
      have hopt := parse_rdoOption (by omega) hrest hrdo
      have hlength : ([rplDioSuboptRouteDiscovery, UInt8.ofNat (2 + (1 + vector.length))] ++
          rdoFields (s'.dagP2pTable e) ++ (s'.dagP2pTable e).target :: vector).length =
          5 + vector.length := by
        simp [rdoFields]
        omega
      rw [hlength] at hn ⊢
      refine ⟨by omega, _, ?_, .p2p hmop he hi hvector⟩
      rw [parseDioOptions_step hopt.1 (by omega) (by omega) hopt.2,
        parseDioOptions_end (by omega)]

/-- What is read from the message of a DIO, up to the metric. -/
structure DioRead (s s' : Node cfg) (d : cfg.DagRef) (dio' : Dio) : Prop where
  parts : ∃ of constr mc, (s'.dagTable d).of = some of ∧ s'.dioConstr d = .ok constr ∧
    TailRead s s' d
      { withConstr constr { dioOfBase (s'.dagTable d) with mc := mc } with
        dodagConfig := some { (s'.dagTable d).config with ocp := of.ocp } } dio'

lemma withConstr_rdo (c : MetricContainer) (dio : Dio) : (withConstr c dio).rdo = dio.rdo := by
  unfold withConstr
  split_ifs <;> rfl

/-- The first option of a DIO is the metric container option, if there is one. -/
lemma parse_mcFirst {metric : Bool} {mc c : MetricContainer} {bytes : List UInt8} {i : ℕ}
    (hbytes : mcOption metric mc c = some bytes)
    (hflags : metric = true → mc.flags = rplDagMcFlagP) (h : Holds b i bytes)
    (hn : i + bytes.length ≤ n) (dio : Dio) (fuel : ℕ) :
    bytes.length ≤ 14 ∧ ∃ mc' fuel', fuel ≤ fuel' ∧
      parseDioOptions b n (fuel + 1) i dio =
        parseDioOptions b n fuel' (i + bytes.length) (withConstr c { dio with mc := mc' }) := by
  rcases parse_mcOption hbytes hflags h dio with ⟨rfl, hnone⟩ | ⟨hlen, hlength, mc', hparse⟩
  · refine ⟨Nat.zero_le _, dio.mc, fuel + 1, Nat.le_succ fuel, ?_⟩
    rw [withConstr, if_pos hnone]
    rfl
  · refine ⟨by omega, mc', fuel, le_rfl, ?_⟩
    exact parseDioOptions_step hlength (by omega) hn hparse

/-- **A DIO is read as it was written.** -/
theorem parse_sentDio {payload : List UInt8} (h : SentDio s s' d payload)
    (hshort : s'.ShortRoutes d) (hb : Holds b 0 payload) :
    payload.length ≤ 86 ∧ ∃ dio, DioRead s s' d dio ∧
      parseDio b cfg (UInt8.ofNat payload.length) =
        if cfg.senslab ∧ ¬senslabDagId (s'.dagTable d).dagId then none else some dio := by
  obtain ⟨-, of, metric, constr, mc, rest, hof, hconstr, hmc, hflags, htail, rfl⟩ := h
  obtain ⟨hbase, hopts⟩ := holds_append.mp hb
  have hbaseLen : (dioBase (s'.dagTable d)).length = 24 := by
    simp [dioBase, set16, (s'.dagTable d).dagId.length_u8]
  rw [hbaseLen] at hopts
  obtain ⟨hmcHolds, hopts⟩ := holds_append.mp hopts
  obtain ⟨hconf, hrest⟩ := holds_append.mp hopts
  have hconfLen : (confOption (s'.dagTable d).config of.ocp).length = 16 := rfl
  have hlen : (dioBase (s'.dagTable d) ++
      (mc ++ (confOption (s'.dagTable d).config of.ocp ++ rest))).length =
      24 + (mc.length + (16 + rest.length)) := by
    rw [List.length_append, List.length_append, List.length_append, hbaseLen, hconfLen]
  rw [hlen]
  generalize hn : 24 + (mc.length + (16 + rest.length)) = n at *
  rw [hconfLen] at hrest
  obtain ⟨k, hk⟩ : ∃ k, n = k + 3 := ⟨n - 3, by omega⟩
  obtain ⟨hmcLen, mc', fuel, hfuel, hmcStep⟩ := parse_mcFirst (n := n) hmc hflags hmcHolds (by omega)
    (dioOfBase (s'.dagTable d)) (k + 2)
  obtain ⟨k', rfl⟩ : ∃ k', fuel = k' + 2 := ⟨fuel - 2, by omega⟩
  have hconfParse := parse_confOption hconf
    (withConstr constr { dioOfBase (s'.dagTable d) with mc := mc' })
  have hrdo := withConstr_rdo constr { dioOfBase (s'.dagTable d) with mc := mc' }
  obtain ⟨hrestLen, dio, hdio, hread⟩ := parse_tail k' htail hshort hrest
    (show n = 24 + mc.length + 16 + rest.length by omega)
    (show (Dio.rdo { withConstr constr { dioOfBase (s'.dagTable d) with mc := mc' } with
      dodagConfig := some { (s'.dagTable d).config with ocp := of.ocp } }) = none from hrdo)
  refine ⟨by omega, dio, ⟨of, constr, mc', hof, hconstr, hread⟩, ?_⟩
  have hparse : parseDioOptions b n n 24 (dioOfBase (s'.dagTable d)) = some dio := by
    rw [← hdio]
    nth_rewrite 2 [hk]
    rw [hmcStep, parseDioOptions_step hconfParse.1 (by omega) (by omega) hconfParse.2]
  have hnat : (UInt8.ofNat n).toNat = n := UInt8.toNat_ofNat_of_lt' (show n < 256 by omega)
  simp only [parseDio, parseDioBase_of_holds hbase, hnat, hparse]
  rfl

/-! ## Joining from a DIO -/

/-- A DAG that is joined has the grounded flag and the preference of the DIO. -/
def HasFlags (dio : Dio) (dag : Dag cfg) : Prop :=
  dag.joined = true → dag.grounded = dio.grounded ∧ dag.preference = dio.preference

lemma HasFlags.congr {dio : Dio} {dag dag' : Dag cfg} (h : HasFlags dio dag)
    (hjoined : dag'.joined = dag.joined) (hgrounded : dag'.grounded = dag.grounded)
    (hpreference : dag'.preference = dag.preference) : HasFlags dio dag' := by
  unfold HasFlags
  rw [hjoined, hgrounded, hpreference]
  exact h

lemma HasFlags.of_quiet {dio : Dio} (h : HasFlags dio (s.dagTable d)) (hq : Quiet s s') :
    HasFlags dio (s'.dagTable d) := by
  have hjoined := congrArg Dag.joined (hq.dag d)
  have hgrounded := congrArg Dag.grounded (hq.dag d)
  have hpreference := congrArg Dag.preference (hq.dag d)
  exact h.congr hjoined hgrounded hpreference

lemma HasFlags.of_p2pFrame {dio : Dio} (h : HasFlags dio (s.dagTable d)) (hp : P2pFrame s s') :
    HasFlags dio (s'.dagTable d) := by
  have hjoined := congrArg Dag.joined (hp.dag d)
  have hgrounded := congrArg Dag.grounded (hp.dag d)
  have hpreference := congrArg Dag.preference (hp.dag d)
  exact h.congr hjoined hgrounded hpreference

lemma enterDag_flags (s : Node cfg) (of : ObjectiveFunction) (d : cfg.DagRef)
    (p : cfg.ParentRef) (from_ : IpAddr) (dio : Dio) :
    HasFlags dio ((s.enterDag of d p from_ dio).dagTable d) := by
  unfold enterDag
  refine HasFlags.of_quiet ?_ (rplSetDefaultRoute_quiet _ d _)
  refine HasFlags.of_quiet ?_ (rplResetDioTimer_quiet _ d true)
  intro _
  simp [updateMetricContainer]

lemma joinP2p_flags (dio : Dio) (h : HasFlags dio (s.dagTable d)) :
    Ensures (s.joinP2p d dio) fun s' => HasFlags dio (s'.dagTable d) := by
  have hfree : HasFlags dio ((s.rplFreeDag d).dagTable d) := by
    unfold rplFreeDag HasFlags
    simp
  unfold joinP2p
  refine .bind (fun _ _ => trivial) fun rdo _ => ?_
  simp only
  split_ifs
  · exact .ok hfree
  · split
    · exact .ok hfree
    · rename_i e s₁ halloc
      have hs₁ : s₁.dagTable = s.dagTable := by
        unfold rplP2pAllocDag at halloc
        split at halloc
        · cases halloc
        · cases halloc
          rfl
      refine .bind (rplP2pUpdateDag_frame _ d dio) fun s₂ hs₂ => ?_
      refine .mono (rplP2pProcessTarget_frame _ d) fun s₃ hs₃ => ?_
      refine HasFlags.of_p2pFrame ?_ hs₃
      refine HasFlags.of_p2pFrame (s := s₂) ?_ (.modifyP2p s₂ e fun _ => ⟨rfl, rfl⟩)
      refine HasFlags.of_p2pFrame ?_ hs₂
      unfold HasFlags at h ⊢
      simpa [hs₁] using h

/-- Only the slot of `d` came into use, and if it is joined it has the flags of the DIO. -/
structure Enters (dio : Dio) (s s' : Node cfg) (d : cfg.DagRef) : Prop where
  other : ∀ d', d' ≠ d → (s'.slots.slot d').used = (s.slots.slot d').used
  flags : HasFlags dio (s'.dagTable d)

/-- A slot that was taken and not joined. -/
lemma Enters.of_unjoined {dio : Dio} {f : DagSlot cfg → DagSlot cfg}
    (hs' : s'.slots = s.slots.modify d f) (hf : (f (s.slots.slot d)).joined = false) :
    Enters dio s s' d := by
  refine ⟨fun d' hd => by rw [hs']; simp [hd], fun hjoined => ?_⟩
  have hslot : (s'.slots.slot d).joined = false := by
    rw [hs']
    simpa using hf
  rw [slots_slot, Dag.slot_joined, hjoined] at hslot
  cases hslot

/-- A DAG that is joined anew has the grounded flag and the preference of the DIO. -/
lemma joinDag_flags (s : Node cfg) (from_ : IpAddr) (dio : Dio) :
    Ensures (s.joinDag from_ dio) fun s' => ∀ d, (s.dagTable d).used = false →
      (s'.dagTable d).used = true → HasFlags dio (s'.dagTable d) := by
  unfold joinDag
  split
  · exact .ok fun d hunused hused => by rw [hunused] at hused; cases hused
  rename_i d s₁ halloc
  have hs₁ := (rplAllocDag_slots halloc).2
  refine Ensures.mono (P := fun s' => Enters dio s s' d) ?_ fun s' hs' d' hunused hused => ?_
  · split
    · rename_i s₂ hadd
      have hs₂ := (rplAddParent_frame s₁ d dio from_).slots
      rw [hadd, hs₁] at hs₂
      exact .ok (.of_unjoined hs₂ rfl)
    rename_i p s₂ hadd
    have hs₂ := (rplAddParent_frame s₁ d dio from_).slots
    rw [hadd, hs₁] at hs₂
    split
    · exact .ok (.of_unjoined hs₂ rfl)
    rename_i s₃ hconfig
    obtain ⟨of?, config, hs₃, -⟩ := joinConfig_slots hconfig
    refine .bind (fun _ _ => trivial) fun of _ => ?_
    have henter := enterDag_flags (s₃.joinPrefix d dio) of d p from_ dio
    have hs₄ := enterDag_slots (s₃.joinPrefix d dio) of d p from_ dio
    rw [joinPrefix_slots, hs₃, hs₂, Slots.modify_modify, Slots.modify_modify] at hs₄
    split_ifs with hmop
    · refine .mono ((joinP2p_slots _ d dio).and (joinP2p_flags dio henter)) fun s₅ hs₅ => ?_
      refine ⟨fun d' hd => ?_, hs₅.2⟩
      rcases hs₅.1 with hfree | ⟨e, -, hjoin⟩
      · rw [hfree, hs₄]
        simp [hd]
      · rw [hjoin, hs₄]
        simp [hd]
    · refine .ok ⟨fun d' hd => ?_, ?_⟩
      · rw [slots_modifyDag _ d (g := fun slot => { slot with p2p := none }) fun _ => rfl, hs₄]
        simp [hd]
      · rw [modifyDag_dagTable, Function.update_self]
        exact henter.congr rfl rfl rfl
  · by_cases hd : d' = d
    · rw [hd]
      exact hs'.flags
    · have hother := hs'.other d' hd
      simp only [slots_slot, Dag.slot_used, hused, hunused] at hother
      cases hother

/-! ## The round trip -/

lemma TailRead.head {dio dio' : Dio} (h : TailRead s s' d dio dio') : dio'.head = dio.head := by
  cases h <;> rfl

lemma DioRead.head {dio : Dio} (h : DioRead s s' d dio) :
    dio.head = dioOfBase (s'.dagTable d) := by
  obtain ⟨of, constr, mc, -, -, htail⟩ := h.parts
  rw [htail.head]
  exact head_withConstr constr _

/-- The DODAG configuration has the objective code point of the objective function. -/
lemma DioRead.dodagConfig {dio : Dio} (h : DioRead s s' d dio) :
    ∃ of, (s'.dagTable d).of = some of ∧
      dio.dodagConfig = some { (s'.dagTable d).config with ocp := of.ocp } := by
  obtain ⟨of, constr, mc, hof, -, htail⟩ := h.parts
  refine ⟨of, hof, ?_⟩
  cases htail <;> rfl

lemma DioRead.prefixInfo {dio : Dio} (h : DioRead s s' d dio)
    (hmop : (s'.dagTable d).mop ≠ rplMopP2pRouteDiscovery) :
    dio.prefixInfo = if (s'.dagTable d).prefixInfo.length > 0 then
      some (s'.dagTable d).prefixInfo else none := by
  obtain ⟨of, constr, mc, -, -, htail⟩ := h.parts
  have hnone : (withConstr constr { dioOfBase (s'.dagTable d) with mc := mc }).prefixInfo =
      none := by
    unfold withConstr
    split_ifs <;> rfl
  cases htail with
  | global _ hlen =>
      rw [hlen, if_neg (by decide)]
      exact hnone
  | announced _ hlen => rw [if_pos hlen]
  | p2p hp2p => exact (hmop hp2p).elim

/-- The DIO says what the DAG holds. -/
structure DioAgrees (dag : Dag cfg) (dio : Dio) : Prop where
  instanceId : dio.instanceId = dag.instanceId
  version : dio.version = dag.version
  rank : dio.rank = dag.rank
  grounded : dio.grounded ≠ 0 ↔ dag.grounded ≠ 0
  mop : dio.mop = dag.mop
  preference : dio.preference = dag.preference
  dtsn : dio.dtsn = dag.dtsnOut
  dagId : dio.dagId = dag.dagId
  dodagConfig : dio.dodagConfig = some dag.config
  prefixInfo : dag.mop ≠ rplMopP2pRouteDiscovery →
    dio.prefixInfo = if dag.prefixInfo.length > 0 then some dag.prefixInfo else none

/-- A node that joins from the DIO copies the grounded flag and the preference of the DAG. -/
def JoinAgrees (dag : Dag cfg) (dio : Dio) : Prop :=
  ∀ (cfg' : Config) (r r' : Node cfg') (from_ : IpAddr), r.joinDag from_ dio = .ok r' →
    ∀ d, (r.dagTable d).used = false → (r'.dagTable d).used = true → (r'.dagTable d).joined = true →
      ((r'.dagTable d).grounded ≠ 0 ↔ dag.grounded ≠ 0) ∧ (r'.dagTable d).preference = dag.preference

/-- What a DAG has to be like for its DIO to say it: the grounded flag and the preference are not
transmitted. -/
structure Transmitted (dag : Dag cfg) : Prop where
  grounded : dag.grounded = 0
  preference : dag.preference = 0
  /-- the mode of operation has three bits -/
  mop : dag.mop < 8
  /-- the configuration is that of the objective function -/
  ocp : ∀ of, dag.of = some of → dag.config.ocp = of.ocp
  /-- the DODAGID is acceptable -/
  senslab : cfg.senslab = true → senslabDagId dag.dagId = true

/-- The mode of operation of a DIO, in the byte that it shares with flag and preference. -/
lemma mop_bits (mop : UInt8) :
    (((mop <<< 3) &&& 0x38) >>> 3 = mop ↔ mop < 8) ∧ (mop <<< 3) &&& 0x07 = 0 ∧
      (mop < 8 → (mop <<< 3) &&& 0x80 = 0) := by
  revert mop
  exact byte_cases (by decide +kernel)

/-- **Round trip of DIOs.**  The DIO that is read from the message of a DAG says what the DAG holds,
and a node that joins from it agrees with the DAG, if and only if the DAG is not grounded and has no
preference. -/
theorem dio_roundtrip {ucAddr : Option IpAddr} {packet : Packet}
    (h : s.dioOutput d ucAddr = .ok (some packet, s')) (hlists : s.LinkedRoutes)
    (hb : Holds b 0 packet.payload) :
    (∃ dio, parseDio b cfg (UInt8.ofNat packet.payload.length) = some dio ∧
        DioAgrees (s'.dagTable d) dio ∧ JoinAgrees (s'.dagTable d) dio) ↔
      Transmitted (s.dagTable d) := by
  have hsent := dioOutput_sent h
  have hlists' : s'.LinkedRoutes := by
    unfold LinkedRoutes
    rw [hsent.sends.dagP2pTable]
    exact hlists
  obtain ⟨-, dio, hread, hparse⟩ := parse_sentDio hsent (hlists'.short d) hb
  obtain ⟨mc, dtsnOut, hdag⟩ := hsent.sends.dag
  have hhead := hread.head
  obtain ⟨of, hof, hconfig⟩ := hread.dodagConfig
  obtain ⟨hmop, hpreference, hgrounded⟩ := mop_bits (s'.dagTable d).mop
  have hmopRead : dio.mop = (((s'.dagTable d).mop <<< 3) &&& 0x38) >>> 3 := congrArg Dio.mop hhead
  have hpreferenceRead : dio.preference = ((s'.dagTable d).mop <<< 3) &&& 0x07 :=
    congrArg Dio.preference hhead
  have hgroundedRead : dio.grounded = ((s'.dagTable d).mop <<< 3) &&& 0x80 :=
    congrArg Dio.grounded hhead
  have hsame : Transmitted (s.dagTable d) ↔ Transmitted (s'.dagTable d) := by
    rw [hdag]
    exact ⟨fun h => ⟨h.1, h.2, h.3, h.4, h.5⟩, fun h => ⟨h.1, h.2, h.3, h.4, h.5⟩⟩
  rw [hsame]
  constructor
  · rintro ⟨dio', hdio', hagrees, -⟩
    rw [hparse] at hdio'
    split_ifs at hdio' with hsenslab
    cases hdio'
    have hlt : (s'.dagTable d).mop < 8 := hmop.mp (hmopRead.symm.trans hagrees.mop)
    refine ⟨?_, ?_, hlt, ?_, ?_⟩
    · have hzero : dio.grounded = 0 := hgroundedRead.trans (hgrounded hlt)
      have hiff := hagrees.grounded
      rw [hzero] at hiff
      simpa using hiff
    · rw [← hagrees.preference, hpreferenceRead, hpreference]
    · intro of' hof'
      obtain rfl : of = of' := Option.some.inj (hof.symm.trans hof')
      have hconf := Option.some.inj (hagrees.dodagConfig.symm.trans hconfig)
      exact congrArg DodagConfig.ocp hconf
    · intro hsens
      simpa [hsens] using hsenslab
  · intro htransmitted
    have hzero : dio.grounded = 0 := hgroundedRead.trans (hgrounded htransmitted.mop)
    have hflags : (dio.grounded ≠ 0 ↔ (s'.dagTable d).grounded ≠ 0) ∧
        dio.preference = (s'.dagTable d).preference := by
      rw [hzero, htransmitted.grounded, hpreferenceRead, hpreference, htransmitted.preference]
      exact ⟨Iff.rfl, rfl⟩
    refine ⟨dio, ?_, ?_, ?_⟩
    · rw [hparse, if_neg]
      rintro ⟨hsens, hid⟩
      exact hid (htransmitted.senslab hsens)
    · exact
        { instanceId := congrArg Dio.instanceId hhead
          version := congrArg Dio.version hhead
          rank := congrArg Dio.rank hhead
          grounded := hflags.1
          mop := hmopRead.trans (hmop.mpr htransmitted.mop)
          preference := hflags.2
          dtsn := congrArg Dio.dtsn hhead
          dagId := congrArg Dio.dagId hhead
          dodagConfig := by rw [hconfig, ← htransmitted.ocp of hof]
          prefixInfo := hread.prefixInfo }
    · intro cfg' r r' from_ hjoin d' hunused hused hjoined
      obtain ⟨hg, hp⟩ := joinDag_flags r from_ dio r' hjoin d' hunused hused hjoined
      rw [hg, hp]
      exact hflags

/-- The DIO of a root that is not grounded. -/
theorem dio_roundtrip_root :
    ∃ (s s' : Node .default) (packet : Packet), s.dioOutput 0 none = .ok (some packet, s') ∧
      ∃ dio, parseDio (fun k => packet.payload.getD k 0) .default
          (UInt8.ofNat packet.payload.length) = some dio ∧
        DioAgrees (s'.dagTable 0) dio ∧ JoinAgrees (s'.dagTable 0) dio := by
  let observe : Node .default → Bool × Bool × Except Fault Bool := fun s =>
    (decide s.LinkedRoutes,
      decide ((s.dagTable 0).grounded = 0 ∧ (s.dagTable 0).preference = 0 ∧
        (s.dagTable 0).mop < 8 ∧ (s.dagTable 0).of = some .etx ∧ (s.dagTable 0).config.ocp = 1),
      (s.dioOutput 0 none).map fun r => r.1.isSome)
  obtain ⟨s, -, hs⟩ := exists_ok_of_map (show
    ((boot 2).rplSetRoot (nodeAddr 2)).map observe = .ok (true, true, .ok true) by decide +kernel)
  simp only [observe, Prod.mk.injEq, decide_eq_true_eq] at hs
  obtain ⟨hlists, ⟨hgrounded, hpreference, hmop, hof, hocp⟩, hsent⟩ := hs
  obtain ⟨⟨packet?, s'⟩, houtput, hsome⟩ := exists_ok_of_map hsent
  obtain ⟨packet, rfl⟩ := Option.isSome_iff_exists.mp hsome
  refine ⟨s, s', packet, houtput, (dio_roundtrip houtput hlists (holds_getD _ 0)).mpr ?_⟩
  refine ⟨hgrounded, hpreference, hmop, fun of h => ?_, fun h => ?_⟩
  · obtain rfl : .etx = of := Option.some.inj (hof.symm.trans h)
    exact hocp
  · cases h

/-- A node that joined a grounded DAG says that it is not grounded. -/
theorem not_dio_roundtrip :
    ¬∀ (cfg : Config) (s s' : Node cfg) (d : cfg.DagRef) (ucAddr : Option IpAddr) (packet : Packet)
      (b : ℕ → UInt8), s.dioOutput d ucAddr = .ok (some packet, s') → s.LinkedRoutes →
      Holds b 0 packet.payload →
      ∃ dio, parseDio b cfg (UInt8.ofNat packet.payload.length) = some dio ∧
        DioAgrees (s'.dagTable d) dio ∧ JoinAgrees (s'.dagTable d) dio := by
  intro hall
  let dio : Dio := { globalDio 1 with grounded := 0x80 }
  let observe : Node .default → Bool × Except Fault (Option (Bool × Option UInt8)) := fun s =>
    (decide s.LinkedRoutes, (s.dioOutput 0 none).map fun r => r.1.map fun packet =>
      (decide ((r.2.dagTable 0).grounded ≠ 0),
        (parseDio (fun k => packet.payload.getD k 0) .default
          (UInt8.ofNat packet.payload.length)).map Dio.grounded))
  obtain ⟨s, -, hs⟩ := exists_ok_of_map (show
    ((boot 2).rplProcessDio (nodeLinkLocal 1) dio).map observe =
      .ok (true, .ok (some (true, some 0))) by decide +kernel)
  simp only [observe, Prod.mk.injEq, decide_eq_true_eq] at hs
  obtain ⟨hlists, hsent⟩ := hs
  obtain ⟨⟨packet?, s'⟩, houtput, hpacket⟩ := exists_ok_of_map hsent
  obtain ⟨packet, rfl, heq⟩ := Option.map_eq_some_iff.mp hpacket
  simp only [Prod.mk.injEq, decide_eq_true_eq] at heq
  obtain ⟨dio', hdio', hagrees, -⟩ := hall _ _ _ _ _ _ _ houtput hlists (holds_getD _ 0)
  rw [hdio', Option.map_some, Option.some.injEq] at heq
  exact hagrees.grounded.mpr heq.1 heq.2

end Node
end Contiki

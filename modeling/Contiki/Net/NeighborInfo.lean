import Contiki.Lib.Memb
import Contiki.Mac.Csma

/-!
# Link metrics of the neighbours

`neighbor-info.c` keeps one octet for each neighbour, an estimate of the number of transmissions a
packet takes in sixteenths, and 0 for a neighbour nothing is known about.  Every report of the MAC
layer moves the estimate a tenth of the way to what the report says.  The estimate lives in a table
of attributes (`neighbor-attr.c`) that is shared by all neighbours.

The scaling and the average are computed in wider arithmetic and stored in the octet, so the
estimate follows the reports only as long as what is computed fits: `fits_iff` says for one report
when it does, and `tracks_iff` for a run of them.
-/

namespace Contiki

/-! ## The table of neighbours -/

/-- The table of neighbours with the one attribute of `neighbor-info.c`.  The neighbours on the
list are blocks of the pool, and the index of a neighbour is the number of its block. -/
structure NeighborInfo (A : Type*) (n : ℕ) where
  /-- The pool with the address of each neighbour. -/
  neighborAddrMem : Memb A n
  neighborAddrs : List (Fin n)
  /-- The metric of the neighbour with this index. -/
  etx : Fin n → UInt8
  /-- `neighbor_info_subscribe` was called, which registers the attribute. -/
  subscribed : Bool
  /-- The calls made to the subscriber. -/
  calls : List (A × UInt8)

/-- A report of the MAC layer. -/
inductive LinkReport (A : Type*)
  /-- `neighbor_info_packet_sent` with the receiver of the packet. -/
  | sent (dest : A) (status : MacStatus) (numtx : ℤ)
  /-- `neighbor_info_packet_received` with the sender of the packet and its link quality. -/
  | received (src : A) (lqi : UInt16)

namespace LinkReport
variable {A : Type*}

/-- The neighbour a report is about. -/
def neighbour : LinkReport A → A
  | sent dest _ _ => dest
  | received src _ => src

/-- The reports that enter a neighbour that is not in the table. -/
def enters : LinkReport A → Bool
  | sent _ status _ => status = .ok
  | received _ _ => true

end LinkReport

/-- `ETX_LIMIT`, which is also `ETX_NOACK_PENALTY`. -/
def etxLimit : UInt8 := 15

/-- `NEIGHBOR_INFO_ETX2FIX` in the arithmetic of `int`. -/
def etx2fix (etx : UInt8) : ℕ := etx.toNat * 16

/-- What is stored in a `link_metric_t`. -/
def linkMetric (etx : ℤ) : UInt8 := UInt8.ofNat (etx % 256).toNat

/-- The metric of a packet that was received with this link quality. -/
def lqiToEtx (lqi : UInt8) : UInt8 :=
  if lqi = 37 then 1
  else if lqi ≥ 85 then 1
  else if lqi ≥ 70 then UInt8.ofNat (1024 / (48 * lqi.toNat - 3140))
  else 10

/-- The metric of the packet a report is about, in whole transmissions as the code holds it. -/
def LinkReport.packetMetric {A : Type*} : LinkReport A → Option UInt8
  | .sent _ .ok numtx | .sent _ .collision numtx => some (linkMetric numtx)
  | .sent _ .noack _ => some etxLimit
  | .sent _ _ _ => none
  | .received _ lqi => some (lqiToEtx lqi.toUInt8)

/-- The metric of the packet a report is about, in sixteenths and as an integer without bounds. -/
def LinkReport.metric {A : Type*} : LinkReport A → ℤ
  | .sent _ .ok numtx | .sent _ .collision numtx => 16 * numtx
  | .sent _ _ _ => 16 * etxLimit.toNat
  | .received _ lqi => 16 * (lqiToEtx lqi.toUInt8).toNat

namespace NeighborInfo
variable {A : Type*} [DecidableEq A] {n : ℕ} (s : NeighborInfo A n)

def neighborAddrGet (addr : A) : Option (Fin n) :=
  s.neighborAddrs.find? fun item => s.neighborAddrMem.mem item = addr

/-- The attribute of a new neighbour is cleared if it is registered, and else left as it is. -/
def setAttr (index : Fin n) : NeighborInfo A n :=
  if s.subscribed then { s with etx := Function.update s.etx index 0 } else s

def neighborAttrHasNeighbor (addr : A) : Bool := (s.neighborAddrGet addr).isSome

def neighborAttrAddNeighbor (addr : A) : ℤ × NeighborInfo A n :=
  if s.neighborAttrHasNeighbor addr then (0, s)
  else
    match s.neighborAddrMem.alloc with
    | none => (-1, s)
    | some (item, mem) =>
      let s := { s with
        neighborAddrMem := mem.write item addr
        neighborAddrs := listPush s.neighborAddrs item }
      (1, s.setAttr item)

def neighborAttrGetData (addr : A) : Option UInt8 := (s.neighborAddrGet addr).map s.etx

def neighborAttrSetData (addr : A) (data : UInt8) : Bool × NeighborInfo A n :=
  let s :=
    if (s.neighborAddrGet addr).isNone then
      (s.neighborAttrAddNeighbor addr).2
    else s
  match s.neighborAddrGet addr with
  | some attr => (true, { s with etx := Function.update s.etx attr data })
  | none => (false, s)

/-- The metric that `update_metric` stores in the place of `metric`, for a packet with metric
`packetMetric` in sixteenths.  The average is computed in unsigned arithmetic of at least sixteen
bits, which hold it. -/
def newMetric (metric : Option UInt8) (packetMetric : ℕ) : UInt8 :=
  match metric with
  | none => UInt8.ofNat packetMetric
  | some recorded =>
    if recorded = 0 then UInt8.ofNat packetMetric
    else UInt8.ofNat ((recorded.toNat * 90 + packetMetric % 2 ^ 16 * (100 - 90)) / 100)

/-- The metric a new one is compared with to see whether the subscriber is called. -/
def recordedMetric (metric : Option UInt8) : UInt8 :=
  match metric with
  | none => UInt8.ofNat (etx2fix etxLimit)
  | some recorded => if recorded = 0 then UInt8.ofNat (etx2fix etxLimit) else recorded

def updateMetric (dest : A) (packetMetric : UInt8) : NeighborInfo A n :=
  let metric := s.neighborAttrGetData dest
  let new := newMetric metric (etx2fix packetMetric)
  if s.neighborAttrHasNeighbor dest then
    let s := (s.neighborAttrSetData dest new).2
    if new ≠ recordedMetric metric ∧ s.subscribed then
      { s with calls := s.calls ++ [(dest, new)] }
    else s
  else s

def addNeighbor (addr : A) : NeighborInfo A n := (s.neighborAttrAddNeighbor addr).2

def neighborInfoPacketSent (null dest : A) (status : MacStatus) (numtx : ℤ) : NeighborInfo A n :=
  if dest = null then s
  else
    match status with
    | .ok => (s.addNeighbor dest).updateMetric dest (linkMetric numtx)
    | .collision => s.updateMetric dest (linkMetric numtx)
    | .noack => s.updateMetric dest etxLimit
    | .deferred | .err | .errFatal => s

def neighborInfoPacketReceived (null src : A) (lqi : UInt16) : NeighborInfo A n :=
  if src = null then s
  else (s.addNeighbor src).updateMetric src (lqiToEtx lqi.toUInt8)

def neighborInfoGetMetric (addr : A) : UInt8 :=
  (s.neighborAttrGetData addr).getD (UInt8.ofNat (etx2fix etxLimit))

/-- One report is taken in. -/
def report (null : A) : LinkReport A → NeighborInfo A n
  | .sent dest status numtx => s.neighborInfoPacketSent null dest status numtx
  | .received src lqi => s.neighborInfoPacketReceived null src lqi

/-- The table before the first report. -/
def initial (addr : A) (subscribed : Bool) : NeighborInfo A n :=
  { neighborAddrMem := .fresh addr, neighborAddrs := [], etx := fun _ => 0, subscribed, calls := [] }

/-! ## What a report says and what becomes of it -/

/-- The table is in order: its neighbours are the blocks in use, with different addresses, and
while the attribute is not registered the free blocks hold 0. -/
structure Wf : Prop where
  owned : s.neighborAddrMem.OwnedBy fun _ : Unit => s.neighborAddrs
  distinct : ∀ b ∈ s.neighborAddrs, ∀ c ∈ s.neighborAddrs,
    s.neighborAddrMem.mem b = s.neighborAddrMem.mem c → b = c
  fresh : s.subscribed = false → ∀ b, s.neighborAddrMem.count b = 0 → s.etx b = 0

/-- The metric stored for a neighbour, 0 for one that is not in the table. -/
def stored (addr : A) : UInt8 := (s.neighborAttrGetData addr).getD 0

variable {s} {a b : A} {i : Fin n}

lemma neighborAddrGet_eq_some (h : s.Wf) :
    s.neighborAddrGet a = some i ↔ i ∈ s.neighborAddrs ∧ s.neighborAddrMem.mem i = a := by
  unfold neighborAddrGet
  constructor
  · intro hfind
    exact ⟨List.mem_of_find?_eq_some hfind, by simpa using List.find?_some hfind⟩
  · rintro ⟨hi, ha⟩
    cases hfind : s.neighborAddrs.find? fun item => s.neighborAddrMem.mem item = a with
    | none => exact absurd ha (by simpa using List.find?_eq_none.mp hfind i hi)
    | some j =>
        have hj : s.neighborAddrMem.mem j = a := by simpa using List.find?_some hfind
        rw [h.distinct j (List.mem_of_find?_eq_some hfind) i hi (hj.trans ha.symm)]

lemma neighborAddrGet_eq_none :
    s.neighborAddrGet a = none ↔ ∀ i ∈ s.neighborAddrs, s.neighborAddrMem.mem i ≠ a := by
  simp [neighborAddrGet]

/-- A new neighbour is entered with metric 0, whether the attribute is registered or not. -/
lemma addNeighbor_eq (h : s.Wf) (ha : s.neighborAddrGet a = none) {mem : Memb A n}
    (halloc : s.neighborAddrMem.alloc = some (i, mem)) :
    s.addNeighbor a = { s with
      neighborAddrMem := mem.write i a
      neighborAddrs := listPush s.neighborAddrs i
      etx := Function.update s.etx i 0 } := by
  have hzero := (Memb.alloc_eq_some halloc).1
  cases hsub : s.subscribed with
  | true => simp [addNeighbor, neighborAttrAddNeighbor, neighborAttrHasNeighbor, ha, halloc, setAttr, hsub]
  | false =>
      have hetx : Function.update s.etx i 0 = s.etx := by
        rw [Function.update_eq_self_iff, h.fresh hsub i hzero]
      simp [addNeighbor, neighborAttrAddNeighbor, neighborAttrHasNeighbor, ha, halloc, setAttr, hsub,
        hetx]

/-- A neighbour that is known is not entered again. -/
lemma addNeighbor_of_some (ha : s.neighborAddrGet a = some i) : s.addNeighbor a = s := by
  simp [addNeighbor, neighborAttrAddNeighbor, neighborAttrHasNeighbor, ha]

lemma addNeighbor_of_exhausted (ha : s.neighborAddrGet a = none)
    (hfull : s.neighborAddrMem.Exhausted) : s.addNeighbor a = s := by
  simp [addNeighbor, neighborAttrAddNeighbor, neighborAttrHasNeighbor, ha,
    Memb.alloc_eq_none.mpr hfull]

lemma Wf.addNeighbor (h : s.Wf) (a : A) : (s.addNeighbor a).Wf := by
  cases ha : s.neighborAddrGet a with
  | some i => rwa [addNeighbor_of_some ha]
  | none =>
      cases halloc : s.neighborAddrMem.alloc with
      | none => rwa [addNeighbor_of_exhausted ha (Memb.alloc_eq_none.mp halloc)]
      | some r =>
          obtain ⟨i, mem⟩ := r
          rw [addNeighbor_eq h ha halloc]
          have hnodup := h.owned.parts.nodup ()
          obtain ⟨hzero, rfl⟩ := Memb.alloc_eq_some halloc
          have hnew : i ∉ s.neighborAddrs := h.owned.fresh_notMem hzero ()
          have hold : ∀ b ∈ s.neighborAddrs, b ≠ i := fun b hb hbi => hnew (hbi ▸ hb)
          have hnone := neighborAddrGet_eq_none.mp ha
          refine ⟨?_, ?_, ?_⟩
          · refine (h.owned.alloc_give halloc () (nodup_listPush hnodup i)
              fun _ => mem_listPush).congr rfl fun _ => ?_
            rw [Function.update_self]
          · intro b hb c hc hbc
            rcases mem_listPush.mp hb with hb' | rfl <;> rcases mem_listPush.mp hc with hc' | rfl
            · simp only [Memb.write_mem, Function.update_of_ne (hold b hb'),
                Function.update_of_ne (hold c hc')] at hbc
              exact h.distinct b hb' c hc' hbc
            · simp only [Memb.write_mem, Function.update_of_ne (hold b hb'),
                Function.update_self] at hbc
              exact absurd hbc (hnone b hb')
            · simp only [Memb.write_mem, Function.update_of_ne (hold c hc'),
                Function.update_self] at hbc
              exact absurd hbc.symm (hnone c hc')
            · rfl
          · intro hsub b hb
            by_cases hbi : b = i
            · simp [hbi]
            · have hb' : s.neighborAddrMem.count b = 0 := by simpa [hbi] using hb
              simpa [hbi] using h.fresh hsub b hb'

/-- After an attempt to enter a neighbour, it is in the table if it was or there was room. -/
lemma neighborAttrGetData_addNeighbor_self (h : s.Wf) (a : A) :
    (s.addNeighbor a).neighborAttrGetData a =
      if (s.neighborAddrGet a).isNone ∧ s.neighborAddrMem.Exhausted then none
      else some (s.stored a) := by
  have hwf := h.addNeighbor a
  cases ha : s.neighborAddrGet a with
  | some i => simp [addNeighbor_of_some ha, neighborAttrGetData, stored, ha]
  | none =>
      cases halloc : s.neighborAddrMem.alloc with
      | none =>
          have hfull := Memb.alloc_eq_none.mp halloc
          simp [addNeighbor_of_exhausted ha hfull, neighborAttrGetData, ha, hfull]
      | some r =>
          obtain ⟨i, mem⟩ := r
          have hroom : ¬s.neighborAddrMem.Exhausted := by
            rw [← Memb.alloc_eq_none, halloc]
            exact Option.some_ne_none _
          rw [addNeighbor_eq h ha halloc] at hwf ⊢
          have hget := (neighborAddrGet_eq_some hwf (a := a) (i := i)).mpr
            ⟨mem_listPush.mpr (.inr rfl), by simp [Memb.write_mem]⟩
          simp [neighborAttrGetData, hget, stored, ha, hroom]

/-- Entering one neighbour leaves the metrics of the others. -/
lemma neighborAttrGetData_addNeighbor_of_ne (h : s.Wf) (hab : b ≠ a) :
    (s.addNeighbor a).neighborAttrGetData b = s.neighborAttrGetData b := by
  have hwf := h.addNeighbor a
  cases ha : s.neighborAddrGet a with
  | some i => rw [addNeighbor_of_some ha]
  | none =>
      cases halloc : s.neighborAddrMem.alloc with
      | none => rw [addNeighbor_of_exhausted ha (Memb.alloc_eq_none.mp halloc)]
      | some r =>
          obtain ⟨i, mem⟩ := r
          rw [addNeighbor_eq h ha halloc] at hwf ⊢
          obtain ⟨hzero, rfl⟩ := Memb.alloc_eq_some halloc
          have hold : ∀ j ∈ s.neighborAddrs, j ≠ i := fun j hj hji =>
            h.owned.fresh_notMem hzero () (hji ▸ hj)
          cases hb : s.neighborAddrGet b with
          | some j =>
              obtain ⟨hj, hmem⟩ := (neighborAddrGet_eq_some h).mp hb
              have hget := (neighborAddrGet_eq_some hwf (a := b) (i := j)).mpr
                ⟨mem_listPush.mpr (.inl hj), by simpa [Memb.write_mem, hold j hj] using hmem⟩
              simp [neighborAttrGetData, hget, hb, hold j hj]
          | none =>
              have hget := (neighborAddrGet_eq_none (s := { s with
                  neighborAddrMem := Memb.write { s.neighborAddrMem with
                    count := Function.update s.neighborAddrMem.count i
                      (s.neighborAddrMem.count i + 1) } i a
                  neighborAddrs := listPush s.neighborAddrs i
                  etx := Function.update s.etx i 0 }) (a := b)).mpr (by
                intro j hj
                rcases mem_listPush.mp hj with hj | rfl
                · simpa [Memb.write_mem, hold j hj] using neighborAddrGet_eq_none.mp hb j hj
                · simpa [Memb.write_mem] using hab.symm)
              simp [neighborAttrGetData, hget, hb]

/-- What is stored for a neighbour in the table takes the place of its metric. -/
lemma updateMetric_eq (ha : s.neighborAddrGet a = some i) (pm : UInt8) :
    ∃ calls, s.updateMetric a pm = { s with
      etx := Function.update s.etx i (newMetric (some (s.etx i)) (etx2fix pm))
      calls := calls } := by
  unfold updateMetric
  simp only [neighborAttrHasNeighbor, ha, Option.isSome_some, if_true, neighborAttrSetData,
    Option.isNone_some, Bool.false_eq_true, if_false, neighborAttrGetData, Option.map_some]
  split
  · exact ⟨_, rfl⟩
  · exact ⟨_, rfl⟩

lemma updateMetric_of_none (ha : s.neighborAddrGet a = none) (pm : UInt8) :
    s.updateMetric a pm = s := by
  simp [updateMetric, neighborAttrHasNeighbor, ha]

lemma Wf.updateMetric (h : s.Wf) (a : A) (pm : UInt8) : (s.updateMetric a pm).Wf := by
  cases ha : s.neighborAddrGet a with
  | none => rwa [updateMetric_of_none ha]
  | some i =>
      obtain ⟨calls, heq⟩ := updateMetric_eq ha pm
      rw [heq]
      refine ⟨h.owned, h.distinct, fun hsub b hb => ?_⟩
      have hbi : b ≠ i := by
        rintro rfl
        exact h.owned.fresh_notMem hb () ((neighborAddrGet_eq_some h).mp ha).1
      show Function.update s.etx i _ b = 0
      rw [Function.update_of_ne hbi]
      exact h.fresh hsub b hb

lemma neighborAttrGetData_updateMetric_self (a : A) (pm : UInt8) :
    (s.updateMetric a pm).neighborAttrGetData a =
      (s.neighborAttrGetData a).map fun metric => newMetric (some metric) (etx2fix pm) := by
  cases ha : s.neighborAddrGet a with
  | none => simp [updateMetric_of_none ha, neighborAttrGetData, ha]
  | some i =>
      obtain ⟨calls, heq⟩ := updateMetric_eq ha pm
      have hget : (s.updateMetric a pm).neighborAddrGet a = some i := by rw [heq]; exact ha
      rw [neighborAttrGetData, hget, heq]
      simp [neighborAttrGetData, ha]

lemma neighborAttrGetData_updateMetric_of_ne (h : s.Wf) (hab : b ≠ a) (pm : UInt8) :
    (s.updateMetric a pm).neighborAttrGetData b = s.neighborAttrGetData b := by
  cases ha : s.neighborAddrGet a with
  | none => rw [updateMetric_of_none ha]
  | some i =>
      obtain ⟨calls, heq⟩ := updateMetric_eq ha pm
      have hget : (s.updateMetric a pm).neighborAddrGet b = s.neighborAddrGet b := by rw [heq]; rfl
      rw [neighborAttrGetData, hget, neighborAttrGetData, heq]
      cases hb : s.neighborAddrGet b with
      | none => rfl
      | some j =>
          have hji : j ≠ i := by
            rintro rfl
            exact hab (((neighborAddrGet_eq_some h).mp hb).2.symm.trans
              ((neighborAddrGet_eq_some h).mp ha).2)
          simp [hji]

omit [DecidableEq A] in
/-- The table is in order before the first report. -/
lemma wf_initial (addr : A) (subscribed : Bool) :
    (initial addr subscribed : NeighborInfo A n).Wf :=
  ⟨Memb.OwnedBy.fresh addr, fun _ hb => absurd hb List.not_mem_nil, fun _ _ _ => rfl⟩

/-! ## One report -/

variable {null : A} {r : LinkReport A}

/-- A report enters its neighbour, if it does, and then updates its metric, if it says one. -/
lemma report_eq (hnull : r.neighbour ≠ null) :
    s.report null r = match r.packetMetric with
      | none => s
      | some pm => (if r.enters then s.addNeighbor r.neighbour else s).updateMetric r.neighbour pm := by
  rcases r with ⟨dest, status, numtx⟩ | ⟨src, lqi⟩
  · have hdest : dest ≠ null := hnull
    cases status <;> simp [report, neighborInfoPacketSent, hdest, LinkReport.packetMetric,
      LinkReport.enters, LinkReport.neighbour]
  · exact if_neg hnull

/-- A report about no neighbour says nothing. -/
lemma report_of_null (hnull : r.neighbour = null) : s.report null r = s := by
  rcases r with ⟨dest, status, numtx⟩ | ⟨src, lqi⟩
  · exact if_pos hnull
  · exact if_pos hnull

theorem Wf.report (h : s.Wf) (null : A) (r : LinkReport A) : (s.report null r).Wf := by
  by_cases hnull : r.neighbour = null
  · rwa [report_of_null hnull]
  · rw [report_eq hnull]
    cases r.packetMetric with
    | none => exact h
    | some pm =>
        by_cases henters : r.enters = true
        · simpa [henters] using (h.addNeighbor r.neighbour).updateMetric r.neighbour pm
        · simpa [henters] using h.updateMetric r.neighbour pm

/-- A report changes the metric of its neighbour only. -/
theorem neighborAttrGetData_report_of_ne (h : s.Wf) (hb : b ≠ r.neighbour) :
    (s.report null r).neighborAttrGetData b = s.neighborAttrGetData b := by
  by_cases hnull : r.neighbour = null
  · rw [report_of_null hnull]
  · rw [report_eq hnull]
    cases r.packetMetric with
    | none => rfl
    | some pm =>
        by_cases henters : r.enters = true
        · simp only [henters, if_true]
          rw [neighborAttrGetData_updateMetric_of_ne (h.addNeighbor _) hb,
            neighborAttrGetData_addNeighbor_of_ne h hb]
        · simp only [henters, if_false, Bool.false_eq_true]
          rw [neighborAttrGetData_updateMetric_of_ne h hb]

variable (s null r) in
/-- The report is recorded: it is about a neighbour, says a metric, and the neighbour is in the
table or is entered. -/
structure Records : Prop where
  neighbour : r.neighbour ≠ null
  metric : r.packetMetric ≠ none
  found : s.neighborAddrGet r.neighbour ≠ none ∨ r.enters ∧ ¬s.neighborAddrMem.Exhausted

/-- A report that is recorded updates the metric of its neighbour. -/
theorem neighborAttrGetData_report (h : s.Wf) (hrec : s.Records null r) {pm : UInt8}
    (hpm : r.packetMetric = some pm) :
    (s.report null r).neighborAttrGetData r.neighbour =
      some (newMetric (some (s.stored r.neighbour)) (etx2fix pm)) := by
  rw [report_eq hrec.neighbour, hpm]
  simp only [neighborAttrGetData_updateMetric_self]
  by_cases henters : r.enters = true
  · have hroom : ¬((s.neighborAddrGet r.neighbour).isNone ∧ s.neighborAddrMem.Exhausted) := by
      rw [Option.isNone_iff_eq_none]
      rintro ⟨hnone, hfull⟩
      rcases hrec.found with hsome | ⟨-, hroom⟩
      · exact hsome hnone
      · exact hroom hfull
    rw [if_pos henters, neighborAttrGetData_addNeighbor_self h, if_neg hroom, Option.map_some]
  · rw [if_neg henters]
    rcases hrec.found with hsome | ⟨htrue, -⟩
    · obtain ⟨i, hi⟩ := Option.ne_none_iff_exists'.mp hsome
      simp [neighborAttrGetData, stored, hi]
    · exact absurd htrue henters

/-- A report that is not recorded changes no metric. -/
theorem neighborAttrGetData_report_of_not_records (h : s.Wf) (hrec : ¬s.Records null r) (b : A) :
    (s.report null r).neighborAttrGetData b = s.neighborAttrGetData b := by
  by_cases hb : b = r.neighbour
  · by_cases hnull : r.neighbour = null
    · rw [report_of_null hnull]
    · rw [report_eq hnull, hb]
      cases hpm : r.packetMetric with
      | none => rfl
      | some pm =>
          have hmetric : r.packetMetric ≠ none := hpm ▸ Option.some_ne_none pm
          have hnone : s.neighborAddrGet r.neighbour = none :=
            of_not_not fun hsome => hrec ⟨hnull, hmetric, .inl hsome⟩
          have hdata : s.neighborAttrGetData r.neighbour = none := by
            rw [neighborAttrGetData, hnone, Option.map_none]
          simp only [neighborAttrGetData_updateMetric_self, hdata]
          by_cases henters : r.enters = true
          · have hfull : s.neighborAddrMem.Exhausted :=
              of_not_not fun hroom => hrec ⟨hnull, hmetric, .inr ⟨henters, hroom⟩⟩
            rw [if_pos henters, addNeighbor_of_exhausted hnone hfull, hdata, Option.map_none]
          · rw [if_neg henters, hdata, Option.map_none]
  · exact neighborAttrGetData_report_of_ne h hb

/-! ## Estimates that follow the reports -/

/-- The metric that comes after `previous` on a packet with this metric, computed in integers. -/
def exactMetric (previous : UInt8) (metric : ℤ) : ℤ :=
  if previous = 0 then metric else (90 * previous.toNat + 10 * metric) / 100

variable (s null r) in
/-- If the report is recorded, the metric of its neighbour is the exact one, is known, and lies
between the previous one and the one of the packet. -/
def Tracks : Prop :=
  s.Records null r →
    ((s.report null r).stored r.neighbour).toNat = exactMetric (s.stored r.neighbour) r.metric ∧
    (s.report null r).stored r.neighbour ≠ 0 ∧
    min ((s.stored r.neighbour).toNat : ℤ) r.metric ≤ ((s.report null r).stored r.neighbour).toNat ∧
    ((s.report null r).stored r.neighbour).toNat ≤ max ((s.stored r.neighbour).toNat : ℤ) r.metric

variable (s null r) in
/-- If the report is recorded, what it says fits into the octet: the first metric of a neighbour
lies in 1 to 255, and ten of the later ones with ninety of the previous one in 100 to 25599. -/
def Fits : Prop :=
  s.Records null r →
    0 ≤ r.metric ∧
    if s.stored r.neighbour = 0 then 0 < r.metric ∧ r.metric < 256
    else 100 ≤ 90 * ((s.stored r.neighbour).toNat : ℤ) + 10 * r.metric ∧
      90 * ((s.stored r.neighbour).toNat : ℤ) + 10 * r.metric < 25600

omit [DecidableEq A] in
/-- The code holds the metric of a packet reduced to an octet of whole transmissions. -/
lemma etx2fix_packetMetric {pm : UInt8} (hpm : r.packetMetric = some pm) :
    (etx2fix pm : ℤ) = r.metric % 4096 := by
  have hsent (numtx : ℤ) : (etx2fix (linkMetric numtx) : ℤ) = 16 * numtx % 4096 := by
    have hlt : (numtx % 256).toNat < 256 := by omega
    rw [etx2fix, linkMetric, UInt8.toNat_ofNat_of_lt' hlt]
    omega
  have hoctet (x : UInt8) : (etx2fix x : ℤ) = 16 * x.toNat % 4096 := by
    have := x.toNat_lt
    unfold etx2fix
    omega
  rcases r with ⟨dest, status, numtx⟩ | ⟨src, lqi⟩
  · cases status <;> simp only [LinkReport.packetMetric, Option.some.injEq, reduceCtorEq] at hpm <;>
      subst hpm
    · exact hsent numtx
    · exact hsent numtx
    · exact hoctet etxLimit
  · simp only [LinkReport.packetMetric, Option.some.injEq] at hpm
    exact hpm ▸ hoctet _

/-- The average in the octet against the one in the integers. -/
lemma average_iff {previous p x : ℕ} {metric : ℤ} (hp : (p : ℤ) = metric % 4096)
    (hprevious : previous < 256) (hx : x = (previous * 90 + p * 10) / 100 % 256) :
    ((x : ℤ) = (90 * previous + 10 * metric) / 100 ∧ x ≠ 0) ↔
      0 ≤ metric ∧ 100 ≤ 90 * (previous : ℤ) + 10 * metric ∧
        90 * (previous : ℤ) + 10 * metric < 25600 := by
  constructor
  · rintro ⟨heq, hne⟩
    have hnonneg : 0 ≤ metric := by
      by_contra hneg
      obtain rfl | hfar : metric = p - 4096 ∨ metric < -4096 := by omega
      · omega
      · omega
    have hlt : metric < 4096 := by omega
    omega
  · rintro ⟨hnonneg, hlow, hhigh⟩
    have hpm : (p : ℤ) = metric := by omega
    have hoctet : (previous * 90 + p * 10) / 100 < 256 := by omega
    omega

/-- A new metric is exact and known if and only if what is computed fits. -/
lemma newMetric_iff {previous : UInt8} {p : ℕ} {metric : ℤ} (hp : (p : ℤ) = metric % 4096) :
    (((newMetric (some previous) p).toNat : ℤ) = exactMetric previous metric ∧
        newMetric (some previous) p ≠ 0) ↔
      0 ≤ metric ∧
      if previous = 0 then 0 < metric ∧ metric < 256
      else 100 ≤ 90 * (previous.toNat : ℤ) + 10 * metric ∧
        90 * (previous.toNat : ℤ) + 10 * metric < 25600 := by
  have hne (x : UInt8) : x ≠ 0 ↔ x.toNat ≠ 0 := by
    rw [ne_eq, ← UInt8.toNat_inj]
    rfl
  rw [hne]
  by_cases hprevious : previous = 0
  · have hx : (newMetric (some previous) p).toNat = p % 256 := by
      rw [newMetric, if_pos hprevious]
      exact UInt8.toNat_ofNat'
    rw [exactMetric, if_pos hprevious, if_pos hprevious]
    omega
  · have hx : (newMetric (some previous) p).toNat = (previous.toNat * 90 + p * 10) / 100 % 256 := by
      have hmod : p % 2 ^ 16 = p := by omega
      rw [newMetric, if_neg hprevious, hmod]
      exact UInt8.toNat_ofNat'
    rw [exactMetric, if_neg hprevious, if_neg hprevious]
    exact average_iff hp previous.toNat_lt hx

/-- An exact metric lies between the two it is computed from. -/
lemma between_of_exact {previous x : UInt8} {metric : ℤ}
    (h : (x.toNat : ℤ) = exactMetric previous metric) :
    min (previous.toNat : ℤ) metric ≤ x.toNat ∧ x.toNat ≤ max (previous.toNat : ℤ) metric := by
  unfold exactMetric at h
  split at h <;> omega

/-- **One report.**  The estimate follows a report exactly when what is computed fits. -/
lemma fits_iff (h : s.Wf) : s.Tracks null r ↔ s.Fits null r := by
  refine forall_congr' fun hrec => ?_
  obtain ⟨pm, hpm⟩ := Option.ne_none_iff_exists'.mp hrec.metric
  have hstored : (s.report null r).stored r.neighbour =
      newMetric (some (s.stored r.neighbour)) (etx2fix pm) := by
    rw [stored, neighborAttrGetData_report h hrec hpm, Option.getD_some]
  have hiff := @newMetric_iff (s.stored r.neighbour) _ _ (etx2fix_packetMetric hpm)
  rw [hstored, ← hiff]
  constructor
  · rintro ⟨hexact, hne, -⟩
    exact ⟨hexact, hne⟩
  · rintro ⟨hexact, hne⟩
    exact ⟨hexact, hne, between_of_exact hexact⟩

/-! ## Runs of reports -/

variable (null s) in
/-- The table after a sequence of reports. -/
def run (rs : List (LinkReport A)) : NeighborInfo A n := rs.foldl (fun s r => s.report null r) s

lemma Wf.run (h : s.Wf) (null : A) (rs : List (LinkReport A)) : (s.run null rs).Wf := by
  induction rs generalizing s with
  | nil => exact h
  | cons r rs ih => exact ih (h.report null r)

lemma run_append (rs rs' : List (LinkReport A)) :
    s.run null (rs ++ rs') = (s.run null rs).run null rs' := List.foldl_append

/-- A metric that is known stays known while the reports are followed. -/
lemma stored_ne_zero_run (h : s.Wf) {rs : List (LinkReport A)}
    (htracks : ∀ pre r, pre ++ [r] <+: rs → (s.run null pre).Tracks null r) (ha : s.stored a ≠ 0) :
    (s.run null rs).stored a ≠ 0 := by
  induction rs generalizing s with
  | nil => exact ha
  | cons r rs ih =>
      refine ih (h.report null r) (fun pre r' hpre => ?_) ?_
      · exact htracks (r :: pre) r' (List.cons_prefix_cons.mpr ⟨rfl, hpre⟩)
      · by_cases hrec : s.Records null r
        · by_cases har : a = r.neighbour
          · have hstep : s.Tracks null r := htracks [] r ⟨rs, rfl⟩
            exact har ▸ (hstep hrec).2.1
          · rwa [stored, neighborAttrGetData_report_of_ne h har]
        · rwa [stored, neighborAttrGetData_report_of_not_records h hrec]

variable (null s) in
/-- In the whole run each report is followed, and once a report about a neighbour was recorded its
metric is known. -/
structure Follows (rs : List (LinkReport A)) : Prop where
  tracks : ∀ pre r, pre ++ [r] <+: rs → (s.run null pre).Tracks null r
  known : ∀ pre r mid, pre ++ r :: mid <+: rs → (s.run null pre).Records null r →
    (s.run null (pre ++ r :: mid)).stored r.neighbour ≠ 0

/-- **Link metrics.**  In a run of reports every update is exact and between the previous metric
and the one of the packet, and no metric that was recorded is 0 again, if and only if for every
report of the run what is computed fits. -/
theorem follows_iff (h : s.Wf) (rs : List (LinkReport A)) :
    s.Follows null rs ↔ ∀ pre r, pre ++ [r] <+: rs → (s.run null pre).Fits null r := by
  constructor
  · intro hfollows pre r hpre
    exact (fits_iff (h.run null pre)).mp (hfollows.tracks pre r hpre)
  · intro hfits
    have htracks : ∀ pre r, pre ++ [r] <+: rs → (s.run null pre).Tracks null r := fun pre r hpre =>
      (fits_iff (h.run null pre)).mpr (hfits pre r hpre)
    refine ⟨htracks, fun pre r mid hpre hrec => ?_⟩
    have hwf := (h.run null pre).report null r
    have hhead : pre ++ [r] <+: rs :=
      List.IsPrefix.trans ⟨mid, by simp⟩ hpre
    rw [run_append]
    refine stored_ne_zero_run (s := (s.run null pre).report null r) hwf (fun pre' r' hpre' => ?_)
      (htracks pre r hhead hrec).2.1
    have hstep := htracks (pre ++ r :: pre') r' (List.IsPrefix.trans (by simpa using hpre') hpre)
    rwa [run_append] at hstep

/-- What is asked for is the stored metric as long as it is known. -/
lemma neighborInfoGetMetric_eq_stored (ha : s.stored a ≠ 0) :
    s.neighborInfoGetMetric a = s.stored a := by
  unfold stored at ha ⊢
  cases hdata : s.neighborAttrGetData a with
  | none => simp [hdata] at ha
  | some metric => simp [neighborInfoGetMetric, hdata]

/-- In a run that is followed, nobody is told 0 for a neighbour that was recorded. -/
theorem Follows.neighborInfoGetMetric_ne_zero {rs pre mid : List (LinkReport A)}
    (h : s.Follows null rs) (hpre : pre ++ r :: mid <+: rs) (hrec : (s.run null pre).Records null r) :
    (s.run null (pre ++ r :: mid)).neighborInfoGetMetric r.neighbour ≠ 0 := by
  have hknown := h.known pre r mid hpre hrec
  rwa [neighborInfoGetMetric_eq_stored hknown]

/-- Two packets to one neighbour, one to another and one from it. -/
def fewReports : List (LinkReport ℕ) := [.sent 1 .ok 2, .sent 1 .ok 4, .sent 2 .ok 1, .received 2 90]

/-- The metrics that fit are followed. -/
theorem follows_iff_few :
    (initial 0 true : NeighborInfo ℕ 12).Follows 0 fewReports ∧
      ((initial 0 true : NeighborInfo ℕ 12).run 0 fewReports).stored 1 = 35 := by
  refine ⟨(follows_iff (wf_initial 0 true) fewReports).mpr ?_, by decide⟩
  rintro pre r ⟨post, heq⟩ -
  rcases pre with _ | ⟨a, _ | ⟨b, _ | ⟨c, _ | ⟨d, pre⟩⟩⟩⟩
  all_goals first
    | cases heq; decide
    | simpa [fewReports] using congrArg List.length heq

/-- A first packet that took sixteen transmissions leaves its neighbour without a metric. -/
theorem not_follows :
    ¬∀ (s : NeighborInfo ℕ 12) (rs : List (LinkReport ℕ)), s.Wf → s.Follows 0 rs := by
  intro hall
  have hfollows := hall (initial 0 true) [.sent 1 .ok 16] (wf_initial 0 true)
  have hrec : (initial 0 true : NeighborInfo ℕ 12).Records 0 (.sent 1 .ok 16) :=
    ⟨by decide, by decide, .inr ⟨by decide, by decide⟩⟩
  refine hfollows.known [] (.sent 1 .ok 16) [] ⟨[], rfl⟩ hrec ?_
  decide

end NeighborInfo
end Contiki

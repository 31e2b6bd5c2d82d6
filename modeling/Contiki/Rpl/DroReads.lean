import Contiki.Rpl.DioReads
import Contiki.Rpl.DroMessage

/-!
# What `dro_input` reads

`dro_input` with every access to the packet buffer made explicit and in the order of the source.
The route reply is answered by sending the packet buffer once more, so that the answer is only
named here; the process that is told about the reply, and whether anything of the node was written,
are part of the outcome.
-/

namespace Contiki

open Reads

/-- What is sent from the packet buffer when `dro_input` returns. -/
inductive DroReply
  | nothing
  | ack (target : IpAddr)
  | forward
deriving DecidableEq

/-- What `dro_input` does: the packet sent, the process that an event is posted to, whether a DAG, a
route or a source route was written, and the state that is left. -/
structure DroOutcome (cfg : Config) where
  reply : DroReply
  posted : Option ℕ
  written : Bool
  node : Node cfg

/-- The packets that an outcome stands for. -/
def DroOutcome.packets {cfg : Config} (o : DroOutcome cfg) (dst : IpAddr) (dro : Dro) :
    List Packet :=
  match o.reply with
  | .nothing => []
  | .ack target => [⟨uipDs6SelectSrc o.node.addrList target, target, .droAck, dro.ack⟩]
  | .forward => [⟨uipDs6SelectSrc o.node.addrList dst, dst, .dro, dro.forwarded⟩]

namespace Node
variable {cfg : Config} (s : Node cfg)

/-! ## The outcome -/

/-- The stop bit comes upon a DAG that is active: its timer and its lifetime are written. -/
def droStops (stop : Bool) (instanceId : UInt8) (dodagId : IpAddr) : Bool :=
  stop && (s.rplGetDag instanceId (some dodagId)).any fun d =>
    (s.dagTable d).p2p.any fun e => !(s.dagP2pTable e).expired

/-- An entry is written for a route to the target: always for a hop-by-hop route, for which another one
has to make room, and for a source route unless `uip_ds6_src_route_add` has no entry for it. -/
def droWritesRoute (hopByHop : Bool) (target : IpAddr) : Bool :=
  hopByHop || (s.srcRoutingTable.uipDs6SrcRouteAdd target).1.isSome

/-- The outcome at the origin of the discovery. -/
def droOutcomeAtOrigin (dro : Dro) : Except Fault (DroOutcome cfg) :=
  let written := s.droWritesRoute dro.hopByHop dro.target
  let s := s.droStoreRoute dro
  (s.droNotify dro).map fun posted =>
    { reply := if dro.ackRequested then .ack dro.target else .nothing
      posted
      written
      node := s }

/-- The outcome at a node that is not the origin. -/
def droOutcomeAtIntermediate (dro : Dro) : DroOutcome cfg :=
  if dro.rem = 0 ∨ ¬s.isMyAddr (dro.address dro.rem) then ⟨.nothing, none, false, s⟩
  else
    match s.droStoreHop dro with
    | none => ⟨.nothing, none, false, s⟩
    | some s' =>
      ⟨.forward, none, dro.hopByHop && (uipDs6RouteLookup s.routingTable dro.target).isNone, s'⟩

/-- The outcome once the stop bit is evaluated. -/
def droRouteOutcome (dro : Dro) : Except Fault (DroOutcome cfg) :=
  if s.isMyAddr dro.dodagId then s.droOutcomeAtOrigin dro
  else .ok (s.droOutcomeAtIntermediate dro)

/-- The outcome of `dro_input`. -/
def droOutcome (dro : Dro) : Except Fault (DroOutcome cfg) := do
  let s' ← s.droStop dro
  let o ← s'.droRouteOutcome dro
  .ok { o with written := s.droStops dro.stop dro.instanceId dro.dodagId || o.written }

lemma droAtOrigin_eq (dst : IpAddr) (dro : Dro) :
    s.droAtOrigin dro =
      (s.droOutcomeAtOrigin dro).map fun o => (o.packets dst dro, o.node) := by
  rw [droAtOrigin, droOutcomeAtOrigin]
  cases (s.droStoreRoute dro).droNotify dro with
  | error f => rfl
  | ok posted =>
    by_cases hack : dro.ackRequested
    · simp [Except.map, DroOutcome.packets, hack]
    · simp [Except.map, DroOutcome.packets, hack]

lemma droAtIntermediate_eq (dst : IpAddr) (dro : Dro) :
    s.droAtIntermediate dst dro =
      ((s.droOutcomeAtIntermediate dro).packets dst dro,
        (s.droOutcomeAtIntermediate dro).node) := by
  rw [droAtIntermediate, droOutcomeAtIntermediate]
  by_cases hpart : dro.rem = 0 ∨ ¬s.isMyAddr (dro.address dro.rem)
  · rw [if_pos hpart, if_pos hpart]
    rfl
  · rw [if_neg hpart, if_neg hpart]
    cases s.droStoreHop dro with
    | none => rfl
    | some s' => rfl

/-- `dro_input` sends the packets of its outcome. -/
lemma droInput_eq (dst : IpAddr) (dro : Dro) :
    s.droInput dst dro = (s.droOutcome dro).map fun o => (o.packets dst dro, o.node) := by
  rw [droInput, droOutcome]
  cases s.droStop dro with
  | error f => rfl
  | ok s' =>
    rw [ok_bind, ok_bind, droRouteOutcome]
    by_cases hmine : s'.isMyAddr dro.dodagId
    · rw [if_pos hmine, if_pos hmine, s'.droAtOrigin_eq dst]
      cases s'.droOutcomeAtOrigin dro with
      | error f => rfl
      | ok o => rfl
    · rw [if_neg hmine, if_neg hmine, droAtIntermediate_eq]
      rfl

/-! ## The accesses -/

/-- A compressed address in the message. -/
def readAddress (dodagId : IpAddr) (compr pos : ℕ) : ByteReads IpAddr := do
  let bytes ← readRange pos (16 - compr)
  pure (dodagId.decompress compr bytes)

/-- The search loop for the RDO. -/
def readFindRdo (bufferLength : ℕ) : ℕ → ℕ → ByteReads ℕ
  | 0, pos => pure pos
  | fuel + 1, pos => do
    let type ← read pos
    if type ≠ rplDioSuboptRouteDiscovery ∧ pos < bufferLength then
      let length ← read (pos + 1)
      readFindRdo bufferLength fuel (pos + length.toNat + 2)
    else pure pos

/-- The evaluation of the stop bit. -/
def droDetach (flags instanceId : UInt8) (dodagId : IpAddr) : Except Fault (Node cfg) :=
  if flags &&& rplP2pDroSFlag ≠ 0 then
    match s.rplGetDag instanceId (some dodagId) with
    | none => .ok s
    | some d => do
      let e ← s.derefP2p d
      if (s.dagP2pTable e).expired then .ok s
      else
        .ok ((s.stopDioTimer d).modifyP2p e fun p2p => { p2p with lifetime := 0 })
  else .ok s

/-- The addresses of the source route in the message, in `rpl_p2p_add_src_route`. -/
def readSrcHops (route : Fin cfg.srcRouteNb) (dest : IpAddr) (start : ℕ) (addrLen compr : UInt8) :
    ℕ → UInt8 → SrcRoutingTable cfg.DagRef cfg.srcRouteNb cfg.srcRouteAddrNb →
      ByteReads (Bool × SrcRoutingTable cfg.DagRef cfg.srcRouteNb cfg.srcRouteAddrNb)
  | 0, _, t => pure (false, t)
  | fuel + 1, i, t =>
    if i < addrLen then do
      let addr ← readAddress dest compr.toNat (start + i.toNat)
      match t.uipDs6SrcRouteHopAdd route addr.uipCreateLinklocalPrefix false with
      | none => pure (false, t)
      | some t => readSrcHops route dest start addrLen compr fuel (i + (16 - compr)) t
    else pure (true, t)

/-- The end of `rpl_p2p_add_src_route`, with the result of its loop. -/
def finishSrcRoute (route : Fin cfg.srcRouteNb) (dest : IpAddr)
    (r : Bool × SrcRoutingTable cfg.DagRef cfg.srcRouteNb cfg.srcRouteAddrNb) : Node cfg :=
  match r with
  | (false, t) => { s with srcRoutingTable := t.uipDs6SrcRouteRm route }
  | (true, t) =>
    match t.uipDs6SrcRouteHopAdd route dest.uipCreateLinklocalPrefix false with
    | none => { s with srcRoutingTable := t.uipDs6SrcRouteRm route }
    | some t => { s with srcRoutingTable := t }

/-- `rpl_p2p_add_src_route`, for the addresses at an offset of the message. -/
def readAddSrcRoute (dest : IpAddr) (start : ℕ) (addrLen compr : UInt8) : ByteReads (Node cfg) :=
  match s.srcRoutingTable.uipDs6SrcRouteAdd dest with
  | (none, t) => pure { s with srcRoutingTable := t }
  | (some route, t) => do
    let entry := t.routes route
    let t := t.set route { entry with state := { entry.state with
      lifetime := rplDefaultLifetime.toUInt32 * rplDefaultLifetimeUnit.toUInt32 } }
    let r ← readSrcHops route dest start addrLen compr (cfg.srcRouteAddrNb + 1) 0 t
    pure (s.finishSrcRoute route dest r)

/-- The route that the origin stores; the RDO is at `pos`. -/
def readStoreRoute (bufferLength : ℕ) (instanceId : UInt8) (dodagId target : IpAddr) (pos : ℕ)
    (fields : UInt8) : ByteReads (Node cfg) :=
  let compr := (fields &&& 0x0f).toNat
  let vector := pos + 4 + (16 - compr)
  if fields &&& rplP2pRdoHFlag ≠ 0 then
    if vector = bufferLength then
      pure (s.rplP2pAddHbhRoute instanceId dodagId target target.uipCreateLinklocalPrefix).2
    else do
      let nexthop ← readAddress dodagId compr vector
      pure (s.rplP2pAddHbhRoute instanceId dodagId target nexthop.uipCreateLinklocalPrefix).2
  else do
    let length ← read (pos + 1)
    s.readAddSrcRoute target vector (length - 2 - 16 + UInt8.ofNat compr) (UInt8.ofNat compr)

/-- The process that is told about a reply. -/
def droTold (instanceId : UInt8) (dodagId : IpAddr) : Except Fault (Option ℕ) :=
  match s.rplGetDag instanceId (some dodagId) with
  | none => .ok none
  | some d => do
    let e ← s.derefP2p d
    .ok (s.dagP2pTable e).process

/-- A reply at the origin. -/
def readDroAtOrigin (bufferLength : ℕ) (instanceId flags : UInt8) (dodagId : IpAddr) (pos : ℕ)
    (fields : UInt8) : ByteReads (Except Fault (DroOutcome cfg)) := do
  let target ← readAddress dodagId (fields &&& 0x0f).toNat (pos + 4)
  let written := s.droWritesRoute (fields &&& rplP2pRdoHFlag ≠ 0) target
  let s ← s.readStoreRoute bufferLength instanceId dodagId target pos fields
  pure ((s.droTold instanceId dodagId).map fun posted =>
    { reply := if flags &&& rplP2pDroAFlag ≠ 0 then .ack target else .nothing
      posted
      written
      node := s })

/-- The hop-by-hop state of an intermediate node. -/
def droHop (instanceId : UInt8) (dodagId target nexthop : IpAddr) : Option (Node cfg) :=
  match uipDs6RouteLookup s.routingTable target with
  | some hbhrt => if (s.routingTable hbhrt).nexthop = nexthop then none else some s
  | none => some (s.rplP2pAddHbhRoute instanceId dodagId target nexthop).2

/-- The address at the position Rem. -/
def readRem (dodagId : IpAddr) (compr pos rem : ℕ) : ByteReads IpAddr :=
  readAddress dodagId compr (pos + 4 + rem * (16 - compr))

/-- The outcome at a node on the route, with its hop-by-hop state. -/
def droHopOutcome (target : IpAddr) (r : Option (Node cfg)) : DroOutcome cfg :=
  r.elim ⟨.nothing, none, false, s⟩
    (⟨.forward, none, (uipDs6RouteLookup s.routingTable target).isNone, ·⟩)

/-- A reply at an intermediate node. -/
def readDroAtIntermediate (bufferLength : ℕ) (instanceId : UInt8) (dodagId : IpAddr) (pos : ℕ)
    (fields rem : UInt8) : ByteReads (DroOutcome cfg) := do
  let compr := (fields &&& 0x0f).toNat
  let rem := (rem &&& rplP2pRdoRMask).toNat
  let nexthop ← readRem dodagId compr pos rem
  if rem = 0 ∨ ¬s.isMyAddr nexthop then pure ⟨.nothing, none, false, s⟩
  else if fields &&& rplP2pRdoHFlag ≠ 0 then
    let target ← readAddress dodagId compr (pos + 4)
    let behind := pos + 4 + (rem + 1) * (16 - compr)
    if behind ≥ bufferLength then
      pure (s.droHopOutcome target
        (s.droHop instanceId dodagId target target.uipCreateLinklocalPrefix))
    else
      let nexthop ← readAddress dodagId compr behind
      pure (s.droHopOutcome target
        (s.droHop instanceId dodagId target nexthop.uipCreateLinklocalPrefix))
  else pure ⟨.forward, none, false, s⟩

/-- What `dro_input` does once the stop bit is evaluated. -/
def readDroRoute (bufferLength : ℕ) (instanceId flags : UInt8) (dodagId : IpAddr) (pos : ℕ)
    (fields rem : UInt8) : ByteReads (Except Fault (DroOutcome cfg)) :=
  if s.isMyAddr dodagId then
    s.readDroAtOrigin bufferLength instanceId flags dodagId pos fields
  else do
    let o ← s.readDroAtIntermediate bufferLength instanceId dodagId pos fields rem
    pure (.ok o)

/-- `dro_input` for a message of a length that it keeps in a byte, with its accesses to the packet
buffer. -/
def readDro (length : ℕ) : ByteReads (Except Fault (DroOutcome cfg)) := do
  let bufferLength := (UInt8.ofNat length).toNat
  let instanceId ← read 0
  let _ ← read 1
  let pos ← readFindRdo bufferLength 256 20
  let fields ← read (pos + 2)
  let rem ← read (pos + 3)
  let flags ← read 2
  let dodagId ← readRange 4 16
  match s.droDetach flags instanceId (.ofBytes dodagId) with
  | .error f => pure (.error f)
  | .ok s' =>
    let o ← s'.readDroRoute bufferLength instanceId flags (.ofBytes dodagId) pos fields rem
    pure (o.map fun o => { o with
      written := s.droStops (flags &&& rplP2pDroSFlag ≠ 0) instanceId (.ofBytes dodagId) || o.written })

/-! ## The result on a buffer -/

section Run
variable (buffer : ℕ → UInt8)

lemma run_readFindRdo (bufferLength : ℕ) : ∀ fuel pos,
    (readFindRdo bufferLength fuel pos).run buffer = Dro.findRdo buffer bufferLength fuel pos := by
  intro fuel
  induction fuel with
  | zero => intro pos; rfl
  | succ fuel ih =>
    intro pos
    simp only [readFindRdo, Dro.findRdo, run_bind, run_ite, run_pure, ih]
    rfl

@[simp] lemma run_readAddress (dodagId : IpAddr) (compr pos : ℕ) :
    (readAddress dodagId compr pos).run buffer =
      dodagId.decompress compr (bytesAt buffer pos (16 - compr)) := by
  simp [readAddress]

lemma run_readSrcHops (route : Fin cfg.srcRouteNb) (dest : IpAddr) (start : ℕ)
    (addrLen compr : UInt8) : ∀ fuel i t,
    (readSrcHops route dest start addrLen compr fuel i t).run buffer =
      addSrcHops route dest (fun k => buffer (start + k)) addrLen compr false fuel i t := by
  intro fuel
  induction fuel with
  | zero => intro i t; rfl
  | succ fuel ih =>
    intro i t
    have hbytes : bytesAt buffer (start + i.toNat) (16 - compr.toNat) =
        (List.range (16 - compr.toNat)).map fun k => buffer (start + (i.toNat + k)) := by
      simp [bytesAt, Nat.add_assoc]
    simp only [readSrcHops, addSrcHops]
    by_cases hi : i < addrLen
    · rw [if_pos hi, if_pos hi, run_bind, run_readAddress, hbytes]
      cases t.uipDs6SrcRouteHopAdd route (dest.decompress compr.toNat
          ((List.range (16 - compr.toNat)).map
            fun k => buffer (start + (i.toNat + k)))).uipCreateLinklocalPrefix false with
      | none => rfl
      | some t => exact ih _ t
    · rw [if_neg hi, if_neg hi]
      rfl

lemma run_readAddSrcRoute (dest : IpAddr) (start : ℕ) (addrLen compr : UInt8) :
    (s.readAddSrcRoute dest start addrLen compr).run buffer =
      (s.rplP2pAddSrcRoute dest (fun k => buffer (start + k)) addrLen compr false).2 := by
  unfold readAddSrcRoute rplP2pAddSrcRoute
  obtain ⟨route, t⟩ := s.srcRoutingTable.uipDs6SrcRouteAdd dest
  cases route with
  | none => rfl
  | some route =>
    simp only [run_bind, run_pure, run_readSrcHops]
    generalize addSrcHops route dest (fun k => buffer (start + k)) addrLen compr false _ _ _ = r
    obtain ⟨stored, t⟩ := r
    cases stored with
    | false => rfl
    | true =>
      simp only [finishSrcRoute]
      cases t.uipDs6SrcRouteHopAdd route dest.uipCreateLinklocalPrefix false with
      | none => rfl
      | some t => rfl

section Message
variable (length : ℕ)

lemma run_readStoreRoute :
    (s.readStoreRoute (UInt8.ofNat length).toNat (buffer 0) (Dro.ofBuffer buffer length).dodagId
        (Dro.ofBuffer buffer length).target (Dro.ofBuffer buffer length).pos
        (buffer ((Dro.ofBuffer buffer length).pos + 2))).run buffer =
      s.droStoreRoute (Dro.ofBuffer buffer length) := by
  set dro := Dro.ofBuffer buffer length with hdro
  have hstep : dro.step = 16 - dro.compr := rfl
  have hcompr : (buffer (dro.pos + 2) &&& 0x0f).toNat = dro.compr := rfl
  unfold readStoreRoute droStoreRoute
  by_cases hflag : dro.hopByHop
  · have hflag' : buffer (dro.pos + 2) &&& rplP2pRdoHFlag ≠ 0 := of_decide_eq_true hflag
    have haddr : dro.address 1 = dro.dodagId.decompress dro.compr
        (bytesAt buffer (dro.pos + 4 + (16 - dro.compr)) (16 - dro.compr)) := by
      rw [Dro.address, Nat.one_mul]
      rfl
    rw [if_pos hflag', if_pos hflag, hcompr, run_ite, ← hstep]
    by_cases hlast : dro.pos + 4 + dro.step = (UInt8.ofNat length).toNat
    · have hlast' : dro.pos + 4 + dro.step = dro.bufferLength := hlast
      rw [if_pos hlast, if_pos hlast']
      rfl
    · have hlast' : ¬dro.pos + 4 + dro.step = dro.bufferLength := hlast
      rw [if_neg hlast, if_neg hlast', haddr, run_bind, run_readAddress]
      rfl
  · have hflag' : ¬buffer (dro.pos + 2) &&& rplP2pRdoHFlag ≠ 0 := fun h =>
      hflag (decide_eq_true h)
    rw [if_neg hflag', if_neg hflag, run_bind, run_read, hcompr, run_readAddSrcRoute]
    rfl

lemma run_readDroAtOrigin :
    (s.readDroAtOrigin (UInt8.ofNat length).toNat (buffer 0) (buffer 2)
        (Dro.ofBuffer buffer length).dodagId (Dro.ofBuffer buffer length).pos
        (buffer ((Dro.ofBuffer buffer length).pos + 2))).run buffer =
      s.droOutcomeAtOrigin (Dro.ofBuffer buffer length) := by
  set dro := Dro.ofBuffer buffer length with hdro
  have htarget : dro.target = dro.dodagId.decompress (buffer (dro.pos + 2) &&& 0x0f).toNat
      (bytesAt buffer (dro.pos + 4) (16 - (buffer (dro.pos + 2) &&& 0x0f).toNat)) := by
    rw [Dro.target, Dro.address, Nat.zero_mul]
    rfl
  have hstored := s.run_readStoreRoute buffer length
  rw [← hdro] at hstored
  unfold readDroAtOrigin droOutcomeAtOrigin
  simp only [run_bind, run_readAddress, run_pure]
  rw [← htarget, hstored]
  have hack : (if buffer 2 &&& rplP2pDroAFlag ≠ 0 then DroReply.ack dro.target else .nothing) =
      if dro.ackRequested then .ack dro.target else .nothing := by
    simp only [Dro.ackRequested, decide_eq_true_eq, hdro, Dro.ofBuffer]
  rw [hack]
  rfl

lemma run_readDroAtIntermediate :
    (s.readDroAtIntermediate (UInt8.ofNat length).toNat (buffer 0)
        (Dro.ofBuffer buffer length).dodagId (Dro.ofBuffer buffer length).pos
        (buffer ((Dro.ofBuffer buffer length).pos + 2))
        (buffer ((Dro.ofBuffer buffer length).pos + 3))).run buffer =
      s.droOutcomeAtIntermediate (Dro.ofBuffer buffer length) := by
  set dro := Dro.ofBuffer buffer length with hdro
  have hstep : dro.step = 16 - dro.compr := rfl
  have hcompr : (buffer (dro.pos + 2) &&& 0x0f).toNat = dro.compr := rfl
  have hrem : (buffer (dro.pos + 3) &&& rplP2pRdoRMask).toNat = dro.rem := rfl
  have haddr : ∀ i, dro.dodagId.decompress dro.compr
      (bytesAt buffer (dro.pos + 4 + i * dro.step) dro.step) = dro.address i := fun _ => rfl
  have htarget : dro.dodagId.decompress dro.compr (bytesAt buffer (dro.pos + 4) dro.step) =
      dro.target := by
    rw [Dro.target, ← haddr, Nat.zero_mul]
  have hlength : dro.bufferLength = (UInt8.ofNat length).toNat := rfl
  unfold readDroAtIntermediate droOutcomeAtIntermediate readRem
  simp only [hcompr, hrem, ← hstep, run_bind, run_readAddress, run_ite, run_pure, haddr, htarget]
  by_cases hpart : dro.rem = 0 ∨ ¬s.isMyAddr (dro.address dro.rem)
  · rw [if_pos hpart, if_pos hpart]
  rw [if_neg hpart, if_neg hpart]
  by_cases hflag : dro.hopByHop
  · have hflag' : buffer (dro.pos + 2) &&& rplP2pRdoHFlag ≠ 0 := of_decide_eq_true hflag
    rw [if_pos hflag', droStoreHop, if_pos hflag]
    have hbranch : ∀ nexthop : IpAddr, nexthop = droNexthop dro →
        s.droHopOutcome dro.target (s.droHop (buffer 0) dro.dodagId dro.target nexthop) =
          match (match uipDs6RouteLookup s.routingTable dro.target with
            | some hbhrt =>
              if (s.routingTable hbhrt).nexthop = droNexthop dro then none else some s
            | none =>
              some (s.rplP2pAddHbhRoute dro.instanceId dro.dodagId dro.target (droNexthop dro)).2) with
          | none => ⟨.nothing, none, false, s⟩
          | some s' => ⟨.forward, none,
              dro.hopByHop && (uipDs6RouteLookup s.routingTable dro.target).isNone, s'⟩ := by
      rintro nexthop rfl
      rw [hflag, Bool.true_and]
      unfold droHop droHopOutcome
      cases uipDs6RouteLookup s.routingTable dro.target with
      | none => rfl
      | some hbhrt =>
        by_cases hconflict : (s.routingTable hbhrt).nexthop = droNexthop dro
        · simp [hconflict]
        · simp [hconflict]
    by_cases hlast : dro.pos + 4 + (dro.rem + 1) * dro.step ≥ (UInt8.ofNat length).toNat
    · rw [if_pos hlast]
      exact hbranch _ (by rw [droNexthop, hlength, if_pos hlast])
    · rw [if_neg hlast]
      exact hbranch _ (by rw [droNexthop, hlength, if_neg hlast])
  · have hflag' : ¬buffer (dro.pos + 2) &&& rplP2pRdoHFlag ≠ 0 := fun h =>
      hflag (decide_eq_true h)
    rw [if_neg hflag', droStoreHop, if_neg hflag, eq_false_of_ne_true hflag, Bool.false_and]

lemma droDetach_eq :
    s.droDetach (buffer 2) (buffer 0) (Dro.ofBuffer buffer length).dodagId =
      s.droStop (Dro.ofBuffer buffer length) := by
  unfold droDetach droStop
  by_cases hstop : buffer 2 &&& rplP2pDroSFlag ≠ 0
  · have hstop' : (Dro.ofBuffer buffer length).stop := decide_eq_true hstop
    rw [if_pos hstop, if_pos hstop']
    rfl
  · have hstop' : ¬(Dro.ofBuffer buffer length).stop := fun h => hstop (of_decide_eq_true h)
    rw [if_neg hstop, if_neg hstop']

/-- The accesses compute the outcome of `dro_input`. -/
theorem run_readDro :
    (s.readDro length).run buffer = s.droOutcome (Dro.ofBuffer buffer length) := by
  have hstop := s.droDetach_eq buffer length
  have hdodagId : IpAddr.ofBytes (bytesAt buffer 4 16) = (Dro.ofBuffer buffer length).dodagId := rfl
  have hpos : Dro.findRdo buffer (UInt8.ofNat length).toNat 256 20 =
    (Dro.ofBuffer buffer length).pos := rfl
  unfold readDro droOutcome
  simp only [run_bind, run_read, run_readFindRdo, run_readRange_bytes, hpos, hdodagId, hstop]
  cases s.droStop (Dro.ofBuffer buffer length) with
  | error f => rfl
  | ok s' =>
    rw [ok_bind]
    simp only [readDroRoute, droRouteOutcome, run_bind, run_pure]
    by_cases hmine : s'.isMyAddr (Dro.ofBuffer buffer length).dodagId
    · rw [if_pos hmine, if_pos hmine, run_readDroAtOrigin]
      cases s'.droOutcomeAtOrigin (Dro.ofBuffer buffer length) with
      | error f => rfl
      | ok o => rfl
    · rw [if_neg hmine, if_neg hmine, run_bind, run_readDroAtIntermediate]
      rfl

end Message
end Run
end Node
end Contiki

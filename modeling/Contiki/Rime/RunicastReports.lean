import Contiki.Lib.History
import Contiki.Rime.Runicast

/-!
# What reliable unicast reports

A callback tells the user what became of the packet that is outstanding.  Three things in the code do
not see to it: an acknowledgement is taken from anyone, also when nothing is outstanding; the link
layer's callback for an earlier packet is counted for the present one; and after the callback
`timedout` the sequence number is advanced although a packet with it may have been sent in between.

* `Truthful` — what the reports must be like.
* `Runicast.Orderly` — the events that do not meet the three.
* `Runicast.reports_truthful` — the result, for all runs of such events.
-/

namespace Contiki
namespace Rime
variable {size : ℕ}

/-! ## What is claimed -/

/-- The packet that is outstanding after the reports. -/
def outstanding (log : List (Report size)) : Option (Accepted size) :=
  log.foldl (fun o r => match r with
    | .accepted x => some x
    | .sent .. | .timedout .. => none
    | .transmitted _ | .ackReceived .. => o) none

/-- The report is made by a callback. -/
def Report.IsCallback : Report size → Prop
  | .sent .. | .timedout .. => True
  | _ => False

/-- The report stands rightly behind the reports `pre` and in front of `next`. -/
def Report.Fits (pre : List (Report size)) (next : Option (Report size)) : Report size → Prop
  | .accepted _ => outstanding pre = none
  | .sent dest _ => ∃ x, outstanding pre = some x ∧ dest = x.receiver ∧
      pre.getLast? = some (.ackReceived x.receiver x.packetId)
  | .timedout dest _ => ∃ x, outstanding pre = some x ∧ dest = x.receiver ∧
      x.maxRxmit.toNat ≤ pre.count (.transmitted x.no)
  | .ackReceived src packetId => ∀ x, outstanding pre = some x → src = x.receiver →
      packetId = x.packetId → ∃ dest n, next = some (.sent dest n)
  | .transmitted _ => True

/-- The callbacks say what happened: `sent` is called for the packet that is outstanding when it was
acknowledged by its receiver just before, and always then; `timedout` after it was transmitted as often
as the user asked for; and a packet that was accepted has one callback at most. -/
structure Truthful (log : List (Report size)) : Prop where
  fits : Throughout Report.Fits log
  once : ∀ pre r mid r' post, log = pre ++ r :: mid ++ r' :: post → r.IsCallback → r'.IsCallback →
    ∃ x, Report.accepted x ∈ mid

namespace Runicast
variable {s : Runicast size}

/-- None of the calls is accepted, for want of a queue buffer. -/
def Refused (calls : List (SendCall size)) : Prop := ∀ call ∈ calls, call.room = false

/-- An acknowledgement with the number that is expected comes from the receiver of the packet that is
outstanding.  The link layer calls back for a packet only as long as it is outstanding; when none is,
only if it does not make the count reach the bound.  No packet is accepted while the callback
`timedout` runs. -/
def Orderly (s : Runicast size) : RunicastEvent size → Prop
  | .linkSent i calls => ∀ x, s.air[i]? = some x → x.packet.attr .packetType = packetTypeData →
      (s.isTx ≠ 0 → s.c.buf.map Prod.fst = x.no) ∧ (s.isTx = 0 → ¬s.TimesOut) ∧
        (s.TimesOut → Refused calls)
  | .received p _ _ => p.addr .receiver = s.nodeAddr → p.attr .packetType = packetTypeAck →
      p.attr .packetId = s.sndnxt.toUInt16 → s.isTx ≠ 0 ∧ p.addr .sender = s.c.receiver
  | _ => True

end Runicast

/-! ## Reports one after the other -/

lemma outstanding_append (log : List (Report size)) (r : Report size) :
    outstanding (log ++ [r]) = match r with
      | .accepted x => some x
      | .sent .. | .timedout .. => none
      | .transmitted _ | .ackReceived .. => outstanding log := by
  unfold outstanding
  rw [List.foldl_append]
  rfl

lemma Report.Fits.of_none {pre : List (Report size)} {r : Report size} (h : r.Fits pre none)
    (next : Option (Report size)) : r.Fits pre next := by
  cases r with
  | ackReceived src packetId =>
      intro x hx hsrc hid
      obtain ⟨_, _, hnone⟩ := h x hx hsrc hid
      cases hnone
  | _ => exact h

/-- After a callback nothing is outstanding until a packet is accepted. -/
lemma outstanding_of_callback {pre mid : List (Report size)} {r : Report size} (hr : r.IsCallback)
    (hmid : ∀ x, Report.accepted x ∉ mid) : outstanding (pre ++ r :: mid) = none := by
  induction mid using List.reverseRecOn with
  | nil =>
      rw [outstanding_append]
      cases r <;> first | rfl | exact hr.elim
  | append_singleton mid r' ih =>
      have hprev := ih fun x hx => hmid x (List.mem_append_left _ hx)
      rw [← List.cons_append, ← List.append_assoc, outstanding_append]
      cases r' with
      | accepted x => exact absurd (List.mem_append_right _ List.mem_cons_self) (hmid x)
      | sent _ _ => rfl
      | timedout _ _ => rfl
      | transmitted _ => exact hprev
      | ackReceived _ _ => exact hprev

/-- A callback is made for a packet that is outstanding. -/
lemma Report.Fits.outstanding_ne_none {pre : List (Report size)} {r : Report size}
    {next : Option (Report size)} (h : r.Fits pre next) (hr : r.IsCallback) : outstanding pre ≠ none := by
  intro hnone
  cases r with
  | sent _ _ =>
      obtain ⟨x, hx, -⟩ := h
      rw [hnone] at hx
      cases hx
  | timedout _ _ =>
      obtain ⟨x, hx, -⟩ := h
      rw [hnone] at hx
      cases hx
  | accepted _ => exact hr
  | transmitted _ => exact hr
  | ackReceived _ _ => exact hr

/-- Callbacks that fit are made once for each packet. -/
lemma Truthful.of_fits {log : List (Report size)} (h : Throughout Report.Fits log) : Truthful log := by
  refine ⟨h, fun pre r mid r' post heq hr hr' => ?_⟩
  by_contra hnone
  push Not at hnone
  exact (h _ r' post heq).outstanding_ne_none hr' (outstanding_of_callback hr hnone)

lemma Truthful.nil : Truthful ([] : List (Report size)) := .of_fits .nil

/-- One more report. -/
lemma Truthful.append {log : List (Report size)} {r : Report size} (h : Truthful log)
    (hr : r.Fits log none) : Truthful (log ++ [r]) :=
  .of_fits (h.fits.append (fun _ next _ hfits => hfits.of_none next) hr)

/-- An acknowledgement and the callback it leads to. -/
lemma Truthful.append_sent {log : List (Report size)} {x : Accepted size} (h : Truthful log)
    (hx : outstanding log = some x) (n : UInt8) :
    Truthful (log ++ [.ackReceived x.receiver x.packetId] ++ [.sent x.receiver n]) := by
  have hsent : Report.Fits (log ++ [.ackReceived x.receiver x.packetId]) none (.sent x.receiver n) := by
    refine ⟨x, ?_, rfl, List.getLast?_concat ..⟩
    rw [outstanding_append]
    exact hx
  rw [List.append_assoc]
  refine .of_fits (h.fits.append_list (fun _ next _ hr => hr.of_none next) fun pre r post heq => ?_)
  -- the acknowledgement is followed by the callback, and the callback by nothing
  match pre, heq with
  | [], heq =>
      obtain ⟨rfl, rfl⟩ := List.cons.inj heq
      exact fun _ _ _ _ => ⟨_, _, rfl⟩
  | [a], heq =>
      obtain ⟨rfl, htail⟩ := List.cons.inj heq
      obtain ⟨rfl, rfl⟩ := List.cons.inj htail
      exact hsent
  | a :: b :: pre, heq =>
      obtain ⟨-, htail⟩ := List.cons.inj heq
      exact absurd (List.cons.inj htail).2.symm (List.append_ne_nil_of_right_ne_nil _ (by simp))

/-! ## The invariant -/

namespace Runicast
variable {s : Runicast size}

/-- How often the link layer still has to call back for the packet with this number. -/
def pending (air : List (Transmission size)) (no : ℕ) : ℕ := air.countP fun x => x.no = some no

/-- The packet that is outstanding is the one that `stunicast` repeats, with the receiver, the number
and the bound that the connection has, and what is counted was transmitted. -/
structure Busy (s : Runicast size) (x : Accepted size) : Prop where
  receiver : x.receiver = s.c.receiver
  packetId : x.packetId = s.sndnxt.toUInt16
  maxRxmit : x.maxRxmit = s.maxRxmit
  buf : s.c.buf.map Prod.fst = some x.no
  counted : s.rxmit.toNat + pending s.air x.no ≤ s.log.count (.transmitted x.no)

/-- The reports are right, and a packet is outstanding exactly when the connection transmits. -/
structure Steady (s : Runicast size) : Prop where
  truthful : Truthful s.log
  idle : s.isTx = 0 → outstanding s.log = none
  busy : s.isTx ≠ 0 → ∃ x, outstanding s.log = some x ∧ s.Busy x
  fresh : ∀ x ∈ s.air, ∀ no ∈ x.no, no < s.sends
  held : ∀ no ∈ s.c.buf.map Prod.fst, no < s.sends

lemma steady_opened (nodeAddr receiver : Rimeaddr size) : (opened nodeAddr receiver).Steady := by
  refine ⟨.nil, fun _ => rfl, fun h => absurd rfl h, ?_, ?_⟩
  · intro x hx
    cases hx
  · intro no hno
    cases hno

/-- While nothing is outstanding, the timer and the counters do not matter. -/
lemma Steady.of_idle {s' : Runicast size} (h : s.Steady) (hidle : s'.isTx = 0)
    (hout : outstanding s'.log = none) (hlog : Truthful s'.log) (hair : ∀ x ∈ s'.air, x ∈ s.air)
    (hsends : s.sends ≤ s'.sends) (hbuf : s'.c.buf = none ∨ s'.c.buf = s.c.buf) : s'.Steady := by
  refine ⟨hlog, fun _ => hout, fun hne => absurd hidle hne, fun x hx no hno => ?_, fun no hno => ?_⟩
  · exact (h.fresh x (hair x hx) no hno).trans_le hsends
  · rcases hbuf with hbuf | hbuf
    · rw [hbuf] at hno
      cases hno
    · rw [hbuf] at hno
      exact (h.held no hno).trans_le hsends

/-! ## Sending -/

lemma pending_append (air : List (Transmission size)) (x : Transmission size) (no : ℕ) :
    pending (air ++ [x]) no = pending air no + if x.no = some no then 1 else 0 := by
  unfold pending
  rw [List.countP_append, List.countP_singleton]
  simp only [decide_eq_true_eq]

/-- No transmission is pending for a number that was not given out. -/
lemma Steady.pending_sends (h : s.Steady) : pending s.air s.sends = 0 := by
  refine List.countP_eq_zero.mpr fun x hx hno => ?_
  exact absurd (h.fresh x hx s.sends (of_decide_eq_true hno)) (lt_irrefl _)

lemma runicastSend_of_isTx {call : SendCall size} (h : s.isTx ≠ 0) : s.runicastSend call = (s, false) :=
  if_pos h

/-- A packet is accepted. -/
lemma runicastSend_room {call : SendCall size} (h : s.isTx = 0) (hroom : call.room = true) :
    ∃ p q : Packetbuf size, (s.runicastSend call).1 =
      { s with
        maxRxmit := call.maxRetransmissions, rxmit := 0, isTx := 1, sends := s.sends + 1
        c := ⟨some (s.sends, p.toQueuebuf), call.receiver, true⟩
        air := s.air ++ [⟨some s.sends, q⟩]
        log := s.log ++ [.transmitted s.sends] ++
          [.accepted ⟨s.sends, call.receiver, s.sndnxt.toUInt16, call.maxRetransmissions⟩] } := by
  refine ⟨s.dataPacket call.packet, (s.dataPacket call.packet).unicast s.nodeAddr call.receiver, ?_⟩
  obtain ⟨packet, receiver, maxRetransmissions, room⟩ := call
  cases hroom
  unfold runicastSend
  rw [if_neg (not_not.mpr h)]
  rfl

/-- No queue buffer is left for a packet. -/
lemma runicastSend_refused {call : SendCall size} (h : s.isTx = 0) (hroom : call.room = false) :
    (s.runicastSend call).1 =
      { s with
        maxRxmit := call.maxRetransmissions, rxmit := 0, isTx := 0, sends := s.sends + 1
        c := { s.c with buf := none } } := by
  obtain ⟨packet, receiver, maxRetransmissions, room⟩ := call
  cases hroom
  unfold runicastSend
  rw [if_neg (not_not.mpr h)]
  rfl

lemma Steady.runicastSend (h : s.Steady) (call : SendCall size) : (s.runicastSend call).1.Steady := by
  by_cases htx : s.isTx = 0
  · have hout := h.idle htx
    cases hroom : call.room with
    | true =>
        obtain ⟨p, q, heq⟩ := runicastSend_room htx hroom
        have hlog : Truthful (s.log ++ [.transmitted s.sends]) := h.truthful.append trivial
        rw [heq]
        refine ⟨hlog.append ?_, ?_, fun _ => ⟨_, outstanding_append .., rfl, rfl, rfl, rfl, ?_⟩, ?_, ?_⟩
        · show outstanding (s.log ++ [.transmitted s.sends]) = none
          rw [outstanding_append]
          exact hout
        · intro hone
          cases hone
        · show 0 + pending (s.air ++ [⟨some s.sends, q⟩]) s.sends ≤ _
          rw [pending_append, h.pending_sends, if_pos rfl, List.count_append, List.count_append,
            List.count_singleton_self]
          omega
        · intro x hx no hno
          rcases List.mem_append.mp hx with hx | hx
          · exact (h.fresh x hx no hno).trans (Nat.lt_succ_self _)
          · rw [List.mem_singleton.mp hx] at hno
            cases hno
            exact Nat.lt_succ_self _
        · intro no hno
          cases hno
          exact Nat.lt_succ_self _
    | false =>
        rw [runicastSend_refused htx hroom]
        exact h.of_idle rfl hout h.truthful (fun _ hx => hx) (Nat.le_succ _) (.inl rfl)
  · rw [runicastSend_of_isTx htx]
    exact h

/-- The user's callbacks do nothing but send. -/
lemma Steady.callback (h : s.Steady) (calls : List (SendCall size)) : (s.callback calls).Steady := by
  induction calls generalizing s with
  | nil => exact h
  | cons call calls ih => exact ih (h.runicastSend call)

/-- A callback all of whose calls are refused starts nothing. -/
lemma isTx_callback {calls : List (SendCall size)} (h : s.isTx = 0) (hcalls : Refused calls) :
    (s.callback calls).isTx = 0 := by
  induction calls generalizing s with
  | nil => exact h
  | cons call calls ih =>
      have hcall : (s.runicastSend call).1.isTx = 0 := by
        rw [runicastSend_refused h (hcalls call List.mem_cons_self)]
      exact ih hcall fun c hc => hcalls c (List.mem_cons_of_mem _ hc)

/-- A packet is transmitted once more. -/
lemma Steady.unicastSend {no : ℕ} {p : Packetbuf size} {receiver : Rimeaddr size} (h : s.Steady)
    (hno : s.c.buf.map Prod.fst = some no) : (s.unicastSend (some no) p receiver).Steady := by
  have hcount : ∀ x, (s.log ++ [Report.transmitted no]).count (Report.transmitted x) =
      s.log.count (Report.transmitted x) + if no = x then 1 else 0 := by
    intro x
    rw [List.count_append, List.count_singleton]
    simp only [beq_iff_eq, Report.transmitted.injEq]
  have hout : outstanding (s.log ++ [Report.transmitted no]) = outstanding s.log := outstanding_append ..
  refine ⟨h.truthful.append trivial, fun htx => hout.trans (h.idle htx), fun htx => ?_, ?_, h.held⟩
  · obtain ⟨x, hx, hbusy⟩ := h.busy htx
    refine ⟨x, hout.trans hx, hbusy.receiver, hbusy.packetId, hbusy.maxRxmit, hbusy.buf, ?_⟩
    have hcounted := hbusy.counted
    show s.rxmit.toNat + pending (s.air ++ [⟨some no, p.unicast s.nodeAddr receiver⟩]) x.no ≤
      (s.log ++ [Report.transmitted no]).count (Report.transmitted x.no)
    rw [pending_append, hcount]
    simp only [Option.some.injEq]
    omega
  · intro x hx n hn
    rcases List.mem_append.mp hx with hx | hx
    · exact h.fresh x hx n hn
    · rw [List.mem_singleton.mp hx] at hn
      cases hn
      exact h.held no hno

/-- An acknowledgement is transmitted. -/
lemma Steady.unicastSend_ack {p : Packetbuf size} {receiver : Rimeaddr size} (h : s.Steady) :
    (s.unicastSend none p receiver).Steady := by
  refine ⟨h.truthful, h.idle, fun htx => ?_, ?_, h.held⟩
  · obtain ⟨x, hx, hbusy⟩ := h.busy htx
    refine ⟨x, hx, hbusy.receiver, hbusy.packetId, hbusy.maxRxmit, hbusy.buf, ?_⟩
    show s.rxmit.toNat + pending (s.air ++ [⟨none, p.unicast s.nodeAddr receiver⟩]) x.no ≤ _
    rw [pending_append, if_neg nofun]
    exact hbusy.counted
  · intro x hx n hn
    rcases List.mem_append.mp hx with hx | hx
    · exact h.fresh x hx n hn
    · rw [List.mem_singleton.mp hx] at hn
      cases hn

/-- The timer does not matter. -/
lemma Steady.set_t (h : s.Steady) (t : Bool) : ({ s with c := { s.c with t := t } } : Runicast size).Steady :=
  ⟨h.truthful, h.idle, fun htx => by
    obtain ⟨x, hx, hbusy⟩ := h.busy htx
    exact ⟨x, hx, hbusy.receiver, hbusy.packetId, hbusy.maxRxmit, hbusy.buf, hbusy.counted⟩, h.fresh, h.held⟩

/-- The timer repeats the packet that is outstanding. -/
lemma Steady.send (h : s.Steady) (p : Packetbuf size) : (s.send p).Steady := by
  cases hbuf : s.c.buf with
  | none =>
      have heq : s.send p = s := by
        unfold Runicast.send
        rw [hbuf]
      rw [heq]
      exact h
  | some entry =>
      obtain ⟨no, b⟩ := entry
      have heq : s.send p =
          { s.unicastSend (some no) (b.toPacketbuf p) s.c.receiver with
            c := { (s.unicastSend (some no) (b.toPacketbuf p) s.c.receiver).c with t := true } } := by
        unfold Runicast.send
        rw [hbuf]
      rw [heq]
      exact (h.unicastSend (by rw [hbuf]; rfl)).set_t true

/-! ## Callbacks -/

/-- The callback `timedout` is called for the packet that is outstanding. -/
lemma Steady.timedout {i : ℕ} {x : Transmission size} (h : s.Steady)
    (hi : s.air[i]? = some x) (htx : s.isTx ≠ 0) (hno : s.c.buf.map Prod.fst = x.no)
    (htimes : s.TimesOut) (n : UInt8) : Truthful (s.log ++ [.timedout s.c.receiver n]) := by
  obtain ⟨y, hy, hbusy⟩ := h.busy htx
  refine h.truthful.append ⟨y, hy, hbusy.receiver.symm, ?_⟩
  have hpending : 0 < pending s.air y.no :=
    List.countP_pos_iff.mpr ⟨x, List.mem_of_getElem? hi, decide_eq_true (hno.symm.trans hbusy.buf)⟩
  have hle : s.maxRxmit.toNat ≤ (s.rxmit + 1).toNat := htimes
  have hadd : (s.rxmit + 1).toNat ≤ s.rxmit.toNat + 1 := by
    rw [UInt8.toNat_add]
    exact Nat.mod_le ..
  have hcounted := hbusy.counted
  rw [hbusy.maxRxmit]
  omega

/-- What is counted was transmitted, also after the link layer called back. -/
lemma Busy.counted_eraseIdx {i : ℕ} {x : Transmission size} {y : Accepted size} (h : s.Busy y)
    (hi : s.air[i]? = some x) (hno : s.c.buf.map Prod.fst = x.no) :
    (s.rxmit + 1).toNat + pending (s.air.eraseIdx i) y.no ≤ s.log.count (.transmitted y.no) := by
  have hperm : (x :: s.air.eraseIdx i).Perm s.air := by
    obtain ⟨hlt, rfl⟩ := List.getElem?_eq_some_iff.mp hi
    exact List.getElem_cons_eraseIdx_perm hlt
  have hcount : pending s.air y.no = pending (s.air.eraseIdx i) y.no + 1 := by
    have hx : x.no = some y.no := hno.symm.trans h.buf
    unfold pending
    rw [← hperm.countP_eq, List.countP_cons, if_pos (decide_eq_true hx)]
  have hadd : (s.rxmit + 1).toNat ≤ s.rxmit.toNat + 1 := by
    rw [UInt8.toNat_add]
    exact Nat.mod_le ..
  have hcounted := h.counted
  omega

lemma Steady.eraseIdx (h : s.Steady) (i : ℕ) :
    ({ s with air := s.air.eraseIdx i } : Runicast size).Steady := by
  refine ⟨h.truthful, h.idle, fun hne => ?_, fun y hy => h.fresh y (List.eraseIdx_subset hy), h.held⟩
  obtain ⟨y, hy, hbusy⟩ := h.busy hne
  refine ⟨y, hy, hbusy.receiver, hbusy.packetId, hbusy.maxRxmit, hbusy.buf, le_trans ?_ hbusy.counted⟩
  exact Nat.add_le_add_left ((List.eraseIdx_sublist ..).countP_le) _

/-- The connection when `timedout` is called. -/
def gaveUp (s : Runicast size) : Runicast size :=
  ({ s with rxmit := s.rxmit + 1, isTx := 0 } : Runicast size).stunicastCancel.report
    (.timedout s.c.receiver (s.rxmit + 1))

lemma sentByStunicast_timesOut {p : Packetbuf size} {calls : List (SendCall size)}
    (hdata : p.attr .packetType = packetTypeData) (htimes : s.TimesOut) :
    s.sentByStunicast p calls = { s.gaveUp.callback calls with
      rxmit := 0
      sndnxt := advance (s.gaveUp.callback calls).sndnxt } := by
  unfold sentByStunicast
  rw [if_pos hdata, if_pos htimes]
  rfl

lemma sentByStunicast_counts {p : Packetbuf size} {calls : List (SendCall size)}
    (hdata : p.attr .packetType = packetTypeData) (htimes : ¬s.TimesOut) :
    s.sentByStunicast p calls = { s with rxmit := s.rxmit + 1 } := by
  unfold sentByStunicast
  rw [if_pos hdata, if_neg htimes]

/-- The link layer calls back. -/
lemma Steady.linkSent {i : ℕ} {x : Transmission size} {calls : List (SendCall size)}
    (h : s.Steady) (hi : s.air[i]? = some x) (hok : Orderly s (.linkSent i calls)) :
    (({ s with air := s.air.eraseIdx i } : Runicast size).sentByStunicast x.packet calls).Steady := by
  have herase := h.eraseIdx i
  by_cases hdata : x.packet.attr .packetType = packetTypeData
  · obtain ⟨htx, hidle, hcalls⟩ := hok x hi hdata
    by_cases htimes : s.TimesOut
    · -- the packet is given up, and nothing is accepted before the sequence number is advanced
      have hne : s.isTx ≠ 0 := fun hzero => hidle hzero htimes
      have hlog := h.timedout hi hne (htx hne) htimes (s.rxmit + 1)
      have hgave : (gaveUp { s with air := s.air.eraseIdx i }).Steady :=
        herase.of_idle rfl (outstanding_append ..) hlog (fun _ hy => hy) le_rfl (.inl rfl)
      have hcalled := hgave.callback calls
      have hzero := isTx_callback (s := gaveUp { s with air := s.air.eraseIdx i }) rfl (hcalls htimes)
      rw [sentByStunicast_timesOut (s := { s with air := s.air.eraseIdx i }) hdata htimes]
      exact hcalled.of_idle hzero (hcalled.idle hzero) hcalled.truthful (fun _ hy => hy) le_rfl (.inr rfl)
    · rw [sentByStunicast_counts (s := { s with air := s.air.eraseIdx i }) hdata htimes]
      refine ⟨h.truthful, h.idle, fun hne => ?_, herase.fresh, h.held⟩
      obtain ⟨y, hy, hbusy⟩ := h.busy hne
      exact ⟨y, hy, hbusy.receiver, hbusy.packetId, hbusy.maxRxmit, hbusy.buf,
        hbusy.counted_eraseIdx hi (htx hne)⟩
  · have heq : ({ s with air := s.air.eraseIdx i } : Runicast size).sentByStunicast x.packet calls =
        { s with air := s.air.eraseIdx i } := if_neg hdata
    rw [heq]
    exact herase

/-! ## Packets that come in -/

/-- The connection when `sent` is called. -/
def gotAck (s : Runicast size) (src : Rimeaddr size) (packetId : UInt16) : Runicast size :=
  ({ s.report (.ackReceived src packetId) with
    sndnxt := advance s.sndnxt, isTx := 0 } : Runicast size).stunicastCancel.report
    (.sent s.c.receiver s.rxmit)

lemma recvFromStunicast_ack {p : Packetbuf size} {src : Rimeaddr size} {room : Bool}
    {calls : List (SendCall size)} (hack : p.attr .packetType = packetTypeAck) :
    s.recvFromStunicast p src room calls =
      if p.attr .packetId = s.sndnxt.toUInt16 then
        (s.gotAck src (p.attr .packetId)).callback calls
      else s.report (.ackReceived src (p.attr .packetId)) := by
  unfold recvFromStunicast
  rw [if_pos hack]
  rfl

/-- An acknowledgement comes in. -/
lemma Steady.ackReceived {p : Packetbuf size} {src : Rimeaddr size} {room : Bool}
    {calls : List (SendCall size)} (h : s.Steady) (hack : p.attr .packetType = packetTypeAck)
    (hok : p.attr .packetId = s.sndnxt.toUInt16 → s.isTx ≠ 0 ∧ src = s.c.receiver) :
    (s.recvFromStunicast p src room calls).Steady := by
  rw [recvFromStunicast_ack hack]
  by_cases hid : p.attr .packetId = s.sndnxt.toUInt16
  · obtain ⟨hne, rfl⟩ := hok hid
    obtain ⟨x, hx, hbusy⟩ := h.busy hne
    have hlog := h.truthful.append_sent hx s.rxmit
    rw [hbusy.receiver, hbusy.packetId, ← hid] at hlog
    rw [if_pos hid]
    refine Steady.callback ?_ calls
    exact h.of_idle rfl (outstanding_append ..) hlog (fun _ hy => hy) le_rfl (.inl rfl)
  · have hfits : Report.Fits s.log none (.ackReceived src (p.attr .packetId)) := by
      intro x hx _ hxid
      have hne : s.isTx ≠ 0 := by
        intro hzero
        rw [h.idle hzero] at hx
        cases hx
      obtain ⟨y, hy, hbusy⟩ := h.busy hne
      rw [hx] at hy
      cases hy
      exact absurd (hxid.trans hbusy.packetId) hid
    have hout : outstanding (s.log ++ [Report.ackReceived src (p.attr .packetId)]) = outstanding s.log :=
      outstanding_append ..
    rw [if_neg hid]
    refine ⟨h.truthful.append hfits, fun hzero => hout.trans (h.idle hzero), fun hne => ?_, h.fresh, h.held⟩
    obtain ⟨x, hx, hbusy⟩ := h.busy hne
    refine ⟨x, hout.trans hx, hbusy.receiver, hbusy.packetId, hbusy.maxRxmit, hbusy.buf, ?_⟩
    exact hbusy.counted.trans ((List.sublist_append_left ..).count_le _)

/-- A packet comes in. -/
lemma Steady.received {p : Packetbuf size} {room : Bool} {calls : List (SendCall size)} (h : s.Steady)
    (hdest : p.addr .receiver = s.nodeAddr) (hok : Orderly s (.received p room calls)) :
    (s.recvFromStunicast p (p.addr .sender) room calls).Steady := by
  by_cases hack : p.attr .packetType = packetTypeAck
  · exact h.ackReceived hack (hok hdest hack)
  · unfold recvFromStunicast
    rw [if_neg hack]
    by_cases hdata : p.attr .packetType = packetTypeData
    · rw [if_pos hdata]
      refine Steady.callback ?_ calls
      cases room with
      | true => exact h.unicastSend_ack
      | false => exact h
    · rw [if_neg hdata]
      exact h

/-! ## Runs -/

/-- The connections in the runs, from `runicast_open` on, whose events all meet `ok`. -/
def Reached (ok : Runicast size → RunicastEvent size → Prop) : Runicast size → Prop :=
  Reaches (fun s e => (.ok (s.step e) : Except Empty (Runicast size))) ok
    fun s => ∃ nodeAddr receiver, s = opened nodeAddr receiver

lemma Steady.step {e : RunicastEvent size} (h : s.Steady) (hok : Orderly s e) : (s.step e).Steady := by
  cases e with
  | send call => exact h.runicastSend call
  | timer p =>
      unfold Runicast.step
      by_cases ht : s.c.t = true
      · show Steady (if s.c.t = true then _ else s)
        rw [if_pos ht]
        exact (h.set_t false).send p
      · show Steady (if s.c.t = true then _ else s)
        rw [if_neg ht]
        exact h
  | linkSent i calls =>
      cases hi : s.air[i]? with
      | some x =>
          have heq : s.step (.linkSent i calls) =
              ({ s with air := s.air.eraseIdx i } : Runicast size).sentByStunicast x.packet calls := by
            unfold Runicast.step
            simp only [hi]
          rw [heq]
          exact h.linkSent hi hok
      | none =>
          have heq : s.step (.linkSent i calls) = s := by
            unfold Runicast.step
            simp only [hi]
          rw [heq]
          exact h
  | received p room calls =>
      by_cases hdest : p.addr .receiver = s.nodeAddr
      · have heq : s.step (.received p room calls) =
            s.recvFromStunicast p (p.addr .sender) room calls := if_pos hdest
        rw [heq]
        exact h.received hdest hok
      · have heq : s.step (.received p room calls) = s := if_neg hdest
        rw [heq]
        exact h

/-- **The reports of reliable unicast are true**, in every run of orderly events: no callback without
a packet that is outstanding, at most one for each packet that was accepted, `sent` exactly when the
receiver acknowledged it, and `timedout` after as many transmissions as were asked for. -/
theorem reports_truthful (h : Reached Orderly s) : Truthful s.log := by
  refine Steady.truthful (Reaches.invariant (I := Steady) ?_ ?_ h)
  · rintro _ ⟨nodeAddr, receiver, rfl⟩
    exact steady_opened nodeAddr receiver
  · intro s e s' hs hok hstep
    cases hstep
    exact hs.step hok

/-! ## Runs that are not orderly -/

/-- A packet for node 2 is accepted by node 1. -/
def sendToTwo : RunicastEvent 2 := .send ⟨.empty 2, .short 2, 4, true⟩

/-- Node `n` acknowledges the packet 0 of node 1. -/
def ackFrom (n : UInt8) : RunicastEvent 2 :=
  .received ((ackPacket (.empty 2)).unicast (.short n) (.short 1)) true []

lemma reached_ackFrom {ok : Runicast 2 → RunicastEvent 2 → Prop} (n : UInt8)
    (hsend : ok (opened (.short 1) (.short 0)) sendToTwo)
    (hack : ok ((opened (.short 1) (.short 0)).step sendToTwo) (ackFrom n)) :
    Reached ok (((opened (.short 1) (.short 0)).step sendToTwo).step (ackFrom n)) :=
  ((Reaches.initial ⟨.short 1, .short 0, rfl⟩).tail hsend rfl).tail hack rfl

lemma log_ackFrom (n : UInt8) :
    (((opened (.short 1) (.short 0)).step sendToTwo).step (ackFrom n)).log =
      [.transmitted 0, .accepted ⟨0, .short 2, 0, 4⟩, .ackReceived (.short n) 0, .sent (.short 2) 0] := rfl

/-- The receiver acknowledges the packet, and the callback `sent` is called. -/
theorem reports_truthful_sent :
    Truthful [.transmitted 0, .accepted ⟨0, .short 2, 0, 4⟩, .ackReceived (.short 2) 0, .sent (.short 2) 0] := by
  have h := reports_truthful (reached_ackFrom 2 trivial fun _ _ _ =>
    ⟨by decide, rfl⟩)
  rw [log_ackFrom] at h
  exact h

/-- An acknowledgement of node 3 is reported as one of node 2. -/
theorem reports_not_truthful : ¬∀ s : Runicast 2, Reached anyEvent s → Truthful s.log := by
  intro h
  have htrue := h _ (reached_ackFrom 3 trivial trivial)
  rw [log_ackFrom] at htrue
  obtain ⟨x, -, hx, hlast⟩ := htrue.fits
    [.transmitted 0, .accepted ⟨0, .short 2, 0, 4⟩, .ackReceived (.short 3) 0] (.sent (.short 2) 0) [] rfl
  have hlast : some (Report.ackReceived (.short 3) 0) = some (.ackReceived x.receiver x.packetId) := hlast
  have hsrc : Rimeaddr.short 3 = .short 2 := (Report.ackReceived.inj (Option.some.inj hlast)).1.trans hx.symm
  revert hsrc
  decide

end Runicast
end Rime
end Contiki

import Contiki.Net.Tcp

/-!
# The sequence numbers that a connection sends

A sequence number stands for a SYN, a FIN or an octet of data.  `TcpTrace` keeps, beside a
connection, which content was sent at which place of the sequence space, counted from the initial
sequence number on without wrapping around.

`SendStep` is what an event does after its acknowledgement was processed, as far as sending goes:
data is sent in `UIP_ESTABLISHED` alone and is all that is outstanding, a FIN is sent after that,
the length of what is outstanding is changed only when nothing is, and a SYN is sent only before the
connection is established.  There are two exceptions: an application that closes the connection when it
is given new data while its own is outstanding, and a late SYN of the peer, which is answered by a SYN
with the next sequence number.
-/

namespace Contiki

/-! ## Steps -/

/-- What a sequence number stands for. -/
inductive Content
  | syn | data | fin
deriving DecidableEq

/-- The connection was not established yet. -/
def TcpState.opens : TcpState → Bool
  | .synRcvd | .synSent => true
  | _ => false

/-- The FIN of the connection was sent. -/
def TcpState.closes : TcpState → Bool
  | .finWait1 | .finWait2 | .closing | .timeWait | .lastAck => true
  | _ => false

lemma TcpState.not_closes_of_opens {state : TcpState} (h : state.opens = true) :
    state.closes = false := by
  cases state <;> simp_all [opens, closes]

lemma TcpState.cases_phase (state : TcpState) :
    state = .closed ∨ state = .established ∨ state.opens = true ∨ state.closes = true := by
  cases state <;> simp [opens, closes]

/-- A segment that takes up sequence numbers. -/
def Sent.occupies (s : Sent) : Bool := s.flags.syn || s.flags.fin || s.len ≠ 0

/-- A step of a connection that acknowledges nothing, with the segment that is sent. -/
structure SendStep (c c' : UipConn) (sent : Option Sent) : Prop where
  sndNxt : c'.sndNxt = c.sndNxt
  seqno : ∀ s, sent = some s → s.occupies = true → s.seqno = c'.sndNxt
  data : ∀ s, sent = some s → s.len ≠ 0 →
    c'.state = .established ∧ s.len = c'.len ∧ s.flags.syn = false
  fin : ∀ s, sent = some s → s.flags.fin = true → c'.state.closes = true
  syn : ∀ s, sent = some s → s.flags.syn = true → c'.state.opens = true
  established : c'.state = .established →
    (c.state.opens = true ∨ c.state = .established) ∧
      (c.len = 0 ∨ c.state = .established ∧ c'.len = c.len)
  closes : c'.state.closes = true → c.state.closes = true ∨
    (c.state.opens = true ∨ c.state = .established) ∧ c.len = 0
  opens : c'.state.opens = true → c.state.opens = true ∧ c'.len = c.len

namespace SendStep
variable {c c₁ c' : UipConn} {sent : Option Sent}

/-- Nothing is sent, and the connection stays as it is. -/
lemma still (hsndNxt : c'.sndNxt = c.sndNxt) (hlen : c'.len = c.len) (hstate : c'.state = c.state) :
    SendStep c c' none where
  sndNxt := hsndNxt
  seqno := by rintro s ⟨⟩
  data := by rintro s ⟨⟩
  fin := by rintro s ⟨⟩
  syn := by rintro s ⟨⟩
  established h := ⟨.inr (hstate ▸ h), .inr ⟨hstate ▸ h, hlen⟩⟩
  closes h := .inl (hstate ▸ h)
  opens h := ⟨hstate ▸ h, hlen⟩

/-- Data is taken when nothing is outstanding. -/
lemma accept (hsndNxt : c'.sndNxt = c.sndNxt) (hstate : c.state = .established) (hlen : c.len = 0)
    (hstate' : c'.state = .established) : SendStep c c' none where
  sndNxt := hsndNxt
  seqno := by rintro s ⟨⟩
  data := by rintro s ⟨⟩
  fin := by rintro s ⟨⟩
  syn := by rintro s ⟨⟩
  established _ := ⟨.inr hstate, .inl hlen⟩
  closes h := by rw [hstate'] at h; cases h
  opens h := by rw [hstate'] at h; cases h

/-- A segment without data and without FIN may be sent in addition. -/
lemma send {s : Sent} (h : SendStep c c' none) (hlen : s.len = 0) (hfin : s.flags.fin = false)
    (hsyn : s.flags.syn = true → s.seqno = c'.sndNxt ∧ c'.state.opens = true) :
    SendStep c c' (some s) where
  sndNxt := h.sndNxt
  seqno := by
    rintro _ ⟨⟩ hoccupies
    refine (hsyn ?_).1
    simpa [Sent.occupies, hlen, hfin] using hoccupies
  data := by
    rintro _ ⟨⟩ hne
    exact absurd hlen hne
  fin := by
    rintro _ ⟨⟩ hfin'
    rw [hfin] at hfin'
    cases hfin'
  syn := by
    rintro _ ⟨⟩ hflag
    exact (hsyn hflag).2
  established := h.established
  closes := h.closes
  opens := h.opens

/-- A FIN may be sent in addition when the connection closes. -/
lemma sendFin {s : Sent} (h : SendStep c c' none) (hlen : s.len = 0) (hseqno : s.seqno = c'.sndNxt)
    (hsyn : s.flags.syn = false) (hcloses : c'.state.closes = true) : SendStep c c' (some s) where
  sndNxt := h.sndNxt
  seqno := by
    rintro _ ⟨⟩ -
    exact hseqno
  data := by
    rintro _ ⟨⟩ hne
    exact absurd hlen hne
  fin := by
    rintro _ ⟨⟩ -
    exact hcloses
  syn := by
    rintro _ ⟨⟩ hsyn'
    rw [hsyn] at hsyn'
    cases hsyn'
  established := h.established
  closes := h.closes
  opens := h.opens

/-- A connection that is closed is the end. -/
lemma closed (hsndNxt : c'.sndNxt = c.sndNxt) (hstate : c'.state = .closed) : SendStep c c' none where
  sndNxt := hsndNxt
  seqno := by rintro s ⟨⟩
  data := by rintro s ⟨⟩
  fin := by rintro s ⟨⟩
  syn := by rintro s ⟨⟩
  established h := by rw [hstate] at h; cases h
  closes h := by rw [hstate] at h; cases h
  opens h := by rw [hstate] at h; cases h

/-- The FIN of the connection is next, or was sent already. -/
lemma close (hsndNxt : c'.sndNxt = c.sndNxt) (hstate : c'.state.closes = true)
    (h : c.state.closes = true ∨ (c.state.opens = true ∨ c.state = .established) ∧ c.len = 0) :
    SendStep c c' none where
  sndNxt := hsndNxt
  seqno := by rintro s ⟨⟩
  data := by rintro s ⟨⟩
  fin := by rintro s ⟨⟩
  syn := by rintro s ⟨⟩
  established h' := by rw [h'] at hstate; cases hstate
  closes _ := h
  opens h' := by
    rw [TcpState.not_closes_of_opens h'] at hstate
    cases hstate

/-- Only these parts of the connection before the step matter. -/
lemma of_eq (h : SendStep c₁ c' sent) (hsndNxt : c₁.sndNxt = c.sndNxt) (hlen : c₁.len = c.len)
    (hstate : c₁.state = c.state) : SendStep c c' sent := by
  obtain ⟨h₁, h₂, h₃, h₄, h₅, h₆, h₇, h₈⟩ := h
  rw [hsndNxt] at h₁
  rw [hlen, hstate] at h₆ h₇ h₈
  exact ⟨h₁, h₂, h₃, h₄, h₅, h₆, h₇, h₈⟩

/-- The connection is established now, with nothing outstanding. -/
lemma of_opens (h : SendStep c₁ c' sent) (hstate : c₁.state = .established)
    (hsndNxt : c₁.sndNxt = c.sndNxt) (hopens : c.state.opens = true) (hlen : c.len = 0) :
    SendStep c c' sent where
  sndNxt := h.sndNxt.trans hsndNxt
  seqno := h.seqno
  data := h.data
  fin := h.fin
  syn := h.syn
  established _ := ⟨.inl hopens, .inl hlen⟩
  closes _ := .inr ⟨.inl hopens, hlen⟩
  opens h' := by
    have hbefore := (h.opens h').1
    rw [hstate] at hbefore
    cases hbefore

/-- What is outstanding may be sent in addition. -/
lemma sendData {s : Sent} (h : SendStep c c' none) (hlen : s.len = c'.len)
    (hfin : s.flags.fin = false) (hseqno : s.seqno = c'.sndNxt) (hsyn : s.flags.syn = false)
    (hstate : c'.state = .established) : SendStep c c' (some s) where
  sndNxt := h.sndNxt
  seqno := by
    rintro _ ⟨⟩ -
    exact hseqno
  data := by
    rintro _ ⟨⟩ -
    exact ⟨hstate, hlen, hsyn⟩
  fin := by
    rintro _ ⟨⟩ hfin'
    rw [hfin] at hfin'
    cases hfin'
  syn := by
    rintro _ ⟨⟩ hsyn'
    rw [hsyn] at hsyn'
    cases hsyn'
  established := h.established
  closes := h.closes
  opens := h.opens

end SendStep

/-! ## The application -/

/-- The last request of an application to close or to abort is to close. -/
def AppCall.closing (closing : Bool) : AppCall → Bool
  | .close => true
  | .abort => false
  | _ => closing

/-- The calls of an application end in a request to close. -/
def closesIn (calls : List AppCall) : Bool := calls.foldl AppCall.closing false

namespace UipConn
variable (cfg : TcpConfig) (conn : UipConn)

/-- An application changes its connection in one place. -/
lemma appcall_conn (calls : List AppCall) (c : AppCtx) :
    ∃ stopped, (appcall cfg calls c).conn = { c.conn with stopped } := by
  induction calls generalizing c with
  | nil => exact ⟨c.conn.stopped, rfl⟩
  | cons call calls ih =>
    obtain ⟨stopped, h⟩ := ih (appCall cfg c call)
    refine ⟨stopped, h.trans ?_⟩
    rcases call with len | _ | _ | _ | _
    · rw [appCall]
      split_ifs <;> rfl
    all_goals rfl

lemma appcall_sndNxt (calls : List AppCall) (c : AppCtx) :
    (appcall cfg calls c).conn.sndNxt = c.conn.sndNxt := by
  obtain ⟨stopped, h⟩ := appcall_conn cfg calls c
  rw [h]

lemma appcall_len (calls : List AppCall) (c : AppCtx) :
    (appcall cfg calls c).conn.len = c.conn.len := by
  obtain ⟨stopped, h⟩ := appcall_conn cfg calls c
  rw [h]

lemma appcall_state (calls : List AppCall) (c : AppCtx) :
    (appcall cfg calls c).conn.state = c.conn.state := by
  obtain ⟨stopped, h⟩ := appcall_conn cfg calls c
  rw [h]

/-- An application asks to close by its last request. -/
lemma appcall_close (calls : List AppCall) (c : AppCtx) :
    (appcall cfg calls c).flags.close = calls.foldl AppCall.closing c.flags.close := by
  induction calls generalizing c with
  | nil => rfl
  | cons call calls ih =>
    refine (ih (appCall cfg c call)).trans ?_
    rw [List.foldl_cons]
    congr 1
    rcases call with len | _ | _ | _ | _
    · rw [appCall]
      split_ifs <;> rfl
    all_goals rfl

/-- An application does not learn of an acknowledgement that there was not. -/
lemma appcall_ackdata (calls : List AppCall) (c : AppCtx)
    (h : (appcall cfg calls c).flags.ackdata = true) : c.flags.ackdata = true := by
  induction calls generalizing c with
  | nil => exact h
  | cons call calls ih =>
    have hnext := ih (appCall cfg c call) h
    rcases call with len | _ | _ | _ | _
    · rw [appCall] at hnext
      split_ifs at hnext <;> exact hnext
    · cases hnext
    · cases hnext
    · exact hnext
    · exact hnext

/-! ## Sending -/

/-- New data is taken when nothing is outstanding. -/
lemma acceptData_sends (a : AppCtx) (hack : a.flags.ackdata = true → a.conn.len = 0)
    (hstate : a.conn.state = .established) :
    SendStep a.conn (acceptData a).conn none ∧ (acceptData a).conn.state = .established := by
  have hconn : (if a.flags.ackdata then { a.conn with len := 0 } else a.conn) = a.conn := by
    split_ifs with hackdata
    · rw [← hack hackdata]
    · rfl
  unfold acceptData
  rw [hconn]
  dsimp only
  split_ifs with hslen hlen hmss
  · exact ⟨.accept rfl hstate hlen hstate, hstate⟩
  · exact ⟨.accept rfl hstate hlen hstate, hstate⟩
  · exact ⟨.still rfl rfl rfl, hstate⟩
  · exact ⟨.still rfl rfl rfl, hstate⟩

lemma apprexmit_sends {c : UipConn} (a : AppCtx) (h : SendStep c a.conn none)
    (hstate : a.conn.state = .established) : SendStep c a.conn (apprexmit cfg a) := by
  unfold apprexmit
  split_ifs with hdata hnew
  · apply h.sendData
    · rfl
    · rfl
    · rfl
    · rfl
    · exact hstate
  · apply h.send
    · rfl
    · rfl
    · intro hsyn
      cases hsyn
  · exact h

/-- `appsend` is a step when the application does not close the connection too early. -/
lemma appsend_sends (a : AppCtx) (hack : a.flags.ackdata = true → a.conn.len = 0)
    (hstate : a.conn.state = .established) (hclose : a.flags.close = true → a.conn.len = 0) :
    SendStep a.conn (appsend cfg a).1 (appsend cfg a).2 := by
  unfold appsend
  split_ifs with habort hflag
  · apply SendStep.send
    · exact .closed rfl rfl
    · rfl
    · rfl
    · intro hsyn
      cases hsyn
  · apply SendStep.sendFin
    · exact .close rfl rfl (.inr ⟨.inr hstate, hclose hflag⟩)
    · rfl
    · rfl
    · rfl
    · rfl
  · obtain ⟨hsends, hstate'⟩ := acceptData_sends a hack hstate
    apply apprexmit_sends cfg
      { acceptData a with conn := { (acceptData a).conn with nrtx := 0 } }
    · obtain ⟨h₁, -, -, -, -, h₆, h₇, h₈⟩ := hsends
      exact ⟨h₁, by rintro s ⟨⟩, by rintro s ⟨⟩, by rintro s ⟨⟩, by rintro s ⟨⟩, h₆, h₇, h₈⟩
    · exact hstate'

lemma callAndSend_sends {calls : List AppCall} {flags : UipFlags} {slen : UInt16}
    {data : List UInt8} (hstate : conn.state = .established)
    (hack : flags.ackdata = true → conn.len = 0) (hflag : flags.close = false)
    (hclose : closesIn calls = true → conn.len = 0) :
    SendStep conn (conn.callAndSend cfg calls flags slen data).conn
      (conn.callAndSend cfg calls flags slen data).sent := by
  have hlen := appcall_len cfg calls ⟨conn, flags, slen⟩
  apply @SendStep.of_eq _ (appcall cfg calls ⟨conn, flags, slen⟩).conn
  · apply appsend_sends
    · intro h
      exact hlen.trans (hack (appcall_ackdata cfg calls _ h))
    · exact (appcall_state cfg calls _).trans hstate
    · intro h
      rw [appcall_close] at h
      dsimp only at h
      rw [hflag] at h
      exact hlen.trans (hclose h)
  · exact appcall_sndNxt cfg calls _
  · exact hlen
  · exact appcall_state cfg calls _

/-! ## The timer and poll requests -/

lemma retransmit_sends (calls : List AppCall) :
    SendStep conn (conn.retransmit cfg calls).conn (conn.retransmit cfg calls).sent := by
  have hstill : SendStep conn conn none := .still rfl rfl rfl
  unfold retransmit
  split
  · rename_i hstate
    apply hstill.send
    · rfl
    · rfl
    · exact fun _ => ⟨rfl, by simp [hstate, TcpState.opens]⟩
  · rename_i hstate
    apply hstill.send
    · rfl
    · rfl
    · exact fun _ => ⟨rfl, by simp [hstate, TcpState.opens]⟩
  · rename_i hstate
    apply apprexmit_sends
    · apply SendStep.still
      · exact appcall_sndNxt cfg calls _
      · exact appcall_len cfg calls _
      · exact appcall_state cfg calls _
    · exact (appcall_state cfg calls _).trans hstate
  · rename_i hstate
    apply hstill.sendFin
    · rfl
    · rfl
    · rfl
    · rw [hstate]
      rfl
  · rename_i hstate
    apply hstill.sendFin
    · rfl
    · rfl
    · rfl
    · rw [hstate]
      rfl
  · rename_i hstate
    apply hstill.sendFin
    · rfl
    · rfl
    · rfl
    · rw [hstate]
      rfl
  · exact hstill

lemma rexmitTimer_sends (calls : List AppCall) :
    SendStep conn (conn.rexmitTimer cfg calls).conn (conn.rexmitTimer cfg calls).sent := by
  unfold rexmitTimer
  dsimp only
  split_ifs with hexpired hmax
  · apply SendStep.send
    · apply SendStep.closed
      · exact appcall_sndNxt cfg calls _
      · exact appcall_state cfg calls _
    · rfl
    · rfl
    · intro hsyn
      cases hsyn
  all_goals try exact (retransmit_sends cfg _ calls).of_eq rfl rfl rfl
  exact .still rfl rfl rfl

lemma uipTimer_sends (calls : List AppCall) :
    SendStep conn (conn.uipTimer cfg calls).conn (conn.uipTimer cfg calls).sent := by
  unfold uipTimer
  dsimp only
  split_ifs with hwait htimeout hclosed hlen hstate
  · exact .closed rfl rfl
  · exact .still rfl rfl rfl
  · exact .still rfl rfl rfl
  · exact rexmitTimer_sends cfg conn calls
  · apply callAndSend_sends cfg conn hstate
    · intro h
      cases h
    · rfl
    · intro _
      exact not_not.mp hlen
  · exact .still rfl rfl rfl

lemma uipPoll_sends (slen : UInt16) (calls : List AppCall) :
    SendStep conn (conn.uipPoll cfg slen calls).conn (conn.uipPoll cfg slen calls).sent := by
  unfold uipPoll
  split_ifs with hstate hsyn
  · apply callAndSend_sends cfg conn hstate.1
    · intro h
      cases h
    · rfl
    · intro _
      exact hstate.2
  · apply SendStep.send (.still rfl rfl rfl)
    · rfl
    · rfl
    · exact fun _ => ⟨rfl, by simp [hsyn, TcpState.opens]⟩
  · exact .still rfl rfl rfl

/-! ## Segments -/

lemma announceMss_eq {hdr : TcpHdr} {optdata : ℕ → UInt8} {conn' : UipConn}
    (h : conn.announceMss cfg hdr optdata = some conn') :
    ∃ mss initialmss, conn' = { conn with mss, initialmss } := by
  obtain ⟨mss, -, rfl⟩ := Option.map_eq_some_iff.mp h
  rcases mss with _ | mss
  · exact ⟨_, _, rfl⟩
  · exact ⟨_, _, rfl⟩

lemma acknowledged_sndNxt :
    conn.acknowledged.sndNxt = conn.sndNxt.uipAdd32 conn.len := by
  unfold acknowledged estimateRtt
  dsimp only
  split_ifs <;> rfl

lemma acknowledged_state : conn.acknowledged.state = conn.state := by
  unfold acknowledged estimateRtt
  dsimp only
  split_ifs <;> rfl

lemma acknowledged_stopped : conn.acknowledged.stopped = conn.stopped := by
  unfold acknowledged estimateRtt
  dsimp only
  split_ifs <;> rfl

lemma acknowledged_rcvNxt : conn.acknowledged.rcvNxt = conn.rcvNxt := by
  unfold acknowledged estimateRtt
  dsimp only
  split_ifs <;> rfl

lemma acknowledged_len : conn.acknowledged.len = 0 := rfl

lemma inSynRcvd_sends {hdr : TcpHdr} {acked : Bool} {data : List UInt8} {len : UInt16}
    {calls : List AppCall} (hstate : conn.state = .synRcvd) (hacked : acked = true → conn.len = 0) :
    SendStep conn (conn.inSynRcvd cfg hdr acked data len calls).conn
      (conn.inSynRcvd cfg hdr acked data len calls).sent := by
  have hopens : conn.state.opens = true := by
    rw [hstate]
    rfl
  unfold inSynRcvd
  dsimp only
  split_ifs with hack hlen hsyn
  · apply SendStep.of_opens (callAndSend_sends cfg _ rfl _ rfl _)
    · rfl
    · rfl
    · exact hopens
    · exact hacked hack
    · intro h
      cases h
    · intro _
      rfl
  · apply SendStep.of_opens (callAndSend_sends cfg _ rfl _ rfl _)
    · rfl
    · rfl
    · exact hopens
    · exact hacked hack
    · intro h
      cases h
    · intro _
      rfl
  · apply SendStep.send (.still rfl rfl rfl)
    · rfl
    · rfl
    · exact fun _ => ⟨rfl, hopens⟩
  · exact .still rfl rfl rfl

lemma inSynSent_sends {hdr : TcpHdr} {acked : Bool} {optdata : ℕ → UInt8} {calls : List AppCall}
    {res : TcpResult} (h : conn.inSynSent cfg hdr acked optdata calls = some res)
    (hstate : conn.state = .synSent) (hacked : acked = true → conn.len = 0) :
    SendStep conn res.conn res.sent := by
  unfold inSynSent at h
  split_ifs at h with hack
  · obtain ⟨conn', hmss, rfl⟩ := Option.map_eq_some_iff.mp h
    obtain ⟨mss, initialmss, rfl⟩ := announceMss_eq cfg conn hmss
    apply SendStep.of_opens (callAndSend_sends cfg _ rfl _ rfl _)
    · rfl
    · rfl
    · rw [hstate]
      rfl
    · exact hacked hack.1
    · intro h
      cases h
    · intro _
      rfl
  · cases h
    apply SendStep.send
    · apply SendStep.closed
      · exact appcall_sndNxt cfg calls _
      · rfl
    · rfl
    · rfl
    · intro hsyn
      cases hsyn

lemma acceptFin_sends {acked : Bool} {data : List UInt8} {len : UInt16} {calls : List AppCall}
    (hstate : conn.state = .established) :
    SendStep conn (conn.acceptFin cfg acked data len calls).conn
      (conn.acceptFin cfg acked data len calls).sent := by
  unfold acceptFin
  split_ifs with hlen
  · exact .still rfl rfl rfl
  · apply SendStep.sendFin
    · apply SendStep.close
      · exact appcall_sndNxt cfg calls _
      · rfl
      · exact .inr ⟨.inr hstate, not_not.mp hlen⟩
    · rfl
    · rfl
    · rfl
    · rfl

lemma acceptSegment_sends {hdr : TcpHdr} {acked : Bool} {data : List UInt8} {len : UInt16}
    {calls : List AppCall} (hstate : conn.state = .established)
    (hacked : acked = true → conn.len = 0)
    (hclose : len > 0 → conn.stopped = false → closesIn calls = true → conn.len = 0) :
    SendStep conn (conn.acceptSegment cfg hdr acked data len calls).conn
      (conn.acceptSegment cfg hdr acked data len calls).sent := by
  unfold acceptSegment
  dsimp only
  set newdata := decide (len > 0) && !conn.stopped with hnew
  set conn' := (if newdata = true then conn.addRcvNxt len else conn).adaptMss hdr with hconn
  have hsndNxt : conn'.sndNxt = conn.sndNxt := by
    rw [hconn]
    split_ifs <;> rfl
  have hlen : conn'.len = conn.len := by
    rw [hconn]
    split_ifs <;> rfl
  have hstate' : conn'.state = conn.state := by
    rw [hconn]
    split_ifs <;> rfl
  split_ifs with hcall
  · refine SendStep.of_eq (callAndSend_sends cfg conn' ?_ ?_ rfl ?_) hsndNxt hlen hstate'
    · exact hstate'.trans hstate
    · intro hack
      exact hlen.trans (hacked hack)
    · intro hcloses
      rw [hlen]
      rcases Bool.or_eq_true_iff.mp hcall with hdata | hack
      · obtain ⟨hpos, hstopped⟩ := Bool.and_eq_true_iff.mp hdata
        exact hclose (of_decide_eq_true hpos) (by simpa using hstopped) hcloses
      · exact hacked hack
  · exact .still hsndNxt hlen hstate'

lemma peerCloses_sends {c : UipConn} (calls : List AppCall) (hsndNxt : conn.sndNxt = c.sndNxt)
    (hstate : conn.state.closes = true) (hcloses : c.state.closes = true) :
    SendStep c (peerCloses cfg conn calls).conn (peerCloses cfg conn calls).sent := by
  apply SendStep.send
  · apply SendStep.close
    · exact (appcall_sndNxt cfg calls _).trans hsndNxt
    · rw [← hstate]
      exact congrArg TcpState.closes (appcall_state cfg calls _)
    · exact .inl hcloses
  · rfl
  · rfl
  · intro hsyn
    cases hsyn

lemma inFinWait1_sends {hdr : TcpHdr} {acked : Bool} {len : UInt16} {calls : List AppCall}
    (hcloses : conn.state.closes = true) :
    SendStep conn (conn.inFinWait1 cfg hdr acked len calls).conn
      (conn.inFinWait1 cfg hdr acked len calls).sent := by
  unfold inFinWait1
  dsimp only
  set conn' := if len > 0 then conn.addRcvNxt len else conn with hconn
  have hsndNxt : conn'.sndNxt = conn.sndNxt := by
    rw [hconn]
    split_ifs <;> rfl
  have hstate : conn'.state = conn.state := by
    rw [hconn]
    split_ifs <;> rfl
  have hstill : SendStep conn conn' none :=
    .close hsndNxt (hstate ▸ hcloses) (.inl hcloses)
  split_ifs with hfin hack hack hlen
  · exact peerCloses_sends cfg _ calls hsndNxt rfl hcloses
  · exact peerCloses_sends cfg _ calls hsndNxt rfl hcloses
  · exact .close hsndNxt rfl (.inl hcloses)
  · apply hstill.send
    · rfl
    · rfl
    · intro hsyn
      cases hsyn
  · exact hstill

lemma inFinWait2_sends {hdr : TcpHdr} {len : UInt16} {calls : List AppCall}
    (hcloses : conn.state.closes = true) :
    SendStep conn (conn.inFinWait2 cfg hdr len calls).conn
      (conn.inFinWait2 cfg hdr len calls).sent := by
  unfold inFinWait2
  dsimp only
  set conn' := if len > 0 then conn.addRcvNxt len else conn with hconn
  have hsndNxt : conn'.sndNxt = conn.sndNxt := by
    rw [hconn]
    split_ifs <;> rfl
  have hstate : conn'.state = conn.state := by
    rw [hconn]
    split_ifs <;> rfl
  have hstill : SendStep conn conn' none :=
    .close hsndNxt (hstate ▸ hcloses) (.inl hcloses)
  split_ifs with hfin hlen
  · exact peerCloses_sends cfg _ calls hsndNxt rfl hcloses
  · apply hstill.send
    · rfl
    · rfl
    · intro hsyn
      cases hsyn
  · exact hstill

/-- The segment hands new data to an application that closes the connection, while data of its own
is not acknowledged. -/
def ClosesUnacked (conn : UipConn) : TcpEvent → Prop
  | .segment hdr _ uipLen calls =>
    conn.state = .established ∧ conn.stopped = false ∧ conn.len ≠ 0 ∧
      conn.acknowledges hdr = false ∧ conn.misplaced hdr (dataLen hdr uipLen) = false ∧
      hdr.flags.rst = false ∧ hdr.flags.fin = false ∧
      dataLen hdr uipLen - (if hdr.flags.urg then hdr.urgp else 0) > 0 ∧ closesIn calls = true
  | _ => False

/-- A SYN of the peer that comes late: the connection was established already, and it is not at the
number that is expected. -/
def AnswersSyn (conn : UipConn) : TcpEvent → Prop
  | .segment hdr _ _ _ =>
    conn.state.opens = false ∧ hdr.flags.rst = false ∧ hdr.flags.syn = true ∧
      hdr.seqno ≠ conn.rcvNxt
  | _ => False

/-- One of the two makes the connection use a sequence number again. -/
def Reuses (conn : UipConn) (e : TcpEvent) : Prop := conn.ClosesUnacked e ∨ conn.AnswersSyn e

lemma inState_sends {hdr : TcpHdr} {acked : Bool} {appdata : ℕ → UInt8} {len : UInt16}
    {calls : List AppCall} {res : TcpResult}
    (h : conn.inState cfg hdr acked appdata len calls = some res)
    (hacked : acked = true → conn.len = 0)
    (hclose : conn.state = .established → conn.stopped = false → hdr.flags.fin = false →
      len - (if hdr.flags.urg then hdr.urgp else 0) > 0 → closesIn calls = true → conn.len = 0) :
    SendStep conn res.conn res.sent := by
  unfold inState at h
  split at h
  · rename_i hstate
    cases h
    exact inSynRcvd_sends cfg conn hstate hacked
  · rename_i hstate
    exact inSynSent_sends cfg conn h hstate hacked
  · rename_i hstate
    cases h
    by_cases hfin : hdr.flags.fin = true ∧ ¬conn.stopped = true
    · rw [inEstablished, if_pos hfin]
      exact acceptFin_sends cfg conn hstate
    · rw [inEstablished, if_neg hfin]
      apply acceptSegment_sends cfg conn hstate hacked
      intro hpos hstopped hcloses
      refine hclose hstate hstopped ?_ hpos hcloses
      simpa [hstopped] using hfin
  · rename_i hstate
    cases h
    unfold inLastAck
    split_ifs with hack
    · apply SendStep.closed
      · exact appcall_sndNxt cfg calls _
      · exact appcall_state cfg calls _
    · exact .still rfl rfl rfl
  · rename_i hstate
    cases h
    apply inFinWait1_sends
    rw [hstate]
    rfl
  · rename_i hstate
    cases h
    apply inFinWait2_sends
    rw [hstate]
    rfl
  · cases h
    apply SendStep.send (.still rfl rfl rfl)
    · rfl
    · rfl
    · intro hsyn
      cases hsyn
  · rename_i hstate
    cases h
    unfold inClosing
    dsimp only
    split_ifs with hack
    · apply SendStep.close
      · rfl
      · rfl
      · rw [hstate]
        exact .inl rfl
    · exact .still rfl rfl rfl
  · cases h
    exact .still rfl rfl rfl

/-- With the acknowledgement of the SYN the connection is established, or comes to an end. -/
lemma inState_acked {hdr : TcpHdr} {appdata : ℕ → UInt8} {len : UInt16} {calls : List AppCall}
    {res : TcpResult} (h : conn.inState cfg hdr true appdata len calls = some res)
    (hlen : conn.len = 0) : res.conn.state.opens = false := by
  have hsends := inState_sends cfg conn h (fun _ => hlen) fun _ _ _ _ _ => hlen
  have hcalled : ∀ (c : UipConn) (flags : UipFlags) (slen : UInt16) (data : List UInt8),
      c.state = .established → flags.ackdata = false → flags.close = false → c.len = 0 →
      (c.callAndSend cfg calls flags slen data).conn.state.opens = false := by
    intro c flags slen data hstate hack hclose hlen
    by_contra hopens
    have hsent : SendStep c (c.callAndSend cfg calls flags slen data).conn
        (c.callAndSend cfg calls flags slen data).sent :=
      callAndSend_sends cfg c hstate (fun _ => hlen) hclose fun _ => hlen
    have hbefore := (hsent.opens (by simpa using hopens)).1
    simp [hstate, TcpState.opens] at hbefore
  by_contra hopens
  have hbefore := (hsends.opens (by simpa using hopens)).1
  have hstate : conn.state = .synRcvd ∨ conn.state = .synSent := by
    revert hbefore
    cases conn.state <;> simp [TcpState.opens]
  refine hopens ?_
  rcases hstate with hstate | hstate
  · rw [inState, hstate] at h
    cases h
    unfold inSynRcvd
    dsimp only
    rw [if_pos rfl]
    split_ifs
    · exact hcalled _ _ _ _ rfl rfl rfl rfl
    · exact hcalled _ _ _ _ rfl rfl rfl rfl
  · rw [inState, hstate] at h
    dsimp only at h
    unfold inSynSent at h
    split_ifs at h
    · obtain ⟨conn', -, rfl⟩ := Option.map_eq_some_iff.mp h
      exact hcalled _ _ _ _ rfl rfl rfl rfl
    · cases h
      rfl

/-- A segment is an acknowledgement, perhaps, and a step. -/
lemma uipSegment_sends {hdr : TcpHdr} {appdata : ℕ → UInt8} {uipLen : UInt16}
    {calls : List AppCall} {res : TcpResult}
    (h : conn.uipSegment cfg hdr appdata uipLen calls = some res)
    (hclean : ¬conn.Reuses (.segment hdr appdata uipLen calls)) :
    SendStep conn res.conn res.sent ∨
      conn.acknowledges hdr = true ∧ SendStep conn.acknowledged res.conn res.sent ∧
        res.conn.state.opens = false := by
  obtain ⟨hclean, hlate⟩ := not_or.mp hclean
  unfold uipSegment at h
  dsimp only at h
  have hstill : SendStep conn conn none := .still rfl rfl rfl
  split_ifs at h with hrst hmisplaced hsyn hack
  · cases h
    left
    apply SendStep.closed
    · exact appcall_sndNxt cfg calls _
    · exact appcall_state cfg calls _
  · cases h
    left
    apply hstill.send
    · rfl
    · rfl
    · refine fun _ => ⟨rfl, ?_⟩
      by_contra hopens
      have hne : hdr.seqno ≠ conn.rcvNxt := by
        simp only [misplaced, Bool.and_eq_true, decide_eq_true_eq] at hmisplaced
        exact hmisplaced.2
      exact hlate ⟨by simpa using hopens, by simpa using hrst, hsyn, hne⟩
  · cases h
    left
    apply hstill.send
    · rfl
    · rfl
    · intro hsyn'
      cases hsyn'
  · right
    refine ⟨hack, ?_, inState_acked cfg _ h rfl⟩
    apply inState_sends cfg _ h
    · intro _
      rfl
    · intro _ _ _ _ _
      rfl
  · left
    apply inState_sends cfg _ h
    · intro hacked
      cases hacked
    · intro hstate hstopped hfin hpos hcloses
      by_contra hlen
      apply hclean
      refine ⟨hstate, hstopped, hlen, ?_, ?_, ?_, hfin, hpos, hcloses⟩
      · exact Bool.eq_false_iff.mpr hack
      · exact Bool.eq_false_iff.mpr hmisplaced
      · exact Bool.eq_false_iff.mpr hrst

/-- An event is an acknowledgement, perhaps, and a step. -/
lemma uipProcess_sends {e : TcpEvent} {res : TcpResult} (h : conn.uipProcess cfg e = some res)
    (hclean : ¬conn.Reuses e) :
    SendStep conn res.conn res.sent ∨
      (∃ hdr appdata uipLen calls, e = .segment hdr appdata uipLen calls ∧
        conn.acknowledges hdr = true) ∧ SendStep conn.acknowledged res.conn res.sent ∧
          res.conn.state.opens = false := by
  rcases e with ⟨hdr, appdata, uipLen, calls⟩ | ⟨calls⟩ | ⟨slen, calls⟩
  · unfold uipProcess at h
    dsimp only at h
    split_ifs at h with hclosed
    rcases uipSegment_sends cfg conn h hclean with hsends | ⟨hack, hsends, hopens⟩
    · exact .inl hsends
    · exact .inr ⟨⟨hdr, appdata, uipLen, calls, rfl, hack⟩, hsends, hopens⟩
  · cases h
    exact .inl (uipTimer_sends cfg conn calls)
  · cases h
    exact .inl (uipPoll_sends cfg conn slen calls)

end UipConn

/-! ## Runs -/

/-- The content of a segment, at the place of its sequence number. -/
def Sent.contents (s : Sent) (place : ℕ) : Set (ℕ × Content) :=
  {x | s.flags.syn = true ∧ x = (place, .syn) ∨
    (∃ i < s.len.toNat, x = (place + s.flags.syn.toNat + i, .data)) ∨
    s.flags.fin = true ∧ x = (place + s.flags.syn.toNat + s.len.toNat, .fin)}

/-- A connection with the place of `snd_nxt` in the sequence space and all that was sent. -/
structure TcpTrace where
  conn : UipConn
  una : ℕ
  log : Set (ℕ × Content)

namespace TcpTrace
variable (cfg : TcpConfig)

/-- How far a sequence number is after another one. -/
def dist (m n : SeqNo) : ℕ := (n.toNat + 2 ^ 32 - m.toNat) % 2 ^ 32

/-- What is recorded of an event. -/
def next (t : TcpTrace) (res : TcpResult) : TcpTrace :=
  let una := t.una + dist t.conn.sndNxt res.conn.sndNxt
  { conn := res.conn
    una
    log := t.log ∪ {x | ∃ s, res.sent = some s ∧
      x ∈ s.contents (una + dist res.conn.sndNxt s.seqno)} }

/-- The runs of a connection with the initial sequence number `iss`, in which no application closes
the connection too early and no SYN comes late. -/
inductive Reachable (iss : SeqNo) : TcpTrace → Prop
  | listen {conn : UipConn} {hdr : TcpHdr} {optdata : ℕ → UInt8} {res : TcpResult}
      (h : conn.foundListen cfg iss hdr optdata = some res) :
      Reachable iss (next ⟨{ conn with sndNxt := iss }, 0, ∅⟩ res)
  | connect : Reachable iss ⟨.uipConnect cfg iss, 0, ∅⟩
  | step {t : TcpTrace} {e : TcpEvent} {res : TcpResult} (ht : Reachable iss t)
      (hclean : ¬t.conn.Reuses e) (h : t.conn.uipProcess cfg e = some res) :
      Reachable iss (t.next res)

/-- What holds of the sequence numbers at any time. -/
structure Ordered (iss : SeqNo) (t : TcpTrace) : Prop where
  sndNxt : t.conn.sndNxt.toNat = (iss.toNat + t.una) % 2 ^ 32
  data : t.conn.state ≠ .closed → ∀ p, (p, Content.data) ∈ t.log →
    p < t.una + if t.conn.state = .established then t.conn.len.toNat else 0
  fin : ∀ p, (p, Content.fin) ∈ t.log → t.conn.state.closes = true ∨ t.conn.state = .closed
  order : ∀ p q, (p, Content.data) ∈ t.log → (q, Content.fin) ∈ t.log → p < q

lemma dist_self (n : SeqNo) : dist n n = 0 := by
  unfold dist
  omega

lemma dist_uipAdd32 (n : SeqNo) (k : UInt16) : dist n (n.uipAdd32 k) = k.toNat := by
  unfold dist
  rw [SeqNo.uipAdd32_toNat]
  have hn := n.toNat_lt
  have hk := k.toNat_lt
  omega

/-- Nothing is sent by an acknowledgement. -/
lemma ordered_acknowledged {iss : SeqNo} {t : TcpTrace} (h : t.Ordered iss) :
    Ordered iss ⟨t.conn.acknowledged, t.una + t.conn.len.toNat, t.log⟩ := by
  have hstate := t.conn.acknowledged_state
  refine ⟨?_, ?_, ?_, h.order⟩
  · show t.conn.acknowledged.sndNxt.toNat = (iss.toNat + (t.una + t.conn.len.toNat)) % 2 ^ 32
    rw [UipConn.acknowledged_sndNxt, SeqNo.uipAdd32_toNat, h.sndNxt]
    omega
  · intro hopen p hp
    have hlt := h.data (hstate ▸ hopen) p hp
    show p < t.una + t.conn.len.toNat + _
    split_ifs at hlt <;> omega
  · intro p hp
    show t.conn.acknowledged.state.closes = true ∨ t.conn.acknowledged.state = .closed
    rw [hstate]
    exact h.fin p hp

/-- What was sent before a step is still in order after it. -/
lemma data_before {iss : SeqNo} {c c' : UipConn} {una : ℕ} {log : Set (ℕ × Content)}
    {sent : Option Sent} (h : Ordered iss ⟨c, una, log⟩) (hsends : SendStep c c' sent)
    (hopen : c'.state ≠ .closed) {p : ℕ} (hp : (p, Content.data) ∈ log) :
    p < una + (if c'.state = .established then c'.len.toNat else 0) ∧
      (c'.state.closes = true → p < una) := by
  rcases c'.state.cases_phase with hstate | hstate | hstate | hstate
  · exact absurd hstate hopen
  · obtain ⟨hbefore, hlen⟩ := hsends.established hstate
    have hne : c.state ≠ .closed := by
      rintro hclosed
      rw [hclosed] at hbefore
      rcases hbefore with hopens | hest
      · cases hopens
      · cases hest
    have hlt := h.data hne p hp
    dsimp only at hlt
    rw [if_pos hstate]
    refine ⟨?_, fun hcloses => by rw [hstate] at hcloses; cases hcloses⟩
    rcases hlen with hlen | ⟨hest, hlen⟩
    · rw [hlen] at hlt
      split_ifs at hlt <;> exact hlt.trans_le (by simp)
    · rw [if_pos hest] at hlt
      rwa [hlen]
  · have hopens := hsends.opens hstate
    have hlt : p < una + if c.state = .established then c.len.toNat else 0 := by
      apply h.data _ p hp
      intro hclosed
      rw [show c.state = .closed from hclosed] at hopens
      cases hopens.1
    rw [if_neg] at hlt
    · exact ⟨by omega, fun _ => hlt⟩
    · intro hest
      rw [hest] at hopens
      cases hopens.1
  · have hlt : p < una := by
      rcases hsends.closes hstate with hcloses | ⟨hbefore, hlen⟩
      · have hlt : p < una + if c.state = .established then c.len.toNat else 0 := by
          apply h.data _ p hp
          intro hclosed
          rw [show c.state = .closed from hclosed] at hcloses
          cases hcloses
        rwa [if_neg] at hlt
        intro hest
        rw [hest] at hcloses
        cases hcloses
      · have hlt : p < una + if c.state = .established then c.len.toNat else 0 := by
          apply h.data _ p hp
          intro hclosed
          rw [show c.state = .closed from hclosed] at hbefore
          rcases hbefore with hopens | hest
          · cases hopens
          · cases hest
        rw [hlen] at hlt
        split_ifs at hlt <;> exact hlt
    exact ⟨by omega, fun _ => hlt⟩

/-- A connection whose FIN was sent before a step does not go back. -/
lemma fin_before {iss : SeqNo} {c c' : UipConn} {una : ℕ} {log : Set (ℕ × Content)}
    {sent : Option Sent} (h : Ordered iss ⟨c, una, log⟩) (hsends : SendStep c c' sent) {p : ℕ}
    (hp : (p, Content.fin) ∈ log) : c'.state.closes = true ∨ c'.state = .closed := by
  have hfin : c.state.closes = true ∨ c.state = .closed := h.fin p hp
  have hbefore : ¬(c.state.opens = true ∨ c.state = .established) := by
    rintro (hopens | hest)
    · rcases hfin with hcloses | hclosed
      · rw [TcpState.not_closes_of_opens hopens] at hcloses
        cases hcloses
      · rw [hclosed] at hopens
        cases hopens
    · rw [hest] at hfin
      rcases hfin with hcloses | hclosed
      · cases hcloses
      · cases hclosed
  rcases c'.state.cases_phase with hstate | hstate | hstate | hstate
  · exact .inr hstate
  · exact absurd (hsends.established hstate).1 hbefore
  · exact absurd (.inl (hsends.opens hstate).1) hbefore
  · exact .inl hstate

/-- A step keeps the order of what is sent. -/
lemma ordered_sends {iss : SeqNo} {c c' : UipConn} {una : ℕ} {log : Set (ℕ × Content)}
    {sent : Option Sent} (h : Ordered iss ⟨c, una, log⟩) (hsends : SendStep c c' sent) :
    Ordered iss ⟨c', una, log ∪ {x | ∃ s, sent = some s ∧
      x ∈ s.contents (una + dist c'.sndNxt s.seqno)}⟩ := by
  -- new data is what is outstanding now, and a new FIN stands at the next number
  have hdata : ∀ p s, sent = some s → (p, Content.data) ∈ s.contents (una + dist c'.sndNxt s.seqno) →
      c'.state = .established ∧ p < una + c'.len.toNat := by
    rintro p s hs hp
    rcases hp with ⟨-, hp⟩ | ⟨i, hi, hp⟩ | ⟨-, hp⟩
    · cases hp
    · have hne : s.len ≠ 0 := by
        intro hlen
        rw [hlen] at hi
        exact absurd hi (Nat.not_lt_zero i)
      obtain ⟨hstate, hlen, hsyn⟩ := hsends.data s hs hne
      refine ⟨hstate, ?_⟩
      rw [hsends.seqno s hs (by simp [Sent.occupies, hne]), dist_self, hsyn] at hp
      rw [hlen] at hi
      have hp := congrArg Prod.fst hp
      dsimp only [Bool.toNat_false] at hp
      omega
    · cases hp
  have hfin : ∀ p s, sent = some s → (p, Content.fin) ∈ s.contents (una + dist c'.sndNxt s.seqno) →
      c'.state.closes = true ∧ una ≤ p := by
    rintro p s hs hp
    rcases hp with ⟨-, hp⟩ | ⟨i, hi, hp⟩ | ⟨hflag, hp⟩
    · cases hp
    · cases hp
    · have hp := congrArg Prod.fst hp
      dsimp only at hp
      exact ⟨hsends.fin s hs hflag, by omega⟩
  have hestcloses : c'.state = .established → c'.state.closes = true → False := by
    intro hest hcloses
    rw [hest] at hcloses
    cases hcloses
  refine ⟨?_, ?_, ?_, ?_⟩
  · show c'.sndNxt.toNat = _
    rw [hsends.sndNxt]
    exact h.sndNxt
  · rintro hopen p (hp | ⟨s, hs, hp⟩)
    · exact (data_before h hsends hopen hp).1
    · obtain ⟨hstate, hlt⟩ := hdata p s hs hp
      show p < una + if c'.state = .established then c'.len.toNat else 0
      rwa [if_pos hstate]
  · rintro p (hp | ⟨s, hs, hp⟩)
    · exact fin_before h hsends hp
    · exact .inl (hfin p s hs hp).1
  · rintro p q (hp | ⟨s, hs, hp⟩) (hq | ⟨s', hs', hq⟩)
    · exact h.order p q hp hq
    · obtain ⟨hcloses, hle⟩ := hfin q s' hs' hq
      have hopen : c'.state ≠ .closed := by
        intro hclosed
        rw [hclosed] at hcloses
        cases hcloses
      exact ((data_before h hsends hopen hp).2 hcloses).trans_le hle
    · obtain ⟨hstate, -⟩ := hdata p s hs hp
      rcases fin_before h hsends hq with hcloses | hclosed
      · exact (hestcloses hstate hcloses).elim
      · rw [hstate] at hclosed
        cases hclosed
    · exact (hestcloses (hdata p s hs hp).1 (hfin q s' hs' hq).1).elim

/-- Nothing was sent but a SYN. -/
lemma ordered_start {iss : SeqNo} {t : TcpTrace} (hsndNxt : t.conn.sndNxt = iss) (huna : t.una = 0)
    (hlog : ∀ x ∈ t.log, x.2 = Content.syn) : Ordered iss t := by
  have hiss := iss.toNat_lt
  refine ⟨?_, ?_, ?_, ?_⟩
  · rw [hsndNxt, huna]
    omega
  · intro _ p hp
    cases hlog _ hp
  · intro p hp
    cases hlog _ hp
  · intro p q hp
    cases hlog _ hp

lemma ordered_next {iss : SeqNo} {t : TcpTrace} {e : TcpEvent} {res : TcpResult}
    (h : t.Ordered iss) (hprocess : t.conn.uipProcess cfg e = some res)
    (hclean : ¬t.conn.Reuses e) : (t.next res).Ordered iss := by
  rcases t.conn.uipProcess_sends cfg hprocess hclean with hsends | ⟨-, hsends, -⟩
  · have huna : t.una + dist t.conn.sndNxt res.conn.sndNxt = t.una := by
      rw [hsends.sndNxt, dist_self, Nat.add_zero]
    unfold next
    dsimp only
    rw [huna]
    exact ordered_sends h hsends
  · have huna : t.una + dist t.conn.sndNxt res.conn.sndNxt = t.una + t.conn.len.toNat := by
      rw [hsends.sndNxt, UipConn.acknowledged_sndNxt, dist_uipAdd32]
    unfold next
    dsimp only
    rw [huna]
    exact ordered_sends (ordered_acknowledged h) hsends

lemma ordered_of_reachable {iss : SeqNo} {t : TcpTrace} (ht : Reachable cfg iss t) :
    t.Ordered iss := by
  induction ht with
  | @listen conn hdr optdata res h =>
    obtain ⟨conn', hmss, rfl⟩ := Option.map_eq_some_iff.mp h
    obtain ⟨mss, initialmss, rfl⟩ := UipConn.announceMss_eq cfg _ hmss
    apply ordered_start
    · rfl
    · exact congrArg (0 + ·) (dist_self iss)
    · rintro x (hx | ⟨s, hs, hx⟩)
      · cases hx
      · cases hs
        rcases hx with ⟨-, hx⟩ | ⟨i, hi, -⟩ | ⟨hfin, -⟩
        · rw [hx]
        · exact absurd hi (Nat.not_lt_zero i)
        · cases hfin
  | connect =>
    apply ordered_start
    · rfl
    · rfl
    · rintro x ⟨⟩
  | step ht hclean h ih => exact ordered_next cfg ih h hclean

/-! ### The SYN -/

/-- The SYN stands at the initial sequence number, and data and the FIN behind it. -/
structure Numbered (t : TcpTrace) : Prop where
  opens : t.conn.state.opens = true → t.una = 0 ∧ t.conn.len ≠ 0
  later : t.conn.state.opens = false → t.conn.state ≠ .closed → 0 < t.una
  syn : ∀ p, (p, Content.syn) ∈ t.log → p = 0
  behind : ∀ p a, (p, a) ∈ t.log → a ≠ .syn → 0 < p

/-- A step sends a SYN at the initial sequence number only, and anything else behind it. -/
lemma numbered_sends {c c' : UipConn} {una : ℕ} {log : Set (ℕ × Content)} {sent : Option Sent}
    (hsends : SendStep c c' sent) (hopens : c'.state.opens = true → una = 0 ∧ c'.len ≠ 0)
    (hlater : c'.state.opens = false → c'.state ≠ .closed → 0 < una)
    (hsyn : ∀ p, (p, Content.syn) ∈ log → p = 0)
    (hbehind : ∀ p a, (p, a) ∈ log → a ≠ Content.syn → 0 < p) :
    Numbered ⟨c', una, log ∪ {x | ∃ s, sent = some s ∧
      x ∈ s.contents (una + dist c'.sndNxt s.seqno)}⟩ := by
  refine ⟨hopens, hlater, ?_, ?_⟩
  · rintro p (hp | ⟨s, hs, hp⟩)
    · exact hsyn p hp
    · rcases hp with ⟨hflag, hp⟩ | ⟨i, -, hp⟩ | ⟨-, hp⟩
      · have hzero := (hopens (hsends.syn s hs hflag)).1
        rw [hsends.seqno s hs (by simp [Sent.occupies, hflag]), dist_self, hzero] at hp
        exact congrArg Prod.fst hp
      · cases hp
      · cases hp
  · rintro p a (hp | ⟨s, hs, hp⟩) ha
    · exact hbehind p a hp ha
    · rcases hp with ⟨-, hp⟩ | ⟨i, hi, hp⟩ | ⟨hflag, hp⟩
      · exact absurd (congrArg Prod.snd hp) ha
      · have hne : s.len ≠ 0 := by
          intro hlen
          rw [hlen] at hi
          exact absurd hi (Nat.not_lt_zero i)
        have hstate := (hsends.data s hs hne).1
        have hpos := hlater (by simp [hstate, TcpState.opens]) (by simp [hstate])
        have hp := congrArg Prod.fst hp
        dsimp only at hp
        omega
      · have hcloses := hsends.fin s hs hflag
        have hpos : 0 < una := by
          apply hlater
          · by_contra hopens
            have hnot := TcpState.not_closes_of_opens (by simpa using hopens)
            rw [hnot] at hcloses
            cases hcloses
          · intro hclosed
            rw [hclosed] at hcloses
            cases hcloses
        have hp := congrArg Prod.fst hp
        dsimp only at hp
        omega

lemma numbered_next {t : TcpTrace} {e : TcpEvent} {res : TcpResult} (h : t.Numbered)
    (hprocess : t.conn.uipProcess cfg e = some res) (hclean : ¬t.conn.Reuses e) :
    (t.next res).Numbered := by
  rcases t.conn.uipProcess_sends cfg hprocess hclean with
    hsends | ⟨⟨hdr, appdata, uipLen, calls, -, hack⟩, hsends, hnot⟩
  · have huna : t.una + dist t.conn.sndNxt res.conn.sndNxt = t.una := by
      rw [hsends.sndNxt, dist_self, Nat.add_zero]
    unfold next
    dsimp only
    rw [huna]
    refine numbered_sends hsends (fun hopens => ?_) (fun hopens hopen => ?_) h.syn h.behind
    · obtain ⟨hbefore, hlen⟩ := hsends.opens hopens
      rw [hlen]
      exact h.opens hbefore
    · -- without an acknowledgement the connection does not get out of the handshake
      have hstuck : (t.conn.state.opens = true ∨ t.conn.state = .established) ∧ t.conn.len = 0 →
          0 < t.una := by
        rintro ⟨hbefore | hest, hlen⟩
        · exact absurd hlen (h.opens hbefore).2
        · exact h.later (by simp [hest, TcpState.opens]) (by simp [hest])
      rcases res.conn.state.cases_phase with hstate | hstate | hstate | hstate
      · exact absurd hstate hopen
      · obtain ⟨hbefore, hlen | ⟨hest, -⟩⟩ := hsends.established hstate
        · exact hstuck ⟨hbefore, hlen⟩
        · exact h.later (by simp [hest, TcpState.opens]) (by simp [hest])
      · rw [hstate] at hopens
        cases hopens
      · rcases hsends.closes hstate with hcloses | hbefore
        · apply h.later
          · by_contra hopens'
            have hnot := TcpState.not_closes_of_opens (by simpa using hopens')
            rw [hnot] at hcloses
            cases hcloses
          · intro hclosed
            rw [hclosed] at hcloses
            cases hcloses
        · exact hstuck hbefore
  · have huna : t.una + dist t.conn.sndNxt res.conn.sndNxt = t.una + t.conn.len.toNat := by
      rw [hsends.sndNxt, UipConn.acknowledged_sndNxt, dist_uipAdd32]
    have hlen : 0 < t.una + t.conn.len.toNat := by
      simp only [UipConn.acknowledges, Bool.and_eq_true, decide_eq_true_eq] at hack
      have hne : t.conn.len.toNat ≠ 0 := fun h0 => hack.1.2 (UInt16.toNat_inj.mp h0)
      omega
    unfold next
    dsimp only
    rw [huna]
    refine numbered_sends hsends (fun hopens => ?_) (fun _ _ => hlen) h.syn h.behind
    rw [hnot] at hopens
    cases hopens

/-- Nothing was sent but a SYN. -/
lemma numbered_start {t : TcpTrace} (hopens : t.conn.state.opens = true) (huna : t.una = 0)
    (hlen : t.conn.len = 1) (hlog : ∀ x ∈ t.log, x = (0, Content.syn)) : Numbered t where
  opens _ := ⟨huna, by rw [hlen]; decide⟩
  later hnot := by
    rw [hopens] at hnot
    cases hnot
  syn p hp := congrArg Prod.fst (hlog _ hp)
  behind p a hp ha := absurd (congrArg Prod.snd (hlog _ hp)) ha

lemma numbered_of_reachable {iss : SeqNo} {t : TcpTrace} (ht : Reachable cfg iss t) : t.Numbered := by
  induction ht with
  | @listen conn hdr optdata res h =>
    obtain ⟨conn', hmss, rfl⟩ := Option.map_eq_some_iff.mp h
    obtain ⟨mss, initialmss, rfl⟩ := UipConn.announceMss_eq cfg _ hmss
    have huna : 0 + dist iss iss = 0 := by rw [dist_self]
    refine numbered_start rfl huna rfl ?_
    rintro x (hx | ⟨s, hs, hx⟩)
    · cases hx
    · cases hs
      rcases hx with ⟨-, hx⟩ | ⟨i, hi, -⟩ | ⟨hfin, -⟩
      · exact hx.trans (congrArg (fun p => (p, Content.syn))
          (show 0 + dist iss iss + dist iss iss = 0 by rw [dist_self]))
      · exact absurd hi (Nat.not_lt_zero i)
      · cases hfin
  | connect =>
    refine numbered_start rfl rfl rfl ?_
    rintro x ⟨⟩
  | step ht hclean h ih => exact numbered_next cfg ih h hclean

/-- The configuration of a node with a buffer for 1280 bytes. -/
def bufferConfig : TcpConfig where
  bufferRoom := 1220
  tcpMss := 1220
  receiveWindow := 1220
  timeWaitTimeout := 120

/-- While no application closes its connection on new data with data of its own unacknowledged, and no
SYN comes late, no sequence number stands for two of a SYN, an octet of data and the FIN, and `snd_nxt`
moves over what is acknowledged and nothing else. -/
theorem one_content {iss : SeqNo} {t : TcpTrace} (ht : Reachable cfg iss t) :
    (∀ p a b, (p, a) ∈ t.log → (p, b) ∈ t.log → a = b) ∧
      t.conn.sndNxt.toNat = (iss.toNat + t.una) % 2 ^ 32 ∧
      ∀ e res, ¬t.conn.Reuses e → t.conn.uipProcess cfg e = some res →
        res.conn.sndNxt = t.conn.sndNxt ∨
          ∃ hdr appdata uipLen calls, e = .segment hdr appdata uipLen calls ∧
            hdr.flags.ack = true ∧ hdr.ackno = t.conn.sndNxt.uipAdd32 t.conn.len ∧
            res.conn.sndNxt = hdr.ackno := by
  have hordered := ordered_of_reachable cfg ht
  have hnumbered := numbered_of_reachable cfg ht
  refine ⟨?_, hordered.sndNxt, ?_⟩
  · have hsyn : ∀ p a, (p, Content.syn) ∈ t.log → (p, a) ∈ t.log → Content.syn = a := by
      intro p a hp ha
      by_contra hne
      have hpos := hnumbered.behind p a ha (Ne.symm hne)
      rw [hnumbered.syn p hp] at hpos
      exact lt_irrefl 0 hpos
    intro p a b ha hb
    cases a with
    | syn => exact hsyn p b ha hb
    | data =>
      cases b with
      | syn => exact (hsyn p .data hb ha).symm
      | data => rfl
      | fin => exact absurd (hordered.order p p ha hb) (lt_irrefl p)
    | fin =>
      cases b with
      | syn => exact (hsyn p .fin hb ha).symm
      | data => exact absurd (hordered.order p p hb ha) (lt_irrefl p)
      | fin => rfl
  · intro e res hclean h
    rcases t.conn.uipProcess_sends cfg h hclean with
      hsends | ⟨⟨hdr, appdata, uipLen, calls, he, hack⟩, hsends, -⟩
    · exact .inl hsends.sndNxt
    · right
      refine ⟨hdr, appdata, uipLen, calls, he, ?_⟩
      simp only [UipConn.acknowledges, Bool.and_eq_true, decide_eq_true_eq] at hack
      obtain ⟨⟨hflag, -⟩, hackno⟩ := hack
      exact ⟨hflag, hackno,
        hsends.sndNxt.trans ((UipConn.acknowledged_sndNxt t.conn).trans hackno.symm)⟩

/-! ### A connection of one octet -/

/-- A connection that was opened by a peer: the peer is at number 101, and we are at 1. -/
def openedConn (len : UInt16) (state : TcpState) : UipConn where
  rcvNxt := ⟨0, 0, 0, 101⟩
  sndNxt := ⟨0, 0, 0, 1⟩
  len
  mss := 1220
  initialmss := 1220
  sa := 0
  sv := 4
  rto := 3
  state
  stopped := false
  timer := 3
  nrtx := 0

/-- The connection when the application has sent one octet. -/
def connectedConn : UipConn :=
  { openedConn 1 .established with sndNxt := ⟨0, 0, 0, 2⟩, sv := 3 }

/-- The connection when the application has closed it on the octet of the peer. -/
def closedConn : UipConn :=
  { connectedConn with rcvNxt := ⟨0, 0, 0, 102⟩, state := .finWait1 }

/-- The connection when the application has closed it on the acknowledgement. -/
def finConn : UipConn := { connectedConn.acknowledged with len := 1, state := .finWait1 }

/-- The segment that opens the connection. -/
def synHdr : TcpHdr where
  seqno := ⟨0, 0, 0, 100⟩
  ackno := ⟨0, 0, 0, 0⟩
  tcpoffset := 0x50
  flags := { syn := true }
  wnd := 1220
  urgp := 0

/-- A segment of the peer with the number 101. -/
def ackHdr : TcpHdr where
  seqno := ⟨0, 0, 0, 101⟩
  ackno := ⟨0, 0, 0, 2⟩
  tcpoffset := 0x50
  flags := { ack := true }
  wnd := 1220
  urgp := 0

/-- The peer opens the connection, and the application sends an octet when it is connected. -/
lemma reachable_connected : ∃ t, Reachable bufferConfig ⟨0, 0, 0, 1⟩ t ∧ t.conn = connectedConn ∧
    t.una = 1 ∧ (0, Content.syn) ∈ t.log ∧ (1, Content.data) ∈ t.log := by
  have hlisten : (openedConn 0 .closed).foundListen bufferConfig ⟨0, 0, 0, 1⟩ synHdr (fun _ => 0) =
      some { conn := openedConn 1 .synRcvd,
             sent := some ((openedConn 1 .synRcvd).tcpSendSynack bufferConfig) } := rfl
  have hack : (openedConn 1 .synRcvd).uipProcess bufferConfig
      (.segment ackHdr (fun _ => 0) 60 [.send 1]) = some
        { conn := connectedConn
          event := some ⟨{ connected := true }, []⟩
          sent := some (connectedConn.tcpSend bufferConfig { ack := true, psh := true } 1 false) } :=
    rfl
  have hclean : ¬(openedConn 1 .synRcvd).Reuses (.segment ackHdr (fun _ => 0) 60 [.send 1]) := by
    rintro (⟨hstate, -⟩ | ⟨hopens, -⟩)
    · exact nomatch hstate
    · exact nomatch hopens
  refine ⟨_, .step (.listen hlisten) hclean hack, rfl, rfl, ?_, ?_⟩
  · left
    right
    exact ⟨_, rfl, .inl ⟨rfl, rfl⟩⟩
  · right
    exact ⟨_, rfl, .inr (.inl ⟨0, by decide, rfl⟩)⟩

/-- The FIN of that connection, with the next sequence number. -/
lemma fin_mem_next (log : Set (ℕ × Content)) (c : UipConn) (event : Option AppEvent) {k : ℕ}
    (h : dist connectedConn.sndNxt c.sndNxt = k) : (1 + k, Content.fin) ∈
      (next ⟨connectedConn, 1, log⟩ ⟨c, event, some (c.tcpSendFinack bufferConfig)⟩).log := by
  refine .inr ⟨_, rfl, .inr (.inr ⟨rfl, ?_⟩)⟩
  change (1 + k, Content.fin) = (1 + dist _ _ + dist c.sndNxt c.sndNxt + 0 + 0, Content.fin)
  rw [h, dist_self]
  rfl

/-- The peer acknowledges that octet, and the application closes: the SYN, the octet and the FIN have
numbers of their own. -/
theorem one_content_finConn : ∃ t, Reachable bufferConfig ⟨0, 0, 0, 1⟩ t ∧
    (0, Content.syn) ∈ t.log ∧ (1, Content.data) ∈ t.log ∧ (2, Content.fin) ∈ t.log ∧
    (1, Content.fin) ∉ t.log ∧ (2, Content.data) ∉ t.log := by
  obtain ⟨⟨conn, una, log⟩, ht, hconn, huna, hsyn, hdata⟩ := reachable_connected
  dsimp only at hconn huna hsyn hdata
  subst hconn huna
  have hack : connectedConn.uipProcess bufferConfig
      (.segment { ackHdr with ackno := ⟨0, 0, 0, 3⟩ } (fun _ => 0) 60 [.close]) = some
        { conn := finConn
          event := some ⟨{ ackdata := true }, []⟩
          sent := some (finConn.tcpSendFinack bufferConfig) } := rfl
  have hclean : ¬connectedConn.Reuses
      (.segment { ackHdr with ackno := ⟨0, 0, 0, 3⟩ } (fun _ => 0) 60 [.close]) := by
    rintro (⟨-, -, -, hunacked, -⟩ | ⟨-, -, hflag, -⟩)
    · exact nomatch hunacked
    · exact nomatch hflag
  have hreach := Reachable.step ht hclean hack
  have hfin := fin_mem_next log finConn (some ⟨{ ackdata := true }, []⟩) (k := 1) (by rfl)
  obtain ⟨hone, -, -⟩ := one_content bufferConfig hreach
  refine ⟨_, hreach, .inl hsyn, .inl hdata, hfin, fun hother => ?_, fun hother => ?_⟩
  · nomatch hone 1 .data .fin (.inl hdata) hother
  · nomatch hone 2 .data .fin hother hfin

/-- The application closes when it is given an octet of the peer, whose segment acknowledges the SYN only:
the FIN has the number of the octet that was sent. -/
theorem not_one_content : ∃ (t : TcpTrace) (e : TcpEvent) (res : TcpResult),
    Reachable bufferConfig ⟨0, 0, 0, 1⟩ t ∧ t.conn.uipProcess bufferConfig e = some res ∧
      ∃ p, (p, Content.data) ∈ (t.next res).log ∧ (p, Content.fin) ∈ (t.next res).log := by
  obtain ⟨⟨conn, una, log⟩, ht, hconn, huna, -, hdata⟩ := reachable_connected
  dsimp only at hconn huna hdata
  subst hconn huna
  have hclose : connectedConn.uipProcess bufferConfig
      (.segment ackHdr (fun _ => 0) 61 [.close]) = some
        { conn := closedConn
          event := some ⟨{ newdata := true }, [0]⟩
          sent := some (closedConn.tcpSendFinack bufferConfig) } := rfl
  exact ⟨_, _, _, ht, hclose, 1, .inl hdata, fin_mem_next _ closedConn _ (k := 0) (by rfl)⟩

end TcpTrace
end Contiki

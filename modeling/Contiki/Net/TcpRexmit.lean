import Contiki.Lib.Run
import Contiki.Net.TcpSend

/-!
# Retransmissions

A connection counts the retransmissions of what is outstanding in `nrtx`, and takes the round trip time
from `timer` if there were none.  `appsend` starts to count anew, also when it is entered for new data
of the peer while data of the application is outstanding.  The round trip time is a signed byte, and
`rto` may grow beyond it.

* `RexmitStep` — what an event does to the count and to the timer.
* `rexmits_bounded` — while data is not disturbed and acknowledged in time, it is sent again eight times
  at most, and no round trip time is taken from it when it was.
-/

namespace Contiki

/-- A segment with data. -/
def carriesData (sent : Option Sent) : Bool := sent.any fun s => s.len != 0

namespace UipConn
variable (cfg : TcpConfig) (conn : UipConn)

/-! ## The guard -/

/-- The event acknowledges what is outstanding. -/
def acks : TcpEvent → Bool
  | .segment hdr _ uipLen _ =>
    !hdr.flags.rst && !conn.misplaced hdr (dataLen hdr uipLen) && conn.acknowledges hdr
  | _ => false

/-- A segment has new data for the application, while data is outstanding that it does not
acknowledge. -/
def interrupts : TcpEvent → Bool
  | .segment hdr appdata uipLen calls =>
    decide (conn.state = .established) && !conn.stopped && conn.len != 0 && !hdr.flags.rst &&
      !hdr.flags.fin && !conn.misplaced hdr (dataLen hdr uipLen) &&
      !conn.acks (.segment hdr appdata uipLen calls) &&
      decide (dataLen hdr uipLen - (if hdr.flags.urg then hdr.urgp else 0) > 0)
  | _ => false

/-- What the application asks for when it is given new data. -/
def newdataRequests (e : TcpEvent) : AppCtx := appcall cfg e.calls ⟨conn, { newdata := true }, 0⟩

/-- An application that is given new data while its own is outstanding aborts the connection, or nothing
was retransmitted before and it does not send again. -/
def Undisturbed (e : TcpEvent) : Prop :=
  conn.interrupts e = true → (conn.newdataRequests cfg e).flags.abort = true ∨
    conn.nrtx = 0 ∧
      ((conn.newdataRequests cfg e).flags.close = true ∨ (conn.newdataRequests cfg e).slen = 0)

/-- A round trip time that is taken is less than 128 ticks of the timer. -/
def InTime (e : TcpEvent) : Prop :=
  conn.acks e = true → conn.nrtx = 0 → conn.rto.toNat < conn.timer.toNat + 128

instance (e : TcpEvent) : Decidable (conn.Undisturbed cfg e) := inferInstanceAs (Decidable (_ → _))

instance (e : TcpEvent) : Decidable (conn.InTime e) := inferInstanceAs (Decidable (_ → _))

end UipConn

/-! ## Steps -/

/-- What is known of the retransmission count and of the timer: a round trip time can be taken from what
is outstanding and from what is sent next. -/
structure Timed (c : UipConn) : Prop where
  nrtx_le : c.nrtx.toNat ≤ 8
  timer_le : c.len ≠ 0 ∧ c.nrtx = 0 ∨ c.len = 0 ∧ c.state = .established →
    c.timer.toNat ≤ c.rto.toNat
  idle : c.state = .finWait2 ∨ c.state = .timeWait → c.len = 0

/-- The connections differ in nothing that retransmissions are about. -/
structure SameTimer (c c' : UipConn) : Prop where
  len : c'.len = c.len
  nrtx : c'.nrtx = c.nrtx
  timer : c'.timer = c.timer
  rto : c'.rto = c.rto
  state : c'.state = c.state
  sa : c'.sa = c.sa
  sv : c'.sv = c.sv

/-- A step of a connection that acknowledges nothing, with the segment that is sent. -/
structure RexmitStep (c c' : UipConn) (sent : Option Sent) : Prop where
  timed : Timed c'
  estimator : c'.sa = c.sa ∧ c'.sv = c.sv ∧ c'.rto = c.rto
  count : c.len ≠ 0 → c.nrtx.toNat + (carriesData sent).toNat ≤ c'.nrtx.toNat

lemma SameTimer.refl (c : UipConn) : SameTimer c c := ⟨rfl, rfl, rfl, rfl, rfl, rfl, rfl⟩

lemma SameTimer.trans {c c₁ c' : UipConn} (h : SameTimer c c₁) (h' : SameTimer c₁ c') :
    SameTimer c c' :=
  ⟨h'.len.trans h.len, h'.nrtx.trans h.nrtx, h'.timer.trans h.timer, h'.rto.trans h.rto,
    h'.state.trans h.state, h'.sa.trans h.sa, h'.sv.trans h.sv⟩

lemma Timed.of_same {c c' : UipConn} (h : Timed c) (hsame : SameTimer c c') : Timed c' where
  nrtx_le := by
    rw [hsame.nrtx]
    exact h.nrtx_le
  timer_le := by
    rw [hsame.len, hsame.nrtx, hsame.state, hsame.timer, hsame.rto]
    exact h.timer_le
  idle := by
    rw [hsame.len, hsame.state]
    exact h.idle

namespace RexmitStep
variable {c d c₁ c' : UipConn} {sent : Option Sent}

/-- Nothing changes, and no data is sent. -/
lemma still (h : Timed c) (hsame : SameTimer c c') (hsent : carriesData sent = false) :
    RexmitStep c c' sent where
  timed := h.of_same hsame
  estimator := ⟨hsame.sa, hsame.sv, hsame.rto⟩
  count := by
    intro _
    rw [hsent, hsame.nrtx]
    exact Nat.le_refl _

/-- The state changes to another one than `UIP_ESTABLISHED`. -/
lemma leaves (h : Timed c) (state : TcpState) (hsame : SameTimer { c with state } c')
    (hstate : state ≠ .established) (hidle : state = .finWait2 ∨ state = .timeWait → c.len = 0)
    (hsent : carriesData sent = false) : RexmitStep c c' sent where
  timed := by
    refine Timed.of_same (c := { c with state }) ⟨h.nrtx_le, ?_, hidle⟩ hsame
    rintro (houtstanding | ⟨-, hestablished⟩)
    · exact h.timer_le (.inl houtstanding)
    · exact absurd hestablished hstate
  estimator := ⟨hsame.sa, hsame.sv, hsame.rto⟩
  count := by
    intro _
    rw [hsent, hsame.nrtx]
    exact Nat.le_refl _

/-- What happens before that does not matter here. -/
lemma of_same (h : RexmitStep c₁ c' sent) (hsame : SameTimer c c₁) : RexmitStep c c' sent where
  timed := h.timed
  estimator := by
    rw [← hsame.sa, ← hsame.sv, ← hsame.rto]
    exact h.estimator
  count := by
    rw [← hsame.len, ← hsame.nrtx]
    exact h.count

/-- Where nothing is outstanding, nothing that was retransmitted is acknowledged later. -/
lemma of_acked (h : RexmitStep c₁ c' sent) (hest : c₁.sa = c.sa ∧ c₁.sv = c.sv ∧ c₁.rto = c.rto)
    (hlen : c.len = 0) : RexmitStep c c' sent where
  timed := h.timed
  estimator := by
    rw [← hest.1, ← hest.2.1, ← hest.2.2]
    exact h.estimator
  count := fun hne => absurd hlen hne

/-- A connection that waits for its end. -/
lemma waits (h : Timed c) (hlen : c.len = 0) (hlen' : d.len = 0) (hnrtx : d.nrtx = c.nrtx)
    (hstate : d.state = .timeWait) (hest : d.sa = c.sa ∧ d.sv = c.sv ∧ d.rto = c.rto)
    (hsame : SameTimer d c') : RexmitStep c c' sent := by
  refine ⟨Timed.of_same ⟨?_, ?_, fun _ => hlen'⟩ hsame, ?_, fun hne => absurd hlen hne⟩
  · rw [hnrtx]
    exact h.nrtx_le
  · rintro (⟨hne, -⟩ | ⟨-, hestablished⟩)
    · exact absurd hlen' hne
    · rw [hstate] at hestablished
      cases hestablished
  · rw [hsame.sa, hsame.sv, hsame.rto]
    exact hest

end RexmitStep

namespace UipConn
variable (cfg : TcpConfig) (conn : UipConn)

lemma sameTimer_appcall (calls : List AppCall) (c : AppCtx) :
    SameTimer c.conn (appcall cfg calls c).conn := by
  obtain ⟨stopped, h⟩ := appcall_conn cfg calls c
  rw [h]
  exact ⟨rfl, rfl, rfl, rfl, rfl, rfl, rfl⟩

lemma sameTimer_callOnly (calls : List AppCall) (flags : UipFlags) (slen : UInt16) :
    SameTimer conn (conn.callOnly cfg calls flags slen) :=
  sameTimer_appcall cfg calls ⟨conn, flags, slen⟩

lemma sameTimer_addRcvNxt (n : UInt16) : SameTimer conn (conn.addRcvNxt n) :=
  ⟨rfl, rfl, rfl, rfl, rfl, rfl, rfl⟩

lemma sameTimer_adaptMss (hdr : TcpHdr) : SameTimer conn (conn.adaptMss hdr) :=
  ⟨rfl, rfl, rfl, rfl, rfl, rfl, rfl⟩

/-- What an application asks for does not depend on the connection. -/
lemma appcall_requests (calls : List AppCall) (c : AppCtx) (conn' : UipConn) :
    (appcall cfg calls { c with conn := conn' }).flags = (appcall cfg calls c).flags ∧
      (appcall cfg calls { c with conn := conn' }).slen = (appcall cfg calls c).slen := by
  induction calls generalizing c conn' with
  | nil => exact ⟨rfl, rfl⟩
  | cons call calls ih =>
    have hcall : ∃ conn₁, appCall cfg { c with conn := conn' } call =
        { appCall cfg c call with conn := conn₁ } := by
      rcases call with len | _ | _ | _ | _
      · refine ⟨conn', ?_⟩
        unfold appCall
        dsimp only
        split_ifs <;> rfl
      all_goals exact ⟨_, rfl⟩
    obtain ⟨conn₁, hcall⟩ := hcall
    have happ : appcall cfg (call :: calls) { c with conn := conn' } =
        appcall cfg calls { appCall cfg c call with conn := conn₁ } := by
      rw [← hcall]
      rfl
    rw [happ]
    exact ih (appCall cfg c call) conn₁

/-! ### Sending -/

lemma acceptData_timer (a : AppCtx) : (acceptData a).conn.timer = a.conn.timer ∧
    (acceptData a).conn.rto = a.conn.rto ∧ (acceptData a).conn.state = a.conn.state ∧
    (acceptData a).conn.sa = a.conn.sa ∧ (acceptData a).conn.sv = a.conn.sv := by
  unfold acceptData
  dsimp only
  split_ifs <;> exact ⟨rfl, rfl, rfl, rfl, rfl⟩

/-- The data that is sent for a connection without data to send is none. -/
lemma carriesData_apprexmit {a : AppCtx} (h : a.slen = 0) :
    carriesData (apprexmit cfg a) = false := by
  unfold apprexmit
  rw [if_neg (by simp [h])]
  split_ifs <;> rfl

/-- `appsend`, when the timer fits what is sent next. -/
lemma appsend_rexmit (a : AppCtx) (h : Timed a.conn) (hstate : a.conn.state = .established)
    (htimer : a.flags.abort = false → a.conn.timer.toNat ≤ a.conn.rto.toNat)
    (hcount : a.conn.len ≠ 0 → a.flags.abort = true ∨
      a.conn.nrtx = 0 ∧ (a.flags.close = true ∨ a.slen = 0)) :
    RexmitStep a.conn (appsend cfg a).1 (appsend cfg a).2 := by
  unfold appsend
  split_ifs with habort hclose
  · refine .leaves h .closed ⟨rfl, rfl, rfl, rfl, rfl, rfl, rfl⟩ (by decide) ?_ rfl
    rintro (hclosed | hclosed) <;> cases hclosed
  · rw [Bool.not_eq_true] at habort
    refine ⟨⟨Nat.zero_le _, fun _ => htimer habort, ?_⟩, ⟨rfl, rfl, rfl⟩, fun hlen => ?_⟩
    · rintro (hwait | hwait) <;> cases hwait
    · obtain ⟨hnrtx, -⟩ := (hcount hlen).resolve_left (by simp [habort])
      rw [hnrtx]
      exact Nat.le_refl _
  · rw [Bool.not_eq_true] at habort
    obtain ⟨htimer', hrto', hstate', hsa', hsv'⟩ := acceptData_timer a
    refine ⟨⟨Nat.zero_le _, fun _ => ?_, ?_⟩, ⟨hsa', hsv', hrto'⟩, fun hlen => ?_⟩
    · show (acceptData a).conn.timer.toNat ≤ (acceptData a).conn.rto.toNat
      rw [htimer', hrto']
      exact htimer habort
    · show (acceptData a).conn.state = .finWait2 ∨ (acceptData a).conn.state = .timeWait → _
      rw [hstate', hstate]
      rintro (hwait | hwait) <;> cases hwait
    · obtain ⟨hnrtx, hnodata⟩ := (hcount hlen).resolve_left (by simp [habort])
      have hslen : a.slen = 0 := hnodata.resolve_left hclose
      have haccept : acceptData a = a := by
        unfold acceptData
        rw [if_neg (by simp [hslen])]
      rw [carriesData_apprexmit cfg (by rw [haccept]; exact hslen), hnrtx]
      exact Nat.le_refl _

lemma callAndSend_rexmit {calls : List AppCall} {flags : UipFlags} {slen : UInt16}
    {data : List UInt8} (h : Timed conn) (hstate : conn.state = .established)
    (hcount : conn.len ≠ 0 → (appcall cfg calls ⟨conn, flags, slen⟩).flags.abort = true ∨
      conn.nrtx = 0 ∧ ((appcall cfg calls ⟨conn, flags, slen⟩).flags.close = true ∨
        (appcall cfg calls ⟨conn, flags, slen⟩).slen = 0)) :
    RexmitStep conn (conn.callAndSend cfg calls flags slen data).conn
      (conn.callAndSend cfg calls flags slen data).sent := by
  have hsame := sameTimer_appcall cfg calls ⟨conn, flags, slen⟩
  dsimp only at hsame
  refine RexmitStep.of_same (appsend_rexmit cfg _ (h.of_same hsame) (hsame.state.trans hstate)
    (fun habort => ?_) (fun hlen => ?_)) hsame
  · rw [hsame.timer, hsame.rto]
    by_cases hlen : conn.len = 0
    · exact h.timer_le (.inr ⟨hlen, hstate⟩)
    · obtain ⟨hnrtx, -⟩ := (hcount hlen).resolve_left (by simp [habort])
      exact h.timer_le (.inl ⟨hlen, hnrtx⟩)
  · rw [hsame.len] at hlen
    rw [hsame.nrtx]
    exact hcount hlen

/-! ### The timer and poll requests -/

/-- A retransmission is counted. -/
lemma retransmit_rexmit {c : UipConn} {calls : List AppCall} (hlen : conn.len = c.len)
    (hnrtx : conn.nrtx.toNat = c.nrtx.toNat + 1) (hle : c.nrtx.toNat < 8)
    (hstate : conn.state = c.state) (hidle : c.state = .finWait2 ∨ c.state = .timeWait → c.len = 0)
    (hne : c.len ≠ 0) (hest : conn.sa = c.sa ∧ conn.sv = c.sv ∧ conn.rto = c.rto) :
    RexmitStep c (conn.retransmit cfg calls).conn (conn.retransmit cfg calls).sent := by
  have hstep : ∀ c' sent, SameTimer conn c' → RexmitStep c c' sent := by
    intro c' sent hsame
    refine ⟨⟨?_, ?_, ?_⟩, ?_, fun _ => ?_⟩
    · rw [hsame.nrtx, hnrtx]
      exact hle
    · rintro (⟨-, hzero⟩ | ⟨hzero, -⟩)
      · rw [hsame.nrtx] at hzero
        rw [hzero] at hnrtx
        exact absurd hnrtx.symm (Nat.succ_ne_zero _)
      · rw [hsame.len, hlen] at hzero
        exact absurd hzero hne
    · rw [hsame.state, hstate, hsame.len, hlen]
      exact hidle
    · rw [hsame.sa, hsame.sv, hsame.rto]
      exact hest
    · rw [hsame.nrtx, hnrtx]
      exact Nat.add_le_add_left (Bool.toNat_le _) _
  unfold retransmit
  split
  · exact hstep _ _ (.refl conn)
  · exact hstep _ _ (.refl conn)
  · exact hstep (appcall cfg calls ⟨conn, { rexmit := true }, 0⟩).conn _
      (sameTimer_appcall cfg calls ⟨conn, { rexmit := true }, 0⟩)
  · exact hstep _ _ (.refl conn)
  · exact hstep _ _ (.refl conn)
  · exact hstep _ _ (.refl conn)
  · exact hstep _ _ (.refl conn)

lemma rexmitTimer_rexmit (calls : List AppCall) (h : Timed conn) (hne : conn.len ≠ 0) :
    RexmitStep conn (conn.rexmitTimer cfg calls).conn (conn.rexmitTimer cfg calls).sent := by
  have hle := h.nrtx_le
  unfold rexmitTimer
  dsimp only
  by_cases hexpired : conn.timer = 0
  · rw [if_pos hexpired]
    split_ifs with hgiveup
    · have hmax : conn.nrtx ≠ 0 := by
        rintro hzero
        rw [hzero] at hgiveup
        rcases hgiveup with hmax | ⟨-, hmax⟩ <;> cases hmax
      have hclosed : Timed { conn with timer := conn.timer - 1, state := .closed, stopped := false } := by
        refine ⟨hle, ?_, ?_⟩
        · rintro (⟨-, hzero⟩ | ⟨hzero, -⟩)
          · exact absurd hzero hmax
          · exact absurd hzero hne
        · rintro (hwait | hwait) <;> cases hwait
      have hsame := sameTimer_callOnly cfg
        { conn with timer := conn.timer - 1, state := .closed, stopped := false } calls
        { timedout := true } 0
      refine ⟨hclosed.of_same hsame, ⟨hsame.sa, hsame.sv, hsame.rto⟩, fun _ => ?_⟩
      exact Nat.le_of_eq (congrArg UInt8.toNat hsame.nrtx.symm)
    all_goals
      rw [not_or] at hgiveup
      have hlt : conn.nrtx.toNat < 8 :=
        lt_of_le_of_ne hle fun heq => hgiveup.1 (UInt8.toNat_inj.mp heq)
      refine retransmit_rexmit cfg _ rfl ?_ hlt rfl h.idle hne ⟨rfl, rfl, rfl⟩
      show (conn.nrtx + 1).toNat = conn.nrtx.toNat + 1
      rw [UInt8.toNat_add]
      show (conn.nrtx.toNat + 1) % 2 ^ 8 = conn.nrtx.toNat + 1
      omega
  · rw [if_neg hexpired]
    refine ⟨⟨hle, ?_, h.idle⟩, ⟨rfl, rfl, rfl⟩, fun _ => Nat.le_refl _⟩
    rintro (houtstanding | ⟨hzero, -⟩)
    · -- the timer has not reached zero
      have hpos : 0 < conn.timer.toNat := by
        rw [Nat.pos_iff_ne_zero]
        exact fun hzero => hexpired (UInt8.toNat_inj.mp hzero)
      have htimer := h.timer_le (.inl houtstanding)
      have hlt := conn.timer.toNat_lt
      show (conn.timer - 1).toNat ≤ conn.rto.toNat
      rw [UInt8.toNat_sub]
      show (2 ^ 8 - 1 + conn.timer.toNat) % 2 ^ 8 ≤ conn.rto.toNat
      omega
    · exact absurd hzero hne

lemma uipTimer_rexmit (calls : List AppCall) (h : Timed conn) :
    RexmitStep conn (conn.uipTimer cfg calls).conn (conn.uipTimer cfg calls).sent := by
  unfold uipTimer
  split_ifs with hwait hclosed hlen hstate
  · have hzero : conn.len = 0 := by
      simp only [stateIs, Bool.and_eq_true, decide_eq_true_eq] at hwait
      exact h.idle (by tauto)
    dsimp only
    split_ifs
    · refine ⟨⟨h.nrtx_le, ?_, fun _ => hzero⟩, ⟨rfl, rfl, rfl⟩, fun hne => absurd hzero hne⟩
      rintro (⟨hne, -⟩ | ⟨-, hestablished⟩)
      · exact absurd hzero hne
      · cases hestablished
    · refine ⟨⟨h.nrtx_le, ?_, h.idle⟩, ⟨rfl, rfl, rfl⟩, fun hne => absurd hzero hne⟩
      rintro (⟨hne, -⟩ | ⟨-, hestablished⟩)
      · exact absurd hzero hne
      · have hestablished : conn.state = .established := hestablished
        simp [stateIs, hestablished] at hwait
  · exact .still h (.refl conn) rfl
  · exact rexmitTimer_rexmit cfg conn calls h hlen
  · rw [not_not] at hlen
    exact callAndSend_rexmit cfg conn h hstate fun hne => absurd hlen hne
  · exact .still h (.refl conn) rfl

lemma uipPoll_rexmit (slen : UInt16) (calls : List AppCall) (h : Timed conn) :
    RexmitStep conn (conn.uipPoll cfg slen calls).conn (conn.uipPoll cfg slen calls).sent := by
  unfold uipPoll
  split_ifs with hestablished hsyn
  · exact callAndSend_rexmit cfg conn h hestablished.1 fun hne => absurd hestablished.2 hne
  · exact .still h (.refl conn) rfl
  · exact .still h (.refl conn) rfl

/-! ### Segments -/

/-- The connection is closed, and its application is told. -/
lemma closed_rexmit (calls : List AppCall) (flags : UipFlags) (h : Timed conn) :
    RexmitStep conn ({ conn with state := .closed, stopped := false }.callOnly cfg calls flags 0)
      none := by
  refine .leaves h .closed ?_ (by decide) ?_ rfl
  · refine SameTimer.trans ?_ (sameTimer_callOnly cfg
      { conn with state := .closed, stopped := false } calls flags 0)
    exact ⟨rfl, rfl, rfl, rfl, rfl, rfl, rfl⟩
  · rintro (hwait | hwait) <;> cases hwait

/-- A connection that is established by an acknowledgement. -/
lemma opens_rexmit {c : UipConn} {calls : List AppCall} {flags : UipFlags} {data : List UInt8}
    (h : Timed conn) (hlen : conn.len = 0) (htimer : conn.timer = conn.rto)
    (hsame : SameTimer { conn with state := .established, len := 0 } c) :
    RexmitStep conn (c.callAndSend cfg calls flags 0 data).conn
      (c.callAndSend cfg calls flags 0 data).sent := by
  have htimed : Timed { conn with state := .established, len := 0 } := by
    refine ⟨h.nrtx_le, fun _ => ?_, fun _ => rfl⟩
    exact Nat.le_of_eq (congrArg UInt8.toNat htimer)
  refine RexmitStep.of_acked (callAndSend_rexmit cfg c (htimed.of_same hsame) hsame.state
    fun hne => absurd hsame.len hne) ⟨hsame.sa, hsame.sv, hsame.rto⟩ hlen

lemma inSynRcvd_rexmit {hdr : TcpHdr} {acked : Bool} {data : List UInt8} {len : UInt16}
    {calls : List AppCall} (h : Timed conn)
    (hacked : acked = true → conn.len = 0 ∧ conn.timer = conn.rto) :
    RexmitStep conn (conn.inSynRcvd cfg hdr acked data len calls).conn
      (conn.inSynRcvd cfg hdr acked data len calls).sent := by
  unfold inSynRcvd
  split_ifs with hack hlen hsyn
  · obtain ⟨hzero, htimer⟩ := hacked hack
    exact opens_rexmit cfg conn h hzero htimer ⟨rfl, rfl, rfl, rfl, rfl, rfl, rfl⟩
  · obtain ⟨hzero, htimer⟩ := hacked hack
    exact opens_rexmit cfg conn h hzero htimer ⟨rfl, rfl, rfl, rfl, rfl, rfl, rfl⟩
  · exact .still h (.refl conn) rfl
  · exact .still h (.refl conn) rfl

lemma inSynSent_rexmit {hdr : TcpHdr} {acked : Bool} {optdata : ℕ → UInt8} {calls : List AppCall}
    {res : TcpResult} (h : Timed conn)
    (hacked : acked = true → conn.len = 0 ∧ conn.timer = conn.rto)
    (hres : conn.inSynSent cfg hdr acked optdata calls = some res) :
    RexmitStep conn res.conn res.sent := by
  unfold inSynSent at hres
  split_ifs at hres with hsynack
  · obtain ⟨hzero, htimer⟩ := hacked hsynack.1
    obtain ⟨conn', hmss, rfl⟩ := Option.map_eq_some_iff.mp hres
    obtain ⟨mss, initialmss, rfl⟩ := announceMss_eq cfg conn hmss
    exact opens_rexmit cfg conn h hzero htimer ⟨rfl, rfl, rfl, rfl, rfl, rfl, rfl⟩
  · rw [Option.some.injEq] at hres
    subst hres
    have hsame := sameTimer_callOnly cfg conn calls { abort := true } 0
    refine .leaves h .closed
      ⟨hsame.len, hsame.nrtx, hsame.timer, hsame.rto, rfl, hsame.sa, hsame.sv⟩ (by decide) ?_ rfl
    rintro (hwait | hwait) <;> cases hwait

lemma acceptFin_rexmit {acked : Bool} {data : List UInt8} {len : UInt16} {calls : List AppCall}
    (h : Timed conn) (hstate : conn.state = .established) :
    RexmitStep conn (conn.acceptFin cfg acked data len calls).conn
      (conn.acceptFin cfg acked data len calls).sent := by
  unfold acceptFin
  split_ifs with hlen
  · exact .still h (.refl conn) rfl
  · rw [not_not] at hlen
    have hsame := (sameTimer_addRcvNxt conn (1 + len)).trans (sameTimer_callOnly cfg
      (conn.addRcvNxt (1 + len)) calls
      { ackdata := acked, close := true, newdata := decide (len > 0) } 0)
    refine ⟨⟨Nat.zero_le _, fun _ => ?_, ?_⟩, ⟨hsame.sa, hsame.sv, hsame.rto⟩,
      fun hne => absurd hlen hne⟩
    · have htimer := h.timer_le (.inr ⟨hlen, hstate⟩)
      rw [← hsame.timer, ← hsame.rto] at htimer
      exact htimer
    · rintro (hwait | hwait) <;> cases hwait

lemma acceptSegment_rexmit {hdr : TcpHdr} {acked : Bool} {data : List UInt8} {len : UInt16}
    {calls : List AppCall} (h : Timed conn) (hstate : conn.state = .established)
    (hacked : acked = true → conn.len = 0)
    (hguard : conn.len ≠ 0 → len > 0 → conn.stopped = false →
      (appcall cfg calls ⟨conn, { newdata := true }, 0⟩).flags.abort = true ∨
        conn.nrtx = 0 ∧ ((appcall cfg calls ⟨conn, { newdata := true }, 0⟩).flags.close = true ∨
          (appcall cfg calls ⟨conn, { newdata := true }, 0⟩).slen = 0)) :
    RexmitStep conn (conn.acceptSegment cfg hdr acked data len calls).conn
      (conn.acceptSegment cfg hdr acked data len calls).sent := by
  unfold acceptSegment
  dsimp only
  generalize hconn : (if (len > 0 && !conn.stopped) = true then conn.addRcvNxt len
    else conn).adaptMss hdr = conn₁
  have hsame : SameTimer conn conn₁ := by
    rw [← hconn]
    split_ifs
    · exact (sameTimer_addRcvNxt conn len).trans (sameTimer_adaptMss _ hdr)
    · exact sameTimer_adaptMss conn hdr
  split_ifs with hcall
  · refine .of_same (callAndSend_rexmit cfg conn₁ (h.of_same hsame) (hsame.state.trans hstate)
      fun hne => ?_) hsame
    rw [hsame.len] at hne
    have hnot : acked = false := by
      rw [← Bool.not_eq_true]
      exact fun hack => hne (hacked hack)
    rw [hnot, Bool.or_false, Bool.and_eq_true, decide_eq_true_eq, Bool.not_eq_true'] at hcall
    obtain ⟨hflags, hslen⟩ :=
      appcall_requests cfg calls ⟨conn, { newdata := true }, 0⟩ conn₁
    rw [hnot, hcall.2, decide_eq_true hcall.1, hsame.nrtx]
    dsimp only at hflags hslen
    show (appcall cfg calls ⟨conn₁, { newdata := true }, 0⟩).flags.abort = true ∨ conn.nrtx = 0 ∧
      ((appcall cfg calls ⟨conn₁, { newdata := true }, 0⟩).flags.close = true ∨
        (appcall cfg calls ⟨conn₁, { newdata := true }, 0⟩).slen = 0)
    rw [hflags, hslen]
    exact hguard hne hcall.1 hcall.2
  · exact .still h hsame rfl

lemma sameTimer_peerCloses (calls : List AppCall) :
    SameTimer conn (peerCloses cfg conn calls).conn :=
  (sameTimer_addRcvNxt conn 1).trans (sameTimer_callOnly cfg (conn.addRcvNxt 1) calls
    { close := true } 0)

lemma inLastAck_rexmit {acked : Bool} {calls : List AppCall} (h : Timed conn) :
    RexmitStep conn (conn.inLastAck cfg acked calls).conn (conn.inLastAck cfg acked calls).sent := by
  unfold inLastAck
  split_ifs
  · exact closed_rexmit cfg conn calls _ h
  · exact .still h (.refl conn) rfl

lemma inFinWait1_rexmit {hdr : TcpHdr} {acked : Bool} {len : UInt16} {calls : List AppCall}
    (h : Timed conn) (hacked : acked = true → conn.len = 0) :
    RexmitStep conn (conn.inFinWait1 cfg hdr acked len calls).conn
      (conn.inFinWait1 cfg hdr acked len calls).sent := by
  unfold inFinWait1
  dsimp only
  generalize hconn : (if len > 0 then conn.addRcvNxt len else conn) = conn₁
  have hsame : SameTimer conn conn₁ := by
    rw [← hconn]
    split_ifs
    · exact sameTimer_addRcvNxt conn len
    · exact .refl conn
  split_ifs with hfin hack hack hdata
  · exact .waits (d := { conn₁ with state := .timeWait, stopped := false, timer := 0, len := 0 }) h
      (hacked hack) rfl hsame.nrtx rfl ⟨hsame.sa, hsame.sv, hsame.rto⟩ (sameTimer_peerCloses cfg _ calls)
  · refine .leaves h .closing ?_ (by decide) ?_ rfl
    · refine SameTimer.trans ?_ (sameTimer_peerCloses cfg
        { conn₁ with state := .closing, stopped := false } calls)
      exact ⟨hsame.len, hsame.nrtx, hsame.timer, hsame.rto, rfl, hsame.sa, hsame.sv⟩
    · rintro (hwait | hwait) <;> cases hwait
  · exact .leaves h .finWait2
      ⟨(hacked hack).symm, hsame.nrtx, hsame.timer, hsame.rto, rfl, hsame.sa, hsame.sv⟩ (by decide)
      (fun _ => hacked hack) rfl
  · exact .still h hsame rfl
  · exact .still h hsame rfl

lemma inFinWait2_rexmit {hdr : TcpHdr} {len : UInt16} {calls : List AppCall} (h : Timed conn)
    (hstate : conn.state = .finWait2) :
    RexmitStep conn (conn.inFinWait2 cfg hdr len calls).conn
      (conn.inFinWait2 cfg hdr len calls).sent := by
  unfold inFinWait2
  dsimp only
  generalize hconn : (if len > 0 then conn.addRcvNxt len else conn) = conn₁
  have hsame : SameTimer conn conn₁ := by
    rw [← hconn]
    split_ifs
    · exact sameTimer_addRcvNxt conn len
    · exact .refl conn
  have hlen : conn.len = 0 := h.idle (.inl hstate)
  split_ifs with hfin hdata
  · exact .waits (d := { conn₁ with state := .timeWait, stopped := false, timer := 0 }) h hlen
      (hsame.len.trans hlen) hsame.nrtx rfl ⟨hsame.sa, hsame.sv, hsame.rto⟩
      (sameTimer_peerCloses cfg _ calls)
  · exact .still h hsame rfl
  · exact .still h hsame rfl

lemma inClosing_rexmit {acked : Bool} (h : Timed conn) (hacked : acked = true → conn.len = 0) :
    RexmitStep conn (conn.inClosing acked).conn (conn.inClosing acked).sent := by
  unfold inClosing
  split_ifs with hack
  · exact .waits (d := { conn with state := .timeWait, stopped := false, timer := 0 }) h
      (hacked hack) (hacked hack) rfl rfl ⟨rfl, rfl, rfl⟩ (.refl _)
  · exact .still h (.refl conn) rfl

/-- The switch on the state, when the segment was acknowledged or does not disturb what is
outstanding. -/
lemma inState_rexmit {hdr : TcpHdr} {acked : Bool} {appdata : ℕ → UInt8} {len : UInt16}
    {calls : List AppCall} {res : TcpResult} (h : Timed conn)
    (hacked : acked = true → conn.len = 0 ∧ conn.timer = conn.rto)
    (hguard : conn.state = .established → conn.stopped = false → conn.len ≠ 0 →
      hdr.flags.fin = false → len - (if hdr.flags.urg then hdr.urgp else 0) > 0 →
      (appcall cfg calls ⟨conn, { newdata := true }, 0⟩).flags.abort = true ∨
        conn.nrtx = 0 ∧ ((appcall cfg calls ⟨conn, { newdata := true }, 0⟩).flags.close = true ∨
          (appcall cfg calls ⟨conn, { newdata := true }, 0⟩).slen = 0))
    (hres : conn.inState cfg hdr acked appdata len calls = some res) :
    RexmitStep conn res.conn res.sent := by
  have hzero : acked = true → conn.len = 0 := fun hack => (hacked hack).1
  unfold inState at hres
  split at hres
  · obtain rfl := Option.some.inj hres
    exact inSynRcvd_rexmit cfg conn h hacked
  · exact inSynSent_rexmit cfg conn h hacked hres
  · rename_i hstate
    obtain rfl := Option.some.inj hres
    unfold inEstablished
    by_cases hfin : hdr.flags.fin = true ∧ ¬conn.stopped = true
    · rw [if_pos hfin]
      exact acceptFin_rexmit cfg conn h hstate
    · rw [if_neg hfin]
      refine acceptSegment_rexmit cfg conn h hstate hzero fun hne hlen hstopped => ?_
      refine hguard hstate hstopped hne ?_ hlen
      rw [hstopped] at hfin
      simpa using hfin
  · obtain rfl := Option.some.inj hres
    exact inLastAck_rexmit cfg conn h
  · obtain rfl := Option.some.inj hres
    exact inFinWait1_rexmit cfg conn h hzero
  · rename_i hstate
    obtain rfl := Option.some.inj hres
    exact inFinWait2_rexmit cfg conn h hstate
  · obtain rfl := Option.some.inj hres
    exact .still h (.refl conn) rfl
  · obtain rfl := Option.some.inj hres
    exact inClosing_rexmit conn h hzero
  · obtain rfl := Option.some.inj hres
    exact .still h (.refl conn) rfl

/-- What is acknowledged can be followed by anything. -/
lemma acknowledged_timed (h : Timed conn) : Timed conn.acknowledged := by
  have hnrtx : conn.acknowledged.nrtx = conn.nrtx := by
    unfold acknowledged estimateRtt
    dsimp only
    split_ifs <;> rfl
  refine ⟨?_, fun _ => ?_, fun _ => rfl⟩
  · rw [hnrtx]
    exact h.nrtx_le
  · exact Nat.le_refl _

/-- **One event.**  It acknowledges what is outstanding, or it leaves the count and the estimation as
they are. -/
lemma uipProcess_rexmit {e : TcpEvent} {res : TcpResult} (h : Timed conn)
    (hguard : conn.Undisturbed cfg e) (hres : conn.uipProcess cfg e = some res) :
    conn.acks e = true ∧ RexmitStep conn.acknowledged res.conn res.sent ∨
      conn.acks e = false ∧ RexmitStep conn res.conn res.sent := by
  cases e with
  | timer calls =>
    obtain rfl := Option.some.inj hres
    exact .inr ⟨rfl, uipTimer_rexmit cfg conn calls h⟩
  | poll slen calls =>
    obtain rfl := Option.some.inj hres
    exact .inr ⟨rfl, uipPoll_rexmit cfg conn slen calls h⟩
  | segment hdr appdata uipLen calls =>
    simp only [uipProcess] at hres
    split_ifs at hres with hclosed
    unfold uipSegment at hres
    dsimp only at hres
    simp only [acks]
    by_cases hrst : hdr.flags.rst = true
    · rw [if_pos hrst, Option.some.injEq] at hres
      subst hres
      rw [hrst]
      exact .inr ⟨rfl, closed_rexmit cfg conn calls _ h⟩
    rw [if_neg hrst] at hres
    by_cases hmisplaced : conn.misplaced hdr (dataLen hdr uipLen) = true
    · rw [if_pos hmisplaced, Option.some.injEq] at hres
      subst hres
      rw [hmisplaced]
      refine .inr ⟨by simp, .still h (.refl conn) ?_⟩
      dsimp only
      split_ifs <;> rfl
    rw [if_neg hmisplaced] at hres
    rw [Bool.not_eq_true] at hrst hmisplaced
    rw [hrst, hmisplaced]
    by_cases hack : conn.acknowledges hdr = true
    · rw [if_pos hack] at hres
      refine .inl ⟨by simpa using hack, ?_⟩
      exact inState_rexmit cfg conn.acknowledged (acknowledged_timed conn h) (fun _ => ⟨rfl, rfl⟩)
        (fun _ _ hne => absurd rfl hne) hres
    · rw [if_neg hack] at hres
      refine .inr ⟨by simpa using hack, ?_⟩
      refine inState_rexmit cfg conn h (fun hfalse => absurd hfalse (by decide)) ?_ hres
      intro hstate hstopped hlen hfin hdata
      refine hguard ?_
      simp [interrupts, acks, hstate, hstopped, hlen, hrst, hfin, hmisplaced, hack, hdata]

end UipConn
/-! ## Runs -/

/-- A connection, and how often the data that is outstanding was sent again. -/
structure RexmitTrace where
  conn : UipConn
  rexmits : ℕ

namespace RexmitTrace
variable (cfg : TcpConfig)

/-- What is recorded of an event. -/
def next (t : RexmitTrace) (e : TcpEvent) (res : TcpResult) : RexmitTrace where
  conn := res.conn
  rexmits :=
    if t.conn.len = 0 ∨ t.conn.acks e = true then 0
    else t.rexmits + (carriesData res.sent).toNat

/-- An event happens. -/
def step (t : RexmitTrace) (e : TcpEvent) : Except Unit RexmitTrace :=
  match t.conn.uipProcess cfg e with
  | none => .error ()
  | some res => .ok (t.next e res)

/-- A connection that was just opened, from either side. -/
def Opened (t : RexmitTrace) : Prop :=
  t.rexmits = 0 ∧ ((∃ iss, t.conn = .uipConnect cfg iss) ∨ ∃ conn iss hdr optdata res,
    UipConn.foundListen cfg conn iss hdr optdata = some res ∧ t.conn = res.conn)

/-- The guard: no new data disturbs what is outstanding, and it is acknowledged in time. -/
def Allowed (t : RexmitTrace) (e : TcpEvent) : Prop := t.conn.Undisturbed cfg e ∧ t.conn.InTime e

instance (t : RexmitTrace) (e : TcpEvent) : Decidable (Allowed cfg t e) :=
  inferInstanceAs (Decidable (_ ∧ _))

/-- The code counts all retransmissions. -/
structure Counted (t : RexmitTrace) : Prop where
  timed : Timed t.conn
  rexmits_le : t.rexmits ≤ t.conn.nrtx.toNat

variable {cfg}

lemma counted_of_opened {t : RexmitTrace} (h : Opened cfg t) : t.Counted := by
  obtain ⟨hzero, hconn⟩ := h
  refine ⟨?_, by rw [hzero]; exact Nat.zero_le _⟩
  rcases hconn with ⟨iss, hconn⟩ | ⟨conn, iss, hdr, optdata, res, hres, hconn⟩
  · rw [hconn]
    exact ⟨Nat.zero_le _, fun _ => (by decide : (1 : UInt8).toNat ≤ uipRto.toNat), by
      rintro (hwait | hwait) <;> cases hwait⟩
  · obtain ⟨conn', hmss, rfl⟩ := Option.map_eq_some_iff.mp hres
    obtain ⟨mss, initialmss, rfl⟩ := UipConn.announceMss_eq cfg _ hmss
    rw [hconn]
    exact ⟨Nat.zero_le _, fun _ => Nat.le_refl _, by rintro (hwait | hwait) <;> cases hwait⟩

lemma Counted.next {t : RexmitTrace} {e : TcpEvent} {res : TcpResult} (h : t.Counted)
    (he : Allowed cfg t e) (hres : t.conn.uipProcess cfg e = some res) : (t.next e res).Counted := by
  rcases UipConn.uipProcess_rexmit cfg t.conn h.timed he.1 hres with ⟨hack, hstep⟩ | ⟨hack, hstep⟩
  · refine ⟨hstep.timed, ?_⟩
    unfold RexmitTrace.next
    rw [if_pos (.inr hack)]
    exact Nat.zero_le _
  · refine ⟨hstep.timed, ?_⟩
    unfold RexmitTrace.next
    split_ifs with hzero
    · exact Nat.zero_le _
    · rw [not_or] at hzero
      exact (Nat.add_le_add_right h.rexmits_le _).trans (hstep.count hzero.1)

lemma counted_of_reaches {t : RexmitTrace} (h : Reaches (step cfg) (Allowed cfg) (Opened cfg) t) :
    t.Counted := by
  refine h.invariant (fun _ => counted_of_opened) fun t e t' ht he hstep => ?_
  unfold step at hstep
  split at hstep
  · cases hstep
  · rename_i res hres
    obtain rfl := Except.ok.inj hstep
    exact ht.next he hres

/-- The estimator is left alone after a retransmission. -/
lemma estimator_of_nrtx {conn : UipConn} (h : conn.nrtx ≠ 0) :
    conn.acknowledged.sa = conn.sa ∧ conn.acknowledged.sv = conn.sv ∧
      conn.acknowledged.rto = conn.rto := by
  unfold UipConn.acknowledged UipConn.estimateRtt
  dsimp only
  rw [if_neg h]
  exact ⟨rfl, rfl, rfl⟩

/-- The round trip time that is taken is a signed byte that is not negative. -/
lemma roundTrip_nonneg {conn : UipConn} (htimer : conn.timer.toNat ≤ conn.rto.toNat)
    (hlt : conn.rto.toNat < conn.timer.toNat + 128) :
    0 ≤ (conn.rto - conn.timer).toBitVec.toInt := by
  have hrto := conn.rto.toNat_lt
  have hsub : (conn.rto - conn.timer).toNat = conn.rto.toNat - conn.timer.toNat := by
    rw [UInt8.toNat_sub]
    omega
  have hlow : 2 * (conn.rto - conn.timer).toBitVec.toNat < 2 ^ 8 := by
    rw [UInt8.toNat_toBitVec, hsub]
    omega
  rw [BitVec.toInt_eq_toNat_of_lt hlow]
  exact Int.natCast_nonneg _

/-- **Retransmissions.**  While no new data disturbs what is outstanding and it is acknowledged in time,
data is sent again eight times at most, after which the connection is closed; an acknowledgement of
data that was sent again does not change the estimation, and a round trip time that is taken is not
negative. -/
theorem rexmits_bounded {t : RexmitTrace} (h : Reaches (step cfg) (Allowed cfg) (Opened cfg) t) :
    t.rexmits ≤ uipMaxrtx.toNat ∧
      (t.rexmits = uipMaxrtx.toNat → t.conn.len ≠ 0 → t.conn.timer = 0 →
        ∀ calls, (t.conn.uipTimer cfg calls).conn.state = .closed) ∧
      ∀ e res, Allowed cfg t e → t.conn.acks e = true → t.conn.uipProcess cfg e = some res →
        (t.rexmits ≠ 0 → res.conn.sa = t.conn.sa ∧ res.conn.sv = t.conn.sv ∧
          res.conn.rto = t.conn.rto) ∧
        (t.conn.nrtx = 0 → 0 ≤ (t.conn.rto - t.conn.timer).toBitVec.toInt) := by
  obtain ⟨htimed, hle⟩ := counted_of_reaches h
  refine ⟨hle.trans htimed.nrtx_le, fun hmax hlen htimer calls => ?_, fun e res he hack hres => ?_⟩
  · have hnrtx : t.conn.nrtx = uipMaxrtx := by
      rw [hmax] at hle
      exact UInt8.toNat_inj.mp (Nat.le_antisymm htimed.nrtx_le hle)
    have hwait : ¬(t.conn.stateIs .timeWait = true ∨ t.conn.stateIs .finWait2 = true) := by
      simp only [UipConn.stateIs, Bool.and_eq_true, decide_eq_true_eq]
      intro hwait
      exact hlen (htimed.idle (by tauto))
    unfold UipConn.uipTimer
    rw [if_neg hwait]
    split_ifs with hclosed
    · simp only [UipConn.stateIs, Bool.and_eq_true, decide_eq_true_eq] at hclosed
      exact hclosed.1
    · unfold UipConn.rexmitTimer
      dsimp only
      rw [if_pos htimer, if_pos (.inl hnrtx)]
      exact (UipConn.sameTimer_callOnly cfg _ calls { timedout := true } 0).state
  · rcases UipConn.uipProcess_rexmit cfg t.conn htimed he.1 hres with ⟨-, hstep⟩ | ⟨hnot, -⟩
    · refine ⟨fun hne => ?_, fun hzero => ?_⟩
      · obtain ⟨hsa, hsv, hrto⟩ := hstep.estimator
        have hnrtx : t.conn.nrtx ≠ 0 := by
          intro hzero
          rw [hzero] at hle
          exact hne (Nat.le_zero.mp hle)
        obtain ⟨hsa', hsv', hrto'⟩ := estimator_of_nrtx hnrtx
        exact ⟨hsa.trans hsa', hsv.trans hsv', hrto.trans hrto'⟩
      · have hlen : t.conn.len ≠ 0 := by
          cases e with
          | segment hdr appdata uipLen calls =>
            simp only [UipConn.acks, UipConn.acknowledges, Bool.and_eq_true,
              decide_eq_true_eq] at hack
            tauto
          | timer => cases hack
          | poll => cases hack
        exact roundTrip_nonneg (htimed.timer_le (.inl ⟨hlen, hzero⟩)) (he.2 hack hzero)
    · rw [hnot] at hack
      cases hack

/-- A peer has opened a connection. -/
def openedTrace : RexmitTrace := ⟨TcpTrace.openedConn 1 .synRcvd, 0⟩

lemma opened_openedTrace : Opened TcpTrace.bufferConfig openedTrace :=
  ⟨rfl, .inr ⟨TcpTrace.openedConn 0 .closed, ⟨0, 0, 0, 1⟩, TcpTrace.synHdr, fun _ => 0, _, rfl, rfl⟩⟩

/-- It completes the handshake, and the application sends an octet. -/
def firstOctet : TcpEvent := .segment TcpTrace.ackHdr (fun _ => 0) 60 [.send 1]

/-- The timer ticks, and the application is ready to send the octet again. -/
def ticks (n : ℕ) : List TcpEvent := List.replicate n (.timer [.send 1])

/-- The peer sends an octet, the one with the number `k`, and acknowledges nothing. -/
def peerSends (k : ℕ) : TcpEvent :=
  .segment { TcpTrace.ackHdr with seqno := ⟨0, 0, 0, 101 + UInt8.ofNat k⟩ } (fun _ => 0) 61 []

/-- The peer has sent nine octets, and acknowledges ours. -/
def peerAcks : TcpEvent :=
  .segment { TcpTrace.ackHdr with seqno := ⟨0, 0, 0, 110⟩, ackno := ⟨0, 0, 0, 3⟩ } (fun _ => 0) 60 []

/-- The octet is sent again after four ticks. -/
theorem rexmits_bounded_once : ∃ t, Reaches (step TcpTrace.bufferConfig)
    (Allowed TcpTrace.bufferConfig) (Opened TcpTrace.bufferConfig) t ∧ t.rexmits = 1 ∧
      ∀ e res, Allowed TcpTrace.bufferConfig t e → t.conn.acks e = true →
        t.conn.uipProcess TcpTrace.bufferConfig e = some res → res.conn.rto = t.conn.rto := by
  have hrun : (runGuarded (step TcpTrace.bufferConfig) (Allowed TcpTrace.bufferConfig) openedTrace
      (firstOctet :: ticks 4)).map (·.rexmits) = some 1 := by decide +kernel
  obtain ⟨t, hguarded, hrexmits⟩ := Option.map_eq_some_iff.mp hrun
  have ht := (Reaches.initial opened_openedTrace).of_runGuarded hguarded
  obtain ⟨-, -, hacks⟩ := rexmits_bounded ht
  exact ⟨t, ht, hrexmits, fun e res he hack hres =>
    ((hacks e res he hack hres).1 (by rw [hrexmits]; decide)).2.2⟩

/-- Each octet of the peer lets the count begin anew: ours is sent again ten times, and a negative round
trip time is taken from its acknowledgement. -/
theorem not_rexmits_bounded : ∃ t res, Reaches (step TcpTrace.bufferConfig) anyEvent
    (Opened TcpTrace.bufferConfig) t ∧ uipMaxrtx.toNat < t.rexmits ∧ t.conn.acks peerAcks = true ∧
      t.conn.uipProcess TcpTrace.bufferConfig peerAcks = some res ∧ res.conn.rto ≠ t.conn.rto ∧
      t.conn.nrtx = 0 ∧ (t.conn.rto - t.conn.timer).toBitVec.toInt < 0 := by
  have hrun : (runEvents (step TcpTrace.bufferConfig) openedTrace (firstOctet ::
      ((List.range 8).flatMap fun k => ticks 4 ++ [peerSends k]) ++ ticks 8 ++ [peerSends 8])).map
        (fun t => ((t.rexmits, t.conn.acks peerAcks), (t.conn.nrtx, t.conn.rto, t.conn.timer),
          (t.conn.uipProcess TcpTrace.bufferConfig peerAcks).map (·.conn.rto))) =
      .ok ((10, true), (0, 3, 6), some 37) := by decide +kernel
  obtain ⟨t, hok, hobs⟩ := exists_ok_of_map hrun
  simp only [Prod.mk.injEq] at hobs
  obtain ⟨⟨hrexmits, hacks⟩, ⟨hnrtx, hrto, htimer⟩, hres⟩ := hobs
  obtain ⟨res, hres, hrto'⟩ := Option.map_eq_some_iff.mp hres
  refine ⟨t, res, (Reaches.initial opened_openedTrace).of_runEvents (fun _ _ _ => trivial) hok, ?_,
    hacks, hres, ?_, hnrtx, ?_⟩
  · rw [hrexmits]
    decide
  · rw [hrto', hrto]
    decide
  · rw [hrto, htimer]
    decide

end RexmitTrace
end Contiki

import Contiki.Net.TcpSend
import Mathlib.Data.Int.ModEq
import Mathlib.Tactic.Linarith

/-!
# The data that a connection receives

A peer sends a stream of octets, and each segment carries a part of it at the place that its
sequence number stands for.  `RcvTrace` keeps, beside a connection, what was handed to its
application as new data and whether the FIN of the peer was accepted.

`uip_process` looks for the data of a segment behind a header without options, whatever the length
of the header is.  So the application is handed the stream of the peer as long as no data is taken
from a segment with options.
-/

namespace Contiki

/-! ## Steps -/

/-- The data that an application is handed as new. -/
def AppEvent.newData (event : AppEvent) : List UInt8 :=
  if event.flags.newdata then event.data else []

namespace TcpResult

/-- The data that an application is handed as new by an event. -/
def newData (res : TcpResult) : List UInt8 := (res.event.map AppEvent.newData).getD []

/-- The connection is not closed by us, and takes no data. -/
structure Quiet (conn : UipConn) (res : TcpResult) : Prop where
  rcvNxt : res.conn.rcvNxt = conn.rcvNxt
  newData : res.newData = []
  state : res.conn.state = conn.state ∨ res.conn.state = .closed ∨
    conn.state = .synRcvd ∧ res.conn.state = .established

/-- Only these parts of the connection before the event matter. -/
lemma Quiet.of_eq {conn₁ conn : UipConn} {res : TcpResult} (h : res.Quiet conn₁)
    (hrcvNxt : conn₁.rcvNxt = conn.rcvNxt) (hstate : conn₁.state = conn.state) : res.Quiet conn where
  rcvNxt := h.rcvNxt.trans hrcvNxt
  newData := h.newData
  state := hstate ▸ h.state

/-- The connection takes the data `data` of a segment. -/
structure Takes (conn : UipConn) (data : List UInt8) (res : TcpResult) : Prop where
  rcvNxt : res.conn.rcvNxt.toNat = (conn.rcvNxt.toNat + data.length) % 2 ^ 32
  newData : res.newData = data
  before : conn.state = .synRcvd ∨ conn.state = .established
  state : res.conn.state = .established

/-- The connection takes the data `data` of a segment and its FIN. -/
structure TakesFin (conn : UipConn) (data : List UInt8) (res : TcpResult) : Prop where
  rcvNxt : res.conn.rcvNxt.toNat = (conn.rcvNxt.toNat + data.length + 1) % 2 ^ 32
  newData : res.newData = data
  before : conn.state = .established
  state : res.conn.state = .lastAck

end TcpResult

/-- An application that does not close its connection. -/
def KeepsOpen (calls : List AppCall) : Prop := ∀ call ∈ calls, call ≠ .close ∧ call ≠ .abort

/-- Our FIN was not sent before the one of the peer. -/
def TcpState.receives : TcpState → Bool
  | .synRcvd | .established | .lastAck | .closed => true
  | _ => false

namespace UipConn
variable (cfg : TcpConfig) (conn : UipConn)

lemma appcall_rcvNxt (calls : List AppCall) (c : AppCtx) :
    (appcall cfg calls c).conn.rcvNxt = c.conn.rcvNxt := by
  obtain ⟨stopped, h⟩ := appcall_conn cfg calls c
  rw [h]

/-- The requests of an application that keeps its connection open. -/
lemma appcall_keepsOpen {calls : List AppCall} (hcalls : KeepsOpen calls) (c : AppCtx) :
    (appcall cfg calls c).flags.close = c.flags.close ∧
      (appcall cfg calls c).flags.abort = c.flags.abort := by
  induction calls generalizing c with
  | nil => exact ⟨rfl, rfl⟩
  | cons call calls ih =>
    obtain ⟨hclose, habort⟩ := ih (fun call hcall => hcalls call (List.mem_cons_of_mem _ hcall))
      (appCall cfg c call)
    have hhead := hcalls call List.mem_cons_self
    have hflags : (appCall cfg c call).flags.close = c.flags.close ∧
        (appCall cfg c call).flags.abort = c.flags.abort := by
      rcases call with len | _ | _ | _ | _
      · rw [appCall]
        split_ifs <;> exact ⟨rfl, rfl⟩
      · exact absurd rfl hhead.1
      · exact absurd rfl hhead.2
      · exact ⟨rfl, rfl⟩
      · exact ⟨rfl, rfl⟩
    exact ⟨hclose.trans hflags.1, habort.trans hflags.2⟩

lemma appsend_rcvNxt (a : AppCtx) : (appsend cfg a).1.rcvNxt = a.conn.rcvNxt := by
  unfold appsend acceptData
  dsimp only
  split_ifs <;> rfl

lemma appsend_state (a : AppCtx) (hclose : a.flags.close = false) (habort : a.flags.abort = false) :
    (appsend cfg a).1.state = a.conn.state := by
  unfold appsend acceptData
  simp only [hclose, habort, Bool.false_eq_true, if_false]
  split_ifs <;> rfl

lemma callAndSend_rcvNxt (calls : List AppCall) (flags : UipFlags) (slen : UInt16)
    (data : List UInt8) :
    (conn.callAndSend cfg calls flags slen data).conn.rcvNxt = conn.rcvNxt :=
  (appsend_rcvNxt cfg _).trans (appcall_rcvNxt cfg calls _)

lemma callAndSend_state {calls : List AppCall} (hcalls : KeepsOpen calls) {flags : UipFlags}
    (slen : UInt16) (data : List UInt8) (hclose : flags.close = false)
    (habort : flags.abort = false) :
    (conn.callAndSend cfg calls flags slen data).conn.state = conn.state := by
  obtain ⟨hclose', habort'⟩ := appcall_keepsOpen cfg hcalls ⟨conn, flags, slen⟩
  have hstate := appsend_state cfg (appcall cfg calls ⟨conn, flags, slen⟩)
    (hclose'.trans hclose) (habort'.trans habort)
  exact hstate.trans (appcall_state cfg calls _)

/-! ## The timer and poll requests -/

open TcpResult

lemma callAndSend_newData (calls : List AppCall) (flags : UipFlags) (slen : UInt16)
    (data : List UInt8) : (conn.callAndSend cfg calls flags slen data).newData =
      if flags.newdata then data else [] := rfl

lemma callAndSend_quiet {calls : List AppCall} (hcalls : KeepsOpen calls) {flags : UipFlags}
    {slen : UInt16} {data : List UInt8} (hclose : flags.close = false)
    (habort : flags.abort = false) (hdata : flags.newdata = true → data = []) :
    (conn.callAndSend cfg calls flags slen data).Quiet conn where
  rcvNxt := callAndSend_rcvNxt cfg conn calls flags slen data
  newData := by
    rw [callAndSend_newData]
    split_ifs with hnew
    · exact hdata hnew
    · rfl
  state := .inl (callAndSend_state cfg conn hcalls slen data hclose habort)

lemma retransmit_quiet (calls : List AppCall) : (conn.retransmit cfg calls).Quiet conn := by
  unfold retransmit
  split
  case h_3 =>
    exact ⟨appcall_rcvNxt cfg calls _, rfl, .inl (appcall_state cfg calls _)⟩
  all_goals exact ⟨rfl, rfl, .inl rfl⟩

lemma rexmitTimer_quiet (calls : List AppCall) : (conn.rexmitTimer cfg calls).Quiet conn := by
  unfold rexmitTimer
  dsimp only
  split_ifs with hexpired hmax
  · exact ⟨appcall_rcvNxt cfg calls _, rfl, .inr (.inl (appcall_state cfg calls _))⟩
  · exact (retransmit_quiet cfg _ calls).of_eq rfl rfl
  · exact (retransmit_quiet cfg _ calls).of_eq rfl rfl
  · exact ⟨rfl, rfl, .inl rfl⟩

lemma uipTimer_quiet {calls : List AppCall} (hcalls : KeepsOpen calls) :
    (conn.uipTimer cfg calls).Quiet conn := by
  unfold uipTimer
  dsimp only
  split_ifs with hwait htimeout hclosed hlen hstate
  · exact ⟨rfl, rfl, .inr (.inl rfl)⟩
  · exact ⟨rfl, rfl, .inl rfl⟩
  · exact ⟨rfl, rfl, .inl rfl⟩
  · exact rexmitTimer_quiet cfg conn calls
  · exact callAndSend_quiet cfg conn hcalls rfl rfl (fun _ => rfl)
  · exact ⟨rfl, rfl, .inl rfl⟩

lemma uipPoll_quiet (slen : UInt16) {calls : List AppCall} (hcalls : KeepsOpen calls) :
    (conn.uipPoll cfg slen calls).Quiet conn := by
  unfold uipPoll
  split_ifs with hstate hsyn
  · exact callAndSend_quiet cfg conn hcalls rfl rfl (fun _ => rfl)
  · exact ⟨rfl, rfl, .inl rfl⟩
  · exact ⟨rfl, rfl, .inl rfl⟩

/-! ## Segments -/

/-- The bytes at `uip_appdata`. -/
def dataAt (appdata : ℕ → UInt8) (len : UInt16) : List UInt8 := (List.range len.toNat).map appdata

lemma length_dataAt (appdata : ℕ → UInt8) (len : UInt16) :
    (dataAt appdata len).length = len.toNat := by
  rw [dataAt, List.length_map, List.length_range]

lemma dataAt_zero {appdata : ℕ → UInt8} {len : UInt16} (h : ¬len > 0) : dataAt appdata len = [] := by
  have hlen : len.toNat = 0 := by
    rw [gt_iff_lt, UInt16.lt_iff_toNat_lt] at h
    exact Nat.eq_zero_of_not_pos h
  rw [dataAt, hlen]
  rfl

lemma dataAt_ne_nil (appdata : ℕ → UInt8) {len : UInt16} (h : len > 0) :
    dataAt appdata len ≠ [] := by
  intro hnil
  have hlength := length_dataAt appdata len
  rw [hnil, List.length_nil] at hlength
  rw [gt_iff_lt, UInt16.lt_iff_toNat_lt, ← hlength] at h
  exact absurd h (lt_irrefl 0)

lemma inSynRcvd_receives {hdr : TcpHdr} {acked : Bool} {appdata : ℕ → UInt8} {len : UInt16}
    {calls : List AppCall} (hcalls : KeepsOpen calls) (hstate : conn.state = .synRcvd) :
    (conn.inSynRcvd cfg hdr acked (dataAt appdata len) len calls).Quiet conn ∨
      acked = true ∧ len > 0 ∧
        (conn.inSynRcvd cfg hdr acked (dataAt appdata len) len calls).Takes conn
          (dataAt appdata len) := by
  unfold inSynRcvd
  dsimp only
  split_ifs with hack hlen hsyn
  · right
    refine ⟨hack, hlen, ?_, ?_, .inl hstate, ?_⟩
    · rw [callAndSend_rcvNxt, length_dataAt]
      exact SeqNo.uipAdd32_toNat _ _
    · rw [callAndSend_newData]
      rfl
    · exact callAndSend_state cfg _ hcalls 0 _ rfl rfl
  · left
    refine ⟨callAndSend_rcvNxt cfg _ calls _ 0 _, rfl, ?_⟩
    exact .inr (.inr ⟨hstate, callAndSend_state cfg _ hcalls 0 _ rfl rfl⟩)
  · exact .inl ⟨rfl, rfl, .inl rfl⟩
  · exact .inl ⟨rfl, rfl, .inl rfl⟩

lemma acceptFin_receives (acked : Bool) (appdata : ℕ → UInt8) {len : UInt16}
    (calls : List AppCall) (hstate : conn.state = .established) (hlen : len.toNat + 1 < 2 ^ 16) :
    (conn.acceptFin cfg acked (dataAt appdata len) len calls).Quiet conn ∨
      conn.len = 0 ∧ (conn.acceptFin cfg acked (dataAt appdata len) len calls).TakesFin conn
        (dataAt appdata len) := by
  unfold acceptFin
  split_ifs with hout
  · exact .inl ⟨rfl, rfl, .inl rfl⟩
  · right
    refine ⟨not_not.mp hout, ?_, ?_, hstate, rfl⟩
    · show ((conn.addRcvNxt (1 + len)).callOnly cfg calls _ 0).rcvNxt.toNat = _
      rw [callOnly, appcall_rcvNxt, length_dataAt]
      refine (SeqNo.uipAdd32_toNat _ _).trans ?_
      rw [UInt16.toNat_add, UInt16.toNat_one]
      omega
    · show (if decide (len > 0) = true then dataAt appdata len else []) = _
      split_ifs with hpos
      · rfl
      · exact (dataAt_zero (by simpa using hpos)).symm

lemma acceptSegment_receives {hdr : TcpHdr} {acked : Bool} {appdata : ℕ → UInt8} {len : UInt16}
    {calls : List AppCall} (hcalls : KeepsOpen calls) (hstate : conn.state = .established) :
    (conn.acceptSegment cfg hdr acked (dataAt appdata len) len calls).Quiet conn ∨
      conn.stopped = false ∧ len > 0 ∧
        (conn.acceptSegment cfg hdr acked (dataAt appdata len) len calls).Takes conn
          (dataAt appdata len) := by
  unfold acceptSegment
  by_cases hnew : (decide (len > 0) && !conn.stopped) = true
  · right
    obtain ⟨hlen, hstopped⟩ := Bool.and_eq_true_iff.mp hnew
    refine ⟨by simpa using hstopped, of_decide_eq_true hlen, ?_⟩
    simp only [hnew, Bool.true_or, if_true]
    refine ⟨?_, ?_, .inr hstate, ?_⟩
    · rw [callAndSend_rcvNxt, length_dataAt]
      exact SeqNo.uipAdd32_toNat _ _
    · rw [callAndSend_newData]
      rfl
    · exact (callAndSend_state cfg _ hcalls 0 _ rfl rfl).trans hstate
  · left
    rw [Bool.not_eq_true] at hnew
    simp only [hnew, Bool.false_or, Bool.false_eq_true, if_false]
    split_ifs with hack
    · exact (callAndSend_quiet cfg _ hcalls rfl rfl (by rintro ⟨⟩)).of_eq rfl rfl
    · exact ⟨rfl, rfl, .inl rfl⟩

/-- What `uip_process` does with the data and the FIN of a segment. -/
def Receives (conn : UipConn) (hdr : TcpHdr) (data : List UInt8) (res : TcpResult) : Prop :=
  (data ≠ [] ∧ res.Takes conn data) ∨ (hdr.flags.fin = true ∧ res.TakesFin conn data)

lemma Receives.of_eq {c₁ c : UipConn} {hdr : TcpHdr} {data : List UInt8} {res : TcpResult}
    (h : c₁.Receives hdr data res) (hrcvNxt : c₁.rcvNxt = c.rcvNxt) (hstate : c₁.state = c.state) :
    c.Receives hdr data res := by
  rcases h with ⟨hne, h₁, h₂, h₃, h₄⟩ | ⟨hfin, h₁, h₂, h₃, h₄⟩
  · rw [hrcvNxt] at h₁
    rw [hstate] at h₃
    exact .inl ⟨hne, h₁, h₂, h₃, h₄⟩
  · rw [hrcvNxt] at h₁
    rw [hstate] at h₃
    exact .inr ⟨hfin, h₁, h₂, h₃, h₄⟩

lemma inEstablished_receives {hdr : TcpHdr} {acked : Bool} {appdata : ℕ → UInt8} {len : UInt16}
    {calls : List AppCall} (hcalls : KeepsOpen calls) (hstate : conn.state = .established)
    (hurg : hdr.flags.urg = false) (hlen : len.toNat + 1 < 2 ^ 16) :
    (conn.inEstablished cfg hdr acked appdata len calls).Quiet conn ∨
      conn.stopped = false ∧ (hdr.flags.fin = true → conn.len = 0) ∧
        conn.Receives hdr (dataAt appdata len)
          (conn.inEstablished cfg hdr acked appdata len calls) := by
  by_cases hfin : hdr.flags.fin = true ∧ ¬conn.stopped = true
  · rw [inEstablished, if_pos hfin]
    rcases acceptFin_receives cfg conn acked appdata calls hstate hlen with
      hquiet | ⟨hout, htakes⟩
    · exact .inl hquiet
    · right
      refine ⟨?_, fun _ => hout, .inr ⟨hfin.1, htakes⟩⟩
      exact Bool.eq_false_iff.mpr hfin.2
  · rw [inEstablished, if_neg hfin, hurg]
    have hdata : (List.range (len - 0).toNat).map (fun i => appdata ((0 : UInt16).toNat + i)) =
        dataAt appdata (len - 0) := by
      simp [dataAt]
    simp only [Bool.false_eq_true, if_false]
    rw [hdata, UInt16.sub_zero]
    rcases acceptSegment_receives cfg conn hcalls hstate with hquiet | ⟨hstopped, hpos, htakes⟩
    · exact .inl hquiet
    · right
      refine ⟨hstopped, ?_, .inl ⟨?_, htakes⟩⟩
      · intro hfin'
        exact absurd ⟨hfin', by simp [hstopped]⟩ hfin
      · exact dataAt_ne_nil appdata hpos

lemma inState_receives {hdr : TcpHdr} {acked : Bool} {appdata : ℕ → UInt8} {len : UInt16}
    {calls : List AppCall} {res : TcpResult} (hcalls : KeepsOpen calls)
    (hurg : hdr.flags.urg = false) (hlen : len.toNat + 1 < 2 ^ 16)
    (hstate : conn.state.receives = true)
    (h : conn.inState cfg hdr acked appdata len calls = some res) :
    res.Quiet conn ∨
      (conn.state = .synRcvd ∧ acked = true ∨
        conn.state = .established ∧ conn.stopped = false ∧
          (hdr.flags.fin = true → conn.len = 0)) ∧
        conn.Receives hdr (dataAt appdata len) res := by
  unfold inState at h
  split at h
  case h_1 hs =>
    cases h
    rcases inSynRcvd_receives cfg conn hcalls hs with hquiet | ⟨hack, hpos, htakes⟩
    · exact .inl hquiet
    · exact .inr ⟨.inl ⟨hs, hack⟩, .inl ⟨dataAt_ne_nil appdata hpos, htakes⟩⟩
  case h_3 hs =>
    cases h
    rcases inEstablished_receives cfg conn hcalls hs hurg hlen with
      hquiet | ⟨hstopped, hfin, hreceives⟩
    · exact .inl hquiet
    · exact .inr ⟨.inr ⟨hs, hstopped, hfin⟩, hreceives⟩
  case h_4 hs =>
    cases h
    left
    unfold inLastAck
    split_ifs with hack
    · exact ⟨appcall_rcvNxt cfg calls _, rfl, .inr (.inl (appcall_state cfg calls _))⟩
    · exact ⟨rfl, rfl, .inl rfl⟩
  case h_9 hs =>
    cases h
    exact .inl ⟨rfl, rfl, .inl rfl⟩
  all_goals
    rename_i hs
    rw [hs] at hstate
    cases hstate

/-- The connection takes the data of a segment, and its FIN. -/
def Accepts (conn : UipConn) (hdr : TcpHdr) : Prop :=
  hdr.flags.rst = false ∧ hdr.seqno = conn.rcvNxt ∧
    (conn.state = .synRcvd ∧ conn.acknowledges hdr = true ∨
      conn.state = .established ∧ conn.stopped = false ∧
        (hdr.flags.fin = true → conn.len = 0 ∨ conn.acknowledges hdr = true))

/-- A segment with data or FIN that gets past the check of its number is the next one. -/
lemma seqno_of_not_misplaced {hdr : TcpHdr} {len : UInt16} (h : conn.misplaced hdr len = false)
    (hstate : conn.state = .synRcvd ∧ conn.acknowledges hdr = true ∨ conn.state = .established)
    (hoccupies : len > 0 ∨ hdr.flags.fin = true) : hdr.seqno = conn.rcvNxt := by
  have hhandshake : ((conn.state = .synSent && hdr.flags = { syn := true, ack := true }) ||
      (conn.state = .synRcvd && hdr.flags = { syn := true })) = false := by
    rcases hstate with ⟨hs, hack⟩ | hs
    · have hflag : hdr.flags.ack = true := by
        simp only [acknowledges, Bool.and_eq_true] at hack
        exact hack.1.1
      have hne : hdr.flags ≠ { syn := true } := by
        intro hflags
        rw [hflags] at hflag
        cases hflag
      simp [hs, hne]
    · simp [hs]
  have hplace : (decide (len > 0) || hdr.flags.syn || hdr.flags.fin) = true := by
    rcases hoccupies with hlen | hfin
    · simp [hlen]
    · simp [hfin]
  unfold misplaced at h
  rw [hhandshake, hplace] at h
  simpa using h

lemma uipSegment_receives {hdr : TcpHdr} {appdata : ℕ → UInt8} {uipLen : UInt16}
    {calls : List AppCall} {res : TcpResult} (hcalls : KeepsOpen calls)
    (hurg : hdr.flags.urg = false) (hlen : (dataLen hdr uipLen).toNat + 1 < 2 ^ 16)
    (hstate : conn.state.receives = true)
    (h : conn.uipSegment cfg hdr appdata uipLen calls = some res) :
    res.Quiet conn ∨
      conn.Accepts hdr ∧ conn.Receives hdr (dataAt appdata (dataLen hdr uipLen)) res := by
  unfold uipSegment at h
  dsimp only at h
  split_ifs at h with hrst hmisplaced hsyn hack
  · cases h
    exact .inl ⟨appcall_rcvNxt cfg calls _, rfl, .inr (.inl (appcall_state cfg calls _))⟩
  · cases h
    exact .inl ⟨rfl, rfl, .inl rfl⟩
  · cases h
    exact .inl ⟨rfl, rfl, .inl rfl⟩
  all_goals
    rw [Bool.not_eq_true] at hrst hmisplaced
    have hoccupies : ∀ {c : UipConn}, c.Receives hdr (dataAt appdata (dataLen hdr uipLen)) res →
        dataLen hdr uipLen > 0 ∨ hdr.flags.fin = true := by
      rintro c (⟨hne, -⟩ | ⟨hfin, -⟩)
      · left
        by_contra hlen
        exact hne (dataAt_zero hlen)
      · exact .inr hfin
  · rcases inState_receives cfg conn.acknowledged hcalls hurg hlen
      (by rwa [acknowledged_state]) h with hquiet | ⟨hs, hreceives⟩
    · exact .inl (hquiet.of_eq conn.acknowledged_rcvNxt conn.acknowledged_state)
    · right
      have hreceives' := hreceives.of_eq conn.acknowledged_rcvNxt conn.acknowledged_state
      rw [acknowledged_state, acknowledged_stopped] at hs
      have hs' : conn.state = .synRcvd ∧ conn.acknowledges hdr = true ∨
          conn.state = .established ∧ conn.stopped = false ∧
            (hdr.flags.fin = true → conn.len = 0 ∨ conn.acknowledges hdr = true) := by
        rcases hs with ⟨hs, -⟩ | ⟨hs, hstopped, -⟩
        · exact .inl ⟨hs, hack⟩
        · exact .inr ⟨hs, hstopped, fun _ => .inr hack⟩
      refine ⟨⟨hrst, ?_, hs'⟩, hreceives'⟩
      apply seqno_of_not_misplaced conn hmisplaced
      · exact hs'.imp_right And.left
      · exact hoccupies hreceives'
  · rw [Bool.not_eq_true] at hack
    rcases inState_receives cfg conn hcalls hurg hlen hstate h with hquiet | ⟨hs, hreceives⟩
    · exact .inl hquiet
    · right
      rcases hs with ⟨-, ⟨⟩⟩ | ⟨hs, hstopped, hfin⟩
      refine ⟨⟨hrst, ?_, .inr ⟨hs, hstopped, fun h => .inl (hfin h)⟩⟩, hreceives⟩
      exact seqno_of_not_misplaced conn hmisplaced (.inr hs) (hoccupies hreceives)

end UipConn

/-! ## Runs -/

namespace TcpEvent

/-- A segment without urgent data whose headers are not longer than the packet. -/
def Consistent : TcpEvent → Prop
  | .segment hdr _ uipLen _ =>
    hdr.flags.urg = false ∧ 5 ≤ (hdr.tcpoffset >>> 4).toNat ∧
      (hdr.tcpoffset >>> 4).toNat * 4 + 40 ≤ uipLen.toNat
  | _ => True

/-- A segment has the octets of the stream from the place on that its number stands for, counted
from `irs` on; of the places with this number, it is one of the two around the next octet. -/
def Carries (stream : ℤ → UInt8) (irs : SeqNo) (handed : ℕ) : TcpEvent → Prop
  | .segment hdr appdata uipLen _ => ∃ place : ℤ,
    (hdr.seqno.toNat : ℤ) ≡ irs.toNat + place [ZMOD 2 ^ 32] ∧ |place - handed| < 2 ^ 32 ∧
      ∀ i < (UipConn.dataLen hdr uipLen).toNat,
        appdata (((hdr.tcpoffset >>> 4).toNat - 5) * 4 + i) = stream (place + i)
  | _ => True

/-- Data is taken from a segment with options. -/
def TakesOptions (conn : UipConn) : TcpEvent → Prop
  | .segment hdr _ uipLen _ =>
    conn.Accepts hdr ∧ hdr.tcpoffset >>> 4 ≠ 5 ∧ UipConn.dataLen hdr uipLen ≠ 0
  | _ => False

end TcpEvent

/-- The octets of a stream from a place on. -/
def octets (stream : ℤ → UInt8) (place len : ℕ) : List UInt8 :=
  (List.range len).map fun i : ℕ => stream ((place + i : ℕ) : ℤ)

lemma octets_append (stream : ℤ → UInt8) (place m n : ℕ) :
    octets stream place (m + n) = octets stream place m ++ octets stream (place + m) n := by
  unfold octets
  rw [List.range_add, List.map_append, List.map_map]
  congr 1
  apply List.map_congr_left
  intro i _
  show stream ((place + (m + i) : ℕ) : ℤ) = _
  rw [Nat.add_assoc]

/-- A connection with the data that its application was handed as new, and whether the FIN of the
peer was accepted. -/
structure RcvTrace where
  conn : UipConn
  handed : List UInt8
  fin : Bool

namespace RcvTrace
variable (cfg : TcpConfig)

/-- What is recorded of an event. -/
def next (t : RcvTrace) (res : TcpResult) : RcvTrace where
  conn := res.conn
  handed := t.handed ++ res.newData
  fin := t.fin || (t.conn.state = .established && res.conn.state = .lastAck)

/-- The runs of a connection from `SYN_RCVD` or `ESTABLISHED` on with a peer that sends `stream`, in
which no data is taken from a segment with options and the application does not close. -/
inductive Receiving (stream : ℤ → UInt8) (start : UipConn) : RcvTrace → Prop
  | start (hstate : start.state = .synRcvd ∨ start.state = .established) :
      Receiving stream start ⟨start, [], false⟩
  | step {t : RcvTrace} {e : TcpEvent} {res : TcpResult} (ht : Receiving stream start t)
      (hconsistent : e.Consistent) (hcarries : e.Carries stream start.rcvNxt t.handed.length)
      (hcalls : KeepsOpen e.calls) (hplain : ¬e.TakesOptions t.conn)
      (h : t.conn.uipProcess cfg e = some res) : Receiving stream start (t.next res)

/-- What holds of the data that was handed over, at any time. -/
structure InOrder (stream : ℤ → UInt8) (start : UipConn) (t : RcvTrace) : Prop where
  rcvNxt : t.conn.rcvNxt.toNat =
    (start.rcvNxt.toNat + t.handed.length + t.fin.toNat) % 2 ^ 32
  handed : t.handed = octets stream 0 t.handed.length
  receives : t.conn.state.receives = true
  fin : t.fin = true → t.conn.state = .lastAck ∨ t.conn.state = .closed

lemma dataLen_toNat {hdr : TcpHdr} {uipLen : UInt16}
    (h : (hdr.tcpoffset >>> 4).toNat * 4 + 40 ≤ uipLen.toNat) :
    (UipConn.dataLen hdr uipLen).toNat = uipLen.toNat - (hdr.tcpoffset >>> 4).toNat * 4 - 40 := by
  have hwords : (hdr.tcpoffset >>> 4).toNat < 2 ^ 4 := by
    rw [UInt8.toNat_shiftRight]
    show hdr.tcpoffset.toNat >>> 4 < 2 ^ 4
    rw [Nat.shiftRight_eq_div_pow]
    have hoffset := hdr.tcpoffset.toNat_lt
    omega
  have hbytes : ((hdr.tcpoffset >>> 4) <<< 2).toUInt16.toNat = (hdr.tcpoffset >>> 4).toNat * 4 := by
    rw [UInt8.toNat_toUInt16, UInt8.toNat_shiftLeft]
    show (hdr.tcpoffset >>> 4).toNat <<< 2 % 2 ^ 8 = _
    rw [Nat.shiftLeft_eq]
    omega
  have hlt := uipLen.toNat_lt
  have hforty : (40 : UInt16).toNat = 40 := rfl
  unfold UipConn.dataLen
  rw [UInt16.toNat_sub, UInt16.toNat_sub, hbytes, hforty]
  omega

/-- An event that takes no data keeps the order. -/
lemma inOrder_quiet {stream : ℤ → UInt8} {start : UipConn} {t : RcvTrace} {res : TcpResult}
    (h : t.InOrder stream start) (hquiet : res.Quiet t.conn) : (t.next res).InOrder stream start := by
  have hstate : res.conn.state.receives = true := by
    rcases hquiet.state with hs | hs | ⟨-, hs⟩
    · rw [hs]
      exact h.receives
    · rw [hs]
      rfl
    · rw [hs]
      rfl
  have hfin : (t.conn.state = .established && res.conn.state = .lastAck) = false := by
    rcases hquiet.state with hs | hs | ⟨-, hs⟩
    · rw [hs]
      cases t.conn.state <;> rfl
    · simp [hs]
    · simp [hs]
  have hnext : t.next res = ⟨res.conn, t.handed, t.fin⟩ := by
    rw [next, hquiet.newData, hfin, List.append_nil, Bool.or_false]
  rw [hnext]
  refine ⟨?_, h.handed, hstate, ?_⟩
  · show res.conn.rcvNxt.toNat = _
    rw [hquiet.rcvNxt]
    exact h.rcvNxt
  · intro hset
    show res.conn.state = .lastAck ∨ res.conn.state = .closed
    rcases hquiet.state with hs | hs | ⟨hs, -⟩
    · rw [hs]
      exact h.fin hset
    · exact .inr hs
    · rcases h.fin hset with hs' | hs'
      · rw [hs] at hs'
        cases hs'
      · rw [hs] at hs'
        cases hs'

/-- A segment that is accepted has the next part of the stream. -/
lemma data_of_carries {stream : ℤ → UInt8} {start : UipConn} {t : RcvTrace} {hdr : TcpHdr}
    {appdata : ℕ → UInt8} {uipLen : UInt16} {calls : List AppCall} (h : t.InOrder stream start)
    (hfin : t.fin = false) (hseqno : hdr.seqno = t.conn.rcvNxt)
    (hcarries : (TcpEvent.segment hdr appdata uipLen calls).Carries stream start.rcvNxt
      t.handed.length)
    (hwords : hdr.tcpoffset >>> 4 = 5 ∨ UipConn.dataLen hdr uipLen = 0) :
    UipConn.dataAt appdata (UipConn.dataLen hdr uipLen) =
      octets stream t.handed.length (UipConn.dataLen hdr uipLen).toNat := by
  obtain ⟨place, hplace, hnear, hbytes⟩ := hcarries
  -- the number of the segment stands for the next octet
  have hnext : place = t.handed.length := by
    rw [hseqno, h.rcvNxt, hfin, Bool.toNat_false, Nat.add_zero] at hplace
    push_cast at hplace
    have hmod : (t.handed.length : ℤ) ≡ place [ZMOD 2 ^ 32] := by
      apply Int.ModEq.add_left_cancel' (start.rcvNxt.toNat : ℤ)
      exact (Int.mod_modEq _ _).symm.trans hplace
    have hdvd := Int.modEq_iff_dvd.mp hmod
    have hzero := Int.eq_zero_of_abs_lt_dvd hdvd hnear
    omega
  rw [hnext] at hbytes
  apply List.map_congr_left
  intro i hi
  have hlt := List.mem_range.mp hi
  have hbyte := hbytes i hlt
  rcases hwords with hwords | hwords
  · rw [hwords] at hbyte
    rw [Nat.cast_add, ← hbyte]
    simp
  · rw [hwords] at hlt
    exact absurd hlt (Nat.not_lt_zero i)

/-- A segment that is accepted keeps the order. -/
lemma inOrder_receives {stream : ℤ → UInt8} {start : UipConn} {t : RcvTrace} {hdr : TcpHdr}
    {appdata : ℕ → UInt8} {uipLen : UInt16} {calls : List AppCall} {res : TcpResult}
    (h : t.InOrder stream start)
    (hcarries : (TcpEvent.segment hdr appdata uipLen calls).Carries stream start.rcvNxt
      t.handed.length)
    (haccepts : t.conn.Accepts hdr)
    (hwords : hdr.tcpoffset >>> 4 = 5 ∨ UipConn.dataLen hdr uipLen = 0)
    (hreceives : t.conn.Receives hdr
      (UipConn.dataAt appdata (UipConn.dataLen hdr uipLen)) res) :
    (t.next res).InOrder stream start := by
  have hbefore : t.conn.state = .synRcvd ∨ t.conn.state = .established := by
    rcases hreceives with ⟨-, htakes⟩ | ⟨-, htakes⟩
    · exact htakes.before
    · exact .inr htakes.before
  have hfin : t.fin = false := by
    rw [Bool.eq_false_iff]
    intro hset
    rcases h.fin hset with hs | hs <;> rw [hs] at hbefore <;> simp at hbefore
  have hdata := data_of_carries h hfin haccepts.2.1 hcarries hwords
  set data := UipConn.dataAt appdata (UipConn.dataLen hdr uipLen) with hset
  have hlength : data.length = (UipConn.dataLen hdr uipLen).toNat := UipConn.length_dataAt _ _
  have hhanded : t.handed ++ data = octets stream 0 (t.handed.length + data.length) := by
    rw [octets_append, ← h.handed, Nat.zero_add, hlength, ← hdata]
  have hrcvNxt := h.rcvNxt
  rw [hfin, Bool.toNat_false] at hrcvNxt
  rcases hreceives with ⟨-, htakes⟩ | ⟨-, htakes⟩
  · have hnext : t.next res = ⟨res.conn, t.handed ++ data, false⟩ := by
      rw [next, htakes.newData, hfin, htakes.state]
      simp
    rw [hnext]
    refine ⟨?_, ?_, ?_, ?_⟩
    · show res.conn.rcvNxt.toNat =
        (start.rcvNxt.toNat + (t.handed ++ data).length + 0) % 2 ^ 32
      rw [htakes.rcvNxt, hrcvNxt, List.length_append]
      omega
    · show t.handed ++ data = octets stream 0 (t.handed ++ data).length
      rw [List.length_append]
      exact hhanded
    · show res.conn.state.receives = true
      rw [htakes.state]
      rfl
    · rintro ⟨⟩
  · have hnext : t.next res = ⟨res.conn, t.handed ++ data, true⟩ := by
      rw [next, htakes.newData, hfin, htakes.state, htakes.before]
      rfl
    rw [hnext]
    refine ⟨?_, ?_, ?_, ?_⟩
    · show res.conn.rcvNxt.toNat =
        (start.rcvNxt.toNat + (t.handed ++ data).length + 1) % 2 ^ 32
      rw [htakes.rcvNxt, hrcvNxt, List.length_append]
      omega
    · show t.handed ++ data = octets stream 0 (t.handed ++ data).length
      rw [List.length_append]
      exact hhanded
    · show res.conn.state.receives = true
      rw [htakes.state]
      rfl
    · exact fun _ => .inl htakes.state

lemma inOrder_next {stream : ℤ → UInt8} {start : UipConn} {t : RcvTrace} {e : TcpEvent}
    {res : TcpResult} (h : t.InOrder stream start) (hconsistent : e.Consistent)
    (hcarries : e.Carries stream start.rcvNxt t.handed.length) (hcalls : KeepsOpen e.calls)
    (hplain : ¬e.TakesOptions t.conn) (hprocess : t.conn.uipProcess cfg e = some res) :
    (t.next res).InOrder stream start := by
  rcases e with ⟨hdr, appdata, uipLen, calls⟩ | ⟨calls⟩ | ⟨slen, calls⟩
  · obtain ⟨hurg, hwords, hfits⟩ := hconsistent
    unfold UipConn.uipProcess at hprocess
    dsimp only at hprocess
    split_ifs at hprocess with hclosed
    have hlen : (UipConn.dataLen hdr uipLen).toNat + 1 < 2 ^ 16 := by
      rw [dataLen_toNat hfits]
      have hlt := uipLen.toNat_lt
      omega
    rcases UipConn.uipSegment_receives cfg t.conn hcalls hurg hlen h.receives hprocess with
      hquiet | ⟨haccepts, hreceives⟩
    · exact inOrder_quiet h hquiet
    · apply inOrder_receives h hcarries haccepts _ hreceives
      by_contra hoptions
      rw [not_or] at hoptions
      exact hplain ⟨haccepts, hoptions⟩
  · cases hprocess
    exact inOrder_quiet h (UipConn.uipTimer_quiet cfg t.conn hcalls)
  · cases hprocess
    exact inOrder_quiet h (UipConn.uipPoll_quiet cfg t.conn slen hcalls)

/-- While no data is taken from a segment with options, the application is handed the stream of the
peer, octet by octet, and `rcv_nxt` counts what it was handed, and the FIN. -/
theorem handed_stream {stream : ℤ → UInt8} {start : UipConn} {t : RcvTrace}
    (ht : Receiving cfg stream start t) :
    t.handed = octets stream 0 t.handed.length ∧
      t.conn.rcvNxt.toNat = (start.rcvNxt.toNat + t.handed.length + t.fin.toNat) % 2 ^ 32 := by
  have hordered : t.InOrder stream start := by
    induction ht with
    | start hstate =>
      refine ⟨?_, rfl, ?_, ?_⟩
      · have hlt := start.rcvNxt.toNat_lt
        show start.rcvNxt.toNat = (start.rcvNxt.toNat + 0 + 0) % 2 ^ 32
        omega
      · show start.state.receives = true
        rcases hstate with hs | hs
        · rw [hs]
          rfl
        · rw [hs]
          rfl
      · rintro ⟨⟩
    | step ht hconsistent hcarries hcalls hplain h ih =>
      exact inOrder_next cfg ih hconsistent hcarries hcalls hplain h
  exact ⟨hordered.handed, hordered.rcvNxt⟩

/-- A segment with the first octet, the letter A, behind a header of the given length in words. -/
def letterSegment (tcpoffset : UInt8) (uipLen : UInt16) : TcpEvent :=
  .segment
    { seqno := ⟨0, 0, 0, 101⟩
      ackno := ⟨0, 0, 0, 1⟩
      tcpoffset
      flags := { ack := true }
      wnd := 1220
      urgp := 0 }
    -- a word of options that do nothing, if there is one
    (fun i => if i < ((tcpoffset >>> 4).toNat - 5) * 4 then 1 else 65) uipLen []

lemma letterSegment_carries (tcpoffset : UInt8) (uipLen : UInt16) :
    (letterSegment tcpoffset uipLen).Carries (fun _ => 65) ⟨0, 0, 0, 101⟩ 0 := by
  refine ⟨0, ?_, ?_, ?_⟩
  · rw [add_zero]
  · norm_num
  · intro i _
    have hdata : ¬((tcpoffset >>> 4).toNat - 5) * 4 + i < ((tcpoffset >>> 4).toNat - 5) * 4 := by
      omega
    exact if_neg hdata

/-- What `uip_process` does with the segment. -/
def letterResult (letter : UInt8) : TcpResult :=
  let conn := (TcpTrace.openedConn 0 .established).addRcvNxt 1
  { conn
    event := some ⟨{ newdata := true }, [letter]⟩
    sent := some (conn.tcpSendAck TcpTrace.bufferConfig) }

/-- The peer sends the letter A, and the letter B from then on. -/
def letters (place : ℤ) : UInt8 := if place = 0 then 65 else 66

/-- The header of a segment without options from the given place on. -/
def octetHdr (place : UInt8) : TcpHdr where
  seqno := ⟨0, 0, 0, 101 + place⟩
  ackno := ⟨0, 0, 0, 1⟩
  tcpoffset := 0x50
  flags := { ack := true }
  wnd := 1220
  urgp := 0

/-- The segment with the octet of the peer at this place. -/
def octetSegment (place : UInt8) : TcpEvent :=
  .segment (octetHdr place) (fun _ => letters place.toNat) 61 []

lemma dataLen_octetHdr (place : UInt8) : (UipConn.dataLen (octetHdr place) 61).toNat = 1 := by
  have hoctets : ((0x50 : UInt8) >>> 4).toNat * 4 = 20 := by decide
  rw [dataLen_toNat (by show ((0x50 : UInt8) >>> 4).toNat * 4 + 40 ≤ _; rw [hoctets]; decide)]
  show _ - ((0x50 : UInt8) >>> 4).toNat * 4 - 40 = 1
  rw [hoctets]
  rfl

lemma Receiving.octet {t : RcvTrace}
    (ht : Receiving TcpTrace.bufferConfig letters (TcpTrace.openedConn 0 .established) t) (place : UInt8)
    (t' : RcvTrace) (hplace : place.toNat < 128) (hlen : t.handed.length < 128)
    (h : (t.conn.uipProcess TcpTrace.bufferConfig (octetSegment place)).map t.next = some t') :
    Receiving TcpTrace.bufferConfig letters (TcpTrace.openedConn 0 .established) t' := by
  obtain ⟨res, hres, rfl⟩ := Option.map_eq_some_iff.mp h
  have hwords : (0x50 : UInt8) >>> 4 = 5 := by decide
  have hfits : 5 ≤ ((0x50 : UInt8) >>> 4).toNat ∧
      ((0x50 : UInt8) >>> 4).toNat * 4 + 40 ≤ (61 : UInt16).toNat := by decide
  refine ht.step (e := octetSegment place) ⟨rfl, hfits⟩ ⟨place.toNat, ?_, ?_, ?_⟩
    (by rintro call ⟨⟩) (fun htakes => htakes.2.1 hwords) hres
  · have hseqno : (⟨0, 0, 0, 101 + place⟩ : SeqNo).toNat = 101 + place.toNat := by
      show ((0 * 256 + 0) * 256 + 0) * 256 + (101 + place).toNat = _
      rw [UInt8.toNat_add]
      exact (Nat.zero_add _).trans (Nat.mod_eq_of_lt (by show 101 + place.toNat < 256; omega))
    show ((⟨0, 0, 0, 101 + place⟩ : SeqNo).toNat : ℤ) ≡ _ [ZMOD 2 ^ 32]
    rw [hseqno]
    rfl
  · rw [abs_lt]
    omega
  · intro i hi
    rw [dataLen_octetHdr] at hi
    have hzero : i = 0 := Nat.lt_one_iff.mp hi
    rw [hzero]
    rfl

/-- A segment comes, comes again, and is followed by the next one. -/
theorem handed_stream_letter : ∃ t : RcvTrace,
    Receiving TcpTrace.bufferConfig letters (TcpTrace.openedConn 0 .established) t ∧
      t.handed.length = 2 ∧ t.handed = octets letters 0 2 ∧ t.conn.rcvNxt.toNat = 103 := by
  have hstart : Receiving TcpTrace.bufferConfig letters (TcpTrace.openedConn 0 .established)
      ⟨TcpTrace.openedConn 0 .established, [], false⟩ := .start (.inr rfl)
  have hfirst := hstart.octet 0 ⟨(TcpTrace.openedConn 0 .established).addRcvNxt 1, [65], false⟩
    (by decide) (by decide) rfl
  have hagain := hfirst.octet 0 ⟨(TcpTrace.openedConn 0 .established).addRcvNxt 1, [65], false⟩
    (by decide) (by decide) rfl
  have hnext := hagain.octet 1
    ⟨((TcpTrace.openedConn 0 .established).addRcvNxt 1).addRcvNxt 1, [65, 66], false⟩
    (by decide) (by decide) rfl
  obtain ⟨hhanded, hcount⟩ := handed_stream TcpTrace.bufferConfig hnext
  exact ⟨_, hnext, rfl, hhanded, hcount⟩

/-- Of a segment with options, the application is handed the options. -/
theorem not_handed_stream : ∃ (stream : ℤ → UInt8) (start : UipConn) (t : RcvTrace) (e : TcpEvent)
    (res : TcpResult), Receiving TcpTrace.bufferConfig stream start t ∧ e.Consistent ∧
      e.Carries stream start.rcvNxt t.handed.length ∧ KeepsOpen e.calls ∧
      t.conn.uipProcess TcpTrace.bufferConfig e = some res ∧
      (t.next res).handed ≠ octets stream 0 (t.next res).handed.length := by
  have hconsistent : (letterSegment 0x60 65).Consistent := by
    refine ⟨rfl, ?_, ?_⟩ <;> decide
  refine ⟨fun _ => 65, TcpTrace.openedConn 0 .established, _, letterSegment 0x60 65, letterResult 1,
    .start (.inr rfl), hconsistent, letterSegment_carries 0x60 65, ?_, rfl, ?_⟩
  · rintro call ⟨⟩
  · intro h
    have hletter : ([1] : List UInt8) = [65] := h
    exact absurd hletter (by decide)

end RcvTrace
end Contiki

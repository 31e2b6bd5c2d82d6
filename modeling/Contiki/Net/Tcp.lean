import Mathlib.Algebra.Group.Nat.Defs
import Mathlib.Data.List.Range
import Mathlib.Tactic.Common
import Mathlib.Tactic.Simps.Basic

/-!
# TCP connections

The part of `uip_process` that works on a connection: the periodic timer, poll requests, and
segments from the label `found` on, with the labels `appsend`, `apprexmit`, `tcp_send_synack`,
`tcp_send_finack`, `tcp_send_ack` and `tcp_send_nodata` as functions of their own.

An application acts on a connection through the callback `UIP_APPCALL` alone.  What it does there is
a list of calls of `uip_send`, `uip_close`, `uip_abort`, `uip_stop` and `uip_restart`; the callback
itself is seen as an `AppEvent`, the flags and the data it is given.  Of the data that is sent only
the length is kept.
-/

namespace Contiki

/-! ## Sequence numbers -/

/-- A sequence number: four bytes, the most significant one first. -/
structure SeqNo where
  b0 : UInt8
  b1 : UInt8
  b2 : UInt8
  b3 : UInt8
deriving DecidableEq

namespace SeqNo

/-- The number that the bytes stand for. -/
def toNat (n : SeqNo) : ℕ :=
  ((n.b0.toNat * 2 ^ 8 + n.b1.toNat) * 2 ^ 8 + n.b2.toNat) * 2 ^ 8 + n.b3.toNat

/-- `++uip_acc32[1]`, with the carry into `uip_acc32[0]`. -/
def incr1 (acc : SeqNo) : SeqNo :=
  let b1 := acc.b1 + 1
  { acc with b0 := if b1 = 0 then acc.b0 + 1 else acc.b0, b1 }

/-- `++uip_acc32[2]`, with the carries. -/
def incr2 (acc : SeqNo) : SeqNo :=
  let acc := { acc with b2 := acc.b2 + 1 }
  if acc.b2 = 0 then acc.incr1 else acc

/-- `++ackno`, in the reset of a segment. -/
def incr3 (acc : SeqNo) : SeqNo :=
  let acc := { acc with b3 := acc.b3 + 1 }
  if acc.b3 = 0 then acc.incr2 else acc

def uipAdd32 (op32 : SeqNo) (op16 : UInt16) : SeqNo :=
  let low := (op16 &&& 0xff).toUInt8
  let high := (op16 >>> 8).toUInt8
  let acc := { op32 with b2 := op32.b2 + high, b3 := op32.b3 + low }
  let acc := if acc.b2 < high then acc.incr1 else acc
  if acc.b3 < low then acc.incr2 else acc

lemma toNat_lt (n : SeqNo) : n.toNat < 2 ^ 32 := by
  have h0 := n.b0.toNat_lt
  have h1 := n.b1.toNat_lt
  have h2 := n.b2.toNat_lt
  have h3 := n.b3.toNat_lt
  unfold toNat
  omega

lemma toNat_inj {m n : SeqNo} (h : m.toNat = n.toNat) : m = n := by
  have hm1 := m.b1.toNat_lt
  have hm2 := m.b2.toNat_lt
  have hm3 := m.b3.toNat_lt
  have hn1 := n.b1.toNat_lt
  have hn2 := n.b2.toNat_lt
  have hn3 := n.b3.toNat_lt
  unfold toNat at h
  obtain ⟨m0, m1, m2, m3⟩ := m
  obtain ⟨n0, n1, n2, n3⟩ := n
  simp only [mk.injEq, ← UInt8.toNat_inj]
  dsimp only at *
  omega

lemma add_one_eq_zero (b : UInt8) : b + 1 = 0 ↔ b.toNat = 255 := by
  rw [← UInt8.toNat_inj, UInt8.toNat_add]
  have hb := b.toNat_lt
  show (b.toNat + 1) % 2 ^ 8 = 0 ↔ _
  omega

/-- A carry into the second byte. -/
lemma incr1_toNat (n : SeqNo) : n.incr1.toNat = (n.toNat + 2 ^ 16) % 2 ^ 32 := by
  have h0 := n.b0.toNat_lt
  have h1 := n.b1.toNat_lt
  have h2 := n.b2.toNat_lt
  have h3 := n.b3.toNat_lt
  unfold incr1 toNat
  simp only [add_one_eq_zero]
  split_ifs with hcarry
  · simp only [UInt8.toNat_add, UInt8.toNat_one]
    omega
  · simp only [UInt8.toNat_add, UInt8.toNat_one]
    omega

lemma incr2_toNat (n : SeqNo) : n.incr2.toNat = (n.toNat + 2 ^ 8) % 2 ^ 32 := by
  have h2 := n.b2.toNat_lt
  have h3 := n.b3.toNat_lt
  have hlt := n.toNat_lt
  unfold incr2
  simp only [add_one_eq_zero]
  split_ifs with hcarry
  · rw [incr1_toNat]
    unfold toNat
    simp only [UInt8.toNat_add, UInt8.toNat_one, hcarry]
    omega
  · unfold toNat at *
    simp only [UInt8.toNat_add, UInt8.toNat_one]
    omega

lemma uipAdd32_toNat (n : SeqNo) (k : UInt16) :
    (n.uipAdd32 k).toNat = (n.toNat + k.toNat) % 2 ^ 32 := by
  have hlow : ((k &&& 0xff).toUInt8).toNat = k.toNat % 2 ^ 8 := by
    rw [UInt16.toNat_toUInt8, UInt16.toNat_and]
    show (k.toNat &&& 2 ^ 8 - 1) % 2 ^ 8 = _
    rw [Nat.and_two_pow_sub_one_eq_mod, Nat.mod_mod]
  have hhigh : ((k >>> 8).toUInt8).toNat = k.toNat / 2 ^ 8 := by
    rw [UInt16.toNat_toUInt8, UInt16.toNat_shiftRight]
    show k.toNat >>> 8 % 2 ^ 8 = _
    rw [Nat.shiftRight_eq_div_pow]
    have hk := k.toNat_lt
    omega
  have hk := k.toNat_lt
  have h2 := n.b2.toNat_lt
  have h3 := n.b3.toNat_lt
  have hlt := n.toNat_lt
  -- without carries, each of the two lower bytes is added modulo 256
  set acc : SeqNo := { n with
    b2 := n.b2 + (k >>> 8).toUInt8
    b3 := n.b3 + (k &&& 0xff).toUInt8 } with hacc
  have hacc2 : acc.b2.toNat = (n.b2.toNat + k.toNat / 2 ^ 8) % 2 ^ 8 := by
    rw [hacc, UInt8.toNat_add, hhigh]
  have hacc3 : acc.b3.toNat = (n.b3.toNat + k.toNat % 2 ^ 8) % 2 ^ 8 := by
    rw [hacc, UInt8.toNat_add, hlow]
  have hsum : acc.toNat + n.b2.toNat * 2 ^ 8 + n.b3.toNat =
      n.toNat + acc.b2.toNat * 2 ^ 8 + acc.b3.toNat := by
    unfold toNat
    rw [hacc]
    dsimp only
    omega
  have hacclt := acc.toNat_lt
  have hcarry2 : acc.b2 < (k >>> 8).toUInt8 ↔ 2 ^ 8 ≤ n.b2.toNat + k.toNat / 2 ^ 8 := by
    rw [UInt8.lt_iff_toNat_lt, hacc2, hhigh]
    omega
  have hcarry3 : acc.b3 < (k &&& 0xff).toUInt8 ↔ 2 ^ 8 ≤ n.b3.toNat + k.toNat % 2 ^ 8 := by
    rw [UInt8.lt_iff_toNat_lt, hacc3, hlow]
    omega
  have hincr3 : acc.incr1.b3 = acc.b3 := rfl
  unfold uipAdd32
  simp only [← hacc]
  split_ifs with hc2 hc3 hc3
  · rw [hincr3, hcarry3] at hc3
    rw [hcarry2] at hc2
    rw [incr2_toNat, incr1_toNat]
    omega
  · rw [hincr3, hcarry3] at hc3
    rw [hcarry2] at hc2
    rw [incr1_toNat]
    omega
  · rw [hcarry3] at hc3
    rw [hcarry2] at hc2
    rw [incr2_toNat]
    omega
  · rw [hcarry3] at hc3
    rw [hcarry2] at hc2
    omega

end SeqNo

/-! ## Headers and connections -/

/-- The control bits of a segment, `TCP_CTL`. -/
structure TcpFlags where
  fin : Bool := false
  syn : Bool := false
  rst : Bool := false
  psh : Bool := false
  ack : Bool := false
  urg : Bool := false
deriving DecidableEq

/-- `struct uip_tcp_hdr` of a segment that was received for a connection. -/
structure TcpHdr where
  seqno : SeqNo
  ackno : SeqNo
  tcpoffset : UInt8
  flags : TcpFlags
  wnd : UInt16
  urgp : UInt16

/-- The state in `tcpstateflags`. -/
inductive TcpState
  | closed | synRcvd | synSent | established | finWait1 | finWait2 | closing | timeWait | lastAck
deriving DecidableEq

/-- `struct uip_conn`; `state` and `stopped` are the two parts of `tcpstateflags`. -/
structure UipConn where
  rcvNxt : SeqNo
  sndNxt : SeqNo
  len : UInt16
  mss : UInt16
  initialmss : UInt16
  sa : UInt8
  sv : UInt8
  rto : UInt8
  state : TcpState
  stopped : Bool
  timer : UInt8
  nrtx : UInt8

structure UipFlags where
  ackdata : Bool := false
  newdata : Bool := false
  rexmit : Bool := false
  poll : Bool := false
  close : Bool := false
  abort : Bool := false
  connected : Bool := false
  timedout : Bool := false
deriving DecidableEq

/-- The configuration of TCP: `bufferRoom` is the space for data behind the headers. -/
structure TcpConfig where
  bufferRoom : UInt16
  tcpMss : UInt16
  receiveWindow : UInt16
  timeWaitTimeout : UInt8

def uipRto : UInt8 := 3

def uipMaxrtx : UInt8 := 8

def uipMaxsynrtx : UInt8 := 5

/-- A segment that is sent, with the length of its data. -/
structure Sent where
  flags : TcpFlags
  seqno : SeqNo
  ackno : SeqNo
  wnd : UInt16
  mssOption : Bool
  len : UInt16
deriving DecidableEq

/-- What the callback of the application gets to see. -/
structure AppEvent where
  flags : UipFlags
  data : List UInt8

/-- What `uip_process` does for a connection. -/
structure TcpResult where
  conn : UipConn
  event : Option AppEvent := none
  sent : Option Sent := none

/-! ## The application -/

/-- A call that an application makes in its callback. -/
inductive AppCall
  | send (len : ℤ)
  | close
  | abort
  | stop
  | restart

/-- The variables that the calls of an application write. -/
structure AppCtx where
  conn : UipConn
  flags : UipFlags
  slen : UInt16

namespace UipConn
variable (cfg : TcpConfig) (conn : UipConn)

/-- `uip_send`, `uip_close`, `uip_abort`, `uip_stop` and `uip_restart`. -/
def appCall (c : AppCtx) : AppCall → AppCtx
  | .send len =>
    let copylen := min len (Int.ofNat cfg.bufferRoom.toNat)
    if copylen > 0 then { c with slen := UInt16.ofNat copylen.toNat } else c
  | .close => { c with flags := { close := true } }
  | .abort => { c with flags := { abort := true } }
  | .stop => { c with conn := { c.conn with stopped := true } }
  | .restart =>
    { c with
      flags := { c.flags with newdata := true }
      conn := { c.conn with stopped := false } }

/-- `UIP_APPCALL`, in which the application makes the given calls. -/
def appcall (calls : List AppCall) (c : AppCtx) : AppCtx := calls.foldl (appCall cfg) c

/-! ## Sending -/

/-- `tcp_send`, with the fields that were filled in before. -/
def tcpSend (flags : TcpFlags) (len : UInt16) (mssOption : Bool) : Sent where
  flags
  seqno := conn.sndNxt
  ackno := conn.rcvNxt
  wnd := if conn.stopped then 0 else cfg.receiveWindow
  mssOption
  len

/-- `tcp_send_syn` and `tcp_send_synack`, with the flags that were set before. -/
def tcpSendSyn (flags : TcpFlags) : Sent := conn.tcpSend cfg { flags with syn := true } 0 true

def tcpSendSynack : Sent := conn.tcpSendSyn cfg { ack := true }

def tcpSendNodata (flags : TcpFlags) : Sent := conn.tcpSend cfg flags 0 false

def tcpSendAck : Sent := conn.tcpSendNodata cfg { ack := true }

def tcpSendFinack : Sent := conn.tcpSendNodata cfg { fin := true, ack := true }

/-- `apprexmit`: data that is outstanding, or an acknowledgement of new data. -/
def apprexmit (c : AppCtx) : Option Sent :=
  if c.slen > 0 ∧ c.conn.len > 0 then
    some (c.conn.tcpSend cfg { ack := true, psh := true } c.conn.len false)
  else if c.flags.newdata then some (c.conn.tcpSendAck cfg)
  else none

/-- The data that the application wants to send, in `appsend`. -/
def acceptData (c : AppCtx) : AppCtx :=
  if c.slen > 0 then
    let conn := if c.flags.ackdata then { c.conn with len := 0 } else c.conn
    if conn.len = 0 then
      let slen := if c.slen > conn.mss then conn.mss else c.slen
      { c with conn := { conn with len := slen }, slen }
    else { c with conn, slen := conn.len }
  else c

/-- `appsend`: what happens after the callback of the application. -/
def appsend (c : AppCtx) : UipConn × Option Sent :=
  if c.flags.abort then
    let conn := { c.conn with state := .closed, stopped := false }
    (conn, some (conn.tcpSendNodata cfg { rst := true, ack := true }))
  else if c.flags.close then
    let conn := { c.conn with len := 1, state := .finWait1, stopped := false, nrtx := 0 }
    (conn, some (conn.tcpSendFinack cfg))
  else
    let c := acceptData c
    let c := { c with conn := { c.conn with nrtx := 0 } }
    (c.conn, apprexmit cfg c)

/-- The callback and what follows at `appsend`. -/
def callAndSend (calls : List AppCall) (flags : UipFlags) (slen : UInt16) (data : List UInt8) :
    TcpResult :=
  let (conn, sent) := appsend cfg (appcall cfg calls ⟨conn, flags, slen⟩)
  { conn, event := some ⟨flags, data⟩, sent }

/-- A callback whose requests are not looked at. -/
def callOnly (calls : List AppCall) (flags : UipFlags) (slen : UInt16) : UipConn :=
  (appcall cfg calls ⟨conn, flags, slen⟩).conn

/-! ## The timer and poll requests -/

/-- `uip_connr->tcpstateflags == state`. -/
def stateIs (state : TcpState) : Bool := conn.state = state && !conn.stopped

/-- The retransmission of what is outstanding. -/
def retransmit (calls : List AppCall) : TcpResult :=
  match conn.state with
  | .synRcvd => { conn, sent := some (conn.tcpSendSynack cfg) }
  | .synSent => { conn, sent := some (conn.tcpSendSyn cfg {}) }
  | .established =>
    let flags : UipFlags := { rexmit := true }
    let c := appcall cfg calls ⟨conn, flags, 0⟩
    { conn := c.conn, event := some ⟨flags, []⟩, sent := apprexmit cfg c }
  | .finWait1 | .closing | .lastAck => { conn, sent := some (conn.tcpSendFinack cfg) }
  | _ => { conn }

/-- `UIP_TIMER`, for a connection with outstanding data. -/
def rexmitTimer (calls : List AppCall) : TcpResult :=
  let expired := conn.timer = 0
  let conn := { conn with timer := conn.timer - 1 }
  if expired then
    if conn.nrtx = uipMaxrtx ∨
        (conn.stateIs .synSent ∨ conn.stateIs .synRcvd) ∧ conn.nrtx = uipMaxsynrtx then
      let flags : UipFlags := { timedout := true }
      let conn :=
        { conn with state := .closed, stopped := false }.callOnly cfg calls flags 0
      { conn
        event := some ⟨flags, []⟩
        sent := some (conn.tcpSendNodata cfg { rst := true, ack := true }) }
    else
      let shift := if conn.nrtx > 4 then 4 else conn.nrtx
      { conn with timer := uipRto <<< shift, nrtx := conn.nrtx + 1 }.retransmit cfg calls
  else { conn }

def uipTimer (calls : List AppCall) : TcpResult :=
  if conn.stateIs .timeWait ∨ conn.stateIs .finWait2 then
    let conn := { conn with timer := conn.timer + 1 }
    if conn.timer = cfg.timeWaitTimeout then
      { conn := { conn with state := .closed, stopped := false } }
    else { conn }
  else if conn.stateIs .closed then { conn }
  else if conn.len ≠ 0 then conn.rexmitTimer cfg calls
  else if conn.state = .established then conn.callAndSend cfg calls { poll := true } 0 []
  else { conn }

/-- `uip_process (UIP_POLL_REQUEST)`; `uip_slen` has the value `slen` that was left in it. -/
def uipPoll (slen : UInt16) (calls : List AppCall) : TcpResult :=
  if conn.state = .established ∧ conn.len = 0 then
    conn.callAndSend cfg calls { poll := true } slen []
  else if conn.state = .synSent then { conn, sent := some (conn.tcpSendSyn cfg {}) }
  else { conn }

/-! ## Options -/

/-- The loop over the options of a segment, for the maximum segment size.  The index is a byte that
wraps, so a loop of more than 256 iterations does not end: then there is no result. -/
def parseMss (optdata : ℕ → UInt8) (limit : ℕ) : ℕ → UInt8 → Option (Option UInt16)
  | 0, _ => none
  | fuel + 1, c =>
    if c.toNat < limit then
      let opt := optdata c.toNat
      let optLen := optdata (c.toNat + 1)
      if opt = 0 then some none
      else if opt = 1 then parseMss optdata limit fuel (c + 1)
      else if opt = 2 ∧ optLen = 4 then
        some (some ((optdata (c.toNat + 2)).toUInt16 <<< 8 ||| (optdata (c.toNat + 3)).toUInt16))
      else if optLen = 0 then some none
      else parseMss optdata limit fuel (c + optLen)
    else some none

/-- The maximum segment size that a segment announces, bounded by our own. -/
def announceMss (hdr : TcpHdr) (optdata : ℕ → UInt8) : Option UipConn :=
  (parseMss optdata (((hdr.tcpoffset >>> 4).toNat - 5) * 4) 257 0).map fun mss =>
    match mss with
    | none => conn
    | some mss =>
      let mss := if mss > cfg.tcpMss then cfg.tcpMss else mss
      { conn with mss, initialmss := mss }

/-! ## Segments -/

def addRcvNxt (n : UInt16) : UipConn := { conn with rcvNxt := conn.rcvNxt.uipAdd32 n }

/-- The reset of a segment, which is not itself a reset. -/
def resetSegment (hdr : TcpHdr) : Sent where
  flags := { rst := true, ack := true }
  seqno := hdr.ackno
  ackno := hdr.seqno.incr3
  wnd := hdr.wnd
  mssOption := false
  len := 0

/-- The segment is not the next one, by its sequence number; a handshake is looked at in its own
way. -/
def misplaced (hdr : TcpHdr) (len : UInt16) : Bool :=
  !((conn.state = .synSent && hdr.flags = { syn := true, ack := true }) ||
    (conn.state = .synRcvd && hdr.flags = { syn := true })) &&
  (len > 0 || hdr.flags.syn || hdr.flags.fin) && hdr.seqno ≠ conn.rcvNxt

/-- The segment acknowledges what is outstanding. -/
def acknowledges (hdr : TcpHdr) : Bool :=
  hdr.flags.ack && conn.len ≠ 0 && hdr.ackno = conn.sndNxt.uipAdd32 conn.len

/-- The round trip time estimation, with `m` a signed byte. -/
def estimateRtt : UipConn :=
  if conn.nrtx = 0 then
    let m := conn.rto - conn.timer - conn.sa >>> 3
    let sa := conn.sa + m
    let m := if m ≥ 128 then -m else m
    let sv := conn.sv + (m - conn.sv >>> 2)
    { conn with sa, sv, rto := (sa >>> 3) + sv }
  else conn

/-- The connection after an acknowledgement. -/
def acknowledged : UipConn :=
  let conn := { conn with sndNxt := conn.sndNxt.uipAdd32 conn.len }.estimateRtt
  { conn with timer := conn.rto, len := 0 }

/-- `UIP_SYN_RCVD`. -/
def inSynRcvd (hdr : TcpHdr) (acked : Bool) (data : List UInt8) (len : UInt16)
    (calls : List AppCall) : TcpResult :=
  if acked then
    let conn := { conn with state := .established, stopped := false, len := 0 }
    if len > 0 then
      (conn.addRcvNxt len).callAndSend cfg calls { connected := true, newdata := true } 0 data
    else conn.callAndSend cfg calls { connected := true } 0 data
  else if hdr.flags = { syn := true } then { conn, sent := some (conn.tcpSendSynack cfg) }
  else { conn }

/-- `UIP_SYN_SENT`. -/
def inSynSent (hdr : TcpHdr) (acked : Bool) (optdata : ℕ → UInt8) (calls : List AppCall) :
    Option TcpResult :=
  if acked ∧ hdr.flags = { syn := true, ack := true } then
    (conn.announceMss cfg hdr optdata).map fun conn =>
      let conn := { conn with
        state := .established
        stopped := false
        rcvNxt := hdr.seqno }.addRcvNxt 1
      { conn with len := 0 }.callAndSend cfg calls { connected := true, newdata := true } 0 []
  else
    let flags : UipFlags := { abort := true }
    let conn := conn.callOnly cfg calls flags 0
    some
      { conn := { conn with state := .closed, stopped := false }
        event := some ⟨flags, []⟩
        sent := some (resetSegment hdr) }

/-- A segment with FIN, in `UIP_ESTABLISHED`. -/
def acceptFin (acked : Bool) (data : List UInt8) (len : UInt16) (calls : List AppCall) : TcpResult :=
  if conn.len ≠ 0 then { conn }
  else
    let flags : UipFlags := { ackdata := acked, close := true, newdata := decide (len > 0) }
    let conn := (conn.addRcvNxt (1 + len)).callOnly cfg calls flags 0
    let conn := { conn with len := 1, state := .lastAck, stopped := false, nrtx := 0 }
    { conn, event := some ⟨flags, data⟩, sent := some (conn.tcpSendFinack cfg) }

/-- The maximum segment size, from the window that the peer announces. -/
def adaptMss (hdr : TcpHdr) : UipConn :=
  { conn with mss := if hdr.wnd > conn.initialmss ∨ hdr.wnd = 0 then conn.initialmss else hdr.wnd }

/-- `UIP_ESTABLISHED`, without FIN. -/
def acceptSegment (hdr : TcpHdr) (acked : Bool) (data : List UInt8) (len : UInt16)
    (calls : List AppCall) : TcpResult :=
  let newdata : Bool := len > 0 && !conn.stopped
  let conn := (if newdata then conn.addRcvNxt len else conn).adaptMss hdr
  if newdata || acked then
    conn.callAndSend cfg calls { ackdata := acked, newdata } 0 data
  else { conn }

/-- `UIP_LAST_ACK`. -/
def inLastAck (acked : Bool) (calls : List AppCall) : TcpResult :=
  if acked then
    let flags : UipFlags := { close := true }
    { conn := { conn with state := .closed, stopped := false }.callOnly cfg calls flags 0
      event := some ⟨flags, []⟩ }
  else { conn }

/-- A FIN that ends a connection that we have closed, with the state it leads to. -/
def peerCloses (conn : UipConn) (calls : List AppCall) : TcpResult :=
  let flags : UipFlags := { close := true }
  let conn := (conn.addRcvNxt 1).callOnly cfg calls flags 0
  { conn, event := some ⟨flags, []⟩, sent := some (conn.tcpSendAck cfg) }

/-- `UIP_FIN_WAIT_1`. -/
def inFinWait1 (hdr : TcpHdr) (acked : Bool) (len : UInt16) (calls : List AppCall) : TcpResult :=
  let conn := if len > 0 then conn.addRcvNxt len else conn
  if hdr.flags.fin then
    if acked then
      peerCloses cfg { conn with state := .timeWait, stopped := false, timer := 0, len := 0 } calls
    else peerCloses cfg { conn with state := .closing, stopped := false } calls
  else if acked then { conn := { conn with state := .finWait2, stopped := false, len := 0 } }
  else if len > 0 then { conn, sent := some (conn.tcpSendAck cfg) }
  else { conn }

/-- `UIP_FIN_WAIT_2`. -/
def inFinWait2 (hdr : TcpHdr) (len : UInt16) (calls : List AppCall) : TcpResult :=
  let conn := if len > 0 then conn.addRcvNxt len else conn
  if hdr.flags.fin then
    peerCloses cfg { conn with state := .timeWait, stopped := false, timer := 0 } calls
  else if len > 0 then { conn, sent := some (conn.tcpSendAck cfg) }
  else { conn }

/-- `UIP_CLOSING`. -/
def inClosing (acked : Bool) : TcpResult :=
  { conn := if acked then { conn with state := .timeWait, stopped := false, timer := 0 } else conn }

/-- `UIP_ESTABLISHED`; the data of a segment with URG begins behind the urgent pointer. -/
def inEstablished (hdr : TcpHdr) (acked : Bool) (appdata : ℕ → UInt8) (len : UInt16)
    (calls : List AppCall) : TcpResult :=
  if hdr.flags.fin ∧ ¬conn.stopped then
    conn.acceptFin cfg acked ((List.range len.toNat).map appdata) len calls
  else
    let urgent := if hdr.flags.urg then hdr.urgp else 0
    let len := len - urgent
    conn.acceptSegment cfg hdr acked ((List.range len.toNat).map fun i => appdata (urgent.toNat + i))
      len calls

/-- The switch on the state of the connection. -/
def inState (hdr : TcpHdr) (acked : Bool) (appdata : ℕ → UInt8) (len : UInt16)
    (calls : List AppCall) : Option TcpResult :=
  match conn.state with
  | .synRcvd =>
    some (conn.inSynRcvd cfg hdr acked ((List.range len.toNat).map appdata) len calls)
  | .synSent => conn.inSynSent cfg hdr acked appdata calls
  | .established => some (conn.inEstablished cfg hdr acked appdata len calls)
  | .lastAck => some (conn.inLastAck cfg acked calls)
  | .finWait1 => some (conn.inFinWait1 cfg hdr acked len calls)
  | .finWait2 => some (conn.inFinWait2 cfg hdr len calls)
  | .timeWait => some { conn, sent := some (conn.tcpSendAck cfg) }
  | .closing => some (conn.inClosing acked)
  | .closed => some { conn }

/-- The length of the data of a segment, of which `uip_len` bytes are left from the IP header on. -/
def dataLen (hdr : TcpHdr) (uipLen : UInt16) : UInt16 :=
  uipLen - ((hdr.tcpoffset >>> 4) <<< 2).toUInt16 - 40

/-- What happens to a segment at `found`, with the bytes at `uip_appdata`; without a result when the
loop over its options does not end. -/
def uipSegment (hdr : TcpHdr) (appdata : ℕ → UInt8) (uipLen : UInt16) (calls : List AppCall) :
    Option TcpResult :=
  if hdr.flags.rst then
    let flags : UipFlags := { abort := true }
    some
      { conn := { conn with state := .closed, stopped := false }.callOnly cfg calls flags 0
        event := some ⟨flags, []⟩ }
  else
    let len := dataLen hdr uipLen
    if conn.misplaced hdr len then
      some { conn, sent := some (if hdr.flags.syn then conn.tcpSendSynack cfg
        else conn.tcpSendAck cfg) }
    else if conn.acknowledges hdr then
      conn.acknowledged.inState cfg hdr true appdata len calls
    else conn.inState cfg hdr false appdata len calls

/-! ## New connections -/

/-- `found_listen`, in the place of a connection that is not in use: the new connection and the
SYNACK that is sent. -/
def foundListen (iss : SeqNo) (hdr : TcpHdr) (optdata : ℕ → UInt8) : Option TcpResult :=
  let conn :=
    { conn with
      rto := uipRto
      timer := uipRto
      sa := 0
      sv := 4
      nrtx := 0
      state := .synRcvd
      stopped := false
      sndNxt := iss
      len := 1
      rcvNxt := hdr.seqno }.addRcvNxt 1
  (conn.announceMss cfg hdr optdata).map fun conn => { conn, sent := some (conn.tcpSendSynack cfg) }

def uipConnect (iss : SeqNo) : UipConn where
  state := .synSent
  stopped := false
  sndNxt := iss
  rcvNxt := ⟨0, 0, 0, 0⟩
  initialmss := cfg.tcpMss
  mss := cfg.tcpMss
  len := 1
  nrtx := 0
  timer := 1
  rto := uipRto
  sa := 0
  sv := 16

end UipConn

/-! ## Events -/

/-- What can happen to a connection, with the calls that the application makes in its callback. -/
inductive TcpEvent
  | segment (hdr : TcpHdr) (appdata : ℕ → UInt8) (uipLen : UInt16) (calls : List AppCall)
  | timer (calls : List AppCall)
  | poll (slen : UInt16) (calls : List AppCall)

/-- The calls that the application makes in its callback. -/
def TcpEvent.calls : TcpEvent → List AppCall
  | .segment _ _ _ calls | .timer calls | .poll _ calls => calls

/-- The effect of an event; a segment does not find a connection that is closed. -/
def UipConn.uipProcess (cfg : TcpConfig) (conn : UipConn) : TcpEvent → Option TcpResult
  | .segment hdr appdata uipLen calls =>
    if conn.stateIs .closed then none else conn.uipSegment cfg hdr appdata uipLen calls
  | .timer calls => some (conn.uipTimer cfg calls)
  | .poll slen calls => some (conn.uipPoll cfg slen calls)

end Contiki

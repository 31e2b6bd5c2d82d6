import Contiki.Net.TcpReceive

/-!
# Urgent data

Without `UIP_URGDATA` the urgent pointer of a segment is taken off the length of its data as it is,
and the octets in front of it are neither handed over nor acknowledged.  The urgent pointer of a FIN is
not looked at.

`urgent_iff` says for which segments the application is handed no more than what follows in the
segment, and the whole of their data is acknowledged.
-/

namespace Contiki

namespace TcpHdr
variable (hdr : TcpHdr)

end TcpHdr

namespace UipConn
variable {cfg : TcpConfig} {conn c : UipConn} {hdr : TcpHdr} {appdata : ℕ → UInt8} {uipLen : UInt16}
  {calls : List AppCall} {acked : Bool} {res : TcpResult}

/-- A segment with URG is accepted, in `UIP_ESTABLISHED`. -/
structure AcceptsUrgent (conn : UipConn) (hdr : TcpHdr) (uipLen : UInt16) : Prop where
  established : conn.state = .established
  running : conn.stopped = false
  rst : hdr.flags.rst = false
  urg : hdr.flags.urg = true
  place : conn.misplaced hdr (dataLen hdr uipLen) = false
  fin : hdr.flags.fin = true → conn.len = 0 ∨ conn.acknowledges hdr = true

/-- An accepted segment gets to the application, with the acknowledgement processed before. -/
lemma AcceptsUrgent.inEstablished (h : conn.AcceptsUrgent hdr uipLen)
    (hres : conn.uipProcess cfg (.segment hdr appdata uipLen calls) = some res) :
    ∃ c : UipConn, ∃ acked, c.rcvNxt = conn.rcvNxt ∧ c.stopped = false ∧
      (hdr.flags.fin = true → c.len = 0) ∧
      c.inEstablished cfg hdr acked appdata (dataLen hdr uipLen) calls = res := by
  have hopen : conn.stateIs .closed = false := by
    unfold stateIs
    simp [h.established]
  unfold UipConn.uipProcess UipConn.uipSegment at hres
  dsimp only at hres
  rw [hopen, h.rst, h.place, if_neg (by decide), if_neg (by decide), if_neg (by decide)] at hres
  split_ifs at hres with hack
  · refine ⟨conn.acknowledged, true, conn.acknowledged_rcvNxt, ?_, fun _ => acknowledged_len conn, ?_⟩
    · rw [acknowledged_stopped]
      exact h.running
    · rw [inState, acknowledged_state, h.established] at hres
      exact Option.some.inj hres
  · refine ⟨conn, false, rfl, h.running, fun hfin => (h.fin hfin).resolve_right hack, ?_⟩
    rw [inState, h.established] at hres
    exact Option.some.inj hres

end UipConn
end Contiki

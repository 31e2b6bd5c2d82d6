import Contiki.Net.Tcp
import Contiki.Net.Uip6

/-!
# Input of the upper layers

`uip_process` behind the extension headers: `udp_input`, `tcp_input` and the echo requests among the
ICMPv6 messages.  The header of the upper layer is `uip_ext_len` bytes behind the IPv6 header; so is
the header of a reply.

What the applications do in their callbacks is given: the calls that they make for a TCP connection,
and the data that they send for UDP.
-/

namespace Contiki

/-- The ports and the remote address of a connection. -/
structure Endpoint where
  lport : UInt16
  rport : UInt16
  ripaddr : IpAddr

/-- An entry of `uip_conns`. -/
structure TcpEndpoint extends Endpoint where
  conn : UipConn

/-- The connections and the listening ports. -/
structure Transport where
  tcpConfig : TcpConfig
  tcpConns : List TcpEndpoint
  listenPorts : List UInt16
  udpConns : List Endpoint
  iss : SeqNo

/-- What the applications do. -/
structure App where
  calls : List AppCall
  udpSend : ℕ → List UInt8 → List UInt8

/-- A reply in the buffer, with the place of its upper-layer header. -/
structure Placed (α : Type) where
  hdrAt : ℕ
  content : α

/-- What a packet leads to. -/
inductive InputOutcome
  | dropped
  /-- The packet is sent on, or back. -/
  | sent (packet : List UInt8)
  | error (type code : UInt8) (param : ℕ)
  /-- A TCP segment for a connection: the connection afterwards, what its application gets to see,
  and the segment that is sent. -/
  | tcp (index : ℕ) (conn : TcpEndpoint) (event : Option AppEvent) (reply : Option (Placed Sent))
  /-- A reset that answers a TCP segment. -/
  | reset (reply : Placed Sent)
  /-- A UDP datagram for a connection, and the data that its application sends. -/
  | udp (index : ℕ) (data : List UInt8) (reply : Option (Placed (List UInt8)))
  | hang

/-- The control bits in a byte. -/
def TcpFlags.ofByte (b : UInt8) : TcpFlags where
  fin := b &&& 0x01 ≠ 0
  syn := b &&& 0x02 ≠ 0
  rst := b &&& 0x04 ≠ 0
  psh := b &&& 0x08 ≠ 0
  ack := b &&& 0x10 ≠ 0
  urg := b &&& 0x20 ≠ 0

/-- The sequence number at an offset of a buffer. -/
def seqNoAt (bytes : ℕ → UInt8) (pos : ℕ) : SeqNo :=
  ⟨bytes pos, bytes (pos + 1), bytes (pos + 2), bytes (pos + 3)⟩

/-- `UIP_TCP_BUF`, at an offset of a buffer. -/
def tcpHdrAt (bytes : ℕ → UInt8) (base : ℕ) : TcpHdr where
  seqno := seqNoAt bytes (base + 4)
  ackno := seqNoAt bytes (base + 8)
  tcpoffset := bytes (base + 12)
  flags := .ofByte (bytes (base + 13))
  wnd := wordAt bytes (base + 14)
  urgp := wordAt bytes (base + 18)

def uipIptcphLen : ℕ := 60

def uipIpudphLen : ℕ := 48

namespace HeaderState
variable (node : IpNode) (t : Transport) (app : App) (s : HeaderState)

/-! ## UDP -/

/-- The search for the connection of a UDP datagram. -/
def udpConn : Option ℕ :=
  let srcport := wordAt s.bytes s.extBuf
  let destport := wordAt s.bytes (s.extBuf + 2)
  t.udpConns.findIdx? fun e => e.lport ≠ 0 && destport = e.lport &&
    (e.rport = 0 || srcport = e.rport) &&
    (e.ripaddr.uipIsAddrUnspecified || s.srcipaddr = e.ripaddr)

/-- The data of a UDP datagram, at `uip_appdata`. -/
def udpData : List UInt8 :=
  let len := s.len - 48 - s.extLen.toUInt16
  copyBytes s.bytes (uipIpudphLen + s.extLen.toNat) len.toNat

/-- `udp_input`, behind the checksum. -/
def udpInput : InputOutcome :=
  if wordAt s.bytes (s.extBuf + 2) = 0 then .dropped
  else
    match s.udpConn t with
    | none => .dropped
    | some i =>
      let reply := app.udpSend i s.udpData
      .udp i s.udpData (if reply = [] then none else some ⟨s.extBuf, reply⟩)

/-! ## TCP -/

/-- The search for the connection of a TCP segment. -/
def tcpConn : Option ℕ :=
  let srcport := wordAt s.bytes s.extBuf
  let destport := wordAt s.bytes (s.extBuf + 2)
  t.tcpConns.findIdx? fun e => !e.conn.stateIs .closed && destport = e.lport &&
    srcport = e.rport && s.srcipaddr = e.ripaddr

/-- The search of `found_listen` for a connection: the first one that is closed, or else the one
that has been in `UIP_TIME_WAIT` for the longest time. -/
def freeConn : List TcpEndpoint → ℕ → Option (ℕ × UInt8) → Option ℕ
  | [], _, best => best.map Prod.fst
  | e :: rest, i, best =>
    if e.conn.stateIs .closed then some i
    else if e.conn.stateIs .timeWait ∧ ∀ b ∈ best, e.conn.timer > b.2 then
      freeConn rest (i + 1) (some (i, e.conn.timer))
    else freeConn rest (i + 1) best

/-- A segment without a connection. -/
def resetInput (hdr : TcpHdr) : InputOutcome :=
  if hdr.flags.rst then .dropped else .reset ⟨s.extBuf, UipConn.resetSegment hdr⟩

/-- The outcome for a connection. -/
def tcpOutcome (i : ℕ) (e : Endpoint) : Option TcpResult → InputOutcome
  | none => .hang
  | some res => .tcp i { e with conn := res.conn } res.event (res.sent.map fun sent => ⟨s.extBuf, sent⟩)

/-- `tcp_input`, behind the checksum. -/
def tcpInput : InputOutcome :=
  let srcport := wordAt s.bytes s.extBuf
  let destport := wordAt s.bytes (s.extBuf + 2)
  let hdr := tcpHdrAt s.bytes s.extBuf
  -- `uip_appdata` and the options are looked for behind a TCP header without extension headers
  let appdata := fun k => s.bytes (uipIptcphLen + k)
  if destport = 0 ∨ srcport = 0 then .dropped
  else
    match s.tcpConn t with
    | some i =>
      match t.tcpConns[i]? with
      | none => .dropped
      | some e =>
        s.tcpOutcome i e.toEndpoint (e.conn.uipSegment t.tcpConfig hdr appdata s.len app.calls)
    | none =>
      if hdr.flags ≠ { syn := true } then s.resetInput hdr
      else if destport ∈ t.listenPorts then
        match freeConn t.tcpConns 0 none with
        | none => .dropped
        | some i =>
          match t.tcpConns[i]? with
          | none => .dropped
          | some e =>
            s.tcpOutcome i ⟨destport, srcport, s.srcipaddr⟩
              (e.conn.foundListen t.tcpConfig t.iss hdr appdata)
      else s.resetInput hdr

/-! ## Echo requests -/

/-- The IPv6 header of an echo reply, but for the length. -/
def echoAddresses : ℕ → UInt8 :=
  let bytes := memcpy s.bytes 7 [node.curHopLimit]
  if s.destipaddr.uipIsAddrMcast then
    memcpy bytes 8 ((uipDs6SelectSrc node.addrList s.srcipaddr).u8 ++ s.srcipaddr.u8)
  else memcpy bytes 8 (s.destipaddr.u8 ++ s.srcipaddr.u8)

/-- The extension headers of an echo request are taken out. -/
def echoMove (bytes : ℕ → UInt8) : UipBuf :=
  if s.extLen > 0 then
    let len := s.len - s.extLen.toUInt16
    let bytes := memcpy bytes 6 [58]
    let bytes := memcpy bytes 4 (wordBytes (len - 40))
    ⟨memcpy bytes (s.extBuf + 4 - s.extLen.toNat)
      (copyBytes bytes (s.extBuf + 4) (len - 40 - 4).toNat), len⟩
  else ⟨bytes, s.len⟩

def echoRequestInput : UipBuf :=
  let p := s.echoMove (s.echoAddresses node)
  let p := { p with bytes := memcpy p.bytes uipIphLen [129, 0, 0, 0] }
  { p with bytes := memcpy p.bytes (uipIphLen + 2) (wordBytes (~~~p.upperLayerChksum uipIphLen 58)) }

end HeaderState

/-! ## A whole packet -/

/-- The bytes of a packet. -/
def UipBuf.packet (p : UipBuf) : List UInt8 := copyBytes p.bytes 0 p.len.toNat

section
variable (node : IpNode) (t : Transport) (app : App)

/-- What follows on the headers of a packet.  The ICMPv6 messages other than echo requests have no
result here. -/
def upperInput : Verdict → Option InputOutcome
  | .drop => some .dropped
  | .send p => some (.sent p.packet)
  | .error type code param _ => some (.error type code param)
  | .tcpInput s => some (s.tcpInput t app)
  | .udpInput s => some (s.udpInput t app)
  | .icmp6Input s =>
    if s.bytes s.extBuf = 128 then some (.sent (s.echoRequestInput node).packet) else none
  | .hang => some .hang

/-- The loop over the next header fields. -/
def headerLoop : ℕ → HeaderState → Option Verdict
  | 0, _ => none
  | fuel + 1, s =>
    match s.headerStep node with
    | .ok s => headerLoop fuel s
    | .error v => some v

/-- `uip_process` on a packet that is received. -/
def uipProcess (fuel : ℕ) (p : UipBuf) : Option InputOutcome :=
  match ipInput node p with
  | .ok s => (headerLoop node fuel s).bind (upperInput node t app)
  | .error v => upperInput node t app v

end

end Contiki

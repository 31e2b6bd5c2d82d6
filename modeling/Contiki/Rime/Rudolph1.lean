import Contiki.Lib.Run
import Contiki.Rime.Chunks

/-!
# Bulk data by flooding

`rudolph1` spreads the versions of a file from one source.  The source sends chunk after chunk by `trickle`;
a node that misses a chunk asks for it by `ipolite`, and any node that has the chunk answers.

A packet that was given to `trickle` or to `ipolite` may reach any node, any number of times, and in any
order.  A send interval is two ticks or more, so that `ipolite` keeps what it is given.  The width of an
`int` is a parameter.

* `Rudolph1Conn` — `struct rudolph1_conn` with the application's file.
* `handleData`, `recvIpolite`, `sendNextPacket`, `rudolph1Send` — what a node does.
* `Rudolph1Net.step` — one event in the network.
-/

namespace Contiki
namespace Rime

/-- A packet, with the version as it was counted before it was cut down to eight bits. -/
inductive Rudolph1Packet
  | data (version : UInt8) (chunk : UInt16) (bytes : List UInt8) (full : ℕ)
  | nack (version : UInt8) (chunk : UInt16) (full : ℕ)

/-- `struct rudolph1_conn`, with the application's file, whether the timer is set, and the version as it
was counted before it was cut down to eight bits. -/
structure Rudolph1Conn where
  chunk : UInt16
  highestChunkHeard : UInt16
  version : UInt8
  nacks : UInt8
  file : List UInt8
  t : Bool
  full : ℕ

namespace Rudolph1Conn
variable (intBits : ℕ) (c : Rudolph1Conn)

/-- `LT`: the number comes before the other one, as signed bytes tell. -/
def LT (a b : UInt8) : Prop := 128 ≤ (a - b).toNat

instance (a b : UInt8) : Decidable (LT a b) := inferInstanceAs (Decidable (_ ≤ _))

/-- The connection after `rudolph1_open`. -/
def opened (file : List UInt8) : Rudolph1Conn := ⟨0, 0, 0, 0, file, false, 0⟩

/-- `format_data`: a packet with a chunk of the application's file. -/
def formatData (chunk : UInt16) : Rudolph1Packet :=
  .data c.version chunk (readData intBits c.file chunk.toNat) c.full

/-- `send_nack`: a packet that asks for the next chunk. -/
def sendNack : Rudolph1Packet := .nack c.version c.chunk c.full

/-- The connection after `write_data`. -/
def write (chunk : UInt16) (bytes : List UInt8) : Rudolph1Conn :=
  { c with file := written c.file (writeData intBits chunk.toNat bytes) }

/-- What `handle_data` does first with a chunk of the node's own version. -/
def handleChunk (chunk : UInt16) (bytes : List UInt8) : Rudolph1Conn × List Write × List Rudolph1Packet :=
  if chunk = c.chunk then
    let c := c.write intBits chunk bytes
    let highest := if c.highestChunkHeard < c.chunk then c.chunk else c.highestChunkHeard
    ({ c with highestChunkHeard := highest, chunk := c.chunk + 1 }, writeData intBits chunk.toNat bytes, [])
  else if c.chunk < chunk then ({ c with highestChunkHeard := chunk }, [], [c.sendNack])
  else (c, [], [])

/-- `handle_data`, with the writes and the packets that `ipolite` is given. -/
def handleData (version : UInt8) (chunk : UInt16) (bytes : List UInt8) (full : ℕ) :
    Rudolph1Conn × List Write × List Rudolph1Packet :=
  if LT c.version version then
    let c := { c with version := version, full := full, highestChunkHeard := 0, chunk := 0 }
    if chunk ≠ 0 then (c, [], [c.sendNack])
    else ({ c.write intBits 0 bytes with chunk := 1 }, writeData intBits 0 bytes, [])
  else if version = c.version then
    let (c, writes, sent) := c.handleChunk intBits chunk bytes
    if chunk < c.highestChunkHeard then (c, writes, sent ++ [c.sendNack]) else (c, writes, sent)
  else (c, [], [])

def recvTrickle : Rudolph1Packet → Rudolph1Conn × List Write × List Rudolph1Packet
  | .data version chunk bytes full => c.handleData intBits version chunk bytes full
  | .nack _ _ _ => (c, [], [])

def recvIpolite (p : Rudolph1Packet) : Rudolph1Conn × List Write × List Rudolph1Packet :=
  let c := { c with nacks := c.nacks + 1 }
  match p with
  | .nack version chunk _ =>
    if version = c.version then
      if chunk < c.chunk then (c, [], [c.formatData intBits chunk]) else (c, [], [])
    else if LT version c.version then (c, [], [c.formatData intBits 0])
    else (c, [], [])
  | .data version chunk bytes full => c.handleData intBits version chunk bytes full

/-- The answer to a request. -/
lemma recvIpolite_nack {version : UInt8} {chunk : UInt16} {full : ℕ} :
    c.recvIpolite intBits (.nack version chunk full) =
      if version = c.version then
        if chunk < c.chunk then ({ c with nacks := c.nacks + 1 }, [], [c.formatData intBits chunk])
        else ({ c with nacks := c.nacks + 1 }, [], [])
      else if LT version c.version then ({ c with nacks := c.nacks + 1 }, [], [c.formatData intBits 0])
      else ({ c with nacks := c.nacks + 1 }, [], []) := rfl

/-- `send_next_packet`, which the timer calls, with the packet that `trickle` is given. -/
def sendNextPacket : Rudolph1Conn × List Rudolph1Packet :=
  if c.nacks = 0 then
    let len := (readData intBits c.file c.chunk.toNat).length
    ({ c with t := len = datasize, highestChunkHeard := c.chunk, chunk := c.chunk + 1, nacks := 0 },
      [c.formatData intBits c.chunk])
  else ({ c with t := true, nacks := 0 }, [])

/-- `rudolph1_send` for the next version, with the application's file, and the packet that `trickle` is
given. -/
def rudolph1Send (file : List UInt8) : Rudolph1Conn × List Rudolph1Packet :=
  let c := { c with
    file := file, version := c.version + 1, full := c.full + 1, chunk := 0, highestChunkHeard := 0 }
  ({ c with chunk := 1, t := true }, [c.formatData intBits 0])

end Rudolph1Conn

/-- A network: the nodes, the packets that `trickle` and `ipolite` were given, the file of each version, and
the writes. -/
structure Rudolph1Net (ι : Type) where
  node : ι → Rudolph1Conn
  trickle : List Rudolph1Packet
  ipolite : List Rudolph1Packet
  files : ℕ → List UInt8
  log : List (WriteReport ι)

/-- What can happen in the network. -/
inductive Rudolph1Event (ι : Type)
  | rudolph1Send (file : List UInt8)
  | sendNextPacket
  | recvTrickle (v : ι) (i : ℕ)
  | recvIpolite (v : ι) (i : ℕ)

/-- The event is not possible now. -/
inductive Rudolph1Fault
  | notNow
deriving DecidableEq

namespace Rudolph1Net
variable {ι : Type} [DecidableEq ι] (intBits : ℕ) (source : ι) (s : Rudolph1Net ι)

/-- A node takes in a packet. -/
def receive (v : ι) (result : Rudolph1Conn × List Write × List Rudolph1Packet) : Rudolph1Net ι :=
  let (c, writes, sent) := result
  { s with
    node := Function.update s.node v c
    ipolite := s.ipolite ++ sent
    log := s.log ++ writeReports v c.full writes }

/-- The source gives packets to `trickle`. -/
def sends (result : Rudolph1Conn × List Rudolph1Packet) : Rudolph1Net ι :=
  let (c, sent) := result
  { s with node := Function.update s.node source c, trickle := s.trickle ++ sent }

/-- One event: the source sends the next version, or its timer, which is set, fires; a packet reaches a
node. -/
def step : Rudolph1Event ι → Except Rudolph1Fault (Rudolph1Net ι)
  | .rudolph1Send file =>
    let s' := s.sends source ((s.node source).rudolph1Send intBits file)
    .ok { s' with files := Function.update s.files ((s.node source).full + 1) file }
  | .sendNextPacket =>
    if (s.node source).t then
      .ok (s.sends source (Rudolph1Conn.sendNextPacket intBits { s.node source with t := false }))
    else .error .notNow
  | .recvTrickle v i =>
    match s.trickle[i]? with
    | none => .error .notNow
    | some p => .ok (s.receive v ((s.node v).recvTrickle intBits p))
  | .recvIpolite v i =>
    match s.ipolite[i]? with
    | none => .error .notNow
    | some p => .ok (s.receive v ((s.node v).recvIpolite intBits p))

/-- The network when all connections were opened and nothing was sent. -/
def Opened : Prop :=
  (∀ v, ∃ file, s.node v = .opened file) ∧ s.trickle = [] ∧ s.ipolite = [] ∧ s.files = (fun _ => []) ∧
    s.log = []

end Rudolph1Net
end Rime
end Contiki

import Contiki.Rime.Netflood
import Contiki.Rime.Route

/-!
# Route discovery

A node that needs a route floods a request; a node that gets it takes the neighbour it came from as next
hop towards the originator.  The node that is looked for answers with a reply, which goes back along these
routes, and every node on the way takes the neighbour it came from as next hop towards the replying node.

Requests and replies may be lost, delayed and repeated; any node may hear any request.  Tables do not age.

* `RouteNode.rreqPacketReceived`, `rrepPacketReceived` — what a node does with them.
* `RouteNet.step` — one event of a network.
* `RouteNet.nextHop` — the way a packet to a destination takes.
-/

namespace Contiki
namespace Rime
variable {size : ℕ}

/-- `struct rrep_hdr`, without the field `rreq_id`, which is not set. -/
structure RrepHdr (size : ℕ) where
  hops : UInt8
  dest : Rimeaddr size
  originator : Rimeaddr size
deriving DecidableEq

/-- The payload of a request, `struct route_msg`. -/
def routeMsg (dest : Rimeaddr size) (rreqId : UInt8) : List UInt8 := dest.u8 ++ [rreqId, 0]

/-- The field `dest` of a request. -/
def routeMsgDest (size : ℕ) (msg : List UInt8) : Rimeaddr size := rimeaddrAt size fun k => msg.getD k 0

/-- The field `rreq_id` of a request. -/
def routeMsgRreqId (size : ℕ) (msg : List UInt8) : UInt8 := msg.getD size 0

/-- A node, with its `struct route_discovery_conn` and its route table; `t` says whether the timer is set. -/
structure RouteNode (size : ℕ) where
  rreqconn : NetfloodConn size
  lastRreqOriginator : Rimeaddr size
  lastRreqId : UInt8
  rreqId : UInt8
  rrepPending : Bool
  t : Bool
  routeTable : List (RouteEntry size)

namespace RouteNode
variable (n : RouteNode size) (nodeAddr : Rimeaddr size)

/-- The node after `route_discovery_open` and `route_init`. -/
def opened (size queueTime : ℕ) : RouteNode size :=
  { rreqconn := .opened size queueTime, lastRreqOriginator := .null size, lastRreqId := 0, rreqId := 0,
    rrepPending := false, t := false, routeTable := [] }

def insertRoute (originator lastHop : Rimeaddr size) (hops : UInt8) : RouteNode size :=
  { n with routeTable := routeAdd n.routeTable originator lastHop hops }

/-- `send_rrep`: the neighbour that the reply is sent to, and the reply. -/
def sendRrep (dest : Rimeaddr size) : Option (Rimeaddr size × RrepHdr size) :=
  (routeLookup n.routeTable dest).map fun rt => (rt.nexthop, ⟨0, dest, nodeAddr⟩)

/-- The request is not the one that the node got last. -/
def NewRreq (originator : Rimeaddr size) (msg : List UInt8) : Prop :=
  ¬(n.lastRreqOriginator = originator ∧ n.lastRreqId = routeMsgRreqId size msg)

instance (originator : Rimeaddr size) (msg : List UInt8) : Decidable (n.NewRreq originator msg) :=
  inferInstanceAs (Decidable ¬_)

/-- `rreq_packet_received`, with the reply that is sent and whether the request is to be sent on. -/
def rreqPacketReceived (src originator : Rimeaddr size) (msg : List UInt8) (hops : UInt8) :
    RouteNode size × Option (Rimeaddr size × RrepHdr size) × Bool :=
  if n.NewRreq originator msg then
    let n := { n with lastRreqOriginator := originator, lastRreqId := routeMsgRreqId size msg }
    if routeMsgDest size msg = nodeAddr then
      let n := n.insertRoute originator src hops
      (n, n.sendRrep nodeAddr originator, false)
    else (n.insertRoute originator src hops, none, true)
  else (n, none, false)

/-- `rrep_packet_received`, with the reply that is sent on. -/
def rrepPacketReceived (src : Rimeaddr size) (msg : RrepHdr size) :
    RouteNode size × Option (Rimeaddr size × RrepHdr size) :=
  let n := n.insertRoute msg.originator src msg.hops
  if msg.dest = nodeAddr then ({ n with rrepPending := false, t := false }, none)
  else (n, (routeLookup n.routeTable msg.dest).map fun rt => (rt.nexthop, { msg with hops := msg.hops + 1 }))

/-- `route_discovery_discover`, with the request that is broadcast. -/
def routeDiscoveryDiscover (dest : Rimeaddr size) : RouteNode size × Option (FloodPacket size) :=
  if n.rrepPending then (n, none)
  else
    let (c, sent) := n.rreqconn.netfloodSend nodeAddr n.rreqId.toNat (routeMsg dest n.rreqId)
    ({ n with rreqconn := c, rreqId := n.rreqId + 1, rrepPending := true, t := true }, sent)

end RouteNode

/-- A request on the air, and the node that sent it. -/
structure RreqFrame (size : ℕ) where
  src : Rimeaddr size
  packet : FloodPacket size

/-- A reply on the air, with the node that sent it and the neighbour it is for. -/
structure RrepFrame (size : ℕ) where
  src : Rimeaddr size
  receiver : Rimeaddr size
  hdr : RrepHdr size

/-- A network: the nodes, and what was sent. -/
structure RouteNet (size : ℕ) where
  node : Rimeaddr size → RouteNode size
  rreqs : List (RreqFrame size)
  rreps : List (RrepFrame size)

/-- What can happen in the network. -/
inductive RouteEvent (size : ℕ)
  | discover (v dest : Rimeaddr size)
  | rreq (v : Rimeaddr size) (i : ℕ) (queuebuf room : Bool)
  | rrep (i : ℕ)
  | timer (v : Rimeaddr size)
  | timeout (v : Rimeaddr size)

namespace RouteNet
variable (s : RouteNet size)

/-- The node changes, and may send a request and a reply. -/
def update (v : Rimeaddr size) (n : RouteNode size) (rreq : Option (FloodPacket size))
    (rrep : Option (Rimeaddr size × RrepHdr size)) : RouteNet size :=
  { node := Function.update s.node v n
    rreqs := s.rreqs ++ rreq.toList.map fun p => ⟨v, p⟩
    rreps := s.rreps ++ rrep.toList.map fun p => ⟨v, p.1, p.2⟩ }

/-- One event: a node looks for a route; a request reaches a node; a reply reaches the neighbour it is
for; the timer with which a node sends a request on, and the one after which it gives up, fire. -/
def step : RouteEvent size → Except FloodFault (RouteNet size)
  | .discover v dest =>
    let (n, sent) := (s.node v).routeDiscoveryDiscover v dest
    .ok (s.update v n sent none)
  | .rreq v i queuebuf room =>
    match s.rreqs[i]? with
    | none => .error .notNow
    | some x =>
      match (s.node v).rreqconn.c.recv FloodPacket.data x.packet with
      | .error f => .error (.ipolite f)
      | .ok ipolite =>
        let n := { s.node v with rreqconn := { (s.node v).rreqconn with c := ipolite } }
        if n.rreqconn.Accepts x.packet then
          let (n, rrep, flood) :=
            n.rreqPacketReceived v x.src x.packet.originator x.packet.payload x.packet.hops.toUInt8
          let (c, sent) := n.rreqconn.recvFromIpolite x.packet queuebuf flood room
          .ok (s.update v { n with rreqconn := c } sent rrep)
        else .ok (s.update v n none none)
  | .rrep i =>
    match s.rreps[i]? with
    | none => .error .notNow
    | some x =>
      let (n, sent) := (s.node x.receiver).rrepPacketReceived x.receiver x.src x.hdr
      .ok (s.update x.receiver n none sent)
  | .timer v =>
    let n := s.node v
    if n.rreqconn.c.t then
      match { n.rreqconn.c with t := false }.send with
      | .error f => .error (.ipolite f)
      | .ok (ipolite, sent) => .ok (s.update v { n with rreqconn := { n.rreqconn with c := ipolite } } sent none)
    else .error .notNow
  | .timeout v =>
    let n := s.node v
    if n.t then .ok (s.update v { n with rrepPending := false, t := false } none none) else .error .notNow

/-- The network when all nodes were started. -/
def Opened (s : RouteNet size) : Prop :=
  (∀ v, ∃ queueTime, s.node v = .opened size queueTime) ∧ s.rreqs = [] ∧ s.rreps = []

/-- The node to which a node passes a packet for the destination. -/
def nextHop (dest v : Rimeaddr size) : Option (Rimeaddr size) :=
  if v = dest then none else (routeLookup (s.node v).routeTable dest).map fun e => e.nexthop

end RouteNet
end Rime
end Contiki

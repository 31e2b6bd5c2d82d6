import Contiki.Rpl.DioMessage

/-!
# DAO messages

`dao_input` of `rpl-icmp6.c`, which is compiled where the mode of operation has downward routes.
An update, a new route and a removal all start from one search of the routing table, which may
give a route that covers the target, or a route through another neighbour.

`routes_current_iff` says when the search leads to the sender of a DAO afterwards, and when a
No-Path DAO lets only a route of its own expire.
-/

namespace Contiki

def rplOptionTarget : UInt8 := 5

def rplOptionTransit : UInt8 := 6

def rplDaoKFlag : UInt8 := 0x80

def rplDaoDFlag : UInt8 := 0x40

def zeroLifetime : UInt8 := 0

def daoExpirationTimeout : UInt32 := 60

def rplRouteFromUnicastDao : UInt8 := 1

def rplRouteFromMulticastDao : UInt8 := 2

/-- What `dao_input` takes from the options of a DAO. -/
structure DaoOptions where
  prefixAddr : IpAddr
  prefixlen : UInt8
  lifetime : UInt8
deriving DecidableEq

/-- What is sent after a DAO: the DAO itself goes on to the preferred parent, or an
acknowledgement goes back. -/
inductive DaoReply where
  | forward (dst : IpAddr) (payload : List UInt8)
  | ack (dst : IpAddr) (payload : List UInt8)
deriving DecidableEq

section Parse
variable (buffer : ℕ → UInt8)

/-- One option of a DAO.  A target that is longer than an address does not fit into `prefix`. -/
def parseDaoOption (i : ℕ) (o : DaoOptions) : Except Fault DaoOptions :=
  if buffer i = rplOptionTarget then
    let prefixlen := buffer (i + 3)
    if prefixlen ≤ 128 then
      .ok { o with
        prefixAddr := .ofBytes (bytesAt buffer (i + 4) ((prefixlen.toNat + 7) / 8))
        prefixlen }
    else .error .outOfBounds
  else if buffer i = rplOptionTransit then .ok { o with lifetime := buffer (i + 5) }
  else .ok o

/-- The options of a DAO from offset `i` on; there are no more than there are bytes. -/
def parseDaoOptions (bufferLength : ℕ) : ℕ → ℕ → DaoOptions → Except Fault DaoOptions
  | 0, _, o => .ok o
  | fuel + 1, i, o =>
    if i < bufferLength then do
      let len := if buffer i = rplOptionPad1 then 1 else 2 + (buffer (i + 1)).toNat
      let o ← parseDaoOption buffer i o
      parseDaoOptions bufferLength fuel (i + len) o
    else .ok o

/-- The options of a DAO; `stack` is what the variable `prefix` holds without a target. -/
def daoOptions (bufferLength : UInt8) (stack : IpAddr) (defaultLifetime : UInt8) :
    Except Fault DaoOptions :=
  let pos := if buffer 1 &&& rplDaoDFlag ≠ 0 then 20 else 4
  parseDaoOptions buffer bufferLength.toNat bufferLength.toNat pos
    ⟨stack, 0, defaultLifetime⟩

end Parse

namespace Node
variable {cfg : Config} (s : Node cfg)

/-- A No-Path DAO: the route that was found is to expire soon. -/
def noPath (rep : Option (Fin cfg.routeNb)) : Node cfg :=
  match rep with
  | none => s
  | some rep =>
    let route := s.routingTable rep
    if route.state.savedLifetime = 0 then
      s.setRoute rep { route with state := { route.state with
        savedLifetime := route.state.lifetime
        lifetime := daoExpirationTimeout } }
    else s

/-- The sender of a unicast DAO is a parent of lower rank. -/
def daoLoop (d : cfg.DagRef) (sender : IpAddr) : Option cfg.ParentRef :=
  let dag := s.dagTable d
  match s.rplFindParent d sender with
  | none => none
  | some p =>
    if dag.dagRank (s.parent p).rank.toNat < dag.dagRank dag.rank.toNat then some p else none

/-- The route that was found, or a new one. -/
def daoRoute (d : cfg.DagRef) (o : DaoOptions) (sender : IpAddr)
    (rep : Option (Fin cfg.routeNb)) : Option (Fin cfg.routeNb) × Node cfg :=
  match rep with
  | some rep => (some rep, s)
  | none => s.rplAddRoute (some d) o.prefixAddr o.prefixlen sender

/-- What is sent at the end of `dao_input`. -/
def daoReply (d : cfg.DagRef) (buffer : ℕ → UInt8) (bufferLength : UInt8) (sender : IpAddr) :
    Option DaoReply :=
  match (s.dagTable d).preferredParent with
  | some p => some (.forward (s.parent p).addr (bytesAt buffer 0 bufferLength.toNat))
  | none =>
    if buffer 1 &&& rplDaoKFlag ≠ 0 then
      some (.ack sender [(s.dagTable d).instanceId, 0, buffer 3, 0])
    else none

/-- `dao_input`, for a DAO of `bufferLength` bytes from `sender`. -/
def daoInput (stack sender : IpAddr) (buffer : ℕ → UInt8) (bufferLength : UInt8) :
    Except Fault (Option DaoReply × Node cfg) :=
  match s.rplGetDag (buffer 0) none with
  | none => .ok (none, s)
  | some d => do
    let o ← daoOptions buffer bufferLength stack (s.dagTable d).config.defaultLifetime
    let rep := uipDs6RouteLookup s.routingTable o.prefixAddr
    if o.lifetime = zeroLifetime then .ok (none, s.noPath rep)
    else
      let unicast := !sender.uipIsAddrMcast
      match if unicast then s.daoLoop d sender else none with
      | some p => .ok (none, s.modifyParent p fun parent =>
          { parent with rank := infiniteRank, updated := true })
      | none =>
        match s.daoRoute d o sender rep with
        | (none, s) => .ok (none, s)
        | (some rep, s) =>
          let route := s.routingTable rep
          let s := s.setRoute rep { route with state := { route.state with
            lifetime := (s.dagTable d).rplLifetime o.lifetime
            learnedFrom := if unicast then rplRouteFromUnicastDao else rplRouteFromMulticastDao } }
          .ok (if unicast then s.daoReply d buffer bufferLength sender else none, s)

end Node
end Contiki

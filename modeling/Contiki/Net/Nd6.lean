import Contiki.Net.Neighbors

/-!
# Neighbour discovery

Input of neighbour solicitations and advertisements, output of solicitations, and the part of
`uip_ds6_periodic` that looks after the neighbours.  Offsets count from the IPv6 header on; the
checks of the configuration are switched on.

* `IpStack.uipNd6NsInput`, `uipNd6NaInput` — the two messages.
* `IpStack.uipNd6NsOutput` — a solicitation is put into `uip_buf`.
* `IpStack.periodicNeighbors` — a tick.
-/

namespace Contiki

def IpAddr.uipIsAddrSolicitedNode (a : IpAddr) : Bool :=
  a.u8.take 13 == [0xFF, 0x02, 0, 0, 0, 0, 0, 0, 0, 0, 0, 0x01, 0xFF]

/-- `ff02::1`, from `uip_create_linklocal_allnodes_mcast`. -/
def IpAddr.linklocalAllnodesMcast : IpAddr :=
  .ofBytes [0xff, 0x02, 0, 0, 0, 0, 0, 0, 0, 0, 0, 0, 0, 0, 0, 0x01]

/-- The link-layer address at an offset of a buffer. -/
def lladdrAt (bytes : ℕ → UInt8) (pos : ℕ) : Lladdr := ⟨copyBytes bytes pos 8, by simp [copyBytes]⟩

/-- The address at an offset of a buffer. -/
def addrAt (bytes : ℕ → UInt8) (pos : ℕ) : IpAddr := .ofBytes (copyBytes bytes pos 16)

def createLlao (lladdr : Lladdr) (type : UInt8) : List UInt8 :=
  [type, 2] ++ lladdr.u8 ++ List.replicate 6 0

/-- `UIP_ND6_MAX_MULTICAST_SOLICIT` and `UIP_ND6_MAX_UNICAST_SOLICIT`. -/
def uipNd6MaxSolicit : UInt8 := 3

namespace IpStack
variable {cfg : StackConfig} {δ : Type} (s : IpStack cfg δ)

/-- `UIP_ICMP_BUF`. -/
def icmpPos : ℕ := uipIphLen + s.uipExtLen.toNat

/-- `tgtipaddr` of a solicitation or an advertisement. -/
def tgtipaddr : IpAddr := addrAt s.uipBuf.bytes (s.icmpPos + 8)

/-- The place of the option at `nd6_opt_offset`. -/
def optPos (offset : UInt8) : ℕ := s.icmpPos + 4 + offset.toNat

/-- The addresses of the IPv6 header are written. -/
def setSrcipaddr (a : IpAddr) : IpStack cfg δ := s.writeBuf 8 a.u8

def setDestipaddr (a : IpAddr) : IpStack cfg δ := s.writeBuf 24 a.u8

/-! ## Addresses of the interface -/

/-- `uip_ds6_maddr_lookup` and `uip_ds6_maddr_rm`. -/
def maddrRm (a : IpAddr) : IpStack cfg δ :=
  match uipDs6ListLoop s.node.maddrList a 128 with
  | .found i =>
    { s with node := { s.node with
        maddrList := Function.update s.node.maddrList i { s.node.maddrList i with isused := false } } }
  | _ => s

def uipDs6AddrRm (i : Fin s.node.nAddr) : IpStack cfg δ :=
  let addr := s.node.addrList i
  let s : IpStack cfg δ := { s with node := { s.node with
    addrList := Function.update s.node.addrList i { addr with isused := false } } }
  s.maddrRm addr.ipaddr.uipCreateSolicitedNode

def uipDs6DadFailed (i : Fin s.node.nAddr) : IpStack cfg δ :=
  if (s.node.addrList i).ipaddr.uipIsAddrLinkLocal then s else s.uipDs6AddrRm i

/-! ## Output -/

/-- The checksum of the ICMPv6 message is put into it. -/
def writeIcmpchksum : IpStack cfg δ :=
  let s := s.writeBuf (s.icmpPos + 2) [0, 0]
  s.writeBuf (s.icmpPos + 2) (wordBytes (~~~s.uipBuf.upperLayerChksum s.icmpPos 58))

def uipNd6NsOutput (src dest : Option IpAddr) (tgt : IpAddr) : IpStack cfg δ :=
  let s : IpStack cfg δ := { s with uipExtLen := 0 }
  let s := s.writeBuf 0 [0x60, 0, 0, 0]
  let s := s.writeBuf 6 [58, 255]
  let s := s.setDestipaddr (dest.getD tgt.uipCreateSolicitedNode)
  let s := s.writeBuf 40 [135, 0]
  let s := s.writeBuf 44 ([0, 0, 0, 0] ++ tgt.u8)
  let s :=
    if s.node.isMyAddr tgt = false then
      let s := s.setSrcipaddr (src.getD (uipDs6SelectSrc s.node.addrList s.uipBuf.destipaddr))
      let s := s.writeBuf 4 [0, 4 + 20 + 16]
      let s := s.writeBuf 64 (createLlao s.uipLladdr 1)
      s.setLen (40 + 4 + 20 + 16)
    else
      let s := s.setSrcipaddr .unspecified
      let s := s.writeBuf 4 [0, 4 + 20]
      s.setLen (40 + 4 + 20)
  s.writeIcmpchksum

/-- The answer of `uip_nd6_ns_input`: an advertisement for the address `tgt`. -/
def createNa (flags : UInt8) (tgt : IpAddr) : IpStack cfg δ :=
  let s : IpStack cfg δ := { s with uipExtLen := 0 }
  let s := s.writeBuf 0 [0x60, 0, 0, 0, 0, 4 + 20 + 16, 58, 255]
  let s := s.writeBuf 40 [136, 0]
  let s := s.writeBuf 44 [flags]
  let s := s.writeBuf 48 tgt.u8
  let s := s.writeBuf 64 (createLlao s.uipLladdr 2)
  let s := s.writeIcmpchksum
  s.setLen (40 + 4 + 20 + 16)

/-! ## Neighbour solicitations -/

/-- A source link-layer address option updates the cache. -/
def nsSllao (lladdr : Lladdr) : IpStack cfg δ :=
  let src := s.uipBuf.srcipaddr
  match s.uipDs6NbrLookup src with
  | none => (s.uipDs6NbrAdd src (some lladdr) false .stale).2
  | some i =>
    if lladdr ≠ (s.nbrCache i).lladdr then s.setNbr i fun n => { n with lladdr, state := .stale }
    else if (s.nbrCache i).state = .incomplete then s.setNbr i fun n => { n with state := .stale }
    else s

/-- The loop of `uip_nd6_ns_input` over the options; the flag is false when the message is
discarded. -/
def nsOptions : ℕ → UInt8 → IpStack cfg δ → Except StackFault (Bool × IpStack cfg δ)
  | 0, _, _ => .error .hang
  | fuel + 1, offset, s =>
    let pos := s.optPos offset
    if pos < s.uipBuf.len.toNat then
      let type := s.uipBuf.bytes pos
      let len := s.uipBuf.bytes (pos + 1)
      if len = 0 then .ok (false, s)
      else if type = 1 then
        if s.uipBuf.srcipaddr.uipIsAddrUnspecified then .ok (false, s)
        else nsOptions fuel (offset + (len <<< 3)) (s.nsSllao (lladdrAt s.uipBuf.bytes (pos + 2)))
      else nsOptions fuel (offset + (len <<< 3)) s
    else .ok (true, s)

/-- `uip_nd6_ns_input` behind the options. -/
def nsReply : IpStack cfg δ :=
  match uipDs6AddrLookup s.node.addrList s.tgtipaddr with
  | none => s.setLen 0
  | some i =>
    let addr := s.node.addrList i
    let src := s.uipBuf.srcipaddr
    let dest := s.uipBuf.destipaddr
    if src.uipIsAddrUnspecified then
      if dest.uipIsAddrSolicitedNode = false then s.setLen 0
      else if addr.state ≠ .tentative then
        let s := s.setDestipaddr .linklocalAllnodesMcast
        let s := s.setSrcipaddr (uipDs6SelectSrc s.node.addrList s.uipBuf.destipaddr)
        s.createNa 0x20 addr.ipaddr
      else (s.uipDs6DadFailed i).setLen 0
    else if s.node.isMyAddr src then s.setLen 0
    else if dest.uipIsAddrSolicitedNode ∨
        uipDs6AddrLookup s.node.addrList dest = some i then
      let tgt := s.tgtipaddr
      ((s.setDestipaddr src).setSrcipaddr tgt).createNa 0x60 addr.ipaddr
    else s.setLen 0

def uipNd6NsInput : Except StackFault (IpStack cfg δ) :=
  if s.uipBuf.bytes 7 ≠ 255 ∨ s.tgtipaddr.uipIsAddrMcast ∨ s.uipBuf.bytes (s.icmpPos + 1) ≠ 0 then
    .ok (s.setLen 0)
  else do
    let (proceed, s) ← nsOptions 257 20 s
    if proceed then .ok s.nsReply else .ok (s.setLen 0)

/-! ## Neighbour advertisements -/

/-- The loop of `uip_nd6_na_input` over the options, with `nd6_opt_llao`; without a result when the
message is discarded. -/
def naOptions : ℕ → UInt8 → Option ℕ → Except StackFault (Option (Option ℕ))
  | 0, _, _ => .error .hang
  | fuel + 1, offset, llao =>
    let pos := s.optPos offset
    if pos < s.uipBuf.len.toNat then
      let type := s.uipBuf.bytes pos
      let len := s.uipBuf.bytes (pos + 1)
      if len = 0 then .ok none
      else naOptions fuel (offset + (len <<< 3)) (if type = 2 then some pos else llao)
    else .ok (some llao)

/-- `uip_nd6_na_input` for a neighbour that is incomplete; the flag is false when the message is
discarded. -/
def naIncomplete (i : Fin cfg.nbrNb) (isRouter isSolicited : Bool) (llao : Option Lladdr) :
    Bool × IpStack cfg δ :=
  match llao with
  | none => (false, s)
  | some lladdr =>
    let s := s.setNbr i fun n => { n with lladdr }
    let s :=
      if isSolicited then
        s.setNbr i fun n =>
          { n with state := .reachable, nscount := 0
                   reachable := .set s.clockSeconds (s.reachableTime / 1000) }
      else s.setNbr i fun n => { n with state := .stale }
    (true, s.setNbr i fun n => { n with isrouter := isRouter })

/-- `uip_nd6_na_input` for a neighbour whose link-layer address is known. -/
def naComplete (i : Fin cfg.nbrNb) (isRouter isSolicited isOverride : Bool) (llao : Option Lladdr) :
    Bool × IpStack cfg δ :=
  let isLlchange : Bool := llao.any (· ≠ (s.nbrCache i).lladdr)
  if isOverride = false ∧ isLlchange then
    (false,
      if (s.nbrCache i).state = .reachable then s.setNbr i fun n => { n with state := .stale } else s)
  else
    -- One of the three cases that update the entry always holds here.
    let s := s.setNbr i fun n => { n with lladdr := llao.getD n.lladdr }
    let s :=
      if isSolicited then
        s.setNbr i fun n =>
          { n with state := .reachable, reachable := .set s.clockSeconds (s.reachableTime / 1000) }
      else if isLlchange then s.setNbr i fun n => { n with state := .stale }
      else s
    let s : IpStack cfg δ :=
      if (s.nbrCache i).isrouter ∧ isRouter = false then
        match uipDs6DefrtLookup s.defrtList s.uipBuf.srcipaddr with
        | some defrt => { s with defrtList := uipDs6DefrtRm s.defrtList defrt }
        | none => s
      else s
    (true, s.setNbr i fun n => { n with isrouter := isRouter })

/-- The packet that waits for a neighbour is handed back, if there is one. -/
def handBackNa (i : Fin cfg.nbrNb) : IpStack cfg δ :=
  match (s.nbrCache i).packethandle with
  | none => s.setLen 0
  | some b => if s.uipPacketqueueBuflen i ≠ 0 then s.handBack i b else s.setLen 0

/-- `uip_nd6_na_input` for a neighbour in the cache. -/
def naNeighbor (i : Fin cfg.nbrNb) (flags : UInt8) (llao : Option Lladdr) : IpStack cfg δ :=
  let isRouter : Bool := flags &&& 0x80 ≠ 0
  let isSolicited : Bool := flags &&& 0x40 ≠ 0
  let isOverride : Bool := flags &&& 0x20 ≠ 0
  let (proceed, s) :=
    if (s.nbrCache i).state = .incomplete then s.naIncomplete i isRouter isSolicited llao
    else s.naComplete i isRouter isSolicited isOverride llao
  if proceed then s.handBackNa i else s.setLen 0

def uipNd6NaInput : Except StackFault (IpStack cfg δ) :=
  let flags := s.uipBuf.bytes (s.icmpPos + 4)
  if s.uipBuf.bytes 7 ≠ 255 ∨ s.uipBuf.bytes (s.icmpPos + 1) ≠ 0 ∨ s.tgtipaddr.uipIsAddrMcast ∨
      (flags &&& 0x40 ≠ 0 ∧ s.uipBuf.destipaddr.uipIsAddrMcast) then
    .ok (s.setLen 0)
  else do
    match ← s.naOptions 257 20 none with
    | none => .ok (s.setLen 0)
    | some llao =>
      match uipDs6AddrLookup s.node.addrList s.tgtipaddr with
      | some a =>
        .ok ((if (s.node.addrList a).state = .tentative then s.uipDs6DadFailed a else s).setLen 0)
      | none =>
        match s.uipDs6NbrLookup s.tgtipaddr with
        | none => .ok (s.setLen 0)
        | some i =>
          .ok (s.naNeighbor i flags (llao.map fun pos => lladdrAt s.uipBuf.bytes (pos + 2)))

/-! ## Maintenance -/

/-- A solicitation for a neighbour is put into `uip_buf`, and counted. -/
def solicitNbr (i : Fin cfg.nbrNb) (dest : Option IpAddr) : IpStack cfg δ :=
  let s := s.setNbr i fun n => { n with nscount := n.nscount + 1 }
  let s := s.uipNd6NsOutput none dest (s.nbrCache i).ipaddr
  s.setNbr i fun n => { n with sendns := .set s.clockSeconds (s.retransTimer / 1000) }

/-- `uip_ds6_periodic` for one neighbour. -/
def periodicNbr (i : Fin cfg.nbrNb) : IpStack cfg δ :=
  let n := s.nbrCache i
  if n.isused = false then s
  else
    match n.state with
    | .incomplete =>
      if n.nscount ≥ uipNd6MaxSolicit then s.uipDs6NbrRm i
      else if n.sendns.expired s.clockSeconds then s.solicitNbr i none
      else s
    | .reachable =>
      if n.reachable.expired s.clockSeconds then s.setNbr i fun n => { n with state := .stale } else s
    | .delay =>
      if n.reachable.expired s.clockSeconds then
        (s.setNbr i fun n => { n with state := .probe, nscount := 0 }).solicitNbr i (some n.ipaddr)
      else s
    | .probe =>
      if n.nscount ≥ uipNd6MaxSolicit then
        match uipDs6DefrtLookup s.defrtList n.ipaddr with
        | some defrt =>
          ({ s with defrtList := uipDs6DefrtRm s.defrtList defrt } : IpStack cfg δ).uipDs6NbrRm i
        | none => s.uipDs6NbrRm i
      else if n.sendns.expired s.clockSeconds then s.solicitNbr i (some n.ipaddr)
      else s
    | .stale => s

/-- `uip_ds6_periodic`, the loop over the neighbours. -/
def periodicNeighbors : IpStack cfg δ := (List.finRange cfg.nbrNb).foldl periodicNbr s

end IpStack
end Contiki

import Contiki.Net.Nd6

/-!
# Router advertisements

Input of router advertisements by a node that is not a router itself.  `nbr` is a static variable of
`uip-nd6.c`, and an advertisement without a source link-layer address option leaves in it what an
earlier message has put there.

* `Nd6Host.raOptions` — the loop over the options.
* `Nd6Host.uipNd6RaInput` — the message.
-/

namespace Contiki

/-- The 32 bits at an offset of a buffer, from `uip_ntohl`. -/
def longAt (bytes : ℕ → UInt8) (pos : ℕ) : BitVec 32 :=
  (bytes pos).toBitVec ++ (bytes (pos + 1)).toBitVec ++ (bytes (pos + 2)).toBitVec ++
    (bytes (pos + 3)).toBitVec

def uipNd6InfiniteLifetime : BitVec 32 := 0xFFFFFFFF

def Stimer.remaining (now : BitVec 32) (t : Stimer) : BitVec 32 := t.start + t.interval - now

/-- The state of the stack of a host, with what only hosts keep.  The lifetimes are those of the entries
of `addrList` and `prefixList` with the same number. -/
structure Nd6Host (cfg : StackConfig) (δ : Type) where
  stack : IpStack cfg δ
  nbr : Option (Fin cfg.nbrNb)
  /-- `uip_ds6_if.link_mtu`. -/
  linkMtu : BitVec 32
  /-- `uip_ds6_if.base_reachable_time`. -/
  baseReachableTime : BitVec 32
  /-- The type of an address is `ADDR_AUTOCONF`. -/
  addrAutoconf : ℕ → Bool
  addrVlifetime : ℕ → Stimer
  prefixVlifetime : ℕ → Stimer
  prefixIsinfinite : ℕ → Bool

namespace Nd6Host
variable {cfg : StackConfig} {δ : Type} (h : Nd6Host cfg δ)

/-- `uip_ds6_compute_reachable_time`, with two numbers from `random_rand`. -/
def computeReachableTime (random : UInt16 × UInt16) : BitVec 32 :=
  let base := h.baseReachableTime
  base / 2 + BitVec.ofNat 32 ((random.1 <<< 8).toNat + random.2.toNat) % (base + base / 2 - base / 2)

/-! ## Prefixes -/

/-- `uip_ds6_list_loop` on the prefixes. -/
def prefixLoop (ipaddr : IpAddr) (ipaddrlen : UInt8) : ListLoop h.stack.node.nPrefix :=
  uipDs6ListLoop (fun i => (h.stack.node.prefixList i).toDs6Element) ipaddr ipaddrlen.toNat

/-- An entry of the list of prefixes is written. -/
def setPrefix (i : Fin h.stack.node.nPrefix) (p : Ds6Prefix) : Nd6Host cfg δ :=
  { h with stack := { h.stack with node := { h.stack.node with
      prefixList := Function.update h.stack.node.prefixList i p } } }

/-- The lifetime of a prefix is set; zero stands for no end. -/
def setPrefixLifetime (i : ℕ) (interval : BitVec 32) : Nd6Host cfg δ :=
  if interval ≠ 0 then
    { h with
      prefixVlifetime := Function.update h.prefixVlifetime i (.set h.stack.clockSeconds interval)
      prefixIsinfinite := Function.update h.prefixIsinfinite i false }
  else { h with prefixIsinfinite := Function.update h.prefixIsinfinite i true }

def uipDs6PrefixAdd (ipaddr : IpAddr) (ipaddrlen : UInt8) (interval : BitVec 32) : Nd6Host cfg δ :=
  match h.prefixLoop ipaddr ipaddrlen with
  | .freespace i =>
    (h.setPrefix i { isused := true, ipaddr, length := ipaddrlen }).setPrefixLifetime i.val interval
  | _ => h

/-- The on-link flag of a prefix information option. -/
def raOnlink (ipaddr : IpAddr) (preflen : UInt8) (validlt : BitVec 32) : Nd6Host cfg δ :=
  match h.prefixLoop ipaddr preflen with
  | .found i =>
    if validlt = 0 then h.setPrefix i { h.stack.node.prefixList i with isused := false }
    else h.setPrefixLifetime i.val (if validlt = uipNd6InfiniteLifetime then 0 else validlt)
  | _ =>
    if validlt ≠ 0 then
      h.uipDs6PrefixAdd ipaddr preflen (if validlt = uipNd6InfiniteLifetime then 0 else validlt)
    else h

/-! ## Addresses -/

/-- `uip_ds6_addr_add` with the type `ADDR_AUTOCONF`, without the timer for duplicate detection. -/
def uipDs6AddrAdd (ipaddr : IpAddr) (vlifetime : BitVec 32) : Nd6Host cfg δ :=
  let node := h.stack.node
  match uipDs6ListLoop (fun i => (node.addrList i).toDs6Element) ipaddr 128 with
  | .freespace i =>
    { h with
      addrAutoconf := Function.update h.addrAutoconf i true
      addrVlifetime :=
        if vlifetime = 0 then h.addrVlifetime
        else Function.update h.addrVlifetime i (.set h.stack.clockSeconds vlifetime)
      stack := { h.stack with node := { node with
        addrList := Function.update node.addrList i
          { isused := true, ipaddr, state := .tentative, isinfinite := vlifetime == 0 }
        maddrList := uipDs6MaddrAdd node.maddrList ipaddr.uipCreateSolicitedNode } } }
  | _ => h

/-- An entry of the list of addresses is made infinite or not. -/
def setAddrIsinfinite (i : Fin h.stack.node.nAddr) (isinfinite : Bool) : Nd6Host cfg δ :=
  { h with stack := { h.stack with node := { h.stack.node with
      addrList := Function.update h.stack.node.addrList i
        { h.stack.node.addrList i with isinfinite } } } }

/-- The lifetime of an address that was made from the prefix before. -/
def raAddrLifetime (i : Fin h.stack.node.nAddr) (validlt : BitVec 32) : Nd6Host cfg δ :=
  if validlt ≠ uipNd6InfiniteLifetime then
    let interval :=
      if validlt > 2 * 60 * 60 ∨ validlt > (h.addrVlifetime i).remaining h.stack.clockSeconds then
        validlt
      else 2 * 60 * 60
    let h := h.setAddrIsinfinite i false
    { h with addrVlifetime :=
        Function.update h.addrVlifetime i (.set h.stack.clockSeconds interval) }
  else h.setAddrIsinfinite i true

/-- The autonomous flag of a prefix information option. -/
def raAutonomous (ipaddr : IpAddr) (validlt : BitVec 32) : Nd6Host cfg δ :=
  let ipaddr := ipaddr.uipDs6SetAddrIid h.stack.uipLladdr
  let add := h.uipDs6AddrAdd ipaddr (if validlt = uipNd6InfiniteLifetime then 0 else validlt)
  match uipDs6AddrLookup h.stack.node.addrList ipaddr with
  | some i => if h.addrAutoconf i then h.raAddrLifetime i validlt else add
  | none => add

/-! ## Options -/

/-- A source link-layer address option. -/
def raSllao (pos : ℕ) : Nd6Host cfg δ :=
  let s := h.stack
  let lladdr := lladdrAt s.uipBuf.bytes (pos + 2)
  match s.uipDs6NbrLookup s.uipBuf.srcipaddr with
  | none =>
    let (nbr, stack) := s.uipDs6NbrAdd s.uipBuf.srcipaddr (some lladdr) true .stale
    { h with nbr, stack }
  | some i =>
    { h with
      nbr := some i
      stack := s.setNbr i fun n =>
        { n with
          state := if n.state = .incomplete ∨ lladdr ≠ n.lladdr then .stale else n.state
          lladdr
          isrouter := true } }

/-- A prefix information option. -/
def raPrefixInfo (pos : ℕ) : Nd6Host cfg δ :=
  let bytes := h.stack.uipBuf.bytes
  let preflen := bytes (pos + 2)
  let flags := bytes (pos + 3)
  let validlt := longAt bytes (pos + 4)
  let preferredlt := longAt bytes (pos + 8)
  let pfx := addrAt bytes (pos + 16)
  if validlt ≥ preferredlt ∧ pfx.uipIsAddrLinkLocal = false then
    let h := if flags &&& 0x80 ≠ 0 then h.raOnlink pfx preflen validlt else h
    if flags &&& 0x40 ≠ 0 ∧ validlt ≠ 0 ∧ preflen = 64 then h.raAutonomous pfx validlt else h
  else h

/-- The option at `pos`. -/
def raOption (pos : ℕ) : Nd6Host cfg δ :=
  let type := h.stack.uipBuf.bytes pos
  if type = 1 then h.raSllao pos
  else if type = 5 then { h with linkMtu := longAt h.stack.uipBuf.bytes (pos + 4) }
  else if type = 3 then h.raPrefixInfo pos
  else h

/-- The loop of `uip_nd6_ra_input` over the options; the flag is false when the message is
discarded. -/
def raOptions : ℕ → UInt8 → Nd6Host cfg δ → Except StackFault (Bool × Nd6Host cfg δ)
  | 0, _, _ => .error .hang
  | fuel + 1, offset, h =>
    let pos := h.stack.optPos offset
    if pos < h.stack.uipBuf.len.toNat then
      let len := h.stack.uipBuf.bytes (pos + 1)
      if len = 0 then .ok (false, h)
      else raOptions fuel (offset + (len <<< 3)) (h.raOption pos)
    else .ok (true, h)

/-! ## The message -/

/-- The fields in front of the options. -/
def raHeader (random : UInt16 × UInt16) : Nd6Host cfg δ :=
  let bytes := h.stack.uipBuf.bytes
  let pos := h.stack.icmpPos + 4
  let reachableTime := longAt bytes (pos + 4)
  let retransTimer := longAt bytes (pos + 8)
  let h :=
    if bytes pos ≠ 0 then
      { h with stack := { h.stack with node := { h.stack.node with curHopLimit := bytes pos } } }
    else h
  let h :=
    if reachableTime ≠ 0 ∧ h.baseReachableTime ≠ reachableTime then
      let h := { h with baseReachableTime := reachableTime }
      { h with stack := { h.stack with reachableTime := h.computeReachableTime random } }
    else h
  if retransTimer ≠ 0 then { h with stack := { h.stack with retransTimer } } else h

/-- `uip_nd6_ra_input` behind the options: the default router. -/
def raDefrt : Nd6Host cfg δ :=
  let s := h.stack
  let src := s.uipBuf.srcipaddr
  let lifetime := wordAt s.uipBuf.bytes (s.icmpPos + 6)
  if lifetime ≠ 0 then
    let s := h.nbr.elim s fun i => s.setNbr i fun n => { n with isrouter := true }
    match uipDs6DefrtLookup s.defrtList src with
    | none =>
      { h with stack := { s with
          defrtList := (uipDs6DefrtAdd s.defrtList src lifetime.toUInt32).2 } }
    | some i =>
      { h with stack := { s with
          defrtList := Function.update s.defrtList i
            { s.defrtList i with lifetime := lifetime.toUInt32 } } }
  else
    match uipDs6DefrtLookup s.defrtList src with
    | some i => { h with stack := { s with defrtList := uipDs6DefrtRm s.defrtList i } }
    | none => h

/-- The message is discarded. -/
def discard : Nd6Host cfg δ := { h with stack := h.stack.setLen 0 }

def uipNd6RaInput (random : UInt16 × UInt16) : Except StackFault (Nd6Host cfg δ) :=
  let buf := h.stack.uipBuf
  if buf.bytes 7 ≠ 255 ∨ buf.srcipaddr.uipIsAddrLinkLocal = false ∨
      buf.bytes (h.stack.icmpPos + 1) ≠ 0 then
    .ok h.discard
  else do
    let (proceed, h) ← raOptions 257 12 (h.raHeader random)
    if proceed then
      let h := h.raDefrt
      .ok (h.nbr.elim h.discard fun i => { h with stack := h.stack.handBackNa i })
    else .ok h.discard

end Nd6Host
end Contiki

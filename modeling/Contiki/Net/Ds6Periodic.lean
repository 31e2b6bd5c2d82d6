import Contiki.Net.AddressResolution
import Contiki.Net.RouterAdvertisement
import Contiki.Sys.Etimer

/-!
# The periodic maintenance of the tables

`uip_ds6_periodic` with the addresses of the interface: their lifetimes, and the detection of duplicates,
which asks for an address some times before it is used.

* `Ds6Host.uipDs6AddrAdd`, `uipDs6AddrRm`, `uipDs6DadFailed` — addresses come and go.
* `Ds6Host.uipDs6Dad` — the detection of duplicates.
* `Ds6Host.uipDs6Periodic` — a tick.
-/

namespace Contiki

/-- The state of a node with the timers of its addresses and default routers.  They are those of the
entries with the same number. -/
structure Ds6Host (cfg : StackConfig) (δ : Type) extends Nd6Host cfg δ where
  dadtimer : ℕ → Timer cfg.clockWidth
  dadnscount : ℕ → UInt8
  defrtLifetime : Fin cfg.defrtNb → Stimer
  /-- `uip_ds6_if.maxdadns`. -/
  maxdadns : UInt8
  /-- `CLOCK_SECOND`. -/
  clockSecond : ℕ

namespace Ds6Host
variable {cfg : StackConfig} {δ : Type} (h : Ds6Host cfg δ)

/-- The stack is changed. -/
def withStack (stack : IpStack cfg δ) : Ds6Host cfg δ := { h with stack }

/-! ## Addresses -/

/-- `uip_ds6_addr_add`, with a number from `random_rand`; the flag says that the type is
`ADDR_AUTOCONF`. -/
def uipDs6AddrAdd (ipaddr : IpAddr) (vlifetime : BitVec 32) (autoconf : Bool) (random : UInt16) :
    Option ℕ × Ds6Host cfg δ :=
  let node := h.stack.node
  match uipDs6ListLoop (fun i => (node.addrList i).toDs6Element) ipaddr 128 with
  | .freespace i =>
    (some i.val, { h with
      addrAutoconf := Function.update h.addrAutoconf i autoconf
      addrVlifetime :=
        if vlifetime = 0 then h.addrVlifetime
        else Function.update h.addrVlifetime i (.set h.stack.clockSeconds vlifetime)
      dadtimer := Function.update h.dadtimer i
        (.set h.stack.clockTime (BitVec.ofNat cfg.clockWidth (random.toNat % h.clockSecond)))
      dadnscount := Function.update h.dadnscount i 0
      stack := { h.stack with node := { node with
        addrList := Function.update node.addrList i
          { isused := true, ipaddr, state := .tentative, isinfinite := vlifetime == 0 }
        maddrList := uipDs6MaddrAdd node.maddrList ipaddr.uipCreateSolicitedNode } } })
  | _ => (none, h)

/-- `uip_ds6_addr_rm`, for the entry with a number. -/
def uipDs6AddrRm (i : ℕ) : Ds6Host cfg δ :=
  if hi : i < h.stack.node.nAddr then h.withStack (h.stack.uipDs6AddrRm ⟨i, hi⟩) else h

def uipDs6DadFailed (i : ℕ) : Ds6Host cfg δ :=
  if hi : i < h.stack.node.nAddr then h.withStack (h.stack.uipDs6DadFailed ⟨i, hi⟩) else h

/-- The state of an address is set. -/
def setAddrState (i : Fin h.stack.node.nAddr) (state : AddrState) : Ds6Host cfg δ :=
  h.withStack { h.stack with node := { h.stack.node with
    addrList := Function.update h.stack.node.addrList i { h.stack.node.addrList i with state } } }

def uipDs6Dad (i : Fin h.stack.node.nAddr) : Ds6Host cfg δ :=
  if h.dadnscount i < h.maxdadns then
    { h.withStack (h.stack.uipNd6NsOutput none none (h.stack.node.addrList i).ipaddr) with
      dadnscount := Function.update h.dadnscount i (h.dadnscount i + 1)
      dadtimer := Function.update h.dadtimer i (.set h.stack.clockTime
        ((h.stack.retransTimer / 1000 * BitVec.ofNat 32 h.clockSecond).setWidth cfg.clockWidth)) }
  else h.setAddrState i .preferred

/-! ## A tick -/

/-- The lifetime of an address in use is over. -/
def AddrExpired (i : Fin h.stack.node.nAddr) : Prop :=
  (h.stack.node.addrList i).isinfinite = false ∧
    (h.addrVlifetime i).expired h.stack.clockSeconds = true

instance instDecidableAddrExpired (i : Fin h.stack.node.nAddr) : Decidable (h.AddrExpired i) :=
  inferInstanceAs (Decidable (_ ∧ _))

/-- The detection of duplicates goes on for an address. -/
def DadDue (i : Fin h.stack.node.nAddr) : Prop :=
  (h.stack.node.addrList i).state = .tentative ∧ h.dadnscount i ≤ h.maxdadns ∧
    (h.dadtimer i).expired h.stack.clockTime = true

instance instDecidableDadDue (i : Fin h.stack.node.nAddr) : Decidable (h.DadDue i) :=
  inferInstanceAs (Decidable (_ ∧ _ ∧ _))

/-- `uip_ds6_periodic` for one address.  The look-up of an address in `uip_nd6_ns_output` sets the
variable of the loop to the entry that has it: to the same entry, as no address is added twice. -/
def periodicAddr (i : ℕ) : Ds6Host cfg δ :=
  if hi : i < h.stack.node.nAddr then
    if (h.stack.node.addrList ⟨i, hi⟩).isused = false then h
    else if h.AddrExpired ⟨i, hi⟩ then h.uipDs6AddrRm i
    else if h.DadDue ⟨i, hi⟩ then h.uipDs6Dad ⟨i, hi⟩
    else h
  else h

/-- `uip_ds6_periodic`, the loop over the addresses. -/
def periodicAddrs : Ds6Host cfg δ := (List.range h.stack.node.nAddr).foldl periodicAddr h

/-- `uip_ds6_periodic` for one default router. -/
def periodicDefrt (i : Fin cfg.defrtNb) : Ds6Host cfg δ :=
  let defrt := h.stack.defrtList i
  if defrt.isused ∧ defrt.isinfinite = false ∧ (h.defrtLifetime i).expired h.stack.clockSeconds then
    h.withStack { h.stack with defrtList := uipDs6DefrtRm h.stack.defrtList i }
  else h

/-- `uip_ds6_periodic` for one prefix of a host. -/
def periodicPrefix (i : ℕ) : Ds6Host cfg δ :=
  if hi : i < h.stack.node.nPrefix then
    let p := h.stack.node.prefixList ⟨i, hi⟩
    if p.isused ∧ h.prefixIsinfinite i = false ∧
        (h.prefixVlifetime i).expired h.stack.clockSeconds then
      { h with toNd6Host := h.setPrefix ⟨i, hi⟩ { p with isused := false } }
    else h
  else h

/-- `uip_ds6_periodic`, without advertisements of a router. -/
def uipDs6Periodic : Ds6Host cfg δ :=
  let h := h.periodicAddrs
  let h := (List.finRange cfg.defrtNb).foldl periodicDefrt h
  let h :=
    if h.stack.node.router then h
    else (List.range h.stack.node.nPrefix).foldl periodicPrefix h
  h.withStack h.stack.periodicNeighbors

end Ds6Host

/-! ## What a tick leaves alone -/

namespace IpStack
variable {cfg : StackConfig} {δ : Type} {s t t' : IpStack cfg δ}

lemma uipDs6NbrRm_node (s : IpStack cfg δ) (i : Fin cfg.nbrNb) : (s.uipDs6NbrRm i).node = s.node := by
  unfold uipDs6NbrRm uipPacketqueueFree
  split <;> rfl

lemma solicitNbr_node (s : IpStack cfg δ) (i : Fin cfg.nbrNb) (dest : Option IpAddr) :
    (s.solicitNbr i dest).node = s.node := (onlyPacket_uipNd6NsOutput _ none dest _).node

lemma periodicNbr_node (s : IpStack cfg δ) (i : Fin cfg.nbrNb) : (s.periodicNbr i).node = s.node := by
  unfold periodicNbr
  dsimp only
  by_cases hused : (s.nbrCache i).isused = false
  · rw [if_pos hused]
  · rw [if_neg hused]
    cases (s.nbrCache i).state with
    | incomplete =>
      dsimp only
      split_ifs
      · exact uipDs6NbrRm_node s i
      · exact solicitNbr_node s i _
      · rfl
    | reachable =>
      dsimp only
      split_ifs <;> rfl
    | stale => rfl
    | delay =>
      dsimp only
      split_ifs
      · exact solicitNbr_node _ i _
      · rfl
    | probe =>
      dsimp only
      split_ifs
      · split
        · exact uipDs6NbrRm_node _ i
        · exact uipDs6NbrRm_node s i
      · exact solicitNbr_node s i _
      · rfl

/-- The loop over the neighbours leaves the addresses of the node alone. -/
lemma periodicNeighbors_node (s : IpStack cfg δ) : s.periodicNeighbors.node = s.node := by
  unfold periodicNeighbors
  generalize List.finRange cfg.nbrNb = l
  induction l generalizing s with
  | nil => rfl
  | cons i l ih => exact (ih (s.periodicNbr i)).trans (periodicNbr_node s i)

end IpStack
end Contiki

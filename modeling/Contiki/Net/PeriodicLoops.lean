import Contiki.Lib.Sweep
import Contiki.Net.Solicitations
import Contiki.Net.SolicitedGroups

/-!
# The loops of a tick

What each loop of `uip_ds6_periodic` does to its table, and which solicitation it leaves in `uip_buf`.

* `Ds6Host.periodicAddrs_spec` — the addresses of the node.
* `Ds6Host.periodicDefrts_spec`, `periodicPrefixes_spec` — the default routers and the prefixes.
* `IpStack.periodicNeighbors_spec` — the neighbours.
-/

namespace Contiki

/-! ## The entries -/

/-- `uip_ds6_addr_t`. -/
structure AddrEntry (clockWidth : ℕ) extends Ds6Addr where
  vlifetime : Stimer
  dadtimer : Timer clockWidth
  dadnscount : UInt8

namespace AddrEntry
variable {clockWidth : ℕ} (e : AddrEntry clockWidth)

/-- The lifetime is over. -/
def Expired (now : BitVec 32) : Prop := e.isinfinite = false ∧ e.vlifetime.expired now = true

instance instDecidableExpired (now : BitVec 32) : Decidable (e.Expired now) :=
  inferInstanceAs (Decidable (_ ∧ _))

/-- The entry is kept. -/
def isKept (now : BitVec 32) : Bool := e.isused && !decide (e.Expired now)

/-- A solicitation is due. -/
def Asks (now : BitVec 32) (time : BitVec clockWidth) (maxdadns : UInt8) : Prop :=
  e.isKept now = true ∧ e.state = .tentative ∧ e.dadtimer.expired time = true ∧ e.dadnscount < maxdadns

instance instDecidableAsks (now : BitVec 32) (time : BitVec clockWidth) (maxdadns : UInt8) :
    Decidable (e.Asks now time maxdadns) := inferInstanceAs (Decidable (_ ∧ _ ∧ _ ∧ _))

end AddrEntry

namespace Ds6Nbr
variable {clockWidth : ℕ} (n : Ds6Nbr clockWidth)

/-- The neighbour was asked often enough. -/
def Exhausted : Prop := (n.state = .incomplete ∨ n.state = .probe) ∧ uipNd6MaxSolicit ≤ n.nscount

instance instDecidableExhausted : Decidable n.Exhausted := inferInstanceAs (Decidable (_ ∧ _))

/-- The entry is kept. -/
def isKept : Bool := n.isused && !decide n.Exhausted

/-- A solicitation is due. -/
def Asks (now : BitVec 32) : Prop :=
  n.isKept = true ∧
    ((n.state = .incomplete ∨ n.state = .probe) ∧ n.sendns.expired now = true ∨
      n.state = .delay ∧ n.reachable.expired now = true)

instance instDecidableAsks (now : BitVec 32) : Decidable (n.Asks now) :=
  inferInstanceAs (Decidable (_ ∧ _))

/-- The neighbour that the solicitation is sent to. -/
def asked : Option IpAddr := if n.state = .incomplete then none else some n.ipaddr

/-- The default router with the address of a neighbour that does not answer is removed. -/
def dropDefrt {k : ℕ} (list : Fin k → Ds6Defrt) : Fin k → Ds6Defrt :=
  if n.isused = true ∧ n.state = .probe ∧ uipNd6MaxSolicit ≤ n.nscount then
    match uipDs6DefrtLookup list n.ipaddr with
    | some defrt => uipDs6DefrtRm list defrt
    | none => list
  else list

end Ds6Nbr

namespace IpNode

/-- The entry of the list of prefixes with a number. -/
def prefixAt (node : IpNode) (i : ℕ) : Option Ds6Prefix :=
  if hi : i < node.nPrefix then some (node.prefixList ⟨i, hi⟩) else none

end IpNode

namespace Ds6Host
variable {cfg : StackConfig} {δ : Type} (h : Ds6Host cfg δ)

/-- The address with a number. -/
def addrEntry (i : ℕ) : Option (AddrEntry cfg.clockWidth) :=
  (h.stack.node.addrAt i).map fun a =>
    { a with vlifetime := h.addrVlifetime i, dadtimer := h.dadtimer i, dadnscount := h.dadnscount i }

/-- The solicitation for an address of the node. -/
def addrSolicits (i : ℕ) : Option Solicitation :=
  (h.addrEntry i).bind fun e =>
    if e.Asks h.stack.clockSeconds h.stack.clockTime h.maxdadns then some ⟨e.ipaddr, none, nsLen true⟩
    else none

/-- A default router whose lifetime is over. -/
def DefrtExpired (i : Fin cfg.defrtNb) : Prop :=
  (h.stack.defrtList i).isused = true ∧ (h.stack.defrtList i).isinfinite = false ∧
    (h.defrtLifetime i).expired h.stack.clockSeconds = true

instance instDecidableDefrtExpired (i : Fin cfg.defrtNb) : Decidable (h.DefrtExpired i) :=
  inferInstanceAs (Decidable (_ ∧ _ ∧ _))

end Ds6Host

/-! ## The loop over the addresses -/

/-- What a tick makes of an address. -/
structure AddrEntry.Becomes {clockWidth : ℕ} (now : BitVec 32) (time : BitVec clockWidth) (maxdadns : UInt8)
    (e e' : AddrEntry clockWidth) : Prop where
  ipaddr : e'.ipaddr = e.ipaddr
  isused : e'.isused = e.isKept now
  dadnscount : e'.dadnscount = if e.Asks now time maxdadns then e.dadnscount + 1 else e.dadnscount
  state : e'.state ≠ e.state → maxdadns ≤ e.dadnscount

namespace Ds6Host
variable {cfg : StackConfig} {δ : Type} {h : Ds6Host cfg δ} {i j : ℕ}

/-- All but the addresses and the packet, which are those of another host. -/
def addrEnv (h₀ h : Ds6Host cfg δ) : Ds6Host cfg δ :=
  { h with
    dadtimer := h₀.dadtimer
    dadnscount := h₀.dadnscount
    stack := { h.stack with
      uipBuf := h₀.stack.uipBuf
      uipExtLen := h₀.stack.uipExtLen
      node := { h.stack.node with
        nAddr := h₀.stack.node.nAddr
        addrList := h₀.stack.node.addrList
        nMaddr := h₀.stack.node.nMaddr
        maddrList := h₀.stack.node.maddrList } } }

/-- What one turn of the loop over the addresses does. -/
structure AddrTurn (h h' : Ds6Host cfg δ) (i : ℕ) : Prop where
  env : ∀ h₀, addrEnv h₀ h' = addrEnv h₀ h
  others : ∀ j, j ≠ i → h'.addrEntry j = h.addrEntry j
  own : Option.Rel (AddrEntry.Becomes h.stack.clockSeconds h.stack.clockTime h.maxdadns) (h.addrEntry i)
    (h'.addrEntry i)
  solicits : ∀ m, h.addrSolicits i = some m → h'.stack.HoldsNs m
  keeps : h.addrSolicits i = none → h'.stack.uipBuf = h.stack.uipBuf

lemma addrEntry_of_lt (hi : i < h.stack.node.nAddr) : h.addrEntry i = some
    { h.stack.node.addrList ⟨i, hi⟩ with
      vlifetime := h.addrVlifetime i, dadtimer := h.dadtimer i, dadnscount := h.dadnscount i } := by
  unfold addrEntry
  rw [IpNode.addrAt_of_lt hi]
  rfl

lemma addrSolicits_of_some {e : AddrEntry cfg.clockWidth} (he : h.addrEntry i = some e) :
    h.addrSolicits i = if e.Asks h.stack.clockSeconds h.stack.clockTime h.maxdadns then
      some ⟨e.ipaddr, none, nsLen true⟩ else none := by
  unfold addrSolicits
  rw [he, Option.bind_some]

lemma maddrRm_addrAt (s : IpStack cfg δ) (a : IpAddr) (j : ℕ) :
    (s.maddrRm a).node.addrAt j = s.node.addrAt j := by
  unfold IpStack.maddrRm
  split <;> rfl

lemma maddrRm_uipBuf (s : IpStack cfg δ) (a : IpAddr) : (s.maddrRm a).uipBuf = s.uipBuf := by
  unfold IpStack.maddrRm
  split <;> rfl

/-- An entry is written, and the packet stays. -/
lemma AddrTurn.of_write {h' : Ds6Host cfg δ} {e e' : AddrEntry cfg.clockWidth}
    (he : h.addrEntry i = some e) (hask : ¬e.Asks h.stack.clockSeconds h.stack.clockTime h.maxdadns)
    (henv : ∀ h₀, addrEnv h₀ h' = addrEnv h₀ h) (hothers : ∀ j, j ≠ i → h'.addrEntry j = h.addrEntry j)
    (he' : h'.addrEntry i = some e') (hipaddr : e'.ipaddr = e.ipaddr)
    (hused : e'.isused = e.isKept h.stack.clockSeconds) (hcount : e'.dadnscount = e.dadnscount)
    (hstate : e'.state ≠ e.state → h.maxdadns ≤ e.dadnscount) (hbuf : h'.stack.uipBuf = h.stack.uipBuf) : h.AddrTurn h' i := by
  have hnone : h.addrSolicits i = none := by rw [addrSolicits_of_some he, if_neg hask]
  refine ⟨henv, hothers, ?_, fun m hm => ?_, fun _ => hbuf⟩
  · rw [he, he']
    exact .some ⟨hipaddr, hused, by rw [if_neg hask, hcount], hstate⟩
  · rw [hnone] at hm
    cases hm

lemma uipDs6AddrRm_turn {e : AddrEntry cfg.clockWidth} (he : h.addrEntry i = some e)
    (hexp : e.Expired h.stack.clockSeconds) : h.AddrTurn (h.uipDs6AddrRm i) i := by
  have hi : i < h.stack.node.nAddr := by
    by_contra hlt
    unfold addrEntry at he
    rw [IpNode.addrAt, dif_neg hlt] at he
    cases he
  have hkept : e.isKept h.stack.clockSeconds = false := by
    unfold AddrEntry.isKept
    rw [decide_eq_true hexp, Bool.not_true, Bool.and_false]
  have hat (j : ℕ) : (h.uipDs6AddrRm i).stack.node.addrAt j =
      if j = i then some { h.stack.node.addrList ⟨i, hi⟩ with isused := false }
      else h.stack.node.addrAt j := by
    unfold uipDs6AddrRm
    rw [dif_pos hi]
    exact (maddrRm_addrAt _ _ j).trans (IpNode.addrAt_update hi _ j)
  have hself : h.uipDs6AddrRm i = h.withStack (h.stack.uipDs6AddrRm ⟨i, hi⟩) := dif_pos hi
  have hvl : (h.uipDs6AddrRm i).addrVlifetime = h.addrVlifetime := by rw [hself]; rfl
  have hdt : (h.uipDs6AddrRm i).dadtimer = h.dadtimer := by rw [hself]; rfl
  have hdn : (h.uipDs6AddrRm i).dadnscount = h.dadnscount := by rw [hself]; rfl
  have hask : ¬e.Asks h.stack.clockSeconds h.stack.clockTime h.maxdadns := fun hask => by
    obtain ⟨hk, -⟩ := hask
    rw [hkept] at hk
    exact Bool.false_ne_true hk
  rw [addrEntry_of_lt hi] at he
  obtain rfl := Option.some.inj he
  have hafter : (h.uipDs6AddrRm i).addrEntry i = some
      { h.stack.node.addrList ⟨i, hi⟩ with
        isused := false, vlifetime := h.addrVlifetime i, dadtimer := h.dadtimer i
        dadnscount := h.dadnscount i } := by
    unfold addrEntry
    rw [hat, if_pos rfl, hvl, hdt, hdn]
    rfl
  refine AddrTurn.of_write (addrEntry_of_lt hi) hask ?_ ?_ hafter rfl hkept.symm rfl (absurd rfl) ?_
  · intro h₀
    rw [hself]
    unfold IpStack.uipDs6AddrRm IpStack.maddrRm
    dsimp only
    split <;> rfl
  · intro j hj
    unfold addrEntry
    rw [hat, if_neg hj, hvl, hdt, hdn]
  · rw [hself]
    exact maddrRm_uipBuf _ _

/-- The state of an address changes. -/
lemma setAddrState_turn (hi : i < h.stack.node.nAddr) {e : AddrEntry cfg.clockWidth}
    (he : h.addrEntry i = some e) (hkept : e.isused = e.isKept h.stack.clockSeconds)
    (hask : ¬e.Asks h.stack.clockSeconds h.stack.clockTime h.maxdadns)
    (hcount : h.maxdadns ≤ e.dadnscount) (state : AddrState) :
    h.AddrTurn (h.setAddrState ⟨i, hi⟩ state) i := by
  have hat (j : ℕ) : (h.setAddrState ⟨i, hi⟩ state).stack.node.addrAt j =
      if j = i then some { h.stack.node.addrList ⟨i, hi⟩ with state } else h.stack.node.addrAt j :=
    IpNode.addrAt_update hi _ j
  have hafter : (h.setAddrState ⟨i, hi⟩ state).addrEntry i = some
      { h.stack.node.addrList ⟨i, hi⟩ with
        state, vlifetime := h.addrVlifetime i, dadtimer := h.dadtimer i
        dadnscount := h.dadnscount i } := by
    unfold addrEntry
    rw [hat, if_pos rfl]
    rfl
  rw [addrEntry_of_lt hi] at he
  obtain rfl := Option.some.inj he
  refine AddrTurn.of_write (addrEntry_of_lt hi) hask (fun _ => rfl) ?_ hafter rfl hkept rfl (fun _ => hcount)
    rfl
  intro j hj
  unfold addrEntry
  rw [hat, if_neg hj]
  rfl

/-- The solicitation for an address is built. -/
lemma uipDs6Dad_turn (hi : i < h.stack.node.nAddr) {e : AddrEntry cfg.clockWidth}
    (he : h.addrEntry i = some e) (hask : e.Asks h.stack.clockSeconds h.stack.clockTime h.maxdadns) :
    h.AddrTurn (h.uipDs6Dad ⟨i, hi⟩) i := by
  have hsome := addrSolicits_of_some he
  rw [if_pos hask] at hsome
  rw [addrEntry_of_lt hi] at he
  obtain rfl := Option.some.inj he
  have hused : (h.stack.node.addrList ⟨i, hi⟩).isused = true := (Bool.and_eq_true_iff.mp hask.1).1
  have hmine : h.stack.node.isMyAddr (h.stack.node.addrList ⟨i, hi⟩).ipaddr = true :=
    uipDs6IsMyAddr_iff.mpr ⟨⟨i, hi⟩, hused, rfl⟩
  have hns := h.stack.uipNd6NsOutput_holds none none (h.stack.node.addrList ⟨i, hi⟩).ipaddr
  obtain ⟨buf, ext, heq⟩ : ∃ buf ext, h.stack.uipNd6NsOutput none none
      (h.stack.node.addrList ⟨i, hi⟩).ipaddr = { h.stack with uipBuf := buf, uipExtLen := ext } :=
    ⟨_, _, IpStack.onlyPacket_uipNd6NsOutput _ none none _⟩
  rw [hmine] at hns
  unfold uipDs6Dad
  rw [if_pos hask.2.2.2, heq]
  rw [heq] at hns
  refine ⟨fun _ => rfl, fun j hj => ?_, ?_, fun m hm => ?_, fun hnone => ?_⟩
  · unfold addrEntry withStack
    dsimp only
    rw [Function.update_of_ne hj, Function.update_of_ne hj]
  · rw [addrEntry_of_lt hi, addrEntry_of_lt (i := i) (by exact hi)]
    refine .some ⟨rfl, ?_, ?_, absurd rfl⟩
    · rw [hask.1]
      exact hused
    · rw [if_pos hask]
      exact Function.update_self ..
  · rw [hsome] at hm
    obtain rfl := Option.some.inj hm
    exact hns
  · rw [hsome] at hnone
    cases hnone

/-- One turn of the loop over the addresses. -/
lemma periodicAddr_turn (h : Ds6Host cfg δ) (i : ℕ) : h.AddrTurn (h.periodicAddr i) i := by
  unfold periodicAddr
  by_cases hi : i < h.stack.node.nAddr
  · rw [dif_pos hi]
    have he := addrEntry_of_lt hi
    have hskip : ∀ e, h.addrEntry i = some e → e.isused = e.isKept h.stack.clockSeconds →
        ¬e.Asks h.stack.clockSeconds h.stack.clockTime h.maxdadns → h.AddrTurn h i :=
      fun e he hkept hask => .of_write he hask (fun _ => rfl) (fun _ _ => rfl) he rfl hkept rfl (absurd rfl)
        rfl
    by_cases hused : (h.stack.node.addrList ⟨i, hi⟩).isused = false
    · rw [if_pos hused]
      have hkept : AddrEntry.isKept { h.stack.node.addrList ⟨i, hi⟩ with
          vlifetime := h.addrVlifetime i, dadtimer := h.dadtimer i, dadnscount := h.dadnscount i }
          h.stack.clockSeconds = false := by
        unfold AddrEntry.isKept
        rw [hused, Bool.false_and]
      refine hskip _ he (hused.trans hkept.symm) fun hask => ?_
      exact Bool.false_ne_true (hkept.symm.trans hask.1)
    · rw [if_neg hused]
      by_cases hexp : h.AddrExpired ⟨i, hi⟩
      · rw [if_pos hexp]
        exact uipDs6AddrRm_turn he hexp
      · rw [if_neg hexp]
        have hkept : AddrEntry.isKept { h.stack.node.addrList ⟨i, hi⟩ with
            vlifetime := h.addrVlifetime i, dadtimer := h.dadtimer i, dadnscount := h.dadnscount i }
            h.stack.clockSeconds = true := by
          unfold AddrEntry.isKept
          rw [eq_true_of_ne_false hused, Bool.true_and]
          exact congrArg not (decide_eq_false hexp)
        have hsame := (eq_true_of_ne_false hused).trans hkept.symm
        by_cases hdue : h.DadDue ⟨i, hi⟩
        · rw [if_pos hdue]
          by_cases hlt : h.dadnscount i < h.maxdadns
          · exact uipDs6Dad_turn hi he ⟨hkept, hdue.1, hdue.2.2, hlt⟩
          · unfold uipDs6Dad
            rw [if_neg hlt]
            exact setAddrState_turn hi he hsame (fun hask => hlt hask.2.2.2) (UInt8.not_lt.mp hlt) .preferred
        · rw [if_neg hdue]
          refine hskip _ he hsame fun hask => hdue ⟨hask.2.1, ?_, hask.2.2.1⟩
          exact UInt8.le_of_lt hask.2.2.2
  · rw [dif_neg hi]
    have hnone : h.addrEntry i = none := by
      unfold addrEntry
      rw [IpNode.addrAt, dif_neg hi]
      rfl
    refine ⟨fun _ => rfl, fun _ _ => rfl, ?_, fun m hm => ?_, fun _ => rfl⟩
    · rw [hnone]
      exact .none
    · unfold addrSolicits at hm
      rw [hnone] at hm
      cases hm

lemma addrEntry_of_ge (hi : h.stack.node.nAddr ≤ i) : h.addrEntry i = none := by
  unfold addrEntry
  rw [IpNode.addrAt, dif_neg (Nat.not_lt.mpr hi)]
  rfl

lemma sweeps_periodicAddr (h₀ : Ds6Host cfg δ) : Sweeps periodicAddr addrEntry (addrEnv h₀) :=
  ⟨fun t i => (periodicAddr_turn t i).others, fun t i => (periodicAddr_turn t i).env h₀⟩

/-- The loop over the addresses. -/
lemma periodicAddrs_spec (h : Ds6Host cfg δ) :
    addrEnv h h.periodicAddrs = h ∧
      (∀ i, Option.Rel (AddrEntry.Becomes h.stack.clockSeconds h.stack.clockTime h.maxdadns) (h.addrEntry i)
        (h.periodicAddrs.addrEntry i)) ∧
      ∀ m, ((List.range h.stack.node.nAddr).filterMap h.addrSolicits).getLast? = some m →
        h.periodicAddrs.stack.HoldsNs m := by
  have hsweep := sweeps_periodicAddr h
  refine ⟨hsweep.env_foldl _ h, fun i => ?_, fun m hm => ?_⟩
  · by_cases hi : i < h.stack.node.nAddr
    · exact hsweep.own (R := fun env _ e e' => Option.Rel
        (AddrEntry.Becomes env.stack.clockSeconds env.stack.clockTime env.maxdadns) e e')
        (fun t k => (periodicAddr_turn t k).own) List.nodup_range (List.mem_range.mpr hi)
    · have hnone := addrEntry_of_ge (Nat.not_lt.mp hi)
      have hsame := hsweep.get_foldl_of_notMem (l := List.range h.stack.node.nAddr) (j := i)
        (fun hmem => hi (List.mem_range.mp hmem)) h
      unfold periodicAddrs
      rw [hsame, hnone]
      exact .none
  · refine hsweep.last (fun env _ e => e.bind fun e =>
      if e.Asks env.stack.clockSeconds env.stack.clockTime env.maxdadns then
        some (⟨e.ipaddr, none, nsLen true⟩ : Solicitation) else none) (fun t m => t.stack.HoldsNs m)
      (fun t k => (periodicAddr_turn t k).solicits) (fun t k m hnone hload => ?_) List.nodup_range m (.inl hm)
    exact hload.congr ((periodicAddr_turn t k).keeps hnone)

/-! ## The loops over the default routers and the prefixes -/

/-- All but the default routers, which are those of another host. -/
def defrtEnv (h₀ h : Ds6Host cfg δ) : Ds6Host cfg δ :=
  h.withStack { h.stack with defrtList := h₀.stack.defrtList }

lemma sweeps_periodicDefrt (h₀ : Ds6Host cfg δ) :
    Sweeps periodicDefrt (fun h => h.stack.defrtList) (defrtEnv h₀) := by
  constructor
  · intro t i j hj
    unfold periodicDefrt
    dsimp only
    split_ifs
    · exact Function.update_of_ne hj _ _
    · rfl
  · intro t i
    unfold periodicDefrt
    dsimp only
    split_ifs <;> rfl

lemma periodicDefrts_spec (h : Ds6Host cfg δ) :
    defrtEnv h ((List.finRange cfg.defrtNb).foldl periodicDefrt h) = h ∧
      ((List.finRange cfg.defrtNb).foldl periodicDefrt h).stack.defrtList = fun i =>
        if h.DefrtExpired i then { h.stack.defrtList i with isused := false } else h.stack.defrtList i := by
  have hsweep := sweeps_periodicDefrt h
  refine ⟨hsweep.env_foldl _ h, funext fun i => ?_⟩
  refine hsweep.own (R := fun env i d d' => d' =
    if d.isused = true ∧ d.isinfinite = false ∧ (env.defrtLifetime i).expired env.stack.clockSeconds = true
    then { d with isused := false } else d) (fun t k => ?_) (List.nodup_finRange _) (List.mem_finRange i)
  show (t.periodicDefrt k).stack.defrtList k =
    if t.DefrtExpired k then { t.stack.defrtList k with isused := false } else t.stack.defrtList k
  by_cases hexp : t.DefrtExpired k
  · rw [if_pos hexp]
    exact (congrArg (fun t : Ds6Host cfg δ => t.stack.defrtList k) (if_pos hexp)).trans (Function.update_self ..)
  · rw [if_neg hexp]
    exact congrArg (fun t : Ds6Host cfg δ => t.stack.defrtList k) (if_neg hexp)

/-- All but the prefixes, which are those of another host. -/
def prefixEnv (h₀ h : Ds6Host cfg δ) : Ds6Host cfg δ :=
  h.withStack { h.stack with node := { h.stack.node with
    nPrefix := h₀.stack.node.nPrefix, prefixList := h₀.stack.node.prefixList } }

/-- What a tick makes of the prefix with a number. -/
def prefixLeft (h : Ds6Host cfg δ) (i : ℕ) (p : Ds6Prefix) : Ds6Prefix :=
  if p.isused = true ∧ h.prefixIsinfinite i = false ∧
      (h.prefixVlifetime i).expired h.stack.clockSeconds = true then { p with isused := false }
  else p

lemma prefixAt_of_lt (hi : i < h.stack.node.nPrefix) :
    h.stack.node.prefixAt i = some (h.stack.node.prefixList ⟨i, hi⟩) := dif_pos hi

lemma prefixAt_of_ge (hi : ¬i < h.stack.node.nPrefix) : h.stack.node.prefixAt i = none := dif_neg hi

/-- A prefix is written. -/
lemma setPrefix_prefixAt (hi : i < h.stack.node.nPrefix) (p : Ds6Prefix) (j : ℕ) :
    (h.setPrefix ⟨i, hi⟩ p).stack.node.prefixAt j =
      if j = i then some p else h.stack.node.prefixAt j := by
  unfold IpNode.prefixAt Nd6Host.setPrefix
  dsimp only
  by_cases hj : j = i
  · subst hj
    rw [dif_pos hi, if_pos rfl, Function.update_self]
  · rw [if_neg hj]
    by_cases hlt : j < h.stack.node.nPrefix
    · rw [dif_pos hlt, dif_pos hlt, Function.update_of_ne]
      exact fun h => hj (Fin.mk.inj h)
    · rw [dif_neg hlt, dif_neg hlt]

lemma periodicPrefix_prefixAt (h : Ds6Host cfg δ) (i j : ℕ) :
    (h.periodicPrefix i).stack.node.prefixAt j =
      if j = i then (h.stack.node.prefixAt i).map (h.prefixLeft i) else h.stack.node.prefixAt j := by
  unfold periodicPrefix
  by_cases hi : i < h.stack.node.nPrefix
  · rw [dif_pos hi, prefixAt_of_lt hi, Option.map_some]
    unfold prefixLeft
    dsimp only
    split_ifs with hexp hj hj
    · exact (setPrefix_prefixAt hi _ j).trans (if_pos hj)
    · exact (setPrefix_prefixAt hi _ j).trans (if_neg hj)
    · rw [hj]
      exact prefixAt_of_lt hi
    · rfl
  · rw [dif_neg hi, prefixAt_of_ge hi]
    split_ifs with hj
    · rw [hj, prefixAt_of_ge hi]
      rfl
    · rfl

lemma sweeps_periodicPrefix (h₀ : Ds6Host cfg δ) :
    Sweeps periodicPrefix (fun h => h.stack.node.prefixAt) (prefixEnv h₀) := by
  constructor
  · intro t i j hj
    rw [periodicPrefix_prefixAt, if_neg hj]
  · intro t i
    unfold periodicPrefix
    dsimp only
    split_ifs <;> rfl

/-- The loop over the prefixes. -/
lemma periodicPrefixes_spec (h : Ds6Host cfg δ) :
    prefixEnv h ((List.range h.stack.node.nPrefix).foldl periodicPrefix h) = h ∧
      ∀ i, ((List.range h.stack.node.nPrefix).foldl periodicPrefix h).stack.node.prefixAt i =
        (h.stack.node.prefixAt i).map (h.prefixLeft i) := by
  have hsweep := sweeps_periodicPrefix h
  refine ⟨hsweep.env_foldl _ h, fun i => ?_⟩
  by_cases hi : i < h.stack.node.nPrefix
  · refine hsweep.own (R := fun env i p p' => p' = p.map (env.prefixLeft i)) (fun t k => ?_)
      List.nodup_range (List.mem_range.mpr hi)
    rw [periodicPrefix_prefixAt, if_pos rfl]
    rfl
  · have hsame := hsweep.get_foldl_of_notMem (l := List.range h.stack.node.nPrefix) (j := i)
      (fun hmem => hi (List.mem_range.mp hmem)) h
    rw [hsame, prefixAt_of_ge hi]
    rfl

end Ds6Host

/-! ## The loop over the neighbours -/

/-- What a tick makes of a neighbour. -/
structure Ds6Nbr.Becomes {clockWidth : ℕ} (now : BitVec 32) (n n' : Ds6Nbr clockWidth) : Prop where
  ipaddr : n'.ipaddr = n.ipaddr
  isused : n'.isused = n.isKept
  incomplete : n'.state = .incomplete ↔ n.state = .incomplete
  counts : n.Asks now → n'.nscount = (if n.state = .delay then 1 else n.nscount + 1) ∧
    (n.state = .delay → n'.state = .probe)
  quiet : ¬n.Asks now → n'.nscount = n.nscount ∧ (n.state = .delay → n'.state = .delay)

namespace IpStack
variable {cfg : StackConfig} {δ : Type} {s s' : IpStack cfg δ} {i : Fin cfg.nbrNb}

/-- All but the neighbours, the default routers and the packets, which are those of another stack. -/
def nbrEnv (s₀ s : IpStack cfg δ) : IpStack cfg δ :=
  { s with
    nbrCache := s₀.nbrCache
    packetsMemb := s₀.packetsMemb
    defrtList := s₀.defrtList
    uipBuf := s₀.uipBuf
    uipExtLen := s₀.uipExtLen }

/-- The solicitation for a neighbour. -/
def nsFor (s : IpStack cfg δ) (n : Ds6Nbr cfg.clockWidth) : Solicitation :=
  ⟨n.ipaddr, n.asked, nsLen (s.node.isMyAddr n.ipaddr)⟩

/-- What one turn of the loop over the neighbours does. -/
structure NbrTurn (s s' : IpStack cfg δ) (i : Fin cfg.nbrNb) : Prop where
  env : ∀ s₀, nbrEnv s₀ s' = nbrEnv s₀ s
  others : ∀ j, j ≠ i → s'.nbrCache j = s.nbrCache j
  own : (s.nbrCache i).Becomes s.clockSeconds (s'.nbrCache i)
  defrtList : s'.defrtList = (s.nbrCache i).dropDefrt s.defrtList
  solicits : (s.nbrCache i).Asks s.clockSeconds → s'.HoldsNs (s.nsFor (s.nbrCache i))
  keeps : ¬(s.nbrCache i).Asks s.clockSeconds → s'.uipBuf = s.uipBuf

/-- Nothing is asked. -/
lemma NbrTurn.of_quiet (hask : ¬(s.nbrCache i).Asks s.clockSeconds) (henv : ∀ s₀, nbrEnv s₀ s' = nbrEnv s₀ s)
    (hothers : ∀ j, j ≠ i → s'.nbrCache j = s.nbrCache j)
    (hipaddr : (s'.nbrCache i).ipaddr = (s.nbrCache i).ipaddr)
    (hused : (s'.nbrCache i).isused = (s.nbrCache i).isKept)
    (hstate : (s'.nbrCache i).state = .incomplete ↔ (s.nbrCache i).state = .incomplete)
    (hdelay : (s.nbrCache i).state = .delay → (s'.nbrCache i).state = .delay)
    (hcount : (s'.nbrCache i).nscount = (s.nbrCache i).nscount)
    (hdefrt : s'.defrtList = (s.nbrCache i).dropDefrt s.defrtList) (hbuf : s'.uipBuf = s.uipBuf) :
    s.NbrTurn s' i :=
  ⟨henv, hothers, ⟨hipaddr, hused, hstate, fun h => absurd h hask, fun _ => ⟨hcount, hdelay⟩⟩, hdefrt,
    fun h => absurd h hask, fun _ => hbuf⟩

lemma NbrTurn.skip (hask : ¬(s.nbrCache i).Asks s.clockSeconds)
    (hused : (s.nbrCache i).isused = (s.nbrCache i).isKept)
    (hdefrt : s.defrtList = (s.nbrCache i).dropDefrt s.defrtList) : s.NbrTurn s i :=
  .of_quiet hask (fun _ => rfl) (fun _ _ => rfl) rfl hused .rfl id rfl hdefrt rfl

lemma uipDs6NbrRm_self (s : IpStack cfg δ) (i : Fin cfg.nbrNb) :
    ∃ packethandle, (s.uipDs6NbrRm i).nbrCache i =
      { s.nbrCache i with isused := false, packethandle } := by
  unfold uipDs6NbrRm
  cases hb : ((s.setNbr i fun n => { n with isused := false }).nbrCache i).packethandle with
  | none =>
    refine ⟨(s.nbrCache i).packethandle, ?_⟩
    unfold uipPacketqueueFree
    rw [hb]
    exact setNbr_self _ _ _
  | some b =>
    refine ⟨none, ?_⟩
    rw [uipPacketqueueFree_eq hb, setNbr_self]
    show { (s.setNbr i fun n => { n with isused := false }).nbrCache i with packethandle := none } = _
    rw [setNbr_self]

lemma uipDs6NbrRm_env (s₀ s : IpStack cfg δ) (i : Fin cfg.nbrNb) :
    nbrEnv s₀ (s.uipDs6NbrRm i) = nbrEnv s₀ s := by
  unfold uipDs6NbrRm uipPacketqueueFree
  split <;> rfl

lemma uipDs6NbrRm_buf (s : IpStack cfg δ) (i : Fin cfg.nbrNb) :
    (s.uipDs6NbrRm i).uipBuf = s.uipBuf ∧ (s.uipDs6NbrRm i).defrtList = s.defrtList := by
  unfold uipDs6NbrRm uipPacketqueueFree
  split <;> exact ⟨rfl, rfl⟩

/-- A neighbour that was asked often enough is removed. -/
lemma uipDs6NbrRm_turn (hexh : (s.nbrCache i).Exhausted)
    (hlist : ∃ list, s' = ({ s with defrtList := list } : IpStack cfg δ).uipDs6NbrRm i ∧
      list = (s.nbrCache i).dropDefrt s.defrtList) : s.NbrTurn s' i := by
  obtain ⟨list, rfl, hdefrt⟩ := hlist
  have hkept : (s.nbrCache i).isKept = false := by
    unfold Ds6Nbr.isKept
    rw [decide_eq_true hexh, Bool.not_true, Bool.and_false]
  obtain ⟨packethandle, hself⟩ := ({ s with defrtList := list } : IpStack cfg δ).uipDs6NbrRm_self i
  obtain ⟨hbuf, hlist⟩ := ({ s with defrtList := list } : IpStack cfg δ).uipDs6NbrRm_buf i
  refine .of_quiet (fun hask => ?_) (fun s₀ => uipDs6NbrRm_env s₀ _ i) (fun j hj => uipDs6NbrRm_of_ne hj)
    ?_ ?_ ?_ ?_ ?_ (hlist.trans hdefrt) hbuf
  · exact Bool.false_ne_true (hkept.symm.trans hask.1)
  all_goals rw [hself]
  · exact hkept.symm
  · exact id

/-- A neighbour is asked, behind a change of its entry. -/
lemma solicitNbr_turn {f : Ds6Nbr cfg.clockWidth → Ds6Nbr cfg.clockWidth}
    (hask : (s.nbrCache i).Asks s.clockSeconds) (helem : (f (s.nbrCache i)).toDs6Element =
      (s.nbrCache i).toDs6Element)
    (hcount : (f (s.nbrCache i)).nscount + 1 =
      if (s.nbrCache i).state = .delay then 1 else (s.nbrCache i).nscount + 1)
    (hstate : (f (s.nbrCache i)).state = .incomplete ↔ (s.nbrCache i).state = .incomplete)
    (hdelay : (s.nbrCache i).state = .delay → (f (s.nbrCache i)).state = .probe)
    (hdefrt : s.defrtList = (s.nbrCache i).dropDefrt s.defrtList) :
    s.NbrTurn ((s.setNbr i f).solicitNbr i (s.nbrCache i).asked) i := by
  have haddr : (f (s.nbrCache i)).ipaddr = (s.nbrCache i).ipaddr := congrArg Ds6Element.ipaddr helem
  have hused : (f (s.nbrCache i)).isused = (s.nbrCache i).isused := congrArg Ds6Element.isused helem
  have hkept : (s.nbrCache i).isused = (s.nbrCache i).isKept :=
    (Bool.and_eq_true_iff.mp hask.1).1.trans hask.1.symm
  generalize ht : (s.setNbr i f).setNbr i (fun n => { n with nscount := n.nscount + 1 }) = t
  have hself : t.nbrCache i = { f (s.nbrCache i) with nscount := (f (s.nbrCache i)).nscount + 1 } := by
    rw [← ht, setNbr_self, setNbr_self]
  have hothers : ∀ j, j ≠ i → t.nbrCache j = s.nbrCache j := fun j hj => by
    rw [← ht, setNbr_of_ne hj, setNbr_of_ne hj]
  have htgt : (t.nbrCache i).ipaddr = (s.nbrCache i).ipaddr := by rw [hself]; exact haddr
  have henv : ∀ s₀, nbrEnv s₀ t = nbrEnv s₀ s := fun s₀ => by rw [← ht]; rfl
  have hlist : t.defrtList = s.defrtList := by rw [← ht]; rfl
  have hnode : t.node = s.node := by rw [← ht]; rfl
  have hns := t.uipNd6NsOutput_holds none (s.nbrCache i).asked (s.nbrCache i).ipaddr
  obtain ⟨buf, ext, heq⟩ : ∃ buf ext, t.uipNd6NsOutput none (s.nbrCache i).asked (s.nbrCache i).ipaddr =
      { t with uipBuf := buf, uipExtLen := ext } := ⟨_, _, onlyPacket_uipNd6NsOutput t none _ _⟩
  rw [heq, hnode] at hns
  unfold solicitNbr
  dsimp only
  rw [ht, htgt, heq]
  refine ⟨henv, fun j hj => (setNbr_of_ne hj).trans (hothers j hj), ?_,
    hlist.trans hdefrt, fun _ => hns.congr rfl, fun h => absurd hask h⟩
  rw [setNbr_self]
  show (s.nbrCache i).Becomes _ { t.nbrCache i with sendns := _ }
  rw [hself]
  exact ⟨haddr, hused.trans hkept, hstate, fun _ => ⟨hcount, hdelay⟩, fun h => absurd hask h⟩

/-- A neighbour is asked again. -/
lemma solicitNbr_again {dest : Option IpAddr} (hask : (s.nbrCache i).Asks s.clockSeconds)
    (hstate : (s.nbrCache i).state ≠ .delay) (hdest : (s.nbrCache i).asked = dest)
    (hdefrt : s.defrtList = (s.nbrCache i).dropDefrt s.defrtList) : s.NbrTurn (s.solicitNbr i dest) i := by
  have hsame : s.setNbr i (fun n => n) = s := by
    unfold setNbr
    rw [Function.update_eq_self]
  have hturn := solicitNbr_turn (f := fun n => n) hask rfl (if_neg hstate).symm .rfl
    (fun h => absurd h hstate) hdefrt
  rwa [hsame, hdest] at hturn

/-- One turn of the loop over the neighbours. -/
lemma periodicNbr_turn (s : IpStack cfg δ) (i : Fin cfg.nbrNb) : s.NbrTurn (s.periodicNbr i) i := by
  generalize hn : s.nbrCache i = n
  have hdrop : ¬(n.state = .probe ∧ uipNd6MaxSolicit ≤ n.nscount) →
      s.defrtList = (s.nbrCache i).dropDefrt s.defrtList := by
    intro hnot
    unfold Ds6Nbr.dropDefrt
    rw [hn, if_neg (fun h => hnot h.2)]
  unfold periodicNbr
  dsimp only
  rw [hn]
  by_cases hused : n.isused = false
  · rw [if_pos hused]
    have hkept : n.isKept = false := by
      unfold Ds6Nbr.isKept
      rw [hused, Bool.false_and]
    refine .skip ?_ ?_ ?_
    · rw [hn]
      exact fun hask => Bool.false_ne_true (hkept.symm.trans hask.1)
    · rw [hn, hused, hkept]
    · unfold Ds6Nbr.dropDefrt
      rw [hn, if_neg]
      rw [hused]
      exact fun h => Bool.false_ne_true h.1
  · rw [if_neg hused]
    have hused := eq_true_of_ne_false hused
    have hkept : ¬n.Exhausted → n.isKept = true := fun h => by
      unfold Ds6Nbr.isKept
      rw [hused, decide_eq_false h]
      rfl
    have hskip : ¬n.Exhausted → ¬n.Asks s.clockSeconds → s.NbrTurn s i := by
      intro hexh hask
      refine .skip (by rwa [hn]) ?_ ?_
      · rw [hn, hkept hexh, hused]
      · exact hdrop fun h => hexh ⟨.inr h.1, h.2⟩
    have hstates : ∀ st, n.state = st → st ≠ .incomplete → st ≠ .probe → ¬n.Exhausted := by
      rintro st hst hinc hprobe ⟨h | h, -⟩
      · exact hinc (hst.symm.trans h)
      · exact hprobe (hst.symm.trans h)
    cases hstate : n.state with
    | incomplete =>
      have hnot : ¬(n.state = .probe ∧ uipNd6MaxSolicit ≤ n.nscount) := fun h => by
        rw [hstate] at h
        cases h.1
      dsimp only
      split_ifs with hmax hexp
      · exact uipDs6NbrRm_turn (by rw [hn]; exact ⟨.inl hstate, hmax⟩) ⟨s.defrtList, rfl, hdrop hnot⟩
      · have hask : n.Asks s.clockSeconds := ⟨hkept fun h => hmax h.2, .inl ⟨.inl hstate, hexp⟩⟩
        refine solicitNbr_again (by rwa [hn]) ?_ ?_ (hdrop hnot)
        · rw [hn, hstate]
          exact NbrState.noConfusion
        · rw [hn]
          exact if_pos hstate
      · refine hskip (fun h => hmax h.2) ?_
        rintro ⟨-, ⟨-, h⟩ | ⟨h, -⟩⟩
        · exact hexp h
        · rw [hstate] at h
          cases h
    | reachable =>
      have hexh := hstates _ hstate NbrState.noConfusion NbrState.noConfusion
      have hask : ¬n.Asks s.clockSeconds := by
        rintro ⟨-, ⟨h | h, -⟩ | ⟨h, -⟩⟩ <;> rw [hstate] at h <;> cases h
      dsimp only
      split_ifs with hexp
      · have hself : (s.setNbr i fun n => { n with state := .stale }).nbrCache i =
            { n with state := .stale } := by rw [setNbr_self, hn]
        refine .of_quiet (by rwa [hn]) (fun _ => rfl) (fun j hj => setNbr_of_ne hj) ?_ ?_ ?_ ?_ ?_
          (hdrop fun h => ?_) rfl
        · rw [hself, hn]
        · rw [hself, hn, hkept hexh]
          exact hused
        · rw [hself, hn, hstate]
          exact iff_of_false NbrState.noConfusion NbrState.noConfusion
        · rw [hn, hstate]
          exact NbrState.noConfusion
        · rw [hself, hn]
        · exact hexh ⟨.inr h.1, h.2⟩
      · exact hskip hexh hask
    | stale =>
      refine hskip (hstates _ hstate NbrState.noConfusion NbrState.noConfusion) ?_
      rintro ⟨-, ⟨h | h, -⟩ | ⟨h, -⟩⟩ <;> rw [hstate] at h <;> cases h
    | delay =>
      have hexh := hstates _ hstate NbrState.noConfusion NbrState.noConfusion
      dsimp only
      split_ifs with hexp
      · have hasked : n.asked = some n.ipaddr := if_neg (by rw [hstate]; exact NbrState.noConfusion)
        have hturn := solicitNbr_turn (s := s) (i := i)
          (f := fun n => { n with state := .probe, nscount := 0 })
          (by rw [hn]; exact ⟨hkept hexh, .inr ⟨hstate, hexp⟩⟩) rfl (by rw [hn, if_pos hstate]; rfl)
          (by rw [hn, hstate]; exact iff_of_false NbrState.noConfusion NbrState.noConfusion)
          (fun _ => rfl) (hdrop fun h => hexh ⟨.inr h.1, h.2⟩)
        rwa [hn, hasked] at hturn
      · refine hskip hexh ?_
        rintro ⟨-, ⟨h | h, -⟩ | ⟨-, h⟩⟩
        · rw [hstate] at h
          cases h
        · rw [hstate] at h
          cases h
        · exact hexp h
    | probe =>
      dsimp only
      split_ifs with hmax hexp
      · -- The default router is removed before the neighbour.
        have hexh : (s.nbrCache i).Exhausted := by
          rw [hn]
          exact ⟨.inr hstate, hmax⟩
        have hcond : n.isused = true ∧ n.state = .probe ∧ uipNd6MaxSolicit ≤ n.nscount :=
          ⟨hused, hstate, hmax⟩
        cases hlook : uipDs6DefrtLookup s.defrtList n.ipaddr with
        | none =>
          refine uipDs6NbrRm_turn hexh ⟨s.defrtList, rfl, ?_⟩
          rw [hn, Ds6Nbr.dropDefrt, if_pos hcond, hlook]
        | some defrt =>
          refine uipDs6NbrRm_turn hexh ⟨_, rfl, ?_⟩
          rw [hn, Ds6Nbr.dropDefrt, if_pos hcond, hlook]
      · have hask : n.Asks s.clockSeconds := ⟨hkept fun h => hmax h.2, .inl ⟨.inr hstate, hexp⟩⟩
        refine solicitNbr_again (by rwa [hn]) ?_ ?_ (hdrop fun h => hmax h.2)
        · rw [hn, hstate]
          exact NbrState.noConfusion
        · rw [hn]
          exact if_neg (by rw [hstate]; exact NbrState.noConfusion)
      · refine hskip (fun h => hmax h.2) ?_
        rintro ⟨-, ⟨-, h⟩ | ⟨h, -⟩⟩
        · exact hexp h
        · rw [hstate] at h
          cases h

lemma sweeps_periodicNbr (s₀ : IpStack cfg δ) :
    Sweeps periodicNbr (fun s : IpStack cfg δ => s.nbrCache) (nbrEnv s₀) :=
  ⟨fun t i => (periodicNbr_turn t i).others, fun t i => (periodicNbr_turn t i).env s₀⟩

/-- The loop over the neighbours.  The solicitation that was in `uip_buf` before it stays there if no
neighbour is asked. -/
lemma periodicNeighbors_spec (s : IpStack cfg δ) :
    nbrEnv s s.periodicNeighbors = s ∧
      (∀ i, (s.nbrCache i).Becomes s.clockSeconds (s.periodicNeighbors.nbrCache i)) ∧
      s.periodicNeighbors.defrtList =
        (List.finRange cfg.nbrNb).foldl (fun list i => (s.nbrCache i).dropDefrt list) s.defrtList ∧
      ∀ l m, (∀ m, l.getLast? = some m → s.HoldsNs m) →
        (l ++ (List.finRange cfg.nbrNb).filterMap fun i =>
          if (s.nbrCache i).Asks s.clockSeconds then some (s.nsFor (s.nbrCache i)) else none).getLast? =
            some m → s.periodicNeighbors.HoldsNs m := by
  have hsweep := sweeps_periodicNbr s
  have hnodup := List.nodup_finRange cfg.nbrNb
  refine ⟨hsweep.env_foldl _ s, fun i => ?_, ?_, fun l m hl hm => ?_⟩
  · exact hsweep.own (R := fun env _ n n' => n.Becomes env.clockSeconds n')
      (fun t k => (periodicNbr_turn t k).own) hnodup (List.mem_finRange i)
  · refine hsweep.induction (s := s) (motive := fun done t => t.defrtList =
      done.foldl (fun list i => (s.nbrCache i).dropDefrt list) s.defrtList) hnodup rfl ?_
    intro done k t _ ih hget _
    have hget : t.nbrCache k = s.nbrCache k := hget
    rw [(periodicNbr_turn t k).defrtList, List.foldl_append, hget, ih]
    rfl
  · refine hsweep.last (fun env _ n =>
      if n.Asks env.clockSeconds then some (env.nsFor n) else none) HoldsNs
      (fun t k m hask => ?_) (fun t k m hnone hload => ?_) hnodup m ?_
    · have hturn := periodicNbr_turn t k
      split_ifs at hask with hasks
      obtain rfl := Option.some.inj hask
      exact hturn.solicits hasks
    · refine hload.congr ((periodicNbr_turn t k).keeps fun hasks => ?_)
      cases (if_pos hasks).symm.trans hnone
    · rw [List.getLast?_append] at hm
      rcases Option.or_eq_some_iff.mp hm with hlast | ⟨hnone, hlast⟩
      · exact .inl hlast
      · exact .inr ⟨List.getLast?_eq_none_iff.mp hnone, hl m hlast⟩

end IpStack
end Contiki

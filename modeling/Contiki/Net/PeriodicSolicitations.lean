import Contiki.Net.PeriodicLoops

/-!
# The solicitations of a tick

`uip_ds6_periodic` asks for addresses of the node, in the detection of duplicates, and for neighbours.  All
solicitations are built in `uip_buf`, one over the other, and `tcpip_ipv6_output` is called once, behind the
loops.

* `Ds6Host.solicitations` — the solicitations of a tick, in order.
* `Ds6Host.left` — the tables that a tick leaves.
* `Ds6Host.tickSends_iff` — when each entry that was counted had its own solicitation sent.
-/

namespace Contiki

namespace Ds6Host
variable {cfg : StackConfig} {δ : Type} (h : Ds6Host cfg δ)

/-! ## The tables that a tick leaves -/

/-- A prefix of a host whose lifetime is over. -/
def PrefixExpired (i : ℕ) : Prop :=
  h.stack.node.router = false ∧ h.prefixIsinfinite i = false ∧
    (h.prefixVlifetime i).expired h.stack.clockSeconds = true

instance instDecidablePrefixExpired (i : ℕ) : Decidable (h.PrefixExpired i) :=
  inferInstanceAs (Decidable (_ ∧ _ ∧ _))

/-- The stack without the entries whose lifetime is over, and without the neighbours that were asked often
enough and the default routers that they were. -/
def left : IpStack cfg δ :=
  { h.stack with
    node := { h.stack.node with
      addrList := fun i =>
        let a := h.stack.node.addrList i
        { a with isused := a.isused && !decide (h.AddrExpired i) }
      prefixList := fun i =>
        let p := h.stack.node.prefixList i
        { p with isused := p.isused && !decide (h.PrefixExpired i) } }
    nbrCache := fun i =>
      let n := h.stack.nbrCache i
      { n with isused := n.isKept }
    defrtList := (List.finRange cfg.nbrNb).foldl (fun list i => (h.stack.nbrCache i).dropDefrt list) fun i =>
      if h.DefrtExpired i then { h.stack.defrtList i with isused := false } else h.stack.defrtList i }

/-- The solicitation for a neighbour. -/
def nbrSolicits (i : Fin cfg.nbrNb) : Option Solicitation :=
  let n := h.stack.nbrCache i
  if n.Asks h.stack.clockSeconds then some ⟨n.ipaddr, n.asked, nsLen (h.left.node.isMyAddr n.ipaddr)⟩
  else none

/-- The solicitations of a tick. -/
def solicitations : List Solicitation :=
  (List.range h.stack.node.nAddr).filterMap h.addrSolicits ++
    (List.finRange cfg.nbrNb).filterMap h.nbrSolicits

/-! ## A tick with output -/

/-- `eventhandler`, when the periodic timer expires. -/
def tick : Except StackFault (Ds6Host cfg δ) :=
  h.uipDs6Periodic.stack.tcpipIpv6Output.map h.uipDs6Periodic.withStack

/-- The solicitations for a neighbour are counted up, or the first one is counted. -/
def NbrCounted (i : Fin cfg.nbrNb) : Prop :=
  (h.uipDs6Periodic.stack.nbrCache i).nscount ≠ (h.stack.nbrCache i).nscount ∨
    (h.stack.nbrCache i).state = .delay ∧ (h.uipDs6Periodic.stack.nbrCache i).state = .probe

/-- The first packet that the output behind a tick sends is a solicitation for an address. -/
def SendsFor (a : IpAddr) : Prop :=
  ∃ h', h.tick = .ok h' ∧ h.uipDs6Periodic.stack.FirstSent h'.stack a

/-- Each entry whose solicitations were counted up has had its own solicitation sent. -/
structure TickSends : Prop where
  nbr : ∀ i, h.NbrCounted i → h.SendsFor (h.stack.nbrCache i).ipaddr
  addr : ∀ i a, h.stack.node.addrAt i = some a → h.uipDs6Periodic.dadnscount i ≠ h.dadnscount i →
    h.SendsFor a.ipaddr

/-- All solicitations of a tick are for one address, and the last one can be sent. -/
def SolicitsOnce : Prop :=
  ∀ m, h.solicitations.getLast? = some m →
    (∀ m' ∈ h.solicitations, m'.tgt = m.tgt) ∧ h.left.Delivers m

end Ds6Host

/-! ## What a tick does -/

namespace IpNode
variable {node : IpNode} {a : IpAddr}

lemma isMyAddr_iff : node.isMyAddr a = true ↔ ∃ i e, node.addrAt i = some e ∧ e.isused = true ∧ e.ipaddr = a := by
  refine uipDs6IsMyAddr_iff.trans ⟨?_, ?_⟩
  · rintro ⟨i, hused, haddr⟩
    exact ⟨i, _, addrAt_of_lt i.isLt, hused, haddr⟩
  · rintro ⟨i, e, he, hused, haddr⟩
    unfold addrAt at he
    split_ifs at he with hi
    obtain rfl := Option.some.inj he
    exact ⟨⟨i, hi⟩, hused, haddr⟩

lemma isAddrOnlink_iff : node.isAddrOnlink a = true ↔ ∃ i p, node.prefixAt i = some p ∧ p.isused = true ∧
    p.ipaddr.uipIpaddrPrefixcmp a p.length.toNat = true := by
  unfold isAddrOnlink uipDs6IsAddrOnlink
  rw [List.any_eq_true]
  constructor
  · rintro ⟨i, -, h⟩
    obtain ⟨hused, hcmp⟩ := Bool.and_eq_true_iff.mp h
    exact ⟨i, _, dif_pos i.isLt, hused, hcmp⟩
  · rintro ⟨i, p, hp, hused, hcmp⟩
    unfold prefixAt at hp
    split_ifs at hp with hi
    obtain rfl := Option.some.inj hp
    exact ⟨⟨i, hi⟩, List.mem_finRange _, Bool.and_eq_true_iff.mpr ⟨hused, hcmp⟩⟩

end IpNode

namespace IpStack
variable {cfg : StackConfig} {δ : Type} {s t : IpStack cfg δ}

/-- Output goes the same way in both states. -/
structure SameWay (s t : IpStack cfg δ) : Prop where
  linkMtu : t.node.linkMtu = s.node.linkMtu
  onlink : ∀ a, t.node.isAddrOnlink a = s.node.isAddrOnlink a
  srcRoutes : t.srcRoutingTable = s.srcRoutingTable
  routes : t.routingTable = s.routingTable
  defrt : t.defrtList = s.defrtList
  element : ∀ i, (t.nbrCache i).toDs6Element = (s.nbrCache i).toDs6Element
  incomplete : ∀ i, (t.nbrCache i).state = .incomplete ↔ (s.nbrCache i).state = .incomplete

lemma SameWay.lookup (h : SameWay s t) (a : IpAddr) : t.uipDs6NbrLookup a = s.uipDs6NbrLookup a := by
  unfold uipDs6NbrLookup nbrLoop
  rw [funext h.element]

lemma SameWay.plainHop (h : SameWay s t) (dest : IpAddr) : t.plainHop dest = s.plainHop dest := by
  have hknown (n : Fin cfg.nbrNb) : decide ((t.nbrCache n).state ≠ .incomplete) =
      decide ((s.nbrCache n).state ≠ .incomplete) := decide_eq_decide.mpr (not_congr (h.incomplete n))
  unfold IpStack.plainHop uipDs6DefrtChoose
  simp only [h.onlink, h.srcRoutes, h.routes, h.defrt, h.lookup, hknown]

lemma SameWay.delivers (h : SameWay s t) (m : Solicitation) : t.Delivers m ↔ s.Delivers m := by
  unfold Delivers Resolved
  simp only [h.linkMtu, h.plainHop, h.lookup, ne_eq, h.incomplete]

end IpStack

namespace Ds6Host
variable {cfg : StackConfig} {δ : Type} {h t : Ds6Host cfg δ}

/-- What the loops before the one over the neighbours do. -/
structure BeforeNbrs (h t : Ds6Host cfg δ) : Prop where
  sent : t.stack.sent = h.stack.sent
  nbrCache : t.stack.nbrCache = h.stack.nbrCache
  clockSeconds : t.stack.clockSeconds = h.stack.clockSeconds
  linkMtu : t.stack.node.linkMtu = h.stack.node.linkMtu
  srcRoutes : t.stack.srcRoutingTable = h.stack.srcRoutingTable
  routes : t.stack.routingTable = h.stack.routingTable
  addrs : ∀ i, Option.Rel (AddrEntry.Becomes h.stack.clockSeconds h.stack.clockTime h.maxdadns)
    (h.addrEntry i) (t.addrEntry i)
  defrtList : t.stack.defrtList = fun i =>
    if h.DefrtExpired i then { h.stack.defrtList i with isused := false } else h.stack.defrtList i
  prefixes : ∀ i, t.stack.node.prefixAt i = h.left.node.prefixAt i
  loaded : ∀ m, ((List.range h.stack.node.nAddr).filterMap h.addrSolicits).getLast? = some m →
    t.stack.HoldsNs m

lemma left_prefixAt (h : Ds6Host cfg δ) (i : ℕ) : h.left.node.prefixAt i =
    (h.stack.node.prefixAt i).map fun p =>
      { p with isused := p.isused && !decide (h.PrefixExpired i) } := by
  unfold IpNode.prefixAt left
  dsimp only
  by_cases hi : i < h.stack.node.nPrefix
  · rw [dif_pos hi, dif_pos hi]
    rfl
  · rw [dif_neg hi, dif_neg hi]
    rfl

lemma prefixLeft_eq (h : Ds6Host cfg δ) (i : ℕ) (p : Ds6Prefix) (hrouter : h.stack.node.router = false) :
    h.prefixLeft i p = { p with isused := p.isused && !decide (h.PrefixExpired i) } := by
  unfold prefixLeft
  by_cases hexp : h.PrefixExpired i
  · rw [decide_eq_true hexp, Bool.not_true, Bool.and_false]
    split_ifs with hcond
    · rfl
    · have hunused : p.isused = false := eq_false_of_ne_true fun hused => hcond ⟨hused, hexp.2⟩
      rw [← hunused]
  · rw [decide_eq_false hexp, Bool.not_false, Bool.and_true, if_neg]
    exact fun hcond => hexp ⟨hrouter, hcond.2⟩

/-- The loops over the addresses, the default routers and the prefixes. -/
lemma uipDs6Periodic_eq (h : Ds6Host cfg δ) :
    ∃ t, h.uipDs6Periodic = t.withStack t.stack.periodicNeighbors ∧ h.BeforeNbrs t := by
  obtain ⟨henv₁, haddrs, hloaded⟩ := h.periodicAddrs_spec
  obtain ⟨t₁, ht₁⟩ : ∃ t₁, h.periodicAddrs = t₁ := ⟨_, rfl⟩
  rw [ht₁] at henv₁ haddrs hloaded
  obtain ⟨henv₂, hdefrt⟩ := t₁.periodicDefrts_spec
  obtain ⟨t₂, ht₂⟩ : ∃ t₂, (List.finRange cfg.defrtNb).foldl periodicDefrt t₁ = t₂ := ⟨_, rfl⟩
  rw [ht₂] at henv₂ hdefrt
  let left (h : Ds6Host cfg δ) (i : ℕ) : Option Ds6Prefix := (h.stack.node.prefixAt i).map fun p =>
    { p with isused := p.isused && !decide (h.PrefixExpired i) }
  obtain ⟨t, ht, henv₃, hprefixes⟩ : ∃ t, (if t₂.stack.node.router = true then t₂
      else (List.range t₂.stack.node.nPrefix).foldl periodicPrefix t₂) = t ∧ prefixEnv t₂ t = t₂ ∧
      ∀ i, t.stack.node.prefixAt i = left t₂ i := by
    by_cases hrouter : t₂.stack.node.router = true
    · refine ⟨t₂, if_pos hrouter, rfl, fun i => ?_⟩
      have hkept : ∀ p : Ds6Prefix, { p with isused := p.isused && !decide (t₂.PrefixExpired i) } = p := by
        intro p
        rw [decide_eq_false (fun hexp => ?_), Bool.not_false, Bool.and_true]
        exact absurd (hexp.1.symm.trans hrouter) Bool.false_ne_true
      exact (Option.map_id' (x := t₂.stack.node.prefixAt i)).symm.trans
        (Option.map_congr fun p _ => (hkept p).symm)
    · obtain ⟨henv₃, hprefixes⟩ := t₂.periodicPrefixes_spec
      refine ⟨_, if_neg hrouter, henv₃, fun i => (hprefixes i).trans ?_⟩
      exact Option.map_congr fun p _ => t₂.prefixLeft_eq i p (eq_false_of_ne_true hrouter)
  -- What the loops leave alone is as it was.
  have hsame₃ : ∀ {β : Type} (F : Ds6Host cfg δ → β), (∀ h₀ h, F (prefixEnv h₀ h) = F h) → F t = F t₂ :=
    fun F h₃ => by rw [← h₃ t₂ t, henv₃]
  have hsame₂ : ∀ {β : Type} (F : Ds6Host cfg δ → β), (∀ h₀ h, F (defrtEnv h₀ h) = F h) → F t₂ = F t₁ :=
    fun F h₂ => by rw [← h₂ t₁ t₂, henv₂]
  have hsame₁ : ∀ {β : Type} (F : Ds6Host cfg δ → β), (∀ h₀ h, F (addrEnv h₀ h) = F h) → F t₁ = F h :=
    fun F h₁ => by rw [← h₁ h t₁, henv₁]
  have hsame : ∀ {β : Type} (F : Ds6Host cfg δ → β), (∀ h₀ h, F (addrEnv h₀ h) = F h) →
      (∀ h₀ h, F (defrtEnv h₀ h) = F h) → (∀ h₀ h, F (prefixEnv h₀ h) = F h) → F t = F h :=
    fun F h₁ h₂ h₃ => (hsame₃ F h₃).trans ((hsame₂ F h₂).trans (hsame₁ F h₁))
  refine ⟨t, ?_, ?_, ?_, ?_, ?_, ?_, ?_, fun i => ?_, ?_, fun i => ?_, fun m hm => ?_⟩
  · unfold uipDs6Periodic
    dsimp only
    rw [ht₁, ht₂, ht]
  · exact hsame (·.stack.sent) (fun _ _ => rfl) (fun _ _ => rfl) fun _ _ => rfl
  · exact hsame (·.stack.nbrCache) (fun _ _ => rfl) (fun _ _ => rfl) fun _ _ => rfl
  · exact hsame (·.stack.clockSeconds) (fun _ _ => rfl) (fun _ _ => rfl) fun _ _ => rfl
  · exact hsame (·.stack.node.linkMtu) (fun _ _ => rfl) (fun _ _ => rfl) fun _ _ => rfl
  · exact hsame (·.stack.srcRoutingTable) (fun _ _ => rfl) (fun _ _ => rfl) fun _ _ => rfl
  · exact hsame (·.stack.routingTable) (fun _ _ => rfl) (fun _ _ => rfl) fun _ _ => rfl
  · have hentry : t.addrEntry i = t₁.addrEntry i :=
      (hsame₃ (·.addrEntry i) fun _ _ => rfl).trans (hsame₂ (·.addrEntry i) fun _ _ => rfl)
    rw [hentry]
    exact haddrs i
  · have hlist : t.stack.defrtList = t₂.stack.defrtList := hsame₃ (·.stack.defrtList) fun _ _ => rfl
    rw [hlist, hdefrt]
    exact hsame₁ (fun h i => if h.DefrtExpired i then { h.stack.defrtList i with isused := false }
      else h.stack.defrtList i) fun _ _ => rfl
  · rw [hprefixes, left_prefixAt]
    exact (hsame₂ (left · i) fun _ _ => rfl).trans (hsame₁ (left · i) fun _ _ => rfl)
  · have hbuf : t.stack.uipBuf = t₁.stack.uipBuf :=
      (hsame₃ (·.stack.uipBuf) fun _ _ => rfl).trans (hsame₂ (·.stack.uipBuf) fun _ _ => rfl)
    exact (hloaded m hm).congr hbuf

/-- The addresses that are left. -/
lemma left_isMyAddr (hb : h.BeforeNbrs t) (a : IpAddr) :
    t.stack.node.isMyAddr a = h.left.node.isMyAddr a := by
  have hkept : h.left.node.isMyAddr a = true ↔ ∃ i e, h.addrEntry i = some e ∧
      e.isKept h.stack.clockSeconds = true ∧ e.ipaddr = a := by
    refine uipDs6IsMyAddr_iff.trans ⟨?_, ?_⟩
    · rintro ⟨i, hused, haddr⟩
      exact ⟨i, _, addrEntry_of_lt i.isLt, hused, haddr⟩
    · rintro ⟨i, e, he, hused, haddr⟩
      by_cases hi : i < h.stack.node.nAddr
      · rw [addrEntry_of_lt hi] at he
        obtain rfl := Option.some.inj he
        exact ⟨⟨i, hi⟩, hused, haddr⟩
      · rw [addrEntry_of_ge (Nat.not_lt.mp hi)] at he
        cases he
  rw [Bool.eq_iff_iff, hkept, IpNode.isMyAddr_iff]
  constructor
  · rintro ⟨i, b, hb', hused, haddr⟩
    have he' : t.addrEntry i = some { b with
        vlifetime := t.addrVlifetime i, dadtimer := t.dadtimer i, dadnscount := t.dadnscount i } := by
      unfold addrEntry
      rw [hb']
      rfl
    have hrel := hb.addrs i
    rw [he'] at hrel
    cases he : h.addrEntry i with
    | none =>
      rw [he] at hrel
      cases hrel
    | some e =>
      rw [he] at hrel
      cases hrel with
      | some hbec => exact ⟨i, e, he, hbec.isused.symm.trans hused, hbec.ipaddr.symm.trans haddr⟩
  · rintro ⟨i, e, he, hused, haddr⟩
    have hrel := hb.addrs i
    rw [he] at hrel
    cases he' : t.addrEntry i with
    | none =>
      rw [he'] at hrel
      cases hrel
    | some e' =>
      rw [he'] at hrel
      obtain ⟨b, hb', rfl⟩ := Option.map_eq_some_iff.mp he'
      cases hrel with
      | some hbec => exact ⟨i, b, hb', hbec.isused.trans hused, hbec.ipaddr.trans haddr⟩

/-- What a tick does. -/
structure TickSpec (h : Ds6Host cfg δ) : Prop where
  sent : h.uipDs6Periodic.stack.sent = h.stack.sent
  sameWay : IpStack.SameWay h.left h.uipDs6Periodic.stack
  addrs : ∀ i, Option.Rel (AddrEntry.Becomes h.stack.clockSeconds h.stack.clockTime h.maxdadns)
    (h.addrEntry i) (h.uipDs6Periodic.addrEntry i)
  nbrs : ∀ i, (h.stack.nbrCache i).Becomes h.stack.clockSeconds (h.uipDs6Periodic.stack.nbrCache i)
  loaded : ∀ m, h.solicitations.getLast? = some m → h.uipDs6Periodic.stack.HoldsNs m

theorem tickSpec (h : Ds6Host cfg δ) : h.TickSpec := by
  obtain ⟨t, ht, hb⟩ := h.uipDs6Periodic_eq
  obtain ⟨henv, hnbrs, hdefrt, hlast⟩ := t.stack.periodicNeighbors_spec
  obtain ⟨s, hs⟩ : ∃ s, t.stack.periodicNeighbors = s := ⟨_, rfl⟩
  rw [hs] at ht henv hnbrs hdefrt hlast
  have hstack : h.uipDs6Periodic.stack = s := by rw [ht]; rfl
  have hsame : ∀ {β : Type} (F : IpStack cfg δ → β), (∀ s₀ s, F (IpStack.nbrEnv s₀ s) = F s) →
      F s = F t.stack := fun F hF => by rw [← hF t.stack s, henv]
  have hnode : s.node = t.stack.node := hsame (·.node) fun _ _ => rfl
  have hbec : ∀ i, (h.stack.nbrCache i).Becomes h.stack.clockSeconds (s.nbrCache i) := fun i => by
    rw [← hb.nbrCache, ← hb.clockSeconds]
    exact hnbrs i
  refine ⟨?_, ⟨?_, fun a => ?_, ?_, ?_, ?_, fun i => ?_, fun i => ?_⟩, fun i => ?_, fun i => ?_,
    fun m hm => ?_⟩
  · rw [hstack]
    exact (hsame (·.sent) fun _ _ => rfl).trans hb.sent
  · rw [hstack, hnode]
    exact hb.linkMtu
  · rw [hstack, hnode, Bool.eq_iff_iff, IpNode.isAddrOnlink_iff, IpNode.isAddrOnlink_iff]
    simp only [hb.prefixes]
  · rw [hstack]
    exact (hsame (·.srcRoutingTable) fun _ _ => rfl).trans hb.srcRoutes
  · rw [hstack]
    exact (hsame (·.routingTable) fun _ _ => rfl).trans hb.routes
  · rw [hstack, hdefrt, hb.nbrCache, hb.defrtList]
    rfl
  · rw [hstack]
    exact congrArg₂ Ds6Element.mk (hbec i).isused (hbec i).ipaddr
  · rw [hstack]
    exact (hbec i).incomplete
  · have hentry : h.uipDs6Periodic.addrEntry i = t.addrEntry i := by
      rw [ht]
      unfold addrEntry withStack
      dsimp only
      rw [hnode]
    rw [hentry]
    exact hb.addrs i
  · rw [hstack]
    exact hbec i
  · rw [hstack]
    refine hlast _ m hb.loaded ?_
    rw [← hm]
    unfold solicitations nbrSolicits IpStack.nsFor
    simp only [hb.nbrCache, hb.clockSeconds, left_isMyAddr hb]

/-! ## The solicitations of a tick -/

lemma mem_solicitations {m : Solicitation} : m ∈ h.solicitations ↔
    (∃ i e, h.addrEntry i = some e ∧ e.Asks h.stack.clockSeconds h.stack.clockTime h.maxdadns ∧
      ⟨e.ipaddr, none, nsLen true⟩ = m) ∨
    ∃ i, (h.stack.nbrCache i).Asks h.stack.clockSeconds ∧
      ⟨(h.stack.nbrCache i).ipaddr, (h.stack.nbrCache i).asked,
        nsLen (h.left.node.isMyAddr (h.stack.nbrCache i).ipaddr)⟩ = m := by
  unfold solicitations
  rw [List.mem_append, List.mem_filterMap, List.mem_filterMap]
  refine or_congr ⟨?_, ?_⟩ ⟨?_, ?_⟩
  · rintro ⟨i, -, hi⟩
    obtain ⟨e, he, hask⟩ := Option.bind_eq_some_iff.mp hi
    split_ifs at hask with hasks
    exact ⟨i, e, he, hasks, Option.some.inj hask⟩
  · rintro ⟨i, e, he, hask, rfl⟩
    refine ⟨i, List.mem_range.mpr ?_, ?_⟩
    · by_contra hlt
      rw [addrEntry_of_ge (Nat.not_lt.mp hlt)] at he
      cases he
    · rw [addrSolicits_of_some he, if_pos hask]
  · rintro ⟨i, -, hi⟩
    unfold nbrSolicits at hi
    dsimp only at hi
    split_ifs at hi with hasks
    exact ⟨i, hasks, Option.some.inj hi⟩
  · rintro ⟨i, hask, rfl⟩
    exact ⟨i, List.mem_finRange i, if_pos hask⟩

lemma len_solicitations {m : Solicitation} (hm : m ∈ h.solicitations) : 64 ≤ m.len.toNat := by
  rcases mem_solicitations.mp hm with ⟨i, e, -, -, rfl⟩ | ⟨i, -, rfl⟩
  · exact IpStack.nsLen_ge true
  · exact IpStack.nsLen_ge _

/-- A neighbour was counted when a solicitation for it was built. -/
lemma nbrCounted_iff {i : Fin cfg.nbrNb} :
    h.NbrCounted i ↔ (h.stack.nbrCache i).Asks h.stack.clockSeconds := by
  have hbec := h.tickSpec.nbrs i
  unfold NbrCounted
  by_cases hask : (h.stack.nbrCache i).Asks h.stack.clockSeconds
  · obtain ⟨hcount, hprobe⟩ := hbec.counts hask
    refine iff_of_true ?_ hask
    by_cases hdelay : (h.stack.nbrCache i).state = .delay
    · exact .inr ⟨hdelay, hprobe hdelay⟩
    · rw [if_neg hdelay] at hcount
      refine .inl fun heq => ?_
      rw [hcount] at heq
      simp at heq
  · obtain ⟨hcount, hdelay⟩ := hbec.quiet hask
    refine iff_of_false ?_ hask
    rintro (h | ⟨h, hprobe⟩)
    · exact h hcount
    · rw [hdelay h] at hprobe
      cases hprobe

/-- An address was counted when a solicitation for it was built. -/
lemma addrCounted_iff {i : ℕ} {e : AddrEntry cfg.clockWidth} (he : h.addrEntry i = some e) :
    h.uipDs6Periodic.dadnscount i ≠ h.dadnscount i ↔
      e.Asks h.stack.clockSeconds h.stack.clockTime h.maxdadns := by
  have hrel := h.tickSpec.addrs i
  rw [he] at hrel
  obtain ⟨a, ha, rfl⟩ := Option.map_eq_some_iff.mp he
  cases he' : h.uipDs6Periodic.addrEntry i with
  | none =>
    rw [he'] at hrel
    cases hrel
  | some e' =>
    rw [he'] at hrel
    obtain ⟨a', -, rfl⟩ := Option.map_eq_some_iff.mp he'
    cases hrel with
    | some hbec =>
      have hcount := hbec.dadnscount
      dsimp only at hcount
      rw [hcount]
      split_ifs with hask
      · refine iff_of_true (fun heq => ?_) hask
        simp at heq
      · exact iff_of_false (fun hne => hne rfl) hask

/-- The property, for the solicitations that were built. -/
lemma tickSends_iff_mem : h.TickSends ↔ ∀ m ∈ h.solicitations, h.SendsFor m.tgt := by
  constructor
  · rintro ⟨hnbr, haddr⟩ m hm
    rcases mem_solicitations.mp hm with ⟨i, e, he, hask, rfl⟩ | ⟨i, hask, rfl⟩
    · have hcounted := (addrCounted_iff he).mpr hask
      obtain ⟨a, ha, rfl⟩ := Option.map_eq_some_iff.mp he
      exact haddr i a ha hcounted
    · exact hnbr i (nbrCounted_iff.mpr hask)
  · refine fun hall => ⟨fun i hi => ?_, fun i a ha hi => ?_⟩
    · exact hall _ (mem_solicitations.mpr (.inr ⟨i, nbrCounted_iff.mp hi, rfl⟩))
    · have he : h.addrEntry i = some { a with
          vlifetime := h.addrVlifetime i, dadtimer := h.dadtimer i, dadnscount := h.dadnscount i } := by
        unfold addrEntry
        rw [ha]
        rfl
      exact hall _ (mem_solicitations.mpr (.inl ⟨i, _, he, (addrCounted_iff he).mp hi, rfl⟩))

/-- The neighbour that a solicitation is sent to is still in the cache. -/
lemma forNeighbour_solicitations {m : Solicitation} (hm : m ∈ h.solicitations) :
    h.uipDs6Periodic.stack.ForNeighbour m := by
  rcases mem_solicitations.mp hm with ⟨i, e, -, -, rfl⟩ | ⟨i, hask, rfl⟩
  · intro dest hdest
    cases hdest
  · intro dest hdest
    have hbec := h.tickSpec.nbrs i
    change (h.stack.nbrCache i).asked = some dest at hdest
    unfold Ds6Nbr.asked at hdest
    split_ifs at hdest
    obtain rfl := Option.some.inj hdest
    exact ⟨rfl, i, hbec.isused.trans hask.1, hbec.ipaddr⟩

/-- **A tick** sends the solicitations that it counts just when it builds at most one, or several for one
address, and the last one can be sent. -/
theorem tickSends_iff (h : Ds6Host cfg δ) : h.TickSends ↔ h.SolicitsOnce := by
  rw [tickSends_iff_mem]
  constructor
  · intro hall m hlast
    have hm := List.mem_of_getLast? hlast
    obtain ⟨h', htick, hsent⟩ := hall m hm
    refine ⟨fun m' hm' => ?_, ?_⟩
    · obtain ⟨h'', htick', hsent'⟩ := hall m' hm'
      cases htick.symm.trans htick'
      obtain ⟨-, later, tr, heq, htr⟩ := hsent
      exact (hsent'.solicits heq).unique htr
    · obtain ⟨s', hout, rfl⟩ := map_eq_ok.mp htick
      exact (h.tickSpec.sameWay.delivers m).mp
        (IpStack.delivers_of_output (h.tickSpec.loaded m hlast) (len_solicitations hm)
          (forNeighbour_solicitations hm) hout hsent)
  · intro honce m hm
    cases hlast : h.solicitations.getLast? with
    | none =>
      rw [List.getLast?_eq_none_iff.mp hlast] at hm
      cases hm
    | some last =>
      obtain ⟨htgt, hdel⟩ := honce last hlast
      obtain ⟨s', hout, hsent⟩ := IpStack.output_of_delivers (h.tickSpec.loaded last hlast)
        (len_solicitations (List.mem_of_getLast? hlast)) ((h.tickSpec.sameWay.delivers last).mpr hdel)
      rw [htgt m hm]
      refine ⟨h.uipDs6Periodic.withStack s', ?_, hsent⟩
      unfold tick
      rw [hout]
      rfl

lemma SolicitsOnce.tgt_eq (honce : h.SolicitsOnce) {m m' : Solicitation} (hm : m ∈ h.solicitations)
    (hm' : m' ∈ h.solicitations) : m.tgt = m'.tgt := by
  cases hlast : h.solicitations.getLast? with
  | none =>
    rw [List.getLast?_eq_none_iff.mp hlast] at hm
    cases hm
  | some last =>
    obtain ⟨htgt, -⟩ := honce last hlast
    rw [htgt m hm, htgt m' hm']

end Ds6Host
end Contiki

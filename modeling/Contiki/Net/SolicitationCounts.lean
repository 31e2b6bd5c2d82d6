import Contiki.Lib.Run
import Contiki.Lib.Tally
import Contiki.Net.PeriodicSolicitations

/-!
# What the counters of solicitations count

A neighbour is removed, and an address is taken to be unique, when its counter of solicitations says so.  In
runs in which every tick solicits once, each counter counts solicitations that were sent.

* `IpStack.Honest` — a change that counts nothing that was not sent.
* `Ds6Host.event` — what happens at a node.
* `Ds6Host.solicitations_sent` — ticks, and runs.
-/

namespace Contiki

/-- An address is kept or removed. -/
structure Ds6Addr.Stays (a a' : Ds6Addr) : Prop where
  ipaddr : a'.ipaddr = a.ipaddr
  isused : a'.isused = true → a.isused = true

lemma Ds6Addr.Stays.refl (a : Ds6Addr) : a.Stays a := ⟨rfl, id⟩

namespace IpStack
variable {cfg : StackConfig} {δ : Type} {s s' s'' : IpStack cfg δ} {i : Fin cfg.nbrNb} {a : IpAddr}

/-- A solicitation for an address is sent on the way from one state to another. -/
def Asked (s s' : IpStack cfg δ) (a : IpAddr) : Prop :=
  ∃ new, s'.sent = new ++ s.sent ∧ ∃ tr ∈ new, Transmission.Solicits tr a

/-- The counters of the neighbours are set back, or stay, or start with a solicitation that is sent, and
no address appears. -/
structure Honest (s s' : IpStack cfg δ) : Prop where
  sent : ∃ new, s'.sent = new ++ s.sent
  nbr : ∀ i, (s'.nbrCache i).isused = true → (s'.nbrCache i).nscount = 0 ∨
    (s'.nbrCache i).nscount = 1 ∧ s.Asked s' (s'.nbrCache i).ipaddr ∨
    (s.nbrCache i).isused = true ∧ (s'.nbrCache i).ipaddr = (s.nbrCache i).ipaddr ∧
      (s'.nbrCache i).nscount = (s.nbrCache i).nscount
  addr : ∀ i, Option.Rel Ds6Addr.Stays (s.node.addrAt i) (s'.node.addrAt i)

/-! ## Solicitations that are sent -/

lemma Asked.later (h : s.Asked s' a) (hsent : ∃ new, s''.sent = new ++ s'.sent) : s.Asked s'' a := by
  obtain ⟨new, heq, tr, htr, hsol⟩ := h
  obtain ⟨new', heq'⟩ := hsent
  exact ⟨new' ++ new, by rw [heq', heq, List.append_assoc], tr, List.mem_append_right _ htr, hsol⟩

lemma Asked.earlier (h : s'.Asked s'' a) (hsent : ∃ new, s'.sent = new ++ s.sent) : s.Asked s'' a := by
  obtain ⟨new, heq, tr, htr, hsol⟩ := h
  obtain ⟨new', heq'⟩ := hsent
  exact ⟨new ++ new', by rw [heq, heq', List.append_assoc], tr, List.mem_append_left _ htr, hsol⟩

lemma FirstSent.asked (h : s.FirstSent s' a) : s.Asked s' a := by
  obtain ⟨-, later, tr, heq, hsol⟩ := h
  exact ⟨later ++ [tr], by rw [heq, List.append_assoc, List.singleton_append], tr, by simp, hsol⟩

namespace Honest

lemma addr_refl (s : IpStack cfg δ) (i : ℕ) : Option.Rel Ds6Addr.Stays (s.node.addrAt i) (s.node.addrAt i) := by
  cases s.node.addrAt i with
  | none => exact .none
  | some a => exact .some (.refl a)

/-- Nothing is sent, and the addresses stay. -/
lemma of_nbrs (hsent : s'.sent = s.sent) (hnode : s'.node = s.node)
    (hnbr : ∀ i, (s'.nbrCache i).isused = true → (s'.nbrCache i).nscount = 0 ∨
      (s.nbrCache i).isused = true ∧ (s'.nbrCache i).ipaddr = (s.nbrCache i).ipaddr ∧
        (s'.nbrCache i).nscount = (s.nbrCache i).nscount) : Honest s s' := by
  refine ⟨⟨[], hsent⟩, fun i hused => (hnbr i hused).imp_right .inr, fun i => ?_⟩
  rw [hnode]
  exact addr_refl s i

/-- The neighbours stay. -/
lemma of_cache (hsent : ∃ new, s'.sent = new ++ s.sent) (hcache : s'.nbrCache = s.nbrCache)
    (haddr : ∀ i, Option.Rel Ds6Addr.Stays (s.node.addrAt i) (s'.node.addrAt i)) : Honest s s' := by
  refine ⟨hsent, fun i hused => .inr (.inr ?_), haddr⟩
  rw [hcache] at hused ⊢
  exact ⟨hused, rfl, rfl⟩

lemma refl (s : IpStack cfg δ) : Honest s s := .of_cache ⟨[], rfl⟩ rfl (addr_refl s)

lemma trans (h : Honest s s') (h' : Honest s' s'') : Honest s s'' := by
  refine ⟨?_, fun i hused => ?_, fun i => ?_⟩
  · obtain ⟨new, heq⟩ := h.sent
    obtain ⟨new', heq'⟩ := h'.sent
    exact ⟨new' ++ new, by rw [heq', heq, List.append_assoc]⟩
  · rcases h'.nbr i hused with hzero | ⟨hone, hasked⟩ | ⟨hused', haddr, hcount⟩
    · exact .inl hzero
    · exact .inr (.inl ⟨hone, hasked.earlier h.sent⟩)
    · rw [haddr, hcount]
      rcases h.nbr i hused' with hzero | ⟨hone, hasked⟩ | hsame
      · exact .inl hzero
      · exact .inr (.inl ⟨hone, hasked.later h'.sent⟩)
      · exact .inr (.inr hsame)
  · have hfirst := h.addr i
    have hnext := h'.addr i
    generalize s.node.addrAt i = a?, s'.node.addrAt i = a'?, s''.node.addrAt i = a''? at hfirst hnext
    cases hfirst with
    | none => exact hnext
    | some hstays =>
      cases hnext with
      | some hstays' =>
        exact .some ⟨hstays'.ipaddr.trans hstays.ipaddr, fun hused => hstays.isused (hstays'.isused hused)⟩

end Honest

/-! ## The functions of the stack -/

lemma OnlyPacket.honest (h : OnlyPacket s s') : Honest s s' :=
  .of_cache ⟨[], h.sent⟩ h.nbrCache fun i => by
    rw [h.node]
    exact Honest.addr_refl s i

lemma SameCounts.honest (h : SameCounts s s') : Honest s s' :=
  .of_nbrs h.sent h.node fun i hused =>
    .inr ⟨(congrArg Ds6Element.isused (h.element i)).symm.trans hused, congrArg Ds6Element.ipaddr (h.element i),
      h.nscount i⟩

/-- An entry is changed, and its counter stays or is set back. -/
lemma Honest.setNbr {f : Ds6Nbr cfg.clockWidth → Ds6Nbr cfg.clockWidth} (h : Honest s s')
    (helem : ∀ n, (f n).toDs6Element = n.toDs6Element)
    (hcount : ∀ n, (f n).nscount = n.nscount ∨ (f n).nscount = 0) : Honest s (s'.setNbr i f) := by
  refine h.trans (.of_nbrs rfl rfl fun j hused => ?_)
  by_cases hj : j = i
  · subst hj
    rw [setNbr_self] at hused ⊢
    rcases hcount (s'.nbrCache j) with hsame | hzero
    · exact .inr ⟨(congrArg Ds6Element.isused (helem _)).symm.trans hused, congrArg Ds6Element.ipaddr (helem _),
        hsame⟩
    · exact .inl hzero
  · rw [setNbr_of_ne hj] at hused ⊢
    exact .inr ⟨hused, rfl, rfl⟩

lemma honest_tcpipOutput (s : IpStack cfg δ) (lladdr : Option Lladdr) : Honest s (s.tcpipOutput lladdr) :=
  .of_cache ⟨[_], rfl⟩ rfl (Honest.addr_refl s)

lemma onlyPacket_outputDone (s : IpStack cfg δ) : OnlyPacket s s.outputDone := rfl

lemma honest_uipDs6NbrRm (s : IpStack cfg δ) (i : Fin cfg.nbrNb) : Honest s (s.uipDs6NbrRm i) := by
  refine .of_nbrs (uipDs6NbrRm_sent s i) (uipDs6NbrRm_node s i) fun j hused => ?_
  by_cases hj : j = i
  · obtain ⟨packethandle, hself⟩ := s.uipDs6NbrRm_self i
    rw [hj, hself] at hused
    cases hused
  · rw [uipDs6NbrRm_of_ne hj] at hused ⊢
    exact .inr ⟨hused, rfl, rfl⟩

lemma honest_fillNbr (s : IpStack cfg δ) (i : Fin cfg.nbrNb) (ipaddr : IpAddr) (lladdr : Option Lladdr)
    (isrouter : Bool) (state : NbrState) : Honest s (s.fillNbr i ipaddr lladdr isrouter state) := by
  refine .of_nbrs rfl rfl fun j hused => ?_
  by_cases hj : j = i
  · refine .inl ?_
    unfold fillNbr uipPacketqueueNew
    rw [hj, setNbr_self, setNbr_self]
  · rw [fillNbr_of_ne hj] at hused ⊢
    exact .inr ⟨hused, rfl, rfl⟩

lemma honest_uipDs6NbrAdd (s : IpStack cfg δ) (ipaddr : IpAddr) (lladdr : Option Lladdr) (isrouter : Bool)
    (state : NbrState) : Honest s (s.uipDs6NbrAdd ipaddr lladdr isrouter state).2 := by
  unfold uipDs6NbrAdd
  generalize 2 = calls
  induction calls generalizing s with
  | zero => exact .refl s
  | succ calls ih =>
    rw [nbrAddFrom]
    split
    · exact honest_fillNbr s _ _ _ _ _
    · exact .refl s
    · split
      · exact (honest_uipDs6NbrRm s _).trans (ih _)
      · exact .refl s

lemma honest_uipDs6AddrRm (s : IpStack cfg δ) (i : Fin s.node.nAddr) : Honest s (s.uipDs6AddrRm i) := by
  have hat (j : ℕ) : (s.uipDs6AddrRm i).node.addrAt j =
      if j = i.val then some { s.node.addrList i with isused := false } else s.node.addrAt j := by
    unfold uipDs6AddrRm
    exact (Ds6Host.maddrRm_addrAt _ _ j).trans (IpNode.addrAt_update i.isLt _ j)
  have hrest : (s.uipDs6AddrRm i).sent = s.sent ∧ (s.uipDs6AddrRm i).nbrCache = s.nbrCache := by
    unfold uipDs6AddrRm maddrRm
    dsimp only
    split <;> exact ⟨rfl, rfl⟩
  refine .of_cache ⟨[], hrest.1⟩ hrest.2 fun j => ?_
  rw [hat]
  split_ifs with hj
  · rw [hj, IpNode.addrAt_of_lt i.isLt]
    exact .some ⟨rfl, fun hused => absurd hused Bool.false_ne_true⟩
  · exact Honest.addr_refl s j

lemma honest_uipDs6DadFailed (s : IpStack cfg δ) (i : Fin s.node.nAddr) : Honest s (s.uipDs6DadFailed i) := by
  unfold uipDs6DadFailed
  split_ifs
  · exact .refl s
  · exact honest_uipDs6AddrRm s i

lemma Honest.setLen (h : Honest s s') (len : UInt16) : Honest s (s'.setLen len) :=
  h.trans ((OnlyPacket.refl s').setLen len).honest

/-! ## Input -/

lemma honest_nsSllao (s : IpStack cfg δ) (lladdr : Lladdr) : Honest s (s.nsSllao lladdr) := by
  unfold nsSllao
  dsimp only
  split
  · exact honest_uipDs6NbrAdd s _ _ _ _
  · split_ifs
    · exact (Honest.refl s).setNbr (fun _ => rfl) fun _ => .inl rfl
    · exact (Honest.refl s).setNbr (fun _ => rfl) fun _ => .inl rfl
    · exact .refl s

/-- The loop over the options of a solicitation, by induction on its turns. -/
lemma honest_nsOptions {fuel : ℕ} {offset : UInt8} {proceed : Bool}
    (h : nsOptions fuel offset s = .ok (proceed, s')) : Honest s s' := by
  induction fuel generalizing offset s with
  | zero => cases h
  | succ fuel ih =>
    rw [nsOptions] at h
    dsimp only at h
    split_ifs at h
    · cases h
      exact .refl _
    · cases h
      exact .refl _
    · exact (honest_nsSllao s _).trans (ih h)
    · exact ih h
    · cases h
      exact .refl _

lemma honest_nsReply (s : IpStack cfg δ) : Honest s s.nsReply := by
  rcases s.nsReply_cases with hpacket | ⟨a, heq⟩
  · exact hpacket.honest
  · rw [heq]
    exact (honest_uipDs6DadFailed s a).setLen 0

lemma honest_uipNd6NsInput (h : s.uipNd6NsInput = .ok s') : Honest s s' := by
  unfold uipNd6NsInput at h
  split_ifs at h
  · cases h
    exact (Honest.refl s).setLen 0
  · obtain ⟨⟨proceed, t⟩, hopt, h⟩ := bind_eq_ok.mp h
    have ht := honest_nsOptions hopt
    dsimp only at h
    cases proceed with
    | true =>
      cases h
      exact ht.trans (honest_nsReply t)
    | false =>
      cases h
      exact ht.setLen 0

lemma honest_naIncomplete (s : IpStack cfg δ) (i : Fin cfg.nbrNb) (isRouter isSolicited : Bool)
    (llao : Option Lladdr) : Honest s (s.naIncomplete i isRouter isSolicited llao).2 := by
  unfold naIncomplete
  cases llao with
  | none => exact .refl s
  | some lladdr =>
    have hlladdr : Honest s (s.setNbr i fun n => { n with lladdr }) :=
      (Honest.refl s).setNbr (fun _ => rfl) fun _ => .inl rfl
    dsimp only
    refine Honest.setNbr ?_ (fun _ => rfl) fun _ => .inl rfl
    split_ifs
    · exact hlladdr.setNbr (fun _ => rfl) fun _ => .inr rfl
    · exact hlladdr.setNbr (fun _ => rfl) fun _ => .inl rfl

lemma honest_naComplete (s : IpStack cfg δ) (i : Fin cfg.nbrNb) (isRouter isSolicited isOverride : Bool)
    (llao : Option Lladdr) : Honest s (s.naComplete i isRouter isSolicited isOverride llao).2 := by
  have hlladdr : Honest s (s.setNbr i fun n => { n with lladdr := llao.getD n.lladdr }) :=
    (Honest.refl s).setNbr (fun _ => rfl) fun _ => .inl rfl
  have hdefrt : ∀ (t : IpStack cfg δ) l, Honest t { t with defrtList := l } := fun t l =>
    .of_cache ⟨[], rfl⟩ rfl (Honest.addr_refl t)
  unfold naComplete
  dsimp only
  split
  · dsimp only
    split_ifs
    · exact (Honest.refl s).setNbr (fun _ => rfl) fun _ => .inl rfl
    · exact .refl s
  · dsimp only
    refine Honest.setNbr ?_ (fun _ => rfl) fun _ => .inl rfl
    split_ifs
    · split
      · refine Honest.trans ?_ (hdefrt _ _)
        exact hlladdr.setNbr (fun _ => rfl) fun _ => .inl rfl
      · exact hlladdr.setNbr (fun _ => rfl) fun _ => .inl rfl
    · exact hlladdr.setNbr (fun _ => rfl) fun _ => .inl rfl
    · split
      · refine Honest.trans ?_ (hdefrt _ _)
        exact hlladdr.setNbr (fun _ => rfl) fun _ => .inl rfl
      · exact hlladdr.setNbr (fun _ => rfl) fun _ => .inl rfl
    · exact hlladdr.setNbr (fun _ => rfl) fun _ => .inl rfl
    · split
      · exact hlladdr.trans (hdefrt _ _)
      · exact hlladdr
    · exact hlladdr

lemma honest_handBack (s : IpStack cfg δ) (i : Fin cfg.nbrNb) (b : Fin maxNumQueuedPackets) :
    Honest s (s.handBack i b) := by
  unfold handBack
  refine Honest.trans ?_ (sameCounts_uipPacketqueueFree _ i).honest
  exact .of_cache ⟨[], rfl⟩ rfl (Honest.addr_refl s)

lemma honest_handBackNa (s : IpStack cfg δ) (i : Fin cfg.nbrNb) : Honest s (s.handBackNa i) := by
  unfold handBackNa
  split
  · exact (Honest.refl s).setLen 0
  · split_ifs
    · exact honest_handBack s i _
    · exact (Honest.refl s).setLen 0

lemma honest_naNeighbor (s : IpStack cfg δ) (i : Fin cfg.nbrNb) (flags : UInt8) (llao : Option Lladdr) :
    Honest s (s.naNeighbor i flags llao) := by
  have hrest : ∀ r : Bool × IpStack cfg δ, Honest s r.2 →
      Honest s (if r.1 then r.2.handBackNa i else r.2.setLen 0) := by
    intro r hr
    split_ifs
    · exact hr.trans (honest_handBackNa r.2 i)
    · exact hr.setLen 0
  unfold naNeighbor
  dsimp only
  by_cases hstate : (s.nbrCache i).state = .incomplete
  · have hfirst := hrest _ (honest_naIncomplete s i (flags &&& 0x80 ≠ 0) (flags &&& 0x40 ≠ 0) llao)
    rwa [if_pos hstate]
  · have hfirst := hrest _ (honest_naComplete s i (flags &&& 0x80 ≠ 0) (flags &&& 0x40 ≠ 0)
      (flags &&& 0x20 ≠ 0) llao)
    rwa [if_neg hstate]

lemma honest_uipNd6NaInput (h : s.uipNd6NaInput = .ok s') : Honest s s' := by
  unfold uipNd6NaInput at h
  dsimp only at h
  split_ifs at h
  · cases h
    exact (Honest.refl s).setLen 0
  · obtain ⟨llao?, -, h⟩ := bind_eq_ok.mp h
    split at h
    · cases h
      exact (Honest.refl s).setLen 0
    · split at h
      · cases h
        split_ifs
        · exact (honest_uipDs6DadFailed s _).setLen 0
        · exact (Honest.refl s).setLen 0
      · split at h
        · cases h
          exact (Honest.refl s).setLen 0
        · cases h
          exact honest_naNeighbor s _ _ _

/-! ## Output -/

lemma honest_outputNew (h : s.outputNew i = .ok s') : Honest s s' := by
  obtain ⟨tr, hsent, hsol⟩ := outputNew_sent h
  unfold outputNew at h
  obtain ⟨t, hpark, h⟩ := bind_eq_ok.mp h
  cases h
  have hsame := sameCounts_park hpark
  generalize (if t.node.isMyAddr t.uipBuf.srcipaddr = true then some t.uipBuf.srcipaddr else none) = src
    at hsent ⊢
  have hns := onlyPacket_uipNd6NsOutput t src none (t.nbrCache i).ipaddr
  generalize t.uipNd6NsOutput src none (t.nbrCache i).ipaddr = t' at hns hsent ⊢
  obtain ⟨t'', ht''⟩ : ∃ t'', (t'.setNbr i fun n =>
      { n with sendns := .set t'.clockSeconds (t'.retransTimer / 1000), nscount := 1 }) = t'' := ⟨_, rfl⟩
  rw [ht''] at hsent ⊢
  have hnode : t''.node = s.node := by
    rw [← ht'']
    exact hns.node.trans hsame.node
  refine ⟨⟨[tr], hsent⟩, fun j hused => ?_, fun j => ?_⟩
  · show (t''.nbrCache j).nscount = 0 ∨ (t''.nbrCache j).nscount = 1 ∧ _ ∨ _
    by_cases hj : j = i
    · have haddr : (t''.nbrCache j).ipaddr = (s.nbrCache i).ipaddr := by
        rw [← ht'', hj, setNbr_self]
        exact (congrArg (fun c => (c i).ipaddr) hns.nbrCache).trans
          (congrArg Ds6Element.ipaddr (hsame.element i))
      refine .inr (.inl ⟨?_, [tr], hsent, tr, List.mem_singleton_self tr, ?_⟩)
      · rw [← ht'', hj, setNbr_self]
      · show tr.Solicits (t''.nbrCache j).ipaddr
        rw [haddr]
        exact hsol
    · have hcache : t''.nbrCache j = t.nbrCache j := by
        rw [← ht'', setNbr_of_ne hj, hns.nbrCache]
      change (t''.nbrCache j).isused = true at hused
      rw [hcache] at hused
      refine .inr (.inr ⟨?_, ?_, ?_⟩)
      · exact (congrArg Ds6Element.isused (hsame.element j)).symm.trans hused
      · exact (congrArg (fun n : Ds6Nbr cfg.clockWidth => n.ipaddr) hcache).trans (congrArg Ds6Element.ipaddr (hsame.element j))
      · exact (congrArg Ds6Nbr.nscount hcache).trans (hsame.nscount j)
  · show Option.Rel _ (s.node.addrAt j) (t''.node.addrAt j)
    rw [hnode]
    exact Honest.addr_refl s j

lemma honest_outputParked (s : IpStack cfg δ) (i : Fin cfg.nbrNb) : Honest s (s.outputParked i) := by
  unfold outputParked
  split
  · exact .refl s
  · split_ifs
    · exact (honest_handBack s i _).trans (honest_tcpipOutput _ _)
    · exact .refl s

lemma honest_outputKnown (s : IpStack cfg δ) (i : Fin cfg.nbrNb) : Honest s (s.outputKnown i) := by
  unfold outputKnown
  dsimp only
  refine Honest.trans ?_ (onlyPacket_outputDone _).honest
  refine Honest.trans ?_ (honest_outputParked _ i)
  refine Honest.trans ?_ (honest_tcpipOutput _ _)
  refine Honest.setNbr ?_ (fun _ => rfl) fun _ => .inl rfl
  split_ifs
  · exact (Honest.refl s).setNbr (fun _ => rfl) fun _ => .inr rfl
  · exact .refl s

lemma honest_outputTo {nexthop : IpAddr} (h : s.outputTo nexthop = .ok s') : Honest s s' := by
  unfold outputTo at h
  cases hlook : s.uipDs6NbrLookup nexthop with
  | none =>
    rw [hlook] at h
    dsimp only at h
    have hadd := honest_uipDs6NbrAdd s nexthop none false .incomplete
    cases hres : s.uipDs6NbrAdd nexthop none false .incomplete with
    | mk i? t =>
      rw [hres] at h hadd
      cases i? with
      | none =>
        cases h
        exact hadd.setLen 0
      | some i => exact hadd.trans (honest_outputNew h)
  | some i =>
    rw [hlook] at h
    dsimp only at h
    split_ifs at h
    · obtain ⟨t, hpark, h⟩ := map_eq_ok.mp h
      cases h
      exact (sameCounts_park hpark).honest.setLen 0
    · cases h
      exact honest_outputKnown s i

lemma honest_tcpipIpv6Output (h : s.tcpipIpv6Output = .ok s') : Honest s s' := by
  unfold tcpipIpv6Output at h
  split_ifs at h
  · cases h
    exact .refl _
  · cases h
    exact (Honest.refl s).setLen 0
  · cases h
    exact (honest_tcpipOutput s none).trans (onlyPacket_outputDone _).honest
  · obtain ⟨hop?, hhop, h⟩ := bind_eq_ok.mp h
    cases hop? with
    | none =>
      cases h
      exact (Honest.refl s).setLen 0
    | some hop =>
      obtain ⟨a, t⟩ := hop
      exact (onlyPacket_nextHop hhop).honest.trans (honest_outputTo h)

lemma honest_lifetimerExpires (s : IpStack cfg δ) (b : Fin maxNumQueuedPackets) :
    Honest s (s.lifetimerExpires b) := by
  unfold lifetimerExpires
  split
  · exact .refl s
  · unfold packetTimedout
    split
    · exact .of_cache ⟨[], rfl⟩ rfl (Honest.addr_refl s)
    · refine Honest.setNbr (.of_cache ⟨[], rfl⟩ rfl (Honest.addr_refl s)) (fun _ => rfl) fun _ => .inl rfl

/-- The number of solicitations for an address that are sent on the way from one state to another. -/
def nsSent (s s' : IpStack cfg δ) (a : IpAddr) : ℕ :=
  (s'.sent.take (s'.sent.length - s.sent.length)).countP fun tr => decide (tr.Solicits a)

lemma Asked.nsSent_pos (h : s.Asked s' a) : 1 ≤ s.nsSent s' a := by
  obtain ⟨new, heq, tr, htr, hsol⟩ := h
  unfold nsSent
  rw [heq, List.length_append, Nat.add_sub_cancel, List.take_left]
  exact List.countP_pos_iff.mpr ⟨tr, htr, decide_eq_true hsol⟩

end IpStack

/-! ## A node -/

/-- What happens at a node.  Other modules write to entries of the cache, but not to their addresses and
counters. -/
inductive HostEvent (cfg : StackConfig) (δ : Type) where
  | tick
  | output (p : LoadedPacket cfg)
  | nsInput (p : LoadedPacket cfg)
  | naInput (p : LoadedPacket cfg)
  | nbrAdd (ipaddr : IpAddr) (lladdr : Option Lladdr) (isrouter : Bool) (state : NbrState)
  | nbrSet (i : Fin cfg.nbrNb) (lladdr : Lladdr) (isrouter : Bool) (state : NbrState) (reachable : Stimer)
  | lifetimerExpires (b : Fin maxNumQueuedPackets)
  | addrAdd (ipaddr : IpAddr) (vlifetime : BitVec 32) (autoconf : Bool) (random : UInt16)
  | addrRm (i : ℕ)
  | clocks (time : BitVec cfg.clockWidth) (seconds : BitVec 32)
  | tables (defrtList : Fin cfg.defrtNb → Ds6Defrt) (routingTable : Fin cfg.routeNb → Ds6Route δ)
      (srcRoutingTable : SrcRoutingTable δ cfg.srcRouteNb cfg.srcRouteAddrNb)
  | prefixes (nPrefix : ℕ) (prefixList : Fin nPrefix → Ds6Prefix)

namespace Ds6Host
variable {cfg : StackConfig} {δ : Type} (h : Ds6Host cfg δ)

/-- One event. -/
def event : HostEvent cfg δ → Except StackFault (Ds6Host cfg δ)
  | .tick => h.tick
  | .output p => (h.stack.load p).tcpipIpv6Output.map h.withStack
  | .nsInput p => (h.stack.load p).uipNd6NsInput.map h.withStack
  | .naInput p => (h.stack.load p).uipNd6NaInput.map h.withStack
  | .nbrAdd ipaddr lladdr isrouter state =>
    .ok (h.withStack (h.stack.uipDs6NbrAdd ipaddr lladdr isrouter state).2)
  | .nbrSet i lladdr isrouter state reachable =>
    .ok (h.withStack (h.stack.setNbr i fun n => { n with lladdr, isrouter, state, reachable }))
  | .lifetimerExpires b => .ok (h.withStack (h.stack.lifetimerExpires b))
  | .addrAdd ipaddr vlifetime autoconf random => .ok (h.uipDs6AddrAdd ipaddr vlifetime autoconf random).2
  | .addrRm i => .ok (h.uipDs6AddrRm i)
  | .clocks time seconds => .ok (h.withStack { h.stack with clockTime := time, clockSeconds := seconds })
  | .tables defrtList routingTable srcRoutingTable =>
    .ok (h.withStack { h.stack with defrtList, routingTable, srcRoutingTable })
  | .prefixes nPrefix prefixList =>
    .ok (h.withStack { h.stack with node := { h.stack.node with nPrefix, prefixList } })

/-- The counters of solicitations: those of the neighbours and those of the addresses. -/
def tally : Fin cfg.nbrNb ⊕ ℕ → Tally IpAddr
  | .inl i =>
    let n := h.stack.nbrCache i
    ⟨n.isused, n.ipaddr, n.nscount⟩
  | .inr i => (h.addrEntry i).elim ⟨false, .unspecified, 0⟩ fun e => ⟨e.isused, e.ipaddr, e.dadnscount⟩

/-- The solicitations for each entry that were sent since its counter started. -/
abbrev Ledger (cfg : StackConfig) := Fin cfg.nbrNb ⊕ ℕ → ℕ

/-- At the start, the counters are taken to be right. -/
def credit : Ledger cfg := fun k => (h.tally k).count.toNat

/-- The ledger behind an event. -/
def nextLedger (x : Ds6Host cfg δ × Ledger cfg) (h : Ds6Host cfg δ) : Ledger cfg := fun k =>
  (x.1.tally k).next (h.tally k) (x.2 k) (x.1.stack.nsSent h.stack (h.tally k).name)

/-- One event, with the ledger. -/
def recorded (x : Ds6Host cfg δ × Ledger cfg) (e : HostEvent cfg δ) :
    Except StackFault (Ds6Host cfg δ × Ledger cfg) :=
  (x.1.event e).map fun h => (h, nextLedger x h)

/-- A tick solicits once. -/
def TicksOnce (x : Ds6Host cfg δ × Ledger cfg) (e : HostEvent cfg δ) : Prop := e = .tick → x.1.SolicitsOnce

/-- A neighbour that a tick removes was asked often enough, and so was for an address that it takes to be
unique. -/
structure Justified (ledger : Ledger cfg) : Prop where
  nbr : ∀ i, (h.stack.nbrCache i).isused = true → (h.uipDs6Periodic.stack.nbrCache i).isused = false →
    uipNd6MaxSolicit.toNat ≤ ledger (.inl i)
  addr : ∀ i a a', h.stack.node.addrAt i = some a → h.uipDs6Periodic.stack.node.addrAt i = some a' →
    a.isused = true → a.state = .tentative → a'.state = .preferred → h.maxdadns.toNat ≤ ledger (.inr i)

variable {h} {h' : Ds6Host cfg δ}

/-! ## The steps -/

/-- What a change of the stack makes of an address. -/
lemma addrEntry_withStack {s : IpStack cfg δ} (hs : IpStack.Honest h.stack s) (i : ℕ) :
    Option.Rel (fun e e' : AddrEntry cfg.clockWidth =>
      e'.ipaddr = e.ipaddr ∧ (e'.isused = true → e.isused = true) ∧ e'.dadnscount = e.dadnscount)
      (h.addrEntry i) ((h.withStack s).addrEntry i) := by
  have hrel := hs.addr i
  unfold addrEntry
  show Option.Rel _ _ ((s.node.addrAt i).map _)
  generalize h.stack.node.addrAt i = a?, s.node.addrAt i = a?' at hrel
  cases hrel with
  | none => exact .none
  | some hstays => exact .some ⟨hstays.ipaddr, hstays.isused, rfl⟩

/-- A change of the stack that counts nothing that was not sent. -/
lemma honest_withStack {s : IpStack cfg δ} (hs : IpStack.Honest h.stack s) (k : Fin cfg.nbrNb ⊕ ℕ) :
    (h.tally k).Honest ((h.withStack s).tally k) (h.stack.nsSent s ((h.withStack s).tally k).name) := by
  intro hused
  cases k with
  | inl i =>
    rcases hs.nbr i hused with hzero | ⟨hone, hasked⟩ | ⟨hused₀, haddr, hcount⟩
    · exact .inl hzero
    · exact .inr (.inl ⟨hone, hasked.nsSent_pos⟩)
    · exact .inr (.inr ⟨hused₀, haddr, .inl hcount⟩)
  | inr i =>
    have hrel := addrEntry_withStack hs i
    unfold tally at hused ⊢
    dsimp only at hused ⊢
    generalize h.addrEntry i = e?, (h.withStack s).addrEntry i = e?' at hrel hused ⊢
    cases hrel with
    | none => cases hused
    | some hstays => exact .inr (.inr ⟨hstays.2.1 hused, hstays.1, .inl hstays.2.2⟩)

/-- An address that is added starts with its counter at zero. -/
lemma addrEntry_addrAdd (ipaddr : IpAddr) (vlifetime : BitVec 32) (autoconf : Bool) (random : UInt16) (j : ℕ) :
    (h.uipDs6AddrAdd ipaddr vlifetime autoconf random).2.addrEntry j = h.addrEntry j ∨
      ∃ e, (h.uipDs6AddrAdd ipaddr vlifetime autoconf random).2.addrEntry j = some e ∧ e.dadnscount = 0 := by
  unfold uipDs6AddrAdd
  dsimp only
  split
  · rename_i i _
    by_cases hj : j = i.val
    · refine .inr ⟨_, congrArg (Option.map _) ((IpNode.addrAt_update i.isLt _ j).trans (if_pos hj)), ?_⟩
      rw [hj]
      exact Function.update_self ..
    · refine .inl ?_
      unfold addrEntry
      dsimp only
      rw [Function.update_of_ne hj, Function.update_of_ne hj]
      have hvlifetime : (if vlifetime = 0 then h.addrVlifetime
          else Function.update h.addrVlifetime i (.set h.stack.clockSeconds vlifetime)) j =
          h.addrVlifetime j := by
        split_ifs
        · rfl
        · exact Function.update_of_ne hj _ _
      rw [hvlifetime]
      exact congrArg (Option.map _) ((IpNode.addrAt_update i.isLt _ j).trans (if_neg hj))
  · exact .inl rfl

lemma honest_addrAdd (ipaddr : IpAddr) (vlifetime : BitVec 32) (autoconf : Bool) (random : UInt16)
    (k : Fin cfg.nbrNb ⊕ ℕ) (sent : ℕ) :
    (h.tally k).Honest ((h.uipDs6AddrAdd ipaddr vlifetime autoconf random).2.tally k) sent := by
  intro hused
  cases k with
  | inl i =>
    have hcache : (h.uipDs6AddrAdd ipaddr vlifetime autoconf random).2.stack.nbrCache =
        h.stack.nbrCache := by
      unfold uipDs6AddrAdd
      dsimp only
      split <;> rfl
    unfold tally at hused ⊢
    rw [hcache] at hused ⊢
    exact .inr (.inr ⟨hused, rfl, .inl rfl⟩)
  | inr j =>
    unfold tally at hused ⊢
    dsimp only at hused ⊢
    rcases addrEntry_addrAdd (h := h) ipaddr vlifetime autoconf random j with hsame | ⟨e, he, hzero⟩
    · rw [hsame] at hused ⊢
      exact .inr (.inr ⟨hused, rfl, .inl rfl⟩)
    · rw [he]
      exact .inl hzero

/-- A tick that solicits once counts what it sends. -/
lemma honest_tick (hsends : h.TickSends) (htick : h.tick = .ok h') (k : Fin cfg.nbrNb ⊕ ℕ) :
    (h.tally k).Honest (h'.tally k) (h.stack.nsSent h'.stack (h'.tally k).name) := by
  obtain ⟨s', hout, rfl⟩ := map_eq_ok.mp htick
  have hspec := h.tickSpec
  have hearlier : ∃ new, h.uipDs6Periodic.stack.sent = new ++ h.stack.sent := ⟨[], hspec.sent⟩
  have hs := IpStack.honest_tcpipIpv6Output hout
  have hasked : ∀ a, h.SendsFor a → 1 ≤ h.stack.nsSent s' a := by
    rintro a ⟨h'', htick', hfirst⟩
    cases htick'.symm.trans htick
    exact (hfirst.asked.earlier hearlier).nsSent_pos
  intro hused
  cases k with
  | inl i =>
    rcases hs.nbr i hused with hzero | ⟨hone, hsol⟩ | ⟨hused₀, haddr, hcount⟩
    · exact .inl hzero
    · exact .inr (.inl ⟨hone, (hsol.earlier hearlier).nsSent_pos⟩)
    · have hbec := hspec.nbrs i
      have hname := haddr.trans hbec.ipaddr
      have hused : (h.stack.nbrCache i).isused = true :=
        (Bool.and_eq_true_iff.mp (hbec.isused.symm.trans hused₀)).1
      by_cases hask : (h.stack.nbrCache i).Asks h.stack.clockSeconds
      · have hsent := hasked _ (hsends.nbr i (nbrCounted_iff.mpr hask))
        rw [← hname] at hsent
        have hnext := hcount.trans (hbec.counts hask).1
        split_ifs at hnext
        · exact .inr (.inl ⟨hnext, hsent⟩)
        · exact .inr (.inr ⟨hused, hname, .inr ⟨hnext, hsent⟩⟩)
      · exact .inr (.inr ⟨hused, hname, .inl (hcount.trans (hbec.quiet hask).1)⟩)
  | inr i =>
    have hbec := hspec.addrs i
    have hrest := addrEntry_withStack hs i
    unfold tally at hused hasked ⊢
    dsimp only at hused ⊢
    cases he : h.addrEntry i with
    | none =>
      rw [he] at hbec
      generalize h.uipDs6Periodic.addrEntry i = e?, (h.uipDs6Periodic.withStack s').addrEntry i = e?'
        at hbec hrest hused
      cases hbec
      cases hrest
      cases hused
    | some e =>
      rw [he] at hbec
      have hcounted := addrCounted_iff he
      generalize h.uipDs6Periodic.addrEntry i = e?, (h.uipDs6Periodic.withStack s').addrEntry i = e?'
        at hbec hrest hused ⊢
      cases hbec with
      | some hbec =>
        cases hrest with
        | some hrest =>
          obtain ⟨hname, hkept, hcount⟩ := hrest
          have hname := hname.trans hbec.ipaddr
          have hused : e.isused = true :=
            (Bool.and_eq_true_iff.mp (hbec.isused.symm.trans (hkept hused))).1
          have hnext := hcount.trans hbec.dadnscount
          split_ifs at hnext with hask
          · obtain ⟨a, ha, heq⟩ := Option.map_eq_some_iff.mp he
            have haddr : a.ipaddr = e.ipaddr := by rw [← heq]
            have hsent := hasked _ (hsends.addr i a ha (hcounted.mpr hask))
            rw [haddr, ← hname] at hsent
            exact .inr (.inr ⟨hused, hname, .inr ⟨hnext, hsent⟩⟩)
          · exact .inr (.inr ⟨hused, hname, .inl hnext⟩)

/-- An event counts nothing that was not sent, when its tick solicits once. -/
lemma event_honest {e : HostEvent cfg δ} (hok : e = .tick → h.SolicitsOnce) (he : h.event e = .ok h')
    (k : Fin cfg.nbrNb ⊕ ℕ) :
    (h.tally k).Honest (h'.tally k) (h.stack.nsSent h'.stack (h'.tally k).name) := by
  have hload : ∀ p, IpStack.Honest h.stack (h.stack.load p) := fun _ =>
    .of_cache ⟨[], rfl⟩ rfl (IpStack.Honest.addr_refl _)
  cases e with
  | tick => exact honest_tick ((tickSends_iff h).mpr (hok rfl)) he k
  | output p =>
    obtain ⟨s, hs, rfl⟩ := map_eq_ok.mp he
    exact honest_withStack ((hload p).trans (IpStack.honest_tcpipIpv6Output hs)) k
  | nsInput p =>
    obtain ⟨s, hs, rfl⟩ := map_eq_ok.mp he
    exact honest_withStack ((hload p).trans (IpStack.honest_uipNd6NsInput hs)) k
  | naInput p =>
    obtain ⟨s, hs, rfl⟩ := map_eq_ok.mp he
    exact honest_withStack ((hload p).trans (IpStack.honest_uipNd6NaInput hs)) k
  | nbrAdd ipaddr lladdr isrouter state =>
    cases he
    exact honest_withStack (IpStack.honest_uipDs6NbrAdd _ _ _ _ _) k
  | nbrSet i lladdr isrouter state reachable =>
    cases he
    have hset : IpStack.Honest h.stack
        (h.stack.setNbr i fun n => { n with lladdr, isrouter, state, reachable }) :=
      (IpStack.Honest.refl _).setNbr (fun _ => rfl) fun _ => .inl rfl
    exact honest_withStack hset k
  | lifetimerExpires b =>
    cases he
    exact honest_withStack (IpStack.honest_lifetimerExpires _ b) k
  | addrAdd ipaddr vlifetime autoconf random =>
    cases he
    exact honest_addrAdd ipaddr vlifetime autoconf random k _
  | addrRm i =>
    cases he
    unfold uipDs6AddrRm
    split_ifs with hi
    · exact honest_withStack (IpStack.honest_uipDs6AddrRm _ ⟨i, hi⟩) k
    · exact honest_withStack (IpStack.Honest.refl h.stack) k
  | clocks time seconds =>
    cases he
    exact honest_withStack (.of_cache ⟨[], rfl⟩ rfl (IpStack.Honest.addr_refl _)) k
  | tables defrtList routingTable srcRoutingTable =>
    cases he
    exact honest_withStack (.of_cache ⟨[], rfl⟩ rfl (IpStack.Honest.addr_refl _)) k
  | prefixes nPrefix prefixList =>
    cases he
    exact honest_withStack (.of_cache ⟨[], rfl⟩ rfl (IpStack.Honest.addr_refl _)) k

/-! ## Runs -/

/-- In runs in which every tick solicits once, the ledger covers the counters. -/
theorem ledger_covers {x : Ds6Host cfg δ × Ledger cfg}
    (hrun : Reaches recorded TicksOnce (· = (h, h.credit)) x) (k : Fin cfg.nbrNb ⊕ ℕ) :
    (x.1.tally k).Covered (x.2 k) := by
  refine hrun.invariant (I := fun x => ∀ k, (x.1.tally k).Covered (x.2 k)) ?_ ?_ k
  · rintro x rfl k -
    exact Nat.le_refl _
  · intro x e x' hcov hok hstep k
    obtain ⟨h', he, rfl⟩ := map_eq_ok.mp hstep
    exact (hcov k).next (event_honest hok he k)

/-- Counters that the ledger covers justify what a tick does. -/
lemma justified_of_covered {ledger : Ledger cfg} (hcov : ∀ k, (h.tally k).Covered (ledger k)) :
    h.Justified ledger := by
  constructor
  · intro i hused hgone
    have hbec := h.tickSpec.nbrs i
    have hexh : (h.stack.nbrCache i).Exhausted := by
      by_contra hnot
      have hkept := hbec.isused.symm.trans hgone
      unfold Ds6Nbr.isKept at hkept
      rw [hused, decide_eq_false hnot] at hkept
      cases hkept
    exact (UInt8.le_iff_toNat_le.mp hexh.2).trans (hcov (.inl i) hused)
  · intro i a a' ha ha' hused htentative hpreferred
    have hrel := h.tickSpec.addrs i
    have hcov := hcov (.inr i)
    unfold tally at hcov
    unfold addrEntry at hrel hcov
    dsimp only at hcov
    rw [ha] at hrel hcov
    rw [ha'] at hrel
    cases hrel with
    | some hbec =>
      refine (UInt8.le_iff_toNat_le.mp (hbec.state ?_)).trans (hcov hused)
      intro hsame
      cases hpreferred.symm.trans (hsame.trans htentative)

/-- **Ticks and runs.**  A tick sends the solicitations that it counts just when all of them are for one
address and the last one can be sent.  In runs of such ticks, what a tick concludes from the counters is
justified by what was sent. -/
theorem solicitations_sent (h : Ds6Host cfg δ) :
    (h.TickSends ↔ h.SolicitsOnce) ∧
      ∀ x, Reaches recorded TicksOnce (· = (h, h.credit)) x → x.1.Justified x.2 :=
  ⟨tickSends_iff h, fun _ hrun => justified_of_covered (ledger_covers hrun)⟩

/-- A node with one address, which is asked for in the first tick. -/
def oneAddr : Ds6Host IpStack.smallCfg Unit := bareHost.calls ((withIid 1).take 1)

/-- The solicitation is sent, and the ledger says so in the next tick. -/
theorem solicitations_sent_oneAddr :
    oneAddr.TickSends ∧ ∃ h' ledger, oneAddr.tick = .ok h' ∧ h'.Justified ledger := by
  obtain ⟨hiff, hruns⟩ := solicitations_sent oneAddr
  have hlist : oneAddr.solicitations =
      [⟨.ofBytes (0xfe :: 0x80 :: List.replicate 13 0 ++ [1]), none, 64⟩] := by
    decide
  have honce : oneAddr.SolicitsOnce := by
    intro m hm
    rw [hlist] at hm ⊢
    obtain rfl := Option.some.inj hm
    refine ⟨fun m' hm' => ?_, by decide, fun dest hdest => ?_⟩
    · exact congrArg Solicitation.tgt (List.mem_singleton.mp hm')
    · cases hdest
  have hsends := hiff.mpr honce
  obtain ⟨h', htick, -⟩ := tickSends_iff_mem.mp hsends _ (hlist ▸ List.mem_singleton_self _)
  have hstep : recorded (oneAddr, oneAddr.credit) .tick =
      .ok (h', nextLedger (oneAddr, oneAddr.credit) h') := map_eq_ok.mpr ⟨h', htick, rfl⟩
  exact ⟨hsends, h', _, htick, hruns _ (Reaches.tail (.initial rfl) (fun _ => honce) hstep)⟩

/-- A node with two addresses that are asked for in one tick. -/
def twoAddrs : Ds6Host IpStack.smallCfg Unit := bareHost.calls ((withIid 1).take 2)

/-- The solicitation for one address is built over the one for the other. -/
theorem not_tickSends : ¬∀ h : Ds6Host IpStack.smallCfg Unit, h.TickSends := by
  intro hall
  have honce := (tickSends_iff twoAddrs).mp (hall twoAddrs)
  have hlist : twoAddrs.solicitations.map Solicitation.tgt =
      [.ofBytes (0xaa :: 0xaa :: List.replicate 13 0 ++ [1]),
        .ofBytes (0xfe :: 0x80 :: List.replicate 13 0 ++ [1])] := by
    decide
  obtain ⟨m, hm, htgt⟩ := List.mem_map.mp (hlist ▸ List.mem_cons_self)
  obtain ⟨m', hm', htgt'⟩ := List.mem_map.mp (hlist ▸ List.mem_cons_of_mem _ (List.mem_singleton_self _))
  have hsame := honce.tgt_eq hm hm'
  rw [htgt, htgt'] at hsame
  exact absurd hsame (by decide)

end Ds6Host
end Contiki

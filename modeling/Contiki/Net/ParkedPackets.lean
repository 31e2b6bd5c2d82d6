import Contiki.Lib.Run
import Contiki.Net.AddressResolution
import Contiki.Net.SourceRouteInsertion

/-!
# Runs of address resolution

Packets are output, solicitations and advertisements come in, the periodic timer ticks, neighbours are
evicted, and the lifetimes of the packets that wait end.  The queue of the packets that wait stays sound
as long as the routing headers that are put into packets fit into `uip_buf`: `tcpip_ipv6_output`
does not check it.

* `IpStack.step_evolves` — what an event touches.
* `IpStack.RouteFits.placed` — a routing header that fits is inserted.
* `IpStack.queue_sound` — every run in which the routing headers fit.
-/

namespace Contiki

/-- A packet in `uip_buf`, with `uip_ext_len`. -/
structure LoadedPacket (cfg : StackConfig) where
  buf : UipBuf
  extLen : UInt8
  len_le : buf.len.toNat ≤ cfg.bufsize.toNat

/-- The tables and clocks of the stack that other modules change. -/
structure Surroundings (cfg : StackConfig) (δ : Type) where
  node : IpNode
  defrtList : Fin cfg.defrtNb → Ds6Defrt
  routingTable : Fin cfg.routeNb → Ds6Route δ
  srcRoutingTable : SrcRoutingTable δ cfg.srcRouteNb cfg.srcRouteAddrNb
  clockTime : BitVec cfg.clockWidth
  clockSeconds : BitVec 32
  reachableTime : BitVec 32
  retransTimer : BitVec 32

/-- What happens to the stack. -/
inductive StackEvent (cfg : StackConfig) (δ : Type) where
  | output (p : LoadedPacket cfg)
  | nsInput (p : LoadedPacket cfg)
  | naInput (p : LoadedPacket cfg)
  | periodic
  | nbrAdd (ipaddr : IpAddr) (lladdr : Option Lladdr) (isrouter : Bool) (state : NbrState)
  | lifetimerExpires (b : Fin maxNumQueuedPackets)
  | surroundings (x : Surroundings cfg δ)

namespace IpStack
variable {cfg : StackConfig} {δ : Type} {s s' : IpStack cfg δ} {i : Fin cfg.nbrNb}

/-! ## Events -/

/-- A packet is put into `uip_buf`. -/
def load (s : IpStack cfg δ) (p : LoadedPacket cfg) : IpStack cfg δ :=
  { s with uipBuf := p.buf, uipExtLen := p.extLen }

/-- One event. -/
def step (s : IpStack cfg δ) : StackEvent cfg δ → Except StackFault (IpStack cfg δ)
  | .output p => (s.load p).tcpipIpv6Output
  | .nsInput p => (s.load p).uipNd6NsInput
  | .naInput p => (s.load p).uipNd6NaInput
  | .periodic => .ok s.periodicNeighbors
  | .nbrAdd ipaddr lladdr isrouter state => .ok (s.uipDs6NbrAdd ipaddr lladdr isrouter state).2
  | .lifetimerExpires b => .ok (s.lifetimerExpires b)
  | .surroundings x =>
    .ok { s with
      node := x.node
      defrtList := x.defrtList
      routingTable := x.routingTable
      srcRoutingTable := x.srcRoutingTable
      clockTime := x.clockTime
      clockSeconds := x.clockSeconds
      reachableTime := x.reachableTime
      retransTimer := x.retransTimer }

/-- The entries of the cache that an event is about: the next hop of the packet, the source of the
solicitation, the target of the advertisement, the entries that a tick frees, the entry for a neighbour that is
added, the entry that the packet waits for. -/
def Touches (s : IpStack cfg δ) : StackEvent cfg δ → Fin cfg.nbrNb → Prop
  | .output p, i => ∃ a t, (s.load p).nextHop = .ok (some (a, t)) ∧ s.slotFor a = some i
  | .nsInput p, i => s.slotFor p.buf.srcipaddr = some i
  | .naInput p, i => s.uipDs6NbrLookup (s.load p).tgtipaddr = some i
  | .periodic, i => (s.periodicNeighbors.nbrCache i).isused = false
  | .nbrAdd ipaddr .., i => s.slotFor ipaddr = some i
  | .lifetimerExpires b, i => (s.packetsMemb.mem b).lifetimer = some i
  | .surroundings _, _ => False

/-- The stack as it starts: the cache is empty, and so is the queue. -/
structure Fresh (s : IpStack cfg δ) : Prop where
  isused : ∀ i, (s.nbrCache i).isused = false
  handle : ∀ i, (s.nbrCache i).packethandle = none
  count : ∀ b, s.packetsMemb.count b = 0
  timer : ∀ b, (s.packetsMemb.mem b).lifetimer = none
  log : s.queueLog = []

lemma Fresh.sound (h : s.Fresh) : s.QueueSound where
  owned := (Memb.OwnedBy.fresh (s.packetsMemb.mem ⟨0, Nat.zero_lt_two⟩)).congr (funext h.count) fun i => by
    rw [h.handle]
    rfl
  used i b hb := by
    rw [h.handle] at hb
    cases hb
  timed i b := by
    rw [h.timer, h.handle]
    exact iff_of_false nofun nofun
  log := {
    fresh := by
      rw [h.log]
      exact fun _ _ _ he => absurd he List.not_mem_nil
    unique := by
      rw [h.log]
      exact fun _ _ _ _ _ he => absurd he List.not_mem_nil
    once := by
      rw [h.log]
      exact fun later _ _ _ _ heq => absurd heq.symm (by simp)
    held := fun i b hb => by
      rw [h.handle] at hb
      cases hb }

/-- An event keeps the queue sound, and touches the packets of the entries it is about only. -/
lemma step_evolves {e : StackEvent cfg δ} (h : s.step e = .ok s') : Evolves (s.Touches e) s s' := by
  have hload : ∀ p, KeepsCache s (s.load p) := fun _ => ⟨rfl, rfl, rfl, rfl, rfl⟩
  cases e with
  | output p => exact (hload p).evolves.trans (tcpipIpv6Output_evolves h)
  | nsInput p => exact (hload p).evolves.trans (uipNd6NsInput_evolves h)
  | naInput p => exact (hload p).evolves.trans (uipNd6NaInput_evolves h)
  | periodic =>
    cases h
    exact periodicNeighbors_evolves s
  | nbrAdd ipaddr lladdr isrouter state =>
    cases h
    exact (uipDs6NbrAdd_evolves s ipaddr lladdr isrouter state).1
  | lifetimerExpires b =>
    cases h
    exact lifetimerExpires_evolves s b
  | surroundings x =>
    cases h
    exact SameQueue.evolves ⟨fun _ => rfl, fun _ => rfl, rfl, rfl, rfl⟩

/-! ## Routing headers that fit -/

/-- The routing header for a route fits behind the headers of the packet in `uip_buf`. -/
structure RouteFits (s : IpStack cfg δ) (r : Fin cfg.srcRouteNb) : Prop where
  hops : s.srcRoutingTable.hops r ≠ []
  headers : uipIphLen + s.uipExtLen.toNat ≤ s.uipBuf.len.toNat
  index : cfg.llhLen.toNat + uipIphLen + s.uipExtLen.toNat +
    cfg.rh4Len (s.srcRoutingTable.hops r).length ≤ 256
  room : s.uipBuf.len.toNat + cfg.rh4Len (s.srcRoutingTable.hops r).length ≤ cfg.bufsize.toNat

/-- A packet that is output and takes a source route has room for the routing header. -/
def Fits (s : IpStack cfg δ) : StackEvent cfg δ → Prop
  | .output p => ∀ r, (s.load p).srcRouteTaken = some r → (s.load p).RouteFits r
  | _ => True

/-- A routing header that fits has its place. -/
lemma RouteFits.placed {r : Fin cfg.srcRouteNb} (h : s.RouteFits r) : s.RoutePlaced r where
  hops := h.hops
  headers := h.headers
  room := h.room
  index := (Nat.add_lt_add_left (cfg.rh4Len_last (s.hopCount r)).1 _).trans_le h.index

/-! ## No access out of bounds -/

/-- The next hop of a packet that takes no route, or one whose header fits. -/
lemma nextHop_fits (hlen : s.uipBuf.len.toNat ≤ cfg.bufsize.toNat)
    (hfits : ∀ r, s.node.isAddrOnlink s.uipBuf.destipaddr = false →
      s.srcRoutingTable.uipDs6SrcRouteLookup s.uipBuf.destipaddr = some r → s.RouteFits r) :
    ∃ hop?, s.nextHop = .ok hop? ∧
      ∀ a t, hop? = some (a, t) → t.uipBuf.len.toNat ≤ cfg.bufsize.toNat := by
  unfold nextHop
  dsimp only
  by_cases honlink : s.node.isAddrOnlink s.uipBuf.destipaddr = true
  · rw [if_pos honlink]
    refine ⟨_, rfl, ?_⟩
    rintro a t ⟨⟩
    exact hlen
  · rw [if_neg honlink]
    cases hroute : s.srcRoutingTable.uipDs6SrcRouteLookup s.uipBuf.destipaddr with
    | some r =>
      obtain ⟨a, t, hins, hheader⟩ :=
        insertRh4_ok (hfits r (Bool.eq_false_iff.mpr honlink) hroute).placed
      refine ⟨some (a, t), ?_, ?_⟩
      · dsimp only
        rw [hins]
        rfl
      · rintro a' t' ⟨⟩
        exact hheader.room
    | none =>
      dsimp only
      split
      · refine ⟨_, rfl, ?_⟩
        rintro a t ⟨⟩
        exact hlen
      · refine ⟨_, rfl, ?_⟩
        intro a t heq
        obtain ⟨dest, -, h⟩ := Option.map_eq_some_iff.mp heq
        cases h
        exact hlen

lemma park_ok (hlen : s.uipBuf.len.toNat ≤ cfg.bufsize.toNat) (i : Fin cfg.nbrNb) :
    ∃ t, s.park i = .ok t := by
  unfold park
  cases halloc : s.uipPacketqueueAlloc i with
  | none => exact ⟨s, rfl⟩
  | some r =>
    obtain ⟨b, t⟩ := r
    have hbuf : t.uipBuf = s.uipBuf := by
      unfold uipPacketqueueAlloc at halloc
      split_ifs at halloc
      obtain ⟨⟨c, memb⟩, -, heq⟩ := Option.map_eq_some_iff.mp halloc
      cases heq
      rfl
    exact ⟨t.fillPacket i b, if_pos (by rw [hbuf]; exact hlen)⟩

lemma outputTo_ok (hlen : s.uipBuf.len.toNat ≤ cfg.bufsize.toNat) (nexthop : IpAddr) :
    ∃ t, s.outputTo nexthop = .ok t := by
  unfold outputTo
  cases s.uipDs6NbrLookup nexthop with
  | none =>
    dsimp only
    cases hadd : s.uipDs6NbrAdd nexthop none false .incomplete with
    | mk i? t =>
      have hbuf : t.uipBuf = s.uipBuf := by
        have heq := nbrAddFrom_uipBuf nexthop none false .incomplete 2 s
        rw [show nbrAddFrom nexthop none false .incomplete 2 s = (i?, t) from hadd] at heq
        exact heq
      cases i? with
      | none => exact ⟨_, rfl⟩
      | some i =>
        obtain ⟨t', ht'⟩ := park_ok (s := t) (by rw [hbuf]; exact hlen) i
        refine ⟨_, bind_eq_ok.mpr ⟨t', ht', rfl⟩⟩
  | some i =>
    dsimp only
    split_ifs
    · obtain ⟨t, ht⟩ := park_ok hlen i
      exact ⟨_, map_eq_ok.mpr ⟨t, ht, rfl⟩⟩
    · exact ⟨_, rfl⟩

/-- Output of a packet whose routing header fits. -/
lemma tcpipIpv6Output_ok (hlen : s.uipBuf.len.toNat ≤ cfg.bufsize.toNat)
    (hfits : ∀ r, s.srcRouteTaken = some r → s.RouteFits r) : ∃ t, s.tcpipIpv6Output = .ok t := by
  unfold tcpipIpv6Output
  split_ifs with hzero hdrop hmcast
  · exact ⟨_, rfl⟩
  · exact ⟨_, rfl⟩
  · exact ⟨_, rfl⟩
  · obtain ⟨hdropLen, hdropDest⟩ := not_or.mp hdrop
    obtain ⟨hop?, hhop, hroom⟩ := nextHop_fits hlen fun r honlink hroute => hfits r (by
      unfold srcRouteTaken
      rw [if_neg]
      · exact hroute
      · rintro (h | h | h | h | h)
        · exact hzero h
        · exact hdropLen h
        · exact hdropDest h
        · exact hmcast h
        · rw [honlink] at h
          cases h)
    cases hop? with
    | none => exact ⟨_, bind_eq_ok.mpr ⟨none, hhop, rfl⟩⟩
    | some hop =>
      obtain ⟨a, t⟩ := hop
      obtain ⟨t', ht'⟩ := outputTo_ok (hroom a t rfl) a
      exact ⟨t', bind_eq_ok.mpr ⟨some (a, t), hhop, ht'⟩⟩

lemma nsOptions_error {fuel : ℕ} {offset : UInt8} {s : IpStack cfg δ} {f : StackFault}
    (h : nsOptions fuel offset s = .error f) : f = .hang := by
  induction fuel generalizing offset s with
  | zero =>
    cases h
    rfl
  | succ fuel ih =>
    rw [nsOptions] at h
    dsimp only at h
    split_ifs at h
    · exact ih h
    · exact ih h

lemma naOptions_error {fuel : ℕ} {offset : UInt8} {llao : Option ℕ} {f : StackFault}
    (h : s.naOptions fuel offset llao = .error f) : f = .hang := by
  induction fuel generalizing offset llao with
  | zero =>
    cases h
    rfl
  | succ fuel ih =>
    rw [naOptions] at h
    dsimp only at h
    split_ifs at h <;> exact ih h

/-- When the routing header fits, the only other fault of an event is a loop over options that does not
end. -/
lemma step_error {e : StackEvent cfg δ} {f : StackFault} (hfits : s.Fits e)
    (h : s.step e = .error f) : f = .hang := by
  cases e with
  | output p =>
    obtain ⟨t, ht⟩ := tcpipIpv6Output_ok (s := s.load p) p.len_le hfits
    have herr : (s.load p).tcpipIpv6Output = .error f := h
    rw [ht] at herr
    cases herr
  | nsInput p =>
    have herr : (s.load p).uipNd6NsInput = .error f := h
    unfold uipNd6NsInput at herr
    split_ifs at herr
    rcases bind_eq_error.mp herr with hopt | ⟨⟨proceed, t⟩, -, hrest⟩
    · exact nsOptions_error hopt
    · cases proceed <;> cases hrest
  | naInput p =>
    have herr : (s.load p).uipNd6NaInput = .error f := h
    unfold uipNd6NaInput at herr
    dsimp only at herr
    split_ifs at herr
    rcases bind_eq_error.mp herr with hopt | ⟨llao?, -, hrest⟩
    · exact naOptions_error hopt
    · split at hrest
      · cases hrest
      · split at hrest
        · cases hrest
        · split at hrest <;> cases hrest
  | periodic => cases h
  | nbrAdd => cases h
  | lifetimerExpires => cases h
  | surroundings => cases h

/-! ## Runs -/

/-- What the queue promises of an event: nothing is accessed out of bounds, and the packets of entries that
the event is not about stay as they are. -/
def Respects (s : IpStack cfg δ) (e : StackEvent cfg δ) : Prop :=
  (∀ f, s.step e = .error f → f = .hang) ∧
    ∀ s', s.step e = .ok s' → ∀ i, ¬ s.Touches e i → s'.waiting i = s.waiting i

/-- In every run in which the routing headers fit, the blocks in use are those that entries of the cache
hold, with their timers running, a packet is handed back at most once, as it was parked, and events
leave alone the packets that wait for others. -/
theorem queue_sound (h : Reaches step Fits Fresh s) : s.QueueSound ∧ ∀ e, s.Fits e → s.Respects e := by
  have hsound : s.QueueSound := by
    refine h.invariant (fun _ => Fresh.sound) ?_
    intro t e t' ht _ hstep
    exact (step_evolves hstep ht).1
  exact ⟨hsound, fun e he => ⟨fun f => step_error he, fun s' hs' => (step_evolves hs' hsound).2⟩⟩

/-! ## A packet that takes a source route -/

/-- A packet of 220 bytes to `aa00::`. -/
def smallPacket : LoadedPacket smallCfg where
  buf := ⟨fun k => if k = 24 then 0xaa else 0, 220⟩
  extLen := 0
  len_le := by decide

lemma smallStack_fresh (prefixes : ℕ) : (smallStack prefixes).Fresh :=
  ⟨fun _ => rfl, fun _ => rfl, fun _ => rfl, fun _ => rfl, rfl⟩

/-- On the link, the packet is parked. -/
theorem queue_sound_parked : ∃ s, Reaches step Fits (@Fresh smallCfg Unit) s ∧
    s.QueueSound ∧ (s.waiting ⟨0, Nat.zero_lt_one⟩).isSome = true ∧ s.Respects .periodic := by
  have hobserve : ((smallStack 1).step (.output smallPacket)).map
      (fun s => (s.waiting ⟨0, Nat.zero_lt_one⟩).isSome) = .ok true := rfl
  obtain ⟨s, hstep, hparked⟩ := exists_ok_of_map hobserve
  have hfits : (smallStack 1).Fits (.output smallPacket) := by
    intro r hr
    have hnone : ((smallStack 1).load smallPacket).srcRouteTaken = none := rfl
    rw [hnone] at hr
    cases hr
  have hrun : Reaches step Fits Fresh s := (Reaches.initial (smallStack_fresh 1)).tail hfits hstep
  obtain ⟨hsound, hrespects⟩ := queue_sound hrun
  exact ⟨s, hrun, hsound, hparked, hrespects .periodic trivial⟩

/-- Off the link it takes the source route, and the routing header does not fit. -/
theorem queue_not_sound : ¬ ∀ s : IpStack smallCfg Unit, Reaches step anyEvent Fresh s →
    s.QueueSound ∧ ∀ e, s.Respects e := by
  intro h
  have hfault : (smallStack 0).step (.output smallPacket) = .error .bufBounds := rfl
  have hrespects := (h _ (.initial (smallStack_fresh 0))).2 (.output smallPacket)
  cases hrespects.1 _ hfault

end IpStack
end Contiki

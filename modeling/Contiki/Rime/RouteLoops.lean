import Contiki.Rime.RouteDiscovery

/-!
# Routes without loops

The cost of a route falls along the next hops: a node takes a neighbour as next hop only when this one
has a cheaper route, or is the destination.  It stays so as long as no node's best cost rises, and what
makes it rise is `route_add` when it replaces the best entry by a dearer one with the same next hop.

* `RouteNet.LoopFree` — what is claimed.
* `RouteNet.Improving` — the events that do not make a best cost rise.
* `RouteNet.loopFree` — the result, for all runs of such events.
-/

namespace Contiki
namespace Rime
variable {size : ℕ}

namespace RouteNet
variable {s s' : RouteNet size}

/-! ## What is claimed -/

/-- Following the next hops towards a destination never comes to a node twice. -/
def LoopFree (s : RouteNet size) : Prop :=
  ∀ dest (path : List (Rimeaddr size)), path.IsChain (fun v w => s.nextHop dest v = some w) → path.Nodup

/-- A route that is put into the table of a node. -/
structure Insertion (size : ℕ) where
  node : Rimeaddr size
  dest : Rimeaddr size
  nexthop : Rimeaddr size
  cost : UInt8

/-- The route that the event puts into a table. -/
def insertion (s : RouteNet size) : RouteEvent size → Option (Insertion size)
  | .rreq v i _ _ => s.rreqs[i]?.bind fun x =>
      if (s.node v).rreqconn.Accepts x.packet ∧ (s.node v).NewRreq x.packet.originator x.packet.payload then
        some ⟨v, x.packet.originator, x.src, x.packet.hops.toUInt8⟩
      else none
  | .rrep i => s.rreps[i]?.map fun x => ⟨x.receiver, x.hdr.originator, x.src, x.hdr.hops⟩
  | _ => none

/-- No table overflows. -/
def NoOverflow (s : RouteNet size) (e : RouteEvent size) : Prop :=
  ∀ x ∈ s.insertion e, ¬Overflows (s.node x.node).routeTable x.dest x.nexthop

instance (s : RouteNet size) (e : RouteEvent size) : Decidable (s.NoOverflow e) :=
  inferInstanceAs (Decidable (∀ x ∈ s.insertion e, ¬Overflows (s.node x.node).routeTable x.dest x.nexthop))

/-- No node looks for a route while it keeps a request to be sent on. -/
def KeepsNone (s : RouteNet size) : RouteEvent size → Prop
  | .discover v _ => (s.node v).rrepPending = false → (s.node v).rreqconn.c.q = none
  | _ => True

/-- No table overflows, no best entry of a table is replaced by one that costs more, and no node looks for
a route while it keeps a request to be sent on. -/
def Improving (s : RouteNet size) (e : RouteEvent size) : Prop :=
  s.NoOverflow e ∧ (∀ x ∈ s.insertion e, ¬Worsens (s.node x.node).routeTable x.dest x.nexthop x.cost) ∧
    s.KeepsNone e

instance (s : RouteNet size) : ∀ e, Decidable (s.KeepsNone e)
  | .discover _ _ => inferInstanceAs (Decidable (_ → _))
  | .rreq .. | .rrep _ | .timer _ | .timeout _ => .isTrue trivial

instance (s : RouteNet size) (e : RouteEvent size) : Decidable (s.Improving e) :=
  inferInstanceAs (Decidable (_ ∧ (∀ x ∈ s.insertion e, ¬_) ∧ _))

/-! ## The invariant -/

/-- The node is the destination, or its best route costs less. -/
def Behind (s : RouteNet size) (w dest : Rimeaddr size) (cost : ℕ) : Prop :=
  w = dest ∨ bestCost (s.node w).routeTable dest < cost

/-- A reply that has made so many hops reaches its destination before it has made seventeen. -/
def Budget (s : RouteNet size) (u dest : Rimeaddr size) (hops : ℕ) : Prop :=
  hops ≤ 16 ∧ (u = dest ∨ bestCost (s.node u).routeTable dest + hops + 1 ≤ 16)

/-- A request that the node may send. -/
def SoundRreq (s : RouteNet size) (w : Rimeaddr size) (p : FloodPacket size) : Prop :=
  p.hops.toNat ≤ 16 ∧ s.Behind w p.originator p.hops.toNat

/-- A reply that the node may send. -/
def SoundRrep (s : RouteNet size) (x : RrepFrame size) : Prop :=
  s.Behind x.src x.hdr.originator x.hdr.hops.toNat ∧ s.Budget x.receiver x.hdr.dest x.hdr.hops.toNat

/-- The costs fall along the next hops, in the tables and in what is sent. -/
structure Grounded (s : RouteNet size) : Prop where
  entry : ∀ v, ∀ e ∈ (s.node v).routeTable, s.Behind e.nexthop e.dest e.cost.toNat
  rreq : ∀ x ∈ s.rreqs, s.SoundRreq x.src x.packet
  rrep : ∀ x ∈ s.rreps, s.SoundRrep x
  kept : ∀ v, ∀ p ∈ (s.node v).rreqconn.c.q, s.SoundRreq v p
  freed : ∀ v, (s.node v).rreqconn.c.freed = false
  atOnce : ∀ v, (s.node v).rreqconn.queueTime = 0 → (s.node v).rreqconn.c.q = none

/-- No best cost rises. -/
def NoWorse (s s' : RouteNet size) : Prop :=
  ∀ w d, bestCost (s'.node w).routeTable d ≤ bestCost (s.node w).routeTable d

lemma Behind.mono {w dest : Rimeaddr size} {cost : ℕ} (h : s.Behind w dest cost) (hle : s.NoWorse s') :
    s'.Behind w dest cost :=
  h.imp_right fun hlt => (hle w dest).trans_lt hlt

lemma SoundRreq.mono {w : Rimeaddr size} {p : FloodPacket size} (h : s.SoundRreq w p)
    (hle : s.NoWorse s') : s'.SoundRreq w p := ⟨h.1, h.2.mono hle⟩

lemma Budget.mono {u dest : Rimeaddr size} {hops : ℕ} (h : s.Budget u dest hops) (hle : s.NoWorse s') :
    s'.Budget u dest hops := by
  refine ⟨h.1, h.2.imp_right fun hsum => ?_⟩
  have hbest := hle u dest
  omega

lemma SoundRrep.mono {x : RrepFrame size} (h : s.SoundRrep x) (hle : s.NoWorse s') : s'.SoundRrep x :=
  ⟨h.1.mono hle, h.2.mono hle⟩

/-- Along the next hops the costs fall, so they do not lead to a node twice. -/
lemma Grounded.noCycle (h : s.Grounded) : s.LoopFree := by
  intro dest path hpath
  -- the destination comes first, the other nodes by their best cost
  let rank : Rimeaddr size → ℕ := fun v =>
    if v = dest then 0 else bestCost (s.node v).routeTable dest + 1
  have hfall : path.IsChain fun v w => rank w < rank v := by
    refine hpath.imp fun v w hnext => ?_
    unfold nextHop at hnext
    by_cases hv : v = dest
    · rw [if_pos hv] at hnext
      cases hnext
    · rw [if_neg hv] at hnext
      obtain ⟨e, he, rfl⟩ := Option.map_eq_some_iff.mp hnext
      obtain ⟨hmem, hdest⟩ := routeLookup_mem he
      have hrank : rank v = bestCost (s.node v).routeTable dest + 1 := if_neg hv
      rw [hrank]
      show (if e.nexthop = dest then 0 else bestCost (s.node e.nexthop).routeTable dest + 1) < _
      by_cases hw : e.nexthop = dest
      · rw [if_pos hw]
        exact Nat.succ_pos _
      · rw [if_neg hw, bestCost_of_lookup he]
        have hbehind := (h.entry v e hmem).resolve_left fun heq => hw (heq.trans hdest)
        rw [hdest] at hbehind
        omega
  have hpairs : path.Pairwise fun v w => rank w < rank v := by
    have : Trans (fun v w => rank w < rank v) (fun v w => rank w < rank v) fun v w => rank w < rank v :=
      ⟨fun h h' => h'.trans h⟩
    exact List.isChain_iff_pairwise.mp hfall
  refine hpairs.imp ?_
  rintro v _ hlt rfl
  exact lt_irrefl _ hlt

/-! ## Changes of one node -/

variable {v : Rimeaddr size} {n : RouteNode size} {rreq : Option (FloodPacket size)}
  {rrep : Option (Rimeaddr size × RrepHdr size)}

lemma update_node_self : ((s.update v n rreq rrep).node v) = n := Function.update_self ..

lemma update_node_of_ne {w : Rimeaddr size} (h : w ≠ v) : (s.update v n rreq rrep).node w = s.node w :=
  Function.update_of_ne h ..

lemma noWorse_update (hbest : ∀ d, bestCost n.routeTable d ≤ bestCost (s.node v).routeTable d) :
    s.NoWorse (s.update v n rreq rrep) := by
  intro w d
  by_cases hw : w = v
  · rw [hw, update_node_self]
    exact hbest d
  · rw [update_node_of_ne hw]

/-- A node whose best costs do not rise changes its table, and sends and keeps what it may. -/
lemma Grounded.update (h : s.Grounded)
    (hbest : ∀ d, bestCost n.routeTable d ≤ bestCost (s.node v).routeTable d)
    (hentry : ∀ e ∈ n.routeTable, s.Behind e.nexthop e.dest e.cost.toNat)
    (hrreq : ∀ p ∈ rreq, (s.update v n rreq rrep).SoundRreq v p)
    (hrrep : ∀ x ∈ rrep, (s.update v n rreq rrep).SoundRrep ⟨v, x.1, x.2⟩)
    (hkept : ∀ p ∈ n.rreqconn.c.q, (s.update v n rreq rrep).SoundRreq v p)
    (hfreed : n.rreqconn.c.freed = false)
    (hatOnce : n.rreqconn.queueTime = 0 → n.rreqconn.c.q = none) : (s.update v n rreq rrep).Grounded := by
  have hle : s.NoWorse (s.update v n rreq rrep) := noWorse_update hbest
  refine ⟨fun w e he => ?_, fun x hx => ?_, fun x hx => ?_, fun w p hp => ?_, fun w => ?_, fun w => ?_⟩
  · refine Behind.mono ?_ hle
    by_cases hw : w = v
    · rw [hw, update_node_self] at he
      exact hentry e he
    · rw [update_node_of_ne hw] at he
      exact h.entry w e he
  · rcases List.mem_append.mp hx with hx | hx
    · exact (h.rreq x hx).mono hle
    · obtain ⟨p, hp, rfl⟩ := List.mem_map.mp hx
      exact hrreq p (Option.mem_toList.mp hp)
  · rcases List.mem_append.mp hx with hx | hx
    · exact (h.rrep x hx).mono hle
    · obtain ⟨p, hp, rfl⟩ := List.mem_map.mp hx
      exact hrrep p (Option.mem_toList.mp hp)
  · by_cases hw : w = v
    · rw [hw, update_node_self] at hp
      rw [hw]
      exact hkept p hp
    · rw [update_node_of_ne hw] at hp
      exact (h.kept w p hp).mono hle
  · by_cases hw : w = v
    · rw [hw, update_node_self]
      exact hfreed
    · rw [update_node_of_ne hw]
      exact h.freed w
  · by_cases hw : w = v
    · rw [hw, update_node_self]
      exact hatOnce
    · rw [update_node_of_ne hw]
      exact h.atOnce w

/-- The table of a node stays as it is, and what it keeps is what it kept, or nothing. -/
lemma Grounded.update_conn (h : s.Grounded) (htable : n.routeTable = (s.node v).routeTable)
    (hrreq : ∀ p ∈ rreq, s.SoundRreq v p)
    (hq : n.rreqconn.c.q = (s.node v).rreqconn.c.q ∨ n.rreqconn.c.q = none)
    (hfreed : n.rreqconn.c.freed = false) (htime : n.rreqconn.queueTime = (s.node v).rreqconn.queueTime) :
    (s.update v n rreq none).Grounded := by
  have hbest : ∀ d, bestCost n.routeTable d ≤ bestCost (s.node v).routeTable d := fun d => by rw [htable]
  have hle : s.NoWorse (s.update v n rreq none) := noWorse_update hbest
  refine h.update hbest (fun e he => h.entry v e (htable ▸ he)) (fun p hp => (hrreq p hp).mono hle)
    nofun (fun p hp => ?_) hfreed fun hzero => ?_
  · rcases hq with hq | hq
    · exact (h.kept v p (hq ▸ hp)).mono hle
    · rw [hq] at hp
      cases hp
  · rcases hq with hq | hq
    · exact hq.trans (h.atOnce v (htime ▸ hzero))
    · exact hq

/-! ## Requests and replies -/

/-- A route is put into a table: the best costs do not rise, and the new entry leads on. -/
lemma Grounded.insert (h : s.Grounded) {originator src : Rimeaddr size} {hops : UInt8}
    (hover : ¬Overflows (s.node v).routeTable originator src)
    (hworse : ¬Worsens (s.node v).routeTable originator src hops)
    (hbehind : s.Behind src originator hops.toNat) :
    (∀ d, bestCost (routeAdd (s.node v).routeTable originator src hops) d ≤
        bestCost (s.node v).routeTable d) ∧
      ∀ e ∈ routeAdd (s.node v).routeTable originator src hops, s.Behind e.nexthop e.dest e.cost.toNat := by
  refine ⟨bestCost_routeAdd_le hover hworse, fun e he => ?_⟩
  rcases mem_routeAdd he with rfl | he
  · exact hbehind
  · exact h.entry v e he

/-- A reply is sent to the next hop of the best route. -/
lemma budget_next {dest : Rimeaddr size} {e : RouteEntry size} {hops : ℕ}
    (hentry : ∀ e ∈ n.routeTable, s.Behind e.nexthop e.dest e.cost.toNat)
    (hlookup : routeLookup n.routeTable dest = some e)
    (hsum : bestCost n.routeTable dest + hops ≤ 16) : s.Budget e.nexthop dest hops := by
  obtain ⟨hmem, hdest⟩ := routeLookup_mem hlookup
  rw [bestCost_of_lookup hlookup] at hsum
  refine ⟨by omega, ?_⟩
  rcases hentry e hmem with heq | hlt
  · exact .inl (heq.trans hdest)
  · rw [hdest] at hlt
    exact .inr (by omega)

end RouteNet

/-! ## What the functions do -/

namespace RouteNode
variable {n n' : RouteNode size} {nodeAddr src originator : Rimeaddr size} {msg : List UInt8} {hops : UInt8}
  {rrep : Option (Rimeaddr size × RrepHdr size)} {flood : Bool}

/-- A request that is not new changes nothing; a new one is a route, and may be answered. -/
lemma rreqPacketReceived_cases
    (h : n.rreqPacketReceived nodeAddr src originator msg hops = (n', rrep, flood)) :
    (¬n.NewRreq originator msg ∧ n' = n ∧ rrep = none ∧ flood = false) ∨
      (n.NewRreq originator msg ∧ n'.routeTable = routeAdd n.routeTable originator src hops ∧
        n'.rreqconn = n.rreqconn ∧ (rrep = none ∨ rrep = n'.sendRrep nodeAddr originator)) := by
  unfold rreqPacketReceived at h
  by_cases hnew : n.NewRreq originator msg
  · rw [if_pos hnew] at h
    by_cases hdest : routeMsgDest size msg = nodeAddr
    · rw [if_pos hdest] at h
      cases h
      exact .inr ⟨hnew, rfl, rfl, .inr rfl⟩
    · rw [if_neg hdest] at h
      cases h
      exact .inr ⟨hnew, rfl, rfl, .inl rfl⟩
  · rw [if_neg hnew] at h
    cases h
    exact .inl ⟨hnew, rfl, rfl, rfl⟩

/-- A reply is a route, and is sent on when it is for another node. -/
lemma rrepPacketReceived_cases {x : RrepHdr size} (h : n.rrepPacketReceived nodeAddr src x = (n', rrep)) :
    n'.routeTable = routeAdd n.routeTable x.originator src x.hops ∧ n'.rreqconn = n.rreqconn ∧
      ∀ y ∈ rrep, x.dest ≠ nodeAddr ∧ ∃ rt, routeLookup n'.routeTable x.dest = some rt ∧
        y = (rt.nexthop, { x with hops := x.hops + 1 }) := by
  unfold rrepPacketReceived at h
  by_cases hdest : x.dest = nodeAddr
  · simp only [if_pos hdest] at h
    cases h
    exact ⟨rfl, rfl, nofun⟩
  · simp only [if_neg hdest] at h
    cases h
    refine ⟨rfl, rfl, fun y hy => ⟨hdest, ?_⟩⟩
    obtain ⟨rt, hrt, rfl⟩ := Option.map_eq_some_iff.mp (Option.mem_def.mp hy)
    exact ⟨rt, hrt, rfl⟩

end RouteNode

namespace RouteNet
variable {s s' : RouteNet size}

/-! ## Steps -/

/-- A reply reaches the neighbour it is for. -/
lemma Grounded.rrep_step {i : ℕ} {x : RrepFrame size} {n' : RouteNode size}
    {sent : Option (Rimeaddr size × RrepHdr size)} (h : s.Grounded) (hok : s.Improving (.rrep i))
    (hi : s.rreps[i]? = some x)
    (hrecv : (s.node x.receiver).rrepPacketReceived x.receiver x.src x.hdr = (n', sent)) :
    (s.update x.receiver n' none sent).Grounded := by
  have hinsertion : s.insertion (.rrep i) = some ⟨x.receiver, x.hdr.originator, x.src, x.hdr.hops⟩ := by
    show Option.map _ s.rreps[i]? = _
    rw [hi]
    rfl
  obtain ⟨hbehind, hbudget⟩ := h.rrep x (List.mem_of_getElem? hi)
  obtain ⟨hbest, hentry⟩ := h.insert (v := x.receiver) (hok.1 _ hinsertion) (hok.2.1 _ hinsertion) hbehind
  obtain ⟨htable, hconn, hsent⟩ := RouteNode.rrepPacketReceived_cases hrecv
  rw [← htable] at hbest hentry
  refine h.update hbest hentry nofun (fun y hy => ?_) (fun p hp => ?_) ?_ ?_
  · -- the reply is sent on, along a route that is cheap enough
    obtain ⟨hdest, rt, hrt, rfl⟩ := hsent y hy
    have hsum := hbudget.2.resolve_left fun heq => hdest heq.symm
    have hle := hbest x.hdr.dest
    have hhops : (x.hdr.hops + 1).toNat = x.hdr.hops.toNat + 1 := by
      rw [UInt8.toNat_add]
      exact Nat.mod_eq_of_lt (by show x.hdr.hops.toNat + 1 < 256; omega)
    constructor
    · right
      show bestCost ((s.update x.receiver n' none _).node x.receiver).routeTable x.hdr.originator <
        (x.hdr.hops + 1).toNat
      rw [update_node_self, htable, hhops]
      exact Nat.lt_succ_of_le bestCost_routeAdd_self
    · show Budget _ rt.nexthop x.hdr.dest (x.hdr.hops + 1).toNat
      refine (budget_next hentry hrt ?_).mono (noWorse_update hbest)
      omega
  · rw [hconn] at hp
    exact (h.kept _ p hp).mono (noWorse_update hbest)
  · rw [hconn]
    exact h.freed _
  · rw [hconn]
    exact h.atOnce _

/-- A request that is passed to the user reaches a node, which sends it on or not. -/
lemma Grounded.rreq_step {i : ℕ} {x : RreqFrame size} {queuebuf room flood : Bool}
    {ipolite : IpoliteConn (FloodPacket size)} {n' : RouteNode size} {c : NetfloodConn size}
    {sent : Option (FloodPacket size)} {rrep : Option (Rimeaddr size × RrepHdr size)} (h : s.Grounded)
    (hok : s.Improving (.rreq v i queuebuf room)) (hi : s.rreqs[i]? = some x)
    (hrecv : (s.node v).rreqconn.c.recv FloodPacket.data x.packet = .ok ipolite)
    (haccepts : (s.node v).rreqconn.Accepts x.packet)
    (hrreq : RouteNode.rreqPacketReceived
      { s.node v with rreqconn := { (s.node v).rreqconn with c := ipolite } } v x.src x.packet.originator
      x.packet.payload x.packet.hops.toUInt8 = (n', rrep, flood))
    (hflood : n'.rreqconn.recvFromIpolite x.packet queuebuf flood room = (c, sent)) :
    (s.update v { n' with rreqconn := c } sent rrep).Grounded := by
  obtain ⟨hq, hfreed⟩ := IpoliteConn.recv_eq hrecv
  obtain ⟨hhops, hbehind⟩ := h.rreq x (List.mem_of_getElem? hi)
  have hcost : x.packet.hops.toUInt8.toNat = x.packet.hops.toNat := by
    rw [UInt16.toNat_toUInt8]
    exact Nat.mod_eq_of_lt (by omega)
  rcases RouteNode.rreqPacketReceived_cases hrreq with ⟨-, rfl, rfl, rfl⟩ | ⟨hnew, htable, hconn, hrrep⟩
  · -- the request is not new
    have heq : (c, sent) = (_, none) := hflood.symm.trans (if_neg fun hf => Bool.false_ne_true hf.2.1)
    cases heq
    exact h.update_conn rfl nofun hq (hfreed.trans (h.freed v)) rfl
  · have hinsertion : s.insertion (.rreq v i queuebuf room) =
        some ⟨v, x.packet.originator, x.src, x.packet.hops.toUInt8⟩ := by
      show Option.bind s.rreqs[i]? _ = _
      rw [hi]
      exact if_pos ⟨haccepts, hnew⟩
    obtain ⟨hbest, hentry⟩ := h.insert (v := v) (hok.1 _ hinsertion) (hok.2.1 _ hinsertion)
      (hcost ▸ hbehind)
    rw [← show n'.routeTable = _ from htable] at hbest hentry
    rw [hconn] at hflood
    obtain ⟨hsent, hkept, hfree, hat⟩ := NetfloodConn.recvFromIpolite_keeps hflood
      (hfreed.trans (h.freed v)) fun hzero => by
        rcases hq with hq | hq
        · exact hq.trans (h.atOnce v hzero)
        · exact hq
    have hle : s.NoWorse (s.update v { n' with rreqconn := c } sent rrep) := noWorse_update hbest
    have hself : bestCost n'.routeTable x.packet.originator ≤ x.packet.hops.toNat := by
      rw [htable, ← hcost]
      exact bestCost_routeAdd_self
    -- what is sent on has made one hop more
    have hsound : x.packet.hops.toUInt8 < floodHopsMax →
        (s.update v { n' with rreqconn := c } sent rrep).SoundRreq v
          { x.packet with hops := x.packet.hops + 1 } := by
      intro hlt
      have hlt : x.packet.hops.toUInt8.toNat < 16 := hlt
      have hnext : (x.packet.hops + 1).toNat = x.packet.hops.toNat + 1 := by
        rw [UInt16.toNat_add]
        exact Nat.mod_eq_of_lt (by show x.packet.hops.toNat + 1 < 65536; omega)
      refine ⟨?_, .inr ?_⟩
      · show (x.packet.hops + 1).toNat ≤ 16
        omega
      · show bestCost _ x.packet.originator < (x.packet.hops + 1).toNat
        rw [update_node_self, hnext]
        exact Nat.lt_succ_of_le hself
    refine h.update hbest hentry (fun p hp => ?_) (fun y hy => ?_) (fun p hp => ?_) hfree hat
    · obtain ⟨hforwards, rfl⟩ := hsent p hp
      exact hsound hforwards.2.2.2
    · rcases hrrep with rfl | rfl
      · cases hy
      · obtain ⟨rt, hrt, rfl⟩ := Option.map_eq_some_iff.mp (Option.mem_def.mp hy)
        refine ⟨.inl rfl, (budget_next hentry hrt ?_).mono hle⟩
        show _ + 0 ≤ 16
        omega
    · rcases hkept p hp with hp | ⟨hforwards, rfl⟩
      · rcases hq with hq | hq
        · exact (h.kept v p (hq ▸ hp)).mono hle
        · rw [show ipolite.q = none from hq] at hp
          cases hp
      · exact hsound hforwards.2.2.2

lemma Grounded.step {e : RouteEvent size} (h : s.Grounded) (hok : s.Improving e)
    (hstep : s.step e = .ok s') : s'.Grounded := by
  cases e with
  | discover v dest =>
      by_cases hpending : (s.node v).rrepPending = true
      · have heq : (s.node v).routeDiscoveryDiscover v dest = (s.node v, none) := if_pos hpending
        unfold RouteNet.step at hstep
        simp only [heq] at hstep
        cases hstep
        exact h.update_conn rfl nofun (.inl rfl) (h.freed v) rfl
      · have hq : (s.node v).rreqconn.c.q = none := hok.2.2 (Bool.not_eq_true _ ▸ hpending)
        unfold RouteNet.step RouteNode.routeDiscoveryDiscover at hstep
        simp only [if_neg hpending] at hstep
        cases hstep
        refine h.update_conn rfl (fun p hp => ?_) (.inl rfl) ?_ rfl
        · cases Option.mem_some.mp hp
          exact ⟨Nat.zero_le _, .inl rfl⟩
        · show (s.node v).rreqconn.c.q.isSome = false
          rw [hq]
          rfl
  | rreq v i queuebuf room =>
      unfold RouteNet.step at hstep
      cases hi : s.rreqs[i]? with
      | none =>
          simp only [hi] at hstep
          cases hstep
      | some x =>
          cases hrecv : (s.node v).rreqconn.c.recv FloodPacket.data x.packet with
          | error f =>
              simp only [hi, hrecv] at hstep
              cases hstep
          | ok ipolite =>
              simp only [hi, hrecv] at hstep
              by_cases haccepts :
                  ({ (s.node v).rreqconn with c := ipolite } : NetfloodConn size).Accepts x.packet
              · rw [if_pos haccepts] at hstep
                cases hstep
                exact h.rreq_step hok hi hrecv haccepts rfl rfl
              · rw [if_neg haccepts] at hstep
                cases hstep
                obtain ⟨hq, hfreed⟩ := IpoliteConn.recv_eq hrecv
                exact h.update_conn rfl nofun hq (hfreed.trans (h.freed v)) rfl
  | rrep i =>
      unfold RouteNet.step at hstep
      cases hi : s.rreps[i]? with
      | none =>
          simp only [hi] at hstep
          cases hstep
      | some x =>
          simp only [hi] at hstep
          cases hstep
          exact h.rrep_step hok hi rfl
  | timer v =>
      unfold RouteNet.step at hstep
      by_cases ht : (s.node v).rreqconn.c.t = true
      · cases hsend : ({ (s.node v).rreqconn.c with t := false } : IpoliteConn _).send with
        | error f =>
            simp only [if_pos ht, hsend] at hstep
            cases hstep
        | ok r =>
            obtain ⟨ipolite, sent⟩ := r
            simp only [if_pos ht, hsend] at hstep
            cases hstep
            obtain ⟨rfl, hq, hfreed⟩ := IpoliteConn.send_eq hsend
            exact h.update_conn rfl (h.kept v) (.inr hq) (hfreed.trans (h.freed v)) rfl
      · simp only [if_neg ht] at hstep
        cases hstep
  | timeout v =>
      unfold RouteNet.step at hstep
      by_cases ht : (s.node v).t = true
      · simp only [if_pos ht] at hstep
        cases hstep
        exact h.update_conn rfl nofun (.inl rfl) (h.freed v) rfl
      · simp only [if_neg ht] at hstep
        cases hstep

/-! ## Runs -/

/-- The networks in the runs whose events all meet `ok`. -/
def Reached (ok : RouteNet size → RouteEvent size → Prop) : RouteNet size → Prop :=
  Reaches RouteNet.step ok Opened

lemma Opened.grounded (h : s.Opened) : s.Grounded := by
  obtain ⟨hnode, hrreqs, hrreps⟩ := h
  have hopened : ∀ v, (s.node v).routeTable = [] ∧ (s.node v).rreqconn.c.q = none ∧
      (s.node v).rreqconn.c.freed = false := by
    intro v
    obtain ⟨queueTime, hv⟩ := hnode v
    rw [hv]
    exact ⟨rfl, rfl, rfl⟩
  refine ⟨fun v e he => ?_, fun x hx => ?_, fun x hx => ?_, fun v p hp => ?_, fun v => (hopened v).2.2,
    fun v _ => (hopened v).2.1⟩
  · rw [(hopened v).1] at he
    cases he
  · rw [hrreqs] at hx
    cases hx
  · rw [hrreps] at hx
    cases hx
  · rw [(hopened v).2.1] at hp
    cases hp

/-- **Routes are free of loops**, in every run in which no table overflows, no best entry is replaced by a
dearer one, and no node looks for a route while it keeps a request to be sent on. -/
theorem loopFree (h : Reached Improving s) : s.LoopFree :=
  (Reaches.invariant (fun _ h => h.grounded) (fun _ _ _ hs hok hstep => hs.step hok hstep) h :
    s.Grounded).noCycle

/-! ## A loop -/

/-- A network of nodes that keep every request before they send it on. -/
def startNet : RouteNet 2 := { node := fun _ => .opened 2 10, rreqs := [], rreps := [] }

lemma startNet_opened : startNet.Opened := ⟨fun _ => ⟨10, rfl⟩, rfl, rfl⟩

/-- Node 1 looks for node 2, which hears the request and answers, and has a route then. -/
theorem loopFree_reply :
    ∃ s : RouteNet 2, s.nextHop (.short 2) (.short 1) = some (.short 2) ∧ s.LoopFree := by
  have hends : (runGuarded RouteNet.step Improving startNet [.discover (.short 1) (.short 2),
      .rreq (.short 2) 0 true true, .rrep 0]).map (fun s => s.nextHop (.short 2) (.short 1)) =
        some (some (.short 2)) := by decide
  obtain ⟨s, hrun, hnext⟩ := Option.map_eq_some_iff.mp hends
  exact ⟨s, hnext, loopFree ((Reaches.initial startNet_opened).of_runGuarded hrun)⟩

/-- Node `n` gets the request and sends it on. -/
def relay (n : UInt8) (i : ℕ) : List (RouteEvent 2) :=
  [.rreq (.short n) i true true, .timer (.short n)]

/-- Node `n` gets the request. -/
def hear (n : UInt8) (i : ℕ) : RouteEvent 2 := .rreq (.short n) i true true

/-- Node 1 looks three times for a route to node 9, which there is not.  The neighbours are 1 and 4,
1 and 2, 2 and 3, 3 and 4, 4 and 5, 4 and 6, 5 and 6.  Each time another copy is lost: node 5 gets the
first request from 4 and node 6 from 5; node 6 gets the second from 4 and node 5 from 6; the third
comes to node 4 by way of 2 and 3, and from there to both. -/
def threeRequests : List (RouteEvent 2) :=
  [.discover (.short 1) (.short 9)] ++ relay 4 0 ++ relay 5 1 ++ [hear 6 2, .timeout (.short 1)] ++
  [.discover (.short 1) (.short 9)] ++ relay 4 3 ++ relay 6 4 ++ [hear 5 5, .timeout (.short 1)] ++
  [.discover (.short 1) (.short 9)] ++ relay 2 6 ++ relay 3 7 ++ relay 4 8 ++ [hear 5 9, hear 6 9]

/-- Nodes 5 and 6 send what is for node 1 to each other. -/
theorem not_loopFree : ¬∀ s : RouteNet 2, Reached NoOverflow s → s.LoopFree := by
  intro h
  have hends : (runGuarded RouteNet.step NoOverflow startNet threeRequests).map (fun s =>
      (s.nextHop (.short 1) (.short 5), s.nextHop (.short 1) (.short 6))) =
        some (some (.short 6), some (.short 5)) := by decide
  obtain ⟨s, hrun, hnext⟩ := Option.map_eq_some_iff.mp hends
  obtain ⟨hfive, hsix⟩ := Prod.mk.inj hnext
  have hreached : Reached NoOverflow s := (Reaches.initial startNet_opened).of_runGuarded hrun
  have hpath := h s hreached (.short 1) [.short 5, .short 6, .short 5]
    (List.isChain_cons_cons.mpr ⟨hfive, List.isChain_cons_cons.mpr ⟨hsix, .singleton _⟩⟩)
  revert hpath
  decide

end RouteNet
end Rime
end Contiki

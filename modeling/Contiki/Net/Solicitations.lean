import Contiki.Net.AddressResolution
import Contiki.Net.Ds6Periodic
import Contiki.Net.SourceRouteInsertion

/-!
# What becomes of a solicitation

`uip_nd6_ns_output` builds a solicitation in the only packet buffer, and `tcpip_ipv6_output` sends what
it finds there: to all neighbours, or by way of the next hop.

* `IpStack.uipNd6NsOutput_holds` — the solicitation is built.
* `IpStack.Delivers` — it is sent to a neighbour as it is.
* `IpStack.output_of_delivers`, `IpStack.delivers_of_output` — when it is the first packet that is sent.
-/

namespace Contiki

/-- A solicitation: its target, the neighbour that it is sent to alone, and its length. -/
structure Solicitation where
  tgt : IpAddr
  dest : Option IpAddr
  len : UInt16
  deriving DecidableEq

/-- The length of a solicitation, for an address of the node or for another one. -/
def nsLen (mine : Bool) : UInt16 := if mine then 64 else 80

namespace Transmission

/-- An octet of the packet. -/
def octet (tr : Transmission) (k : ℕ) : UInt8 := tr.bytes.getD k 0

/-- The packet is a solicitation for an address. -/
def Solicits (tr : Transmission) (a : IpAddr) : Prop :=
  tr.octet 6 = 58 ∧ tr.octet 40 = 135 ∧ addrAt tr.octet 48 = a

instance instDecidableSolicits (tr : Transmission) (a : IpAddr) : Decidable (tr.Solicits a) :=
  inferInstanceAs (Decidable (_ ∧ _ ∧ _))

lemma Solicits.unique {tr : Transmission} {a b : IpAddr} (ha : tr.Solicits a) (hb : tr.Solicits b) :
    a = b := ha.2.2.symm.trans hb.2.2

end Transmission

namespace IpStack
variable {cfg : StackConfig} {δ : Type} (s s' : IpStack cfg δ)

/-- The solicitation is in `uip_buf`. -/
structure HoldsNs (m : Solicitation) : Prop where
  len : s.uipBuf.len = m.len
  proto : s.uipBuf.bytes 6 = 58
  type : s.uipBuf.bytes 40 = 135
  tgt : addrAt s.uipBuf.bytes 48 = m.tgt
  dest : s.uipBuf.destipaddr = m.dest.getD m.tgt.uipCreateSolicitedNode

/-- The first packet that is sent on the way from one state to another is a solicitation for an address.  A
packet that takes a source route does not count: it leaves with a routing header. -/
def FirstSent (a : IpAddr) : Prop :=
  s.srcRouteTaken = none ∧
    ∃ later tr, s'.sent = later ++ tr :: s.sent ∧ Transmission.Solicits tr a

/-- The next hop of a packet to a unicast address, without source routes. -/
def plainHop (dest : IpAddr) : Option IpAddr :=
  if s.node.isAddrOnlink dest then some dest
  else
    match s.srcRoutingTable.uipDs6SrcRouteLookup dest with
    | some _ => none
    | none =>
      match uipDs6RouteLookup s.routingTable dest with
      | some i => some (s.routingTable i).nexthop
      | none => s.uipDs6DefrtChoose

/-- The link-layer address of a neighbour is known. -/
def Resolved (a : IpAddr) : Prop :=
  ∃ i, s.uipDs6NbrLookup a = some i ∧ (s.nbrCache i).state ≠ .incomplete

/-- The solicitation is not too long, and is sent to all neighbours, or by way of a neighbour whose
link-layer address is known. -/
def Delivers (m : Solicitation) : Prop :=
  m.len ≤ s.node.linkMtu ∧ ∀ dest, m.dest = some dest →
    dest.uipIsAddrUnspecified = false ∧
      (dest.uipIsAddrMcast = true ∨ ∃ hop, s.plainHop dest = some hop ∧ s.Resolved hop)

variable {s s'} {m : Solicitation} {a b : IpAddr} {i : Fin cfg.nbrNb}

/-! ## The solicitation -/

lemma addrAt_of_holds {bytes : ℕ → UInt8} {pos : ℕ} {a : IpAddr} (h : Holds bytes pos a.u8) :
    addrAt bytes pos = a := by
  have hcopy : copyBytes bytes pos a.u8.length = a.u8 := h.map_range
  rw [a.length_u8] at hcopy
  unfold addrAt
  rw [hcopy, IpAddr.ofBytes_self]

lemma writeBuf_of_notMem {pos k : ℕ} {l : List UInt8} (h : k < pos ∨ pos + l.length ≤ k) :
    (s.writeBuf pos l).uipBuf.bytes k = s.uipBuf.bytes k := memcpy_of_notMem h

lemma holds_writeBuf (s : IpStack cfg δ) (pos : ℕ) (l : List UInt8) :
    Holds (s.writeBuf pos l).uipBuf.bytes pos l := holds_memcpy _ _ _

/-- Writes to other parts of the packet leave the solicitation as it is. -/
lemma HoldsNs.writeBuf (h : s.HoldsNs m) {pos : ℕ} {l : List UInt8}
    (hdisj : pos + l.length ≤ 6 ∨ 8 ≤ pos ∧ pos + l.length ≤ 24 ∨ 41 ≤ pos ∧ pos + l.length ≤ 48 ∨
      64 ≤ pos) : (s.writeBuf pos l).HoldsNs m := by
  have hbyte : ∀ k, k = 6 ∨ 24 ≤ k ∧ k ≤ 40 ∨ 48 ≤ k ∧ k < 64 →
      (s.writeBuf pos l).uipBuf.bytes k = s.uipBuf.bytes k := fun k hk =>
    memcpy_of_notMem (by omega)
  have haddr : ∀ start, start = 24 ∨ start = 48 →
      copyBytes (s.writeBuf pos l).uipBuf.bytes start 16 = copyBytes s.uipBuf.bytes start 16 :=
    fun start hstart => List.map_congr_left fun k hk => hbyte _ (by
      have hk := List.mem_range.mp hk
      omega)
  refine ⟨h.len, (hbyte 6 (.inl rfl)).trans h.proto, (hbyte 40 (by omega)).trans h.type, ?_, ?_⟩
  · rw [← h.tgt]
    unfold addrAt
    rw [haddr 48 (.inr rfl)]
  · rw [← h.dest]
    unfold UipBuf.destipaddr
    rw [haddr 24 (.inl rfl)]

lemma HoldsNs.setLen (h : s.HoldsNs m) (len : UInt16) : (s.setLen len).HoldsNs { m with len } :=
  ⟨rfl, h.proto, h.type, h.tgt, h.dest⟩

lemma HoldsNs.writeIcmpchksum (h : s.HoldsNs m) (hext : s.uipExtLen = 0) :
    s.writeIcmpchksum.HoldsNs m := by
  have hpos : s.icmpPos = 40 := by
    unfold icmpPos
    rw [hext]
    rfl
  have hzero : (s.writeBuf (s.icmpPos + 2) [0, 0]).icmpPos = 40 := hpos
  refine (h.writeBuf ?_).writeBuf ?_
  · rw [hpos]
    exact .inr (.inr (.inl ⟨by omega, by show 42 + 2 ≤ 48; omega⟩))
  · rw [hzero]
    exact .inr (.inr (.inl ⟨by omega, by show 42 + 2 ≤ 48; omega⟩))

/-- The part of a solicitation that is the same for all sources. -/
def nsHead (s : IpStack cfg δ) (dest : Option IpAddr) (tgt : IpAddr) : IpStack cfg δ :=
  let s : IpStack cfg δ := { s with uipExtLen := 0 }
  let s := s.writeBuf 0 [0x60, 0, 0, 0]
  let s := s.writeBuf 6 [58, 255]
  let s := s.setDestipaddr (dest.getD tgt.uipCreateSolicitedNode)
  let s := s.writeBuf 40 [135, 0]
  s.writeBuf 44 ([0, 0, 0, 0] ++ tgt.u8)

lemma writeBuf_node (s : IpStack cfg δ) (pos : ℕ) (l : List UInt8) :
    (s.writeBuf pos l).node = s.node := rfl

lemma writeBuf_uipExtLen (s : IpStack cfg δ) (pos : ℕ) (l : List UInt8) :
    (s.writeBuf pos l).uipExtLen = s.uipExtLen := rfl

lemma writeBuf_len (s : IpStack cfg δ) (pos : ℕ) (l : List UInt8) :
    (s.writeBuf pos l).uipBuf.len = s.uipBuf.len := rfl

lemma nsHead_node (s : IpStack cfg δ) (dest : Option IpAddr) (tgt : IpAddr) :
    (s.nsHead dest tgt).node = s.node := by
  unfold nsHead setDestipaddr
  rw [writeBuf_node, writeBuf_node, writeBuf_node, writeBuf_node, writeBuf_node]

lemma nsHead_uipExtLen (s : IpStack cfg δ) (dest : Option IpAddr) (tgt : IpAddr) :
    (s.nsHead dest tgt).uipExtLen = 0 := by
  unfold nsHead setDestipaddr
  rw [writeBuf_uipExtLen, writeBuf_uipExtLen, writeBuf_uipExtLen, writeBuf_uipExtLen, writeBuf_uipExtLen]

lemma nsHead_holds (s : IpStack cfg δ) (dest : Option IpAddr) (tgt : IpAddr) :
    (s.nsHead dest tgt).HoldsNs ⟨tgt, dest, s.uipBuf.len⟩ := by
  have hdest := (dest.getD tgt.uipCreateSolicitedNode).length_u8
  unfold nsHead setDestipaddr
  refine ⟨?_, ?_, ?_, ?_, ?_⟩
  · rw [writeBuf_len, writeBuf_len, writeBuf_len, writeBuf_len, writeBuf_len]
  · rw [writeBuf_of_notMem (.inl (by omega)), writeBuf_of_notMem (.inl (by omega)),
      writeBuf_of_notMem (.inl (by omega))]
    exact (holds_writeBuf _ 6 [58, 255]).1
  · rw [writeBuf_of_notMem (.inl (by omega))]
    exact (holds_writeBuf _ 40 [135, 0]).1
  · exact addrAt_of_holds (holds_append.mp (holds_writeBuf _ 44 ([0, 0, 0, 0] ++ tgt.u8))).2
  · exact addrAt_of_holds (((holds_memcpy _ 24 _).memcpy (.inl (by omega))).memcpy (.inl (by omega)))

lemma uipNd6NsOutput_eq (s : IpStack cfg δ) (src dest : Option IpAddr) (tgt : IpAddr) :
    s.uipNd6NsOutput src dest tgt =
      let t := s.nsHead dest tgt
      (if t.node.isMyAddr tgt = false then
        (((t.setSrcipaddr (src.getD (uipDs6SelectSrc t.node.addrList t.uipBuf.destipaddr))).writeBuf 4
          [0, 4 + 20 + 16]).writeBuf 64 (createLlao t.uipLladdr 1)).setLen (40 + 4 + 20 + 16)
      else ((t.setSrcipaddr .unspecified).writeBuf 4 [0, 4 + 20]).setLen (40 + 4 + 20)).writeIcmpchksum :=
  rfl

/-- `uip_nd6_ns_output` builds the solicitation. -/
lemma uipNd6NsOutput_holds (s : IpStack cfg δ) (src dest : Option IpAddr) (tgt : IpAddr) :
    (s.uipNd6NsOutput src dest tgt).HoldsNs ⟨tgt, dest, nsLen (s.node.isMyAddr tgt)⟩ := by
  have hhead := s.nsHead_holds dest tgt
  have hext := s.nsHead_uipExtLen dest tgt
  have hsrc : ∀ a : IpAddr, ((s.nsHead dest tgt).setSrcipaddr a).HoldsNs ⟨tgt, dest, s.uipBuf.len⟩ :=
    fun a => hhead.writeBuf (by
      rw [a.length_u8]
      omega)
  have hshort : ∀ n : UInt8, 4 + [0, n].length ≤ 6 := fun _ => Nat.le_refl _
  have hnode := s.nsHead_node dest tgt
  rw [uipNd6NsOutput_eq, ← hnode]
  dsimp only
  generalize s.nsHead dest tgt = t at hext hsrc
  split_ifs with hmine
  · rw [show nsLen (t.node.isMyAddr tgt) = 40 + 4 + 20 + 16 by rw [hmine]; rfl]
    exact ((((hsrc _).writeBuf (.inl (hshort _))).writeBuf (.inr (.inr (.inr (Nat.le_refl _))))).setLen
      _).writeIcmpchksum hext
  · rw [show nsLen (t.node.isMyAddr tgt) = 40 + 4 + 20 by rw [eq_true_of_ne_false hmine]; rfl]
    exact (((hsrc _).writeBuf (.inl (hshort _))).setLen _).writeIcmpchksum hext

lemma HoldsNs.congr (h : s.HoldsNs m) (hbuf : s'.uipBuf = s.uipBuf) : s'.HoldsNs m := by
  obtain ⟨hlen, hproto, htype, htgt, hdest⟩ := h
  constructor <;> rw [hbuf]
  · exact hlen
  · exact hproto
  · exact htype
  · exact htgt
  · exact hdest

/-- The packet that is sent when the solicitation is in `uip_buf`. -/
lemma HoldsNs.solicits (h : s.HoldsNs m) (hlen : 64 ≤ m.len.toNat) (lladdr : Option Lladdr) :
    Transmission.Solicits ⟨lladdr, copyBytes s.uipBuf.bytes 0 s.uipBuf.len.toNat⟩ m.tgt := by
  have hoctet : ∀ k < 64, (⟨lladdr, copyBytes s.uipBuf.bytes 0 s.uipBuf.len.toNat⟩ :
      Transmission).octet k = s.uipBuf.bytes k := by
    intro k hk
    have hlt : k < (copyBytes s.uipBuf.bytes 0 s.uipBuf.len.toNat).length := by
      rw [length_copyBytes, h.len]
      omega
    show (copyBytes s.uipBuf.bytes 0 s.uipBuf.len.toNat).getD k 0 = _
    rw [List.getD_eq_getElem _ _ hlt, ← (holds_copyBytes _ _ _).get k hlt, Nat.zero_add]
  refine ⟨(hoctet 6 (by omega)).trans h.proto, (hoctet 40 (by omega)).trans h.type, ?_⟩
  rw [← h.tgt]
  unfold addrAt copyBytes
  congr 1
  refine List.map_congr_left fun k hk => hoctet _ ?_
  have hk := List.mem_range.mp hk
  omega

/-! ## What is sent -/

/-- No packet is sent. -/
lemma not_firstSent (h : s'.sent = s.sent) : ¬s.FirstSent s' a := by
  rintro ⟨-, later, tr, hsent, -⟩
  have hlen := congrArg List.length (h.symm.trans hsent)
  rw [List.length_append, List.length_cons] at hlen
  omega

/-- The first packet that is sent is known. -/
lemma FirstSent.solicits (h : s.FirstSent s' a) {later : List Transmission} {tr : Transmission}
    (hsent : s'.sent = later ++ tr :: s.sent) : Transmission.Solicits tr a := by
  obtain ⟨-, later', tr', hsent', htr⟩ := h
  have heq : (later ++ [tr]) ++ s.sent = (later' ++ [tr']) ++ s.sent := by
    rw [List.append_assoc, List.append_assoc]
    exact hsent.symm.trans hsent'
  obtain ⟨-, hlast⟩ := List.append_inj' (List.append_cancel_right heq) rfl
  rwa [(List.cons.inj hlast).1]

lemma uipDs6NbrRm_sent (s : IpStack cfg δ) (i : Fin cfg.nbrNb) : (s.uipDs6NbrRm i).sent = s.sent := by
  unfold uipDs6NbrRm uipPacketqueueFree
  split <;> rfl

lemma uipDs6NbrAdd_sent (s : IpStack cfg δ) (ipaddr : IpAddr) (lladdr : Option Lladdr) (isrouter : Bool)
    (state : NbrState) : (s.uipDs6NbrAdd ipaddr lladdr isrouter state).2.sent = s.sent := by
  unfold uipDs6NbrAdd
  generalize 2 = calls
  induction calls generalizing s with
  | zero => rfl
  | succ calls ih =>
    rw [nbrAddFrom]
    split
    · rfl
    · rfl
    · split
      · rw [ih, uipDs6NbrRm_sent]
      · rfl

/-- Nothing is sent, and the entries of the cache keep their addresses and their counters. -/
structure SameCounts (s s' : IpStack cfg δ) : Prop where
  sent : s'.sent = s.sent
  node : s'.node = s.node
  nscount : ∀ i, (s'.nbrCache i).nscount = (s.nbrCache i).nscount
  element : ∀ i, (s'.nbrCache i).toDs6Element = (s.nbrCache i).toDs6Element

namespace SameCounts
variable {s'' : IpStack cfg δ}

lemma refl (s : IpStack cfg δ) : SameCounts s s := ⟨rfl, rfl, fun _ => rfl, fun _ => rfl⟩

lemma trans (h : SameCounts s s') (h' : SameCounts s' s'') : SameCounts s s'' :=
  ⟨h'.sent.trans h.sent, h'.node.trans h.node, fun i => (h'.nscount i).trans (h.nscount i),
    fun i => (h'.element i).trans (h.element i)⟩

/-- An entry is changed behind other changes. -/
lemma setNbr (h : SameCounts s s') {f : Ds6Nbr cfg.clockWidth → Ds6Nbr cfg.clockWidth}
    (hcount : ∀ n, (f n).nscount = n.nscount) (helem : ∀ n, (f n).toDs6Element = n.toDs6Element) :
    SameCounts s (s'.setNbr i f) := by
  refine h.trans ⟨rfl, rfl, fun j => ?_, fun j => ?_⟩
  · by_cases hj : j = i
    · rw [hj, setNbr_self, hcount]
    · rw [setNbr_of_ne hj]
  · by_cases hj : j = i
    · rw [hj, setNbr_self, helem]
    · rw [setNbr_of_ne hj]

end SameCounts

lemma sameCounts_uipPacketqueueFree (s : IpStack cfg δ) (i : Fin cfg.nbrNb) :
    SameCounts s (s.uipPacketqueueFree i) := by
  unfold uipPacketqueueFree
  split
  · exact .refl s
  · rename_i b _
    have hmemb : SameCounts s { s.setLifetimer b none with
        packetsMemb := (s.setLifetimer b none).packetsMemb.free b } := ⟨rfl, rfl, fun _ => rfl, fun _ => rfl⟩
    exact hmemb.setNbr (fun _ => rfl) fun _ => rfl

lemma sameCounts_park (h : s.park i = .ok s') : SameCounts s s' := by
  unfold park at h
  cases halloc : s.uipPacketqueueAlloc i with
  | none =>
    rw [halloc] at h
    cases h
    exact .refl s
  | some r =>
    obtain ⟨b, t⟩ := r
    rw [halloc] at h
    dsimp only at h
    unfold uipPacketqueueAlloc at halloc
    split_ifs at halloc h
    cases h
    obtain ⟨⟨c, memb⟩, -, heq⟩ := Option.map_eq_some_iff.mp halloc
    cases heq
    have hmemb : SameCounts s { s with packetsMemb := memb } := ⟨rfl, rfl, fun _ => rfl, fun _ => rfl⟩
    have halloc : SameCounts s (({ s with packetsMemb := memb } : IpStack cfg δ).setNbr i fun n =>
        { n with packethandle := some b }) := hmemb.setNbr (fun _ => rfl) fun _ => rfl
    exact halloc.trans ⟨rfl, rfl, fun _ => rfl, fun _ => rfl⟩

/-- A packet that waited is sent, or nothing. -/
lemma outputParked_sent (s : IpStack cfg δ) (i : Fin cfg.nbrNb) :
    ∃ later, (s.outputParked i).sent = later ++ s.sent := by
  unfold outputParked
  split
  · exact ⟨[], rfl⟩
  · dsimp only
    split_ifs
    · refine ⟨[_], congrArg (List.cons _) ?_⟩
      exact (sameCounts_uipPacketqueueFree _ i).sent
    · exact ⟨[], rfl⟩

/-- The packet is sent to a neighbour whose link-layer address is known, and perhaps one that waited. -/
lemma outputKnown_sent (s : IpStack cfg δ) (i : Fin cfg.nbrNb) :
    ∃ later lladdr, (s.outputKnown i).sent =
      later ++ ⟨lladdr, copyBytes s.uipBuf.bytes 0 s.uipBuf.len.toNat⟩ :: s.sent := by
  unfold outputKnown
  dsimp only
  obtain ⟨t, ht, hsent, hbuf⟩ : ∃ t, (if (s.nbrCache i).state = .stale then
      s.setNbr i fun n => { n with state := .delay, reachable := .set s.clockSeconds 5, nscount := 0 }
    else s) = t ∧ t.sent = s.sent ∧ t.uipBuf = s.uipBuf := by
    split_ifs
    · exact ⟨_, rfl, rfl, rfl⟩
    · exact ⟨_, rfl, rfl, rfl⟩
  rw [ht]
  obtain ⟨t', ht', hsent', hbuf'⟩ : ∃ t', (t.setNbr i fun n =>
      { n with sendns := .set t.clockSeconds (t.retransTimer / 1000) }) = t' ∧
      t'.sent = t.sent ∧ t'.uipBuf = t.uipBuf := ⟨_, rfl, rfl, rfl⟩
  rw [ht']
  obtain ⟨later, hlater⟩ := (t'.tcpipOutput (some (t'.nbrCache i).lladdr)).outputParked_sent i
  refine ⟨later, some (t'.nbrCache i).lladdr, hlater.trans ?_⟩
  show later ++ ⟨_, copyBytes t'.uipBuf.bytes 0 t'.uipBuf.len.toNat⟩ :: t'.sent = _
  rw [hsent', hbuf', hsent, hbuf]

lemma nsLen_ge (mine : Bool) : 64 ≤ (nsLen mine).toNat := by
  cases mine <;> decide

/-- A neighbour that was not in the cache is asked for its link-layer address. -/
lemma outputNew_sent (h : s.outputNew i = .ok s') :
    ∃ tr, s'.sent = tr :: s.sent ∧ Transmission.Solicits tr (s.nbrCache i).ipaddr := by
  unfold outputNew at h
  obtain ⟨t, hpark, h⟩ := bind_eq_ok.mp h
  cases h
  have hsame := sameCounts_park hpark
  have haddr : (t.nbrCache i).ipaddr = (s.nbrCache i).ipaddr :=
    congrArg Ds6Element.ipaddr (hsame.element i)
  rw [← haddr, ← hsame.sent]
  generalize (if t.node.isMyAddr t.uipBuf.srcipaddr = true then some t.uipBuf.srcipaddr else none) = src
  have hns := uipNd6NsOutput_holds t src none (t.nbrCache i).ipaddr
  have hsent := (onlyPacket_uipNd6NsOutput t src none (t.nbrCache i).ipaddr).sent
  generalize t.uipNd6NsOutput src none (t.nbrCache i).ipaddr = t' at hns hsent
  rw [← hsent]
  exact ⟨_, rfl, hns.solicits (nsLen_ge _) none⟩

/-! ## The next hop -/

lemma uipCreateSolicitedNode_mcast (a : IpAddr) :
    a.uipCreateSolicitedNode.uipIsAddrMcast = true ∧
      a.uipCreateSolicitedNode.uipIsAddrUnspecified = false := by
  have hlen : ([0xFF, 0x02, 0, 0, 0, 0, 0, 0, 0, 0, 0, 0x01, 0xFF] ++ a.u8.drop 13).length = 16 := by
    rw [List.length_append, List.length_drop, a.length_u8]
    rfl
  have hfirst : a.uipCreateSolicitedNode.u8.getD 0 0 = 0xFF := by
    unfold IpAddr.uipCreateSolicitedNode
    rw [IpAddr.ofBytes_u8 hlen]
    rfl
  refine ⟨by rw [IpAddr.uipIsAddrMcast, hfirst]; rfl, List.all_eq_false.mpr ⟨0, by decide, ?_⟩⟩
  rw [IpAddr.u16Zero, Nat.mul_zero, hfirst]
  exact Bool.false_ne_true

/-- A packet without a source route keeps its form on the way to the next hop. -/
lemma nextHop_eq (hnone : s.srcRouteTaken = none) (hlen : s.uipBuf.len ≠ 0)
    (hmtu : ¬s.uipBuf.len > s.node.linkMtu) (hunspec : s.uipBuf.destipaddr.uipIsAddrUnspecified = false)
    (hmcast : s.uipBuf.destipaddr.uipIsAddrMcast = false) :
    s.nextHop = .ok ((s.plainHop s.uipBuf.destipaddr).map (·, s)) := by
  unfold nextHop plainHop
  dsimp only
  by_cases hlink : s.node.isAddrOnlink s.uipBuf.destipaddr = true
  · rw [if_pos hlink, if_pos hlink]
    rfl
  · have hroute : s.srcRoutingTable.uipDs6SrcRouteLookup s.uipBuf.destipaddr = none := by
      unfold srcRouteTaken at hnone
      dsimp only at hnone
      rwa [if_neg] at hnone
      rintro (h | h | h | h | h)
      · exact hlen h
      · exact hmtu h
      · exact absurd h (by rw [hunspec]; exact Bool.false_ne_true)
      · exact absurd h (by rw [hmcast]; exact Bool.false_ne_true)
      · exact hlink h
    rw [if_neg hlink, if_neg hlink, hroute]
    dsimp only
    cases uipDs6RouteLookup s.routingTable s.uipBuf.destipaddr with
    | none => rfl
    | some i => rfl

lemma srcRouteTaken_of_plainHop {hop : IpAddr} (h : s.plainHop s.uipBuf.destipaddr = some hop) :
    s.srcRouteTaken = none := by
  unfold plainHop at h
  unfold srcRouteTaken
  dsimp only
  split_ifs at h ⊢ with hskip hlink hlink
  · rfl
  · rfl
  · exact absurd (.inr (.inr (.inr (.inr hlink)))) hskip
  · cases hroute : s.srcRoutingTable.uipDs6SrcRouteLookup s.uipBuf.destipaddr with
    | none => rfl
    | some r =>
      rw [hroute] at h
      cases h

/-! ## Transmission -/

/-- A packet that is sent to all neighbours. -/
lemma firstSent_mcast (hns : s.HoldsNs m) (hlen : 64 ≤ m.len.toNat) (hnone : s.srcRouteTaken = none) :
    s.FirstSent (s.tcpipOutput none).outputDone m.tgt :=
  ⟨hnone, [], _, rfl, hns.solicits hlen none⟩

lemma firstSent_known (hns : s.HoldsNs m) (hlen : 64 ≤ m.len.toNat) (hnone : s.srcRouteTaken = none)
    (i : Fin cfg.nbrNb) : s.FirstSent (s.outputKnown i) m.tgt := by
  obtain ⟨later, lladdr, hsent⟩ := s.outputKnown_sent i
  exact ⟨hnone, later, _, hsent, hns.solicits hlen lladdr⟩

/-- The solicitation is sent as it is. -/
theorem output_of_delivers (hns : s.HoldsNs m) (hlen : 64 ≤ m.len.toNat) (h : s.Delivers m) :
    ∃ s', s.tcpipIpv6Output = .ok s' ∧ s.FirstSent s' m.tgt := by
  obtain ⟨hmtu, hdest⟩ := h
  have hpos : ¬s.uipBuf.len = 0 := by
    rw [hns.len]
    intro hzero
    rw [hzero] at hlen
    exact absurd hlen (by decide)
  have hmtu : ¬s.uipBuf.len > s.node.linkMtu := by
    rw [hns.len]
    exact UInt16.not_lt.mpr hmtu
  have hmcast : s.uipBuf.destipaddr.uipIsAddrMcast = true →
      s.uipBuf.destipaddr.uipIsAddrUnspecified = false →
      ∃ s', s.tcpipIpv6Output = .ok s' ∧ s.FirstSent s' m.tgt := by
    intro hmcast hunspec
    refine ⟨(s.tcpipOutput none).outputDone, ?_, firstSent_mcast hns hlen ?_⟩
    · unfold tcpipIpv6Output
      rw [if_neg hpos, if_neg, if_pos hmcast]
      rintro (h | h)
      · exact hmtu h
      · exact absurd h (by rw [hunspec]; exact Bool.false_ne_true)
    · exact if_pos (.inr (.inr (.inr (.inl hmcast))))
  cases hd : m.dest with
  | none =>
    have heq : s.uipBuf.destipaddr = m.tgt.uipCreateSolicitedNode := by rw [hns.dest, hd]; rfl
    obtain ⟨h₁, h₂⟩ := uipCreateSolicitedNode_mcast m.tgt
    exact hmcast (by rw [heq]; exact h₁) (by rw [heq]; exact h₂)
  | some dest =>
    have heq : s.uipBuf.destipaddr = dest := by rw [hns.dest, hd]; rfl
    obtain ⟨hunspec, hway⟩ := hdest dest hd
    rw [← heq] at hunspec hway
    by_cases hm : s.uipBuf.destipaddr.uipIsAddrMcast = true
    · exact hmcast hm hunspec
    · rcases hway with h | ⟨hop, hhop, i, hlook, hknown⟩
      · exact absurd h hm
      · have hnone := srcRouteTaken_of_plainHop hhop
        refine ⟨s.outputKnown i, ?_, firstSent_known hns hlen hnone i⟩
        unfold tcpipIpv6Output
        rw [if_neg hpos, if_neg, if_neg hm, nextHop_eq hnone hpos hmtu hunspec (eq_false_of_ne_true hm),
          hhop]
        · show s.outputTo hop = .ok (s.outputKnown i)
          unfold outputTo
          rw [hlook]
          exact if_neg hknown
        · rintro (h | h)
          · exact hmtu h
          · exact absurd h (by rw [hunspec]; exact Bool.false_ne_true)

/-- A solicitation to one neighbour is for that neighbour, which is in the cache. -/
def ForNeighbour (s : IpStack cfg δ) (m : Solicitation) : Prop :=
  ∀ dest, m.dest = some dest →
    dest = m.tgt ∧ ∃ i, (s.nbrCache i).isused = true ∧ (s.nbrCache i).ipaddr = dest

lemma outputTo_resolved {hop : IpAddr} (hcached : ∃ i, (s.nbrCache i).isused = true ∧
    (s.nbrCache i).ipaddr = a) (h : s.outputTo hop = .ok s') (hsent : s.FirstSent s' a) :
    s.Resolved hop := by
  unfold outputTo at h
  cases hlook : s.uipDs6NbrLookup hop with
  | some i =>
    rw [hlook] at h
    dsimp only at h
    split_ifs at h with hstate
    · obtain ⟨t, hpark, h⟩ := map_eq_ok.mp h
      cases h
      exact absurd hsent (not_firstSent (sameCounts_park hpark).sent)
    · exact ⟨i, hlook, hstate⟩
  | none =>
    rw [hlook] at h
    dsimp only at h
    have hadd := s.uipDs6NbrAdd_sent hop none false .incomplete
    rcases s.uipDs6NbrAdd_cases hop none false .incomplete with ⟨hnone, -, heq⟩ | ⟨i, t, heq, -, -, -, -, hfree⟩
    · cases hres : s.uipDs6NbrAdd hop none false .incomplete with
      | mk i? t =>
        rw [hres] at hnone h hadd
        cases hnone
        cases h
        exact absurd hsent (not_firstSent hadd)
    · -- The solicitation that is sent is for the next hop, which was not in the cache.
      rw [heq] at h hadd
      dsimp only at h hadd
      obtain ⟨tr, htr, hsol⟩ := outputNew_sent h
      rw [hadd] at htr
      rw [fillNbr_self.2] at hsol
      obtain ⟨j, hj⟩ := hcached
      rw [(hsent.solicits (htr.trans (List.nil_append _).symm)).unique hsol] at hj
      exact absurd hj (hfree j)

/-- A solicitation that is sent was to be sent as it is. -/
theorem delivers_of_output (hns : s.HoldsNs m) (hlen : 64 ≤ m.len.toNat) (hcached : s.ForNeighbour m)
    (h : s.tcpipIpv6Output = .ok s') (hsent : s.FirstSent s' m.tgt) : s.Delivers m := by
  have hpos : ¬s.uipBuf.len = 0 := by
    rw [hns.len]
    intro hzero
    rw [hzero] at hlen
    exact absurd hlen (by decide)
  have hkept : ∀ len, ¬s.FirstSent (s.setLen len) m.tgt := fun len => not_firstSent rfl
  unfold tcpipIpv6Output at h
  rw [if_neg hpos] at h
  split_ifs at h with hdrop hmcast
  · cases h
    exact absurd hsent (hkept 0)
  all_goals
    obtain ⟨hmtu, hunspec⟩ := not_or.mp hdrop
    have hunspec := eq_false_of_ne_true hunspec
    refine ⟨by rw [← hns.len]; exact UInt16.not_lt.mp hmtu, fun dest hd => ?_⟩
    have heq : s.uipBuf.destipaddr = dest := by rw [hns.dest, hd]; rfl
    rw [← heq]
  · exact ⟨hunspec, .inl hmcast⟩
  · refine ⟨hunspec, .inr ?_⟩
    rw [nextHop_eq hsent.1 hpos hmtu hunspec (eq_false_of_ne_true hmcast)] at h
    cases hhop : s.plainHop s.uipBuf.destipaddr with
    | none =>
      rw [hhop] at h
      cases h
      exact absurd hsent (hkept 0)
    | some hop =>
      rw [hhop] at h
      obtain ⟨htgt, i, hused, haddr⟩ := hcached dest hd
      exact ⟨hop, rfl, outputTo_resolved ⟨i, hused, haddr.trans htgt⟩ h hsent⟩

end IpStack
end Contiki

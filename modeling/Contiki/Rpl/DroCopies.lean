import Contiki.Rpl.Dereference
import Contiki.Rpl.DioRoundtrip
import Contiki.Rpl.SrcRouteHops

/-!
# Copies of a reply

A reply is sent to all neighbours, and every node that finds its own address at position Rem sends it on
to all of its neighbours, so that copies of it are under way in parallel.  They differ in Rem alone, and
Rem counts down; whichever of them the origin of the discovery hears, it finds the whole vector in it.

* `DroHead.message` — the reply with a given Rem.
* `droInput_repeats_iff` — who repeats a copy, and what is sent.
* `droInput_stores` — what the origin stores when it hears a copy.
* `droOutput_copies` — all copies of a reply.
-/

namespace Contiki

/-- The parts of a reply other than Rem.  `fields` and `lifetime` are the two bytes of the route discovery
option in front of the addresses. -/
structure DroHead where
  instanceId : UInt8
  version : UInt8
  flags : UInt8
  dagId : IpAddr
  fields : UInt8
  lifetime : UInt8
  target : UInt8
  addrs : List UInt8

namespace DroHead
variable (h : DroHead)

/-- The reply in front of Rem. -/
def front : List UInt8 :=
  [h.instanceId, h.version, h.flags, 0] ++ h.dagId.u8 ++
    [rplDioSuboptRouteDiscovery, UInt8.ofNat (3 + h.addrs.length), h.fields]

/-- The byte with Rem; the lifetime is in its two highest bits. -/
def remByte (rem : ℕ) : UInt8 :=
  (h.lifetime &&& ~~~rplP2pRdoRMask) ||| (UInt8.ofNat rem &&& rplP2pRdoRMask)

/-- The reply with the given Rem. -/
def message (rem : ℕ) : List UInt8 := h.front ++ h.remByte rem :: h.target :: h.addrs

/-- An address with the prefix of the DODAGID. -/
def addr (b : UInt8) : IpAddr := h.dagId.decompress rplP2pRdoCompr.toNat [b]

/-- The hops of the route to the target. -/
def route : List IpAddr := (h.addrs ++ [h.target]).map fun b => (h.addr b).uipCreateLinklocalPrefix

/-- The addresses of the vector are compressed to one byte, and there are not too many for Rem. -/
structure WellFormed : Prop where
  compr : h.fields &&& 0x0f = rplP2pRdoCompr
  sourceRoute : h.fields &&& rplP2pRdoHFlag = 0
  length : h.addrs.length ≤ rplMaxSrcRouteAddrEntries

/-- A reply with the given Rem as a node has received it. -/
def received (buffer : ℕ → UInt8) (rem : ℕ) : Dro := .ofBuffer buffer (h.message rem).length

variable {h} {buffer : ℕ → UInt8} {rem : ℕ}

lemma length_front : h.front.length = 23 := by
  simp only [front, List.length_append, List.length_cons, List.length_nil, h.dagId.length_u8]

lemma length_message : (h.message rem).length = 25 + h.addrs.length := by
  simp only [message, List.length_append, List.length_cons, length_front]
  omega

lemma holds_message : Holds buffer 0 (h.message rem) ↔
    Holds buffer 0 h.front ∧ buffer 23 = h.remByte rem ∧ Holds buffer 24 (h.target :: h.addrs) := by
  rw [message, holds_append, length_front, holds_cons]

/-- The bytes of a reply. -/
structure Lies (h : DroHead) (buffer : ℕ → UInt8) (rem : ℕ) : Prop where
  instanceId : buffer 0 = h.instanceId
  flags : buffer 2 = h.flags
  dagId : Holds buffer 4 h.dagId.u8
  type : buffer 20 = rplDioSuboptRouteDiscovery
  length : buffer 21 = UInt8.ofNat (3 + h.addrs.length)
  fields : buffer 22 = h.fields
  rem : buffer 23 = h.remByte rem
  addrs : Holds buffer 24 (h.target :: h.addrs)

lemma lies_of_holds (hbuffer : Holds buffer 0 (h.message rem)) : h.Lies buffer rem := by
  obtain ⟨hfront, hrem, haddrs⟩ := holds_message.mp hbuffer
  simp only [front, holds_append, holds_cons, holds_nil, and_true, List.length_append,
    List.length_cons, List.length_nil, h.dagId.length_u8] at hfront
  obtain ⟨⟨⟨h0, -, h2, -⟩, hdagId⟩, h20, h21, h22⟩ := hfront
  exact ⟨h0, h2, hdagId, h20, h21, h22, hrem, haddrs⟩

/-! ## Rem -/

/-- The two highest bits of the byte with Rem hold the lifetime. -/
lemma toNat_remByte {k : ℕ} (hk : k < 64) :
    (h.remByte k).toNat = 64 * (h.lifetime.toNat / 64) + k := by
  have hhigh : (h.lifetime &&& ~~~rplP2pRdoRMask).toNat = 64 * (h.lifetime.toNat / 64) := by
    generalize h.lifetime = lifetime
    revert lifetime
    exact byte_cases (by decide +kernel)
  have hlow : (UInt8.ofNat k &&& rplP2pRdoRMask).toNat = k := by
    rw [UInt8.toNat_and, UInt8.toNat_ofNat']
    change k % 256 &&& 2 ^ 6 - 1 = k
    rw [Nat.and_two_pow_sub_one_eq_mod]
    omega
  rw [remByte, UInt8.toNat_or, hhigh, hlow]
  exact (Nat.two_pow_add_eq_or_of_lt (i := 6) hk _).symm

/-! ## What a node reads -/

namespace Lies

lemma pos (hlies : h.Lies buffer rem) : (h.received buffer rem).pos = 20 := by
  simp [received, Dro.ofBuffer, Dro.findRdo, hlies.type]

lemma dodagId (hlies : h.Lies buffer rem) : (h.received buffer rem).dodagId = h.dagId :=
  ofBytes_bytesAt hlies.dagId

lemma compr (hlies : h.Lies buffer rem) (hwell : h.WellFormed) :
    (h.received buffer rem).compr = 15 := by
  rw [Dro.compr, hlies.pos]
  change (buffer 22 &&& 0x0f).toNat = 15
  rw [hlies.fields, hwell.compr]
  rfl

lemma step (hlies : h.Lies buffer rem) (hwell : h.WellFormed) :
    (h.received buffer rem).step = 1 := by
  rw [Dro.step, hlies.compr hwell]

/-- The addresses of the option are the target and the vector. -/
lemma address (hlies : h.Lies buffer rem) (hwell : h.WellFormed) {i : ℕ}
    (hi : i < (h.target :: h.addrs).length) :
    (h.received buffer rem).address i = h.addr (h.target :: h.addrs)[i] := by
  have hbyte : buffer (24 + i) = (h.target :: h.addrs)[i] := hlies.addrs.get i hi
  rw [Dro.address, hlies.dodagId, hlies.compr hwell, hlies.step hwell, hlies.pos, addr, ← hbyte,
    Nat.mul_one]
  rfl

lemma target (hlies : h.Lies buffer rem) (hwell : h.WellFormed) :
    (h.received buffer rem).target = h.addr h.target :=
  hlies.address hwell (Nat.zero_lt_succ _)

lemma rem_eq (hlies : h.Lies buffer rem) (hrem : rem < 64) : (h.received buffer rem).rem = rem := by
  rw [Dro.rem, hlies.pos]
  change (buffer 23 &&& rplP2pRdoRMask).toNat = rem
  have hbyte := h.toNat_remByte hrem
  have hmod : (buffer 23).toNat &&& 2 ^ 6 - 1 = (buffer 23).toNat % 2 ^ 6 :=
    Nat.and_two_pow_sub_one_eq_mod _ 6
  rw [UInt8.toNat_and]
  change (buffer 23).toNat &&& 2 ^ 6 - 1 = rem
  rw [hmod, hlies.rem, hbyte]
  omega

/-- The byte with Rem counts down in Rem alone. -/
lemma rem_pred (hlies : h.Lies buffer rem) (hpos : 0 < rem) (hrem : rem < 64) :
    buffer 23 - 1 = h.remByte (rem - 1) := by
  have hbyte := h.toNat_remByte hrem
  rw [hlies.rem]
  apply UInt8.toNat_inj.mp
  rw [h.toNat_remByte (show rem - 1 < 64 by omega), UInt8.toNat_sub_of_le, hbyte]
  · change 64 * (h.lifetime.toNat / 64) + rem - 1 = _
    omega
  · rw [UInt8.le_iff_toNat_le, hbyte]
    change 1 ≤ _
    omega

/-- What is sent on is the reply with Rem counted down. -/
lemma forwarded (hlies : h.Lies buffer rem) (hbuffer : Holds buffer 0 (h.message rem))
    (hpos : 0 < rem) (hrem : rem < 64) :
    (h.received buffer rem).forwarded = h.message (rem - 1) := by
  have hlength : (h.received buffer rem).length = (h.message (rem - 1)).length := by
    rw [length_message]
    exact length_message
  rw [Dro.forwarded, hlies.pos, hlength]
  apply bytesAt_of_holds
  obtain ⟨hfront, -, haddrs⟩ := holds_message.mp hbuffer
  refine holds_message.mpr ⟨hfront.update _ (.inr ?_), ?_, haddrs.update _ (.inl ?_)⟩
  · rw [length_front]
  · exact (Function.update_self _ _ _).trans (hlies.rem_pred hpos hrem)
  · omega

/-- The vector is what follows the target. -/
lemma vector (hlies : h.Lies buffer rem) {k : ℕ} (hk : k < h.addrs.length) :
    buffer (25 + k) = h.addrs[k] := by
  have hbyte := hlies.addrs.get (k + 1) (Nat.succ_lt_succ hk)
  rw [show 24 + (k + 1) = 25 + k by omega] at hbyte
  exact hbyte

lemma hopByHop (hlies : h.Lies buffer rem) (hwell : h.WellFormed) :
    (h.received buffer rem).hopByHop = false := by
  rw [Dro.hopByHop, hlies.pos]
  change decide (buffer 22 &&& rplP2pRdoHFlag ≠ 0) = false
  rw [hlies.fields, hwell.sourceRoute]
  rfl

end Lies
end DroHead

namespace Node
variable {cfg : Config} {s : Node cfg}

/-! ## At a node -/

/-- The node is the one whose address is at position Rem, and not the origin of the discovery. -/
def RelaysAt (s : Node cfg) (h : DroHead) (rem : ℕ) : Prop :=
  s.isMyAddr h.dagId = false ∧ ∃ k a, rem = k + 1 ∧ h.addrs[k]? = some a ∧ s.isMyAddr (h.addr a) = true

section
variable {h : DroHead} {buffer : ℕ → UInt8} {rem : ℕ} {dst : IpAddr}

lemma RelaysAt.pos (hrelays : s.RelaysAt h rem) : 0 < rem := by
  obtain ⟨-, k, a, rfl, -⟩ := hrelays
  exact Nat.succ_pos k

/-- An intermediate node finds its own address at position Rem, or it is silent. -/
lemma droAtIntermediate_cases (s : Node cfg) (dst : IpAddr) (hwell : h.WellFormed) (hbuffer : Holds buffer 0 (h.message rem))
    (hrem : rem ≤ h.addrs.length) (horigin : s.isMyAddr h.dagId = false) :
    s.RelaysAt h rem ∧ s.droAtIntermediate dst (h.received buffer rem) =
        ([⟨uipDs6SelectSrc s.addrList dst, dst, .dro, h.message (rem - 1)⟩], s) ∨
      ¬s.RelaysAt h rem ∧ s.droAtIntermediate dst (h.received buffer rem) = ([], s) := by
  have hlies := DroHead.lies_of_holds hbuffer
  have hshort : rem < 64 := Nat.lt_of_le_of_lt (hrem.trans hwell.length) (by decide)
  have hlt : rem < (h.target :: h.addrs).length := Nat.lt_succ_of_le hrem
  have haddress := hlies.address hwell hlt
  unfold droAtIntermediate droStoreHop
  rw [hlies.rem_eq hshort, hlies.hopByHop hwell, haddress, if_neg Bool.false_ne_true]
  cases rem with
  | zero => exact .inr ⟨fun hrelays => absurd hrelays.pos (Nat.lt_irrefl 0), if_pos (.inl rfl)⟩
  | succ k =>
    have hk : k < h.addrs.length := hrem
    rw [List.getElem_cons_succ]
    by_cases hmine : s.isMyAddr (h.addr h.addrs[k]) = true
    · refine .inl ⟨⟨horigin, k, _, rfl, List.getElem?_eq_getElem hk, hmine⟩, ?_⟩
      rw [if_neg (by simp [hmine]), hlies.forwarded hbuffer (Nat.succ_pos k) hshort]
    · refine .inr ⟨?_, if_pos (.inr hmine)⟩
      rintro ⟨-, j, a, hj, ha, hown⟩
      obtain rfl : k = j := Nat.succ.inj hj
      rw [List.getElem?_eq_getElem hk, Option.some.injEq] at ha
      exact hmine (ha ▸ hown)

/-- **Who repeats a reply.**  It is the node at position Rem, and Rem is counted down. -/
lemma droInput_repeats_iff (hwell : h.WellFormed) (hbuffer : Holds buffer 0 (h.message rem))
    (hrem : rem ≤ h.addrs.length) {packets : List Packet} {s' : Node cfg}
    (hinput : s.droInput dst (h.received buffer rem) = .ok (packets, s')) (packet : Packet) :
    packet ∈ packets ∧ packet.code = .dro ↔ s.RelaysAt h rem ∧
      packet = ⟨uipDs6SelectSrc s.addrList dst, dst, .dro, h.message (rem - 1)⟩ := by
  have hlies := DroHead.lies_of_holds hbuffer
  obtain ⟨s₁, hstop, hinput⟩ := bind_eq_ok.mp hinput
  have haddrs := droStop_addrList hstop
  have hmine : ∀ a, s₁.isMyAddr a = s.isMyAddr a := fun a => by rw [isMyAddr, haddrs, isMyAddr]
  rw [hlies.dodagId, hmine] at hinput
  split_ifs at hinput with horigin
  · -- the origin answers with an acknowledgement
    refine iff_of_false ?_ fun hrelays => ?_
    · rintro ⟨hmem, hcode⟩
      obtain ⟨p, -, hinput⟩ := bind_eq_ok.mp hinput
      obtain ⟨rfl, -⟩ := Prod.mk.inj (Except.ok.inj hinput)
      split_ifs at hmem
      · rw [List.mem_singleton.mp hmem] at hcode
        cases hcode
      · cases hmem
    · exact Bool.noConfusion (horigin.symm.trans hrelays.1.1)
  · have horigin : s₁.isMyAddr h.dagId = false := by
      rw [hmine]
      exact Bool.eq_false_iff.mpr horigin
    have hrelays : s₁.RelaysAt h rem ↔ s.RelaysAt h rem := by
      unfold RelaysAt
      simp only [hmine]
    rw [← hrelays, ← haddrs]
    have hcases := s₁.droAtIntermediate_cases dst hwell hbuffer hrem horigin
    rcases hcases with ⟨hyes, heq⟩ | ⟨hno, heq⟩
    · rw [heq] at hinput
      obtain ⟨rfl, -⟩ := Prod.mk.inj (Except.ok.inj hinput)
      rw [List.mem_singleton]
      constructor
      · rintro ⟨hpacket, -⟩
        exact ⟨hyes, hpacket⟩
      · rintro ⟨-, rfl⟩
        exact ⟨rfl, rfl⟩
    · rw [heq] at hinput
      obtain ⟨rfl, -⟩ := Prod.mk.inj (Except.ok.inj hinput)
      exact iff_of_false (fun hmem => List.not_mem_nil hmem.1) fun hyes => hno hyes.1

/-- What a reply fails with is the absence of the P2P extension of its DAG. -/
lemma droInput_error {dro : Dro} {f : Fault} (hinput : s.droInput dst dro = .error f) : f = .nullP2p := by
  unfold droInput at hinput
  cases hstop : s.droStop dro with
  | error g =>
    rw [hstop] at hinput
    cases hinput
    unfold droStop at hstop
    split_ifs at hstop
    split at hstop
    · cases hstop
    · rename_i d hget
      unfold derefP2p at hstop
      cases hp2p : (s.dagTable d).p2p with
      | none =>
        rw [hp2p] at hstop
        cases hstop
        rfl
      | some e =>
        rw [hp2p, deref_some, ok_bind] at hstop
        split_ifs at hstop
  | ok s₁ =>
    rw [hstop, ok_bind] at hinput
    split_ifs at hinput
    unfold droAtOrigin droNotify at hinput
    dsimp only at hinput
    split at hinput
    · cases hinput
    · rename_i d hget
      unfold derefP2p at hinput
      cases hp2p : ((s₁.droStoreRoute dro).dagTable d).p2p with
      | none =>
        rw [hp2p] at hinput
        cases hinput
        rfl
      | some e =>
        rw [hp2p] at hinput
        cases hinput

/-- The length of the vector, as the origin computes it. -/
lemma addrLen_eq (hwell : h.WellFormed) :
    (UInt8.ofNat (3 + h.addrs.length) - 2 - 16 + UInt8.ofNat 15).toNat = h.addrs.length := by
  have hlength := hwell.length
  have hmax : h.addrs.length ≤ 20 := hlength
  rw [UInt8.toNat_add, UInt8.toNat_sub, UInt8.toNat_sub, UInt8.toNat_ofNat']
  change ((256 - 16 + (256 - 2 + (3 + h.addrs.length) % 256) % 256) % 256 + 15) % 256 = _
  omega

/-- The hops of the route, in the order of the vector. -/
lemma firstHops_vector (hlies : h.Lies buffer rem) :
    firstHops (h.addr h.target) (fun i => buffer (20 + 4 + 1 + i)) (UInt8.ofNat 15) false h.addrs.length =
      h.addrs.map fun b => (h.addr b).uipCreateLinklocalPrefix := by
  have hdecompress : ∀ b, (h.addr h.target).decompress 15 [b] = h.addr b := by
    intro b
    unfold DroHead.addr IpAddr.decompress
    have hlong : (h.dagId.u8.take 15).length = 15 := by
      rw [List.length_take, h.dagId.length_u8]
      rfl
    rw [IpAddr.ofBytes_u8]
    · change IpAddr.ofBytes ((h.dagId.u8.take 15 ++ _).take 15 ++ _) = _
      rw [List.take_left' hlong]
      rfl
    · rw [List.length_append]
      change (h.dagId.u8.take 15).length + 1 = 16
      rw [hlong]
  unfold firstHops
  rw [if_neg Bool.false_ne_true]
  apply List.ext_getElem
  · rw [List.length_map, List.length_map, List.length_range]
  · intro k hk hk'
    have hk : k < h.addrs.length := by rwa [List.length_map] at hk'
    rw [List.getElem_map, List.getElem_map, List.getElem_range, hopAt]
    have hbyte : buffer (20 + 4 + 1 + (k * 1 + 0)) = h.addrs[k] := by
      rw [Nat.mul_one, Nat.add_zero]
      exact hlies.vector hk
    change ((h.addr h.target).decompress 15 [buffer (20 + 4 + 1 + (k * 1 + 0))]).uipCreateLinklocalPrefix = _
    rw [hdecompress, hbyte]

/-- **What the origin stores.**  It is the route of the whole vector, whatever Rem is. -/
lemma droInput_stores (hwell : h.WellFormed) (hbuffer : Holds buffer 0 (h.message rem))
    (horigin : s.isMyAddr h.dagId = true) (hkept : s.srcRoutingTable.WellKept)
    (hroom : s.HasRoom (h.addr h.target) (h.addrs.length + 1)) {packets : List Packet} {s' : Node cfg}
    (hinput : s.droInput dst (h.received buffer rem) = .ok (packets, s')) :
    ∃ i, Stores s s' i (h.addr h.target) h.route := by
  have hlies := DroHead.lies_of_holds hbuffer
  obtain ⟨s₁, hstop, hinput⟩ := bind_eq_ok.mp hinput
  have hmine : s₁.isMyAddr h.dagId = true := by
    rw [isMyAddr, droStop_addrList hstop]
    exact horigin
  have htable := droStop_srcRoutingTable hstop
  rw [hlies.dodagId, if_pos hmine] at hinput
  obtain ⟨p, -, hinput⟩ := bind_eq_ok.mp hinput
  obtain ⟨-, rfl⟩ := Prod.mk.inj (Except.ok.inj hinput)
  unfold droStoreRoute
  rw [hlies.hopByHop hwell, if_neg Bool.false_ne_true, hlies.target hwell, hlies.compr hwell,
    hlies.step hwell, hlies.pos]
  change ∃ i, Stores s (s₁.rplP2pAddSrcRoute (h.addr h.target) (fun i => buffer (20 + 4 + 1 + i))
    (buffer 21 - 2 - 16 + UInt8.ofNat 15) (UInt8.ofNat 15) false).2 i _ _
  rw [hlies.length]
  have hn := addrLen_eq hwell
  generalize UInt8.ofNat (3 + h.addrs.length) - 2 - 16 + UInt8.ofNat 15 = addrLen at hn ⊢
  have hcompr : (UInt8.ofNat 15).toNat = 15 := rfl
  have hhops : numHops addrLen (UInt8.ofNat 15) = h.addrs.length := by
    rw [numHops, hn, hcompr]
    omega
  have hshort : h.addrs.length ≤ 20 := hwell.length
  have hfits : numHops addrLen (UInt8.ofNat 15) * (16 - (UInt8.ofNat 15).toNat) < 256 := by
    rw [hhops, hcompr]
    omega
  rw [← hhops] at hroom
  have hroom₁ : s₁.HasRoom (h.addr h.target) (numHops addrLen (UInt8.ofNat 15) + 1) :=
    ⟨htable ▸ hroom.entry, htable ▸ hroom.pool⟩
  obtain ⟨i, s', hadd⟩ : ∃ i s', s₁.rplP2pAddSrcRoute (h.addr h.target)
      (fun i => buffer (20 + 4 + 1 + i)) addrLen (UInt8.ofNat 15) false = (some i, s') :=
    addSrcRoute_isSome (Nat.le_of_eq hcompr) hfits hroom₁
  have hstores := (addSrcRoute_stores s₁ (htable ▸ hkept) _ _ _ _ _ (Nat.le_of_eq hcompr)
    (.inl hfits)).1 i s' hadd
  rw [hhops, firstHops_vector hlies] at hstores
  refine ⟨i, ?_⟩
  rw [hadd]
  refine ⟨hstores.isused, hstores.ipaddr, ?_, htable ▸ hstores.others⟩
  rw [hstores.hops, DroHead.route, List.map_append, List.map_singleton]

end

/-! ## Copies -/

/-- The reply that a node sends for a route. -/
def droHead (s : Node cfg) (d : cfg.DagRef) (e : cfg.P2pRef) (addrs : List UInt8) : DroHead where
  instanceId := (s.dagTable d).instanceId
  version := (s.dagTable d).version
  flags := (((s.dagP2pTable e).droSeq <<< 6) &&& 0xC0) ||| rplP2pDroSFlag ||| rplP2pDroAFlag
  dagId := (s.dagTable d).dagId
  fields := (rdoFields (s.dagP2pTable e)).getD 0 0
  lifetime := (rdoFields (s.dagP2pTable e)).getD 1 0
  target := (s.dagP2pTable e).target
  addrs := addrs

lemma droHead_wellFormed {d : cfg.DagRef} {e : cfg.P2pRef} {addrs : List UInt8}
    (hsource : (s.dagP2pTable e).hopByHop = 0) (hlength : addrs.length ≤ rplMaxSrcRouteAddrEntries) :
    (s.droHead d e addrs).WellFormed := by
  have hfields : ∀ D : UInt8, D = 0x80 ∨ D = 0 → ∀ m : UInt8,
      (D ||| 0 ||| (m &&& 0x30) ||| (rplP2pRdoCompr &&& 0x0f)) &&& 0x0f = rplP2pRdoCompr ∧
        (D ||| 0 ||| (m &&& 0x30) ||| (rplP2pRdoCompr &&& 0x0f)) &&& rplP2pRdoHFlag = 0 := by
    rintro D (rfl | rfl) m
    · revert m
      exact byte_cases (by decide +kernel)
    · revert m
      exact byte_cases (by decide +kernel)
  have hboth : (if (s.dagP2pTable e).bothDirections ≠ 0 then (0x80 : UInt8) else 0) = 0x80 ∨
      (if (s.dagP2pTable e).bothDirections ≠ 0 then (0x80 : UInt8) else 0) = 0 := ite_eq_or_eq _ _ _
  have hbits := hfields _ hboth ((s.dagP2pTable e).numRoutes <<< 4)
  have heq : (s.droHead d e addrs).fields =
      (if (s.dagP2pTable e).bothDirections ≠ 0 then (0x80 : UInt8) else 0) ||| (0 : UInt8) |||
        (((s.dagP2pTable e).numRoutes <<< 4) &&& 0x30) ||| (rplP2pRdoCompr &&& 0x0f) := by
    unfold droHead rdoFields
    rw [hsource]
    rfl
  exact ⟨heq ▸ hbits.1, heq ▸ hbits.2, hlength⟩

/-- Rem is the number of addresses in the vector. -/
lemma setRem_eq {fields lifetime target : UInt8} {addrs : List UInt8}
    (hcompr : fields &&& 0x0f = rplP2pRdoCompr) (hlength : addrs.length ≤ rplMaxSrcRouteAddrEntries) :
    setRem (rplDioSuboptRouteDiscovery :: UInt8.ofNat (2 + (1 + addrs.length)) :: fields :: lifetime ::
        target :: addrs) =
      rplDioSuboptRouteDiscovery :: UInt8.ofNat (3 + addrs.length) :: fields ::
        ((lifetime &&& ~~~rplP2pRdoRMask) ||| (UInt8.ofNat addrs.length &&& rplP2pRdoRMask)) ::
          target :: addrs := by
  have hmax : addrs.length ≤ 20 := hlength
  have hsum : 2 + (1 + addrs.length) = 3 + addrs.length := by omega
  have hrem : (UInt8.ofNat (3 + addrs.length) - 2) / (16 - (fields &&& 0x0f)) - 1 =
      UInt8.ofNat addrs.length := by
    rw [hcompr]
    apply UInt8.toNat_inj.mp
    rw [UInt8.toNat_sub, UInt8.toNat_div, UInt8.toNat_sub, UInt8.toNat_ofNat', UInt8.toNat_ofNat']
    change (256 - 1 + (256 - 2 + (3 + addrs.length) % 256) % 256 / 1) % 256 = addrs.length % 256
    omega
  rw [hsum]
  unfold setRem
  change List.set _ 3 ((lifetime &&& ~~~rplP2pRdoRMask) |||
    ((UInt8.ofNat (3 + addrs.length) - 2) / (16 - (fields &&& 0x0f)) - 1 &&& rplP2pRdoRMask)) = _
  rw [hrem]
  rfl

/-- The target of a discovery answers with the route that it was given. -/
lemma droOutput_eq {d : cfg.DagRef} {e : cfg.P2pRef} {addrs : List UInt8}
    (hp2p : (s.dagTable d).p2p = some e) (htarget : s.rplP2pIsTarget e = .ok true)
    (hsource : (s.dagP2pTable e).hopByHop = 0) (hlength : addrs.length ≤ rplMaxSrcRouteAddrEntries) :
    ∃ packet s', s.droOutput d addrs = .ok (some packet, s') ∧
      packet.payload = (s.droHead d e addrs).message addrs.length := by
  -- only the sequence number and the lifetime of the discovery change before the option is written
  let s₁ := s.modifyP2p e fun p2p => { p2p with droSeq := p2p.droSeq + 1, lifetime := 0 }
  have hfields : rdoFields (s₁.dagP2pTable e) = rdoFields (s.dagP2pTable e) := by
    simp [s₁, modifyP2p, rdoFields]
  have htarget₁ : (s₁.dagP2pTable e).target = (s.dagP2pTable e).target := by
    simp [s₁, modifyP2p]
  have hvector : s₁.rdoVector d e addrs = .ok addrs := by
    have hintermediate : s₁.isIntermediate d e = .ok false := by
      unfold isIntermediate
      split_ifs
      · rfl
      · have htrue : s₁.rplP2pIsTarget e = .ok true := by
          rw [← htarget]
          unfold rplP2pIsTarget
          rw [htarget₁]
          rfl
        rw [htrue]
        rfl
    unfold rdoVector
    rw [hintermediate]
    rfl
  have hrdo : s₁.writeRdo d e addrs = .ok ([rplDioSuboptRouteDiscovery,
      UInt8.ofNat (2 + (1 + addrs.length))] ++ rdoFields (s.dagP2pTable e) ++
        (s.dagP2pTable e).target :: addrs) := by
    unfold writeRdo
    rw [hvector, ← hfields, ← htarget₁]
    rfl
  unfold droOutput
  rw [hp2p]
  change ∃ packet s', ((s₁.writeRdo d e addrs).bind fun rdo => _) = _ ∧ _
  rw [hrdo]
  refine ⟨_, _, rfl, ?_⟩
  have hset : setRem ([rplDioSuboptRouteDiscovery, UInt8.ofNat (2 + (1 + addrs.length))] ++
      rdoFields (s.dagP2pTable e) ++ (s.dagP2pTable e).target :: addrs) =
        rplDioSuboptRouteDiscovery :: UInt8.ofNat (3 + addrs.length) :: (s.droHead d e addrs).fields ::
          (s.droHead d e addrs).remByte addrs.length :: (s.dagP2pTable e).target :: addrs :=
    setRem_eq (droHead_wellFormed (d := d) hsource hlength).compr hlength
  change _ ++ _ ++ setRem _ = _
  rw [hset, DroHead.message, DroHead.front, List.append_assoc, List.append_assoc, List.append_assoc]
  rfl

end Node

/-- The copies of a reply: the one that was sent, and what nodes send on when they hear a copy. -/
inductive DroCopy (first : List UInt8) : List UInt8 → Prop
  | sent : DroCopy first first
  | repeated {cfg : Config} {s s' : Node cfg} {message : List UInt8} {buffer : ℕ → UInt8} {dst : IpAddr}
      {packets : List Packet} {packet : Packet} (hcopy : DroCopy first message)
      (hbuffer : Holds buffer 0 message)
      (hinput : s.droInput dst (.ofBuffer buffer message.length) = .ok (packets, s'))
      (hsends : packet ∈ packets ∧ packet.code = .dro) : DroCopy first packet.payload

namespace DroHead
variable {h : DroHead}

/-- The copies differ in Rem only. -/
lemma copy_eq (hwell : h.WellFormed) {message : List UInt8}
    (hcopy : DroCopy (h.message h.addrs.length) message) :
    ∃ rem ≤ h.addrs.length, message = h.message rem := by
  induction hcopy with
  | sent => exact ⟨_, Nat.le_refl _, rfl⟩
  | @repeated cfg s s' message buffer dst packets packet hcopy hbuffer hinput hsends ih =>
    obtain ⟨rem, hrem, rfl⟩ := ih
    obtain ⟨-, rfl⟩ := (s.droInput_repeats_iff hwell hbuffer hrem hinput packet).mp hsends
    exact ⟨rem - 1, (Nat.sub_le rem 1).trans hrem, rfl⟩

/-- What nodes do with the reply with a given Rem: it is repeated by the node at position Rem, with Rem
counted down, and by no other; and the origin, if it has room for it, stores the whole route exactly
when its DAG of the reply has an extension. -/
structure Delivers (h : DroHead) (rem : ℕ) : Prop where
  repeats : ∀ {cfg : Config} (s s' : Node cfg) (buffer : ℕ → UInt8) (dst : IpAddr) packets,
    Holds buffer 0 (h.message rem) → s.droInput dst (h.received buffer rem) = .ok (packets, s') →
      ∀ packet, packet ∈ packets ∧ packet.code = .dro ↔ s.RelaysAt h rem ∧
        packet = ⟨uipDs6SelectSrc s.addrList dst, dst, .dro, h.message (rem - 1)⟩
  stores : ∀ {cfg : Config} (s : Node cfg) (buffer : ℕ → UInt8) (dst : IpAddr),
    Holds buffer 0 (h.message rem) → s.isMyAddr h.dagId = true → Node.SrcRouteRun s →
      s.HasRoom (h.addr h.target) (h.addrs.length + 1) →
        ((∃ packets s' i, s.droInput dst (h.received buffer rem) = .ok (packets, s') ∧
          Node.Stores s s' i (h.addr h.target) h.route) ↔ s.SafeDro (h.received buffer rem))
  returns : ∀ {cfg : Config} (s : Node cfg) (buffer : ℕ → UInt8) (dst : IpAddr),
    (∃ r, s.droInput dst (h.received buffer rem) = .ok r) ↔ s.SafeDro (h.received buffer rem)

end DroHead

/-- What `dro_input` returns for a reply. -/
lemma Node.droInput_ok_iff {cfg : Config} (s : Node cfg) (dst : IpAddr) (dro : Dro) :
    (∃ r, s.droInput dst dro = .ok r) ↔ s.SafeDro dro := by
  rw [← s.droInput_nullSafe_iff dst dro]
  constructor
  · rintro ⟨r, hinput⟩
    rw [hinput]
    exact .ok r
  · intro hnull
    cases hinput : s.droInput dst dro with
    | ok r => exact ⟨r, rfl⟩
    | error f => exact absurd (droInput_error hinput ▸ hinput) hnull.1

/-- **A reply and its copies.**  Whoever hears them, and in whatever order, the copies of a reply differ
in Rem only; a copy is repeated by the node at position Rem, which counts Rem down, and by no other, and
not once Rem is zero; and the origin stores the route of the whole vector from any of them, unless a
DAG without extension is in the way. -/
theorem Node.droOutput_copies {cfg : Config} {s : Node cfg} {d : cfg.DagRef} {e : cfg.P2pRef}
    {addrs : List UInt8} (hp2p : (s.dagTable d).p2p = some e) (htarget : s.rplP2pIsTarget e = .ok true)
    (hsource : (s.dagP2pTable e).hopByHop = 0) (hlength : addrs.length ≤ rplMaxSrcRouteAddrEntries) :
    ∃ packet s', s.droOutput d addrs = .ok (some packet, s') ∧
      ∀ message, DroCopy packet.payload message → ∃ rem ≤ addrs.length,
        message = (s.droHead d e addrs).message rem ∧ (s.droHead d e addrs).Delivers rem := by
  have hwell := droHead_wellFormed (d := d) hsource hlength
  obtain ⟨packet, s', houtput, hpayload⟩ := droOutput_eq hp2p htarget hsource hlength
  refine ⟨packet, s', houtput, fun message hcopy => ?_⟩
  rw [hpayload] at hcopy
  obtain ⟨rem, hrem, rfl⟩ := DroHead.copy_eq hwell hcopy
  refine ⟨rem, hrem, rfl, ?_, ?_, ?_⟩
  · intro cfg t t' buffer dst packets hbuffer hinput packet
    exact t.droInput_repeats_iff hwell hbuffer hrem hinput packet
  · intro cfg t buffer dst hbuffer horigin hrun hroom
    rw [← t.droInput_ok_iff dst]
    constructor
    · rintro ⟨packets, t', i, hinput, -⟩
      exact ⟨_, hinput⟩
    · rintro ⟨⟨packets, t'⟩, hinput⟩
      obtain ⟨i, hstores⟩ := droInput_stores hwell hbuffer horigin hrun.wellKept hroom hinput
      exact ⟨packets, t', i, hinput, hstores⟩
  · exact fun t buffer dst => t.droInput_ok_iff dst _

/-- The node 3 answers the node 1 with the route over the node 2. -/
theorem Node.droOutput_copies_one : ∃ s : Node .default, s.Reachable ∧ ∃ packet s',
    s.droOutput 0 [2] = .ok (some packet, s') ∧ ∀ message, DroCopy packet.payload message →
      ∃ rem ≤ 1, message = (s.droHead 0 0 [2]).message rem ∧ (s.droHead 0 0 [2]).Delivers rem := by
  obtain ⟨s, hs, hobserve⟩ := exists_reachable 3
    [.processDio (nodeLinkLocal 2) (discoveryDio 1 3 [2])]
    (fun s => ((s.dagTable 0).p2p, s.rplP2pIsTarget 0 == .ok true, (s.dagP2pTable 0).hopByHop))
    (a := (some 0, true, 0)) (by decide +kernel)
  obtain ⟨hp2p, hobserve⟩ := Prod.mk.inj hobserve
  obtain ⟨htarget, hsource⟩ := Prod.mk.inj hobserve
  exact ⟨s, hs, droOutput_copies hp2p (beq_iff_eq.mp htarget) hsource (by decide)⟩

/-- The origin has joined a DAG in the default mode under its own address, and all its source routes
are free. -/
theorem Node.not_droOutput_copies : ¬∀ (s t : Node .default) packet s', s.Reachable →
    s.droOutput 0 [2] = .ok (some packet, s') → t.Reachable → t.isMyAddr (nodeAddr 1) = true →
      (∀ i, (t.srcRoutingTable.routes i).isused = false) →
        (∀ b, t.srcRoutingTable.addrMemb.count b = 0) → ∀ (buffer : ℕ → UInt8) (dst : IpAddr),
          Holds buffer 0 packet.payload →
            ∃ r, t.droInput dst (.ofBuffer buffer packet.payload.length) = .ok r := by
  intro h
  let payload : List UInt8 := [0x81, 0, 0x30, 0] ++ (nodeAddr 1).u8 ++ [10, 4, 0x0f, 0x81, 3, 2]
  obtain ⟨s, hs, hobserve⟩ := exists_reachable 3
    [.processDio (nodeLinkLocal 2) (discoveryDio 1 3 [2])]
    (fun s => (s.droOutput 0 [2]).map fun r => r.1.map Packet.payload)
    (a := .ok (some payload)) (by decide +kernel)
  obtain ⟨⟨sent, s'⟩, houtput, hsent⟩ := exists_ok_of_map hobserve
  obtain ⟨packet, rfl, hpayload⟩ := Option.map_eq_some_iff.mp hsent
  obtain ⟨t, ht, hobserve⟩ := exists_reachable 1
    [.processDio (nodeLinkLocal 2) { globalDio 1 with instanceId := 0x81 }]
    (fun t => ((t.isMyAddr (nodeAddr 1), decide (∀ i, (t.srcRoutingTable.routes i).isused = false)),
      decide (∀ b, t.srcRoutingTable.addrMemb.count b = 0),
      (t.droInput (nodeAddr 2) (.ofBuffer (fun i => payload.getD i 0) payload.length)).toOption.isSome))
    (a := ((true, true), true, false)) (by decide +kernel)
  obtain ⟨hfirst, hrest⟩ := Prod.mk.inj hobserve
  obtain ⟨hmine, hroutes⟩ := Prod.mk.inj hfirst
  obtain ⟨hpool, hfails⟩ := Prod.mk.inj hrest
  obtain ⟨r, hinput⟩ := h s t packet s' hs houtput ht hmine (of_decide_eq_true hroutes)
    (of_decide_eq_true hpool) (fun i => payload.getD i 0) (nodeAddr 2)
    (hpayload ▸ holds_getD payload 0)
  rw [hpayload] at hinput
  rw [hinput] at hfails
  cases hfails

end Contiki

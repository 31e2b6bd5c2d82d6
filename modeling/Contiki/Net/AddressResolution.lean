import Contiki.Lib.Fallible
import Contiki.Net.PacketQueue

/-!
# What neighbour discovery and output do to the packets that wait

Each function keeps the packet queue sound and touches the packets of few entries of the cache only.

* `IpStack.uipNd6NsInput_evolves`, `uipNd6NaInput_evolves` — the messages.
* `IpStack.periodicNeighbors_evolves` — a tick.
* `IpStack.tcpipIpv6Output_evolves` — output.
-/

namespace Contiki

namespace IpStack
variable {cfg : StackConfig} {δ : Type} {s s' s'' : IpStack cfg δ} {i j : Fin cfg.nbrNb}
  {T : Fin cfg.nbrNb → Prop}

/-! ## Functions that leave the cache alone -/

/-- The states have the same cache and the same queue. -/
structure KeepsCache (s s' : IpStack cfg δ) : Prop where
  cache : s'.nbrCache = s.nbrCache
  clock : s'.clockTime = s.clockTime
  memb : s'.packetsMemb = s.packetsMemb
  nextId : s'.nextId = s.nextId
  log : s'.queueLog = s.queueLog

namespace KeepsCache

lemma refl (s : IpStack cfg δ) : KeepsCache s s := ⟨rfl, rfl, rfl, rfl, rfl⟩

lemma trans (h : KeepsCache s s') (h' : KeepsCache s' s'') : KeepsCache s s'' :=
  ⟨h'.cache.trans h.cache, h'.clock.trans h.clock, h'.memb.trans h.memb, h'.nextId.trans h.nextId,
    h'.log.trans h.log⟩

lemma sameQueue (h : KeepsCache s s') : SameQueue s s' :=
  ⟨fun i => by rw [h.cache], fun i => by rw [h.cache], h.memb, h.nextId, h.log⟩

lemma evolves (h : KeepsCache s s') : Evolves T s s' := h.sameQueue.evolves

lemma slotFor_eq (h : KeepsCache s s') (a : IpAddr) : s'.slotFor a = s.slotFor a := by
  unfold slotFor nbrLoop oldestNbr
  rw [h.cache, h.clock]

end KeepsCache

lemma keepsCache_setLen (s : IpStack cfg δ) (len : UInt16) : KeepsCache s (s.setLen len) :=
  ⟨rfl, rfl, rfl, rfl, rfl⟩

lemma KeepsCache.setLen (h : KeepsCache s s') (len : UInt16) : KeepsCache s (s'.setLen len) :=
  h.trans (keepsCache_setLen s' len)

/-! ## Functions that change the packet only -/

/-- The states differ in the packet only. -/
def OnlyPacket (s t : IpStack cfg δ) : Prop := t = { s with uipBuf := t.uipBuf, uipExtLen := t.uipExtLen }

namespace OnlyPacket

lemma refl (s : IpStack cfg δ) : OnlyPacket s s := rfl

lemma trans (h : OnlyPacket s s') (h' : OnlyPacket s' s'') : OnlyPacket s s'' := by
  unfold OnlyPacket at h h' ⊢
  rw [h', h]

lemma writeBuf (h : OnlyPacket s s') (pos : ℕ) (l : List UInt8) : OnlyPacket s (s'.writeBuf pos l) :=
  h.trans rfl

lemma setLen (h : OnlyPacket s s') (len : UInt16) : OnlyPacket s (s'.setLen len) := h.trans rfl

lemma writeIcmpchksum (h : OnlyPacket s s') : OnlyPacket s s'.writeIcmpchksum :=
  (h.writeBuf _ _).writeBuf _ _

lemma node (h : OnlyPacket s s') : s'.node = s.node := by rw [h]

lemma nbrCache (h : OnlyPacket s s') : s'.nbrCache = s.nbrCache := by rw [h]

lemma sent (h : OnlyPacket s s') : s'.sent = s.sent := by rw [h]

lemma keepsCache (h : OnlyPacket s s') : KeepsCache s s' := by
  rw [h]
  exact ⟨rfl, rfl, rfl, rfl, rfl⟩

end OnlyPacket

lemma onlyPacket_extLen (s : IpStack cfg δ) (n : UInt8) : OnlyPacket s { s with uipExtLen := n } := rfl

lemma onlyPacket_uipNd6NsOutput (s : IpStack cfg δ) (src dest : Option IpAddr) (tgt : IpAddr) :
    OnlyPacket s (s.uipNd6NsOutput src dest tgt) := by
  have hhead := (((((onlyPacket_extLen s 0).writeBuf 0 [0x60, 0, 0, 0]).writeBuf 6 [58, 255]).writeBuf 24
    (dest.getD tgt.uipCreateSolicitedNode).u8).writeBuf 40 [135, 0]).writeBuf 44 ([0, 0, 0, 0] ++ tgt.u8)
  unfold uipNd6NsOutput
  refine OnlyPacket.writeIcmpchksum ?_
  split
  · exact (((hhead.writeBuf _ _).writeBuf _ _).writeBuf _ _).setLen _
  · exact ((hhead.writeBuf _ _).writeBuf _ _).setLen _

lemma onlyPacket_createNa (s : IpStack cfg δ) (flags : UInt8) (tgt : IpAddr) :
    OnlyPacket s (s.createNa flags tgt) :=
  (((((((onlyPacket_extLen s 0).writeBuf _ _).writeBuf _ _).writeBuf _ _).writeBuf _ _).writeBuf _
    _).writeIcmpchksum).setLen _

/-! ## Solicitations for an address of the node -/

lemma keepsCache_uipDs6DadFailed (s : IpStack cfg δ) (i : Fin s.node.nAddr) :
    KeepsCache s (s.uipDs6DadFailed i) := by
  unfold uipDs6DadFailed uipDs6AddrRm maddrRm
  dsimp only
  split
  · exact .refl s
  · split <;> exact ⟨rfl, rfl, rfl, rfl, rfl⟩

/-- The answer to a solicitation is put into `uip_buf`, or a duplicate address is removed. -/
lemma nsReply_cases (s : IpStack cfg δ) :
    OnlyPacket s s.nsReply ∨ ∃ a, s.nsReply = (s.uipDs6DadFailed a).setLen 0 := by
  have hdiscard : OnlyPacket s (s.setLen 0) := (OnlyPacket.refl s).setLen 0
  have hanswer : ∀ (dest src : IpAddr) (flags : UInt8) (tgt : IpAddr),
      OnlyPacket s (((s.setDestipaddr dest).setSrcipaddr src).createNa flags tgt) := fun _ _ _ _ =>
    (((OnlyPacket.refl s).writeBuf _ _).writeBuf _ _).trans (onlyPacket_createNa _ _ _)
  unfold nsReply
  split
  · exact .inl hdiscard
  · rename_i a _
    dsimp only
    by_cases hsrc : s.uipBuf.srcipaddr.uipIsAddrUnspecified = true
    · rw [if_pos hsrc]
      split_ifs
      · exact .inl hdiscard
      · exact .inl (hanswer _ _ _ _)
      · exact .inr ⟨a, rfl⟩
    · rw [if_neg hsrc]
      split_ifs
      · exact .inl hdiscard
      · exact .inl (hanswer _ _ _ _)
      · exact .inl hdiscard

lemma keepsCache_nsReply (s : IpStack cfg δ) : KeepsCache s s.nsReply := by
  rcases s.nsReply_cases with hpacket | ⟨a, heq⟩
  · exact hpacket.keepsCache
  · rw [heq]
    exact (keepsCache_uipDs6DadFailed s a).setLen 0

/-! ## Neighbour solicitations -/

lemma setNbr_nbrLoop {f : Ds6Nbr cfg.clockWidth → Ds6Nbr cfg.clockWidth}
    (hf : ∀ n, (f n).toDs6Element = n.toDs6Element) (a : IpAddr) :
    (s.setNbr i f).nbrLoop a = s.nbrLoop a := by
  have helem : (fun k => ((s.setNbr i f).nbrCache k).toDs6Element) =
      fun k => (s.nbrCache k).toDs6Element := by
    funext k
    by_cases hk : k = i
    · rw [hk, setNbr_self, hf]
    · rw [setNbr_of_ne hk]
  unfold nbrLoop
  rw [helem]

lemma nbrAddFrom_uipBuf (ipaddr : IpAddr) (lladdr : Option Lladdr) (isrouter : Bool) (state : NbrState)
    (calls : ℕ) (s : IpStack cfg δ) :
    (nbrAddFrom ipaddr lladdr isrouter state calls s).2.uipBuf = s.uipBuf := by
  induction calls generalizing s with
  | zero => rfl
  | succ calls ih =>
    rw [nbrAddFrom]
    split
    · rfl
    · rfl
    · split
      · rw [ih]
        unfold uipDs6NbrRm uipPacketqueueFree
        split <;> rfl
      · rfl

/-- A source link-layer address option touches the entry of the source only. -/
lemma nsSllao_spec (s : IpStack cfg δ) (lladdr : Lladdr) :
    Evolves (fun i => s.slotFor s.uipBuf.srcipaddr = some i) s (s.nsSllao lladdr) ∧
      (s.nsSllao lladdr).uipBuf = s.uipBuf ∧
      ∀ i, (s.nsSllao lladdr).slotFor s.uipBuf.srcipaddr = some i →
        s.slotFor s.uipBuf.srcipaddr = some i := by
  unfold nsSllao
  dsimp only
  cases hlook : s.uipDs6NbrLookup s.uipBuf.srcipaddr with
  | none =>
    obtain ⟨hev, hslot, -⟩ := uipDs6NbrAdd_evolves s s.uipBuf.srcipaddr (some lladdr) false .stale
    exact ⟨hev, nbrAddFrom_uipBuf _ _ _ _ 2 s, hslot⟩
  | some i =>
    -- The entry keeps its address, so it is found again.
    have hset : ∀ f : Ds6Nbr cfg.clockWidth → Ds6Nbr cfg.clockWidth,
        (∀ n, (f n).toDs6Element = n.toDs6Element) → (∀ n, (f n).packethandle = n.packethandle) →
        Evolves (fun i => s.slotFor s.uipBuf.srcipaddr = some i) s (s.setNbr i f) ∧
          (s.setNbr i f).uipBuf = s.uipBuf ∧
          ∀ k, (s.setNbr i f).slotFor s.uipBuf.srcipaddr = some k →
            s.slotFor s.uipBuf.srcipaddr = some k := by
      intro f helem hhandle
      have hused : ∀ n, (f n).isused = n.isused := fun n => congrArg Ds6Element.isused (helem n)
      refine ⟨(setNbr_same hhandle hused).evolves, rfl, fun k hk => ?_⟩
      have hlook' : (s.setNbr i f).uipDs6NbrLookup s.uipBuf.srcipaddr = some i := by
        unfold uipDs6NbrLookup at hlook ⊢
        rwa [setNbr_nbrLoop helem]
      rw [slotFor_of_lookup hlook'] at hk
      rw [slotFor_of_lookup hlook]
      exact hk
    dsimp only
    split_ifs
    · exact hset _ (fun _ => rfl) fun _ => rfl
    · exact hset _ (fun _ => rfl) fun _ => rfl
    · exact ⟨.refl s, rfl, fun _ h => h⟩

/-- The loop over the options of a solicitation, by induction on its turns. -/
lemma nsOptions_evolves {s s' : IpStack cfg δ} {fuel : ℕ} {offset : UInt8} {proceed : Bool}
    (h : nsOptions fuel offset s = .ok (proceed, s')) :
    Evolves (fun i => s.slotFor s.uipBuf.srcipaddr = some i) s s' := by
  induction fuel generalizing offset s with
  | zero => cases h
  | succ fuel ih =>
    rw [nsOptions] at h
    dsimp only at h
    split_ifs at h
    · cases h
      exact .refl _
    · cases h
      exact .refl _
    · obtain ⟨hev, hbuf, hslot⟩ := nsSllao_spec s
        (lladdrAt s.uipBuf.bytes (s.optPos offset + 2))
      have hrest := ih h
      rw [hbuf] at hrest
      exact hev.trans (hrest.mono hslot)
    · exact ih h
    · cases h
      exact .refl _

/-- A solicitation touches the entry of its source only. -/
lemma uipNd6NsInput_evolves (h : s.uipNd6NsInput = .ok s') :
    Evolves (fun i => s.slotFor s.uipBuf.srcipaddr = some i) s s' := by
  unfold uipNd6NsInput at h
  split_ifs at h
  · cases h
    exact (keepsCache_setLen s 0).evolves
  · obtain ⟨⟨proceed, t⟩, hopt, h⟩ := bind_eq_ok.mp h
    have hev := nsOptions_evolves hopt
    dsimp only at h
    cases proceed with
    | true =>
      cases h
      exact hev.trans (keepsCache_nsReply t).evolves
    | false =>
      cases h
      exact hev.trans (keepsCache_setLen t 0).evolves

/-! ## Neighbour advertisements -/

/-- The entry is changed behind other changes. -/
lemma SameQueue.setNbr {f : Ds6Nbr cfg.clockWidth → Ds6Nbr cfg.clockWidth} (h : SameQueue s s')
    (hhandle : ∀ n, (f n).packethandle = n.packethandle) (hused : ∀ n, (f n).isused = n.isused) :
    SameQueue s (s'.setNbr i f) := h.trans (setNbr_same hhandle hused)

lemma naIncomplete_same (s : IpStack cfg δ) (i : Fin cfg.nbrNb) (isRouter isSolicited : Bool)
    (llao : Option Lladdr) : SameQueue s (s.naIncomplete i isRouter isSolicited llao).2 := by
  unfold naIncomplete
  cases llao with
  | none => exact .refl s
  | some lladdr =>
    have hlladdr : SameQueue s (s.setNbr i fun n => { n with lladdr }) :=
      setNbr_same (fun _ => rfl) fun _ => rfl
    dsimp only
    refine SameQueue.setNbr ?_ (fun _ => rfl) fun _ => rfl
    split_ifs
    · refine hlladdr.setNbr ?_ ?_ <;> exact fun _ => rfl
    · refine hlladdr.setNbr ?_ ?_ <;> exact fun _ => rfl

lemma naComplete_same (s : IpStack cfg δ) (i : Fin cfg.nbrNb) (isRouter isSolicited isOverride : Bool)
    (llao : Option Lladdr) :
    SameQueue s (s.naComplete i isRouter isSolicited isOverride llao).2 := by
  have hlladdr : SameQueue s (s.setNbr i fun n => { n with lladdr := llao.getD n.lladdr }) :=
    setNbr_same (fun _ => rfl) fun _ => rfl
  have hdefrt : ∀ (t : IpStack cfg δ) l, SameQueue t { t with defrtList := l } := fun t l =>
    ⟨fun _ => rfl, fun _ => rfl, rfl, rfl, rfl⟩
  unfold naComplete
  dsimp only
  split
  · dsimp only
    split_ifs
    · refine (SameQueue.refl s).setNbr ?_ ?_ <;> exact fun _ => rfl
    · exact .refl s
  · dsimp only
    refine SameQueue.setNbr ?_ (fun _ => rfl) fun _ => rfl
    split_ifs
    · split
      · refine SameQueue.trans ?_ (hdefrt _ _)
        exact hlladdr.setNbr (fun _ => rfl) fun _ => rfl
      · exact hlladdr.setNbr (fun _ => rfl) fun _ => rfl
    · exact hlladdr.setNbr (fun _ => rfl) fun _ => rfl
    · split
      · refine SameQueue.trans ?_ (hdefrt _ _)
        exact hlladdr.setNbr (fun _ => rfl) fun _ => rfl
      · exact hlladdr.setNbr (fun _ => rfl) fun _ => rfl
    · exact hlladdr.setNbr (fun _ => rfl) fun _ => rfl
    · split
      · exact hlladdr.trans (hdefrt _ _)
      · exact hlladdr
    · exact hlladdr

lemma handBackNa_evolves (s : IpStack cfg δ) (i : Fin cfg.nbrNb) : Evolves (· = i) s (s.handBackNa i) := by
  unfold handBackNa
  split
  · exact (keepsCache_setLen s 0).evolves
  · rename_i b hb
    split_ifs
    · exact handBack_evolves hb
    · exact (keepsCache_setLen s 0).evolves

lemma naNeighbor_evolves (s : IpStack cfg δ) (i : Fin cfg.nbrNb) (flags : UInt8) (llao : Option Lladdr) :
    Evolves (· = i) s (s.naNeighbor i flags llao) := by
  have hrest : ∀ r : Bool × IpStack cfg δ, SameQueue s r.2 →
      Evolves (· = i) s (if r.1 then r.2.handBackNa i else r.2.setLen 0) := by
    intro r hr
    split_ifs
    · exact hr.evolves.trans (handBackNa_evolves r.2 i)
    · exact hr.evolves.trans (keepsCache_setLen r.2 0).evolves
  by_cases hstate : (s.nbrCache i).state = .incomplete
  · have heq := hrest _ (naIncomplete_same s i (flags &&& 0x80 ≠ 0) (flags &&& 0x40 ≠ 0) llao)
    unfold naNeighbor
    dsimp only
    rwa [if_pos hstate]
  · have heq := hrest _ (naComplete_same s i (flags &&& 0x80 ≠ 0) (flags &&& 0x40 ≠ 0)
      (flags &&& 0x20 ≠ 0) llao)
    unfold naNeighbor
    dsimp only
    rwa [if_neg hstate]

/-- An advertisement touches the entry of its target only. -/
lemma uipNd6NaInput_evolves (h : s.uipNd6NaInput = .ok s') :
    Evolves (fun i => s.uipDs6NbrLookup s.tgtipaddr = some i) s s' := by
  unfold uipNd6NaInput at h
  dsimp only at h
  split_ifs at h
  · cases h
    exact (keepsCache_setLen s 0).evolves
  · obtain ⟨llao?, -, h⟩ := bind_eq_ok.mp h
    split at h
    · cases h
      exact (keepsCache_setLen s 0).evolves
    · split at h
      · rename_i a _
        cases h
        split_ifs
        · exact ((keepsCache_uipDs6DadFailed s a).setLen 0).evolves
        · exact (keepsCache_setLen s 0).evolves
      · split at h
        · cases h
          exact (keepsCache_setLen s 0).evolves
        · rename_i i hlook
          cases h
          refine (naNeighbor_evolves s i _ _).mono fun j hj => ?_
          rw [hj]
          exact hlook

/-! ## Maintenance -/

lemma solicitNbr_same (s : IpStack cfg δ) (i : Fin cfg.nbrNb) (dest : Option IpAddr) :
    SameQueue s (s.solicitNbr i dest) := by
  have hcount : SameQueue s (s.setNbr i fun n => { n with nscount := n.nscount + 1 }) :=
    setNbr_same (fun _ => rfl) fun _ => rfl
  unfold solicitNbr
  refine SameQueue.setNbr ?_ (fun _ => rfl) fun _ => rfl
  exact hcount.trans (onlyPacket_uipNd6NsOutput _ none dest _).keepsCache.sameQueue

/-- A tick changes a neighbour without its packet, or removes it. -/
lemma periodicNbr_cases (s : IpStack cfg δ) (i : Fin cfg.nbrNb) :
    SameQueue s (s.periodicNbr i) ∨ ∃ t, SameQueue s t ∧ s.periodicNbr i = t.uipDs6NbrRm i := by
  have hset : ∀ {f : Ds6Nbr cfg.clockWidth → Ds6Nbr cfg.clockWidth},
      (∀ n, (f n).packethandle = n.packethandle) → (∀ n, (f n).isused = n.isused) →
      SameQueue s (s.setNbr i f) := setNbr_same
  unfold periodicNbr
  dsimp only
  by_cases hused : (s.nbrCache i).isused = false
  · rw [if_pos hused]
    exact .inl (.refl s)
  · rw [if_neg hused]
    cases (s.nbrCache i).state with
    | incomplete =>
      dsimp only
      split_ifs
      · exact .inr ⟨s, .refl s, rfl⟩
      · exact .inl (solicitNbr_same s i none)
      · exact .inl (.refl s)
    | reachable =>
      dsimp only
      split_ifs
      · refine .inl (hset ?_ ?_) <;> exact fun _ => rfl
      · exact .inl (.refl s)
    | stale => exact .inl (.refl s)
    | delay =>
      dsimp only
      split_ifs
      · refine .inl (SameQueue.trans (hset ?_ ?_) (solicitNbr_same _ i _)) <;> exact fun _ => rfl
      · exact .inl (.refl s)
    | probe =>
      dsimp only
      split_ifs
      · split
        · refine .inr ⟨_, ?_, rfl⟩
          exact ⟨fun _ => rfl, fun _ => rfl, rfl, rfl, rfl⟩
        · exact .inr ⟨s, .refl s, rfl⟩
      · exact .inl (solicitNbr_same s i _)
      · exact .inl (.refl s)

/-- A tick keeps the packets of the neighbours that it keeps. -/
lemma periodicNbr_evolves (s : IpStack cfg δ) (i : Fin cfg.nbrNb) :
    Evolves (fun j => ((s.periodicNbr i).nbrCache j).isused = false) s (s.periodicNbr i) ∧
      ∀ j, (s.nbrCache j).isused = false → ((s.periodicNbr i).nbrCache j).isused = false := by
  rcases periodicNbr_cases s i with hsame | ⟨t, ht, heq⟩
  · refine ⟨hsame.evolves, fun j hj => ?_⟩
    rw [hsame.isused]
    exact hj
  · rw [heq]
    refine ⟨ht.evolves.trans ((uipDs6NbrRm_evolves t i).mono fun j hj => ?_), fun j hj => ?_⟩
    · rw [uipDs6NbrRm_isused, if_pos hj]
    · rw [uipDs6NbrRm_isused, ht.isused, hj]
      exact ite_self false

/-- A tick touches the entries that it frees, by induction on the loop. -/
lemma periodicNeighbors_evolves (s : IpStack cfg δ) :
    Evolves (fun j => (s.periodicNeighbors.nbrCache j).isused = false) s s.periodicNeighbors := by
  have hloop : ∀ (l : List (Fin cfg.nbrNb)) (t : IpStack cfg δ),
      Evolves (fun j => ((l.foldl periodicNbr t).nbrCache j).isused = false) t (l.foldl periodicNbr t) ∧
        ∀ j, (t.nbrCache j).isused = false → ((l.foldl periodicNbr t).nbrCache j).isused = false := by
    intro l
    induction l with
    | nil => exact fun t => ⟨.refl t, fun _ h => h⟩
    | cons i l ih =>
      intro t
      obtain ⟨hstep, hfree⟩ := periodicNbr_evolves t i
      obtain ⟨hrest, hfree'⟩ := ih (t.periodicNbr i)
      exact ⟨(hstep.mono hfree').trans hrest, fun j hj => hfree' j (hfree j hj)⟩
  exact (hloop _ s).1

/-! ## Output -/

lemma OnlyPacket.putAt {pos pos' : UInt8} {l : List UInt8} {t : IpStack cfg δ} (h : OnlyPacket s s')
    (hput : s'.putAt pos l = .ok (pos', t)) : OnlyPacket s t := by
  unfold IpStack.putAt at hput
  split_ifs at hput
  cases hput
  exact h.writeBuf _ l

lemma OnlyPacket.putAll {pos pos' : UInt8} {ls : List (List UInt8)} {t : IpStack cfg δ}
    (h : OnlyPacket s s') (hput : IpStack.putAll pos ls s' = .ok (pos', t)) : OnlyPacket s t := by
  induction ls generalizing pos s' with
  | nil =>
    cases hput
    exact h
  | cons l ls ih =>
    rw [IpStack.putAll] at hput
    obtain ⟨⟨pos₁, s₁⟩, hl, hls⟩ := bind_eq_ok.mp hput
    exact ih (h.putAt hl) hls

lemma onlyPacket_insertRh4 {r : Fin cfg.srcRouteNb} {a : IpAddr} (h : s.insertRh4 r = .ok (a, s')) :
    OnlyPacket s s' := by
  unfold insertRh4 at h
  dsimp only at h
  split at h
  · cases h
  · obtain ⟨s₁, hroom, h⟩ := bind_eq_ok.mp h
    obtain ⟨⟨pos₂, s₂⟩, hput, h⟩ := bind_eq_ok.mp h
    obtain ⟨⟨pos₃, s₃⟩, hall, h⟩ := bind_eq_ok.mp h
    cases h
    have h₁ : OnlyPacket s s₁ := by
      unfold makeRoom at hroom
      dsimp only at hroom
      split_ifs at hroom
      cases hroom
      exact (OnlyPacket.refl s).writeBuf _ _
    have h₃ := (((h₁.writeBuf _ _).putAt hput).writeBuf _ _).putAll hall
    exact h₃.trans (((onlyPacket_extLen _ _).setLen _).writeBuf _ _)

lemma onlyPacket_nextHop {a : IpAddr} (h : s.nextHop = .ok (some (a, s'))) : OnlyPacket s s' := by
  unfold nextHop at h
  dsimp only at h
  split at h
  · cases h
    exact .refl _
  · split at h
    · obtain ⟨⟨a', t⟩, hins, h⟩ := map_eq_ok.mp h
      cases h
      exact onlyPacket_insertRh4 hins
    · split at h
      · cases h
        exact .refl _
      · obtain ⟨dest, -, h⟩ := Option.map_eq_some_iff.mp (Except.ok.inj h)
        cases h
        exact .refl _

lemma keepsCache_tcpipOutput (s : IpStack cfg δ) (lladdr : Option Lladdr) :
    KeepsCache s (s.tcpipOutput lladdr) := ⟨rfl, rfl, rfl, rfl, rfl⟩

lemma keepsCache_outputDone (s : IpStack cfg δ) : KeepsCache s s.outputDone := ⟨rfl, rfl, rfl, rfl, rfl⟩

lemma outputNew_evolves (hused : (s.nbrCache i).isused = true) (h : s.outputNew i = .ok s') :
    Evolves (· = i) s s' := by
  unfold outputNew at h
  obtain ⟨t, hpark, h⟩ := bind_eq_ok.mp h
  cases h
  refine (park_evolves hused hpark).trans (SameQueue.evolves ?_)
  refine SameQueue.trans ?_ ((keepsCache_tcpipOutput _ none).trans (keepsCache_outputDone _)).sameQueue
  refine SameQueue.setNbr (onlyPacket_uipNd6NsOutput t _ none _).keepsCache.sameQueue ?_ ?_ <;> exact fun _ => rfl

lemma outputParked_evolves (s : IpStack cfg δ) (i : Fin cfg.nbrNb) :
    Evolves (· = i) s (s.outputParked i) := by
  unfold outputParked
  split
  · exact .refl s
  · rename_i b hb
    split_ifs
    · exact (handBack_evolves hb).trans (keepsCache_tcpipOutput _ _).evolves
    · exact .refl s

lemma outputKnown_evolves (s : IpStack cfg δ) (i : Fin cfg.nbrNb) :
    Evolves (· = i) s (s.outputKnown i) := by
  have hdelay : ∀ f : Ds6Nbr cfg.clockWidth → Ds6Nbr cfg.clockWidth,
      (∀ n, (f n).packethandle = n.packethandle) → (∀ n, (f n).isused = n.isused) →
      SameQueue s (if (s.nbrCache i).state = .stale then s.setNbr i f else s) := by
    intro f hhandle hused
    split_ifs
    · exact setNbr_same hhandle hused
    · exact .refl s
  unfold outputKnown
  refine Evolves.trans ?_ (keepsCache_outputDone _).evolves
  refine Evolves.trans ?_ (outputParked_evolves _ i)
  refine Evolves.trans (SameQueue.evolves ?_) (keepsCache_tcpipOutput _ _).evolves
  refine SameQueue.setNbr (hdelay _ ?_ ?_) ?_ ?_ <;> exact fun _ => rfl

/-- Sending to a next hop touches its entry only. -/
lemma outputTo_evolves {nexthop : IpAddr} (h : s.outputTo nexthop = .ok s') :
    Evolves (fun i => s.slotFor nexthop = some i) s s' := by
  unfold outputTo at h
  cases hlook : s.uipDs6NbrLookup nexthop with
  | none =>
    rw [hlook] at h
    dsimp only at h
    obtain ⟨hev, -, hres⟩ := uipDs6NbrAdd_evolves s nexthop none false .incomplete
    cases hadd : s.uipDs6NbrAdd nexthop none false .incomplete with
    | mk i? t =>
      rw [hadd] at h hev hres
      cases i? with
      | none =>
        cases h
        exact hev.trans (keepsCache_setLen t 0).evolves
      | some i =>
        obtain ⟨hslot, hused⟩ := hres i rfl
        refine hev.trans ((outputNew_evolves hused h).mono fun j hj => ?_)
        rw [hj]
        exact hslot
  | some i =>
    rw [hlook] at h
    dsimp only at h
    have htouch : ∀ j, j = i → s.slotFor nexthop = some j := fun j hj => by
      rw [hj]
      exact slotFor_of_lookup hlook
    split_ifs at h
    · obtain ⟨t, hpark, h⟩ := map_eq_ok.mp h
      cases h
      refine ((park_evolves ?_ hpark).mono htouch).trans (keepsCache_setLen t 0).evolves
      unfold uipDs6NbrLookup at hlook
      split at hlook
      · rename_i k hloop
        cases hlook
        exact (ListLoop.found_spec hloop).1
      · cases hlook
    · cases h
      exact (outputKnown_evolves s i).mono htouch

/-- Output touches the entry of the next hop only. -/
lemma tcpipIpv6Output_evolves (h : s.tcpipIpv6Output = .ok s') :
    Evolves (fun i => ∃ a t, s.nextHop = .ok (some (a, t)) ∧ s.slotFor a = some i) s s' := by
  unfold tcpipIpv6Output at h
  split_ifs at h
  · cases h
    exact .refl _
  · cases h
    exact (keepsCache_setLen s 0).evolves
  · cases h
    exact ((keepsCache_tcpipOutput s none).trans (keepsCache_outputDone _)).evolves
  · obtain ⟨hop?, hhop, h⟩ := bind_eq_ok.mp h
    cases hop? with
    | none =>
      cases h
      exact (keepsCache_setLen s 0).evolves
    | some hop =>
      obtain ⟨a, t⟩ := hop
      have hkeep := (onlyPacket_nextHop hhop).keepsCache
      refine hkeep.evolves.trans ((outputTo_evolves h).mono fun i hi => ⟨a, t, hhop, ?_⟩)
      rw [← hkeep.slotFor_eq]
      exact hi

end IpStack
end Contiki

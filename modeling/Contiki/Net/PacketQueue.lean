import Contiki.Net.Output

/-!
# Packets that wait for address resolution

`IpStack.QueueSound` says that the allocated blocks are those the handles of the cache entries in use
point to, each with its timer running, and that the log of the queue is in order: every packet is handed
back at most once, as it was parked.  `Evolves T` says that a change of the state keeps this, and that
only the packets of entries in `T` are touched.

* `IpStack.Releases.evolves`, `IpStack.Parks.evolves` — a packet is taken off an entry, or put to it.
* `IpStack.uipDs6NbrAdd_evolves` — what an eviction touches.
-/

namespace Contiki

namespace IpStack
variable {cfg : StackConfig} {δ : Type} {s s' s'' : IpStack cfg δ} {i j : Fin cfg.nbrNb}
  {b : Fin maxNumQueuedPackets} {T T' : Fin cfg.nbrNb → Prop}

/-- The packet that waits for a cache entry. -/
def waiting (s : IpStack cfg δ) (i : Fin cfg.nbrNb) : Option (PacketqueuePacket cfg.nbrNb) :=
  (s.nbrCache i).packethandle.map s.packetsMemb.mem

/-- The log is in order.  An entry of the log comes before the older ones. -/
structure LogSound (s : IpStack cfg δ) : Prop where
  fresh : ∀ id i bytes, .parked id i bytes ∈ s.queueLog → id < s.nextId
  unique : ∀ id i bytes j bytes', .parked id i bytes ∈ s.queueLog →
    .parked id j bytes' ∈ s.queueLog → i = j ∧ bytes = bytes'
  once : ∀ later earlier id i bytes, s.queueLog = later ++ .handed id i bytes :: earlier →
    .parked id i bytes ∈ earlier ∧ ∀ j bytes', .handed id j bytes' ∉ earlier
  held : ∀ i b, (s.nbrCache i).packethandle = some b →
    .parked (s.packetsMemb.mem b).id i (s.packetsMemb.mem b).bytes ∈ s.queueLog ∧
      ∀ j bytes', .handed (s.packetsMemb.mem b).id j bytes' ∉ s.queueLog

/-- The blocks, their holders and their timers agree, and the log is in order. -/
structure QueueSound (s : IpStack cfg δ) : Prop where
  owned : s.packetsMemb.OwnedBy fun i => (s.nbrCache i).packethandle.toList
  used : ∀ i b, (s.nbrCache i).packethandle = some b → (s.nbrCache i).isused = true
  timed : ∀ i b, (s.packetsMemb.mem b).lifetimer = some i ↔ (s.nbrCache i).packethandle = some b
  log : s.LogSound

/-- The change keeps the queue sound, and touches only the packets of entries in `T`. -/
def Evolves (T : Fin cfg.nbrNb → Prop) (s s' : IpStack cfg δ) : Prop :=
  s.QueueSound → s'.QueueSound ∧ ∀ i, ¬ T i → s'.waiting i = s.waiting i

namespace Evolves

lemma refl (s : IpStack cfg δ) : Evolves T s s := fun h => ⟨h, fun _ _ => rfl⟩

lemma trans (h : Evolves T s s') (h' : Evolves T s' s'') : Evolves T s s'' := by
  intro hs
  obtain ⟨hs', hframe⟩ := h hs
  obtain ⟨hs'', hframe'⟩ := h' hs'
  exact ⟨hs'', fun i hi => (hframe' i hi).trans (hframe i hi)⟩

lemma mono (h : Evolves T s s') (hsub : ∀ i, T i → T' i) : Evolves T' s s' := fun hs =>
  ⟨(h hs).1, fun i hi => (h hs).2 i fun hT => hi (hsub i hT)⟩

end Evolves

/-! ## Changes that do not touch the queue -/

/-- The states have the same packet queue. -/
structure SameQueue (s s' : IpStack cfg δ) : Prop where
  handle : ∀ i, (s'.nbrCache i).packethandle = (s.nbrCache i).packethandle
  isused : ∀ i, (s'.nbrCache i).isused = (s.nbrCache i).isused
  memb : s'.packetsMemb = s.packetsMemb
  nextId : s'.nextId = s.nextId
  log : s'.queueLog = s.queueLog

namespace SameQueue

lemma refl (s : IpStack cfg δ) : SameQueue s s := ⟨fun _ => rfl, fun _ => rfl, rfl, rfl, rfl⟩

lemma trans (h : SameQueue s s') (h' : SameQueue s' s'') : SameQueue s s'' where
  handle i := (h'.handle i).trans (h.handle i)
  isused i := (h'.isused i).trans (h.isused i)
  memb := h'.memb.trans h.memb
  nextId := h'.nextId.trans h.nextId
  log := h'.log.trans h.log

lemma waiting_eq (h : SameQueue s s') (i : Fin cfg.nbrNb) : s'.waiting i = s.waiting i := by
  unfold waiting
  rw [h.handle, h.memb]

lemma sound (h : SameQueue s s') (hs : s.QueueSound) : s'.QueueSound where
  owned := hs.owned.congr (by rw [h.memb]) fun i => by rw [h.handle]
  used i b hb := by
    rw [h.handle] at hb
    rw [h.isused]
    exact hs.used i b hb
  timed i b := by
    rw [h.memb, h.handle]
    exact hs.timed i b
  log := {
    fresh := by
      rw [h.log, h.nextId]
      exact hs.log.fresh
    unique := by
      rw [h.log]
      exact hs.log.unique
    once := by
      rw [h.log]
      exact hs.log.once
    held := fun i b hb => by
      rw [h.handle] at hb
      rw [h.log, h.memb]
      exact hs.log.held i b hb }

lemma evolves (h : SameQueue s s') : Evolves T s s' := fun hs => ⟨h.sound hs, fun i _ => h.waiting_eq i⟩

end SameQueue

@[simp] lemma setNbr_self (s : IpStack cfg δ) (i : Fin cfg.nbrNb)
    (f : Ds6Nbr cfg.clockWidth → Ds6Nbr cfg.clockWidth) :
    (s.setNbr i f).nbrCache i = f (s.nbrCache i) := Function.update_self ..

lemma setNbr_of_ne {f : Ds6Nbr cfg.clockWidth → Ds6Nbr cfg.clockWidth} (h : j ≠ i) :
    (s.setNbr i f).nbrCache j = s.nbrCache j := Function.update_of_ne h ..

/-- A change of an entry that keeps its handle and its use. -/
lemma setNbr_same {f : Ds6Nbr cfg.clockWidth → Ds6Nbr cfg.clockWidth}
    (hhandle : ∀ n, (f n).packethandle = n.packethandle) (hused : ∀ n, (f n).isused = n.isused) :
    SameQueue s (s.setNbr i f) := by
  refine ⟨fun j => ?_, fun j => ?_, rfl, rfl, rfl⟩
  · by_cases hj : j = i
    · rw [hj, setNbr_self, hhandle]
    · rw [setNbr_of_ne hj]
  · by_cases hj : j = i
    · rw [hj, setNbr_self, hused]
    · rw [setNbr_of_ne hj]

/-- The use of an entry without a packet changes. -/
lemma QueueSound.setUsed (hs : s.QueueSound) (hnone : (s.nbrCache i).packethandle = none)
    (hhandle : ∀ j, (s'.nbrCache j).packethandle = (s.nbrCache j).packethandle)
    (hused : ∀ j, j ≠ i → (s'.nbrCache j).isused = (s.nbrCache j).isused)
    (hmemb : s'.packetsMemb = s.packetsMemb) (hnext : s'.nextId = s.nextId)
    (hlog : s'.queueLog = s.queueLog) :
    s'.QueueSound ∧ ∀ j, s'.waiting j = s.waiting j := by
  refine ⟨⟨?_, ?_, ?_, ?_, ?_, ?_, ?_⟩, fun j => ?_⟩
  · exact hs.owned.congr (by rw [hmemb]) fun j => by rw [hhandle]
  · intro j b hb
    rw [hhandle] at hb
    by_cases hj : j = i
    · rw [hj, hnone] at hb
      cases hb
    · rw [hused j hj]
      exact hs.used j b hb
  · intro j b
    rw [hmemb, hhandle]
    exact hs.timed j b
  · rw [hlog, hnext]
    exact hs.log.fresh
  · rw [hlog]
    exact hs.log.unique
  · rw [hlog]
    exact hs.log.once
  · intro j b hb
    rw [hhandle] at hb
    rw [hlog, hmemb]
    exact hs.log.held j b hb
  · unfold waiting
    rw [hhandle, hmemb]

/-! ## A packet is taken off its entry -/

/-- The packet in the block `b` is taken off the entry `i`, and the block is freed; it may have been
handed back. -/
structure Releases (i : Fin cfg.nbrNb) (b : Fin maxNumQueuedPackets) (s s' : IpStack cfg δ) :
    Prop where
  held : (s.nbrCache i).packethandle = some b
  handle_self : (s'.nbrCache i).packethandle = none
  handle : ∀ j, j ≠ i → (s'.nbrCache j).packethandle = (s.nbrCache j).packethandle
  isused : ∀ j, j ≠ i → (s'.nbrCache j).isused = (s.nbrCache j).isused
  count : s'.packetsMemb.count = (s.packetsMemb.free b).count
  mem : ∀ c, c ≠ b → s'.packetsMemb.mem c = s.packetsMemb.mem c
  timer : (s'.packetsMemb.mem b).lifetimer = none
  nextId : s'.nextId = s.nextId
  log : s'.queueLog = s.queueLog ∨ s'.queueLog =
    .handed (s.packetsMemb.mem b).id i (s.packetsMemb.mem b).bytes :: s.queueLog

/-- A block has one holder. -/
lemma QueueSound.holder_unique (hs : s.QueueSound) (hi : (s.nbrCache i).packethandle = some b)
    (hj : (s.nbrCache j).packethandle = some b) : i = j :=
  hs.owned.parts.unique i j b (by rw [hi]; exact List.mem_singleton_self b)
    (by rw [hj]; exact List.mem_singleton_self b)

/-- The packets that wait have different numbers. -/
lemma QueueSound.id_ne {c : Fin maxNumQueuedPackets} (hs : s.QueueSound)
    (hi : (s.nbrCache i).packethandle = some b) (hj : (s.nbrCache j).packethandle = some c)
    (hne : j ≠ i) : (s.packetsMemb.mem c).id ≠ (s.packetsMemb.mem b).id := by
  intro heq
  have hb := (hs.log.held i b hi).1
  have hc := (hs.log.held j c hj).1
  rw [heq] at hc
  exact hne (hs.log.unique _ _ _ _ _ hc hb).1

lemma Releases.evolves (h : Releases i b s s') : Evolves (· = i) s s' := by
  intro hs
  have hother : ∀ j c, j ≠ i → (s.nbrCache j).packethandle = some c → c ≠ b := by
    rintro j c hj hc rfl
    exact hj (hs.holder_unique hc h.held)
  have hcases : ∀ j c, (s'.nbrCache j).packethandle = some c →
      j ≠ i ∧ (s.nbrCache j).packethandle = some c ∧ c ≠ b := by
    intro j c hc
    have hj : j ≠ i := by
      rintro rfl
      rw [h.handle_self] at hc
      cases hc
    rw [h.handle j hj] at hc
    exact ⟨hj, hc, hother j c hj hc⟩
  have hsub : ∀ e ∈ s.queueLog, e ∈ s'.queueLog := by
    intro e he
    rcases h.log with hlog | hlog <;> rw [hlog]
    · exact he
    · exact List.mem_cons_of_mem _ he
  have hparked : ∀ id j bytes, .parked id j bytes ∈ s'.queueLog → .parked id j bytes ∈ s.queueLog := by
    intro id j bytes he
    rcases h.log with hlog | hlog <;> rw [hlog] at he
    · exact he
    · exact (List.mem_cons.mp he).resolve_left (by simp)
  refine ⟨⟨?_, ?_, ?_, ?_, ?_, ?_, ?_⟩, ?_⟩
  · have hmem : b ∈ (s.nbrCache i).packethandle.toList := by
      rw [h.held]
      exact List.mem_singleton_self b
    refine (hs.owned.free_erase hmem).congr h.count fun j => ?_
    by_cases hj : j = i
    · rw [hj, Function.update_self, h.handle_self, h.held]
      simp [listRemove]
    · rw [Function.update_of_ne hj, h.handle j hj]
  · intro j c hc
    obtain ⟨hj, hc, -⟩ := hcases j c hc
    rw [h.isused j hj]
    exact hs.used j c hc
  · intro j c
    by_cases hcb : c = b
    · rw [hcb, h.timer]
      refine iff_of_false (fun hsome => absurd hsome (by simp)) fun hc => ?_
      exact (hcases j b hc).2.2 rfl
    · rw [h.mem c hcb, hs.timed]
      by_cases hj : j = i
      · rw [hj, h.handle_self, h.held]
        exact iff_of_false (fun heq => hcb (Option.some.inj heq).symm) (by simp)
      · rw [h.handle j hj]
  · intro id j bytes he
    rw [h.nextId]
    exact hs.log.fresh id j bytes (hparked id j bytes he)
  · intro id j bytes k bytes' he he'
    exact hs.log.unique id j bytes k bytes' (hparked _ _ _ he) (hparked _ _ _ he')
  · intro later earlier id j bytes heq
    rcases h.log with hlog | hlog <;> rw [hlog] at heq
    · exact hs.log.once later earlier id j bytes heq
    · cases later with
      | nil =>
        obtain ⟨he, rfl⟩ := List.cons.inj heq
        cases he
        exact hs.log.held i b h.held
      | cons e later => exact hs.log.once later earlier id j bytes (List.cons.inj heq).2
  · intro j c hc
    obtain ⟨hj, hc, hcb⟩ := hcases j c hc
    obtain ⟨hpark, hnot⟩ := hs.log.held j c hc
    rw [h.mem c hcb]
    refine ⟨hsub _ hpark, fun k bytes' he => ?_⟩
    rcases h.log with hlog | hlog <;> rw [hlog] at he
    · exact hnot k bytes' he
    · rcases List.mem_cons.mp he with he | he
      · injection he with hid
        exact hs.id_ne h.held hc hj hid
      · exact hnot k bytes' he
  · intro j hj
    unfold waiting
    rw [h.handle j hj]
    cases hc : (s.nbrCache j).packethandle with
    | none => rfl
    | some c => exact congrArg some (h.mem c (hother j c hj hc))

/-! ## The functions of the queue -/

lemma setLifetimer_mem (s : IpStack cfg δ) (b : Fin maxNumQueuedPackets) (h : Option (Fin cfg.nbrNb)) :
    ((s.setLifetimer b h).packetsMemb.mem b).lifetimer = h := by
  show (Function.update s.packetsMemb.mem b _ b).lifetimer = h
  rw [Function.update_self]

lemma setLifetimer_of_ne {c : Fin maxNumQueuedPackets} {h : Option (Fin cfg.nbrNb)} (hc : c ≠ b) :
    (s.setLifetimer b h).packetsMemb.mem c = s.packetsMemb.mem c := Function.update_of_ne hc ..

lemma write_free_count {α : Type*} {n : ℕ} (m : Memb α n) (c : Fin n) (a : α) :
    ((m.write c a).free c).count = (m.free c).count := by
  unfold Memb.free
  rw [Memb.write_count]
  split <;> rfl

/-- `uip_packetqueue_free`, when there is a packet. -/
lemma uipPacketqueueFree_eq (hb : (s.nbrCache i).packethandle = some b) :
    s.uipPacketqueueFree i =
      ({ s.setLifetimer b none with
          packetsMemb := (s.setLifetimer b none).packetsMemb.free b } : IpStack cfg δ).setNbr i
        fun n => { n with packethandle := none } := by
  unfold uipPacketqueueFree
  rw [hb]

lemma uipPacketqueueFree_releases (hb : (s.nbrCache i).packethandle = some b) :
    Releases i b s (s.uipPacketqueueFree i) := by
  rw [uipPacketqueueFree_eq hb]
  refine ⟨hb, ?_, fun j hj => ?_, fun j hj => ?_, ?_, fun c hc => ?_, ?_, rfl, .inl rfl⟩
  · rw [setNbr_self]
  · rw [setNbr_of_ne hj]
    rfl
  · rw [setNbr_of_ne hj]
    rfl
  · exact write_free_count _ _ _
  · show ((s.setLifetimer b none).packetsMemb.free b).mem c = _
    rw [Memb.free_mem, setLifetimer_of_ne hc]
  · show (((s.setLifetimer b none).packetsMemb.free b).mem b).lifetimer = none
    rw [Memb.free_mem, setLifetimer_mem]

/-- A neighbour is removed with its packet. -/
lemma uipDs6NbrRm_evolves (s : IpStack cfg δ) (i : Fin cfg.nbrNb) :
    Evolves (· = i) s (s.uipDs6NbrRm i) := by
  have hhandle : ∀ j, ((s.setNbr i fun n => { n with isused := false }).nbrCache j).packethandle =
      (s.nbrCache j).packethandle := by
    intro j
    by_cases hj : j = i
    · rw [hj, setNbr_self]
    · rw [setNbr_of_ne hj]
  cases hb : (s.nbrCache i).packethandle with
  | none =>
    have heq : s.uipDs6NbrRm i = s.setNbr i fun n => { n with isused := false } := by
      unfold uipDs6NbrRm uipPacketqueueFree
      rw [hhandle, hb]
    rw [heq]
    intro hs
    obtain ⟨hsound, hwaiting⟩ := hs.setUsed hb hhandle (fun j hj => by rw [setNbr_of_ne hj]) rfl rfl rfl
    exact ⟨hsound, fun j _ => hwaiting j⟩
  | some b =>
    have hr := uipPacketqueueFree_releases ((hhandle i).trans hb)
    refine Releases.evolves (b := b) ⟨hb, hr.handle_self, fun j hj => ?_, fun j hj => ?_, hr.count, hr.mem,
      hr.timer, hr.nextId, hr.log⟩
    · exact (hr.handle j hj).trans (hhandle j)
    · refine (hr.isused j hj).trans ?_
      rw [setNbr_of_ne hj]

lemma uipPacketqueueFree_log (s : IpStack cfg δ) (i : Fin cfg.nbrNb) :
    (s.uipPacketqueueFree i).queueLog = s.queueLog := by
  unfold uipPacketqueueFree
  split <;> rfl

lemma uipPacketqueueFree_isused (s : IpStack cfg δ) (i j : Fin cfg.nbrNb) :
    ((s.uipPacketqueueFree i).nbrCache j).isused = (s.nbrCache j).isused := by
  cases hb : (s.nbrCache i).packethandle with
  | none =>
    unfold uipPacketqueueFree
    rw [hb]
  | some b =>
    rw [uipPacketqueueFree_eq hb]
    by_cases hj : j = i
    · rw [hj, setNbr_self]
      rfl
    · rw [setNbr_of_ne hj]
      rfl

lemma uipDs6NbrRm_isused (s : IpStack cfg δ) (i j : Fin cfg.nbrNb) :
    ((s.uipDs6NbrRm i).nbrCache j).isused =
      if j = i then false else (s.nbrCache j).isused := by
  rw [uipDs6NbrRm, uipPacketqueueFree_isused]
  by_cases hj : j = i
  · rw [if_pos hj, hj, setNbr_self]
  · rw [if_neg hj, setNbr_of_ne hj]

/-- The timer of a packet expires. -/
lemma lifetimerExpires_evolves (s : IpStack cfg δ) (b : Fin maxNumQueuedPackets) :
    Evolves (fun i => (s.packetsMemb.mem b).lifetimer = some i) s (s.lifetimerExpires b) := by
  intro hs
  cases ht : (s.packetsMemb.mem b).lifetimer with
  | none =>
    have heq : s.lifetimerExpires b = s := by
      unfold lifetimerExpires
      rw [ht]
    rw [heq]
    exact ⟨hs, fun _ _ => rfl⟩
  | some h =>
    have hb := (hs.timed h b).mp ht
    have heq : s.lifetimerExpires b = s.uipPacketqueueFree h := by
      rw [uipPacketqueueFree_eq hb]
      unfold lifetimerExpires
      rw [ht]
      show (s.setLifetimer b none).packetTimedout h = _
      unfold packetTimedout
      rw [show ((s.setLifetimer b none).nbrCache h).packethandle = some b from hb]
    rw [heq]
    obtain ⟨hsound, hframe⟩ := (uipPacketqueueFree_releases hb).evolves hs
    exact ⟨hsound, fun j hj => hframe j fun heq => hj (by rw [heq])⟩

/-- A packet is handed back. -/
lemma handBack_evolves (hb : (s.nbrCache i).packethandle = some b) :
    Evolves (· = i) s (s.handBack i b) := by
  have hr := uipPacketqueueFree_releases
    (s := { s with
      uipBuf := ⟨memcpy s.uipBuf.bytes 0 (s.packetsMemb.mem b).bytes, (s.packetsMemb.mem b).queueBufLen⟩
      queueLog := .handed (s.packetsMemb.mem b).id i (s.packetsMemb.mem b).bytes :: s.queueLog }) hb
  refine Releases.evolves (b := b) ⟨hb, hr.handle_self, hr.handle, hr.isused, hr.count, hr.mem, hr.timer,
    hr.nextId, .inr ?_⟩
  exact uipPacketqueueFree_log _ _

/-- A free entry is filled. -/
lemma fillNbr_evolves {ipaddr : IpAddr} {lladdr : Option Lladdr} {isrouter : Bool} {state : NbrState}
    (hfree : (s.nbrCache i).isused = false) :
    Evolves T s (s.fillNbr i ipaddr lladdr isrouter state) := by
  intro hs
  have hnone : (s.nbrCache i).packethandle = none := by
    cases hb : (s.nbrCache i).packethandle with
    | none => rfl
    | some b =>
      have hused := hs.used i b hb
      rw [hfree] at hused
      cases hused
  have hsame : (s.fillNbr i ipaddr lladdr isrouter state).QueueSound ∧
      ∀ j, (s.fillNbr i ipaddr lladdr isrouter state).waiting j = s.waiting j := by
    refine hs.setUsed hnone (fun j => ?_) (fun j hj => ?_) rfl rfl rfl
    · unfold fillNbr uipPacketqueueNew
      by_cases hj : j = i
      · rw [hj, setNbr_self, hnone]
      · rw [setNbr_of_ne hj, setNbr_of_ne hj]
    · unfold fillNbr uipPacketqueueNew
      rw [setNbr_of_ne hj, setNbr_of_ne hj]
  exact ⟨hsame.1, fun j _ => hsame.2 j⟩

/-- A packet is parked in the block `b` for the entry `i`. -/
structure Parks (i : Fin cfg.nbrNb) (b : Fin maxNumQueuedPackets) (s s' : IpStack cfg δ) : Prop where
  free : (s.nbrCache i).packethandle = none
  used : (s.nbrCache i).isused = true
  alloc : ∃ memb, s.packetsMemb.alloc = some (b, memb) ∧ s'.packetsMemb.count = memb.count
  handle_self : (s'.nbrCache i).packethandle = some b
  handle : ∀ j, j ≠ i → (s'.nbrCache j).packethandle = (s.nbrCache j).packethandle
  isused : ∀ j, (s'.nbrCache j).isused = (s.nbrCache j).isused
  mem : ∀ c, c ≠ b → s'.packetsMemb.mem c = s.packetsMemb.mem c
  timer : (s'.packetsMemb.mem b).lifetimer = some i
  id : (s'.packetsMemb.mem b).id = s.nextId
  nextId : s'.nextId = s.nextId + 1
  log : s'.queueLog = .parked s.nextId i (s'.packetsMemb.mem b).bytes :: s.queueLog

/-- What was handed back was parked before. -/
lemma LogSound.handed_lt (h : s.LogSound) {id : ℕ} {bytes : List UInt8}
    (hmem : .handed id i bytes ∈ s.queueLog) : id < s.nextId := by
  obtain ⟨later, earlier, heq⟩ := List.append_of_mem hmem
  have hparked := (h.once later earlier id i bytes heq).1
  refine h.fresh id i bytes ?_
  rw [heq]
  exact List.mem_append_right _ (List.mem_cons_of_mem _ hparked)

lemma Parks.evolves (h : Parks i b s s') : Evolves (· = i) s s' := by
  intro hs
  obtain ⟨memb, halloc, hcount⟩ := h.alloc
  have hzero := (Memb.alloc_eq_some halloc).1
  have hother : ∀ j c, (s.nbrCache j).packethandle = some c → c ≠ b ∧ j ≠ i := by
    intro j c hc
    refine ⟨?_, ?_⟩
    · rintro rfl
      refine hs.owned.fresh_notMem hzero j ?_
      rw [hc]
      exact List.mem_singleton_self c
    · rintro rfl
      rw [h.free] at hc
      cases hc
  have hparked : ∀ id j bytes, .parked id j bytes ∈ s'.queueLog →
      (id = s.nextId ∧ j = i ∧ bytes = (s'.packetsMemb.mem b).bytes) ∨
        .parked id j bytes ∈ s.queueLog := by
    intro id j bytes he
    rw [h.log] at he
    rcases List.mem_cons.mp he with he | he
    · injection he with hid hj hbytes
      exact .inl ⟨hid, hj, hbytes⟩
    · exact .inr he
  have hhanded : ∀ id j bytes, .handed id j bytes ∈ s'.queueLog → .handed id j bytes ∈ s.queueLog := by
    intro id j bytes he
    rw [h.log] at he
    exact (List.mem_cons.mp he).resolve_left nofun
  refine ⟨⟨?_, ?_, ?_, ?_, ?_, ?_, ?_⟩, ?_⟩
  · have hlist : ∀ a, a ∈ [b] ↔ a ∈ (s.nbrCache i).packethandle.toList ∨ a = b := by
      intro a
      rw [h.free, List.mem_singleton]
      exact ⟨.inr, fun ha => ha.resolve_left (List.not_mem_nil)⟩
    refine (hs.owned.alloc_give halloc i (List.nodup_singleton b) hlist).congr hcount fun j => ?_
    by_cases hj : j = i
    · rw [hj, Function.update_self, h.handle_self]
      rfl
    · rw [Function.update_of_ne hj, h.handle j hj]
  · intro j c hc
    rw [h.isused]
    by_cases hj : j = i
    · rw [hj]
      exact h.used
    · rw [h.handle j hj] at hc
      exact hs.used j c hc
  · intro j c
    by_cases hj : j = i
    · rw [hj, h.handle_self]
      by_cases hcb : c = b
      · rw [hcb, h.timer]
        exact iff_of_true rfl rfl
      · rw [h.mem c hcb, hs.timed, h.free]
        exact iff_of_false nofun fun heq => hcb (Option.some.inj heq).symm
    · rw [h.handle j hj]
      by_cases hcb : c = b
      · rw [hcb, h.timer]
        refine iff_of_false (fun heq => hj (Option.some.inj heq).symm) fun hc => ?_
        exact (hother j b hc).1 rfl
      · rw [h.mem c hcb]
        exact hs.timed j c
  · intro id j bytes he
    rw [h.nextId]
    rcases hparked id j bytes he with ⟨hid, -⟩ | he
    · omega
    · exact Nat.lt_succ_of_lt (hs.log.fresh id j bytes he)
  · intro id j bytes k bytes' he he'
    rcases hparked id j bytes he with ⟨hid, hj, hbytes⟩ | he
    · rcases hparked id k bytes' he' with ⟨-, hk, hbytes'⟩ | he'
      · exact ⟨hj.trans hk.symm, hbytes.trans hbytes'.symm⟩
      · exact absurd (hs.log.fresh id k bytes' he') (by omega)
    · rcases hparked id k bytes' he' with ⟨hid, -⟩ | he'
      · exact absurd (hs.log.fresh id j bytes he) (by omega)
      · exact hs.log.unique id j bytes k bytes' he he'
  · intro later earlier id j bytes heq
    rw [h.log] at heq
    cases later with
    | nil => cases (List.cons.inj heq).1
    | cons e later => exact hs.log.once later earlier id j bytes (List.cons.inj heq).2
  · intro j c hc
    by_cases hj : j = i
    · rw [hj, h.handle_self] at hc
      cases hc
      rw [hj, h.id]
      refine ⟨?_, fun k bytes he => ?_⟩
      · rw [h.log]
        exact List.mem_cons_self
      · exact absurd (hs.log.handed_lt (hhanded _ k bytes he)) (Nat.lt_irrefl _)
    · rw [h.handle j hj] at hc
      obtain ⟨hpark, hnot⟩ := hs.log.held j c hc
      rw [h.mem c (hother j c hc).1]
      refine ⟨?_, fun k bytes he => hnot k bytes (hhanded _ k bytes he)⟩
      rw [h.log]
      exact List.mem_cons_of_mem _ hpark
  · intro j hj
    unfold waiting
    rw [h.handle j hj]
    cases hc : (s.nbrCache j).packethandle with
    | none => rfl
    | some c => exact congrArg some (h.mem c (hother j c hc).1)

/-- The packet in `uip_buf` is parked for an entry in use, if there is a block. -/
lemma park_evolves (hused : (s.nbrCache i).isused = true) (hpark : s.park i = .ok s') :
    Evolves (· = i) s s' := by
  unfold park uipPacketqueueAlloc at hpark
  by_cases hnone : (s.nbrCache i).packethandle = none
  · rw [if_neg (not_not_intro hnone)] at hpark
    cases halloc : s.packetsMemb.alloc with
    | none =>
      rw [halloc] at hpark
      cases hpark
      exact .refl s
    | some r =>
      obtain ⟨b, memb⟩ := r
      rw [halloc] at hpark
      dsimp only [Option.map_some] at hpark
      split_ifs at hpark
      cases hpark
      have hmem := congrArg Memb.mem (Memb.alloc_eq_some halloc).2
      have hlen : (copyBytes s.uipBuf.bytes 0 s.uipBuf.len.toNat).length = s.uipBuf.len.toNat := by
        simp [copyBytes]
      refine Parks.evolves (b := b) ⟨hnone, hused, ⟨memb, halloc, rfl⟩, ?_, fun j hj => ?_, fun j => ?_,
        fun c hc => ?_, ?_, ?_, rfl, ?_⟩
      · show (Function.update s.nbrCache i _ i).packethandle = some b
        rw [Function.update_self]
      · show (Function.update s.nbrCache i _ j).packethandle = _
        rw [Function.update_of_ne hj]
      · show (Function.update s.nbrCache i _ j).isused = _
        by_cases hj : j = i
        · rw [hj, Function.update_self]
        · rw [Function.update_of_ne hj]
      · show Function.update (Function.update memb.mem b _) b _ c = _
        rw [Function.update_of_ne hc, Function.update_of_ne hc]
        exact congrFun hmem c
      · show (Function.update (Function.update memb.mem b _) b _ b).lifetimer = some i
        rw [Function.update_self]
        exact setLifetimer_mem _ b (some i)
      · show (Function.update (Function.update memb.mem b _) b _ b).id = s.nextId
        rw [Function.update_self]
        rfl
      · show _ = QueueEntry.parked s.nextId i
          (Function.update (Function.update memb.mem b _) b _ b).bytes :: s.queueLog
        rw [Function.update_self]
        exact congrArg (QueueEntry.parked s.nextId i · :: s.queueLog) (copyBytes_memcpy _ 0 hlen).symm
  · rw [if_pos hnone] at hpark
    cases hpark
    exact .refl s

/-! ## The cache -/

/-- The entry for an address: the one that has it, or else the one that would be filled. -/
def slotFor (s : IpStack cfg δ) (ipaddr : IpAddr) : Option (Fin cfg.nbrNb) :=
  match s.nbrLoop ipaddr with
  | .found i => some i
  | .freespace i => some i
  | .nospace => s.oldestNbr

lemma slotFor_of_lookup {ipaddr : IpAddr} (h : s.uipDs6NbrLookup ipaddr = some i) :
    s.slotFor ipaddr = some i := by
  unfold uipDs6NbrLookup at h
  unfold slotFor
  split at h
  · rename_i j hloop
    rw [hloop]
    exact h
  · cases h

/-- An entry that has the address and is the only one is found. -/
lemma slotFor_of_unique {ipaddr : IpAddr} (hused : (s.nbrCache i).isused = true)
    (haddr : (s.nbrCache i).ipaddr = ipaddr)
    (huniq : ∀ j, j ≠ i → ¬ ((s.nbrCache j).isused = true ∧ (s.nbrCache j).ipaddr = ipaddr)) :
    s.slotFor ipaddr = some i := by
  have hmatch : ListLoop.Matches (fun j => (s.nbrCache j).toDs6Element) ipaddr 128 i :=
    ⟨hused, (IpAddr.uipIpaddrPrefixcmp_128 _ _).mpr haddr⟩
  unfold slotFor
  cases hloop : s.nbrLoop ipaddr with
  | found j =>
    obtain ⟨hjused, hjcmp⟩ := ListLoop.found_spec hloop
    by_contra hne
    exact huniq j (fun hj => hne (by rw [hj])) ⟨hjused, (IpAddr.uipIpaddrPrefixcmp_128 _ _).mp hjcmp⟩
  | freespace j => exact absurd hmatch ((ListLoop.freespace_spec hloop).2 i)
  | nospace => exact absurd hmatch ((ListLoop.nospace_spec hloop).2 i)

lemma fillNbr_self {t : IpStack cfg δ} {a : IpAddr} {l : Option Lladdr} {r : Bool} {n : NbrState} :
    ((t.fillNbr i a l r n).nbrCache i).isused = true ∧ ((t.fillNbr i a l r n).nbrCache i).ipaddr = a := by
  unfold fillNbr uipPacketqueueNew
  rw [setNbr_self, setNbr_self]
  exact ⟨rfl, rfl⟩

lemma fillNbr_of_ne {ipaddr : IpAddr} {lladdr : Option Lladdr} {isrouter : Bool} {state : NbrState}
    (hj : j ≠ i) : (s.fillNbr i ipaddr lladdr isrouter state).nbrCache j = s.nbrCache j := by
  unfold fillNbr uipPacketqueueNew
  rw [setNbr_of_ne hj, setNbr_of_ne hj]

lemma uipDs6NbrRm_of_ne (hj : j ≠ i) : (s.uipDs6NbrRm i).nbrCache j = s.nbrCache j := by
  have hfree : ∀ t : IpStack cfg δ, (t.uipPacketqueueFree i).nbrCache j = t.nbrCache j := by
    intro t
    cases hb : (t.nbrCache i).packethandle with
    | none =>
      unfold uipPacketqueueFree
      rw [hb]
    | some b =>
      rw [uipPacketqueueFree_eq hb, setNbr_of_ne hj]
      rfl
  rw [uipDs6NbrRm, hfree, setNbr_of_ne hj]

/-- What `uip_ds6_nbr_add` does: nothing, or the entry for the address is filled, after its neighbour was
removed if there was no room. -/
lemma uipDs6NbrAdd_cases (s : IpStack cfg δ) (ipaddr : IpAddr) (lladdr : Option Lladdr) (isrouter : Bool)
    (state : NbrState) :
    ((s.uipDs6NbrAdd ipaddr lladdr isrouter state).1 = none ∧
      Evolves (fun i => s.slotFor ipaddr = some i) s (s.uipDs6NbrAdd ipaddr lladdr isrouter state).2 ∧
      ((s.uipDs6NbrAdd ipaddr lladdr isrouter state).2 = s)) ∨
    ∃ i t, s.uipDs6NbrAdd ipaddr lladdr isrouter state =
        (some i, t.fillNbr i ipaddr lladdr isrouter state) ∧
      s.slotFor ipaddr = some i ∧ (t.nbrCache i).isused = false ∧ Evolves (· = i) s t ∧
      (∀ j, j ≠ i → t.nbrCache j = s.nbrCache j) ∧
      ∀ j, ¬ ((s.nbrCache j).isused = true ∧ (s.nbrCache j).ipaddr = ipaddr) := by
  have hnone : ∀ j, ¬ ListLoop.Matches (fun j => (s.nbrCache j).toDs6Element) ipaddr 128 j →
      ¬ ((s.nbrCache j).isused = true ∧ (s.nbrCache j).ipaddr = ipaddr) :=
    fun j hj h => hj ⟨h.1, (IpAddr.uipIpaddrPrefixcmp_128 _ _).mpr h.2⟩
  unfold uipDs6NbrAdd slotFor
  rw [nbrAddFrom]
  cases hloop : s.nbrLoop ipaddr with
  | found i => exact .inl ⟨rfl, .refl s, rfl⟩
  | freespace i =>
    obtain ⟨hfree, hmatch⟩ := ListLoop.freespace_spec hloop
    exact .inr ⟨i, s, rfl, rfl, hfree, .refl s, fun _ _ => rfl, fun j => hnone j (hmatch j)⟩
  | nospace =>
    obtain ⟨hall, hmatch⟩ := ListLoop.nospace_spec hloop
    cases hold : s.oldestNbr with
    | none => exact .inl ⟨rfl, .refl s, rfl⟩
    | some i =>
      dsimp only
      rw [nbrAddFrom]
      -- The entry that was freed is the only one to find.
      have hunused : ∀ j, ((s.uipDs6NbrRm i).nbrCache j).isused = false ↔ j = i := by
        intro j
        rw [uipDs6NbrRm_isused]
        by_cases hj : j = i
        · rw [if_pos hj]
          exact iff_of_true rfl hj
        · rw [if_neg hj]
          refine iff_of_false (fun h => ?_) hj
          exact absurd (hall j) (by rw [h]; nofun)
      cases hloop' : (s.uipDs6NbrRm i).nbrLoop ipaddr with
      | found j =>
        obtain ⟨hjused, hjcmp⟩ := ListLoop.found_spec hloop'
        have hj : j ≠ i := fun hj => by
          have hfalse := (hunused j).mpr hj
          have htrue : ((s.uipDs6NbrRm i).nbrCache j).isused = true := hjused
          rw [hfalse] at htrue
          cases htrue
        have hsame := uipDs6NbrRm_of_ne (s := s) hj
        refine absurd ⟨?_, ?_⟩ (hmatch j)
        · exact hall j
        · have hcmp : ((s.uipDs6NbrRm i).nbrCache j).ipaddr.uipIpaddrPrefixcmp ipaddr 128 = true := hjcmp
          rwa [hsame] at hcmp
      | freespace j =>
        have hj : j = i := (hunused j).mp (ListLoop.freespace_spec hloop').1
        rw [hj]
        exact .inr ⟨i, _, rfl, rfl, (hunused i).mpr rfl, uipDs6NbrRm_evolves s i,
          fun k hk => uipDs6NbrRm_of_ne hk, fun k => hnone k (hmatch k)⟩
      | nospace =>
        have htrue : ((s.uipDs6NbrRm i).nbrCache i).isused = true := (ListLoop.nospace_spec hloop').1 i
        rw [(hunused i).mpr rfl] at htrue
        cases htrue

/-- `uip_ds6_nbr_add` touches the entry for the address only; afterwards it is the entry of the
address. -/
lemma uipDs6NbrAdd_evolves (s : IpStack cfg δ) (ipaddr : IpAddr) (lladdr : Option Lladdr)
    (isrouter : Bool) (state : NbrState) :
    Evolves (fun i => s.slotFor ipaddr = some i) s (s.uipDs6NbrAdd ipaddr lladdr isrouter state).2 ∧
      (∀ i, (s.uipDs6NbrAdd ipaddr lladdr isrouter state).2.slotFor ipaddr = some i →
        s.slotFor ipaddr = some i) ∧
      ∀ i, (s.uipDs6NbrAdd ipaddr lladdr isrouter state).1 = some i →
        s.slotFor ipaddr = some i ∧
          ((s.uipDs6NbrAdd ipaddr lladdr isrouter state).2.nbrCache i).isused = true := by
  rcases uipDs6NbrAdd_cases s ipaddr lladdr isrouter state with
    ⟨hres, hev, heq⟩ | ⟨i, t, heq, hslot, hfree, hev, hsame, hfresh⟩
  · refine ⟨hev, fun i hi => ?_, fun i hi => ?_⟩
    · rwa [heq] at hi
    · rw [hres] at hi
      cases hi
  · rw [heq]
    obtain ⟨hused, haddr⟩ := fillNbr_self (t := t) (i := i) (a := ipaddr) (l := lladdr)
      (r := isrouter) (n := state)
    refine ⟨?_, fun j hj => ?_, fun j hj => ?_⟩
    · refine (hev.trans (fillNbr_evolves hfree)).mono fun j hj => ?_
      rw [hj]
      exact hslot
    · rw [slotFor_of_unique hused haddr] at hj
      · rw [← hj]
        exact hslot
      · intro k hk
        rw [fillNbr_of_ne hk, hsame k hk]
        exact hfresh k
    · cases hj
      exact ⟨hslot, hused⟩

end IpStack
end Contiki

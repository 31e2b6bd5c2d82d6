import Contiki.Mac.Csma

/-!
# Entries and buffers of the CSMA queue

`Csma.Owned` says that the queue holds exactly the allocated entries, each with a queue buffer of its
own.  The specifications say what each function makes of such a state; none of them uses a block that
was given back.

* `Csma.Awake` — while the queue is not empty, a transmission is outstanding or the timer is set.
* `Csma.ByValue` — a packet that is to be transmitted again is no reference: the attributes of the packet
  buffer are written to its queue buffer, and a reference has no room for them.
* `Csma.Lively`, `Csma.queue_never_stalls` — what holds in all runs of such events.
-/

namespace Contiki
namespace Csma
variable {nBuf nRef : ℕ} {s s' : Csma nBuf nRef} {b b' : QueuebufPtr nBuf nRef}
  {q : Fin maxQueuedPackets} {rest : List (Fin maxQueuedPackets)}

/-! ## Queue buffers -/

/-- What a queue buffer holds. -/
def stored (s : Csma nBuf nRef) : QueuebufPtr nBuf nRef → Queuebuf ⊕ QueuebufRef
  | .buf i => .inl (s.bufmem.mem i)
  | .ref i => .inr (s.refbufmem.mem i)

/-- What a queue buffer for the packet in the packet buffer holds. -/
def toStore (s : Csma nBuf nRef) : Queuebuf ⊕ QueuebufRef :=
  match s.packetbuf.reference with
  | none => .inl ⟨s.packetbuf.copyto s.mem, s.packetbuf.attrs⟩
  | some ptr => .inr ⟨s.packetbuf.buflen, ptr, s.packetbuf.hdr⟩

/-- No queue buffer is allocated twice. -/
def BufCounted (s : Csma nBuf nRef) : Prop :=
  (∀ i, s.bufmem.count i ≤ 1) ∧ ∀ i, s.refbufmem.count i ≤ 1

/-- Only the pools of queue buffers differ. -/
def SameButBufs (s s' : Csma nBuf nRef) : Prop :=
  ∃ bufmem refbufmem, s' = { s with bufmem, refbufmem }

/-- `s'` has the additional queue buffer `b`. -/
structure TakesBuf (s : Csma nBuf nRef) (b : QueuebufPtr nBuf nRef) (s' : Csma nBuf nRef) : Prop where
  same : SameButBufs s s'
  fresh : ¬s.BufLive b
  live : ∀ b', s'.BufLive b' ↔ s.BufLive b' ∨ b' = b
  counted : s.BufCounted → s'.BufCounted
  stored : ∀ b', b' ≠ b → s'.stored b' = s.stored b'
  content : s'.stored b = s.toStore

/-- `s'` is without the queue buffer `b`. -/
structure FreesBuf (s : Csma nBuf nRef) (b : QueuebufPtr nBuf nRef) (s' : Csma nBuf nRef) : Prop where
  same : SameButBufs s s'
  live : ∀ b', s'.BufLive b' ↔ s.BufLive b' ∧ b' ≠ b
  counted : s'.BufCounted
  stored : ∀ b', s'.stored b' = s.stored b'

lemma queuebufNew_spec (h : s.queuebufNew = some (b, s')) : TakesBuf s b s' := by
  unfold queuebufNew at h
  cases href : s.packetbuf.reference with
  | none =>
    rw [href] at h
    obtain ⟨⟨i, pool⟩, halloc, heq⟩ := Option.map_eq_some_iff.mp h
    cases heq
    obtain ⟨hzero, rfl⟩ := Memb.alloc_eq_some halloc
    refine ⟨⟨_, _, rfl⟩, fun hlive => hlive hzero, ?_, ?_, ?_, ?_⟩
    · rintro (j | j)
      · show Function.update s.bufmem.count i _ j ≠ 0 ↔ s.bufmem.count j ≠ 0 ∨ _
        by_cases hj : j = i
        · rw [hj, Function.update_self]
          exact iff_of_true (Nat.succ_ne_zero _) (.inr rfl)
        · rw [Function.update_of_ne hj]
          refine ⟨.inl, fun h => h.resolve_right fun heq => hj ?_⟩
          injection heq
      · exact ⟨.inl, fun h => h.resolve_right nofun⟩
    · rintro ⟨hbuf, href⟩
      refine ⟨fun j => ?_, href⟩
      show Function.update s.bufmem.count i _ j ≤ 1
      by_cases hj : j = i
      · rw [hj, Function.update_self, hzero]
      · rw [Function.update_of_ne hj]
        exact hbuf j
    · rintro (j | j) hne
      · show Sum.inl (Function.update s.bufmem.mem i _ j) = Sum.inl (s.bufmem.mem j)
        rw [Function.update_of_ne fun hj => hne (by rw [hj])]
      · rfl
    · show Sum.inl (Function.update s.bufmem.mem i _ i) = s.toStore
      rw [Function.update_self, toStore, href]
  | some ptr =>
    rw [href] at h
    obtain ⟨⟨i, pool⟩, halloc, heq⟩ := Option.map_eq_some_iff.mp h
    cases heq
    obtain ⟨hzero, rfl⟩ := Memb.alloc_eq_some halloc
    refine ⟨⟨_, _, rfl⟩, fun hlive => hlive hzero, ?_, ?_, ?_, ?_⟩
    · rintro (j | j)
      · exact ⟨.inl, fun h => h.resolve_right nofun⟩
      · show Function.update s.refbufmem.count i _ j ≠ 0 ↔ s.refbufmem.count j ≠ 0 ∨ _
        by_cases hj : j = i
        · rw [hj, Function.update_self]
          exact iff_of_true (Nat.succ_ne_zero _) (.inr rfl)
        · rw [Function.update_of_ne hj]
          refine ⟨.inl, fun h => h.resolve_right fun heq => hj ?_⟩
          injection heq
    · rintro ⟨hbuf, href⟩
      refine ⟨hbuf, fun j => ?_⟩
      show Function.update s.refbufmem.count i _ j ≤ 1
      by_cases hj : j = i
      · rw [hj, Function.update_self, hzero]
      · rw [Function.update_of_ne hj]
        exact href j
    · rintro (j | j) hne
      · rfl
      · show Sum.inr (Function.update s.refbufmem.mem i _ j) = Sum.inr (s.refbufmem.mem j)
        rw [Function.update_of_ne fun hj => hne (by rw [hj])]
    · show Sum.inr (Function.update s.refbufmem.mem i _ i) = s.toStore
      rw [Function.update_self, toStore, href]

/-- A block that is allocated once is given back. -/
lemma free_count {α : Type} {n : ℕ} {m : Memb α n} {i : Fin n} (hle : m.count i ≤ 1)
    (hlive : m.count i ≠ 0) : (m.free i).count = Function.update m.count i 0 := by
  have hone : m.count i = 1 := by omega
  unfold Memb.free
  rw [if_pos (by omega), hone]

lemma queuebufFree_spec (hlive : s.BufLive b) (hcounted : s.BufCounted) :
    ∃ s', s.queuebufFree b = .ok s' ∧ FreesBuf s b s' := by
  obtain ⟨hbuf, href⟩ := hcounted
  cases b with
  | buf i =>
    refine ⟨{ s with bufmem := s.bufmem.free i }, ?_, ⟨_, _, rfl⟩, ?_, ⟨fun j => ?_, href⟩, ?_⟩
    · rw [queuebufFree, if_pos hlive]
    · rintro (j | j)
      · show (s.bufmem.free i).count j ≠ 0 ↔ s.bufmem.count j ≠ 0 ∧ _
        rw [free_count (hbuf i) hlive]
        by_cases hj : j = i
        · rw [hj, Function.update_self]
          exact iff_of_false (fun h => h rfl) fun h => h.2 rfl
        · rw [Function.update_of_ne hj]
          exact ⟨fun h => ⟨h, fun heq => hj (by injection heq)⟩, And.left⟩
      · exact ⟨fun h => ⟨h, nofun⟩, And.left⟩
    · show (s.bufmem.free i).count j ≤ 1
      rw [free_count (hbuf i) hlive]
      by_cases hj : j = i
      · rw [hj, Function.update_self]
        exact Nat.zero_le 1
      · rw [Function.update_of_ne hj]
        exact hbuf j
    · rintro (j | j)
      · show Sum.inl ((s.bufmem.free i).mem j) = _
        rw [Memb.free_mem]
        rfl
      · rfl
  | ref i =>
    refine ⟨{ s with refbufmem := s.refbufmem.free i }, ?_, ⟨_, _, rfl⟩, ?_, ⟨hbuf, fun j => ?_⟩, ?_⟩
    · rw [queuebufFree, if_pos hlive]
    · rintro (j | j)
      · exact ⟨fun h => ⟨h, nofun⟩, And.left⟩
      · show (s.refbufmem.free i).count j ≠ 0 ↔ s.refbufmem.count j ≠ 0 ∧ _
        rw [free_count (href i) hlive]
        by_cases hj : j = i
        · rw [hj, Function.update_self]
          exact iff_of_false (fun h => h rfl) fun h => h.2 rfl
        · rw [Function.update_of_ne hj]
          exact ⟨fun h => ⟨h, fun heq => hj (by injection heq)⟩, And.left⟩
    · show (s.refbufmem.free i).count j ≤ 1
      rw [free_count (href i) hlive]
      by_cases hj : j = i
      · rw [hj, Function.update_self]
        exact Nat.zero_le 1
      · rw [Function.update_of_ne hj]
        exact href j
    · rintro (j | j)
      · rfl
      · show Sum.inr ((s.refbufmem.free i).mem j) = _
        rw [Memb.free_mem]
        rfl

/-! ## Entries -/

/-- The queue holds the allocated entries, each with a queue buffer of its own. -/
structure Owned (s : Csma nBuf nRef) : Prop where
  nodup : s.queuedPacketList.Nodup
  mem_iff : ∀ q, q ∈ s.queuedPacketList ↔ s.packetMemb.count q ≠ 0
  count_le : ∀ q, s.packetMemb.count q ≤ 1
  bufLive : ∀ q ∈ s.queuedPacketList, s.BufLive (s.packetMemb.mem q).buf
  notOther : ∀ q ∈ s.queuedPacketList, (s.packetMemb.mem q).buf ∉ s.others
  injective : ∀ q ∈ s.queuedPacketList, ∀ q' ∈ s.queuedPacketList,
    (s.packetMemb.mem q).buf = (s.packetMemb.mem q').buf → q = q'
  counted : s.BufCounted
  othersNodup : s.others.Nodup
  othersLive : ∀ b ∈ s.others, s.BufLive b

namespace Owned

/-- Nothing else matters than the pools, the queue and what other modules hold. -/
lemma congr (h : s.Owned) (hbufmem : s'.bufmem.count = s.bufmem.count)
    (hrefbufmem : s'.refbufmem.count = s.refbufmem.count)
    (hmemb : s'.packetMemb = s.packetMemb) (hlist : s'.queuedPacketList = s.queuedPacketList)
    (hothers : s'.others = s.others) : s'.Owned := by
  have hlive : ∀ b, s'.BufLive b ↔ s.BufLive b := by
    rintro (i | i)
    · show s'.bufmem.count i ≠ 0 ↔ _
      rw [hbufmem]
      rfl
    · show s'.refbufmem.count i ≠ 0 ↔ _
      rw [hrefbufmem]
      rfl
  obtain ⟨hnodup, hmem, hcount, hbuf, hnot, hinj, hcounted, hothersNodup, hothersLive⟩ := h
  constructor
  · rwa [hlist]
  · rwa [hlist, hmemb]
  · rwa [hmemb]
  · intro q hq
    rw [hlist] at hq
    rw [hmemb, hlive]
    exact hbuf q hq
  · rwa [hlist, hmemb, hothers]
  · rwa [hlist, hmemb]
  · unfold BufCounted
    rwa [hbufmem, hrefbufmem]
  · rwa [hothers]
  · intro b hb
    rw [hothers] at hb
    exact (hlive b).mpr (hothersLive b hb)

lemma entry_eq (h : s.Owned) (hq : q ∈ s.queuedPacketList) :
    s.entry q = .ok (s.packetMemb.mem q) := by
  unfold entry
  rw [if_neg ((h.mem_iff q).mp hq)]

lemma walk_eq (h : s.Owned) : s.walk = .ok () := by
  unfold walk
  rw [if_pos fun q hq => (h.mem_iff q).mp hq]

/-- An entry keeps its queue buffer while its other fields change. -/
lemma write (h : s.Owned) {e : QueuedPacket nBuf nRef}
    (he : e.buf = (s.packetMemb.mem q).buf) :
    Owned { s with packetMemb := s.packetMemb.write q e } := by
  have hbuf : ∀ q', (Function.update s.packetMemb.mem q e q').buf = (s.packetMemb.mem q').buf := by
    intro q'
    by_cases hqq : q' = q
    · rw [hqq, Function.update_self, he]
    · rw [Function.update_of_ne hqq]
  refine ⟨h.nodup, h.mem_iff, h.count_le, ?_, ?_, ?_, h.counted, h.othersNodup, h.othersLive⟩
  · intro q' hq'
    show s.BufLive (Function.update s.packetMemb.mem q e q').buf
    rw [hbuf]
    exact h.bufLive q' hq'
  · intro q' hq'
    show (Function.update s.packetMemb.mem q e q').buf ∉ s.others
    rw [hbuf]
    exact h.notOther q' hq'
  · intro q' hq' q'' hq''
    show (Function.update s.packetMemb.mem q e q').buf =
      (Function.update s.packetMemb.mem q e q'').buf → _
    rw [hbuf, hbuf]
    exact h.injective q' hq' q'' hq''

end Owned

/-! ## The functions -/

/-- The head of the queue is transmitted. -/
lemma transmitQueuedPacket_spec (h : s.Owned) (hidle : s.rdcIsTransmitting = false)
    (hlist : s.queuedPacketList = q :: rest) :
    ∃ p, s.queuebufToPacketbuf (s.packetMemb.mem q).buf = .ok p ∧
      s.transmitQueuedPacket = .ok
        { s with
          packetbuf := p
          rdcIsTransmitting := true
          outstanding := q :: s.outstanding
          history.transmitted :=
            s.history.transmitted ++ [((s.packetMemb.mem q).id, p.frame s.mem)] } := by
  have hq : q ∈ s.queuedPacketList := by
    rw [hlist]
    exact List.mem_cons_self
  obtain ⟨p, hp⟩ : ∃ p, s.queuebufToPacketbuf (s.packetMemb.mem q).buf = .ok p := by
    unfold queuebufToPacketbuf
    rw [if_pos (h.bufLive q hq)]
    cases (s.packetMemb.mem q).buf <;> exact ⟨_, rfl⟩
  refine ⟨p, hp, ?_⟩
  unfold transmitQueuedPacket
  rw [hidle, if_neg (by decide), hlist]
  dsimp only
  rw [h.entry_eq hq, ok_bind, hp, ok_bind]

/-- The state after the head of the queue was freed. -/
structure HeadFreed (s : Csma nBuf nRef) (q : Fin maxQueuedPackets)
    (rest : List (Fin maxQueuedPackets)) (done : ℕ) (s' : Csma nBuf nRef) : Prop where
  owned : s'.Owned
  eq : ∃ bufmem refbufmem, s' =
    { s with
      bufmem
      refbufmem
      packetMemb := s.packetMemb.free q
      queuedPacketList := rest
      transmitTimer := s.transmitTimer || !rest.isEmpty
      history.freed := s.history.freed ++ [(done, (s.packetMemb.mem q).id)] }
  stored : ∀ b, s'.stored b = s.stored b

lemma freeQueuedPacket_spec (h : s.Owned) (hlist : s.queuedPacketList = q :: rest) (done : ℕ) :
    ∃ s', s.freeQueuedPacket done = .ok s' ∧ HeadFreed s q rest done s' := by
  have hq : q ∈ s.queuedPacketList := by
    rw [hlist]
    exact List.mem_cons_self
  have hnodup := h.nodup
  rw [hlist, List.nodup_cons] at hnodup
  obtain ⟨s₁, hfree, ⟨bufmem, refbufmem, rfl⟩, hlive, hcounted, hstored⟩ :=
    queuebufFree_spec (h.bufLive q hq) h.counted
  have hrest : ∀ q' ∈ rest, q' ∈ s.queuedPacketList ∧ q' ≠ q := by
    intro q' hq'
    refine ⟨by rw [hlist]; exact List.mem_cons_of_mem _ hq', ?_⟩
    rintro rfl
    exact hnodup.1 hq'
  have hcount : (s.packetMemb.free q).count = Function.update s.packetMemb.count q 0 :=
    free_count (h.count_le q) ((h.mem_iff q).mp hq)
  have howned : Owned
      { s with
        bufmem
        refbufmem
        packetMemb := s.packetMemb.free q
        queuedPacketList := rest
        history.freed := s.history.freed ++ [(done, (s.packetMemb.mem q).id)] } := by
    refine ⟨hnodup.2, ?_, ?_, ?_, ?_, ?_, hcounted, h.othersNodup, ?_⟩
    · intro q'
      show q' ∈ rest ↔ (s.packetMemb.free q).count q' ≠ 0
      rw [hcount]
      by_cases hqq : q' = q
      · rw [hqq, Function.update_self]
        exact iff_of_false hnodup.1 fun hne => hne rfl
      · rw [Function.update_of_ne hqq, ← h.mem_iff, hlist, List.mem_cons, or_iff_right hqq]
    · intro q'
      show (s.packetMemb.free q).count q' ≤ 1
      rw [hcount]
      by_cases hqq : q' = q
      · rw [hqq, Function.update_self]
        exact Nat.zero_le 1
      · rw [Function.update_of_ne hqq]
        exact h.count_le q'
    · intro q' hq'
      obtain ⟨hmem, hne⟩ := hrest q' hq'
      show BufLive { s with bufmem, refbufmem } ((s.packetMemb.free q).mem q').buf
      rw [Memb.free_mem, hlive]
      exact ⟨h.bufLive q' hmem, fun heq => hne (h.injective q' hmem q hq heq)⟩
    · intro q' hq'
      show ((s.packetMemb.free q).mem q').buf ∉ s.others
      rw [Memb.free_mem]
      exact h.notOther q' (hrest q' hq').1
    · intro q' hq' q'' hq''
      show ((s.packetMemb.free q).mem q').buf = ((s.packetMemb.free q).mem q'').buf → _
      rw [Memb.free_mem]
      exact h.injective q' (hrest q' hq').1 q'' (hrest q'' hq'').1
    · intro b hb
      show BufLive { s with bufmem, refbufmem } b
      rw [hlive]
      refine ⟨h.othersLive b hb, ?_⟩
      rintro rfl
      exact h.notOther q hq hb
  refine ⟨_, ?_, ⟨?_, ⟨bufmem, refbufmem, rfl⟩, hstored⟩⟩
  · unfold freeQueuedPacket
    rw [hlist]
    dsimp only
    rw [h.entry_eq hq, ok_bind, hfree, ok_bind, howned.walk_eq, ok_bind]
    cases rest with
    | nil =>
      rw [if_neg (by decide)]
      show Except.ok _ = Except.ok { s with
        bufmem
        refbufmem
        packetMemb := s.packetMemb.free q
        queuedPacketList := []
        transmitTimer := s.transmitTimer || false
        history.freed := s.history.freed ++ [(done, (s.packetMemb.mem q).id)] }
      rw [Bool.or_false]
    | cons q' rest =>
      have hpos : (q' :: rest).length > 0 := Nat.succ_pos _
      rw [if_pos hpos]
      show Except.ok _ = Except.ok { s with
        bufmem
        refbufmem
        packetMemb := s.packetMemb.free q
        queuedPacketList := q' :: rest
        transmitTimer := s.transmitTimer || true
        history.freed := s.history.freed ++ [(done, (s.packetMemb.mem q).id)] }
      rw [Bool.or_true]
  · exact howned.congr rfl rfl rfl rfl rfl

/-- The packet in the packet buffer gets an entry of the queue. -/
def Accepts (s : Csma nBuf nRef) : Prop :=
  s.packetbuf.attrs.receiver ≠ rimeaddrNull ∧ ¬s.packetMemb.Exhausted ∧ s.queuebufNew ≠ none

/-- The packet in the packet buffer of `s` is put into the queue, as the entry `q` with the queue
buffer `buf`. -/
structure Queues (s : Csma nBuf nRef) (callback : MacCallback) (q : Fin maxQueuedPackets)
    (buf : QueuebufPtr nBuf nRef) (s' : Csma nBuf nRef) : Prop where
  owned : s'.Owned
  fresh : q ∉ s.queuedPacketList
  eq : ∃ bufmem refbufmem packetMemb, s' =
    { s with
      bufmem
      refbufmem
      packetMemb
      queuedPacketList :=
        if s.packetbuf.attrs.packetType = packetTypeAck then q :: s.queuedPacketList
        else s.queuedPacketList ++ [q]
      transmitTimer := true
      history.queued := s.history.queued ++ [(callback, s.packetbuf.frame s.mem)] }
  mem : s'.packetMemb.mem = Function.update s.packetMemb.mem q (s.newEntry callback buf)
  freshBuf : ¬s.BufLive buf
  stored : ∀ b, b ≠ buf → s'.stored b = s.stored b
  content : s'.stored buf = s.toStore

/-- A block that is taken and given back leaves the pool as it was. -/
lemma free_of_alloc {α : Type} {n : ℕ} {m m' : Memb α n} {i : Fin n}
    (h : m.alloc = some (i, m')) : m'.free i = m := by
  obtain ⟨hzero, rfl⟩ := Memb.alloc_eq_some h
  have hone : Function.update m.count i (m.count i + 1) i = 1 := by
    rw [Function.update_self, hzero]
  have hcount := free_count (m := { m with count := Function.update m.count i (m.count i + 1) })
    (Nat.le_of_eq hone) (ne_of_eq_of_ne hone Nat.one_ne_zero)
  have hmem := Memb.free_mem { m with count := Function.update m.count i (m.count i + 1) } i
  generalize Memb.free _ i = m'' at *
  obtain ⟨count, mem⟩ := m''
  dsimp only at hcount hmem
  rw [hcount, hmem, Function.update_idem, ← hzero, Function.update_eq_self]

/-- An entry with a queue buffer of its own is put into the queue. -/
lemma owned_queue (h : s.Owned) {buf : QueuebufPtr nBuf nRef} (htakes : TakesBuf s buf s')
    (hzero : s.packetMemb.count q = 0) {pool : Memb (QueuedPacket nBuf nRef) maxQueuedPackets}
    (hcount : pool.count = Function.update s.packetMemb.count q 1)
    {e : QueuedPacket nBuf nRef} (he : e.buf = buf)
    (hmem : pool.mem = Function.update s.packetMemb.mem q e) {list : List (Fin maxQueuedPackets)}
    (hnodup : list.Nodup) (hlist : ∀ q', q' ∈ list ↔ q' ∈ s.queuedPacketList ∨ q' = q)
    (timer : Bool) (history : CsmaHistory) :
    Owned
      { s' with
        packetMemb := pool
        queuedPacketList := list
        transmitTimer := timer
        history } := by
  obtain ⟨⟨bufmem, refbufmem, rfl⟩, hfresh, hlive, hcounted, -, -⟩ := htakes
  have hq : q ∉ s.queuedPacketList := fun hq => (h.mem_iff q).mp hq hzero
  -- a member is an old one, with its old buffer, or the new one
  have hbuf : ∀ q' ∈ list, q' ∈ s.queuedPacketList ∧ pool.mem q' = s.packetMemb.mem q' ∨
      q' = q ∧ (pool.mem q').buf = buf := by
    intro q' hq'
    rcases (hlist q').mp hq' with hold | rfl
    · refine .inl ⟨hold, ?_⟩
      have hqq : q' ≠ q := by
        rintro rfl
        exact hq hold
      rw [hmem, Function.update_of_ne hqq]
    · refine .inr ⟨rfl, ?_⟩
      rw [hmem, Function.update_self, he]
  have hne : ∀ q' ∈ s.queuedPacketList, (s.packetMemb.mem q').buf ≠ buf := by
    rintro q' hq' rfl
    exact hfresh (h.bufLive q' hq')
  refine ⟨hnodup, ?_, ?_, ?_, ?_, ?_, hcounted h.counted, h.othersNodup, ?_⟩
  · intro q'
    show q' ∈ list ↔ pool.count q' ≠ 0
    rw [hlist, hcount, h.mem_iff]
    by_cases hqq : q' = q
    · rw [hqq, Function.update_self]
      exact iff_of_true (.inr rfl) Nat.one_ne_zero
    · rw [Function.update_of_ne hqq, or_iff_left hqq]
  · intro q'
    show pool.count q' ≤ 1
    rw [hcount]
    by_cases hqq : q' = q
    · rw [hqq, Function.update_self]
    · rw [Function.update_of_ne hqq]
      exact h.count_le q'
  · intro q' hq'
    show BufLive { s with bufmem, refbufmem } (pool.mem q').buf
    rw [hlive]
    rcases hbuf q' hq' with ⟨hold, hsame⟩ | ⟨-, hnew⟩
    · rw [hsame]
      exact .inl (h.bufLive q' hold)
    · exact .inr hnew
  · intro q' hq' hother
    rcases hbuf q' hq' with ⟨hold, hsame⟩ | ⟨-, hnew⟩
    · rw [hsame] at hother
      exact h.notOther q' hold hother
    · rw [hnew] at hother
      exact hfresh (h.othersLive buf hother)
  · intro q' hq' q'' hq'' heq
    replace heq : (pool.mem q').buf = (pool.mem q'').buf := heq
    rcases hbuf q' hq' with ⟨hold', hsame'⟩ | ⟨rfl, hnew'⟩ <;>
      rcases hbuf q'' hq'' with ⟨hold'', hsame''⟩ | ⟨rfl, hnew''⟩
    · rw [hsame', hsame''] at heq
      exact h.injective q' hold' q'' hold'' heq
    · rw [hsame', hnew''] at heq
      exact absurd heq (hne q' hold')
    · rw [hnew', hsame''] at heq
      exact absurd heq.symm (hne q'' hold'')
    · rfl
  · intro b hb
    show BufLive { s with bufmem, refbufmem } b
    rw [hlive]
    exact .inl (h.othersLive b hb)

lemma startTransmissionTimer_spec (hwalk : s.walk = .ok ()) (hne : s.queuedPacketList ≠ []) :
    s.startTransmissionTimer = .ok { s with transmitTimer := true } := by
  have hpos : s.queuedPacketList.length > 0 := List.length_pos_of_ne_nil hne
  unfold startTransmissionTimer
  rw [hwalk, ok_bind]
  by_cases htimer : s.transmitTimer = true
  · rw [if_neg fun h => h.2 htimer, ← htimer]
  · rw [if_pos ⟨hpos, htimer⟩]

/-- A packet gets an entry, or it is sent without one. -/
lemma sendStamped_spec (h : s.Owned) (callback : MacCallback) :
    ¬s.Accepts ∧ s.sendStamped callback = .ok s ∨
      s.Accepts ∧ ∃ q buf s', s.sendStamped callback = .ok s' ∧ Queues s callback q buf s' := by
  unfold sendStamped
  by_cases hreceiver : s.packetbuf.attrs.receiver = rimeaddrNull
  · rw [if_neg (not_not.mpr hreceiver)]
    exact .inl ⟨fun haccepts => haccepts.1 hreceiver, rfl⟩
  rw [if_pos hreceiver]
  cases halloc : s.packetMemb.alloc with
  | none => exact .inl ⟨fun haccepts => haccepts.2.1 (Memb.alloc_eq_none.mp halloc), rfl⟩
  | some r =>
    obtain ⟨q, pool⟩ := r
    dsimp only
    cases hnew : s.queuebufNew with
    | none =>
      dsimp only
      rw [free_of_alloc halloc]
      exact .inl ⟨fun haccepts => haccepts.2.2 hnew, rfl⟩
    | some r =>
      obtain ⟨buf, s₁⟩ := r
      dsimp only
      have htakes := queuebufNew_spec hnew
      have hroom : ¬s.packetMemb.Exhausted := by
        intro hfull
        rw [Memb.alloc_eq_none.mpr hfull] at halloc
        cases halloc
      obtain ⟨hzero, rfl⟩ := Memb.alloc_eq_some halloc
      have hq : q ∉ s.queuedPacketList := fun hq => (h.mem_iff q).mp hq hzero
      refine .inr ⟨⟨hreceiver, hroom, by rw [hnew]; exact Option.some_ne_none _⟩, q, buf, ?_⟩
      have hlist : (if s.packetbuf.attrs.packetType = packetTypeAck then
          listPush s.queuedPacketList q else listAdd s.queuedPacketList q) =
          if s.packetbuf.attrs.packetType = packetTypeAck then q :: s.queuedPacketList
          else s.queuedPacketList ++ [q] := by
        rw [listPush, listAdd_of_notMem hq, List.erase_of_not_mem hq]
      have hnodup : (if s.packetbuf.attrs.packetType = packetTypeAck then q :: s.queuedPacketList
          else s.queuedPacketList ++ [q]).Nodup := by
        split_ifs
        · exact List.nodup_cons.mpr ⟨hq, h.nodup⟩
        · rw [← listAdd_of_notMem hq]
          exact nodup_listAdd h.nodup q
      have hmem : ∀ q', q' ∈ (if s.packetbuf.attrs.packetType = packetTypeAck then
          q :: s.queuedPacketList else s.queuedPacketList ++ [q]) ↔
          q' ∈ s.queuedPacketList ∨ q' = q := by
        intro q'
        split_ifs
        · rw [List.mem_cons, or_comm]
        · rw [List.mem_append, List.mem_singleton]
      have howned := @owned_queue _ _ _ _ _ h _ htakes hzero
        ⟨Function.update s.packetMemb.count q (s.packetMemb.count q + 1),
          Function.update s.packetMemb.mem q (s.newEntry callback buf)⟩
        (by rw [hzero]) _ rfl rfl _ hnodup hmem true
        { s.history with
          queued := s.history.queued ++ [(callback, s.packetbuf.frame s.mem)] }
      obtain ⟨⟨bufmem, refbufmem, rfl⟩, hfresh, hlive, hcounted, hstored, hcontent⟩ := htakes
      refine ⟨_, ?_, howned, hq, ⟨bufmem, refbufmem, _, rfl⟩, rfl, hfresh, hstored, hcontent⟩
      have hwalk : walk { s with bufmem, refbufmem } = .ok () := h.walk_eq
      rw [hwalk, ok_bind]
      dsimp only
      rw [hlist]
      refine startTransmissionTimer_spec ?_ ?_
      · exact howned.walk_eq
      · dsimp only
        split_ifs
        · exact List.cons_ne_nil _ _
        · exact List.append_ne_nil_of_right_ne_nil _ (List.cons_ne_nil _ _)

/-! ## The entry that a completion is for -/

/-- `packet_sent` on an entry of the queue: its transmission is over and its counters are up to
date. -/
def completed (s : Csma nBuf nRef) (q : Fin maxQueuedPackets) (status : MacStatus) :
    Csma nBuf nRef :=
  { s with
    rdcIsTransmitting := false
    outstanding := s.outstanding.erase q
    packetMemb := s.packetMemb.write q (countStatus (s.packetMemb.mem q) status) }

/-- The transmission is to be repeated. -/
def Repeats (s : Csma nBuf nRef) (q : Fin maxQueuedPackets) (status : MacStatus) : Prop :=
  (status = .collision ∨ status = .noack) ∧
    (countStatus (s.packetMemb.mem q) status).transmissions <
      (countStatus (s.packetMemb.mem q) status).maxTransmissions

lemma countStatus_buf (e : QueuedPacket nBuf nRef) (status : MacStatus) :
    (countStatus e status).buf = e.buf ∧ (countStatus e status).id = e.id ∧
      (countStatus e status).callback = e.callback := by
  cases status <;> exact ⟨rfl, rfl, rfl⟩

lemma Owned.completed (h : s.Owned) (q : Fin maxQueuedPackets) (status : MacStatus) :
    (s.completed q status).Owned := by
  have hwrite := h.write (countStatus_buf (s.packetMemb.mem q) status).1
  exact hwrite.congr rfl rfl rfl rfl rfl

/-- `packet_sent`: the packet is transmitted once more, or it is done. -/
lemma packetSent_eq (h : s.Owned) (hq : q ∈ s.queuedPacketList) (status : MacStatus) :
    (s.Repeats q status ∧ s.packetSent q status =
      queuebufUpdateAttr { s.completed q status with transmitTimer := true }
        (s.packetMemb.mem q).buf) ∨
    (¬s.Repeats q status ∧ s.packetSent q status =
      (s.completed q status).finish (countStatus (s.packetMemb.mem q) status)) := by
  obtain ⟨hbuf, -, -⟩ := countStatus_buf (s.packetMemb.mem q) status
  unfold packetSent Repeats
  rw [h.entry_eq hq, ok_bind]
  dsimp only
  by_cases hstatus : status = .collision ∨ status = .noack
  · rw [if_pos hstatus]
    by_cases hmore : (countStatus (s.packetMemb.mem q) status).transmissions <
        (countStatus (s.packetMemb.mem q) status).maxTransmissions
    · rw [if_pos hmore, hbuf]
      exact .inl ⟨⟨hstatus, hmore⟩, rfl⟩
    · rw [if_neg hmore]
      exact .inr ⟨fun hboth => hmore hboth.2, rfl⟩
  · rw [if_neg hstatus]
    exact .inr ⟨fun hboth => hstatus hboth.1, rfl⟩

/-- The packet is done. -/
lemma finish_spec (h : s.Owned) (hlist : s.queuedPacketList = q :: rest)
    (e : QueuedPacket nBuf nRef) :
    ∃ s', HeadFreed s q rest e.id s' ∧ s.finish e =
      .ok { s' with history.called := s'.history.called ++ [(e.id, e.callback)] } := by
  obtain ⟨s', hfree, hfreed⟩ := freeQueuedPacket_spec h hlist e.id
  refine ⟨s', hfreed, ?_⟩
  unfold finish
  rw [hfree, ok_bind]

/-- The attributes of a copy are replaced. -/
lemma queuebufUpdateAttr_spec (hlive : s.BufLive b) :
    (∃ i, b = .ref i) ∧ s.queuebufUpdateAttr b = .error .outOfBounds ∨
      ∃ i, b = .buf i ∧ s.queuebufUpdateAttr b = .ok
        { s with
          bufmem := s.bufmem.write i { s.bufmem.mem i with attrs := s.packetbuf.attrs } } := by
  unfold queuebufUpdateAttr
  rw [if_pos hlive]
  cases b with
  | buf i => exact .inr ⟨i, rfl, rfl⟩
  | ref i => exact .inl ⟨⟨i, rfl⟩, rfl⟩

/-! ## Every reachable state -/

/-- At most one transmission is outstanding, and the queue waits for it or for the timer. -/
structure Awake (s : Csma nBuf nRef) : Prop where
  outstanding : ∀ q ∈ s.outstanding, q ∈ s.queuedPacketList
  length : s.outstanding.length = s.rdcIsTransmitting.toNat
  timer : s.queuedPacketList ≠ [] → s.rdcIsTransmitting = true ∨ s.transmitTimer = true

/-- What a step leads to: nothing, or a state that is in order. -/
def StepOk (r : Except CsmaFault (Csma nBuf nRef)) : Prop :=
  r = .error .disabled ∨ ∃ s', r = .ok s' ∧ s'.Owned ∧ s'.Awake

/-- A completion that leads to a retransmission is for a packet that is kept by value. -/
def ByValue (s : Csma nBuf nRef) : CsmaEvent nBuf nRef → Prop
  | .packetSent q status => s.Repeats q status → ∃ i, (s.packetMemb.mem q).buf = .buf i
  | _ => True

/-- Only one transmission is outstanding when it is completed. -/
lemma Awake.completed (h : s.Awake) (hq : q ∈ s.outstanding) : s.outstanding.erase q = [] := by
  have hlength := h.length
  have hpos := List.length_pos_of_mem hq
  have hone := Bool.toNat_le s.rdcIsTransmitting
  have herase := List.length_erase_of_mem hq
  apply List.eq_nil_of_length_eq_zero
  omega

lemma sendPacket_ok (h : s.Owned) (ha : s.Awake) (callback : MacCallback) :
    StepOk (s.sendPacket callback) := by
  have hstamp : s.stamp.Owned := h.congr rfl rfl rfl rfl rfl
  unfold sendPacket
  rcases sendStamped_spec hstamp callback with ⟨-, hsent⟩ | ⟨-, q, buf, s', hsent, hqueues⟩
  · exact .inr ⟨_, hsent, hstamp, ha.outstanding, ha.length, ha.timer⟩
  · refine .inr ⟨s', hsent, hqueues.owned, ?_⟩
    obtain ⟨bufmem, refbufmem, packetMemb, rfl⟩ := hqueues.eq
    refine ⟨fun q' hq' => ?_, ha.length, fun _ => .inr rfl⟩
    have hold := ha.outstanding q' hq'
    dsimp only
    split_ifs
    · exact List.mem_cons_of_mem _ hold
    · exact List.mem_append_left _ hold

lemma transmitQueuedPacket_ok (h : s.Owned) (hmem : ∀ q ∈ s.outstanding, q ∈ s.queuedPacketList)
    (hlength : s.outstanding.length = s.rdcIsTransmitting.toNat) :
    StepOk s.transmitQueuedPacket := by
  cases hidle : s.rdcIsTransmitting with
  | true =>
    refine .inr ⟨s, ?_, h, hmem, hlength, fun _ => .inl hidle⟩
    unfold transmitQueuedPacket
    rw [if_pos hidle]
  | false =>
    cases hlist : s.queuedPacketList with
    | nil =>
      refine .inr ⟨s, ?_, h, hmem, hlength, fun hne => absurd hlist hne⟩
      unfold transmitQueuedPacket
      rw [if_neg (ne_true_of_eq_false hidle), hlist]
    | cons q rest =>
      obtain ⟨p, -, htransmit⟩ := transmitQueuedPacket_spec h hidle hlist
      refine .inr ⟨_, htransmit, h.congr rfl rfl rfl rfl rfl, ?_, ?_, fun _ => .inl rfl⟩
      · intro q' hq'
        rcases List.mem_cons.mp hq' with rfl | hold
        · show q' ∈ s.queuedPacketList
          rw [hlist]
          exact List.mem_cons_self
        · exact hmem q' hold
      · show s.outstanding.length + 1 = 1
        rw [hlength, hidle]
        rfl

/-- A completion leads to a state without an outstanding transmission. -/
lemma packetSent_ok (h : s.Owned) (ha : s.Awake) (hout : q ∈ s.outstanding) (status : MacStatus)
    (hvalue : s.Repeats q status → ∃ i, (s.packetMemb.mem q).buf = .buf i) :
    ∃ s', s.packetSent q status = .ok s' ∧ s'.Owned ∧ s'.Awake ∧ s'.outstanding = [] := by
  have hq := ha.outstanding q hout
  have howned := h.completed q status
  have hnone : (s.completed q status).outstanding = [] := ha.completed hout
  -- the queue is awake when nothing is outstanding and the timer is set for what is left
  have hawake : ∀ s' : Csma nBuf nRef, s'.outstanding = [] → s'.rdcIsTransmitting = false →
      (s'.queuedPacketList ≠ [] → s'.transmitTimer = true) → s'.Awake := by
    intro s' hnone' hidle htimer
    refine ⟨fun q' hq' => ?_, ?_, fun hne => .inr (htimer hne)⟩
    · rw [hnone'] at hq'
      cases hq'
    · rw [hnone', hidle]
      rfl
  rcases packetSent_eq h hq status with ⟨hrepeats, hsent⟩ | ⟨-, hsent⟩
  · obtain ⟨i, hbuf⟩ := hvalue hrepeats
    have hlive : BufLive { s.completed q status with transmitTimer := true }
        (s.packetMemb.mem q).buf := h.bufLive q hq
    rcases queuebufUpdateAttr_spec hlive with ⟨⟨j, href⟩, -⟩ | ⟨j, -, hupdate⟩
    · rw [hbuf] at href
      cases href
    · exact ⟨_, hsent.trans hupdate, howned.congr rfl rfl rfl rfl rfl,
        hawake _ hnone rfl fun _ => rfl, hnone⟩
  · obtain ⟨q₀, rest, hlist⟩ := List.exists_cons_of_ne_nil (List.ne_nil_of_mem hq)
    obtain ⟨s', hfreed, hfinish⟩ := finish_spec (q := q₀) howned hlist
      (countStatus (s.packetMemb.mem q) status)
    obtain ⟨bufmem, refbufmem, rfl⟩ := hfreed.eq
    refine ⟨_, hsent.trans hfinish, hfreed.owned.congr rfl rfl rfl rfl rfl,
      hawake _ hnone rfl fun hne => ?_, hnone⟩
    show (s.transmitTimer || !rest.isEmpty) = true
    cases rest with
    | nil => exact absurd rfl hne
    | cons q' rest => exact Bool.or_true _

lemma take_ok (h : s.Owned) (ha : s.Awake) : StepOk (s.step .take) := by
  unfold step
  dsimp only
  cases hnew : s.queuebufNew with
  | none => exact .inr ⟨s, rfl, h, ha⟩
  | some r =>
    obtain ⟨b, s'⟩ := r
    obtain ⟨⟨bufmem, refbufmem, rfl⟩, hfresh, hlive, hcounted, -, -⟩ := queuebufNew_spec hnew
    refine .inr ⟨_, rfl, ?_, ha.outstanding, ha.length, ha.timer⟩
    refine ⟨h.nodup, h.mem_iff, h.count_le, fun q hq => ?_, fun q hq hother => ?_, h.injective,
      hcounted h.counted, ?_, fun b' hb' => ?_⟩
    · exact (hlive _).mpr (.inl (h.bufLive q hq))
    · rcases List.mem_cons.mp hother with heq | hold
      · exact hfresh (heq ▸ h.bufLive q hq)
      · exact h.notOther q hq hold
    · exact List.nodup_cons.mpr ⟨fun hb => hfresh (h.othersLive b hb), h.othersNodup⟩
    · rcases List.mem_cons.mp hb' with heq | hold
      · exact (hlive _).mpr (.inr heq)
      · exact (hlive _).mpr (.inl (h.othersLive b' hold))

lemma give_ok (h : s.Owned) (ha : s.Awake) (b : QueuebufPtr nBuf nRef) :
    StepOk (s.step (.give b)) := by
  unfold step
  dsimp only
  by_cases hb : b ∈ s.others
  · obtain ⟨s', hfree, ⟨bufmem, refbufmem, rfl⟩, hlive, hcounted, -⟩ :=
      queuebufFree_spec (h.othersLive b hb) h.counted
    rw [if_pos hb, hfree, ok_bind]
    refine .inr ⟨_, rfl, ?_, ha.outstanding, ha.length, ha.timer⟩
    refine ⟨h.nodup, h.mem_iff, h.count_le, fun q hq => ?_, fun q hq hother => ?_, h.injective,
      hcounted, h.othersNodup.erase b, fun b' hb' => ?_⟩
    · refine (hlive _).mpr ⟨h.bufLive q hq, fun heq => h.notOther q hq ?_⟩
      rw [heq]
      exact hb
    · exact h.notOther q hq (List.mem_of_mem_erase hother)
    · obtain ⟨hne, hold⟩ := h.othersNodup.mem_erase_iff.mp hb'
      exact (hlive _).mpr ⟨h.othersLive b' hold, hne⟩
  · rw [if_neg hb]
    exact .inl rfl

/-- One event keeps the queue in order. -/
lemma step_ok (h : s.Owned) (ha : s.Awake) {e : CsmaEvent nBuf nRef} (hvalue : s.ByValue e) :
    StepOk (s.step e) := by
  cases e with
  | sendPacket callback p =>
    exact sendPacket_ok (s := { s with packetbuf := p }) (h.congr rfl rfl rfl rfl rfl)
      ⟨ha.outstanding, ha.length, ha.timer⟩ callback
  | timer =>
    unfold step
    dsimp only
    by_cases htimer : s.transmitTimer = true
    · rw [if_pos htimer]
      exact transmitQueuedPacket_ok (s := { s with transmitTimer := false })
        (h.congr rfl rfl rfl rfl rfl) ha.outstanding ha.length
    · rw [if_neg htimer]
      exact .inl rfl
  | packetSent q status =>
    unfold step
    dsimp only
    by_cases hout : q ∈ s.outstanding
    · obtain ⟨s', hsent, howned, hawake, -⟩ := packetSent_ok h ha hout status hvalue
      rw [if_pos hout]
      exact .inr ⟨s', hsent, howned, hawake⟩
    · rw [if_neg hout]
      exact .inl rfl
  | reuse p mem =>
    exact .inr ⟨_, rfl, h.congr rfl rfl rfl rfl rfl, ha.outstanding, ha.length, ha.timer⟩
  | take => exact take_ok h ha
  | give b => exact give_ok h ha b

lemma Initial.owned (h : s.Initial) : s.Owned := by
  obtain ⟨hbuf, href, hmemb, hlist, -, -, -, hothers, -⟩ := h
  refine ⟨?_, fun q => ?_, fun q => ?_, fun q hq => ?_, fun q hq => ?_, fun q hq => ?_,
    ⟨fun i => ?_, fun i => ?_⟩, ?_, fun b hb => ?_⟩
  · rw [hlist]
    exact List.nodup_nil
  · rw [hlist]
    exact iff_of_false (List.not_mem_nil) fun hne => hne (hmemb q)
  · rw [hmemb]
    exact Nat.zero_le 1
  · rw [hlist] at hq
    cases hq
  · rw [hlist] at hq
    cases hq
  · rw [hlist] at hq
    cases hq
  · rw [hbuf]
    exact Nat.zero_le 1
  · rw [href]
    exact Nat.zero_le 1
  · rw [hothers]
    exact List.nodup_nil
  · rw [hothers] at hb
    cases hb

lemma Initial.awake (h : s.Initial) : s.Awake := by
  refine ⟨fun q hq => ?_, ?_, fun hne => absurd h.queuedPacketList hne⟩
  · rw [h.outstanding] at hq
    cases hq
  · rw [h.outstanding, h.rdcIsTransmitting]
    rfl

/-- The states that runs from an empty queue lead to. -/
def Runs (s : Csma nBuf nRef) : Prop := Reaches step anyEvent Initial s

lemma step_of_ok (h : s.Owned) (ha : s.Awake) {e : CsmaEvent nBuf nRef} (hvalue : s.ByValue e)
    (hstep : s.step e = .ok s') : s'.Owned ∧ s'.Awake := by
  rcases step_ok h ha hvalue with herr | ⟨s'', hok, howned, hawake⟩
  · rw [herr] at hstep
    cases hstep
  · rw [hok] at hstep
    cases hstep
    exact ⟨howned, hawake⟩

lemma runs_ok (h : Reaches step ByValue Initial s) : s.Owned ∧ s.Awake :=
  h.invariant (I := fun s => s.Owned ∧ s.Awake) (fun _ h => ⟨h.owned, h.awake⟩)
    fun _ _ _ hs hvalue hstep => step_of_ok hs.1 hs.2 hvalue hstep

/-- The queue does not stall: a packet in it waits for an outstanding transmission or for the timer,
the timer starts a transmission, and a completion ends it and sets the timer for what is left.  An
event that can occur uses no entry and no queue buffer that was given back, and nothing behind one. -/
structure Lively (ok : Csma nBuf nRef → CsmaEvent nBuf nRef → Prop) (s : Csma nBuf nRef) : Prop where
  waits : s.queuedPacketList ≠ [] →
    s.outstanding ≠ [] ∧ s.rdcIsTransmitting = true ∨ s.transmitTimer = true
  used : ∀ e, ok s e → ∀ f, s.step e = .error f → f = .disabled
  fires : ∀ s', s.step .timer = .ok s' → s'.queuedPacketList ≠ [] →
    s'.outstanding ≠ [] ∧ s'.rdcIsTransmitting = true
  completes : ∀ q status, q ∈ s.outstanding → ok s (.packetSent q status) →
    ∃ s', s.step (.packetSent q status) = .ok s' ∧ s'.outstanding = [] ∧
      s'.rdcIsTransmitting = false ∧ (s'.queuedPacketList ≠ [] → s'.transmitTimer = true)

lemma Awake.transmitting_iff (h : s.Awake) : s.rdcIsTransmitting = true ↔ s.outstanding ≠ [] := by
  have hlength := h.length
  cases hidle : s.rdcIsTransmitting with
  | true =>
    rw [hidle] at hlength
    exact iff_of_true rfl (List.ne_nil_of_length_pos (by rw [hlength]; exact Nat.one_pos))
  | false =>
    rw [hidle] at hlength
    exact iff_of_false Bool.false_ne_true fun hne => hne (List.eq_nil_of_length_eq_zero hlength)

/-- When the timer has fired, the head of the queue is being transmitted. -/
lemma fires_transmits (h : s.Owned) (hstep : s.step .timer = .ok s')
    (hne : s'.queuedPacketList ≠ []) : s'.rdcIsTransmitting = true := by
  unfold step at hstep
  dsimp only at hstep
  split_ifs at hstep
  cases hidle : s.rdcIsTransmitting with
  | true =>
    unfold transmitQueuedPacket at hstep
    rw [if_pos hidle] at hstep
    cases hstep
    exact hidle
  | false =>
    cases hlist : s.queuedPacketList with
    | nil =>
      unfold transmitQueuedPacket at hstep
      rw [if_neg (ne_true_of_eq_false hidle), hlist] at hstep
      cases hstep
      exact absurd rfl hne
    | cons q rest =>
      have howned : Owned { s with transmitTimer := false } := h.congr rfl rfl rfl rfl rfl
      obtain ⟨p, -, htransmit⟩ := transmitQueuedPacket_spec howned hidle hlist
      rw [htransmit] at hstep
      cases hstep
      rfl

/-- **The queue never stalls**, and it uses no entry and no queue buffer that was given back, in every
run in which no packet that is kept as a reference is transmitted again. -/
theorem queue_never_stalls (s : Csma nBuf nRef) (h : Reaches step ByValue Initial s) :
    s.Lively ByValue := by
  obtain ⟨howned, hawake⟩ := runs_ok h
  refine ⟨fun hne => ?_, fun e hvalue f hstep => ?_, fun s' hstep hne => ?_,
    fun q status hout hvalue => ?_⟩
  · rcases hawake.timer hne with htransmitting | htimer
    · exact .inl ⟨hawake.transmitting_iff.mp htransmitting, htransmitting⟩
    · exact .inr htimer
  · rcases step_ok howned hawake hvalue with herr | ⟨s', hok, -⟩
    · exact Except.error.inj (hstep.symm.trans herr)
    · cases hstep.symm.trans hok
  · have htransmitting := fires_transmits howned hstep hne
    have hafter := (step_of_ok (e := .timer) howned hawake trivial hstep).2
    exact ⟨hafter.transmitting_iff.mp htransmitting, htransmitting⟩
  · obtain ⟨s', hsent, -, hafter, hnone⟩ := packetSent_ok howned hawake hout status hvalue
    have hidle : s'.rdcIsTransmitting = false :=
      eq_false_of_ne_true fun htrue => hafter.transmitting_iff.mp htrue hnone
    refine ⟨s', (if_pos hout).trans hsent, hnone, hidle, fun hne => ?_⟩
    exact (hafter.timer hne).resolve_left fun htrue => Bool.false_ne_true (hidle.symm.trans htrue)

/-- An empty queue. -/
def emptyQueue {nRef : ℕ} : Csma 2 nRef where
  packetbuf := ⟨[], fun _ => 0, none, 0, 0, .clear⟩
  mem _ := 0
  bufmem := .fresh ⟨[], .clear⟩
  refbufmem := .fresh ⟨0, 0, []⟩
  packetMemb := .fresh ⟨.buf 0, ⟨0, 0⟩, 0, 0, 0, 0, 0⟩
  queuedPacketList := []
  transmitTimer := false
  rdcIsTransmitting := false
  seqno := 0
  outstanding := []
  others := []
  history := {}

lemma emptyQueue_initial : (emptyQueue : Csma 2 nRef).Initial :=
  ⟨fun _ => rfl, fun _ => rfl, fun _ => rfl, rfl, rfl, rfl, rfl, rfl, rfl⟩

/-- A packet of a type, for the receiver whose address is all ones. -/
def smallPacket (packetType : UInt16) : Packetbuf where
  hdr := []
  area _ := 0
  reference := none
  bufptr := 0
  buflen := 1
  attrs := ⟨0, packetType, 3, ⟨List.replicate 8 1, rfl⟩⟩

/-- A packet is transmitted, and waits for the timer when no acknowledgement came. -/
theorem queue_never_stalls_again : ∃ s : Csma 2 0, Reaches step ByValue Initial s ∧
    s.queuedPacketList = [0, 1] ∧ s.history.transmitted.length = 1 ∧ s.Lively ByValue := by
  obtain ⟨s, hs, hobserve⟩ := exists_ok_of_map
    (f := fun s : Csma 2 0 => (s.queuedPacketList, s.history.transmitted.length)) (b := ([0, 1], 1))
    (x := runEvents step emptyQueue [.sendPacket ⟨1, 1⟩ (smallPacket 0), .timer,
      .sendPacket ⟨2, 2⟩ (smallPacket 0), .packetSent 0 .noack]) (by decide +kernel)
  obtain ⟨hlist, hsent⟩ := Prod.mk.inj hobserve
  -- there are no references in this system
  have hvalue : ∀ (s : Csma 2 0) e, s.ByValue e := by
    rintro s (_ | _ | ⟨q, status⟩ | _ | _ | _)
    case packetSent =>
      intro _
      cases (s.packetMemb.mem q).buf with
      | buf i => exact ⟨i, rfl⟩
      | ref i => exact i.elim0
    all_goals trivial
  have hruns : Reaches step ByValue Initial s :=
    (Reaches.initial emptyQueue_initial).of_runEvents (fun _ _ s => hvalue s _) hs
  exact ⟨s, hruns, hlist, hsent, queue_never_stalls s hruns⟩

/-- No acknowledgement came for a packet that is kept as a reference. -/
theorem not_queue_never_stalls : ¬∀ s : Csma 2 1, s.Runs → s.Lively anyEvent := by
  intro h
  obtain ⟨s, hs, hfault⟩ := exists_ok_of_map
    (f := fun s : Csma 2 1 => (s.step (.packetSent 0 .noack)).map fun _ => ()) (b := .error .outOfBounds)
    (x := runEvents step emptyQueue
      [.sendPacket ⟨1, 1⟩ { smallPacket 0 with reference := some 0 }, .timer]) (by decide +kernel)
  have hruns : s.Runs :=
    (Reaches.initial emptyQueue_initial).of_runEvents (fun _ _ _ => trivial) hs
  cases hstep : s.step (.packetSent 0 .noack) with
  | ok s' =>
    rw [hstep] at hfault
    cases hfault
  | error f =>
    rw [hstep] at hfault
    cases (h s hruns).used _ trivial f hstep
    cases hfault

end Csma
end Contiki

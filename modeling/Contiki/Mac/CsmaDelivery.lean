import Contiki.Mac.CsmaQueue

/-!
# Each packet of the CSMA queue

A packet is transmitted as it was queued, and its own callback is called once, when its own entry is
freed.  Two things in the code do not see to it: `packet_sent` frees the entry at the head of the
queue, in front of which an acknowledgement may have been put, and takes the attributes of the packet
from the packet buffer, which others may have used.  A reference is kept without the address of its
receiver, and a packet that is too large without its bytes.

* `Csma.Orderly` — the events that do not meet this.
* `Csma.Concludes` — what a completion does to its packet.
* `Csma.packets_delivered` — the result, for all runs of such events.
-/

namespace Contiki
namespace Csma
variable {nBuf nRef : ℕ} {s s' : Csma nBuf nRef} {b : QueuebufPtr nBuf nRef}
  {q : Fin maxQueuedPackets} {rest : List (Fin maxQueuedPackets)}

/-! ## What is claimed -/

/-- The packets in the queue. -/
def ids (s : Csma nBuf nRef) : List ℕ := s.queuedPacketList.map fun q => (s.packetMemb.mem q).id

/-- The packets that got an entry are served: each has its own callback called once, when it leaves
the queue; the entry that is freed is the one whose transmission was completed; and what is
transmitted is what was queued. -/
structure Delivered (s : Csma nBuf nRef) : Prop where
  called : ∀ id < s.history.queued.length,
    s.history.called.countP (fun c => c.1 = id) = if id ∈ s.ids then 0 else 1
  own : ∀ c ∈ s.history.called, ∃ p, s.history.queued[c.1]? = some p ∧ c.2 = p.1
  freed : ∀ f ∈ s.history.freed, f.2 = f.1
  carried : ∀ t ∈ s.history.transmitted, ∃ p, s.history.queued[t.1]? = some p ∧ t.2 = p.2

/-- A completion of the last transmission of a packet takes the packet off the queue, frees its own entry
and calls its own callback; after any other one the packet is still queued, and the timer is set. -/
structure Concludes (s : Csma nBuf nRef) (q : Fin maxQueuedPackets) (status : MacStatus)
    (s' : Csma nBuf nRef) : Prop where
  last : ¬s.Repeats q status → s.ids = (s.packetMemb.mem q).id :: s'.ids ∧
    s'.history.called =
      s.history.called ++ [((s.packetMemb.mem q).id, (s.packetMemb.mem q).callback)] ∧
    s'.history.freed = s.history.freed ++ [((s.packetMemb.mem q).id, (s.packetMemb.mem q).id)]
  again : s.Repeats q status → s'.ids = s.ids ∧ s'.transmitTimer = true ∧ s'.history = s.history

/-- The packet buffer has the address of the receiver of the packet that is kept. -/
def SameReceiver (s : Csma nBuf nRef) (b : QueuebufPtr nBuf nRef) : Prop :=
  match s.stored b with
  | .inl c => s.packetbuf.attrs.receiver = c.attrs.receiver
  | .inr _ => True

instance (s : Csma nBuf nRef) (b : QueuebufPtr nBuf nRef) : Decidable (s.SameReceiver b) := by
  unfold SameReceiver
  cases s.stored b <;> infer_instance

/-- A packet that gets an entry is no reference and fits into the packet buffer, and an
acknowledgement does not come while a transmission is outstanding.  When a transmission is to be
repeated, the packet buffer still has the address of its receiver. -/
def Orderly (s : Csma nBuf nRef) : CsmaEvent nBuf nRef → Prop
  | .sendPacket _ p =>
    (stamp { s with packetbuf := p }).Accepts →
      p.reference = none ∧ p.hdr.length + p.buflen ≤ packetbufSize ∧
        (p.attrs.packetType = packetTypeAck → s.rdcIsTransmitting = false)
  | .packetSent q status =>
    s.Repeats q status → s.SameReceiver (s.packetMemb.mem q).buf
  | _ => True

instance (s : Csma nBuf nRef) (q : Fin maxQueuedPackets) (status : MacStatus) :
    Decidable (s.Repeats q status) := inferInstanceAs (Decidable (_ ∧ _))

instance (s : Csma nBuf nRef) : Decidable s.Accepts := inferInstanceAs (Decidable (_ ∧ _))

instance (s : Csma nBuf nRef) : ∀ e, Decidable (s.Orderly e)
  | .sendPacket _ _ => inferInstanceAs (Decidable (_ → _))
  | .packetSent _ _ => inferInstanceAs (Decidable (_ → _))
  | .timer | .reuse _ _ | .take | .give _ => inferInstanceAs (Decidable True)

/-! ## The invariant -/

/-- The entry keeps the packet with its `id`. -/
def Keeps (s : Csma nBuf nRef) (e : QueuedPacket nBuf nRef) : Prop :=
  ∃ p b, s.history.queued[e.id]? = some p ∧ e.callback = p.1 ∧ s.stored e.buf = .inl b ∧
    b.data = p.2.bytes ∧ b.attrs.receiver = p.2.receiver ∧ b.data.length ≤ packetbufSize

/-- The entries keep their packets, and the transmission that is outstanding is that of the head. -/
structure Served (s : Csma nBuf nRef) : Prop where
  owned : s.Owned
  awake : s.Awake
  nodup : s.ids.Nodup
  keeps : ∀ q ∈ s.queuedPacketList, s.Keeps (s.packetMemb.mem q)
  head : ∀ q ∈ s.outstanding, s.queuedPacketList.head? = some q
  delivered : s.Delivered

lemma Keeps.congr {e e' : QueuedPacket nBuf nRef} (h : s.Keeps e) (hid : e'.id = e.id)
    (hcallback : e'.callback = e.callback) (hbuf : e'.buf = e.buf)
    (hqueued : s'.history.queued = s.history.queued) (hstored : s'.stored e.buf = s.stored e.buf) :
    s'.Keeps e' := by
  unfold Keeps at *
  rwa [hid, hcallback, hbuf, hqueued, hstored]

lemma Delivered.congr (h : s.Delivered) (hids : s'.ids = s.ids) (hhistory : s'.history = s.history) :
    s'.Delivered := by
  obtain ⟨hcalled, hown, hfreed, hcarried⟩ := h
  rw [← hhistory] at hcalled hown hfreed hcarried
  rw [← hids] at hcalled
  exact ⟨hcalled, hown, hfreed, hcarried⟩

/-- Nothing else matters than the entries, what their buffers hold, and the history. -/
lemma Served.congr (h : s.Served) (howned : s'.Owned) (hawake : s'.Awake)
    (hlist : s'.queuedPacketList = s.queuedPacketList)
    (hmem : s'.packetMemb.mem = s.packetMemb.mem) (hhistory : s'.history = s.history)
    (hout : s'.outstanding = s.outstanding)
    (hstored : ∀ q ∈ s.queuedPacketList,
      s'.stored (s.packetMemb.mem q).buf = s.stored (s.packetMemb.mem q).buf) : s'.Served := by
  have hids : s'.ids = s.ids := by
    rw [ids, ids, hlist, hmem]
  refine ⟨howned, hawake, hids ▸ h.nodup, fun q hq => ?_, fun q hq => ?_,
    h.delivered.congr hids hhistory⟩
  · rw [hlist] at hq
    rw [hmem]
    exact (h.keeps q hq).congr rfl rfl rfl (by rw [hhistory]) (hstored q hq)
  · rw [hout] at hq
    rw [hlist]
    exact h.head q hq

/-- A packet in the queue is one that was queued. -/
lemma Served.id_lt (h : s.Served) {id : ℕ} (hid : id ∈ s.ids) : id < s.history.queued.length := by
  obtain ⟨q, hq, rfl⟩ := List.mem_map.mp hid
  obtain ⟨p, b, hqueued, -⟩ := h.keeps q hq
  exact (List.getElem?_eq_some_iff.mp hqueued).1

/-- What was queued stays where it is while another packet is queued. -/
lemma getElem?_append_of_some {α : Type} {l : List α} {i : ℕ} {a b : α} (h : l[i]? = some a) :
    (l ++ [b])[i]? = some a := by
  rw [List.getElem?_append_left (List.getElem?_eq_some_iff.mp h).1]
  exact h

/-! ## Steps -/

/-- A callback is only called for a packet that was queued. -/
lemma Delivered.id_lt (h : s.Delivered) {c : ℕ × MacCallback} (hc : c ∈ s.history.called) :
    c.1 < s.history.queued.length := by
  obtain ⟨p, hp, -⟩ := h.own c hc
  exact (List.getElem?_eq_some_iff.mp hp).1

/-- The packets in the queue after one more was queued. -/
lemma ids_queues {callback : MacCallback} (hqueues : Queues s callback q b s') :
    s'.ids = if s.packetbuf.attrs.packetType = packetTypeAck then s.history.queued.length :: s.ids
      else s.ids ++ [s.history.queued.length] := by
  have hfresh := hqueues.fresh
  have hmem := hqueues.mem
  obtain ⟨bufmem, refbufmem, packetMemb, rfl⟩ := hqueues.eq
  have hold : ∀ q' ∈ s.queuedPacketList, packetMemb.mem q' = s.packetMemb.mem q' := by
    intro q' hq'
    have hqq : q' ≠ q := by
      rintro rfl
      exact hfresh hq'
    rw [show packetMemb.mem = _ from hmem, Function.update_of_ne hqq]
  have hnew : (packetMemb.mem q).id = s.history.queued.length := by
    rw [show packetMemb.mem = _ from hmem, Function.update_self]
    rfl
  have hids : s.queuedPacketList.map (fun q' => (packetMemb.mem q').id) = s.ids :=
    List.map_congr_left fun q' hq' => congrArg QueuedPacket.id (hold q' hq')
  unfold ids
  dsimp only
  split_ifs
  · rw [List.map_cons, hnew, hids]
    rfl
  · rw [List.map_append, List.map_singleton, hnew, hids]
    rfl

/-- The packet that is queued is kept as it is. -/
lemma keeps_queues {callback : MacCallback} (hqueues : Queues s callback q b s')
    (href : s.packetbuf.reference = none)
    (hfits : s.packetbuf.hdr.length + s.packetbuf.buflen ≤ packetbufSize) :
    s'.Keeps (s'.packetMemb.mem q) := by
  have hcontent := hqueues.content
  have hqueued : s'.history.queued = s.history.queued ++ [(callback, s.packetbuf.frame s.mem)] := by
    obtain ⟨bufmem, refbufmem, packetMemb, heq⟩ := hqueues.eq
    rw [heq]
  rw [toStore, href] at hcontent
  have hcopy : s.packetbuf.copyto s.mem = s.packetbuf.bytes s.mem := if_neg (by omega)
  have hlength : (s.packetbuf.bytes s.mem).length ≤ packetbufSize := by
    unfold Packetbuf.bytes Packetbuf.data
    rw [href, List.length_append, copyBytes, List.length_map, List.length_range]
    exact hfits
  rw [hqueues.mem, Function.update_self]
  refine ⟨(callback, s.packetbuf.frame s.mem), _, ?_, rfl, hcontent, hcopy, rfl, ?_⟩
  · rw [hqueued]
    exact List.getElem?_concat_length
  · dsimp only
    rw [hcopy]
    exact hlength

/-- One more packet in the queue. -/
lemma served_queues (h : s.Served) {callback : MacCallback} (hqueues : Queues s callback q b s')
    (href : s.packetbuf.reference = none)
    (hfits : s.packetbuf.hdr.length + s.packetbuf.buflen ≤ packetbufSize)
    (hack : s.packetbuf.attrs.packetType = packetTypeAck → s.rdcIsTransmitting = false)
    (hawake : s'.Awake) : s'.Served := by
  have hkeeps := keeps_queues hqueues href hfits
  have hids := ids_queues hqueues
  have hmem := hqueues.mem
  have hstored := hqueues.stored
  have hfreshBuf := hqueues.freshBuf
  have hfresh := hqueues.fresh
  have hmem_ids : ∀ id, id ∈ s'.ids ↔ id ∈ s.ids ∨ id = s.history.queued.length := by
    intro id
    rw [hids]
    split_ifs
    · rw [List.mem_cons, or_comm]
    · rw [List.mem_append, List.mem_singleton]
  have hnew : s.history.queued.length ∉ s.ids := fun hid => Nat.lt_irrefl _ (h.id_lt hid)
  have howned := hqueues.owned
  obtain ⟨bufmem, refbufmem, packetMemb, rfl⟩ := hqueues.eq
  refine ⟨howned, hawake, ?_, ?_, ?_, ?_, ?_, h.delivered.freed, ?_⟩
  · rw [hids]
    split_ifs
    · exact List.nodup_cons.mpr ⟨hnew, h.nodup⟩
    · exact h.nodup.append (List.nodup_singleton _) (List.disjoint_singleton.mpr hnew)
  · intro q' hq'
    by_cases hqq : q' = q
    · rw [hqq]
      exact hkeeps
    · have hold : q' ∈ s.queuedPacketList := by
        dsimp only at hq'
        split_ifs at hq'
        · exact (List.mem_cons.mp hq').resolve_left hqq
        · exact (List.mem_append.mp hq').resolve_right fun hsingle =>
            hqq (List.mem_singleton.mp hsingle)
      obtain ⟨p, c, hqueued, hcallback, hbuf, hrest⟩ := h.keeps q' hold
      have hne : (s.packetMemb.mem q').buf ≠ b := by
        rintro rfl
        exact hfreshBuf (h.owned.bufLive q' hold)
      rw [hmem, Function.update_of_ne hqq]
      exact ⟨p, c, getElem?_append_of_some hqueued, hcallback, (hstored _ hne).trans hbuf, hrest⟩
  · intro q' hq'
    have hhead := h.head q' hq'
    dsimp only
    split_ifs with htype
    · -- an acknowledgement finds nothing outstanding
      have hlength := h.awake.length
      rw [hack htype] at hlength
      rw [List.eq_nil_of_length_eq_zero hlength] at hq'
      cases hq'
    · rw [List.head?_append, hhead]
      rfl
  · intro id hid
    rw [List.length_append, List.length_singleton] at hid
    rcases Nat.lt_succ_iff_lt_or_eq.mp hid with hlt | rfl
    · rw [h.delivered.called id hlt]
      have hiff := hmem_ids id
      rw [or_iff_left (Nat.ne_of_lt hlt)] at hiff
      exact if_congr hiff.symm rfl rfl
    · rw [if_pos ((hmem_ids _).mpr (.inr rfl)), List.countP_eq_zero]
      intro c hc
      have hlt := h.delivered.id_lt hc
      rw [decide_eq_true_iff]
      omega
  · intro c hc
    obtain ⟨p, hp, hown⟩ := h.delivered.own c hc
    exact ⟨p, getElem?_append_of_some hp, hown⟩
  · intro f hf
    obtain ⟨p, hp, hcarried⟩ := h.delivered.carried f hf
    exact ⟨p, getElem?_append_of_some hp, hcarried⟩

/-- The head of the queue is transmitted as it was queued. -/
lemma served_transmit (h : s.Owned) (hids : s.ids.Nodup)
    (hkeeps : ∀ q ∈ s.queuedPacketList, s.Keeps (s.packetMemb.mem q)) (hdelivered : s.Delivered)
    (hhead : ∀ q ∈ s.outstanding, s.queuedPacketList.head? = some q)
    (hs' : s.transmitQueuedPacket = .ok s') (hawake : s'.Awake) (howned : s'.Owned) :
    s'.Served := by
  cases hidle : s.rdcIsTransmitting with
  | true =>
    unfold transmitQueuedPacket at hs'
    rw [if_pos hidle] at hs'
    cases hs'
    exact ⟨howned, hawake, hids, hkeeps, hhead, hdelivered⟩
  | false =>
    cases hlist : s.queuedPacketList with
    | nil =>
      unfold transmitQueuedPacket at hs'
      rw [if_neg (ne_true_of_eq_false hidle), hlist] at hs'
      cases hs'
      exact ⟨howned, hawake, hids, hkeeps, hhead, hdelivered⟩
    | cons q rest =>
      have hq : q ∈ s.queuedPacketList := by
        rw [hlist]
        exact List.mem_cons_self
      obtain ⟨p, hp, htransmit⟩ := transmitQueuedPacket_spec h hidle hlist
      rw [htransmit] at hs'
      cases hs'
      obtain ⟨queued, c, hqueued, -, hstored, hdata, hreceiver, hlength⟩ := hkeeps q hq
      have hframe : p.frame s.mem = queued.2 := by
        unfold queuebufToPacketbuf at hp
        rw [if_pos (h.bufLive q hq)] at hp
        cases hbuf : (s.packetMemb.mem q).buf with
        | ref i =>
          rw [hbuf] at hstored
          cases hstored
        | buf i =>
          rw [hbuf] at hstored hp
          cases hp
          have hmem : s.bufmem.mem i = c := Sum.inl.inj hstored
          rw [hmem]
          unfold Packetbuf.frame
          rw [Packetbuf.ofQueuebuf_bytes _ _ hlength, hdata]
          show Frame154.mk queued.2.bytes c.attrs.receiver = queued.2
          rw [hreceiver]
      refine ⟨howned, hawake, hids, hkeeps, fun q' hq' => ?_, hdelivered.called, hdelivered.own,
        hdelivered.freed, fun t ht => ?_⟩
      · show s.queuedPacketList.head? = some q'
        rcases List.mem_cons.mp hq' with rfl | hold
        · rw [hlist]
          rfl
        · exact hhead q' hold
      · rcases List.mem_append.mp ht with hold | hnew
        · exact hdelivered.carried t hold
        · rw [List.mem_singleton.mp hnew]
          exact ⟨queued, hqueued, hframe⟩

/-- The packet of the entry `q` is to be transmitted once more. -/
structure Repeated (s : Csma nBuf nRef) (q : Fin maxQueuedPackets) (status : MacStatus)
    (s' : Csma nBuf nRef) : Prop where
  list : s'.queuedPacketList = s.queuedPacketList
  history : s'.history = s.history
  outstanding : s'.outstanding = s.outstanding.erase q
  mem : s'.packetMemb.mem =
    Function.update s.packetMemb.mem q (countStatus (s.packetMemb.mem q) status)
  stored : ∀ b, b ≠ (s.packetMemb.mem q).buf → s'.stored b = s.stored b
  content : ∀ c, s.stored (s.packetMemb.mem q).buf = .inl c →
    s'.stored (s.packetMemb.mem q).buf = .inl { c with attrs := s.packetbuf.attrs }

lemma repeated_of_updateAttr {status : MacStatus} (hlive : s.BufLive (s.packetMemb.mem q).buf)
    (hs' : queuebufUpdateAttr { s.completed q status with transmitTimer := true }
      (s.packetMemb.mem q).buf = .ok s') : Repeated s q status s' := by
  have hlive' : BufLive { s.completed q status with transmitTimer := true }
      (s.packetMemb.mem q).buf := hlive
  rcases queuebufUpdateAttr_spec hlive' with ⟨-, hupdate⟩ | ⟨i, hbuf, hupdate⟩
  · rw [hupdate] at hs'
    cases hs'
  rw [hupdate] at hs'
  cases hs'
  refine ⟨rfl, rfl, rfl, rfl, ?_, ?_⟩
  · rintro (j | j) hne
    · show Sum.inl (Function.update s.bufmem.mem i _ j) = Sum.inl (s.bufmem.mem j)
      rw [Function.update_of_ne]
      rintro rfl
      exact hne hbuf.symm
    · rfl
  · intro c hc
    rw [hbuf] at hc ⊢
    show Sum.inl (Function.update s.bufmem.mem i { s.bufmem.mem i with attrs := s.packetbuf.attrs } i)
      = _
    rw [Function.update_self, Sum.inl.inj hc]

/-- After a transmission that is to be repeated, the entry still keeps its packet. -/
lemma served_repeat (h : s.Served) (hout : q ∈ s.outstanding) {status : MacStatus}
    (hreceiver : s.SameReceiver (s.packetMemb.mem q).buf)
    (hs' : Repeated s q status s') (hawake : s'.Awake) (howned : s'.Owned) :
    s'.Served := by
  have hq := h.awake.outstanding q hout
  obtain ⟨hlist, hhistory, houtstanding, hmem, hstored, hcontent⟩ := hs'
  obtain ⟨hsameBuf, hsameId, hsameCallback⟩ := countStatus_buf (s.packetMemb.mem q) status
  -- the entries differ in their counters only
  have hentry : ∀ q', (s'.packetMemb.mem q').id = (s.packetMemb.mem q').id ∧
      (s'.packetMemb.mem q').callback = (s.packetMemb.mem q').callback ∧
      (s'.packetMemb.mem q').buf = (s.packetMemb.mem q').buf := by
    intro q'
    rw [hmem]
    by_cases hqq : q' = q
    · rw [hqq, Function.update_self]
      exact ⟨hsameId, hsameCallback, hsameBuf⟩
    · rw [Function.update_of_ne hqq]
      exact ⟨rfl, rfl, rfl⟩
  have hids : s'.ids = s.ids := by
    unfold ids
    rw [hlist]
    exact List.map_congr_left fun q' _ => (hentry q').1
  have hnone : s'.outstanding = [] := houtstanding.trans (h.awake.completed hout)
  refine ⟨howned, hawake, hids ▸ h.nodup, ?_, ?_, h.delivered.congr hids hhistory⟩
  · intro q' hq'
    rw [hlist] at hq'
    obtain ⟨hid, hcallback, hsame⟩ := hentry q'
    by_cases hqq : q' = q
    · obtain ⟨p, c, hqueued, hcall, hbuf, hdata, haddr, hlength⟩ := h.keeps q hq
      rw [hqq] at hid hcallback hsame ⊢
      unfold SameReceiver at hreceiver
      rw [hbuf] at hreceiver
      refine ⟨p, { c with attrs := s.packetbuf.attrs }, ?_, hcallback.trans hcall, ?_, hdata,
        hreceiver.trans haddr, hlength⟩
      · rw [hhistory, hid]
        exact hqueued
      · rw [hsame]
        exact hcontent c hbuf
    · apply (h.keeps q' hq').congr hid hcallback hsame
      · rw [hhistory]
      · exact hstored _ fun heq => hqq (h.owned.injective q' hq' q hq heq)
  · intro q' hq'
    rw [hnone] at hq'
    cases hq'

/-- The outstanding transmission is that of the head. -/
lemma Served.head_eq (h : s.Served) (hout : q ∈ s.outstanding) :
    ∃ rest, s.queuedPacketList = q :: rest := by
  have hhead := h.head q hout
  cases hlist : s.queuedPacketList with
  | nil =>
    rw [hlist] at hhead
    cases hhead
  | cons q' rest =>
    rw [hlist] at hhead
    cases hhead
    exact ⟨rest, rfl⟩

/-- The packet of the entry `q`, the head of the queue, is done. -/
structure Finished (s : Csma nBuf nRef) (q : Fin maxQueuedPackets) (s' : Csma nBuf nRef) : Prop where
  list : s.queuedPacketList = q :: s'.queuedPacketList
  outstanding : s'.outstanding = s.outstanding.erase q
  mem : ∀ q' ∈ s'.queuedPacketList, s'.packetMemb.mem q' = s.packetMemb.mem q'
  stored : ∀ b, s'.stored b = s.stored b
  queued : s'.history.queued = s.history.queued
  transmitted : s'.history.transmitted = s.history.transmitted
  called : s'.history.called =
    s.history.called ++ [((s.packetMemb.mem q).id, (s.packetMemb.mem q).callback)]
  freed : s'.history.freed = s.history.freed ++ [((s.packetMemb.mem q).id, (s.packetMemb.mem q).id)]

lemma Finished.ids (h : Finished s q s') : s.ids = (s.packetMemb.mem q).id :: s'.ids := by
  unfold Csma.ids
  rw [h.list, List.map_cons]
  exact congrArg _ (List.map_congr_left fun q' hq' => congrArg QueuedPacket.id (h.mem q' hq').symm)

/-- The packet whose transmission was completed leaves the queue, and its callback is called. -/
lemma Served.finished (h : s.Served) (hout : q ∈ s.outstanding) {status : MacStatus}
    (hs' : (s.completed q status).finish (countStatus (s.packetMemb.mem q) status) = .ok s') :
    Finished s q s' := by
  obtain ⟨rest, hlist⟩ := h.head_eq hout
  obtain ⟨-, hsameId, hsameCallback⟩ := countStatus_buf (s.packetMemb.mem q) status
  obtain ⟨s₁, ⟨-, ⟨bufmem, refbufmem, rfl⟩, hstored⟩, hfinish⟩ :=
    finish_spec (h.owned.completed q status) (q := q) hlist
      (countStatus (s.packetMemb.mem q) status)
  rw [hfinish] at hs'
  cases hs'
  have hnodup := h.owned.nodup
  rw [hlist, List.nodup_cons] at hnodup
  refine ⟨hlist, rfl, fun q' hq' => ?_, hstored, rfl, rfl, ?_, ?_⟩
  · show ((s.completed q status).packetMemb.free q).mem q' = _
    rw [Memb.free_mem]
    show Function.update s.packetMemb.mem q _ q' = _
    rw [Function.update_of_ne]
    rintro rfl
    exact hnodup.1 hq'
  · show s.history.called ++ [((countStatus (s.packetMemb.mem q) status).id,
      (countStatus (s.packetMemb.mem q) status).callback)] = _
    rw [hsameId, hsameCallback]
  · show s.history.freed ++ [((countStatus (s.packetMemb.mem q) status).id,
      (Function.update s.packetMemb.mem q (countStatus (s.packetMemb.mem q) status) q).id)] = _
    rw [Function.update_self, hsameId]

/-- The packet that is done has been called back once, and the others have not. -/
lemma Finished.delivered (hs' : Finished s q s') (h : s.Served) (hq : q ∈ s.queuedPacketList) :
    s'.Delivered := by
  have hall := h.nodup
  rw [hs'.ids, List.nodup_cons] at hall
  obtain ⟨p, c, hqueued, hcall, -⟩ := h.keeps q hq
  refine ⟨fun id hid => ?_, fun d hd => ?_, fun f hf => ?_, ?_⟩
  · rw [hs'.queued] at hid
    rw [hs'.called, List.countP_append, h.delivered.called id hid, hs'.ids, List.countP_singleton]
    by_cases hsame : (s.packetMemb.mem q).id = id
    · rw [← hsame, if_pos List.mem_cons_self, if_neg hall.1, if_pos (decide_eq_true rfl)]
    · have hother : decide ((s.packetMemb.mem q).id = id) ≠ true := by
        rw [ne_eq, decide_eq_true_iff]
        exact hsame
      rw [if_neg hother, Nat.add_zero]
      apply if_congr _ rfl rfl
      rw [List.mem_cons, or_iff_right fun heq => hsame heq.symm]
  · rw [hs'.called] at hd
    rw [hs'.queued]
    rcases List.mem_append.mp hd with hold | hnew
    · exact h.delivered.own d hold
    · rw [List.mem_singleton.mp hnew]
      exact ⟨p, hqueued, hcall⟩
  · rw [hs'.freed] at hf
    rcases List.mem_append.mp hf with hold | hnew
    · exact h.delivered.freed f hold
    · rw [List.mem_singleton.mp hnew]
  · rw [hs'.transmitted, hs'.queued]
    exact h.delivered.carried

lemma served_finish (h : s.Served) (hout : q ∈ s.outstanding) (hs' : Finished s q s')
    (hawake : s'.Awake) (howned : s'.Owned) : s'.Served := by
  have hall := h.nodup
  rw [hs'.ids, List.nodup_cons] at hall
  have hnone : s'.outstanding = [] := hs'.outstanding.trans (h.awake.completed hout)
  refine ⟨howned, hawake, hall.2, fun q' hq' => ?_, fun q' hq' => ?_,
    hs'.delivered h (h.awake.outstanding q hout)⟩
  · have hold : q' ∈ s.queuedPacketList := by
      rw [hs'.list]
      exact List.mem_cons_of_mem q hq'
    rw [hs'.mem q' hq']
    exact (h.keeps q' hold).congr rfl rfl rfl hs'.queued (hs'.stored _)
  · rw [hnone] at hq'
    cases hq'

/-! ## Runs -/

/-- An orderly completion is for a packet that is kept by value. -/
lemma Served.byValue (h : s.Served) {e : CsmaEvent nBuf nRef} (hstep : s.step e = .ok s') :
    s.ByValue e := by
  cases e with
  | packetSent q status =>
    intro _
    unfold step at hstep
    dsimp only at hstep
    split_ifs at hstep with hout
    obtain ⟨p, c, -, -, hstored, -⟩ := h.keeps q (h.awake.outstanding q hout)
    cases hbuf : (s.packetMemb.mem q).buf with
    | buf i => exact ⟨i, rfl⟩
    | ref i =>
      rw [hbuf] at hstored
      cases hstored
  | _ => trivial

/-- An orderly event keeps the packets. -/
lemma served_step (h : s.Served) {e : CsmaEvent nBuf nRef} (horderly : s.Orderly e)
    (hs' : s.step e = .ok s') : s'.Served := by
  obtain ⟨howned, hawake⟩ := step_of_ok h.owned h.awake (h.byValue hs') hs'
  cases e with
  | sendPacket callback p =>
    have hstart : Served (stamp { s with packetbuf := p }) :=
      h.congr (h.owned.congr rfl rfl rfl rfl rfl)
        ⟨h.awake.outstanding, h.awake.length, h.awake.timer⟩ rfl rfl rfl rfl fun _ _ => rfl
    rcases sendStamped_spec hstart.owned callback with ⟨-, hsent⟩ | ⟨haccepts, q, b, s'', hsent, hqueues⟩
    · cases hs'.symm.trans hsent
      exact hstart
    · cases hs'.symm.trans hsent
      obtain ⟨href, hfits, hack⟩ := horderly haccepts
      exact served_queues hstart hqueues href hfits hack hawake
  | timer =>
    unfold step at hs'
    dsimp only at hs'
    split_ifs at hs'
    exact served_transmit (s := { s with transmitTimer := false }) (h.owned.congr rfl rfl rfl rfl rfl)
      h.nodup h.keeps (h.delivered.congr rfl rfl) h.head hs' hawake howned
  | packetSent q status =>
    unfold step at hs'
    dsimp only at hs'
    split_ifs at hs' with hout
    have hq := h.awake.outstanding q hout
    rcases packetSent_eq h.owned hq status with ⟨hrepeats, hsent⟩ | ⟨-, hsent⟩
    · rw [hsent] at hs'
      exact served_repeat h hout (horderly hrepeats)
        (repeated_of_updateAttr (h.owned.bufLive q hq) hs') hawake howned
    · rw [hsent] at hs'
      exact served_finish h hout (h.finished hout hs') hawake howned
  | reuse p mem =>
    cases hs'
    exact h.congr howned hawake rfl rfl rfl rfl fun _ _ => rfl
  | take =>
    unfold step at hs'
    dsimp only at hs'
    cases hnew : s.queuebufNew with
    | none =>
      rw [hnew] at hs'
      cases hs'
      exact h
    | some r =>
      obtain ⟨b, s''⟩ := r
      rw [hnew] at hs'
      obtain ⟨⟨bufmem, refbufmem, rfl⟩, hfresh, -, -, hstored, -⟩ := queuebufNew_spec hnew
      cases hs'
      exact h.congr howned hawake rfl rfl rfl rfl fun q hq =>
        hstored _ fun heq => hfresh (heq ▸ h.owned.bufLive q hq)
  | give b =>
    unfold step at hs'
    dsimp only at hs'
    split_ifs at hs' with hb
    obtain ⟨s'', hfree, ⟨bufmem, refbufmem, rfl⟩, -, -, hstored⟩ :=
      queuebufFree_spec (h.owned.othersLive b hb) h.owned.counted
    rw [hfree, ok_bind] at hs'
    cases hs'
    exact h.congr howned hawake rfl rfl rfl rfl fun _ _ => hstored _

/-- A completion concludes the transmission of its packet. -/
lemma Served.concludes (h : s.Served) (hout : q ∈ s.outstanding) (status : MacStatus) :
    ∃ s', s.step (.packetSent q status) = .ok s' ∧ s.Concludes q status s' := by
  have hq := h.awake.outstanding q hout
  obtain ⟨p, c, -, -, hstored, -⟩ := h.keeps q hq
  have hvalue : ∃ i, (s.packetMemb.mem q).buf = .buf i := by
    cases hbuf : (s.packetMemb.mem q).buf with
    | buf i => exact ⟨i, rfl⟩
    | ref i =>
      rw [hbuf] at hstored
      cases hstored
  obtain ⟨s', hsent, howned, hawake, -⟩ :=
    packetSent_ok h.owned h.awake hout status fun _ => hvalue
  refine ⟨s', (if_pos hout).trans hsent, ?_⟩
  rcases packetSent_eq h.owned hq status with ⟨hrepeats, heq⟩ | ⟨hlast, heq⟩
  · rw [heq] at hsent
    obtain ⟨hlist, hhistory, -, hmem, -, -⟩ := repeated_of_updateAttr (h.owned.bufLive q hq) hsent
    obtain ⟨i, hbuf⟩ := hvalue
    refine ⟨fun hlast => absurd hrepeats hlast, fun _ => ⟨?_, ?_, hhistory⟩⟩
    · unfold ids
      rw [hlist, hmem]
      refine List.map_congr_left fun q' _ => ?_
      by_cases hqq : q' = q
      · rw [hqq, Function.update_self]
        exact (countStatus_buf _ status).2.1
      · rw [Function.update_of_ne hqq]
    · have hlive : BufLive { s.completed q status with transmitTimer := true }
          (s.packetMemb.mem q).buf := h.owned.bufLive q hq
      rcases queuebufUpdateAttr_spec hlive with ⟨-, hupdate⟩ | ⟨j, -, hupdate⟩
      · cases hsent.symm.trans hupdate
      · cases hsent.symm.trans hupdate
        rfl
  · rw [heq] at hsent
    have hdone := h.finished hout hsent
    exact ⟨fun _ => ⟨hdone.ids, hdone.called, hdone.freed⟩, fun hrepeats => absurd hrepeats hlast⟩

lemma Initial.served (h : s.Initial) : s.Served := by
  have hlist := h.queuedPacketList
  have hids : s.ids = [] := by
    rw [ids, hlist]
    rfl
  refine ⟨h.owned, h.awake, ?_, ?_, ?_, ?_, ?_, ?_, ?_⟩
  · rw [hids]
    exact List.nodup_nil
  · rw [hlist]
    exact nofun
  · rw [h.outstanding]
    exact nofun
  · rw [h.history]
    exact nofun
  · rw [h.history]
    exact nofun
  · rw [h.history]
    exact nofun
  · rw [h.history]
    exact nofun

/-- **Each packet of the queue is served**, in every run of orderly events, and each completion of an
outstanding transmission concludes it. -/
theorem packets_delivered (s : Csma nBuf nRef) (h : Reaches step Orderly Initial s) :
    s.Delivered ∧ ∀ q ∈ s.outstanding, ∀ status,
      ∃ s', s.step (.packetSent q status) = .ok s' ∧ s.Concludes q status s' := by
  have hserved : s.Served :=
    h.invariant (I := Served) (fun _ h => h.served) fun _ _ _ h horderly hs' =>
      served_step h horderly hs'
  exact ⟨hserved.delivered, fun q hout status => hserved.concludes hout status⟩

/-- Two packets are queued; the first is transmitted twice and called back, and
the second is being transmitted. -/
theorem packets_delivered_two : ∃ s : Csma 2 0, Reaches step Orderly Initial s ∧
    s.history.queued.length = 2 ∧ s.history.called = [(0, ⟨1, 1⟩)] ∧ s.history.freed = [(0, 0)] ∧
    s.history.transmitted.map Prod.fst = [0, 0, 1] ∧ s.outstanding = [1] ∧ s.Delivered ∧
    ∃ s', s.step (.packetSent 1 .ok) = .ok s' ∧ s.Concludes 1 .ok s' := by
  have hobserve : (runGuarded step Orderly (emptyQueue : Csma 2 0)
      [.sendPacket ⟨1, 1⟩ (smallPacket 0), .timer, .sendPacket ⟨2, 2⟩ (smallPacket 0),
        .packetSent 0 .noack, .timer, .packetSent 0 .ok, .timer]).map
      (fun s => decide (s.history.queued.length = 2 ∧ s.history.called = [(0, ⟨1, 1⟩)] ∧
        s.history.freed = [(0, 0)] ∧ s.history.transmitted.map Prod.fst = [0, 0, 1] ∧
          s.outstanding = [1])) = some true := by
    decide +kernel
  obtain ⟨s, hrun, hobserve⟩ := Option.map_eq_some_iff.mp hobserve
  obtain ⟨hqueued, hcalled, hfreed, htransmitted, hout⟩ := of_decide_eq_true hobserve
  have hruns := (Reaches.initial emptyQueue_initial).of_runGuarded hrun
  obtain ⟨hdelivered, hconcludes⟩ := packets_delivered s hruns
  exact ⟨s, hruns, hqueued, hcalled, hfreed, htransmitted, hout, hdelivered,
    hconcludes 1 (by rw [hout]; exact List.mem_singleton_self 1) .ok⟩

/-- An acknowledgement comes while a packet is transmitted: its entry is freed in the place of that
of the packet. -/
theorem not_packets_delivered : ¬∀ s : Csma 2 0, s.Runs → s.Delivered := by
  intro h
  obtain ⟨s, hs, hfreed⟩ := exists_ok_of_map (f := fun s : Csma 2 0 => s.history.freed) (b := [(0, 1)])
    (x := runEvents step emptyQueue
      [.sendPacket ⟨1, 1⟩ (smallPacket 0), .timer, .sendPacket ⟨2, 2⟩ (smallPacket packetTypeAck),
        .packetSent 0 .ok]) (by decide +kernel)
  have hruns : s.Runs :=
    (Reaches.initial emptyQueue_initial).of_runEvents (fun _ _ _ => trivial) hs
  have hsame := (h s hruns).freed (0, 1) (by rw [hfreed]; exact List.mem_cons_self)
  cases hsame

end Csma
end Contiki

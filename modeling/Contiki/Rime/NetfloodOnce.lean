import Contiki.Lib.History
import Contiki.Rime.Netflood

/-!
# Each flood once

A node sends a flood on once, and passes it to the user when it is newer than what the node has heard of
its originator.  The node remembers one flood only, and compares numbers of eight bits.

* `FloodNet.FloodsWell` — what is claimed.
* `FloodNet.Remembered` — the events for which one flood is enough to remember.
* `FloodNet.floods_well` — the result, for all runs of such events.
-/

namespace Contiki
namespace Rime
variable {size : ℕ}

namespace FloodNet
variable {s s' : FloodNet size} {v : Rimeaddr size} {p : FloodPacket size}

/-! ## What is claimed -/

/-- The node has heard of the flood: a copy reached it, or the node started it. -/
def Heard (log : List (FloodReport size)) (v o : Rimeaddr size) (no : ℕ) : Prop :=
  .reached v o no ∈ log ∨ v = o ∧ .originated o no ∈ log

/-- A copy of a flood newer than all that the node has heard of its originator is passed to the user. -/
def PassesNew (pre : List (FloodReport size)) (next : Option (FloodReport size)) :
    FloodReport size → Prop
  | .reached v o no => (∀ no', Heard pre v o no' → no' < no) → next = some (.received v o no)
  | _ => True

/-- No flood is sent on twice by a node, and new floods are passed to the user. -/
structure FloodsWell (log : List (FloodReport size)) : Prop where
  once : ∀ v o no, log.count (.rebroadcast v o no) ≤ 1
  passed : Throughout PassesNew log

/-- A node starts no flood while it still keeps one to be sent on, and its address is not the one of
nobody.  While a node remembers a flood of the originator of the copy that it gets, the numbers of the
two have not wrapped in between.  When it gets a further copy of a flood that it sent on, it remembers
this flood or a newer one of its originator. -/
def Remembered (s : FloodNet size) : FloodEvent size → Prop
  | .netfloodSend v hdralloc _ => hdralloc = true → v ≠ .null size ∧ (s.node v).c.q = none
  | .receive v i _ _ _ => ∀ p, s.air[i]? = some p →
      ((s.node v).lastOriginator = p.originator → p.no / 256 = (s.node v).lastNo / 256) ∧
      (.forwarded v p.originator p.no ∈ s.log →
        (s.node v).lastOriginator = p.originator ∧ p.no ≤ (s.node v).lastNo)
  | .timer _ => True

end FloodNet

/-! ## Packets and what a node remembers -/

/-- The packet carries the number of its flood, and its originator is somebody. -/
structure FloodPacket.Sound (p : FloodPacket size) : Prop where
  seqno : p.originatorSeqno = (UInt8.ofNat p.no).toUInt16
  originator : p.originator ≠ .null size

lemma seqno_le_iff {n m : ℕ} :
    (UInt8.ofNat n).toUInt16 ≤ (UInt8.ofNat m).toUInt16 ↔ n % 256 ≤ m % 256 := by
  rw [UInt16.le_iff_toNat_le, UInt8.toNat_toUInt16, UInt8.toNat_toUInt16, UInt8.toNat_ofNat',
    UInt8.toNat_ofNat']

namespace NetfloodConn
variable {c : NetfloodConn size} {p : FloodPacket size}

/-- Whether the flood is kept to be sent on. -/
def keptCount (c : NetfloodConn size) (o : Rimeaddr size) (no : ℕ) : ℕ :=
  if ∃ p ∈ c.c.q, p.originator = o ∧ p.no = no then 1 else 0

/-- While the numbers have not wrapped, the flood is taken for an old one exactly when it is not newer
than the one that is remembered. -/
lemma accepts_iff (hp : p.Sound) (hseqno : c.lastOriginatorSeqno = UInt8.ofNat c.lastNo)
    (horiginator : c.lastOriginator = p.originator) (hround : p.no / 256 = c.lastNo / 256) :
    c.Accepts p ↔ c.lastNo < p.no := by
  have hiff := seqno_le_iff (n := p.no) (m := c.lastNo)
  unfold Accepts
  rw [hp.seqno, hseqno, hiff, horiginator]
  simp only [true_and]
  omega

end NetfloodConn

namespace FloodNet
variable {s s' : FloodNet size} {v : Rimeaddr size} {p : FloodPacket size}

/-- What a node remembers and keeps is what it has heard of and decided to send on. -/
structure NodeOk (log : List (FloodReport size)) (v : Rimeaddr size) (c : NetfloodConn size) : Prop where
  seqno : c.lastOriginatorSeqno = UInt8.ofNat c.lastNo
  heard : c.lastOriginator = .null size ∨ Heard log v c.lastOriginator c.lastNo
  kept : ∀ p ∈ c.c.q, p.Sound
  freed : c.c.freed = false
  atOnce : c.queueTime = 0 → c.c.q = none
  tally : ∀ o no, log.count (.rebroadcast v o no) + c.keptCount o no ≤ log.count (.forwarded v o no)
  once : ∀ o no, log.count (.forwarded v o no) ≤ 1

/-- The network is in order. -/
structure FloodOk (s : FloodNet size) : Prop where
  air : ∀ p ∈ s.air, p.Sound
  node : ∀ v, NodeOk s.log v (s.node v)
  passed : Throughout PassesNew s.log

/-- The node a report is about. -/
def reportNode : FloodReport size → Rimeaddr size
  | .originated v _ | .reached v _ _ | .received v _ _ | .forwarded v _ _ | .rebroadcast v _ _ => v

lemma Heard.append {log : List (FloodReport size)} {v o : Rimeaddr size} {no : ℕ} (h : Heard log v o no)
    (block : List (FloodReport size)) : Heard (log ++ block) v o no :=
  h.imp (List.mem_append_left _) fun h => ⟨h.1, List.mem_append_left _ h.2⟩

/-- Reports about other nodes do not matter to a node. -/
lemma NodeOk.other {log block : List (FloodReport size)} {c : NetfloodConn size} (h : NodeOk log v c)
    (hblock : ∀ r ∈ block, reportNode r ≠ v) : NodeOk (log ++ block) v c := by
  have hcount : ∀ r : FloodReport size, reportNode r = v → (log ++ block).count r = log.count r := by
    intro r hr
    rw [List.count_append, List.count_eq_zero.mpr fun hmem => hblock r hmem hr, Nat.add_zero]
  refine ⟨h.seqno, h.heard.imp_right fun hh => hh.append block, h.kept, h.freed, h.atOnce,
    fun o no => ?_, fun o no => ?_⟩
  · rw [hcount _ rfl, hcount _ rfl]
    exact h.tally o no
  · rw [hcount _ rfl]
    exact h.once o no

/-- A node takes in something and reports it. -/
lemma FloodOk.update {c : NetfloodConn size} {sent : Option (FloodPacket size)}
    {block : List (FloodReport size)} {next : Rimeaddr size → ℕ} (h : s.FloodOk)
    (hsent : ∀ p ∈ sent, p.Sound) (hblock : ∀ r ∈ block, reportNode r = v)
    (hnode : NodeOk (s.log ++ block) v c)
    (hpassed : ∀ pre r post, block = pre ++ r :: post → PassesNew (s.log ++ pre) post.head? r) :
    FloodOk { s.update v c sent with next := next, log := s.log ++ block } := by
  refine ⟨fun p hp => ?_, fun w => ?_, h.passed.append_list (fun pre next r hr => ?_) hpassed⟩
  · rcases List.mem_append.mp hp with hp | hp
    · exact h.air p hp
    · exact hsent p (Option.mem_toList.mp hp)
  · by_cases hw : w = v
    · subst hw
      show NodeOk _ w (Function.update s.node w c w)
      rw [Function.update_self]
      exact hnode
    · show NodeOk _ w (Function.update s.node v c w)
      rw [Function.update_of_ne hw]
      exact (h.node w).other fun r hr hrw => hw (hrw.symm.trans (hblock r hr))
  · cases r with
    | reached _ _ _ => exact fun hnew => absurd (hr hnew) nofun
    | _ => trivial

/-! ## What a node does -/

variable {log block : List (FloodReport size)} {c c' : NetfloodConn size}

/-- Reports of copies that are not sent on. -/
lemma NodeOk.quiet (h : NodeOk log v c) (hrebroadcast : ∀ o no, .rebroadcast v o no ∉ block)
    (hforwarded : ∀ o no, .forwarded v o no ∉ block) : NodeOk (log ++ block) v c := by
  refine ⟨h.seqno, h.heard.imp_right fun hh => hh.append block, h.kept, h.freed, h.atOnce,
    fun o no => ?_, fun o no => ?_⟩
  · rw [List.count_append, List.count_append, List.count_eq_zero.mpr (hrebroadcast o no),
      List.count_eq_zero.mpr (hforwarded o no), Nat.add_zero, Nat.add_zero]
    exact h.tally o no
  · rw [List.count_append, List.count_eq_zero.mpr (hforwarded o no), Nat.add_zero]
    exact h.once o no

lemma keptCount_none {o : Rimeaddr size} {no : ℕ} (h : c.c.q = none) : c.keptCount o no = 0 := by
  refine if_neg ?_
  rintro ⟨p, hp, -⟩
  rw [h] at hp
  cases hp

/-- What is kept may be dropped. -/
lemma NodeOk.dropped {ipolite : IpoliteConn (FloodPacket size)} (h : NodeOk log v c)
    (hq : ipolite.q = c.c.q ∨ ipolite.q = none) (hfreed : ipolite.freed = c.c.freed) :
    NodeOk log v { c with c := ipolite } := by
  refine ⟨h.seqno, h.heard, fun p hp => ?_, hfreed.trans h.freed, fun hat => ?_, fun o no => ?_, h.once⟩
  · rcases hq with hq | hq
    · exact h.kept p (hq ▸ hp)
    · rw [hq] at hp
      cases hp
  · rcases hq with hq | hq
    · exact hq.trans (h.atOnce hat)
    · exact hq
  · refine le_trans (Nat.add_le_add_left ?_ _) (h.tally o no)
    rcases hq with hq | hq
    · unfold NetfloodConn.keptCount
      simp only [hq]
      exact le_rfl
    · rw [keptCount_none hq]
      exact Nat.zero_le _

lemma count_rebroadcasts (sent : Option (FloodPacket size)) (o : Rimeaddr size) (no : ℕ) :
    (rebroadcasts v sent).count (.rebroadcast v o no) =
      if ∃ q ∈ sent, q.originator = o ∧ q.no = no then 1 else 0 := by
  cases sent with
  | none => simp [rebroadcasts]
  | some q => simp [rebroadcasts, List.count_singleton]

lemma forwarded_not_mem_rebroadcasts (sent : Option (FloodPacket size)) (o : Rimeaddr size) (no : ℕ) :
    .forwarded v o no ∉ rebroadcasts v sent := by
  intro h
  obtain ⟨q, -, hq⟩ := List.mem_map.mp h
  cases hq

/-- What the reports about a copy that is sent on add to the counts. -/
lemma count_receiveReports {queuebuf flood : Bool} {sent : Option (FloodPacket size)}
    (hforwards : c.Forwards p queuebuf flood) (o : Rimeaddr size) (no : ℕ) :
    (receiveReports v c p queuebuf flood sent).count (.forwarded v o no) =
        (if p.originator = o ∧ p.no = no then 1 else 0) ∧
      (receiveReports v c p queuebuf flood sent).count (.rebroadcast v o no) =
        if ∃ q ∈ sent, q.originator = o ∧ q.no = no then 1 else 0 := by
  have hblock : receiveReports v c p queuebuf flood sent =
      [.reached v p.originator p.no, .received v p.originator p.no, .forwarded v p.originator p.no] ++
        rebroadcasts v sent := by
    unfold receiveReports
    rw [if_pos hforwards.1, if_pos hforwards]
    rfl
  rw [hblock, List.count_append, List.count_append, count_rebroadcasts,
    List.count_eq_zero.mpr (forwarded_not_mem_rebroadcasts sent o no)]
  exact ⟨by simp [List.count_cons], by simp⟩

/-- The decision to send a flood on, for the first time. -/
lemma NodeOk.forwards {queuebuf flood room : Bool} {sent : Option (FloodPacket size)}
    (h : NodeOk log v c) (hp : p.Sound) (hnew : .forwarded v p.originator p.no ∉ log)
    (hforwards : c.Forwards p queuebuf flood)
    (hrecv : c.recvFromIpolite p queuebuf flood room = (c', sent)) :
    NodeOk (log ++ receiveReports v c p queuebuf flood sent) v c' ∧ ∀ q ∈ sent, q.Sound := by
  obtain ⟨ipolite, hsend, rfl⟩ := NetfloodConn.recvFromIpolite_forwards hforwards hrecv
  have hsound : FloodPacket.Sound { p with hops := p.hops + 1 } := ⟨hp.seqno, hp.originator⟩
  have hseqno : p.originatorSeqno.toUInt8 = UInt8.ofNat p.no := by
    rw [hp.seqno]
    exact UInt8.toUInt8_toUInt16 _
  have hheard : Heard (log ++ receiveReports v c p queuebuf flood sent) v p.originator p.no :=
    .inl (List.mem_append_right _ List.mem_cons_self)
  have hfirst := List.count_eq_zero.mpr hnew
  have hcounts := fun o no => @count_receiveReports _ v _ _ _ _ sent hforwards o no
  have honce : ∀ o no, (log ++ receiveReports v c p queuebuf flood sent).count (.forwarded v o no) ≤ 1 := by
    intro o no
    rw [List.count_append, (hcounts o no).1]
    by_cases hsame : p.originator = o ∧ p.no = no
    · obtain ⟨rfl, rfl⟩ := hsame
      rw [hfirst, if_pos ⟨rfl, rfl⟩]
    · rw [if_neg hsame]
      exact h.once o no
  -- what is added to the broadcasts and to what is kept is the flood that is added to the decisions
  have htally : ∀ o no, ((if ∃ q ∈ sent, q.originator = o ∧ q.no = no then 1 else 0) +
      if ∃ q ∈ ipolite.q, q.originator = o ∧ q.no = no then 1 else 0) ≤
        if p.originator = o ∧ p.no = no then 1 else 0 := by
    intro o no
    rcases IpoliteConn.ipoliteSend_eq hsend with ⟨hzero, rfl, hq, -⟩ | ⟨-, rfl, hq | hq, -⟩
    · rw [hq, h.atOnce hzero]
      simp
    · rw [hq]
      simp
    · rw [hq]
      simp
  refine ⟨⟨hseqno, .inr hheard, ?_, ?_, ?_, fun o no => ?_, honce⟩, ?_⟩
  · rcases IpoliteConn.ipoliteSend_eq hsend with ⟨-, -, hq, -⟩ | ⟨-, -, hq | hq, -⟩
    · exact hq ▸ h.kept
    · rintro q hmem
      rw [hq] at hmem
      exact Option.mem_some.mp hmem ▸ hsound
    · rintro q hmem
      rw [hq] at hmem
      cases hmem
  · rcases IpoliteConn.ipoliteSend_eq hsend with ⟨hzero, -, -, hfreed⟩ | ⟨-, -, -, hfreed⟩
    · rw [hfreed, h.atOnce hzero]
      rfl
    · exact hfreed
  · intro hzero
    rcases IpoliteConn.ipoliteSend_eq hsend with ⟨-, -, hq, -⟩ | ⟨hne, -⟩
    · exact hq.trans (h.atOnce hzero)
    · exact absurd hzero hne
  · have hold := h.tally o no
    have hadd := htally o no
    rw [List.count_append, List.count_append, (hcounts o no).1, (hcounts o no).2]
    show _ + _ + (if ∃ q ∈ ipolite.q, q.originator = o ∧ q.no = no then 1 else 0) ≤ _
    omega
  · rcases IpoliteConn.ipoliteSend_eq hsend with ⟨-, rfl, -⟩ | ⟨-, rfl, -⟩
    · intro q hq
      exact Option.mem_some.mp hq ▸ hsound
    · intro q hq
      cases hq

/-! ## Steps -/

/-- A copy that is not sent on reaches the node, and may be passed to the user. -/
lemma receiveReports_quiet {queuebuf flood : Bool} {r : FloodReport size}
    (hforwards : ¬c.Forwards p queuebuf flood) (hr : r ∈ receiveReports v c p queuebuf flood none) :
    r = .reached v p.originator p.no ∨ r = .received v p.originator p.no := by
  unfold receiveReports at hr
  rw [if_neg hforwards] at hr
  rcases List.mem_cons.mp hr with rfl | hr
  · exact .inl rfl
  · split_ifs at hr
    · exact .inr (List.mem_singleton.mp hr)
    · cases hr

/-- A copy reaches a node. -/
lemma NodeOk.receive {i : ℕ} {queuebuf flood room : Bool} {ipolite : IpoliteConn (FloodPacket size)}
    {sent : Option (FloodPacket size)} (h : s.FloodOk) (hi : s.air[i]? = some p)
    (hok : Remembered s (.receive v i queuebuf flood room))
    (hrecv : (s.node v).c.recv FloodPacket.data p = .ok ipolite)
    (hflood : ({ s.node v with c := ipolite } : NetfloodConn size).recvFromIpolite p queuebuf flood room =
      (c', sent)) :
    NodeOk (s.log ++ receiveReports v { s.node v with c := ipolite } p queuebuf flood sent) v c' ∧
      ∀ q ∈ sent, q.Sound := by
  have hp := h.air p (List.mem_of_getElem? hi)
  obtain ⟨hround, hagain⟩ := hok p hi
  obtain ⟨hq, hfreed⟩ := IpoliteConn.recv_eq hrecv
  have hnode := (h.node v).dropped hq hfreed
  by_cases hforwards : ({ s.node v with c := ipolite } : NetfloodConn size).Forwards p queuebuf flood
  · refine hnode.forwards hp (fun hmem => ?_) hforwards hflood
    obtain ⟨horiginator, hle⟩ := hagain hmem
    have haccepts := (NetfloodConn.accepts_iff hp hnode.seqno horiginator (hround horiginator)).mp hforwards.1
    exact absurd haccepts (Nat.not_lt.mpr hle)
  · have heq : ({ s.node v with c := ipolite } : NetfloodConn size).recvFromIpolite p queuebuf flood room =
        ({ s.node v with c := ipolite }, none) := if_neg hforwards
    rw [heq] at hflood
    cases hflood
    refine ⟨hnode.quiet (fun o no hmem => ?_) (fun o no hmem => ?_), nofun⟩
    · rcases receiveReports_quiet hforwards hmem with heq | heq <;> cases heq
    · rcases receiveReports_quiet hforwards hmem with heq | heq <;> cases heq

/-- A copy of a new flood is passed to the user. -/
lemma accepts_of_new (h : s.FloodOk) (hp : p.Sound)
    (hround : (s.node v).lastOriginator = p.originator → p.no / 256 = (s.node v).lastNo / 256)
    (hnew : ∀ no', Heard s.log v p.originator no' → no' < p.no) : (s.node v).Accepts p := by
  by_cases horiginator : (s.node v).lastOriginator = p.originator
  · rw [NetfloodConn.accepts_iff hp (h.node v).seqno horiginator (hround horiginator)]
    rcases (h.node v).heard with hnull | hheard
    · exact absurd (horiginator.symm.trans hnull) hp.originator
    · exact hnew _ (horiginator ▸ hheard)
  · exact fun hold => horiginator hold.1.symm

/-- The reports about a copy that reaches a node are about this node, and only the first says that it
reached it. -/
lemma receiveReports_rest {queuebuf flood : Bool} {sent : Option (FloodPacket size)} {r : FloodReport size}
    (hr : r ∈ (if c.Accepts p then [FloodReport.received v p.originator p.no] else []) ++
      ((if c.Forwards p queuebuf flood then [.forwarded v p.originator p.no] else []) ++
        rebroadcasts v sent)) : reportNode r = v ∧ ∀ w o no, r ≠ .reached w o no := by
  rcases List.mem_append.mp hr with hr | hr
  · split_ifs at hr
    · rw [List.mem_singleton.mp hr]
      exact ⟨rfl, nofun⟩
    · cases hr
  rcases List.mem_append.mp hr with hr | hr
  · split_ifs at hr
    · rw [List.mem_singleton.mp hr]
      exact ⟨rfl, nofun⟩
    · cases hr
  · obtain ⟨q, -, rfl⟩ := List.mem_map.mp hr
    exact ⟨rfl, nofun⟩

/-- A copy of a new flood is passed to the user right after it reached the node. -/
lemma passesNew_receiveReports {queuebuf flood : Bool} {sent : Option (FloodPacket size)}
    (hnew : (∀ no', Heard log v p.originator no' → no' < p.no) → c.Accepts p)
    {pre : List (FloodReport size)} {r : FloodReport size} {post : List (FloodReport size)}
    (hblock : receiveReports v c p queuebuf flood sent = pre ++ r :: post) :
    PassesNew (log ++ pre) post.head? r := by
  cases pre with
  | nil =>
      obtain ⟨rfl, rfl⟩ := List.cons.inj hblock
      rw [List.append_nil]
      intro hlt
      rw [if_pos (hnew hlt)]
      rfl
  | cons a pre =>
      have htail := (List.cons.inj hblock).2
      have hrest := (receiveReports_rest
        (htail.symm.subst (List.mem_append_right _ List.mem_cons_self : r ∈ pre ++ r :: post))).2
      cases r with
      | reached w o no => exact absurd rfl (hrest w o no)
      | _ => trivial

/-- The timer sends on what is kept. -/
lemma NodeOk.timer {ipolite : IpoliteConn (FloodPacket size)} {sent : Option (FloodPacket size)}
    (h : NodeOk log v c) (hsend : ({ c.c with t := false } : IpoliteConn _).send = .ok (ipolite, sent)) :
    NodeOk (log ++ rebroadcasts v sent) v { c with c := ipolite } ∧ ∀ q ∈ sent, q.Sound := by
  obtain ⟨rfl, hq, hfreed⟩ := IpoliteConn.send_eq hsend
  have hcountF : ∀ o no, (log ++ rebroadcasts v c.c.q).count (.forwarded v o no) =
      log.count (.forwarded v o no) := by
    intro o no
    rw [List.count_append, List.count_eq_zero.mpr (forwarded_not_mem_rebroadcasts _ o no), Nat.add_zero]
  refine ⟨⟨h.seqno, h.heard.imp_right fun hh => hh.append _, fun q hmem => ?_, hfreed.trans h.freed,
    fun _ => hq, fun o no => ?_, fun o no => ?_⟩, h.kept⟩
  · rw [hq] at hmem
    cases hmem
  · have hold := h.tally o no
    unfold NetfloodConn.keptCount at hold
    rw [hcountF, List.count_append, count_rebroadcasts, keptCount_none hq]
    exact hold
  · rw [hcountF]
    exact h.once o no

/-- A node starts a flood while it keeps none. -/
lemma NodeOk.netfloodSend {no : ℕ} {payload : List UInt8} (h : NodeOk log v c) (hv : v ≠ .null size)
    (hq : c.c.q = none) :
    NodeOk (log ++ [.originated v no]) v (c.netfloodSend v no payload).1 ∧
      ∀ q ∈ (c.netfloodSend v no payload).2, q.Sound := by
  have hquiet : NodeOk (log ++ [.originated v no]) v c :=
    h.quiet (fun _ _ hmem => by simp at hmem) fun _ _ hmem => by simp at hmem
  have hfreed : (c.c.q.isSome : Bool) = false := by
    rw [hq]
    rfl
  refine ⟨⟨rfl, .inr (.inr ⟨rfl, List.mem_append_right _ List.mem_cons_self⟩), h.kept, hfreed, fun _ => hq,
    hquiet.tally, hquiet.once⟩, ?_⟩
  intro q hmem
  cases Option.mem_some.mp hmem
  exact ⟨rfl, hv⟩

lemma FloodOk.step {e : FloodEvent size} (h : s.FloodOk) (hok : Remembered s e)
    (hstep : s.step e = .ok s') : s'.FloodOk := by
  cases e with
  | netfloodSend v hdralloc payload =>
      cases hdralloc with
      | true =>
          obtain ⟨hv, hq⟩ := hok rfl
          obtain ⟨hnode, hsound⟩ := @NodeOk.netfloodSend _ _ _ _ (s.next v) payload (h.node v) hv hq
          cases hstep
          refine h.update hsound (fun r hr => ?_) hnode fun pre r post hblock => ?_
          · rw [List.mem_singleton.mp hr]
            rfl
          · have hmem : r ∈ pre ++ r :: post := List.mem_append_right _ List.mem_cons_self
            rw [← hblock] at hmem
            rw [List.mem_singleton.mp hmem]
            trivial
      | false =>
          cases hstep
          exact ⟨h.air, h.node, h.passed⟩
  | receive v i queuebuf flood room =>
      unfold FloodNet.step at hstep
      cases hi : s.air[i]? with
      | none =>
          simp only [hi] at hstep
          cases hstep
      | some p =>
          cases hrecv : (s.node v).c.recv FloodPacket.data p with
          | error f =>
              simp only [hi, hrecv] at hstep
              cases hstep
          | ok ipolite =>
              simp only [hi, hrecv] at hstep
              cases hstep
              obtain ⟨hnode, hsound⟩ := NodeOk.receive h hi hok hrecv rfl
              refine h.update hsound (fun r hr => ?_) hnode fun pre r post hblock => ?_
              · rcases List.mem_cons.mp hr with rfl | hr
                · rfl
                · exact (receiveReports_rest hr).1
              · refine passesNew_receiveReports (fun hnew => ?_) hblock
                exact accepts_of_new h (h.air p (List.mem_of_getElem? hi)) (hok p hi).1 hnew
  | timer v =>
      unfold FloodNet.step at hstep
      simp only at hstep
      by_cases ht : (s.node v).c.t = true
      · cases hsend : ({ (s.node v).c with t := false } : IpoliteConn _).send with
        | error f =>
            simp only [if_pos ht, hsend] at hstep
            cases hstep
        | ok r =>
            obtain ⟨ipolite, sent⟩ := r
            simp only [if_pos ht, hsend] at hstep
            cases hstep
            obtain ⟨hnode, hsound⟩ := (h.node v).timer hsend
            refine h.update hsound (fun r hr => ?_) hnode fun pre r post hblock => ?_
            · obtain ⟨q, -, rfl⟩ := List.mem_map.mp hr
              rfl
            · have hmem : r ∈ pre ++ r :: post := List.mem_append_right _ List.mem_cons_self
              rw [← hblock] at hmem
              obtain ⟨q, -, rfl⟩ := List.mem_map.mp hmem
              trivial
      · rw [if_neg ht] at hstep
        cases hstep

/-! ## Runs -/

/-- The networks in the runs whose events all meet `ok`. -/
def Reached (ok : FloodNet size → FloodEvent size → Prop) : FloodNet size → Prop :=
  Reaches FloodNet.step ok Opened

lemma Opened.floodOk (h : s.Opened) : s.FloodOk := by
  obtain ⟨hnode, hair, hlog⟩ := h
  refine ⟨fun p hp => ?_, fun v => ?_, hlog ▸ .nil⟩
  · rw [hair] at hp
    cases hp
  · obtain ⟨queueTime, hv⟩ := hnode v
    rw [hv, hlog]
    refine ⟨rfl, .inl rfl, nofun, rfl, fun _ => rfl, fun o no => ?_, fun _ _ => zero_le_one⟩
    rw [keptCount_none rfl]
    exact le_rfl

lemma Reached.floodOk (h : Reached Remembered s) : s.FloodOk :=
  Reaches.invariant (fun _ h => h.floodOk) (fun _ _ _ hs hok hstep => hs.step hok hstep) h

/-- **Each node sends a flood on at most once and passes new floods to the user**, in every run in
which one flood is enough to remember. -/
theorem floods_well (h : Reached Remembered s) : FloodsWell s.log := by
  have hok := h.floodOk
  refine ⟨fun v o no => ?_, hok.passed⟩
  have htally := (hok.node v).tally o no
  have honce := (hok.node v).once o no
  omega

/-! ## Floods of two originators -/

/-- Networks in which every flood is kept before it is sent on. -/
def startNet : FloodNet 2 :=
  { node := fun _ => .opened 2 10, next := fun _ => 0, air := [], log := [] }

lemma startNet_opened : startNet.Opened := ⟨fun _ => ⟨10, rfl⟩, rfl, rfl⟩

/-- Node 1 has started a flood. -/
def firstNet : FloodNet 2 :=
  { startNet.update (.short 1) ((startNet.node (.short 1)).netfloodSend (.short 1) 0 []).1
      (some ⟨0, .short 1, 0, [], 0⟩) with
    next := Function.update startNet.next (.short 1) 1
    log := [.originated (.short 1) 0] }

/-- Node 3 has got it. -/
def gotNet : FloodNet 2 :=
  { firstNet.update (.short 3)
      ((firstNet.node (.short 3)).recvFromIpolite ⟨0, .short 1, 0, [], 0⟩ true true true).1 none with
    log := firstNet.log ++ [.reached (.short 3) (.short 1) 0, .received (.short 3) (.short 1) 0,
      .forwarded (.short 3) (.short 1) 0] }

/-- Node 3 gets the packet and sends it on. -/
def getAndSend (i : ℕ) : List (FloodEvent 2) :=
  [.receive (.short 3) i true true true, .timer (.short 3)]

/-- Nodes 1 and 2 start a flood each; node 3 gets the first, the second, and the first again. -/
def interleaved : List (FloodEvent 2) :=
  [.netfloodSend (.short 1) true [], .netfloodSend (.short 2) true []] ++ getAndSend 0 ++ getAndSend 1 ++
    getAndSend 0

/-- Node 3 gets a flood and sends it on. -/
theorem floods_well_single :
    FloodsWell [.originated (.short 1) 0, .reached (.short 3) (.short 1) 0,
      .received (.short 3) (.short 1) 0, .forwarded (.short 3) (.short 1) 0,
      .rebroadcast (.short 3) (.short 1) 0] := by
  have hstart : Remembered startNet (.netfloodSend (.short 1) true []) := fun _ => ⟨by decide, rfl⟩
  have hget : Remembered firstNet (.receive (.short 3) 0 true true true) := by
    intro p hp
    cases hp
    exact ⟨fun _ => rfl, fun hmem => absurd hmem (by decide)⟩
  have hopened : Reached Remembered startNet := Reaches.initial startNet_opened
  have hfirst : Reached Remembered firstNet := hopened.tail hstart rfl
  have hgot : Reached Remembered gotNet := hfirst.tail hget rfl
  have hsent : Reached Remembered { gotNet.update (.short 3)
      { gotNet.node (.short 3) with c := ⟨none, false, 0, 1, 4, false⟩ } (some ⟨0, .short 1, 1, [], 0⟩) with
      log := gotNet.log ++ [.rebroadcast (.short 3) (.short 1) 0] } :=
    hgot.tail (show Remembered gotNet (.timer (.short 3)) from trivial) rfl
  exact floods_well hsent

/-- Node 3 sends the first flood on twice. -/
theorem floods_not_well : ¬∀ s : FloodNet 2, Reached anyEvent s → FloodsWell s.log := by
  intro h
  obtain ⟨s, hrun, hcount⟩ := exists_ok_of_map
    (x := runEvents FloodNet.step startNet interleaved)
    (f := fun s => s.log.count (.rebroadcast (.short 3) (.short 1) 0)) (b := 2) (by decide)
  have hreached : Reached anyEvent s :=
    (Reaches.initial startNet_opened).of_runEvents (fun _ _ _ => trivial) hrun
  have honce := (h s hreached).once (.short 3) (.short 1) 0
  omega

end FloodNet
end Rime
end Contiki

import Contiki.Net.TcpReceive

/-!
# Segments whose length does not count

The length of a segment, and the place of its data, matter to almost every segment of a connection.
`UipConn.LengthBlind` says to which they do not: these segments are not answered either.

* `LengthBlind.uipSegment` — the outcome is the same for every length.
* `lengthBlind_of_same` — for other segments, two lengths lead to different outcomes, or to an
  answer.
-/

namespace Contiki

namespace UipConn
variable {cfg : TcpConfig} {conn : UipConn} {hdr : TcpHdr} {calls : List AppCall}

/-- The segment resets the connection; or it is in its place, and is not looked at any further in
this state of the connection. -/
def LengthBlind (conn : UipConn) (hdr : TcpHdr) : Prop :=
  hdr.flags.rst = true ∨ conn.misplaced hdr 1 = false ∧
    match conn.state with
    | .synRcvd => conn.acknowledges hdr = false ∧ hdr.flags ≠ { syn := true }
    | .established => conn.acknowledges hdr = false ∧
        (conn.stopped = true ∨ hdr.flags.fin = true ∧ conn.len ≠ 0)
    | .lastAck | .closing | .closed => True
    | _ => False

lemma misplaced_of_pos {len : UInt16} (h : 0 < len) :
    conn.misplaced hdr len = conn.misplaced hdr 1 := by
  unfold misplaced
  rw [decide_eq_true (show len > 0 from h), decide_eq_true (show (1 : UInt16) > 0 by decide)]

/-- A segment that is in its place with data is in its place without. -/
lemma misplaced_eq_false (h : conn.misplaced hdr 1 = false) (len : UInt16) :
    conn.misplaced hdr len = false := by
  unfold misplaced at h ⊢
  rw [decide_eq_true (show (1 : UInt16) > 0 by decide), Bool.true_or, Bool.true_or,
    Bool.and_true] at h
  rcases Bool.and_eq_false_iff.mp h with h | h
  · rw [h, Bool.false_and, Bool.false_and]
  · rw [h, Bool.and_false]

/-- Whatever the length of the segment, the outcome is the same, and nothing is sent. -/
lemma LengthBlind.uipSegment (h : conn.LengthBlind hdr) :
    ∃ res : TcpResult, res.sent = none ∧
      ∀ appdata uipLen, conn.uipSegment cfg hdr appdata uipLen calls = some res := by
  by_cases hrst : hdr.flags.rst = true
  · refine ⟨_, ?_, fun appdata uipLen => by rw [UipConn.uipSegment, if_pos hrst]⟩
    rfl
  obtain ⟨hplace, hstate⟩ := h.resolve_left hrst
  have hplace' : ∀ len, ¬conn.misplaced hdr len = true := fun len =>
    ne_true_of_eq_false (misplaced_eq_false hplace len)
  have hseg : ∀ appdata uipLen, conn.uipSegment cfg hdr appdata uipLen calls =
      if conn.acknowledges hdr then
        conn.acknowledged.inState cfg hdr true appdata (dataLen hdr uipLen) calls
      else conn.inState cfg hdr false appdata (dataLen hdr uipLen) calls := by
    intro appdata uipLen
    rw [UipConn.uipSegment, if_neg hrst]
    dsimp only
    rw [if_neg (hplace' _)]
  cases hcase : conn.state
  all_goals rw [hcase] at hstate
  case synRcvd =>
    obtain ⟨hack, hflags⟩ := hstate
    refine ⟨{ conn }, rfl, fun appdata uipLen => ?_⟩
    rw [hseg, hack, if_neg (by decide), inState, hcase]
    dsimp only
    rw [inSynRcvd, if_neg (by decide), if_neg hflags]
  case established =>
    obtain ⟨hack, hstopped⟩ := hstate
    by_cases hfin : hdr.flags.fin = true ∧ ¬conn.stopped = true
    · have hlen : conn.len ≠ 0 := by
        rcases hstopped with hstopped | ⟨-, hlen⟩
        · exact absurd hstopped hfin.2
        · exact hlen
      refine ⟨{ conn }, rfl, fun appdata uipLen => ?_⟩
      rw [hseg, hack, if_neg (by decide), inState, hcase]
      dsimp only
      rw [inEstablished, if_pos hfin, acceptFin, if_pos hlen]
    · have hstop : conn.stopped = true := by
        rcases hstopped with hstopped | ⟨hfin', -⟩
        · exact hstopped
        · by_contra hnot
          exact hfin ⟨hfin', hnot⟩
      refine ⟨{ conn := conn.adaptMss hdr }, rfl, fun appdata uipLen => ?_⟩
      rw [hseg, hack, if_neg (by decide), inState, hcase]
      dsimp only
      rw [inEstablished, if_neg hfin]
      dsimp only
      rw [acceptSegment, hstop, Bool.not_true, Bool.and_false, if_neg (by decide),
        if_neg (by decide)]
  case lastAck =>
    by_cases hack : conn.acknowledges hdr = true
    · refine ⟨conn.acknowledged.inLastAck cfg true calls, ?_, fun appdata uipLen => ?_⟩
      · rw [inLastAck, if_pos rfl]
      · rw [hseg, if_pos hack, inState, acknowledged_state, hcase]
    · refine ⟨conn.inLastAck cfg false calls, ?_, fun appdata uipLen => ?_⟩
      · rw [inLastAck, if_neg (by decide)]
      · rw [hseg, if_neg hack, inState, hcase]
  case closing =>
    by_cases hack : conn.acknowledges hdr = true
    · refine ⟨conn.acknowledged.inClosing true, rfl, fun appdata uipLen => ?_⟩
      rw [hseg, if_pos hack, inState, acknowledged_state, hcase]
    · refine ⟨conn.inClosing false, rfl, fun appdata uipLen => ?_⟩
      rw [hseg, if_neg hack, inState, hcase]
  case closed =>
    by_cases hack : conn.acknowledges hdr = true
    · refine ⟨{ conn := conn.acknowledged }, rfl, fun appdata uipLen => ?_⟩
      rw [hseg, if_pos hack, inState, acknowledged_state, hcase]
    · refine ⟨{ conn }, rfl, fun appdata uipLen => ?_⟩
      rw [hseg, if_neg hack, inState, hcase]
  all_goals exact hstate.elim

/-! ## Segments whose length counts -/

/-- There is something to answer: new data, or a request to end the connection. -/
def Answers (flags : UipFlags) : Prop :=
  flags.newdata = true ∨ flags.close = true ∨ flags.abort = true

lemma appcall_answers (calls : List AppCall) {c : AppCtx} (h : Answers c.flags) :
    Answers (appcall cfg calls c).flags := by
  induction calls generalizing c with
  | nil => exact h
  | cons call calls ih =>
    refine ih ?_
    cases call with
    | send len =>
      rw [appCall]
      split_ifs <;> exact h
    | close => exact .inr (.inl rfl)
    | abort => exact .inr (.inr rfl)
    | stop => exact h
    | restart => exact .inl rfl

/-- New data is acknowledged, at least. -/
lemma callAndSend_answers (conn : UipConn) (calls : List AppCall) {flags : UipFlags} (slen : UInt16)
    (data : List UInt8) (h : flags.newdata = true) :
    (conn.callAndSend cfg calls flags slen data).sent ≠ none := by
  have hanswers : Answers (appcall cfg calls ⟨conn, flags, slen⟩).flags :=
    appcall_answers calls (.inl h)
  show (appsend cfg _).2 ≠ none
  unfold appsend apprexmit
  dsimp only
  split_ifs with habort hclose hdata hnew
  · exact Option.some_ne_none _
  · exact Option.some_ne_none _
  · exact Option.some_ne_none _
  · exact Option.some_ne_none _
  · exfalso
    have hflags : ∀ c : AppCtx, (acceptData c).flags = c.flags := by
      intro c
      unfold acceptData
      dsimp only
      split_ifs <;> rfl
    rw [hflags] at hnew
    rcases hanswers with hnew' | hclose' | habort'
    · exact hnew hnew'
    · exact hclose hclose'
    · exact habort habort'

/-- Data of different lengths. -/
lemma dataAt_ne {appdata appdata' : ℕ → UInt8} {len len' : UInt16} (h : len' ≠ len) :
    dataAt appdata' len' ≠ dataAt appdata len := by
  intro heq
  have hlength := congrArg List.length heq
  rw [length_dataAt, length_dataAt] at hlength
  exact h (UInt16.toNat_inj.mp hlength)

/-- Two lengths move `rcv_nxt` to different places. -/
lemma addRcvNxt_ne {len len' : UInt16} (h : len' ≠ len) :
    conn.rcvNxt.uipAdd32 len' ≠ conn.rcvNxt.uipAdd32 len := by
  intro heq
  have hplace := congrArg SeqNo.toNat heq
  rw [SeqNo.uipAdd32_toNat, SeqNo.uipAdd32_toNat] at hplace
  have hlt := len.toNat_lt
  have hlt' := len'.toNat_lt
  apply h
  apply UInt16.toNat_inj.mp
  omega

/-- What two lengths of one segment have in common when they lead to the same, without an answer. -/
structure Same (res res' : TcpResult) : Prop where
  sent : res.sent = none
  sent' : res'.sent = none
  rcvNxt : res'.conn.rcvNxt = res.conn.rcvNxt
  event : res'.event = res.event

/-- Callbacks that get to see data of different lengths. -/
lemma not_same_callAndSend {c c' : UipConn} {flags flags' : UipFlags} {slen slen' : UInt16}
    {appdata appdata' : ℕ → UInt8} {len len' : UInt16} (hne : len' ≠ len) :
    ¬Same (c.callAndSend cfg calls flags slen (dataAt appdata len))
      (c'.callAndSend cfg calls flags' slen' (dataAt appdata' len')) := by
  intro h
  have hevent : some (AppEvent.mk flags' (dataAt appdata' len')) =
      some (AppEvent.mk flags (dataAt appdata len)) := h.event
  exact dataAt_ne hne (congrArg AppEvent.data (Option.some.inj hevent))

lemma inSynRcvd_same {acked : Bool} {appdata appdata' : ℕ → UInt8} {len len' : UInt16}
    (hne : len' ≠ len)
    (h : Same (conn.inSynRcvd cfg hdr acked (dataAt appdata len) len calls)
      (conn.inSynRcvd cfg hdr acked (dataAt appdata' len') len' calls)) :
    acked = false ∧ hdr.flags ≠ { syn := true } := by
  cases acked with
  | true =>
    exfalso
    unfold inSynRcvd at h
    rw [if_pos rfl, if_pos rfl] at h
    dsimp only at h
    split_ifs at h
    all_goals exact not_same_callAndSend hne h
  | false =>
    refine ⟨rfl, fun hflags => ?_⟩
    have hsent := h.sent
    rw [inSynRcvd, if_neg (by decide), if_pos hflags] at hsent
    cases hsent

lemma inSynSent_answers {acked : Bool} {optdata : ℕ → UInt8} {res : TcpResult}
    (h : conn.inSynSent cfg hdr acked optdata calls = some res) : res.sent ≠ none := by
  unfold inSynSent at h
  split_ifs at h
  · obtain ⟨conn', -, rfl⟩ := Option.map_eq_some_iff.mp h
    exact callAndSend_answers _ calls 0 [] rfl
  · cases h
    exact Option.some_ne_none _

lemma inEstablished_same {acked : Bool} {appdata appdata' : ℕ → UInt8} {len len' : UInt16}
    (hacked : acked = true → conn.len = 0) (hne : len' ≠ len)
    (h : Same (conn.inEstablished cfg hdr acked appdata len calls)
      (conn.inEstablished cfg hdr acked appdata' len' calls)) :
    acked = false ∧ (conn.stopped = true ∨ hdr.flags.fin = true ∧ conn.len ≠ 0) := by
  unfold inEstablished at h
  by_cases hfin : hdr.flags.fin = true ∧ ¬conn.stopped = true
  · rw [if_pos hfin, if_pos hfin] at h
    have hlen : conn.len ≠ 0 := by
      intro hzero
      have hsent := h.sent
      rw [acceptFin, if_neg (fun hne => hne hzero)] at hsent
      cases hsent
    refine ⟨eq_false_of_ne_true fun htrue => hlen (hacked htrue), .inr ⟨hfin.1, hlen⟩⟩
  · rw [if_neg hfin, if_neg hfin] at h
    dsimp only at h
    set urgent := if hdr.flags.urg = true then hdr.urgp else 0 with hurgent
    have hne' : len' - urgent ≠ len - urgent := fun heq => hne (by simpa using heq)
    have hdata : ∀ (a : ℕ → UInt8) (n : UInt16),
        ((List.range n.toNat).map fun i => a (urgent.toNat + i)) =
          dataAt (fun i => a (urgent.toNat + i)) n := fun _ _ => rfl
    rw [hdata, hdata] at h
    generalize len' - urgent = l' at hne' h
    generalize len - urgent = l at hne' h
    unfold acceptSegment at h
    dsimp only at h
    cases hstopped : conn.stopped with
    | true =>
      rw [hstopped, Bool.not_true, Bool.and_false, Bool.and_false, Bool.false_or] at h
      refine ⟨eq_false_of_ne_true fun htrue => ?_, .inl rfl⟩
      rw [if_pos htrue, if_pos htrue] at h
      exact not_same_callAndSend hne' h
    | false =>
      exfalso
      rw [hstopped, Bool.not_false, Bool.and_true, Bool.and_true] at h
      by_cases hcall : (decide (l > 0) || acked) = true
      · by_cases hcall' : (decide (l' > 0) || acked) = true
        · rw [if_pos hcall, if_pos hcall'] at h
          exact not_same_callAndSend hne' h
        · have hevent := h.event
          rw [if_pos hcall, if_neg hcall'] at hevent
          cases hevent
      · by_cases hcall' : (decide (l' > 0) || acked) = true
        · have hevent := h.event
          rw [if_neg hcall, if_pos hcall'] at hevent
          cases hevent
        · -- neither of the lengths is positive
          rw [Bool.or_eq_true, decide_eq_true_iff] at hcall hcall'
          have hzero : l = 0 := UInt16.le_zero_iff.mp (UInt16.not_lt.mp fun h => hcall (.inl h))
          have hzero' : l' = 0 := UInt16.le_zero_iff.mp (UInt16.not_lt.mp fun h => hcall' (.inl h))
          exact hne' (hzero'.trans hzero.symm)

/-- Where `rcv_nxt` is after the data of a segment, if it has any. -/
lemma received_rcvNxt (conn : UipConn) (len : UInt16) :
    (if len > 0 then conn.addRcvNxt len else conn).rcvNxt = conn.rcvNxt.uipAdd32 len := by
  split_ifs with hpos
  · rfl
  · have hzero : len = 0 := UInt16.le_zero_iff.mp (UInt16.not_lt.mp hpos)
    apply SeqNo.toNat_inj
    have hlt := conn.rcvNxt.toNat_lt
    rw [SeqNo.uipAdd32_toNat, hzero]
    show conn.rcvNxt.toNat = (conn.rcvNxt.toNat + 0) % 2 ^ 32
    omega

lemma not_same_inFinWait1 {acked : Bool} {len len' : UInt16} (hne : len' ≠ len) (hpos : 0 < len') :
    ¬Same (conn.inFinWait1 cfg hdr acked len calls) (conn.inFinWait1 cfg hdr acked len' calls) := by
  intro h
  unfold inFinWait1 at h
  dsimp only at h
  by_cases hfin : hdr.flags.fin = true
  · rw [if_pos hfin, if_pos hfin] at h
    have hsent := h.sent'
    split_ifs at hsent
    all_goals exact absurd hsent (Option.some_ne_none _)
  · rw [if_neg hfin, if_neg hfin] at h
    by_cases hacked : acked = true
    · rw [if_pos hacked, if_pos hacked] at h
      have hrcvNxt := h.rcvNxt
      dsimp only at hrcvNxt
      rw [received_rcvNxt, received_rcvNxt] at hrcvNxt
      exact addRcvNxt_ne hne hrcvNxt
    · have hsent := h.sent'
      rw [if_neg hacked, if_pos hpos] at hsent
      cases hsent

lemma not_same_inFinWait2 {len' : UInt16} (hpos : 0 < len') {res : TcpResult} :
    ¬Same res (conn.inFinWait2 cfg hdr len' calls) := by
  intro h
  have hsent := h.sent'
  unfold inFinWait2 at hsent
  dsimp only at hsent
  by_cases hfin : hdr.flags.fin = true
  · rw [if_pos hfin] at hsent
    exact absurd hsent (Option.some_ne_none _)
  · rw [if_neg hfin, if_pos hpos] at hsent
    cases hsent

/-- Two lengths lead to the same only in a state that does not look at them. -/
lemma inState_same {acked : Bool} {appdata appdata' : ℕ → UInt8} {len len' : UInt16}
    {res res' : TcpResult} (hacked : acked = true → conn.len = 0) (hne : len' ≠ len)
    (hpos : 0 < len') (hres : conn.inState cfg hdr acked appdata len calls = some res)
    (hres' : conn.inState cfg hdr acked appdata' len' calls = some res') (h : Same res res') :
    match conn.state with
    | .synRcvd => acked = false ∧ hdr.flags ≠ { syn := true }
    | .established => acked = false ∧
        (conn.stopped = true ∨ hdr.flags.fin = true ∧ conn.len ≠ 0)
    | .lastAck | .closing | .closed => True
    | _ => False := by
  unfold inState at hres hres'
  cases hstate : conn.state
  all_goals rw [hstate] at hres hres'
  case synRcvd =>
    cases hres
    cases hres'
    exact inSynRcvd_same hne h
  case synSent => exact inSynSent_answers hres' h.sent'
  case established =>
    cases hres
    cases hres'
    exact inEstablished_same hacked hne h
  case finWait1 =>
    cases hres
    cases hres'
    exact not_same_inFinWait1 hne hpos h
  case finWait2 =>
    cases hres'
    exact not_same_inFinWait2 hpos h
  case timeWait =>
    cases hres
    exact absurd h.sent (Option.some_ne_none _)
  all_goals trivial

/-- A segment that two lengths lead to the same for, without an answer, is one whose length does not
count. -/
lemma lengthBlind_of_same {appdata appdata' : ℕ → UInt8} {uipLen uipLen' : UInt16}
    {res res' : TcpResult} (hne : dataLen hdr uipLen' ≠ dataLen hdr uipLen)
    (hpos : 0 < dataLen hdr uipLen')
    (hres : conn.uipSegment cfg hdr appdata uipLen calls = some res)
    (hres' : conn.uipSegment cfg hdr appdata' uipLen' calls = some res') (h : Same res res') :
    conn.LengthBlind hdr := by
  by_cases hrst : hdr.flags.rst = true
  · exact .inl hrst
  rw [uipSegment, if_neg hrst] at hres hres'
  dsimp only at hres hres'
  by_cases hplace : conn.misplaced hdr 1 = true
  · rw [misplaced_of_pos hpos, if_pos hplace] at hres'
    cases hres'
    exact absurd h.sent' (Option.some_ne_none _)
  have hplace' := misplaced_eq_false (eq_false_of_ne_true hplace)
  rw [hplace', if_neg (by decide)] at hres hres'
  refine .inr ⟨eq_false_of_ne_true hplace, ?_⟩
  by_cases hack : conn.acknowledges hdr = true
  · rw [if_pos hack] at hres hres'
    have hsame := inState_same (fun _ => acknowledged_len conn) hne hpos hres hres' h
    rw [acknowledged_state] at hsame
    cases hstate : conn.state
    all_goals rw [hstate] at hsame
    case synRcvd => exact absurd hsame.1 (by decide)
    case established => exact absurd hsame.1 (by decide)
    all_goals exact hsame
  · rw [if_neg hack] at hres hres'
    have hsame := inState_same (fun h => absurd h (by decide)) hne hpos hres hres' h
    cases hstate : conn.state
    all_goals rw [hstate] at hsame
    case synRcvd => exact ⟨eq_false_of_ne_true hack, hsame.2⟩
    case established => exact ⟨eq_false_of_ne_true hack, hsame.2⟩
    all_goals exact hsame

end UipConn

end Contiki

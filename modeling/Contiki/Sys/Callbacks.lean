import Contiki.Lib.Run
import Contiki.Sys.Ctimer
import Contiki.Sys.EtimerList

/-!
# Callbacks are not early

The event of a callback timer is posted when its interval has elapsed, on a clock that may wrap.  What
is delivered later is on time as long as the timer is not started again before.

* `Ctimers.OnTime` — what is known of each callback timer.
* `Ctimers.callbacks_punctual` — no callback is early or spurious, in runs of orderly events.
-/

namespace Contiki

/-! ## The poll of the event timers -/

namespace Etimers
variable {w n numEvents : ℕ} {Proc : Type} {s s' : Etimers w n numEvents Proc} {e : TimerEvent n Proc}

/-- `s'` has the timers and the clock of `s`, and only events of expired timers were posted. -/
structure PostsExpired (s s' : Etimers w n numEvents Proc) : Prop where
  timer : s'.timer = s.timer
  clock : s'.clock = s.clock
  events : ∀ e ∈ s'.events, e ∈ s.events ∨ ∃ p t, e = .timer p t ∧ s.expired t = true

lemma PostsExpired.of_same (htimer : s'.timer = s.timer) (hclock : s'.clock = s.clock)
    (hevents : s'.events = s.events) : PostsExpired s s' :=
  ⟨htimer, hclock, fun _ he => .inl (hevents ▸ he)⟩

lemma PostsExpired.trans {s'' : Etimers w n numEvents Proc} (h : PostsExpired s s')
    (h' : PostsExpired s' s'') : PostsExpired s s'' := by
  refine ⟨h'.timer.trans h.timer, h'.clock.trans h.clock, fun e he => ?_⟩
  rcases h'.events e he with he | ⟨p, t, rfl, hexp⟩
  · exact h.events e he
  · refine .inr ⟨p, t, rfl, ?_⟩
    unfold expired at hexp ⊢
    rwa [h.timer, h.clock] at hexp

lemma pollPass_postsExpired {fuel : ℕ} {u p : Option (Fin n)} :
    PostsExpired s (pollPass fuel u p s).1 := by
  induction fuel generalizing s u p with
  | zero => exact .of_same rfl rfl rfl
  | succ fuel ih =>
    cases p with
    | none => exact .of_same rfl rfl rfl
    | some t =>
      rw [pollPass]
      by_cases hexp : s.expired t = true
      · rw [if_pos hexp, post]
        by_cases hfull : s.events.length = numEvents
        · have hrequest : PostsExpired s s.requestPoll := .of_same rfl rfl rfl
          rw [if_pos hfull]
          exact hrequest.trans ih
        · rw [if_neg hfull]
          have hevents : ∀ e ∈ s.events ++ [TimerEvent.timer (s.p t) t],
              e ∈ s.events ∨ ∃ p t, e = .timer p t ∧ s.expired t = true := by
            intro e he
            rcases List.mem_append.mp he with he | he
            · exact .inl he
            · exact .inr ⟨s.p t, t, List.mem_singleton.mp he, hexp⟩
          unfold unlinkExpired
          cases u <;> exact ⟨rfl, rfl, hevents⟩
      · rw [if_neg hexp]
        exact ih

lemma pollLoop_postsExpired {fuel : ℕ} : PostsExpired s (pollLoop fuel s) := by
  induction fuel generalizing s with
  | zero => exact .of_same rfl rfl rfl
  | succ fuel ih =>
    have hpass := @pollPass_postsExpired _ _ _ _ s n none s.timerlist
    rw [pollLoop]
    cases hcase : s.pollPass n none s.timerlist with
    | mk s' again =>
      rw [hcase] at hpass
      cases again with
      | true => exact hpass.trans ih
      | false => exact hpass

lemma poll_postsExpired (s : Etimers w n numEvents Proc) : PostsExpired s s.poll := by
  have hclear : PostsExpired s { s with needspoll := false } := .of_same rfl rfl rfl
  exact hclear.trans pollLoop_postsExpired

/-- The event timer a call is about. -/
def Call.target : Call w n Proc → Option (Fin n)
  | .set _ et _ => some et
  | .reset _ et => some et
  | .restart _ et => some et
  | .adjust et _ => some et
  | .stop et => some et
  | _ => none

/-- A call changes no timer but its own, and only events of expired timers are posted. -/
lemma step_frame [DecidableEq Proc] {call : Call w n Proc} (htick : call ≠ .tick)
    (hdeliver : call ≠ .deliver) :
    (s.step call).clock = s.clock ∧
      (∀ t, call.target ≠ some t → (s.step call).timer t = s.timer t) ∧
      ∀ p t, .timer p t ∈ (s.step call).events →
        .timer p t ∈ s.events ∨ s.expired t = true := by
  have hset : ∀ et x (current : Proc), ((s.setTimer et x).addTimer current et).clock = s.clock ∧
      (∀ t, some et ≠ some t → ((s.setTimer et x).addTimer current et).timer t = s.timer t) ∧
      ∀ p t, .timer p t ∈ ((s.setTimer et x).addTimer current et).events →
        .timer p t ∈ s.events ∨ s.expired t = true := by
    intro et x current
    obtain ⟨htimer, hclock, hevents⟩ := addTimer_same (s.setTimer et x) current et
    rw [htimer, hclock, hevents]
    refine ⟨rfl, fun t ht => ?_, fun _ _ => .inl⟩
    exact Function.update_of_ne (fun heq => ht (congrArg some heq.symm)) _ _
  cases call with
  | set current et interval => exact hset et _ current
  | reset current et => exact hset et _ current
  | restart current et => exact hset et _ current
  | adjust et timediff =>
    refine ⟨rfl, fun t ht => ?_, fun _ _ => .inl⟩
    exact Function.update_of_ne (fun heq => ht (congrArg some heq.symm)) _ _
  | stop et =>
    obtain ⟨htimer, hclock, hevents⟩ := stop_same s et
    exact ⟨hclock, fun t _ => congrFun htimer t, fun _ _ h => .inl (hevents ▸ h)⟩
  | exited p =>
    show (s.exited p).clock = _ ∧ (∀ t, _ → (s.exited p).timer t = _) ∧
      ∀ q t, _ ∈ (s.exited p).events → _
    unfold exited
    cases s.skipOwned p n s.timerlist <;> exact ⟨rfl, fun _ _ => rfl, fun _ _ => .inl⟩
  | tick => exact absurd rfl htick
  | poll =>
    obtain ⟨htimer, hclock, hevents⟩ := poll_postsExpired s
    refine ⟨hclock, fun t _ => congrFun htimer t, fun p t h => ?_⟩
    rcases hevents _ h with h | ⟨p', t', heq, hexp⟩
    · exact .inl h
    · cases heq
      exact .inr hexp
  | postOther =>
    show ((s.post .other).getD s).clock = _ ∧ (∀ t, _ → ((s.post .other).getD s).timer t = _) ∧
      ∀ q t, _ ∈ ((s.post .other).getD s).events → _
    unfold post
    split_ifs
    · exact ⟨rfl, fun _ _ => rfl, fun _ _ => .inl⟩
    · refine ⟨rfl, fun _ _ => rfl, fun p t h => ?_⟩
      rcases List.mem_append.mp h with h | h
      · exact .inl h
      · exact absurd (List.mem_singleton.mp h) nofun
  | deliver => exact absurd rfl hdeliver

end Etimers

/-! ## The history -/

namespace CtimerEntry
variable {n : ℕ}

/-- The timer an entry is about. -/
def timer : CtimerEntry n → Fin n
  | .started c _ _ => c
  | .reset c => c
  | .stopped c => c
  | .called c _ => c

/-- After the entry the timer is set. -/
def arms : CtimerEntry n → Bool
  | .started .. => true
  | .reset _ => true
  | .stopped _ => false
  | .called .. => false

/-- The time and interval at which the entry starts `c`. -/
def startOf (c : Fin n) : CtimerEntry n → Option (ℕ × ℕ)
  | .started c' time interval => if c' = c then some (time, interval) else none
  | _ => none

/-- The last entry about `c`. -/
def last (c : Fin n) (history : List (CtimerEntry n)) : Option (CtimerEntry n) :=
  history.find? (·.timer = c)

/-- When and with which interval `c` was last set or restarted. -/
def lastStart (c : Fin n) (history : List (CtimerEntry n)) : Option (ℕ × ℕ) :=
  history.findSome? (startOf c)

/-- Each call of `c` comes after `c` was set, with no call and no stop in between, and at least the
interval after it was last set or restarted. -/
def Punctual (history : List (CtimerEntry n)) : Prop :=
  ∀ later earlier c time, history = later ++ .called c time :: earlier →
    (∃ e, last c earlier = some e ∧ e.arms = true) ∧
      ∀ t i, lastStart c earlier = some (t, i) → t + i ≤ time

variable {history : List (CtimerEntry n)} {e : CtimerEntry n} {c : Fin n}

lemma last_cons_self (he : e.timer = c) : last c (e :: history) = some e :=
  List.find?_cons_of_pos (by simpa using he)

lemma last_cons_of_ne (he : e.timer ≠ c) : last c (e :: history) = last c history :=
  List.find?_cons_of_neg (by simpa using he)

lemma lastStart_cons_of_none (he : e.startOf c = none) :
    lastStart c (e :: history) = lastStart c history := by
  rw [lastStart, List.findSome?_cons, he]
  rfl

lemma startOf_of_ne (he : e.timer ≠ c) : e.startOf c = none := by
  cases e with
  | started c' time interval => exact if_neg he
  | _ => rfl

/-- An entry that is not a call keeps the history punctual. -/
lemma Punctual.cons (h : Punctual history) (he : ∀ c time, e ≠ .called c time) :
    Punctual (e :: history) := by
  intro later earlier c time heq
  cases later with
  | nil => exact absurd (List.cons.inj heq).1 (he c time)
  | cons e' later => exact h later earlier c time (List.cons.inj heq).2

/-- A call that is on time keeps the history punctual. -/
lemma Punctual.cons_called {time : ℕ} (h : Punctual history)
    (harms : ∃ e, last c history = some e ∧ e.arms = true)
    (hdue : ∀ t i, lastStart c history = some (t, i) → t + i ≤ time) :
    Punctual (.called c time :: history) := by
  intro later earlier c' time' heq
  cases later with
  | nil =>
    obtain ⟨hentry, rfl⟩ := List.cons.inj heq
    cases hentry
    exact ⟨harms, hdue⟩
  | cons e' later => exact h later earlier c' time' (List.cons.inj heq).2

end CtimerEntry

/-! ## What is known of each callback timer -/

namespace Ctimers
open CtimerEntry
variable {w n numEvents : ℕ} {Proc : Type} {s s' : Ctimers w n numEvents Proc} {c : Fin n}
  {ctimerProcess : Proc}

/-- An event of the timer is in the queue. -/
def Queued (s : Ctimers w n numEvents Proc) (c : Fin n) : Prop :=
  ∃ p, .timer p c ∈ s.etimers.events

/-- The timer was last set or restarted at the time `t` with the interval `i`, its start has not moved
back since, and the interval has elapsed when its event is in the queue. -/
def Started (s : Ctimers w n numEvents Proc) (c : Fin n) (t i : ℕ) : Prop :=
  ∃ start, t ≤ start ∧ start ≤ s.time ∧ (s.etimers.timer c).start = BitVec.ofNat w start ∧
    (s.etimers.timer c).interval.toNat = i ∧ (s.Queued c → start + i ≤ s.time)

/-- The timers on the list are set, and the history is punctual so far. -/
structure OnTime (s : Ctimers w n numEvents Proc) : Prop where
  clock : s.etimers.clock = BitVec.ofNat w s.time
  nodup : s.ctimerList.Nodup
  listed : ∀ c ∈ s.ctimerList, s.isCtimer c = true ∧
    ∃ e, last c s.history = some e ∧ e.arms = true
  started : ∀ c, s.isCtimer c = true → ∀ t i, lastStart c s.history = some (t, i) → s.Started c t i
  punctual : Punctual s.history

/-- An expired timer started at least its interval ago. -/
lemma le_of_expired {x : Timer w} {time start : ℕ} (hle : start ≤ time)
    (hstart : x.start = BitVec.ofNat w start) (h : x.expired (BitVec.ofNat w time) = true) :
    start + x.interval.toNat ≤ time := by
  obtain ⟨d, rfl⟩ := Nat.exists_eq_add_of_le hle
  have hlt : x.interval < BitVec.ofNat w (start + d) - x.start + 1 := by
    simpa [Timer.expired] using h
  have hsub : BitVec.ofNat w (start + d) - x.start = BitVec.ofNat w d := by
    rw [hstart, BitVec.ofNat_add]
    exact add_sub_cancel_left _ _
  rw [hsub, BitVec.lt_def] at hlt
  have hd : (BitVec.ofNat w d + 1).toNat ≤ d + 1 := by
    show (BitVec.ofNat w d + BitVec.ofNat w 1).toNat ≤ d + 1
    rw [← BitVec.ofNat_add, BitVec.toNat_ofNat]
    exact Nat.mod_le _ _
  omega

/-- What happens to the event timers between the calls of the module. -/
lemma OnTime.frame (h : s.OnTime) (hhistory : s'.history = s.history)
    (hlist : s'.ctimerList = s.ctimerList) (hctimer : s'.isCtimer = s.isCtimer)
    (hclock : s'.etimers.clock = BitVec.ofNat w s'.time) (htime : s.time ≤ s'.time)
    (htimer : ∀ c, s.isCtimer c = true → s'.etimers.timer c = s.etimers.timer c)
    (hevents : ∀ p c, .timer p c ∈ s'.etimers.events → s.Queued c ∨ s.etimers.expired c = true) :
    s'.OnTime := by
  refine ⟨hclock, ?_, ?_, ?_, ?_⟩
  · rw [hlist]
    exact h.nodup
  · rw [hlist, hctimer, hhistory]
    exact h.listed
  · intro c hc t i hlast
    rw [hctimer] at hc
    rw [hhistory] at hlast
    obtain ⟨start, ht, hle, hstart, hinterval, hqueued⟩ := h.started c hc t i hlast
    refine ⟨start, ht, hle.trans htime, ?_, ?_, ?_⟩
    · rw [htimer c hc]
      exact hstart
    · rw [htimer c hc]
      exact hinterval
    · rintro ⟨p, hp⟩
      refine le_trans ?_ htime
      rcases hevents p c hp with hp | hexp
      · exact hqueued hp
      · unfold Etimers.expired at hexp
        rw [h.clock] at hexp
        have hdue := le_of_expired hle hstart hexp
        omega
  · rw [hhistory]
    exact h.punctual

/-! ## The steps -/

/-- A timer that is set, restarted or reset is moved to the end of the list. -/
lemma OnTime.arm (h : s.OnTime) (hc : s.isCtimer c = true) {e : CtimerEntry n} (hetimer : e.timer = c)
    (harms : e.arms = true) (hnot : ¬s.Queued c) (hhistory : s'.history = e :: s.history)
    (hlist : s'.ctimerList = s.ctimerList.erase c ++ [c]) (hctimer : s'.isCtimer = s.isCtimer)
    (htime : s'.time = s.time) (hclock : s'.etimers.clock = s.etimers.clock)
    (hevents : s'.etimers.events = s.etimers.events)
    (htimer : ∀ c', c' ≠ c → s'.etimers.timer c' = s.etimers.timer c')
    (hstart : ∀ t i, lastStart c (e :: s.history) = some (t, i) →
      ∃ start, t ≤ start ∧ start ≤ s.time ∧ (s'.etimers.timer c).start = BitVec.ofNat w start ∧
        (s'.etimers.timer c).interval.toNat = i) :
    s'.OnTime := by
  have hqueued : ∀ c', s'.Queued c' ↔ s.Queued c' := by
    intro c'
    unfold Queued
    rw [hevents]
  refine ⟨?_, ?_, ?_, ?_, ?_⟩
  · rw [hclock, htime]
    exact h.clock
  · rw [hlist, List.nodup_append]
    refine ⟨h.nodup.erase c, List.nodup_singleton c, fun x hx y hy => ?_⟩
    rw [List.mem_singleton.mp hy]
    exact (h.nodup.mem_erase_iff.mp hx).1
  · intro x hx
    rw [hctimer, hhistory]
    by_cases hxc : x = c
    · rw [hxc]
      exact ⟨hc, e, last_cons_self hetimer, harms⟩
    · have hmem : x ∈ s.ctimerList.erase c := by
        rw [hlist] at hx
        exact (List.mem_append.mp hx).resolve_right fun hx => hxc (List.mem_singleton.mp hx)
      rw [last_cons_of_ne fun heq => hxc (heq.symm.trans hetimer)]
      exact h.listed x (List.mem_of_mem_erase hmem)
  · intro x hx t i hlast
    rw [hctimer] at hx
    rw [hhistory] at hlast
    by_cases hxc : x = c
    · subst hxc
      obtain ⟨start, ht, hle, hstart, hinterval⟩ := hstart t i hlast
      refine ⟨start, ht, hle.trans_eq htime.symm, hstart, hinterval, fun hq => ?_⟩
      exact absurd ((hqueued x).mp hq) hnot
    · have hne : e.timer ≠ x := fun heq => hxc (heq.symm.trans hetimer)
      rw [lastStart_cons_of_none (startOf_of_ne hne)] at hlast
      obtain ⟨start, ht, hle, hstart, hinterval, hq⟩ := h.started x hx t i hlast
      refine ⟨start, ht, hle.trans_eq htime.symm, ?_, ?_, ?_⟩
      · rw [htimer x hxc]
        exact hstart
      · rw [htimer x hxc]
        exact hinterval
      · rw [htime]
        exact fun hq' => hq ((hqueued x).mp hq')
  · rw [hhistory]
    refine h.punctual.cons fun c' time heq => ?_
    rw [heq] at harms
    exact absurd harms nofun

/-- The three calls that set a timer have changed the event timer `c` alone. -/
lemma addTimer_frame (s : Ctimers w n numEvents Proc) (c : Fin n) (x : Timer w) :
    ((s.etimers.setTimer c x).addTimer ctimerProcess c).clock = s.etimers.clock ∧
      ((s.etimers.setTimer c x).addTimer ctimerProcess c).events = s.etimers.events ∧
      (∀ c', c' ≠ c →
        ((s.etimers.setTimer c x).addTimer ctimerProcess c).timer c' = s.etimers.timer c') ∧
      ((s.etimers.setTimer c x).addTimer ctimerProcess c).timer c = x := by
  obtain ⟨htimer, hclock, hevents⟩ :=
    Etimers.addTimer_same (s.etimers.setTimer c x) ctimerProcess c
  rw [htimer, hclock, hevents]
  exact ⟨rfl, rfl, fun c' hc' => Function.update_of_ne hc' _ _, Function.update_self ..⟩

lemma OnTime.set (h : s.OnTime) (hc : s.isCtimer c = true) (hnot : ¬s.Queued c)
    (current : Option Proc) (t : BitVec w) (f : Option ℕ) (ptr : ℕ) :
    (s.set ctimerProcess current c t f ptr).OnTime := by
  obtain ⟨hclock, hevents, hother, hself⟩ := addTimer_frame s c
    (.set s.etimers.clock t)
  refine h.arm hc (e := .started c s.time t.toNat) rfl rfl hnot rfl rfl rfl rfl hclock hevents
    hother fun t' i hlast => ?_
  rw [lastStart, List.findSome?_cons, startOf, if_pos rfl] at hlast
  cases hlast
  refine ⟨s.time, le_refl _, le_refl _, ?_, ?_⟩
  · show (((s.etimers.setTimer c _).addTimer ctimerProcess c).timer c).start = _
    rw [hself]
    exact h.clock
  · show (((s.etimers.setTimer c _).addTimer ctimerProcess c).timer c).interval.toNat = _
    rw [hself]
    rfl

lemma OnTime.restart (h : s.OnTime) (hc : s.isCtimer c = true) (hnot : ¬s.Queued c) :
    (s.restart ctimerProcess c).OnTime := by
  obtain ⟨hclock, hevents, hother, hself⟩ := addTimer_frame s c
    ((s.etimers.timer c).restart s.etimers.clock)
  refine h.arm hc (e := .started c s.time (s.etimers.timer c).interval.toNat) rfl rfl hnot rfl rfl
    rfl rfl hclock hevents hother fun t' i hlast => ?_
  rw [lastStart, List.findSome?_cons, startOf, if_pos rfl] at hlast
  cases hlast
  refine ⟨s.time, le_refl _, le_refl _, ?_, ?_⟩
  · show (((s.etimers.setTimer c _).addTimer ctimerProcess c).timer c).start = _
    rw [hself]
    exact h.clock
  · show (((s.etimers.setTimer c _).addTimer ctimerProcess c).timer c).interval.toNat = _
    rw [hself]
    rfl

/-- A reset moves the start forward to the expiration, which has passed. -/
lemma OnTime.reset (h : s.OnTime) (hc : s.isCtimer c = true) (hnot : ¬s.Queued c)
    (hexp : s.etimers.expired c = true) : (s.reset ctimerProcess c).OnTime := by
  obtain ⟨hclock, hevents, hother, hself⟩ := addTimer_frame s c
    (s.etimers.timer c).reset
  refine h.arm hc (e := .reset c) rfl rfl hnot rfl rfl rfl rfl hclock hevents hother
    fun t i hlast => ?_
  rw [lastStart_cons_of_none rfl] at hlast
  obtain ⟨start, ht, hle, hstart, hinterval, -⟩ := h.started c hc t i hlast
  unfold Etimers.expired at hexp
  rw [h.clock] at hexp
  have hdue := le_of_expired hle hstart hexp
  refine ⟨start + i, by omega, by omega, ?_, ?_⟩
  · show (((s.etimers.setTimer c _).addTimer ctimerProcess c).timer c).start = _
    rw [hself]
    show (s.etimers.timer c).start + (s.etimers.timer c).interval = _
    rw [hstart, BitVec.ofNat_add, ← hinterval, BitVec.ofNat_toNat, BitVec.setWidth_eq]
  · show (((s.etimers.setTimer c _).addTimer ctimerProcess c).timer c).interval.toNat = _
    rw [hself]
    exact hinterval

/-- A timer leaves the list with an entry in the history that does not set it. -/
lemma OnTime.leave (h : s.OnTime) {e : CtimerEntry n} (hetimer : e.timer = c)
    (hnone : e.startOf c = none) (hpunctual : Punctual (e :: s.history))
    (hhistory : s'.history = e :: s.history) (hlist : s'.ctimerList = s.ctimerList.erase c)
    (hctimer : s'.isCtimer = s.isCtimer) (htime : s'.time = s.time)
    (hclock : s'.etimers.clock = s.etimers.clock) (htimer : s'.etimers.timer = s.etimers.timer)
    (hevents : ∀ x ∈ s'.etimers.events, x ∈ s.etimers.events) : s'.OnTime := by
  refine ⟨?_, ?_, ?_, ?_, hhistory ▸ hpunctual⟩
  · rw [hclock, htime]
    exact h.clock
  · rw [hlist]
    exact h.nodup.erase c
  · intro x hx
    rw [hlist, h.nodup.mem_erase_iff] at hx
    rw [hctimer, hhistory, last_cons_of_ne fun heq => hx.1 (heq.symm.trans hetimer)]
    exact h.listed x hx.2
  · intro x hx t i hlast
    have hnone' : e.startOf x = none := by
      by_cases hxc : x = c
      · rw [hxc]
        exact hnone
      · exact startOf_of_ne fun heq => hxc (heq.symm.trans hetimer)
    rw [hctimer] at hx
    rw [hhistory, lastStart_cons_of_none hnone'] at hlast
    obtain ⟨start, ht, hle, hstart, hinterval, hq⟩ := h.started x hx t i hlast
    refine ⟨start, ht, hle.trans_eq htime.symm, ?_, ?_, ?_⟩
    · rw [htimer]
      exact hstart
    · rw [htimer]
      exact hinterval
    · rintro ⟨p, hp⟩
      rw [htime]
      exact hq ⟨p, hevents _ hp⟩

lemma OnTime.stop (h : s.OnTime) (c : Fin n) : (s.stop c).OnTime := by
  obtain ⟨htimer, hclock, hevents⟩ := Etimers.stop_same s.etimers c
  refine h.leave (e := .stopped c) rfl rfl (h.punctual.cons nofun) rfl rfl rfl rfl hclock htimer ?_
  show ∀ x ∈ (s.etimers.stop c).events, _
  rw [hevents]
  exact fun _ => id

lemma OnTime.tick (h : s.OnTime) : s.tick.OnTime := by
  have hsame : s.etimers.tick.timer = s.etimers.timer ∧
      s.etimers.tick.clock = s.etimers.clock + 1 ∧ s.etimers.tick.events = s.etimers.events := by
    unfold Etimers.tick
    dsimp only
    split_ifs <;> exact ⟨rfl, rfl, rfl⟩
  obtain ⟨htimer, hclock, hevents⟩ := hsame
  refine h.frame rfl rfl rfl ?_ (Nat.le_succ _) (fun c _ => congrFun htimer c) fun p c hp => ?_
  · show s.etimers.tick.clock = BitVec.ofNat w (s.time + 1)
    rw [hclock, h.clock, BitVec.ofNat_add]
    rfl
  · have hmem : .timer p c ∈ s.etimers.tick.events := hp
    rw [hevents] at hmem
    exact .inl ⟨p, hmem⟩

/-- The event of a timer on the list is delivered when the interval has elapsed. -/
lemma OnTime.deliver [DecidableEq Proc] (h : s.OnTime) : (s.deliver ctimerProcess).OnTime := by
  have htail : ∀ x ∈ s.etimers.events.tail, x ∈ s.etimers.events := fun _ => List.mem_of_mem_tail
  have hframe : ({ s with etimers := s.etimers.step .deliver } :
      Ctimers w n numEvents Proc).OnTime :=
    h.frame rfl rfl rfl h.clock (le_refl _) (fun _ _ => rfl) fun p c hp => .inl ⟨p, htail _ hp⟩
  unfold Ctimers.deliver
  dsimp only
  cases hhead : s.etimers.events.head? with
  | none => exact hframe
  | some e =>
    cases e with
    | other => exact hframe
    | timer p et =>
      dsimp only
      by_cases hp : p = some ctimerProcess ∨ p = none
      · rw [if_pos hp, thread]
        by_cases hlist : et ∈ s.ctimerList
        · rw [if_pos hlist]
          dsimp only
          obtain ⟨hctimer, harms⟩ := h.listed et hlist
          have hqueued : s.Queued et := ⟨p, List.mem_of_mem_head? hhead⟩
          have hdue : ∀ t i, lastStart et s.history = some (t, i) → t + i ≤ s.time := by
            intro t i hlast
            obtain ⟨start, ht, -, -, -, hq⟩ := h.started et hctimer t i hlast
            exact (Nat.add_le_add_right ht i).trans (hq hqueued)
          by_cases hf : (s.ctimer et).f ≠ none
          · rw [if_pos hf]
            exact h.leave (e := .called et s.time) rfl rfl (h.punctual.cons_called harms hdue) rfl rfl
              rfl rfl rfl rfl htail
          · rw [if_neg hf]
            refine ⟨h.clock, h.nodup.erase et, fun x hx => ?_, hframe.started, h.punctual⟩
            exact h.listed x (List.mem_of_mem_erase hx)
        · rw [if_neg hlist]
          exact hframe
      · rw [if_neg hp]
        exact hframe

/-! ## Runs -/

section runs
variable [DecidableEq Proc]

/-- At the start no callback timer is set, and the clock shows the time. -/
structure Initial (s : Ctimers w n numEvents Proc) : Prop where
  clock : s.etimers.clock = BitVec.ofNat w s.time
  ctimerList : s.ctimerList = []
  history : s.history = []

/-- The calls of the module are made for callback timers, and other calls are not. -/
def Uses (s : Ctimers w n numEvents Proc) : Event w n Proc → Prop
  | .set _ c _ _ _ => s.isCtimer c = true
  | .reset c => s.isCtimer c = true
  | .restart c => s.isCtimer c = true
  | .stop c => s.isCtimer c = true
  | .etimer call => call ≠ .tick ∧ call ≠ .deliver ∧
      ∀ c, s.isCtimer c = true → call.target ≠ some c
  | _ => True

/-- A timer is not set again while an event of it is in the queue, and is reset only when it has
expired. -/
def Orderly (s : Ctimers w n numEvents Proc) (e : Event w n Proc) : Prop :=
  s.Uses e ∧
    match e with
    | .set _ c _ _ _ => ¬s.Queued c
    | .restart c => ¬s.Queued c
    | .reset c => ¬s.Queued c ∧ s.etimers.expired c = true
    | _ => True

/-- A step cannot fail. -/
def okStep (ctimerProcess : Proc) (s : Ctimers w n numEvents Proc) (e : Event w n Proc) :
    Except Empty (Ctimers w n numEvents Proc) :=
  .ok (s.step ctimerProcess e)

omit [DecidableEq Proc] in
lemma Initial.onTime (h : s.Initial) : s.OnTime := by
  refine ⟨h.clock, ?_, ?_, ?_, ?_⟩
  · rw [h.ctimerList]
    exact List.nodup_nil
  · rw [h.ctimerList]
    exact nofun
  · rw [h.history]
    exact fun _ _ _ _ => nofun
  · rw [h.history]
    intro later earlier c time heq
    exact absurd heq.symm (List.append_ne_nil_of_right_ne_nil _ nofun)

lemma OnTime.step (h : s.OnTime) {e : Event w n Proc} (hok : s.Orderly e) :
    (s.step ctimerProcess e).OnTime := by
  obtain ⟨huses, hok⟩ := hok
  cases e with
  | set current c t f ptr => exact h.set huses hok current t f ptr
  | reset c => exact h.reset huses hok.1 hok.2
  | restart c => exact h.restart huses hok
  | stop c => exact h.stop c
  | tick => exact h.tick
  | deliver => exact h.deliver
  | etimer call =>
    obtain ⟨htick, hdeliver, htarget⟩ := huses
    obtain ⟨hclock, htimer, hevents⟩ := Etimers.step_frame (s := s.etimers) htick hdeliver
    refine h.frame rfl rfl rfl (hclock.trans h.clock) (le_refl _)
      (fun c hc => htimer c (htarget c hc)) fun p c hp => ?_
    exact (hevents p c hp).imp_left fun hp => ⟨p, hp⟩

/-- **No callback is early or spurious**, in every run of orderly calls and events. -/
theorem callbacks_punctual (s : Ctimers w n numEvents Proc)
    (h : Reaches (okStep ctimerProcess) Orderly Initial s) : Punctual s.history := by
  have hontime : s.OnTime := by
    refine h.invariant (I := OnTime) (fun _ h => h.onTime) fun s e s' h hok hs' => ?_
    cases hs'
    exact h.step hok
  exact hontime.punctual

/-- One callback timer, not set yet, on a clock of 16 bits. -/
def unset : Ctimers 16 1 4 Unit where
  etimers := ⟨0, fun _ => ⟨0, 0⟩, fun _ => none, fun _ => none, none, 0, false, []⟩
  isCtimer _ := true
  ctimer _ := ⟨none, none, 0⟩
  ctimerList := []
  time := 0
  history := []

lemma unset_initial : unset.Initial := ⟨rfl, rfl, rfl⟩

/-- The timer is set for one tick, and its event is in the queue after it. -/
def afterTick : Ctimers 16 1 4 Unit :=
  ((unset.step () (.set none 0 1 (some 0) 0)).step () .tick).step () (.etimer .poll)

lemma reaches_afterTick : Reaches (okStep ()) Orderly Initial afterTick :=
  (((Reaches.initial unset_initial).tail (e := .set none 0 1 (some 0) 0)
    ⟨rfl, fun ⟨_, h⟩ => absurd h List.not_mem_nil⟩ rfl).tail (e := .tick) ⟨trivial, trivial⟩ rfl).tail
      (e := .etimer .poll) ⟨⟨nofun, nofun, fun _ _ => nofun⟩, trivial⟩ rfl

/-- The event is delivered, and the function is called. -/
theorem callbacks_punctual_once : ∃ s : Ctimers 16 1 4 Unit,
    s.history = [.called 0 1, .started 0 0 1] ∧ Punctual s.history := by
  have hruns : Reaches (okStep ()) Orderly Initial (afterTick.step () .deliver) :=
    reaches_afterTick.tail (e := .deliver) ⟨trivial, trivial⟩ rfl
  exact ⟨_, by decide, callbacks_punctual _ hruns⟩

/-- The timer is set again, for a hundred ticks, before the event is delivered: the function is called
at once. -/
theorem not_callbacks_punctual : ¬∀ s : Ctimers 16 1 4 Unit,
    Reaches (okStep ()) Uses Initial s → Punctual s.history := by
  intro h
  have hruns : Reaches (okStep ()) Uses Initial
      ((afterTick.step () (.set none 0 100 (some 0) 0)).step () .deliver) :=
    ((reaches_afterTick.mono fun _ _ h => h.1).tail (e := .set none 0 100 (some 0) 0) rfl rfl).tail
      (e := .deliver) trivial rfl
  have hdue := (h _ hruns [] [.started 0 1 100, .started 0 0 1] 0 1 (by decide)).2 1 100 (by decide)
  exact absurd hdue (by decide)

end runs
end Ctimers
end Contiki

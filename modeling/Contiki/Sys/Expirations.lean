import Contiki.Lib.Run
import Contiki.Sys.EtimerList

/-!
# Expirations of event timers

The clock interrupt polls the timer process once the next expiration time is reached, and the poll
posts an event for each timer that has expired.

* `Etimers.Polled` — what a poll makes of a state.
* `Etimers.none_missed` — in runs of calls and events in time, no expiration is missed and each is
  posted once.
-/

namespace Contiki
namespace Etimers
variable {w n numEvents : ℕ} {Proc : Type} {s s' : Etimers w n numEvents Proc} {l : List (Fin n)}
  {t et : Fin n}

/-! ## The clock -/

lemma isSome_of_mem_pending (ht : t ∈ s.pending) : s.timerlist.isSome := by
  unfold pending at ht
  cases h : s.timerlist with
  | some a => rfl
  | none =>
    rw [h] at ht
    cases n <;> exact absurd ht List.not_mem_nil

lemma Kept.tick (hw : 2 ≤ w) (h : s.Kept)
    (hok : ∀ t ∈ s.pending, ahead (s.expirationTime t) s.clock ≠ halfRange w) :
    s.tick.Kept ∧ s.tick.pending = s.pending := by
  have hpow := two_pow_eq hw
  have hone := one_lt_halfRange hw
  have hsame : s.tick.timer = s.timer ∧ s.tick.p = s.p ∧ s.tick.next = s.next ∧
      s.tick.timerlist = s.timerlist ∧ s.tick.clock = s.clock + 1 ∧
      s.tick.nextExpiration = s.nextExpiration := by
    unfold Etimers.tick
    dsimp only
    split_ifs <;> exact ⟨rfl, rfl, rfl, rfl, rfl, rfl⟩
  obtain ⟨htimer, hp, hnext, hlist, hclock, hnextexp⟩ := hsame
  have hpending : s.tick.pending = s.pending := by
    unfold pending
    rw [hnext, hlist]
  have hexp : ∀ t, s.tick.expirationTime t = s.expirationTime t := by
    intro t
    unfold expirationTime
    rw [htimer]
  -- A poll is requested as soon as the clock is beyond the next expiration time.
  have hpolled : s.tick.needspoll = false → s.needspoll = false ∧
      ∀ t ∈ s.pending, ¬ahead (s.clock + 1) s.nextExpiration < halfRange w := by
    intro hfalse
    unfold Etimers.tick at hfalse
    dsimp only at hfalse
    split_ifs at hfalse with hcond
    · exact absurd hfalse nofun
    · refine ⟨hfalse, fun t ht hlt => hcond ⟨isSome_of_mem_pending ht, ?_⟩⟩
      unfold nextExpirationTime
      rw [if_pos (isSome_of_mem_pending ht)]
      exact maxTicks_lt hw hlt
  refine ⟨⟨⟨?_, ?_, ?_⟩, ?_, ?_⟩, hpending⟩
  · rw [hpending, hnext, hlist]
    exact h.linked
  · rw [hpending, hp]
    exact h.owned
  · rw [htimer]
    exact h.short
  · intro t ht hahead
    rw [hpending] at ht
    rw [hexp, hclock] at hahead
    rw [hexp, hnextexp]
    refine h.near t ht ?_
    have hhalf := hok t ht
    by_cases hzero : ahead (s.expirationTime t) s.clock = 0
    · omega
    · rw [ahead_tick hw hzero] at hahead
      omega
  · intro hfalse t ht
    obtain ⟨hunpolled, hcond⟩ := hpolled hfalse
    rw [hpending] at ht
    rw [hexp, hclock, hnextexp]
    obtain ⟨hlt, hnow⟩ := h.unpolled hunpolled t ht
    by_cases hzero : ahead (s.expirationTime t) s.clock = 0
    · refine absurd ?_ (hcond t ht)
      rw [hnow (ahead_eq_zero.mp hzero), ahead_add_one hw]
      exact hone
    · refine ⟨by rw [ahead_tick hw hzero]; omega, fun heq => absurd ?_ (hcond t ht)⟩
      rw [← heq]
      exact h.near t ht hlt

/-! ## The poll -/

/-- A timer that has not expired is still to expire, at most half the range from now. -/
lemma ahead_of_unexpired (hw : 2 ≤ w) (hshort : (s.timer t).interval.toNat < halfRange w)
    (h : s.expired t = false) :
    0 < ahead (s.expirationTime t) s.clock ∧
      ahead (s.expirationTime t) s.clock ≤ halfRange w := by
  have hpow := two_pow_eq hw
  have hlt : ¬(s.timer t).interval < s.clock - (s.timer t).start + 1 := by
    simpa [expired, Timer.expired] using h
  rw [BitVec.lt_def] at hlt
  have heq : s.expirationTime t - s.clock =
      (s.timer t).interval + 1 - (s.clock - (s.timer t).start + 1) := by
    unfold expirationTime Timer.expiration
    ring
  have hinterval : ((s.timer t).interval + 1).toNat = (s.timer t).interval.toNat + 1 := by
    rw [BitVec.toNat_add]
    show ((s.timer t).interval.toNat + (1#w).toNat) % 2 ^ w = _
    rw [BitVec.toNat_one (by omega)]
    apply Nat.mod_eq_of_lt
    omega
  rw [ahead, heq, BitVec.toNat_sub_of_le (by rw [BitVec.le_def]; omega)]
  omega

/-- `s'` is `s` after the event of the expired timer `t` was posted. -/
structure Posted (s : Etimers w n numEvents Proc) (t : Fin n) (s' : Etimers w n numEvents Proc) :
    Prop where
  mem : t ∈ s.pending
  expired : s.expired t = true
  timer : s'.timer = s.timer
  clock : s'.clock = s.clock
  needspoll : s'.needspoll = s.needspoll
  p : ∀ x, x ≠ t → s'.p x = s.p x
  events : s'.events = s.events ++ [.timer (s.p t) t]
  pending : s'.pending = s.pending.filter (· ≠ t)
  listed : s'.Listed
  near : ∀ x ∈ s'.pending, ahead (s'.expirationTime x) s'.clock < halfRange w →
    NotLater s'.nextExpiration (s'.expirationTime x)

/-- The pointers after an expired timer was taken off. -/
lemma unlinkExpired_linked {pre post : List (Fin n)}
    (h : Links.Linked s.next s.timerlist (pre ++ t :: post)) :
    Links.Linked (s.unlinkExpired pre.getLast? t).next (s.unlinkExpired pre.getLast? t).timerlist
      (pre ++ post) := by
  have hnodup := h.nodup
  rcases List.eq_nil_or_concat pre with rfl | ⟨init, b, rfl⟩
  · refine Links.Linked.update_of_notMem h.2 ?_ none
    exact (List.nodup_cons.mp hnodup).1
  · rw [List.concat_eq_append, List.getLast?_concat]
    simp only [List.concat_eq_append, List.append_assoc, List.cons_append, List.nil_append] at *
    refine h.unlink.update_of_notMem ?_ none
    simp only [List.nodup_append, List.nodup_cons, List.mem_cons] at hnodup
    simp only [List.mem_append, List.mem_cons]
    grind

/-- What a pass over the list does when the queue has room: the first expired timer is posted. -/
lemma pollPass_post {pre mid post : List (Fin n)} {fuel : ℕ} {p : Option (Fin n)}
    (hp : Links.Linked s.next p (mid ++ t :: post)) (hfuel : mid.length < fuel)
    (hmid : ∀ x ∈ mid, s.expired x = false) (ht : s.expired t = true)
    (hroom : s.events.length ≠ numEvents) :
    pollPass fuel pre.getLast? p s =
      ((({ s with events := s.events ++ [.timer (s.p t) t] } : Etimers w n numEvents Proc).unlinkExpired
        (pre ++ mid).getLast? t).updateTime, true) := by
  induction mid generalizing pre p fuel with
  | nil =>
    obtain ⟨rfl, -⟩ := hp
    obtain ⟨fuel, rfl⟩ : ∃ k, fuel = k + 1 := ⟨fuel - 1, by omega⟩
    rw [pollPass, if_pos ht, Etimers.post, if_neg hroom, List.append_nil]
  | cons a mid ih =>
    obtain ⟨rfl, hrest⟩ := hp
    obtain ⟨fuel, rfl⟩ : ∃ k, fuel = k + 1 := ⟨fuel - 1, by omega⟩
    rw [pollPass, if_neg (by rw [hmid a List.mem_cons_self]; nofun)]
    have hstep := @ih (pre ++ [a]) fuel _ hrest (by simpa using hfuel)
      fun x hx => hmid x (List.mem_cons_of_mem _ hx)
    rw [List.getLast?_concat, List.append_assoc] at hstep
    exact hstep

/-- What a pass does when nothing can be posted: it asks for another poll if a timer has expired. -/
lemma pollPass_end {fuel : ℕ} {p u : Option (Fin n)} (hp : Links.Linked s.next p l)
    (hfuel : l.length ≤ fuel) (hfull : ∀ x ∈ l, s.expired x = true → s.events.length = numEvents) :
    pollPass fuel u p s =
      ({ s with needspoll := s.needspoll || l.any s.expired }, false) := by
  induction l generalizing s p u fuel with
  | nil =>
    rw [Links.linked_nil.mp hp, List.any_nil, Bool.or_false]
    cases fuel <;> rfl
  | cons a l ih =>
    obtain ⟨rfl, hrest⟩ := hp
    obtain ⟨fuel, rfl⟩ : ∃ k, fuel = k + 1 := ⟨fuel - 1, by simp at hfuel; omega⟩
    rw [pollPass, List.any_cons]
    by_cases ha : s.expired a = true
    · have hevents := hfull a List.mem_cons_self ha
      rw [if_pos ha, Etimers.post, if_pos hevents]
      have hstep := ih (s := s.requestPoll) (u := some a) hrest (by simpa using hfuel)
        fun x _ _ => hevents
      rw [ha, Bool.true_or, Bool.or_true]
      exact hstep
    · rw [if_neg ha, Bool.eq_false_iff.mpr ha, Bool.false_or]
      exact ih hrest (by simpa using hfuel) fun x hx => hfull x (List.mem_cons_of_mem _ hx)

/-- A pass either posts one timer or reaches the end of the list. -/
lemma pollPass_cases (h : s.Listed) :
    (∃ t s', pollPass n none s.timerlist s = (s', true) ∧ Posted s t s') ∨
      pollPass n none s.timerlist s =
          ({ s with needspoll := s.needspoll || s.pending.any s.expired }, false) ∧
        ∀ t ∈ s.pending, s.expired t = true → s.events.length = numEvents := by
  have hlen := h.length_le
  have hlinked := h.linked
  by_cases hfull : ∀ t ∈ s.pending, s.expired t = true → s.events.length = numEvents
  · exact .inr ⟨pollPass_end hlinked hlen hfull, hfull⟩
  · push Not at hfull
    obtain ⟨x, hx, hexp, hroom⟩ := hfull
    cases hfind : s.pending.find? s.expired with
    | none => exact absurd hexp (List.find?_eq_none.mp hfind x hx)
    | some t =>
      obtain ⟨ht, mid, post, heq, hmid⟩ := List.find?_eq_some_iff_append.mp hfind
      have hmid' : ∀ y ∈ mid, s.expired y = false := fun y hy => by simpa using hmid y hy
      rw [heq] at hlinked hlen
      have hpass := @pollPass_post _ _ _ _ _ _ [] _ _ n _ hlinked
        (by rw [List.length_append, List.length_cons] at hlen; omega) hmid' ht hroom
      refine .inl ⟨t, _, hpass, ?_⟩
      have hnodup := hlinked.nodup
      have hnot : t ∉ mid ++ post := by
        simp only [List.nodup_append, List.nodup_cons, List.mem_cons] at hnodup
        simp only [List.mem_append]
        grind
      set x : Etimers w n numEvents Proc :=
        { s with events := s.events ++ [.timer (s.p t) t] } with hxdef
      have hlinked' := unlinkExpired_linked (s := x) hlinked
      have hpending := pending_eq hlinked'
      have hfilter : s.pending.filter (· ≠ t) = mid ++ post := by
        rw [heq, Links.filter_ne_append hnodup]
      have hsame : (x.unlinkExpired mid.getLast? t).timer = s.timer ∧
          (x.unlinkExpired mid.getLast? t).clock = s.clock ∧
          (x.unlinkExpired mid.getLast? t).needspoll = s.needspoll ∧
          (x.unlinkExpired mid.getLast? t).events = s.events ++ [.timer (s.p t) t] ∧
          (x.unlinkExpired mid.getLast? t).p = Function.update s.p t none := by
        unfold unlinkExpired
        cases mid.getLast? <;> exact ⟨rfl, rfl, rfl, rfl, rfl⟩
      obtain ⟨htimer, hclock, hpoll, hevents, hp⟩ := hsame
      have hp' : ∀ y, y ≠ t → (x.unlinkExpired mid.getLast? t).p y = s.p y := by
        intro y hy
        rw [hp, Function.update_of_ne hy]
      have hlisted : (x.unlinkExpired mid.getLast? t).Listed := by
        refine Listed.of_linked hlinked' (fun y hy => ?_) (by rw [htimer]; exact h.short)
        have hne : y ≠ t := fun heq => hnot (heq ▸ hy)
        rw [hp' y hne]
        refine h.owned y ?_
        rw [heq]
        simp only [List.mem_append, List.mem_cons] at hy ⊢
        tauto
      exact
        { mem := List.mem_of_find?_eq_some hfind
          expired := ht
          timer := htimer
          clock := hclock
          needspoll := hpoll
          p := hp'
          events := hevents
          pending := hpending.trans hfilter.symm
          listed := hlisted.updateTime
          near := fun y hy => hlisted.near_updateTime hy }

/-- What a poll makes of a state: the events of `posted` were appended, and a timer that has expired
is left only when the queue is full; then another poll is requested. -/
structure Polled (s : Etimers w n numEvents Proc) (posted : List (Fin n))
    (s' : Etimers w n numEvents Proc) : Prop where
  nodup : posted.Nodup
  expired : ∀ t ∈ posted, t ∈ s.pending ∧ s.expired t = true
  timer : s'.timer = s.timer
  clock : s'.clock = s.clock
  events : s'.events = s.events ++ posted.map fun t => .timer (s.p t) t
  pending : s'.pending = s.pending.filter (· ∉ posted)
  left : ∀ t ∈ s'.pending, s'.expired t = true →
    s'.events.length = numEvents ∧ s'.needspoll = true
  listed : s'.Listed
  near : ∀ t ∈ s'.pending, ahead (s'.expirationTime t) s'.clock < halfRange w →
    NotLater s'.nextExpiration (s'.expirationTime t)

lemma pollLoop_polled {fuel : ℕ} (h : s.Listed)
    (hnear : ∀ t ∈ s.pending, ahead (s.expirationTime t) s.clock < halfRange w →
      NotLater s.nextExpiration (s.expirationTime t))
    (hfuel : s.pending.length < fuel) : ∃ posted, Polled s posted (pollLoop fuel s) := by
  induction fuel generalizing s with
  | zero => omega
  | succ fuel ih =>
    rw [pollLoop]
    rcases pollPass_cases h with ⟨t, s', hpass, hposted⟩ | ⟨hpass, hfull⟩
    · rw [hpass]
      have hnot : t ∉ s'.pending := by
        rw [hposted.pending]
        simp
      have hlt : s'.pending.length < s.pending.length := by
        rw [hposted.pending, List.length_filter_lt_length_iff_exists]
        exact ⟨t, hposted.mem, by simp⟩
      obtain ⟨posted, hpolled⟩ := ih hposted.listed hposted.near (by omega)
      have hback : ∀ x ∈ posted, x ∈ s.pending ∧ x ≠ t := by
        intro x hx
        have hmem := (hpolled.expired x hx).1
        rw [hposted.pending, List.mem_filter] at hmem
        exact ⟨hmem.1, by simpa using hmem.2⟩
      refine ⟨t :: posted, ?_, ?_, ?_, ?_, ?_, ?_, hpolled.left, hpolled.listed, hpolled.near⟩
      · exact List.nodup_cons.mpr ⟨fun hmem => (hback t hmem).2 rfl, hpolled.nodup⟩
      · intro x hx
        rcases List.mem_cons.mp hx with rfl | hx
        · exact ⟨hposted.mem, hposted.expired⟩
        · refine ⟨(hback x hx).1, ?_⟩
          have hexp := (hpolled.expired x hx).2
          unfold Etimers.expired at hexp ⊢
          rwa [hposted.timer, hposted.clock] at hexp
      · exact hpolled.timer.trans hposted.timer
      · exact hpolled.clock.trans hposted.clock
      · have howners : posted.map (fun x => TimerEvent.timer (s'.p x) x) =
            posted.map fun x => .timer (s.p x) x := by
          refine List.map_congr_left fun x hx => ?_
          rw [hposted.p x (hback x hx).2]
        rw [hpolled.events, hposted.events, howners, List.append_assoc]
        rfl
      · rw [hpolled.pending, hposted.pending, List.filter_filter]
        refine List.filter_congr fun x _ => ?_
        by_cases hx : x = t <;> simp [hx]
    · rw [hpass]
      refine ⟨[], List.nodup_nil, nofun, rfl, rfl, ?_, ?_, ?_, ⟨h.linked, h.owned, h.short⟩, hnear⟩
      · rw [List.map_nil, List.append_nil]
      · show s.pending = _
        simp
      · intro t ht hexp
        refine ⟨hfull t ht hexp, ?_⟩
        have hany : s.pending.any s.expired = true := List.any_eq_true.mpr ⟨t, ht, hexp⟩
        show (s.needspoll || s.pending.any s.expired) = true
        rw [hany, Bool.or_true]

/-- **The poll**: the timers that have expired are posted, as far as the queue has room. -/
lemma Listed.polled (h : s.Listed)
    (hnear : ∀ t ∈ s.pending, ahead (s.expirationTime t) s.clock < halfRange w →
      NotLater s.nextExpiration (s.expirationTime t)) : ∃ posted, Polled s posted s.poll := by
  have hlisted : ({ s with needspoll := false } : Etimers w n numEvents Proc).Listed :=
    ⟨h.linked, h.owned, h.short⟩
  obtain ⟨posted, hpolled⟩ := pollLoop_polled hlisted hnear (Nat.lt_succ_of_le hlisted.length_le)
  exact ⟨posted, hpolled.nodup, hpolled.expired, hpolled.timer, hpolled.clock, hpolled.events,
    hpolled.pending, hpolled.left, hpolled.listed, hpolled.near⟩

lemma Kept.poll (hw : 2 ≤ w) (h : s.Kept)
    (hok : ∀ t ∈ s.pending, ahead (s.expirationTime t) s.clock ≠ halfRange w) : s.poll.Kept := by
  obtain ⟨posted, hpolled⟩ := h.toListed.polled h.near
  refine ⟨hpolled.listed, hpolled.near, fun hfalse t ht => ?_⟩
  have hunexpired : s.poll.expired t = false := by
    refine Bool.eq_false_iff.mpr fun hexp => ?_
    exact absurd ((hpolled.left t ht hexp).2.symm.trans hfalse) nofun
  obtain ⟨hpos, hle⟩ := ahead_of_unexpired hw (hpolled.listed.short t) hunexpired
  have hmem : t ∈ s.pending := by
    have hfilter : t ∈ s.pending.filter (· ∉ posted) := hpolled.pending ▸ ht
    exact List.mem_of_mem_filter hfilter
  have hexp : s.poll.expirationTime t = s.expirationTime t :=
    congrArg (fun timer => (timer t).expiration) hpolled.timer
  have hclock : s.poll.clock = s.clock := hpolled.clock
  have hne := hok t hmem
  rw [← hexp, ← hclock] at hne
  exact ⟨lt_of_le_of_ne hle hne, fun heq => absurd (ahead_eq_zero.mpr heq) hpos.ne'⟩

/-! ## Runs -/

section runs
variable [DecidableEq Proc]

/-- The list is empty at the start. -/
structure Initial (s : Etimers w n numEvents Proc) : Prop where
  timerlist : s.timerlist = none
  short : ∀ t, (s.timer t).interval.toNat < halfRange w

/-- Only intervals below half the clock range are asked for. -/
def Short (_ : Etimers w n numEvents Proc) : Call w n Proc → Prop
  | .set _ _ interval => interval.toNat < halfRange w
  | _ => True

/-- In addition, `etimer_adjust` does not move the expiration of a pending timer into the past without
a poll being requested, and at a tick or a poll no pending timer expires exactly half the clock range
from now: the timer process runs before the clock is that far beyond an expiration. -/
def InTime (s : Etimers w n numEvents Proc) : Call w n Proc → Prop
  | .set _ _ interval => interval.toNat < halfRange w
  | .adjust et timediff => et ∈ s.pending →
      s.needspoll = true ∨ ahead (s.adjusted et timediff).expiration s.clock < halfRange w
  | .tick | .poll => ∀ t ∈ s.pending, ahead (s.expirationTime t) s.clock ≠ halfRange w
  | _ => True

instance (s : Etimers w n numEvents Proc) : (c : Call w n Proc) → Decidable (s.InTime c)
  | .set _ _ interval => inferInstanceAs (Decidable (interval.toNat < halfRange w))
  | .adjust et timediff => inferInstanceAs (Decidable (et ∈ s.pending →
      s.needspoll = true ∨ ahead (s.adjusted et timediff).expiration s.clock < halfRange w))
  | .tick | .poll => inferInstanceAs (Decidable
      (∀ t ∈ s.pending, ahead (s.expirationTime t) s.clock ≠ halfRange w))
  | .reset _ _ | .restart _ _ | .stop _ | .exited _ | .postOther | .deliver => .isTrue trivial

/-- A step cannot fail. -/
def okStep (s : Etimers w n numEvents Proc) (c : Call w n Proc) :
    Except Empty (Etimers w n numEvents Proc) :=
  .ok (s.step c)

/-- The list is acyclic and free of duplicates, and a poll is requested or the next expiration time is
not later than the expiration of any pending timer. -/
structure Sound (s : Etimers w n numEvents Proc) : Prop where
  linked : Links.Linked s.next s.timerlist s.pending
  nodup : s.pending.Nodup
  noneMissed : s.needspoll = true ∨
    ∀ t ∈ s.pending, NotLater s.nextExpiration (s.expirationTime t)

/-- The expired timers in `posted` leave the list, and one event for each is appended, for its owner;
an expired timer stays on the list only when the queue is full, and is then polled again.  No other
call posts the event of a timer. -/
structure Expiries (s : Etimers w n numEvents Proc) : Prop where
  poll : ∃ posted : List (Fin n), posted.Nodup ∧
    (∀ t ∈ posted, t ∈ s.pending ∧ s.expired t = true ∧ s.p t ≠ none) ∧
    s.poll.events = s.events ++ posted.map (fun t => .timer (s.p t) t) ∧
    s.poll.pending = s.pending.filter (· ∉ posted) ∧
    ∀ t ∈ s.poll.pending, s.expired t = true →
      s.poll.events.length = numEvents ∧ s.poll.needspoll = true
  others : ∀ c : Call w n Proc, c ≠ .poll → ∀ p t,
    (s.step c).events.count (.timer p t) ≤ s.events.count (.timer p t)

omit [DecidableEq Proc] in
lemma Initial.kept (h : s.Initial) : s.Kept := by
  have hpending : s.pending = [] := pending_eq (Links.linked_nil.mpr h.timerlist)
  refine ⟨⟨?_, ?_, h.short⟩, ?_, ?_⟩
  · rw [hpending]
    exact h.timerlist
  · rw [hpending]
    exact nofun
  · rw [hpending]
    exact nofun
  · rw [hpending]
    exact fun _ => nofun

lemma Kept.step (hw : 2 ≤ w) (h : s.Kept) {c : Call w n Proc} (hok : s.InTime c) :
    (s.step c).Kept := by
  cases c with
  | set current et interval => exact (h.toListed.setTimer (x := .set s.clock interval) hok).addTimer current et
  | reset current et =>
    exact (h.toListed.setTimer (x := (s.timer et).reset) (h.short et)).addTimer current et
  | restart current et =>
    exact (h.toListed.setTimer (x := (s.timer et).restart s.clock) (h.short et)).addTimer
      current et
  | adjust et timediff => exact h.adjust hok
  | stop et => exact (h.stop et).1
  | exited p => exact (h.exited p).1
  | tick => exact (h.tick hw hok).1
  | poll => exact h.poll hw hok
  | postOther =>
    show ((s.post .other).getD s).Kept
    unfold post
    split_ifs
    · exact h
    · exact ⟨⟨h.linked, h.owned, h.short⟩, h.near, h.unpolled⟩
  | deliver => exact ⟨⟨h.linked, h.owned, h.short⟩, h.near, h.unpolled⟩

omit [DecidableEq Proc] in
lemma Kept.sound (h : s.Kept) : s.Sound := by
  refine ⟨h.linked, h.linked.nodup, ?_⟩
  cases hpoll : s.needspoll with
  | true => exact .inl rfl
  | false => exact .inr fun t ht => h.near t ht (h.unpolled hpoll t ht).1

/-- Only the poll posts the event of a timer. -/
lemma count_step_le {c : Call w n Proc} (hc : c ≠ .poll) (p : Option Proc) (t : Fin n) :
    (s.step c).events.count (.timer p t) ≤ s.events.count (.timer p t) := by
  cases c with
  | set current et interval => exact (congrArg _ (addTimer_same _ current et).2.2).le
  | reset current et => exact (congrArg _ (addTimer_same _ current et).2.2).le
  | restart current et => exact (congrArg _ (addTimer_same _ current et).2.2).le
  | adjust et timediff => exact le_refl _
  | stop et => exact (congrArg _ (stop_same s et).2.2).le
  | exited p =>
    show (s.exited p).events.count _ ≤ _
    unfold exited
    cases s.skipOwned p n s.timerlist <;> exact le_refl _
  | tick =>
    show s.tick.events.count _ ≤ _
    unfold tick
    dsimp only
    split_ifs <;> exact le_refl _
  | poll => exact absurd rfl hc
  | postOther =>
    show ((s.post .other).getD s).events.count _ ≤ _
    unfold post
    split_ifs
    · exact le_refl _
    · have hother : [TimerEvent.other].count (TimerEvent.timer p t) = 0 := by
        simp
      show (s.events ++ [TimerEvent.other]).count _ ≤ _
      rw [List.count_append, hother, Nat.add_zero]
  | deliver => exact (List.tail_sublist _).count_le _

lemma Kept.expiries (h : s.Kept) : s.Expiries := by
  refine ⟨?_, fun c hc p t => count_step_le hc p t⟩
  obtain ⟨posted, hpolled⟩ := h.toListed.polled h.near
  refine ⟨posted, hpolled.nodup, fun t ht => ?_, hpolled.events, hpolled.pending,
    fun t ht hexp => hpolled.left t ht ?_⟩
  · obtain ⟨hmem, hexp⟩ := hpolled.expired t ht
    exact ⟨hmem, hexp, h.owned t hmem⟩
  · unfold expired at hexp ⊢
    rwa [hpolled.timer, hpolled.clock]

/-- **No expiration is missed**, in every run of calls and events in time. -/
theorem none_missed (hw : 2 ≤ w) (s : Etimers w n numEvents Proc)
    (h : Reaches okStep InTime Initial s) : s.Sound ∧ s.Expiries := by
  have hkept : s.Kept := by
    refine h.invariant (I := Kept) (fun _ h => h.kept) fun s c s' h hok hs' => ?_
    cases hs'
    exact h.step hw hok
  exact ⟨hkept.sound, hkept.expiries⟩

/-- Two timers that were never set, on a clock of 16 bits. -/
def idle : Etimers 16 2 4 Unit where
  clock := 0
  timer _ := ⟨0, 0⟩
  p _ := none
  next _ := none
  timerlist := none
  nextExpiration := 0
  needspoll := false
  events := []

lemma idle_initial : idle.Initial := by
  refine ⟨rfl, fun _ => ?_⟩
  show (0 : BitVec 16).toNat < halfRange 16
  decide

/-- Two timers are set.  The clock interrupt polls the timer process when the first one has expired,
and the poll posts its event. -/
theorem none_missed_set : ∃ s : Etimers 16 2 4 Unit, Reaches okStep InTime Initial s ∧
    s.pending = [1] ∧ s.events = [.timer (some ()) 0] ∧ s.Sound ∧ s.Expiries := by
  obtain ⟨s, hs, hslot⟩ : ∃ s : Etimers 16 2 4 Unit, Reaches okStep InTime Initial s ∧
      (s.pending, s.events) = ([1], [.timer (some ()) 0]) :=
    Reaches.exists_guarded idle_initial
      [.set () 0 2, .set () 1 100, .poll, .tick, .tick, .tick, .poll] _ (by decide +kernel)
  simp only [Prod.mk.injEq] at hslot
  exact ⟨s, hs, hslot.1, hslot.2, none_missed (by decide) s hs⟩

/-- Two timers are set and polled, and the expiration of the first one is then moved into the past:
the next expiration time is that of the second one. -/
theorem not_none_missed :
    ¬∀ s : Etimers 16 2 4 Unit, Reaches okStep Short Initial s → s.Sound ∧ s.Expiries := by
  intro h
  have hshort : ∀ c ∈ ([.set () 0 100, .set () 1 50, .poll, .adjust 0 (-200)] :
      List (Call 16 2 Unit)), ∀ s : Etimers 16 2 4 Unit, s.Short c := by
    intro c hc s
    simp only [List.mem_cons, List.not_mem_nil, or_false] at hc
    rcases hc with rfl | rfl | rfl | rfl
    · show (100 : BitVec 16).toNat < halfRange 16
      decide
    · show (50 : BitVec 16).toNat < halfRange 16
      decide
    · trivial
    · trivial
  have hruns := @Reaches.of_runEvents _ _ _ okStep _ _ _ _ (Reaches.initial idle_initial) _ hshort rfl
  have hmissed := (h _ hruns).1.noneMissed
  revert hmissed
  decide

end runs
end Etimers
end Contiki

import Contiki.Lib.Links
import Mathlib.Data.BitVec

/-!
# Event timers

The timer library, the list of pending event timers with the next expiration time, the event queue as
far as the timers use it, and the clock interrupt that polls the timer process.

The clock has `w` bits and all its arithmetic is modular.  The event timers are the objects `Fin n`; a
process is an element of `Proc`, and `none` stands for `PROCESS_NONE`.

* `Etimers.set`, `reset`, `restart`, `adjust`, `stop` — the calls of other processes.
* `Etimers.exited`, `poll` — the two events the timer process handles.
* `Etimers.tick` — the clock interrupt.
* `Etimers.step` — one of these, or another use of the event queue.
-/

namespace Contiki

structure Timer (w : ℕ) where
  start : BitVec w
  interval : BitVec w

namespace Timer
variable {w : ℕ}

def set (now interval : BitVec w) : Timer w := ⟨now, interval⟩

def reset (t : Timer w) : Timer w := { t with start := t.start + t.interval }

def restart (now : BitVec w) (t : Timer w) : Timer w := { t with start := now }

/-- `timer_expired`.  The difference is incremented so that the comparison is strict; it wraps to `0`
one tick before the start. -/
def expired (now : BitVec w) (t : Timer w) : Bool := t.interval < now - t.start + 1

/-- The time at which the timer expires. -/
def expiration (t : Timer w) : BitVec w := t.start + t.interval

end Timer

/-- An event in the queue: `PROCESS_EVENT_TIMER` for an event timer, or another one. -/
inductive TimerEvent (n : ℕ) (Proc : Type) where
  | timer (p : Option Proc) (et : Fin n)
  | other
  deriving DecidableEq

/-- The state of the event timers: the objects, the variables of `etimer.c`, the clock, the poll flag
of the timer process and the queue of `numEvents` events. -/
structure Etimers (w n numEvents : ℕ) (Proc : Type) where
  clock : BitVec w
  timer : Fin n → Timer w
  p : Fin n → Option Proc
  next : Fin n → Option (Fin n)
  timerlist : Option (Fin n)
  nextExpiration : BitVec w
  needspoll : Bool
  events : List (TimerEvent n Proc)

namespace Etimers
variable {w n numEvents : ℕ} {Proc : Type}

/-- The pending timers, in the order of the list. -/
def pending (s : Etimers w n numEvents Proc) : List (Fin n) :=
  Links.walk s.next n s.timerlist

/-- The expiration time of a timer. -/
def expirationTime (s : Etimers w n numEvents Proc) (t : Fin n) : BitVec w := (s.timer t).expiration

/-- `timer_expired` at the current time. -/
def expired (s : Etimers w n numEvents Proc) (t : Fin n) : Bool := (s.timer t).expired s.clock

/-- The loop of `update_time`: the smallest distance to an expiration time. -/
def tdistLoop (s : Etimers w n numEvents Proc) : ℕ → Option (Fin n) → BitVec w → BitVec w
  | 0, _, tdist => tdist
  | _ + 1, none, tdist => tdist
  | fuel + 1, some t, tdist =>
    tdistLoop s fuel (s.next t)
      (if s.expirationTime t - s.clock < tdist then s.expirationTime t - s.clock else tdist)

def updateTime (s : Etimers w n numEvents Proc) : Etimers w n numEvents Proc :=
  { s with
    nextExpiration :=
      match s.timerlist with
      | none => 0
      | some t => s.clock + s.tdistLoop n (s.next t) (s.expirationTime t - s.clock) }

def requestPoll (s : Etimers w n numEvents Proc) : Etimers w n numEvents Proc :=
  { s with needspoll := true }

/-- `process_post`: `none` is `PROCESS_ERR_FULL`. -/
def post (s : Etimers w n numEvents Proc) (e : TimerEvent n Proc) :
    Option (Etimers w n numEvents Proc) :=
  if s.events.length = numEvents then none else some { s with events := s.events ++ [e] }

/-! ## Calls of other processes -/

/-- `add_timer`, called by the process `current`. -/
def addTimer (s : Etimers w n numEvents Proc) (current : Proc) (timer : Fin n) :
    Etimers w n numEvents Proc :=
  let s := s.requestPoll
  if (s.p timer).isSome ∧ timer ∈ s.pending then
    s.updateTime
  else
    ({ s with
        p := Function.update s.p timer (some current)
        next := Function.update s.next timer s.timerlist
        timerlist := some timer } : Etimers w n numEvents Proc).updateTime

/-- A timer is given another start or interval. -/
def setTimer (s : Etimers w n numEvents Proc) (et : Fin n) (t : Timer w) :
    Etimers w n numEvents Proc :=
  { s with timer := Function.update s.timer et t }

def set (s : Etimers w n numEvents Proc) (current : Proc) (et : Fin n) (interval : BitVec w) :
    Etimers w n numEvents Proc :=
  (s.setTimer et (.set s.clock interval)).addTimer current et

def reset (s : Etimers w n numEvents Proc) (current : Proc) (et : Fin n) :
    Etimers w n numEvents Proc :=
  (s.setTimer et (s.timer et).reset).addTimer current et

def restart (s : Etimers w n numEvents Proc) (current : Proc) (et : Fin n) :
    Etimers w n numEvents Proc :=
  (s.setTimer et ((s.timer et).restart s.clock)).addTimer current et

/-- The timer with its start moved by `timediff`. -/
def adjusted (s : Etimers w n numEvents Proc) (et : Fin n) (timediff : ℤ) : Timer w :=
  { s.timer et with start := (s.timer et).start + BitVec.ofInt w timediff }

/-- `etimer_adjust`.  Unlike the calls above it does not request a poll. -/
def adjust (s : Etimers w n numEvents Proc) (et : Fin n) (timediff : ℤ) :
    Etimers w n numEvents Proc :=
  (s.setTimer et (s.adjusted et timediff)).updateTime

/-- The first part of `etimer_stop`: the timer is taken off the list, if it is on it. -/
def remove (s : Etimers w n numEvents Proc) (et : Fin n) : Etimers w n numEvents Proc :=
  if s.timerlist = some et then
    ({ s with timerlist := s.next et } : Etimers w n numEvents Proc).updateTime
  else
    match Links.before s.next et n s.timerlist with
    | some t =>
      ({ s with next := Function.update s.next t (s.next et) } :
        Etimers w n numEvents Proc).updateTime
    | none => s

def stop (s : Etimers w n numEvents Proc) (et : Fin n) : Etimers w n numEvents Proc :=
  let s := s.remove et
  { s with next := Function.update s.next et none, p := Function.update s.p et none }

/-! ## The timer process -/

section exited
variable [DecidableEq Proc]

/-- The first timer from `t` that does not belong to `p`. -/
def skipOwned (s : Etimers w n numEvents Proc) (p : Proc) : ℕ → Option (Fin n) → Option (Fin n)
  | 0, t => t
  | _ + 1, none => none
  | fuel + 1, some t => if s.p t = some p then skipOwned s p fuel (s.next t) else some t

/-- The loop that takes the timers of `p` behind `t` off the list. -/
def unlinkOwned (owner : Fin n → Option Proc) (p : Proc) :
    ℕ → Fin n → (Fin n → Option (Fin n)) → Fin n → Option (Fin n)
  | 0, _, next => next
  | fuel + 1, t, next =>
    match next t with
    | none => next
    | some u =>
      if owner u = some p then unlinkOwned owner p fuel t (Function.update next t (next u))
      else unlinkOwned owner p fuel u next

/-- `PROCESS_EVENT_EXITED` for the process `p`: its timers are taken off the list. -/
def exited (s : Etimers w n numEvents Proc) (p : Proc) : Etimers w n numEvents Proc :=
  match s.skipOwned p n s.timerlist with
  | none => { s with timerlist := none }
  | some t => { s with timerlist := some t, next := unlinkOwned s.p p n t s.next }

end exited

/-- A timer whose event was posted is taken off the list; `u` is the timer before it. -/
def unlinkExpired (s : Etimers w n numEvents Proc) (u : Option (Fin n)) (t : Fin n) :
    Etimers w n numEvents Proc :=
  match u with
  | some u =>
    { s with
      p := Function.update s.p t none
      next := Function.update (Function.update s.next u (s.next t)) t none }
  | none =>
    { s with
      p := Function.update s.p t none
      timerlist := s.next t
      next := Function.update s.next t none }

/-- The loop over the list; `u` is the timer before `t`.  It is left for `goto again`, with `true`,
when an event was posted. -/
def pollPass : ℕ → Option (Fin n) → Option (Fin n) → Etimers w n numEvents Proc →
    Etimers w n numEvents Proc × Bool
  | 0, _, _, s => (s, false)
  | _ + 1, _, none, s => (s, false)
  | fuel + 1, u, some t, s =>
    if s.expired t then
      match s.post (.timer (s.p t) t) with
      | some s' => ((s'.unlinkExpired u t).updateTime, true)
      | none => pollPass fuel (some t) (s.next t) s.requestPoll
    else
      pollPass fuel (some t) (s.next t) s

/-- The passes over the list, until one reaches its end. -/
def pollLoop : ℕ → Etimers w n numEvents Proc → Etimers w n numEvents Proc
  | 0, s => s
  | fuel + 1, s =>
    match s.pollPass n none s.timerlist with
    | (s', true) => pollLoop fuel s'
    | (s', false) => s'

/-- `PROCESS_EVENT_POLL`: the poll flag is cleared and the timer process runs. -/
def poll (s : Etimers w n numEvents Proc) : Etimers w n numEvents Proc :=
  pollLoop (n + 1) { s with needspoll := false }

/-! ## The clock interrupt and the event queue -/

def maxTicks (w : ℕ) : BitVec w := ~~~0 / 2

def nextExpirationTime (s : Etimers w n numEvents Proc) : BitVec w :=
  if s.timerlist.isSome then s.nextExpiration else 0

/-- The clock interrupt: the clock advances, and the timer process is polled once the next expiration
time is reached. -/
def tick (s : Etimers w n numEvents Proc) : Etimers w n numEvents Proc :=
  let s : Etimers w n numEvents Proc := { s with clock := s.clock + 1 }
  if s.timerlist.isSome ∧ s.nextExpirationTime - s.clock - 1 > maxTicks w then s.requestPoll else s

/-- The calls and events. -/
inductive Call (w n : ℕ) (Proc : Type) where
  | set (current : Proc) (et : Fin n) (interval : BitVec w)
  | reset (current : Proc) (et : Fin n)
  | restart (current : Proc) (et : Fin n)
  | adjust (et : Fin n) (timediff : ℤ)
  | stop (et : Fin n)
  | exited (p : Proc)
  | tick
  | poll
  | postOther
  | deliver

/-- What a call or event does; other code may post events of its own, and the kernel takes the first
event out of the queue to deliver it. -/
def step [DecidableEq Proc] (s : Etimers w n numEvents Proc) :
    Call w n Proc → Etimers w n numEvents Proc
  | .set current et interval => s.set current et interval
  | .reset current et => s.reset current et
  | .restart current et => s.restart current et
  | .adjust et timediff => s.adjust et timediff
  | .stop et => s.stop et
  | .exited p => s.exited p
  | .tick => s.tick
  | .poll => s.poll
  | .postOther => (s.post .other).getD s
  | .deliver => { s with events := s.events.tail }

end Etimers
end Contiki

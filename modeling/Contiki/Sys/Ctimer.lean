import Contiki.Sys.Etimer

/-!
# Callback timers

A callback timer holds an event timer, which is set in the context of the callback timer process.  When
that process gets the event of a timer on its list, it takes the timer off and calls its function.

The model is the initialised module together with the event timers and the event queue it rests on.
The callback timers are those `Fin n` for which `isCtimer` holds; the other event timers belong to
other processes.  Two fields are for the specification: `time` counts the ticks without wrapping, and
`history` records what happened to the callback timers, the newest entry first.

* `Ctimers.set`, `reset`, `restart`, `stop` — the calls.
* `Ctimers.thread` — the callback timer process gets an event.
* `Ctimers.step` — one of these, or something else that happens to the event timers.
-/

namespace Contiki

/-- What `struct ctimer` holds beside its event timer: the process that set it, the function to call,
`none` for `NULL`, and its argument. -/
structure Ctimer (Proc : Type) where
  p : Option Proc
  f : Option ℕ
  ptr : ℕ

/-- What happened to a callback timer. -/
inductive CtimerEntry (n : ℕ) where
  /-- It was set or restarted at a time, with an interval. -/
  | started (c : Fin n) (time interval : ℕ)
  | reset (c : Fin n)
  | stopped (c : Fin n)
  | called (c : Fin n) (time : ℕ)
  deriving DecidableEq

structure Ctimers (w n numEvents : ℕ) (Proc : Type) where
  etimers : Etimers w n numEvents Proc
  isCtimer : Fin n → Bool
  ctimer : Fin n → Ctimer Proc
  ctimerList : List (Fin n)
  time : ℕ
  history : List (CtimerEntry n)

namespace Ctimers
variable {w n numEvents : ℕ} {Proc : Type}

/-- `list_remove` and `list_add`: the timer is moved to the end of the list. -/
def relist (s : Ctimers w n numEvents Proc) (c : Fin n) : Ctimers w n numEvents Proc :=
  { s with ctimerList := s.ctimerList.erase c ++ [c] }

/-- An entry of the history. -/
def record (s : Ctimers w n numEvents Proc) (e : CtimerEntry n) : Ctimers w n numEvents Proc :=
  { s with history := e :: s.history }

section calls
variable (ctimerProcess : Proc)

/-- `ctimer_set`, called by the process `current`. -/
def set (s : Ctimers w n numEvents Proc) (current : Option Proc) (c : Fin n) (t : BitVec w)
    (f : Option ℕ) (ptr : ℕ) : Ctimers w n numEvents Proc :=
  (({ s with
      ctimer := Function.update s.ctimer c ⟨current, f, ptr⟩
      etimers := s.etimers.set ctimerProcess c t } : Ctimers w n numEvents Proc).relist c).record
    (.started c s.time t.toNat)

def reset (s : Ctimers w n numEvents Proc) (c : Fin n) : Ctimers w n numEvents Proc :=
  (({ s with etimers := s.etimers.reset ctimerProcess c } :
    Ctimers w n numEvents Proc).relist c).record (.reset c)

def restart (s : Ctimers w n numEvents Proc) (c : Fin n) : Ctimers w n numEvents Proc :=
  (({ s with etimers := s.etimers.restart ctimerProcess c } :
    Ctimers w n numEvents Proc).relist c).record
      (.started c s.time (s.etimers.timer c).interval.toNat)

end calls

def stop (s : Ctimers w n numEvents Proc) (c : Fin n) : Ctimers w n numEvents Proc :=
  ({ s with etimers := s.etimers.stop c, ctimerList := s.ctimerList.erase c } :
    Ctimers w n numEvents Proc).record (.stopped c)

instance (s : Ctimers w n numEvents Proc) (c : Fin n) : Decidable (c ∈ s.ctimerList) :=
  Links.decidableMem c s.ctimerList

/-- The callback timer process gets `PROCESS_EVENT_TIMER` for an event timer.  The function runs last,
so that the calls it makes are steps of their own. -/
def thread (s : Ctimers w n numEvents Proc) (data : Fin n) : Ctimers w n numEvents Proc :=
  if data ∈ s.ctimerList then
    let s : Ctimers w n numEvents Proc := { s with ctimerList := s.ctimerList.erase data }
    if (s.ctimer data).f ≠ none then s.record (.called data s.time) else s
  else
    s

/-- The first event is taken out of the queue and delivered to its receiver, or to every process. -/
def deliver [DecidableEq Proc] (ctimerProcess : Proc) (s : Ctimers w n numEvents Proc) :
    Ctimers w n numEvents Proc :=
  let s' : Ctimers w n numEvents Proc := { s with etimers := s.etimers.step .deliver }
  match s.etimers.events.head? with
  | some (.timer p et) => if p = some ctimerProcess ∨ p = none then s'.thread et else s'
  | _ => s'

/-- The clock ticks. -/
def tick (s : Ctimers w n numEvents Proc) : Ctimers w n numEvents Proc :=
  { s with etimers := s.etimers.tick, time := s.time + 1 }

/-- The calls of the module, the clock tick, the delivery of an event, and other calls and events of
the event timers. -/
inductive Event (w n : ℕ) (Proc : Type) where
  | set (current : Option Proc) (c : Fin n) (t : BitVec w) (f : Option ℕ) (ptr : ℕ)
  | reset (c : Fin n)
  | restart (c : Fin n)
  | stop (c : Fin n)
  | tick
  | deliver
  | etimer (call : Etimers.Call w n Proc)

/-- What a call or event does. -/
def step [DecidableEq Proc] (ctimerProcess : Proc) (s : Ctimers w n numEvents Proc) :
    Event w n Proc → Ctimers w n numEvents Proc
  | .set current c t f ptr => s.set ctimerProcess current c t f ptr
  | .reset c => s.reset ctimerProcess c
  | .restart c => s.restart ctimerProcess c
  | .stop c => s.stop c
  | .tick => s.tick
  | .deliver => s.deliver ctimerProcess
  | .etimer call => { s with etimers := s.etimers.step call }

end Ctimers
end Contiki

import Contiki.Lib.Links

/-!
# The process kernel

The kernel calls the threads of the processes, and a thread may call the kernel while it runs.  The
model is a machine with a stack of the calls that have not returned: what a thread does each time it is
called is arbitrary, and the loops of the kernel, which call threads, are taken one step at a time.

A process is an element of `Fin n`.  The loop variables `q` and `p` of the source are the processes the
frames of the stack name; their next pointers are read when the loop goes on.

* `Kernel.start`, `exit`, `post`, `postSynch`, `poll` — what a thread can call.
* `Kernel.resume` — the kernel code on top of the stack goes on.
* `Kernel.ret` — the thread on top of the stack returns.
* `Kernel.step` — one of these, or a call of `process_run`.
-/

namespace Contiki

/-- The state of a process. -/
inductive ProcState where
  | none
  | running
  | called
  deriving DecidableEq

/-- The events the kernel distinguishes, and the others by their number. -/
inductive EventId where
  | init
  | poll
  | exit
  | exited
  | other (k : ℕ)
  deriving DecidableEq

/-- The data of an event: a null pointer, a process or another pointer. -/
inductive ProcessData (n : ℕ) where
  | null
  | process (p : Fin n)
  | pointer (k : ℕ)
  deriving DecidableEq

/-- An event with its data, as a thread gets it. -/
structure Msg (n : ℕ) where
  ev : EventId
  data : ProcessData n
  deriving DecidableEq

/-- `struct event_data`: an event in the queue; without a receiver it is for every process. -/
structure EventData (n : ℕ) where
  msg : Msg n
  p : Option (Fin n)
  deriving DecidableEq

/-- A call that has not returned, with the place in it that was reached. -/
inductive Frame (n : ℕ) where
  /-- The thread of a process is about to be entered. -/
  | entry (p : Fin n) (m : Msg n)
  /-- The thread of a process runs. -/
  | thread (p : Fin n) (m : Msg n)
  /-- `call_process` waits for the thread. -/
  | called (p : Fin n) (m : Msg n)
  /-- `process_post_synch` waits for `call_process`. -/
  | synch (caller : Option (Fin n))
  /-- The loop of `exit_process` is at `q`. -/
  | exitAt (p : Fin n) (fromprocess oldCurrent q : Option (Fin n))
  /-- The loop of `exit_process` waits for the call of `q`. -/
  | exitNext (p : Fin n) (fromprocess oldCurrent : Option (Fin n)) (q : Fin n)
  /-- `exit_process` is about to take the process off the list. -/
  | exitRemove (p : Fin n) (oldCurrent : Option (Fin n))
  /-- The loop of `do_poll` is at `p`. -/
  | pollAt (p : Option (Fin n))
  /-- The loop of `do_poll` waits for the call of `p`. -/
  | pollNext (p : Fin n)
  /-- The loop of `do_event` over all processes is at `p`. -/
  | castAt (m : Msg n) (p : Option (Fin n))
  /-- The loop of `do_event` is about to call `p`. -/
  | castCall (m : Msg n) (p : Fin n)
  /-- The loop of `do_event` waits for the call of `p`. -/
  | castNext (m : Msg n) (p : Fin n)
  /-- `process_run` is about to call `do_event`. -/
  | doEvent
  deriving DecidableEq

/-- The state of the kernel: the variables of `process.c`, the fields of the processes and the calls
that have not returned, the innermost first.  `hasThread` says that the thread pointer is not null. -/
structure Kernel (n numEvents : ℕ) where
  processList : Option (Fin n)
  next : Fin n → Option (Fin n)
  state : Fin n → ProcState
  needspoll : Fin n → Bool
  hasThread : Fin n → Bool
  current : Option (Fin n)
  pollRequested : Bool
  events : List (EventData n)
  stack : List (Frame n)

namespace Kernel
variable {n numEvents : ℕ}

/-- The processes on the process list. -/
def list (c : Kernel n numEvents) : List (Fin n) :=
  Links.walk c.next n c.processList

/-- A frame is put on the stack. -/
def push (c : Kernel n numEvents) (f : Frame n) : Kernel n numEvents :=
  { c with stack := f :: c.stack }

/-- `call_process`, up to the call of the thread.  Only `PROCESS_STATE_RUNNING` has the bit that is
tested. -/
def callProcess (c : Kernel n numEvents) (p : Fin n) (m : Msg n) : Kernel n numEvents :=
  if c.state p = .running ∧ c.hasThread p then
    (({ c with current := some p, state := Function.update c.state p .called } :
      Kernel n numEvents).push (.called p m)).push (.entry p m)
  else
    c

/-- The end of `exit_process`: the process is taken off the list. -/
def unlink (c : Kernel n numEvents) (p : Fin n) : Kernel n numEvents :=
  if c.processList = some p then
    { c with processList := c.next p }
  else
    match Links.before c.next p n c.processList with
    | some q => { c with next := Function.update c.next q (c.next p) }
    | none => c

instance (c : Kernel n numEvents) (p : Fin n) : Decidable (p ∈ c.list) := Links.decidableMem p c.list

/-- `exit_process`, up to its loop.  A process that is on the list but not running is only taken
off. -/
def exitProcess (c : Kernel n numEvents) (p : Fin n) (fromprocess : Option (Fin n)) :
    Kernel n numEvents :=
  if p ∈ c.list then
    if c.state p ≠ .none then
      ({ c with state := Function.update c.state p .none } : Kernel n numEvents).push
        (.exitAt p fromprocess c.current c.processList)
    else
      c.unlink p
  else
    c

def postSynch (c : Kernel n numEvents) (p : Fin n) (m : Msg n) : Kernel n numEvents :=
  (c.push (.synch c.current)).callProcess p m

/-- A process is put on the list. -/
def enlist (c : Kernel n numEvents) (p : Fin n) : Kernel n numEvents :=
  { c with
    next := Function.update c.next p c.processList
    processList := some p
    state := Function.update c.state p .running }

def start (c : Kernel n numEvents) (p : Fin n) (arg : ProcessData n) : Kernel n numEvents :=
  if p ∈ c.list then c else (c.enlist p).postSynch p ⟨.init, arg⟩

def exit (c : Kernel n numEvents) (p : Fin n) : Kernel n numEvents :=
  c.exitProcess p c.current

/-- `process_post`; a full queue leaves the event out. -/
def post (c : Kernel n numEvents) (e : EventData n) : Kernel n numEvents :=
  if c.events.length = numEvents then c else { c with events := c.events ++ [e] }

def poll (c : Kernel n numEvents) (p : Fin n) : Kernel n numEvents :=
  if c.state p = .running ∨ c.state p = .called then
    { c with needspoll := Function.update c.needspoll p true, pollRequested := true }
  else
    c

/-- `do_poll`, up to its loop. -/
def doPoll (c : Kernel n numEvents) : Kernel n numEvents :=
  ({ c with pollRequested := false } : Kernel n numEvents).push (.pollAt c.processList)

/-- `do_event`, up to its loop or its call. -/
def doEvent (c : Kernel n numEvents) : Kernel n numEvents :=
  match c.events with
  | [] => c
  | e :: events =>
    let c : Kernel n numEvents := { c with events }
    match e.p with
    | none => c.push (.castAt e.msg c.processList)
    | some receiver =>
      if e.msg.ev = .init then
        ({ c with state := Function.update c.state receiver .running } :
          Kernel n numEvents).callProcess receiver e.msg
      else
        c.callProcess receiver e.msg

def run (c : Kernel n numEvents) : Kernel n numEvents :=
  if c.pollRequested then (c.push .doEvent).doPoll else c.push .doEvent

/-- What a thread calls. -/
inductive ThreadCall (n : ℕ) where
  | start (p : Fin n) (arg : ProcessData n)
  | exit (p : Fin n)
  | post (e : EventData n)
  | postSynch (p : Fin n) (m : Msg n)
  | poll (p : Fin n)
  deriving DecidableEq

/-- A call that a thread makes. -/
def call (c : Kernel n numEvents) : ThreadCall n → Kernel n numEvents
  | .start p arg => c.start p arg
  | .exit p => c.exit p
  | .post e => c.post e
  | .postSynch p m => c.postSynch p m
  | .poll p => c.poll p

/-- How a thread returns: it waits or yields, or it exits or ends. -/
inductive PtRet where
  | yielded
  | ended
  deriving DecidableEq

/-- The steps: the kernel code goes on, the thread calls the kernel or returns, and `process_run` is
called. -/
inductive Event (n : ℕ) where
  | run
  | resume
  | call (a : ThreadCall n)
  | ret (r : PtRet)
  deriving DecidableEq

/-- The step is not possible in this state. -/
inductive NotNow where
  | notNow
  deriving DecidableEq

/-- The kernel code on top of the stack goes on; `rest` is the stack below its frame. -/
def resume (c : Kernel n numEvents) : Except NotNow (Kernel n numEvents) :=
  match c.stack with
  | .entry p m :: rest => .ok { c with stack := .thread p m :: rest }
  | .synch caller :: rest => .ok { c with current := caller, stack := rest }
  | .exitAt p fromprocess old (some q) :: rest =>
    let c : Kernel n numEvents := { c with stack := .exitNext p fromprocess old q :: rest }
    .ok (if p ≠ q then c.callProcess q ⟨.exited, .process p⟩ else c)
  | .exitAt p fromprocess old none :: rest =>
    let c : Kernel n numEvents := { c with stack := .exitRemove p old :: rest }
    .ok (if c.hasThread p ∧ some p ≠ fromprocess then
      ({ c with current := some p } : Kernel n numEvents).push (.entry p ⟨.exit, .null⟩)
    else c)
  | .exitNext p fromprocess old q :: rest =>
    .ok { c with stack := .exitAt p fromprocess old (c.next q) :: rest }
  | .exitRemove p old :: rest =>
    .ok { c.unlink p with current := old, stack := rest }
  | .pollAt (some p) :: rest =>
    let c : Kernel n numEvents := { c with stack := .pollNext p :: rest }
    .ok (if c.needspoll p then
      ({ c with
          state := Function.update c.state p .running
          needspoll := Function.update c.needspoll p false } :
        Kernel n numEvents).callProcess p ⟨.poll, .null⟩
    else c)
  | .pollAt none :: rest => .ok { c with stack := rest }
  | .pollNext p :: rest => .ok { c with stack := .pollAt (c.next p) :: rest }
  | .castAt m (some p) :: rest =>
    let c : Kernel n numEvents := { c with stack := .castCall m p :: rest }
    .ok (if c.pollRequested then c.doPoll else c)
  | .castAt _ none :: rest => .ok { c with stack := rest }
  | .castCall m p :: rest =>
    .ok (({ c with stack := .castNext m p :: rest } : Kernel n numEvents).callProcess p m)
  | .castNext m p :: rest => .ok { c with stack := .castAt m (c.next p) :: rest }
  | .doEvent :: rest => .ok ({ c with stack := rest } : Kernel n numEvents).doEvent
  | _ => .error .notNow

/-- The thread on top of the stack returns, to `call_process` or to `exit_process`, which ignores how
it returned. -/
def ret (c : Kernel n numEvents) (r : PtRet) : Except NotNow (Kernel n numEvents) :=
  match c.stack with
  | .thread _ _ :: .called p m :: rest =>
    let c : Kernel n numEvents := { c with stack := rest }
    .ok (if r = .ended ∨ m.ev = .exit then c.exitProcess p (some p)
      else { c with state := Function.update c.state p .running })
  | .thread _ _ :: .exitRemove p old :: rest =>
    .ok { c with stack := .exitRemove p old :: rest }
  | _ => .error .notNow

/-- A step of the machine. -/
def step (c : Kernel n numEvents) : Event n → Except NotNow (Kernel n numEvents)
  | .run => if c.stack = [] then .ok c.run else .error .notNow
  | .resume => c.resume
  | .call a =>
    match c.stack with
    | .thread _ _ :: _ => .ok (c.call a)
    | _ => .error .notNow
  | .ret r => c.ret r

end Kernel
end Contiki

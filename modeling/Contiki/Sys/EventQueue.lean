import Contiki.Lib.Ring
import Contiki.Lib.Run
import Contiki.Sys.Process

/-!
# The event queue

The queue of the process kernel is an array with the place of the first event and the number of events,
two counters of eight bits.  The kernel with this queue is compared with the kernel whose queue is a
list.

* `EventQueue.post`, `EventQueue.take` — what `process_post` and `do_event` do with the array.
* `EventQueue.Fifo` — the counters are within the array.
* `ArrayKernel.step`, `Kernel.queueStep` — the two kernels; `process_post` can be called at any time.
* `ArrayKernel.refines` — a step of the one is a step of the other.
* `eventQueue_fifo` — what was accepted is what was taken out and what is still there, in this order.
-/

namespace Contiki

/-- What `process_post` returns: `PROCESS_ERR_OK` or `PROCESS_ERR_FULL`. -/
inductive PostResult
  | ok
  | full
deriving DecidableEq

/-- `events`, `fevent` and `nevents`. -/
structure EventQueue (n numEvents : ℕ) where
  events : ℕ → EventData n
  fevent : UInt8
  nevents : UInt8

namespace EventQueue
variable {n numEvents : ℕ} (q : EventQueue n numEvents)

/-- `snum`: the sum is cast to eight bits before it is reduced. -/
def snum : ℕ := (q.fevent + q.nevents).toNat % numEvents

def post (e : EventData n) : PostResult × EventQueue n numEvents :=
  if q.nevents.toNat = numEvents then (.full, q)
  else
    (.ok, { q with events := Function.update q.events q.snum e, nevents := q.nevents + 1 })

/-- The start of `do_event`: the first event is taken out of the queue. -/
def take : Option (EventData n × EventQueue n numEvents) :=
  if q.nevents > 0 then
    some (q.events q.fevent.toNat,
      { q with
        fevent := UInt8.ofNat ((q.fevent.toNat + 1) % numEvents)
        nevents := q.nevents - 1 })
  else none

/-- The events in the queue, the first one first. -/
def contents : List (EventData n) := ring numEvents q.events q.fevent.toNat q.nevents.toNat

/-- The first event is in the array, and there are no more events than places. -/
structure Fifo : Prop where
  first : q.fevent.toNat < numEvents
  length : q.nevents.toNat ≤ numEvents
  size : numEvents ≤ 128

/-- `process_init`. -/
structure Fresh : Prop where
  fevent : q.fevent = 0
  nevents : q.nevents = 0

variable {q}

lemma Fresh.fifo (h : q.Fresh) (hpos : 1 ≤ numEvents) (hsize : numEvents ≤ 128) : q.Fifo where
  first := by
    rw [h.fevent]
    exact hpos
  length := by
    rw [h.nevents]
    exact Nat.zero_le _
  size := hsize

lemma Fresh.contents (h : q.Fresh) : q.contents = [] := by
  unfold EventQueue.contents
  rw [ring_eq_nil_iff, h.nevents]
  rfl

/-- The sum of the two counters does not wrap while there is room. -/
lemma Fifo.snum_eq (h : q.Fifo) : q.snum = (q.fevent.toNat + q.nevents.toNat) % numEvents := by
  have hfirst := h.first
  have hlength := h.length
  have hsize := h.size
  unfold snum
  rw [UInt8.toNat_add, Nat.mod_eq_of_lt (show q.fevent.toNat + q.nevents.toNat < 2 ^ 8 by omega)]

lemma length_contents : q.contents.length = q.nevents.toNat := length_ring

/-- A post is refused by a full queue, and appends the event otherwise. -/
lemma Fifo.post_cases (h : q.Fifo) (e : EventData n) :
    q.contents.length = numEvents ∧ q.post e = (.full, q) ∨
      q.contents.length < numEvents ∧ ∃ q', q.post e = (.ok, q') ∧ q'.Fifo ∧
        q'.contents = q.contents ++ [e] := by
  have hfirst := h.first
  have hlength := h.length
  have hsize := h.size
  rw [length_contents]
  unfold post
  split_ifs with hfull
  · exact .inl ⟨hfull, rfl⟩
  · have hroom : q.nevents.toNat < numEvents := by omega
    have hcount : (q.nevents + 1).toNat = q.nevents.toNat + 1 := by
      rw [UInt8.toNat_add, UInt8.toNat_one]
      omega
    refine .inr ⟨hroom, _, rfl, ⟨hfirst, ?_, hsize⟩, ?_⟩
    · show (q.nevents + 1).toNat ≤ numEvents
      omega
    · unfold contents
      dsimp only
      rw [hcount, h.snum_eq]
      exact ring_update hroom e

/-- Nothing is taken out of an empty queue; otherwise it is the first event. -/
lemma Fifo.take_cases (h : q.Fifo) :
    q.contents = [] ∧ q.take = none ∨
      ∃ e q', q.take = some (e, q') ∧ q'.Fifo ∧ q.contents = e :: q'.contents := by
  have hfirst := h.first
  have hlength := h.length
  have hsize := h.size
  have hpos : q.nevents > 0 ↔ 0 < q.nevents.toNat := Iff.rfl
  unfold take
  split_ifs with hany
  · rw [hpos] at hany
    have hcount : (q.nevents - 1).toNat = q.nevents.toNat - 1 :=
      UInt8.toNat_sub_of_le q.nevents 1 hany
    have hnext : (UInt8.ofNat ((q.fevent.toNat + 1) % numEvents)).toNat =
        (q.fevent.toNat + 1) % numEvents := by
      have hlt := Nat.mod_lt (q.fevent.toNat + 1) (show 0 < numEvents by omega)
      exact UInt8.toNat_ofNat_of_lt' (show _ < 256 by omega)
    refine .inr ⟨_, _, rfl, ⟨?_, ?_, hsize⟩, ?_⟩
    · dsimp only
      rw [hnext]
      exact Nat.mod_lt _ (by omega)
    · dsimp only
      rw [hcount]
      omega
    · unfold contents
      dsimp only
      rw [hcount, hnext, ← ring_succ hfirst]
      congr 1
      omega
  · refine .inl ⟨?_, rfl⟩
    unfold contents
    rw [ring_eq_nil_iff]
    rw [hpos] at hany
    omega

end EventQueue

/-! ## The kernel with the array -/

/-- What happens to the queue: an event is posted, accepted or not, or it is taken out. -/
inductive QueueOutput (n : ℕ)
  | posted (e : EventData n) (result : PostResult)
  | taken (e : EventData n)
deriving DecidableEq

/-- The steps: a step of the kernel, or a call of `process_post` from elsewhere. -/
inductive QueueStep (n : ℕ)
  | kernel (ev : Kernel.Event n)
  | post (e : EventData n)

namespace Kernel
variable {n numEvents : ℕ} (c : Kernel n numEvents)

/-- The queue gets another content. -/
def withEvents (events : List (EventData n)) : Kernel n numEvents := { c with events }

/-- `do_event` behind the queue: the event is delivered. -/
def deliver (e : EventData n) : Kernel n numEvents :=
  match e.p with
  | none => c.push (.castAt e.msg c.processList)
  | some receiver =>
    if e.msg.ev = .init then
      ({ c with state := Function.update c.state receiver .running } :
        Kernel n numEvents).callProcess receiver e.msg
    else
      c.callProcess receiver e.msg

/-- What the queue does in a step, when it is a list. -/
def queueOutput : QueueStep n → Option (QueueOutput n)
  | .post e => some (.posted e (if c.events.length = numEvents then .full else .ok))
  | .kernel (.call (.post e)) => some (.posted e (if c.events.length = numEvents then .full else .ok))
  | .kernel .resume =>
    match c.stack with
    | .doEvent :: _ => c.events.head?.map .taken
    | _ => none
  | _ => none

/-- A step of the kernel whose queue is a list. -/
def queueStep (ev : QueueStep n) : Except NotNow (Option (QueueOutput n) × Kernel n numEvents) :=
  match ev with
  | .post e => .ok (c.queueOutput ev, c.post e)
  | .kernel k => (c.step k).map fun c' => (c.queueOutput ev, c')

end Kernel

/-- The kernel with the array as its queue; the list in `kernel` is not used. -/
structure ArrayKernel (n numEvents : ℕ) where
  kernel : Kernel n numEvents
  queue : EventQueue n numEvents

namespace ArrayKernel
variable {n numEvents : ℕ} (c : ArrayKernel n numEvents)

def post (e : EventData n) : Option (QueueOutput n) × ArrayKernel n numEvents :=
  let (result, queue) := c.queue.post e
  (some (.posted e result), { c with queue })

/-- `do_event`, up to its loop or its call. -/
def doEvent : Option (QueueOutput n) × ArrayKernel n numEvents :=
  match c.queue.take with
  | none => (none, c)
  | some (e, queue) => (some (.taken e), ⟨c.kernel.deliver e, queue⟩)

/-- A step of the kernel. -/
def step : QueueStep n → Except Kernel.NotNow (Option (QueueOutput n) × ArrayKernel n numEvents)
  | .post e => .ok (c.post e)
  | .kernel (.call (.post e)) =>
    match c.kernel.stack with
    | .thread _ _ :: _ => .ok (c.post e)
    | _ => .error .notNow
  | .kernel .resume =>
    match c.kernel.stack with
    | .doEvent :: rest => .ok (doEvent { c with kernel := { c.kernel with stack := rest } })
    | _ => c.kernel.resume.map fun kernel => (none, { c with kernel })
  | .kernel ev => (c.kernel.step ev).map fun kernel => (none, { c with kernel })

/-- The kernel as it is with the events of the array in a list. -/
def view : Kernel n numEvents := c.kernel.withEvents c.queue.contents

end ArrayKernel

/-! ## What the kernel does beside the queue -/

namespace Kernel
variable {n numEvents : ℕ} {c : Kernel n numEvents} {l : List (EventData n)}

lemma callProcess_withEvents (p : Fin n) (m : Msg n) :
    (c.withEvents l).callProcess p m = (c.callProcess p m).withEvents l := by
  unfold callProcess
  by_cases h : c.state p = .running ∧ c.hasThread p = true
  · rw [if_pos h]
    exact if_pos h
  · rw [if_neg h]
    exact if_neg h

lemma unlink_withEvents (p : Fin n) : (c.withEvents l).unlink p = (c.unlink p).withEvents l := by
  unfold unlink
  by_cases h : c.processList = some p
  · rw [if_pos h]
    exact if_pos h
  · rw [if_neg h]
    refine (if_neg h).trans ?_
    have hbefore : Links.before (c.withEvents l).next p n (c.withEvents l).processList =
        Links.before c.next p n c.processList := rfl
    rw [hbefore]
    cases Links.before c.next p n c.processList with
    | none => rfl
    | some q => rfl

lemma exitProcess_withEvents (p : Fin n) (fromprocess : Option (Fin n)) :
    (c.withEvents l).exitProcess p fromprocess = (c.exitProcess p fromprocess).withEvents l := by
  unfold exitProcess
  by_cases hlist : p ∈ c.list
  · rw [if_pos hlist]
    refine (if_pos hlist).trans ?_
    by_cases hstate : c.state p ≠ .none
    · rw [if_pos hstate]
      exact if_pos hstate
    · rw [if_neg hstate]
      exact (if_neg hstate).trans (unlink_withEvents p)
  · rw [if_neg hlist]
    exact if_neg hlist

lemma postSynch_withEvents (p : Fin n) (m : Msg n) :
    (c.withEvents l).postSynch p m = (c.postSynch p m).withEvents l :=
  callProcess_withEvents (c := c.push (.synch c.current)) p m

lemma start_withEvents (p : Fin n) (arg : ProcessData n) :
    (c.withEvents l).start p arg = (c.start p arg).withEvents l := by
  unfold start
  by_cases hlist : p ∈ c.list
  · rw [if_pos hlist]
    exact if_pos hlist
  · rw [if_neg hlist]
    exact (if_neg hlist).trans (postSynch_withEvents (c := c.enlist p) p _)

lemma poll_withEvents (p : Fin n) : (c.withEvents l).poll p = (c.poll p).withEvents l := by
  unfold poll
  by_cases h : c.state p = .running ∨ c.state p = .called
  · rw [if_pos h]
    exact if_pos h
  · rw [if_neg h]
    exact if_neg h

lemma run_withEvents : (c.withEvents l).run = c.run.withEvents l := by
  unfold run
  by_cases h : c.pollRequested
  · rw [if_pos h]
    exact if_pos h
  · rw [if_neg h]
    exact if_neg h

lemma deliver_withEvents (e : EventData n) : (c.withEvents l).deliver e = (c.deliver e).withEvents l := by
  unfold deliver
  cases e.p with
  | none => rfl
  | some receiver =>
    dsimp only
    by_cases h : e.msg.ev = .init
    · rw [if_pos h, if_pos h]
      exact callProcess_withEvents (c := { c with state := Function.update c.state receiver .running })
        receiver e.msg
    · rw [if_neg h, if_neg h]
      exact callProcess_withEvents receiver e.msg

/-- Calls other than `process_post` do not see the queue. -/
lemma call_withEvents {a : ThreadCall n} (ha : ∀ e, a ≠ .post e) :
    (c.withEvents l).call a = (c.call a).withEvents l := by
  cases a with
  | start p arg => exact start_withEvents p arg
  | exit p => exact exitProcess_withEvents p _
  | post e => exact absurd rfl (ha e)
  | postSynch p m => exact postSynch_withEvents p m
  | poll p => exact poll_withEvents p

/-- A branch of the kernel, both of whose cases do not see the queue. -/
lemma ok_ite_withEvents {P : Prop} [Decidable P] {a b a' b' : Kernel n numEvents}
    (ha : a' = a.withEvents l) (hb : b' = b.withEvents l) :
    (Except.ok (if P then a' else b') : Except NotNow (Kernel n numEvents)) =
      (Except.ok (if P then a else b)).map fun c' => c'.withEvents l := by
  rw [ha, hb]
  by_cases h : P
  · rw [if_pos h, if_pos h]
    rfl
  · rw [if_neg h, if_neg h]
    rfl

/-- What goes on in the kernel, other than `do_event`, does not see the queue. -/
lemma resume_withEvents (h : ∀ rest, c.stack ≠ .doEvent :: rest) :
    (c.withEvents l).resume = c.resume.map fun c' => c'.withEvents l := by
  have hstack : (c.withEvents l).stack = c.stack := rfl
  unfold resume
  rw [hstack]
  cases hc : c.stack with
  | nil => rfl
  | cons f rest =>
    cases f with
    | exitAt p fromprocess old q =>
      cases q with
      | none => exact ok_ite_withEvents rfl rfl
      | some q =>
        refine ok_ite_withEvents ?_ rfl
        exact callProcess_withEvents (c := { c with stack := .exitNext p fromprocess old q :: rest }) q _
    | exitRemove p old =>
      refine congrArg Except.ok ?_
      rw [unlink_withEvents]
      rfl
    | pollAt p =>
      cases p with
      | none => rfl
      | some p =>
        refine ok_ite_withEvents ?_ rfl
        exact callProcess_withEvents (c := { c with
          stack := .pollNext p :: rest
          state := Function.update c.state p .running
          needspoll := Function.update c.needspoll p false }) p _
    | castAt m p =>
      cases p with
      | none => rfl
      | some p => exact ok_ite_withEvents rfl rfl
    | castCall m p =>
      refine congrArg Except.ok ?_
      exact callProcess_withEvents (c := { c with stack := .castNext m p :: rest }) p m
    | doEvent => exact absurd hc (h rest)
    | _ => rfl

lemma ret_withEvents (r : PtRet) : (c.withEvents l).ret r = (c.ret r).map fun c' => c'.withEvents l := by
  have hstack : (c.withEvents l).stack = c.stack := rfl
  unfold ret
  rw [hstack]
  cases c.stack with
  | nil => rfl
  | cons f rest =>
    cases rest with
    | nil => cases f <;> rfl
    | cons g rest =>
      cases f with
      | thread p m =>
        cases g with
        | called q m' =>
          refine ok_ite_withEvents ?_ rfl
          exact exitProcess_withEvents (c := { c with stack := rest }) q (some q)
        | _ => rfl
      | _ => rfl

/-- A step in which nothing is posted or taken out does not see the queue. -/
lemma step_withEvents {ev : Event n} (hpost : ∀ e, ev ≠ .call (.post e))
    (hevent : ev = .resume → ∀ rest, c.stack ≠ .doEvent :: rest) :
    (c.withEvents l).step ev = (c.step ev).map fun c' => c'.withEvents l := by
  have hstack : (c.withEvents l).stack = c.stack := rfl
  cases ev with
  | run =>
    unfold step
    rw [hstack]
    by_cases hidle : c.stack = []
    · rw [if_pos hidle, if_pos hidle]
      exact congrArg Except.ok run_withEvents
    · rw [if_neg hidle, if_neg hidle]
      rfl
  | resume => exact resume_withEvents (hevent rfl)
  | call a =>
    have hcall : (c.withEvents l).call a = (c.call a).withEvents l :=
      call_withEvents fun e he => hpost e (congrArg Event.call he)
    unfold step
    rw [hstack]
    cases c.stack with
    | nil => rfl
    | cons f rest =>
      cases f with
      | thread p m => exact congrArg Except.ok hcall
      | _ => rfl
  | ret r => exact ret_withEvents r

end Kernel

/-! ## Refinement -/

namespace QueueOutput
variable {n : ℕ}

/-- The event of an output that says that it was accepted. -/
def accepted? : QueueOutput n → Option (EventData n)
  | posted e .ok => some e
  | _ => none

/-- The event of an output that says that it was taken out. -/
def taken? : QueueOutput n → Option (EventData n)
  | taken e => some e
  | _ => none

end QueueOutput

/-- A queue changes as an output says: an accepted event goes to its end, a refused one leaves it as it is,
and what is taken out was the first event. -/
def QueueMoves {n : ℕ} (l l' : List (EventData n)) : Option (QueueOutput n) → Prop
  | none => l' = l
  | some (.posted e .ok) => l' = l ++ [e]
  | some (.posted _ .full) => l' = l
  | some (.taken e) => l = e :: l'

namespace ArrayKernel
variable {n numEvents : ℕ} {c : ArrayKernel n numEvents}

/-- What a step of the kernel with the array is: a step of the kernel with the list, with the output that the
list has. -/
structure Refines (c : ArrayKernel n numEvents) (ev : QueueStep n) (o : Option (QueueOutput n))
    (c' : ArrayKernel n numEvents) : Prop where
  step : c.view.queueStep ev = .ok (o, c'.view)
  fifo : c'.queue.Fifo
  moves : QueueMoves c.queue.contents c'.queue.contents o

/-- `process_post` on the array is `process_post` on the list. -/
lemma post_view (h : c.queue.Fifo) (e : EventData n) :
    (c.view.queueOutput (.post e), c.view.post e) = ((c.post e).1, (c.post e).2.view) ∧
      (c.post e).2.queue.Fifo ∧ QueueMoves c.queue.contents (c.post e).2.queue.contents (c.post e).1 := by
  have hout : c.view.queueOutput (.post e) =
      some (.posted e (if c.queue.contents.length = numEvents then .full else .ok)) := rfl
  have hpost : c.view.post e = if c.queue.contents.length = numEvents then c.view
      else c.kernel.withEvents (c.queue.contents ++ [e]) := rfl
  rw [hout, hpost]
  unfold post
  rcases h.post_cases e with ⟨hfull, heq⟩ | ⟨hroom, q', heq, hfifo, hcontents⟩
  · rw [heq, if_pos hfull, if_pos hfull]
    exact ⟨rfl, h, rfl⟩
  · rw [heq, if_neg hroom.ne, if_neg hroom.ne]
    refine ⟨?_, hfifo, hcontents⟩
    rw [← hcontents]
    rfl

/-- The kernel with the list, when `do_event` runs. -/
lemma doEvent_view {rest : List (Frame n)} (h : c.queue.Fifo) (hstack : c.kernel.stack = .doEvent :: rest) :
    c.Refines (.kernel .resume)
      (doEvent { c with kernel := { c.kernel with stack := rest } }).1
      (doEvent { c with kernel := { c.kernel with stack := rest } }).2 := by
  have hview : c.view.stack = .doEvent :: rest := hstack
  have hstep : c.view.queueStep (.kernel .resume) = .ok (c.queue.contents.head?.map .taken,
      (({ c.kernel with stack := rest } : Kernel n numEvents).withEvents c.queue.contents).doEvent) := by
    unfold Kernel.queueStep Kernel.queueOutput Kernel.step Kernel.resume
    rw [hview]
    rfl
  unfold doEvent
  rcases h.take_cases with ⟨hempty, heq⟩ | ⟨e, q', heq, hfifo, hcontents⟩
  · rw [heq]
    refine ⟨?_, h, rfl⟩
    rw [hstep, hempty]
    unfold view
    rw [hempty]
    rfl
  · rw [heq]
    refine ⟨?_, hfifo, hcontents⟩
    rw [hstep, hcontents]
    exact congrArg (fun k => Except.ok (some (QueueOutput.taken e), k))
      (Kernel.deliver_withEvents (c := { c.kernel with stack := rest }) e)

/-- A step of the kernel in which nothing is posted or taken out. -/
lemma quiet_view {ev : Kernel.Event n} (h : c.queue.Fifo) (hpost : ∀ e, ev ≠ .call (.post e))
    (hevent : ev = .resume → ∀ rest, c.kernel.stack ≠ .doEvent :: rest) {k : Kernel n numEvents}
    (hk : c.kernel.step ev = .ok k) : c.Refines (.kernel ev) none { c with kernel := k } := by
  refine ⟨?_, h, rfl⟩
  have hout : c.view.queueOutput (.kernel ev) = none := by
    cases ev with
    | run => rfl
    | ret r => rfl
    | call a =>
      cases a with
      | post e => exact absurd rfl (hpost e)
      | _ => rfl
    | resume =>
      have hstack : c.view.stack = c.kernel.stack := rfl
      unfold Kernel.queueOutput
      rw [hstack]
      cases hc : c.kernel.stack with
      | nil => rfl
      | cons f rest =>
        cases f with
        | doEvent => exact absurd hc (hevent rfl rest)
        | _ => rfl
  have hstep : c.view.step ev = .ok (k.withEvents c.queue.contents) := by
    have hframe := Kernel.step_withEvents (l := c.queue.contents) hpost hevent
    rw [hk] at hframe
    exact hframe
  unfold Kernel.queueStep
  dsimp only
  rw [hout, hstep]
  rfl

/-- A step that does not touch the array. -/
lemma quiet_of_map {ev : Kernel.Event n} (h : c.queue.Fifo) (hpost : ∀ e, ev ≠ .call (.post e))
    (hevent : ev = .resume → ∀ rest, c.kernel.stack ≠ .doEvent :: rest) {o : Option (QueueOutput n)}
    {c' : ArrayKernel n numEvents}
    (hstep : ((c.kernel.step ev).map fun kernel => (none, { c with kernel })) =
      (.ok (o, c') : Except Kernel.NotNow (Option (QueueOutput n) × ArrayKernel n numEvents))) :
    c.Refines (.kernel ev) o c' := by
  cases hk : c.kernel.step ev with
  | error f =>
    rw [hk] at hstep
    cases hstep
  | ok k =>
    rw [hk] at hstep
    cases hstep
    exact quiet_view h hpost hevent hk

/-- A step of the kernel with the array is a step of the kernel with the list. -/
theorem refines (h : c.queue.Fifo) {ev : QueueStep n} {o : Option (QueueOutput n)}
    {c' : ArrayKernel n numEvents} (hstep : c.step ev = .ok (o, c')) : c.Refines ev o c' := by
  have hview : c.view.stack = c.kernel.stack := rfl
  cases ev with
  | post e =>
    obtain ⟨hpost, hfifo, hmoves⟩ := post_view h e
    have hres : c.post e = (o, c') := Except.ok.inj hstep
    rw [hres] at hpost hfifo hmoves
    exact ⟨congrArg Except.ok hpost, hfifo, hmoves⟩
  | kernel ev =>
    cases ev with
    | run => exact quiet_of_map h (by simp) (by simp) hstep
    | ret r => exact quiet_of_map h (by simp) (by simp) hstep
    | call a =>
      cases a with
      | post e =>
        unfold step at hstep
        cases hc : c.kernel.stack with
        | nil =>
          rw [hc] at hstep
          cases hstep
        | cons f rest =>
          rw [hc] at hstep
          cases f with
          | thread p m =>
            obtain ⟨hpost, hfifo, hmoves⟩ := post_view h e
            have hres : c.post e = (o, c') := Except.ok.inj hstep
            rw [hres] at hpost hfifo hmoves
            refine ⟨?_, hfifo, hmoves⟩
            have hcall : c.view.step (.call (.post e)) = .ok (c.view.post e) := by
              unfold Kernel.step
              rw [hview, hc]
              rfl
            unfold Kernel.queueStep
            dsimp only
            rw [hcall]
            exact congrArg Except.ok hpost
          | _ => cases hstep
      | start p arg => exact quiet_of_map h (by simp) (by simp) hstep
      | exit p => exact quiet_of_map h (by simp) (by simp) hstep
      | postSynch p m => exact quiet_of_map h (by simp) (by simp) hstep
      | poll p => exact quiet_of_map h (by simp) (by simp) hstep
    | resume =>
      by_cases hevent : ∀ rest, c.kernel.stack ≠ .doEvent :: rest
      · refine quiet_of_map h (by simp) (fun _ => hevent) ?_
        rw [← hstep]
        unfold step
        cases hc : c.kernel.stack with
        | nil => rfl
        | cons f rest =>
          cases f with
          | doEvent => exact absurd hc (hevent rest)
          | _ => rfl
      · obtain ⟨rest, hrest⟩ : ∃ rest, c.kernel.stack = .doEvent :: rest := by
          simpa using hevent
        have hdo := doEvent_view h hrest
        unfold step at hstep
        rw [hrest] at hstep
        have hres := Except.ok.inj hstep
        rw [hres] at hdo
        exact hdo

end ArrayKernel

/-! ## Runs -/

/-- A run of the kernel whose queue is a list, with the outputs of the queue. -/
def Kernel.queueRun {n numEvents : ℕ} :
    Kernel n numEvents → List (QueueStep n) → Except NotNow (List (QueueOutput n) × Kernel n numEvents)
  | c, [] => .ok ([], c)
  | c, ev :: evs => do
    let (o, c) ← c.queueStep ev
    let (outs, c) ← queueRun c evs
    .ok (o.toList ++ outs, c)

namespace ArrayKernel
variable {n numEvents : ℕ}

/-- A run of the kernel with the array, with the outputs of the queue. -/
def run : ArrayKernel n numEvents → List (QueueStep n) →
    Except Kernel.NotNow (List (QueueOutput n) × ArrayKernel n numEvents)
  | c, [] => .ok ([], c)
  | c, ev :: evs => do
    let (o, c) ← c.step ev
    let (outs, c) ← run c evs
    .ok (o.toList ++ outs, c)

/-- The events that were accepted, and those that were taken out. -/
def accepted (outs : List (QueueOutput n)) : List (EventData n) := outs.filterMap QueueOutput.accepted?

def takenOut (outs : List (QueueOutput n)) : List (EventData n) := outs.filterMap QueueOutput.taken?

/-- The first step of a run, and the rest. -/
lemma run_cons {c c'' : ArrayKernel n numEvents} {ev : QueueStep n} {evs : List (QueueStep n)}
    {outs : List (QueueOutput n)} (h : c.run (ev :: evs) = .ok (outs, c'')) :
    ∃ o c' rest, c.step ev = .ok (o, c') ∧ c'.run evs = .ok (rest, c'') ∧ outs = o.toList ++ rest := by
  unfold run at h
  cases hstep : c.step ev with
  | error f =>
    rw [hstep] at h
    cases h
  | ok res =>
    obtain ⟨o, c'⟩ := res
    rw [hstep] at h
    cases hrest : c'.run evs with
    | error f =>
      have hbad : (Except.error f : Except Kernel.NotNow (List (QueueOutput n) × ArrayKernel n numEvents)) =
          .ok (outs, c'') := by
        rw [← h]
        show _ = Except.bind (c'.run evs) _
        rw [hrest]
        rfl
      cases hbad
    | ok res =>
      obtain ⟨rest, c₂⟩ := res
      have hgood : (Except.ok (o.toList ++ rest, c₂) :
          Except Kernel.NotNow (List (QueueOutput n) × ArrayKernel n numEvents)) = .ok (outs, c'') := by
        rw [← h]
        show _ = Except.bind (c'.run evs) _
        rw [hrest]
        rfl
      cases hgood
      exact ⟨o, c', rest, rfl, hrest, rfl⟩

/-- What one output adds to the events that were accepted and to those that were taken out. -/
lemma account_moves {l l' l'' : List (EventData n)} {o : Option (QueueOutput n)}
    {outs : List (QueueOutput n)} (h : QueueMoves l l' o)
    (hrest : l' ++ accepted outs = takenOut outs ++ l'') :
    l ++ accepted (o.toList ++ outs) = takenOut (o.toList ++ outs) ++ l'' := by
  cases o with
  | none =>
    obtain rfl : l' = l := h
    exact hrest
  | some o =>
    cases o with
    | posted e result =>
      cases result with
      | ok =>
        obtain rfl : l' = l ++ [e] := h
        rw [List.append_assoc] at hrest
        exact hrest
      | full =>
        obtain rfl : l' = l := h
        exact hrest
    | taken e =>
      obtain rfl : l = e :: l' := h
      exact congrArg (List.cons e) hrest

/-- What is in the queue and what is accepted is what is taken out and what is then in the queue, by
induction on the run. -/
lemma run_spec {c c' : ArrayKernel n numEvents} {evs : List (QueueStep n)} {outs : List (QueueOutput n)}
    (h : c.queue.Fifo) (hrun : c.run evs = .ok (outs, c')) :
    c.view.queueRun evs = .ok (outs, c'.view) ∧ c'.queue.Fifo ∧
      c.queue.contents ++ accepted outs = takenOut outs ++ c'.queue.contents := by
  induction evs generalizing c outs with
  | nil =>
    cases hrun
    exact ⟨rfl, h, by simp [accepted, takenOut]⟩
  | cons ev evs ih =>
    obtain ⟨o, c₁, rest, hstep, hrest, rfl⟩ := run_cons hrun
    have href := refines h hstep
    obtain ⟨hview, hfifo, haccount⟩ := ih href.fifo hrest
    refine ⟨?_, hfifo, account_moves href.moves haccount⟩
    unfold Kernel.queueRun
    rw [href.step]
    show Except.bind (c₁.view.queueRun evs) _ = _
    rw [hview]
    rfl

end ArrayKernel

/-- A kernel that starts with an empty queue of a size from 1 to 128, on any run: it does what the kernel
with a list does; what was accepted is what was taken out, in this order, and what is still in the queue;
and an event that is posted then is refused by a full queue, which stays as it is, and goes to the end of
any other one. -/
theorem eventQueue_fifo {n numEvents : ℕ} (hpos : 1 ≤ numEvents) (hsize : numEvents ≤ 128)
    {c c' : ArrayKernel n numEvents} (hfresh : c.queue.Fresh) {evs : List (QueueStep n)}
    {outs : List (QueueOutput n)} (hrun : c.run evs = .ok (outs, c')) :
    c.view.queueRun evs = .ok (outs, c'.view) ∧
      ArrayKernel.accepted outs = ArrayKernel.takenOut outs ++ c'.queue.contents ∧
      c'.queue.contents.length ≤ numEvents ∧
      ∀ e, c'.queue.contents.length = numEvents ∧ c'.queue.post e = (.full, c'.queue) ∨
        c'.queue.contents.length < numEvents ∧ (c'.queue.post e).1 = .ok ∧
          (c'.queue.post e).2.contents = c'.queue.contents ++ [e] := by
  obtain ⟨hview, hfifo, haccount⟩ := ArrayKernel.run_spec (hfresh.fifo hpos hsize) hrun
  rw [hfresh.contents, List.nil_append] at haccount
  refine ⟨hview, haccount, ?_, fun e => ?_⟩
  · rw [EventQueue.length_contents]
    exact hfifo.length
  · refine (hfifo.post_cases e).imp_right ?_
    rintro ⟨hroom, q', heq, -, hcontents⟩
    rw [heq]
    exact ⟨hroom, rfl, hcontents⟩

/-- A kernel without processes that has a queue for one event. -/
def ArrayKernel.bare : ArrayKernel 1 1 where
  kernel := ⟨none, fun _ => none, fun _ => .none, fun _ => false, fun _ => false, none, false, [], []⟩
  queue := ⟨fun _ => ⟨⟨.init, .null⟩, none⟩, 0, 0⟩

/-- The second post is refused, the third one is accepted when the first event was taken out. -/
theorem eventQueue_fifo_bare :
    ∃ c', ArrayKernel.bare.run [.post ⟨⟨.other 1, .null⟩, none⟩, .post ⟨⟨.other 2, .null⟩, none⟩,
        .kernel .run, .kernel .resume, .post ⟨⟨.other 3, .null⟩, none⟩] =
          .ok ([.posted ⟨⟨.other 1, .null⟩, none⟩ .ok, .posted ⟨⟨.other 2, .null⟩, none⟩ .full,
            .taken ⟨⟨.other 1, .null⟩, none⟩, .posted ⟨⟨.other 3, .null⟩, none⟩ .ok], c') ∧
      c'.queue.contents = [⟨⟨.other 3, .null⟩, none⟩] := by
  obtain ⟨⟨outs, c'⟩, hrun, houts⟩ := exists_ok_of_map (f := Prod.fst)
    (x := ArrayKernel.bare.run [.post ⟨⟨.other 1, .null⟩, none⟩, .post ⟨⟨.other 2, .null⟩, none⟩,
      .kernel .run, .kernel .resume, .post ⟨⟨.other 3, .null⟩, none⟩])
    (b := [.posted ⟨⟨.other 1, .null⟩, none⟩ .ok, .posted ⟨⟨.other 2, .null⟩, none⟩ .full,
      .taken ⟨⟨.other 1, .null⟩, none⟩, .posted ⟨⟨.other 3, .null⟩, none⟩ .ok]) rfl
  dsimp only at houts
  subst houts
  have hfifo := (eventQueue_fifo (Nat.le_refl 1) (by decide) ⟨rfl, rfl⟩ hrun).2.1
  exact ⟨c', hrun, (List.cons.inj hfifo).2.symm⟩

end Contiki

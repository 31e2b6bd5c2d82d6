import Contiki.Lib.Run
import Contiki.Sys.ProcessFrames

/-!
# The process list

`Kernel.Sound` relates the process list, the states of the processes and the calls on the stack.  The
lemmas say that each part of a step keeps it, as long as the threads behave.

* `Kernel.Behaves` — what the threads must not do.
* `Kernel.processes_sound` — the process list and the deliveries, in runs of such steps.
-/

namespace Contiki
namespace Kernel
open Contiki.Frame
variable {n numEvents : ℕ} {c c' : Kernel n numEvents} {p x : Fin n} {m : Msg n} {f g : Frame n}
  {rest : List (Frame n)}

/-- The process list is linked, and the states agree with it and with the calls on the stack. -/
structure Sound (c : Kernel n numEvents) : Prop where
  linked : Links.Linked c.next c.processList c.list
  frames : WellFormed c.stack
  running : ∀ p, c.state p = .running → p ∈ c.list ∧ p ∉ actives c.stack
  called : ∀ p, c.state p = .called → p ∈ c.list ∧ p ∈ actives c.stack
  leaving : ∀ p, c.state p = .none → p ∈ c.list → p ∈ exitings c.stack
  exiting : ∀ p ∈ exitings c.stack, c.state p = .none ∧ p ∈ c.list
  active : ∀ p ∈ actives c.stack, p ∈ c.list ∨ ∃ m, c.stack.head? = some (.thread p m)
  current : ∀ p m, c.stack.head? = some (.entry p m) ∨ c.stack.head? = some (.thread p m) →
    c.current = some p
  polled : ∀ p, .pollNext p ∈ c.stack → p ∈ c.list ∨
    (∀ q, c.next p = some q → q ∈ c.list) ∧
      (c.stack.head? = some (.pollNext p) ∨ ∃ m, c.stack.head? = some (.thread p m))
  pollAt : ∀ p, c.stack.head? = some (.pollAt (some p)) → p ∈ c.list

lemma list_eq {l : List (Fin n)} (h : Links.Linked c.next c.processList l) : c.list = l :=
  h.walk_eq (by simpa using h.length_le)

lemma Sound.length_le (h : c.Sound) : c.list.length ≤ n := by
  simpa using h.linked.length_le

/-- While no thread is on top, the threads that have not returned are those of listed processes. -/
lemma Sound.listed (h : c.Sound) (hhead : ∀ p m, c.stack.head? ≠ some (.thread p m)) :
    ∀ p ∈ actives c.stack, p ∈ c.list := fun p hp =>
  (h.active p hp).resolve_right fun ⟨m, hm⟩ => hhead p m hm

/-- Other fields do not matter. -/
lemma Sound.congr (h : c.Sound) (hlist : c'.processList = c.processList) (hnext : c'.next = c.next)
    (hstate : c'.state = c.state) (hcurrent : c'.current = c.current) (hstack : c'.stack = c.stack) :
    c'.Sound := by
  obtain ⟨processList, next, state, needspoll, hasThread, current, pollRequested, events, stack⟩ := c'
  dsimp only at hlist hnext hstate hcurrent hstack
  subst hlist hnext hstate hcurrent hstack
  exact ⟨h.linked, h.frames, h.running, h.called, h.leaving, h.exiting, h.active, h.current, h.polled,
    h.pollAt⟩

/-- Frames that are no calls of threads or exits come and go. -/
lemma Sound.restack (h : c.Sound) (hlist : c'.processList = c.processList) (hnext : c'.next = c.next)
    (hstate : c'.state = c.state) (hframes : WellFormed c'.stack)
    (hactives : actives c'.stack = actives c.stack)
    (hexitings : exitings c'.stack = exitings c.stack)
    (hactive : ∀ p ∈ actives c.stack, p ∈ c.list)
    (hcurrent : ∀ p m, c'.stack.head? = some (.entry p m) ∨ c'.stack.head? = some (.thread p m) →
      c'.current = some p)
    (hpolled : ∀ p, .pollNext p ∈ c'.stack → p ∈ c.list ∨
      (∀ q, c.next p = some q → q ∈ c.list) ∧ c'.stack.head? = some (.pollNext p))
    (hpollAt : ∀ p, c'.stack.head? = some (.pollAt (some p)) → p ∈ c.list) : c'.Sound := by
  have heq : c'.list = c.list := by
    unfold list
    rw [hnext, hlist]
  refine ⟨?_, hframes, ?_, ?_, ?_, ?_, ?_, hcurrent, ?_, ?_⟩
  · rw [heq, hnext, hlist]
    exact h.linked
  · rw [heq, hstate, hactives]
    exact h.running
  · rw [heq, hstate, hactives]
    exact h.called
  · rw [heq, hstate, hexitings]
    exact h.leaving
  · rw [heq, hstate, hexitings]
    exact h.exiting
  · intro p hp
    rw [hactives] at hp
    rw [heq]
    exact .inl (hactive p hp)
  · intro p hp
    rw [heq, hnext]
    exact (hpolled p hp).imp id fun ⟨hq, hhead⟩ => ⟨hq, .inl hhead⟩
  · rw [heq]
    exact hpollAt

/-- A poll loop that is not on top waits for a process on the list. -/
lemma Sound.polled_rest (h : c.Sound) (hstack : c.stack = f :: rest)
    (hf : ∀ m, f ≠ .thread x m) (hx : .pollNext x ∈ rest) :
    x ∈ c.list ∨ (∀ q, c.next x = some q → q ∈ c.list) ∧ f = .pollNext x := by
  have hmem : .pollNext x ∈ c.stack := by
    rw [hstack]
    exact List.mem_cons_of_mem _ hx
  rcases h.polled x hmem with hlist | ⟨hnext, hhead | ⟨m, hhead⟩⟩
  · exact .inl hlist
  · rw [hstack] at hhead
    exact .inr ⟨hnext, Option.some.inj hhead⟩
  · rw [hstack] at hhead
    exact absurd (Option.some.inj hhead) (hf m)

/-! ## Calling a process -/

/-- **`call_process`** enters the thread of a process that runs; such a process is on the list, and its
thread has returned. -/
lemma Sound.callProcess (h : c.Sound) (hres : Resumes p c.stack) (m : Msg n) :
    (c.callProcess p m).Sound := by
  unfold Kernel.callProcess
  by_cases hrun : c.state p = .running ∧ c.hasThread p
  · rw [if_pos hrun]
    obtain ⟨hlist, hnot⟩ := h.running p hrun.1
    obtain ⟨hthread, -, -, -, hpoll⟩ := hres.head_ne
    have hother : ∀ q, q ≠ p → Function.update c.state p .called q = c.state q :=
      fun q hq => Function.update_of_ne hq _ _
    have hself : Function.update c.state p .called p = .called := Function.update_self ..
    have hexit : p ∉ exitings c.stack := fun hmem =>
      absurd (hrun.1.symm.trans (h.exiting p hmem).1) nofun
    refine ⟨h.linked, ⟨⟨hnot, rfl⟩, ⟨hnot, hexit, hres⟩, h.frames⟩, ?_, ?_, ?_, ?_, ?_, ?_, ?_, nofun⟩
    · intro q hq
      have hne : q ≠ p := by
        rintro rfl
        exact absurd (hself.symm.trans hq) nofun
      obtain ⟨hl, ha⟩ := h.running q ((hother q hne).symm.trans hq)
      exact ⟨hl, fun hmem => (List.mem_cons.mp hmem).elim hne ha⟩
    · intro q hq
      by_cases hne : q = p
      · rw [hne]
        exact ⟨hlist, List.mem_cons_self⟩
      · obtain ⟨hl, ha⟩ := h.called q ((hother q hne).symm.trans hq)
        exact ⟨hl, List.mem_cons_of_mem _ ha⟩
    · intro q hq
      have hne : q ≠ p := by
        rintro rfl
        exact absurd (hself.symm.trans hq) nofun
      exact h.leaving q ((hother q hne).symm.trans hq)
    · intro q hq
      have hne : q ≠ p := fun heq => hexit (heq ▸ hq)
      obtain ⟨hs, hl⟩ := h.exiting q hq
      exact ⟨(hother q hne).trans hs, hl⟩
    · intro q hq
      rcases List.mem_cons.mp hq with rfl | hq
      · exact .inl hlist
      · exact .inl (h.listed hthread q hq)
    · rintro q m' (hq | hq)
      · cases hq
        rfl
      · exact absurd hq nofun
    · intro q hq
      have hmem : .pollNext q ∈ c.stack := by
        simpa [push] using hq
      rcases h.polled q hmem with hl | ⟨-, hhead | ⟨m', hhead⟩⟩
      · exact .inl hl
      · rw [hpoll q hhead]
        exact .inl hlist
      · exact absurd hhead (hthread q m')
  · rw [if_neg hrun]
    exact h

/-! ## Leaving the list -/

lemma exitProcess_eq {fromprocess : Option (Fin n)} (hp : p ∈ c.list) (hs : c.state p ≠ .none) :
    c.exitProcess p fromprocess =
      ({ c with state := Function.update c.state p .none } : Kernel n numEvents).push
        (.exitAt p fromprocess c.current c.processList) := by
  rw [exitProcess, if_pos hp, if_pos hs]

/-- **`exit_process`** marks a process that runs, or has called it, as leaving. -/
lemma Sound.exitProcess (h : c.Sound) {fromprocess : Option (Fin n)}
    (hwait : CalledBy c.current c.stack ∨ Resumes p c.stack)
    (hactive : ∀ q ∈ actives c.stack, q ∈ c.list) (hnone : p ∈ c.list → c.state p ≠ .none)
    (hself : p ∈ c.list → p ∈ actives c.stack →
      (∃ m, c.stack.head? = some (.thread p m)) ∧ fromprocess = some p) :
    (c.exitProcess p fromprocess).Sound := by
  by_cases hlist : p ∈ c.list
  · rw [exitProcess_eq hlist (hnone hlist)]
    have hother : ∀ q, q ≠ p → Function.update c.state p .none q = c.state q :=
      fun q hq => Function.update_of_ne hq _ _
    have hpnone : Function.update c.state p .none p = .none := Function.update_self ..
    have hfresh : p ∉ exitings c.stack := fun hmem => hnone hlist (h.exiting p hmem).1
    refine ⟨h.linked, ⟨⟨⟨hfresh, fun hp => (hself hlist hp).1, hwait⟩,
      fun hp => (hself hlist hp).2⟩, h.frames⟩, ?_, ?_, ?_, ?_, ?_, nofun, ?_, nofun⟩
    · intro q hq
      have hne : q ≠ p := by
        rintro rfl
        exact absurd (hpnone.symm.trans hq) nofun
      exact h.running q ((hother q hne).symm.trans hq)
    · intro q hq
      have hne : q ≠ p := by
        rintro rfl
        exact absurd (hpnone.symm.trans hq) nofun
      exact h.called q ((hother q hne).symm.trans hq)
    · intro q hq hl
      by_cases hne : q = p
      · rw [hne]
        exact List.mem_cons_self
      · exact List.mem_cons_of_mem _ (h.leaving q ((hother q hne).symm.trans hq) hl)
    · intro q hq
      rcases List.mem_cons.mp hq with rfl | hq
      · exact ⟨hpnone, hlist⟩
      · have hne : q ≠ p := fun heq => hfresh (heq ▸ hq)
        obtain ⟨hs, hl⟩ := h.exiting q hq
        exact ⟨(hother q hne).trans hs, hl⟩
    · exact fun q hq => .inl (hactive q hq)
    · intro q hq
      have hmem : .pollNext q ∈ c.stack := by
        simpa [push] using hq
      rcases h.polled q hmem with hl | ⟨-, hhead | ⟨m', hhead⟩⟩
      · exact .inl hl
      · rcases hwait with hwait | hwait
        · obtain ⟨r, m', hhead', -⟩ := hwait.head
          exact absurd (hhead.symm.trans hhead') nofun
        · rw [hwait.head_ne.2.2.2.2 q hhead]
          exact .inl hlist
      · exact .inl (hactive q (mem_actives_of_head hhead))
  · rw [Kernel.exitProcess, if_neg hlist]
    exact h

/-- What taking a process off the list does. -/
lemma Sound.unlink_eq (h : c.Sound) (hp : p ∈ c.list) :
    ∃ processList next, c.unlink p = { c with processList, next } ∧ next p = c.next p ∧
      Links.Linked next processList (c.list.filter (· ≠ p)) := by
  unfold unlink
  rcases h.linked.without hp h.length_le with
    ⟨hhead, hrest⟩ | ⟨hhead, b, hb, -, hbefore, hrest⟩
  · rw [if_pos hhead]
    exact ⟨_, _, rfl, rfl, hrest⟩
  · rw [if_neg hhead, hbefore]
    exact ⟨_, _, rfl, Function.update_of_ne hb.symm _ _, hrest⟩

/-- **The end of `exit_process`**: the process leaves the list. -/
lemma Sound.exitRemove (h : c.Sound) {old : Option (Fin n)}
    (hstack : c.stack = .exitRemove p old :: rest) :
    ({ c.unlink p with current := old, stack := rest } : Kernel n numEvents).Sound := by
  have hframes := h.frames
  rw [hstack] at hframes
  obtain ⟨⟨hfresh, hself, hbelow⟩, hrest⟩ := hframes
  have hexitings : exitings c.stack = p :: exitings rest := by
    rw [hstack]
    rfl
  have hactives : actives c.stack = actives rest := by
    rw [hstack]
    rfl
  have hheads : ∀ q m, c.stack.head? ≠ some (.thread q m) := by
    rw [hstack]
    exact nofun
  obtain ⟨hnone, hlist⟩ := h.exiting p (by rw [hexitings]; exact List.mem_cons_self)
  obtain ⟨processList, next, hunlink, hnext, hlinked⟩ := h.unlink_eq hlist
  rw [hunlink]
  have heq : ({ c with processList, next, current := old, stack := rest } :
      Kernel n numEvents).list = c.list.filter (· ≠ p) := list_eq hlinked
  have hmem : ∀ q, q ∈ c.list → q ≠ p → q ∈ c.list.filter (· ≠ p) := by
    intro q hq hne
    exact List.mem_filter.mpr ⟨hq, by simpa using hne⟩
  refine ⟨heq ▸ hlinked, hrest, ?_, ?_, ?_, ?_, ?_, ?_, ?_, ?_⟩
  · intro q hq
    obtain ⟨hl, ha⟩ := h.running q hq
    rw [heq]
    refine ⟨hmem q hl ?_, hactives ▸ ha⟩
    rintro rfl
    exact absurd (hnone.symm.trans hq) nofun
  · intro q hq
    obtain ⟨hl, ha⟩ := h.called q hq
    rw [heq]
    refine ⟨hmem q hl ?_, hactives ▸ ha⟩
    rintro rfl
    exact absurd (hnone.symm.trans hq) nofun
  · intro q hq hl
    rw [heq, List.mem_filter] at hl
    have hexit := h.leaving q hq hl.1
    rw [hexitings] at hexit
    exact (List.mem_cons.mp hexit).resolve_left (by simpa using hl.2)
  · intro q hq
    obtain ⟨hs, hl⟩ := h.exiting q (by rw [hexitings]; exact List.mem_cons_of_mem _ hq)
    rw [heq]
    exact ⟨hs, hmem q hl fun hne => hfresh (hne ▸ hq)⟩
  · intro q hq
    by_cases hne : q = p
    · exact .inr (hne ▸ hself (hne ▸ hq))
    · rw [heq]
      exact .inl (hmem q (h.listed hheads q (hactives ▸ hq)) hne)
  · intro q m hq
    rcases hbelow with hbelow | hbelow
    · obtain ⟨r, m', hhead, hold⟩ := hbelow.head
      rcases hq with hq | hq
      · exact absurd (hhead.symm.trans hq) nofun
      · cases hhead.symm.trans hq
        exact hold
    · obtain ⟨hthread, hentry, -⟩ := hbelow.head_ne
      exact absurd hq (not_or_intro (hentry q m) (hthread q m))
  · intro q hq
    rw [heq]
    rcases h.polled_rest hstack nofun hq with hl | ⟨-, hf⟩
    · by_cases hne : q = p
      · -- The process is polled and leaves: the loop goes on with what follows it.
        subst hne
        refine .inr ⟨fun r hr => ?_, ?_⟩
        · rcases h.linked.next_of_mem hl with hlast | ⟨y, hy, hyne, hnexty⟩
          · rw [show next q = some r from hr, eq_comm, hlast] at hnext
            exact absurd hnext nofun
          · have hry : r = y := by
              rw [show next q = some r from hr, hnexty] at hnext
              exact Option.some.inj hnext
            rw [hry]
            exact hmem y hy hyne
        · rcases hrest.pollNext hq with hhead | ⟨m, hhead⟩ | ha | he
          · exact .inl hhead
          · rcases hbelow with hbelow | hbelow
            · obtain ⟨r, m', hhead', -⟩ := hbelow.head
              exact absurd (hhead.symm.trans hhead') nofun
            · exact absurd hhead (hbelow.head_ne.2.2.1 q m)
          · exact .inr (hself ha)
          · exact absurd he hfresh
      · exact .inl (hmem q hl hne)
    · exact absurd hf nofun
  · intro q hq
    rcases hbelow with hbelow | hbelow
    · obtain ⟨r, m', hhead, -⟩ := hbelow.head
      exact absurd (hhead.symm.trans hq) nofun
    · exact absurd hq (hbelow.head_ne.2.2.2.1 _)

/-! ## What a thread calls -/

/-- The thread on top is that of a listed process. -/
def TopListed (c : Kernel n numEvents) : Prop :=
  ∀ p m, c.stack.head? = some (.thread p m) → p ∈ c.list

lemma Sound.actives_listed (h : c.Sound) (htop : c.TopListed) : ∀ p ∈ actives c.stack, p ∈ c.list :=
  fun p hp => (h.active p hp).elim id fun ⟨m, hm⟩ => htop p m hm

/-- The thread on top waits for `call_process`. -/
lemma Sound.pushSynch (h : c.Sound) (htop : c.TopListed)
    (hthread : ∃ x m, c.stack.head? = some (.thread x m)) : (c.push (.synch c.current)).Sound := by
  obtain ⟨x, m, hhead⟩ := hthread
  have hcalled : CalledBy c.current c.stack := by
    have hcurrent := h.current x m (.inr hhead)
    cases hstack : c.stack with
    | nil =>
      rw [hstack] at hhead
      exact absurd hhead nofun
    | cons f rest =>
      rw [hstack] at hhead
      obtain rfl : f = .thread x m := Option.some.inj hhead
      exact hcurrent
  refine h.restack rfl rfl rfl ⟨hcalled, h.frames⟩ rfl rfl (h.actives_listed htop) ?_ ?_ nofun
  · rintro q m' (hq | hq) <;> exact absurd hq nofun
  · intro q hq
    have hmem : .pollNext q ∈ c.stack := by
      simpa [push] using hq
    rcases h.polled q hmem with hl | ⟨-, hhead' | ⟨m', hhead'⟩⟩
    · exact .inl hl
    · exact absurd (hhead.symm.trans hhead') nofun
    · exact .inl (htop q m' hhead')

lemma Sound.postSynch (h : c.Sound) (htop : c.TopListed)
    (hthread : ∃ x m, c.stack.head? = some (.thread x m)) (p : Fin n) (m : Msg n) :
    (c.postSynch p m).Sound :=
  (h.pushSynch htop hthread).callProcess trivial m

/-- A process that is not on the list is put on it. -/
lemma Sound.enlist (h : c.Sound) (htop : c.TopListed) (hp : p ∉ c.list)
    (hpoll : ∀ x, c.stack.head? ≠ some (.pollNext x)) :
    (c.enlist p).Sound ∧ (c.enlist p).list = p :: c.list := by
  have heq : (c.enlist p).list = p :: c.list := list_eq (h.linked.push hp)
  have hactive := h.actives_listed htop
  have hother : ∀ q, q ≠ p → Function.update c.state p .running q = c.state q :=
    fun q hq => Function.update_of_ne hq _ _
  have hself : Function.update c.state p .running p = .running := Function.update_self ..
  refine ⟨⟨heq ▸ h.linked.push hp, h.frames, ?_, ?_, ?_, ?_, ?_, h.current, ?_, ?_⟩, heq⟩
  · intro q hq
    rw [heq]
    by_cases hne : q = p
    · rw [hne]
      exact ⟨List.mem_cons_self, fun hmem => hp (hactive p hmem)⟩
    · obtain ⟨hl, ha⟩ := h.running q ((hother q hne).symm.trans hq)
      exact ⟨List.mem_cons_of_mem _ hl, ha⟩
  · intro q hq
    have hne : q ≠ p := by
      rintro rfl
      exact absurd (hself.symm.trans hq) nofun
    obtain ⟨hl, ha⟩ := h.called q ((hother q hne).symm.trans hq)
    rw [heq]
    exact ⟨List.mem_cons_of_mem _ hl, ha⟩
  · intro q hq hl
    have hne : q ≠ p := by
      rintro rfl
      exact absurd (hself.symm.trans hq) nofun
    rw [heq] at hl
    exact h.leaving q ((hother q hne).symm.trans hq) ((List.mem_cons.mp hl).resolve_left hne)
  · intro q hq
    obtain ⟨hs, hl⟩ := h.exiting q hq
    rw [heq]
    exact ⟨(hother q fun hne => hp (hne ▸ hl)).trans hs, List.mem_cons_of_mem _ hl⟩
  · intro q hq
    rw [heq]
    exact .inl (List.mem_cons_of_mem _ (hactive q hq))
  · intro q hq
    rw [heq]
    refine .inl (List.mem_cons_of_mem _ ?_)
    rcases h.polled q hq with hl | ⟨-, hhead | ⟨m, hhead⟩⟩
    · exact hl
    · exact absurd hhead (hpoll q)
    · exact htop q m hhead
  · intro q hq
    rw [heq]
    exact List.mem_cons_of_mem _ (h.pollAt q hq)

/-- **`process_start`** puts a process on the list and calls it. -/
lemma Sound.start (h : c.Sound) (htop : c.TopListed)
    (hthread : ∃ x m, c.stack.head? = some (.thread x m)) (p : Fin n) (arg : ProcessData n) :
    (c.start p arg).Sound := by
  unfold Kernel.start
  by_cases hp : p ∈ c.list
  · rw [if_pos hp]
    exact h
  · rw [if_neg hp]
    have hpoll : ∀ x, c.stack.head? ≠ some (.pollNext x) := by
      obtain ⟨x, m, hhead⟩ := hthread
      rw [hhead]
      exact nofun
    obtain ⟨hlisted, heq⟩ := h.enlist htop hp hpoll
    refine hlisted.postSynch (fun q m hq => ?_) hthread p _
    rw [heq]
    exact List.mem_cons_of_mem _ (htop q m hq)

/-! ## How the threads must behave -/

/-- A thread whose process has left the list starts, exits and calls no process, and does not yield; a
process is not made to exit while its thread has not returned, except by this thread itself, or while it
is leaving; and an event that was posted as `PROCESS_EVENT_INIT` is for a listed process when it is
delivered. -/
def Behaves (c : Kernel n numEvents) : Event n → Prop
  | .call (.start _ _) => c.TopListed
  | .call (.postSynch _ _) => c.TopListed
  | .call (.exit p) => c.TopListed ∧ (p ∈ c.list → c.state p = .running ∨
      c.state p = .called ∧ ∃ m, c.stack.head? = some (.thread p m))
  | .ret .yielded => c.TopListed
  | .resume => c.stack.head? = some .doEvent → ∀ e p, c.events.head? = some e → e.p = some p →
      e.msg.ev = .init → p ∈ c.list
  | _ => True

lemma Sound.call (h : c.Sound) {a : ThreadCall n} {m : Msg n} (hstack : c.stack = .thread x m :: rest)
    (hok : c.Behaves (.call a)) : (c.call a).Sound := by
  have hhead : c.stack.head? = some (.thread x m) := by
    rw [hstack]
    rfl
  cases a with
  | start p arg => exact h.start hok ⟨x, m, hhead⟩ p arg
  | exit p =>
    obtain ⟨htop, hexit⟩ := hok
    have hcurrent : c.current = some x := h.current x m (.inr hhead)
    refine h.exitProcess (.inl ?_) (h.actives_listed htop) (fun hl hnone => ?_) fun hl ha => ?_
    · rw [hstack]
      exact hcurrent
    · rcases hexit hl with hs | ⟨hs, -⟩
      · exact absurd (hs.symm.trans hnone) nofun
      · exact absurd (hs.symm.trans hnone) nofun
    · rcases hexit hl with hs | ⟨hs, m', hp⟩
      · exact absurd ha (h.running p hs).2
      · refine ⟨⟨m', hp⟩, ?_⟩
        cases hhead.symm.trans hp
        exact hcurrent
  | post e =>
    show (c.post e).Sound
    unfold Kernel.post
    split_ifs
    · exact h
    · exact h.congr rfl rfl rfl rfl rfl
  | postSynch p m' => exact h.postSynch hok ⟨x, m, hhead⟩ p m'
  | poll p =>
    show (c.poll p).Sound
    unfold Kernel.poll
    split_ifs
    · exact h.congr rfl rfl rfl rfl rfl
    · exact h

/-! ## How a thread returns -/

/-- The thread of a listed process waits for its next event. -/
lemma Sound.yielded (h : c.Sound) {m' : Msg n} (hp : p ∈ c.list)
    (hstack : c.stack = .thread p m :: .called p m' :: rest) :
    ({ c with stack := rest, state := Function.update c.state p .running } :
      Kernel n numEvents).Sound := by
  have hframes := h.frames
  rw [hstack] at hframes
  obtain ⟨⟨hactive, -⟩, ⟨-, hexit, hres⟩, hrest⟩ := hframes
  have hactives : actives c.stack = p :: actives rest := by
    rw [hstack]
    rfl
  have hexitings : exitings c.stack = exitings rest := by
    rw [hstack]
    rfl
  have hother : ∀ q, q ≠ p → Function.update c.state p .running q = c.state q :=
    fun q hq => Function.update_of_ne hq _ _
  have hself : Function.update c.state p .running p = .running := Function.update_self ..
  have hfresh : p ∉ actives rest := hactive
  refine ⟨h.linked, hrest, ?_, ?_, ?_, ?_, ?_, ?_, ?_, ?_⟩
  · intro q hq
    by_cases hne : q = p
    · rw [hne]
      exact ⟨hp, hfresh⟩
    · obtain ⟨hl, ha⟩ := h.running q ((hother q hne).symm.trans hq)
      rw [hactives] at ha
      exact ⟨hl, fun hmem => ha (List.mem_cons_of_mem _ hmem)⟩
  · intro q hq
    have hne : q ≠ p := by
      rintro rfl
      exact absurd (hself.symm.trans hq) nofun
    obtain ⟨hl, ha⟩ := h.called q ((hother q hne).symm.trans hq)
    rw [hactives] at ha
    exact ⟨hl, (List.mem_cons.mp ha).resolve_left hne⟩
  · intro q hq hl
    have hne : q ≠ p := by
      rintro rfl
      exact absurd (hself.symm.trans hq) nofun
    exact hexitings ▸ h.leaving q ((hother q hne).symm.trans hq) hl
  · intro q hq
    have hne : q ≠ p := fun heq => hexit (heq ▸ hq)
    obtain ⟨hs, hl⟩ := h.exiting q (hexitings ▸ hq)
    exact ⟨(hother q hne).trans hs, hl⟩
  · intro q hq
    have hne : q ≠ p := fun heq => hfresh (heq ▸ hq)
    rcases h.active q (by rw [hactives]; exact List.mem_cons_of_mem _ hq) with hl | ⟨m'', hhead⟩
    · exact .inl hl
    · rw [hstack] at hhead
      cases hhead
      exact absurd rfl hne
  · intro q m'' hq
    exact absurd hq (not_or_intro (hres.head_ne.2.1 q m'') (hres.head_ne.1 q m''))
  · intro q hq
    rcases h.polled q (by rw [hstack]; exact .tail _ (.tail _ hq)) with
      hl | ⟨-, hhead | ⟨m'', hhead⟩⟩
    · exact .inl hl
    · rw [hstack] at hhead
      cases hhead
    · rw [hstack] at hhead
      cases hhead
      exact .inl hp
  · exact fun q hq => absurd hq (hres.head_ne.2.2.2.1 _)

/-- The thread of a process that has left the list ends. -/
lemma Sound.ended (h : c.Sound) {m' : Msg n} (hp : p ∉ c.list)
    (hstack : c.stack = .thread p m :: .called p m' :: rest) :
    ({ c with stack := rest } : Kernel n numEvents).Sound := by
  have hframes := h.frames
  rw [hstack] at hframes
  obtain ⟨⟨hactive, -⟩, ⟨-, hexit, hres⟩, hrest⟩ := hframes
  have hactives : actives c.stack = p :: actives rest := by
    rw [hstack]
    rfl
  have hexitings : exitings c.stack = exitings rest := by
    rw [hstack]
    rfl
  have hfresh : p ∉ actives rest := hactive
  refine ⟨h.linked, hrest, ?_, ?_, ?_, ?_, ?_, ?_, ?_, ?_⟩
  · intro q hq
    obtain ⟨hl, ha⟩ := h.running q hq
    rw [hactives] at ha
    exact ⟨hl, fun hmem => ha (List.mem_cons_of_mem _ hmem)⟩
  · intro q hq
    obtain ⟨hl, ha⟩ := h.called q hq
    rw [hactives] at ha
    exact ⟨hl, (List.mem_cons.mp ha).resolve_left fun hne => hp (hne ▸ hl)⟩
  · exact hexitings ▸ h.leaving
  · exact hexitings ▸ h.exiting
  · intro q hq
    have hne : q ≠ p := fun heq => hfresh (heq ▸ hq)
    rcases h.active q (by rw [hactives]; exact List.mem_cons_of_mem _ hq) with hl | ⟨m'', hhead⟩
    · exact .inl hl
    · rw [hstack] at hhead
      cases hhead
      exact absurd rfl hne
  · intro q m'' hq
    exact absurd hq (not_or_intro (hres.head_ne.2.1 q m'') (hres.head_ne.1 q m''))
  · intro q hq
    rcases h.polled q (by rw [hstack]; exact .tail _ (.tail _ hq)) with
      hl | ⟨hnext, hhead | ⟨m'', hhead⟩⟩
    · exact .inl hl
    · rw [hstack] at hhead
      cases hhead
    · rw [hstack] at hhead
      cases hhead
      -- It was polled, and its frames were the only ones above the loop.
      rcases hrest.pollNext hq with hhead | ⟨m, hhead⟩ | ha | he
      · exact .inr ⟨hnext, .inl hhead⟩
      · exact absurd hhead (hres.head_ne.2.2.1 p m)
      · exact absurd ha hfresh
      · exact absurd he hexit
  · exact fun q hq => absurd hq (hres.head_ne.2.2.2.1 _)

/-- **The end of `call_process`.** -/
lemma Sound.ret (h : c.Sound) {r : PtRet} (hok : c.Behaves (.ret r)) (hret : c.ret r = .ok c') :
    c'.Sound := by
  have hframes := h.frames
  unfold Kernel.ret at hret
  split at hret
  · rename_i p m q m' rest hstack
    rw [hstack] at hframes
    obtain rfl : q = p := hframes.1.2
    have hres := hframes.2.1.2.2
    have hfresh : q ∉ actives rest := hframes.1.1
    cases hret
    by_cases hend : r = .ended ∨ m'.ev = .exit
    · rw [if_pos hend]
      by_cases hl : q ∈ c.list
      · -- As far as `exit_process` is concerned, the thread could have yielded.
        have hyielded := h.yielded hl hstack
        have hself : Function.update c.state q .running q = .running := Function.update_self ..
        have hexit := @Sound.exitProcess _ _ _ q hyielded (some q) (.inr hres)
          (hyielded.listed hres.head_ne.1) (fun _ hnone => absurd (hself.symm.trans hnone) nofun)
          fun _ ha => absurd ha hfresh
        have hnone : c.state q ≠ .none := fun hnone => by
          have hmem := h.leaving q hnone hl
          rw [hstack] at hmem
          exact hframes.2.1.2.1 hmem
        have hidem : Function.update (Function.update c.state q .running) q .none =
            Function.update c.state q .none := Function.update_idem ..
        rw [exitProcess_eq (c := { c with stack := rest, state := Function.update c.state q .running })
          hl fun hnone => absurd (hself.symm.trans hnone) nofun] at hexit
        rw [exitProcess_eq (c := { c with stack := rest }) hl hnone]
        exact hexit.congr rfl rfl hidem.symm rfl rfl
      · have hgone : ({ c with stack := rest } : Kernel n numEvents).exitProcess q (some q) =
            { c with stack := rest } := if_neg hl
        rw [hgone]
        exact h.ended hl hstack
    · rw [if_neg hend]
      cases r with
      | ended => exact absurd (.inl rfl) hend
      | yielded => exact h.yielded (hok q m (by rw [hstack]; rfl)) hstack
  · rename_i p m q old rest hstack
    rw [hstack] at hframes
    obtain rfl : q = p := hframes.1.2
    have hactives : actives c.stack = q :: actives rest := by
      rw [hstack]
      rfl
    have hexitings : exitings c.stack = q :: exitings rest := by
      rw [hstack]
      rfl
    cases hret
    have hfresh : q ∉ actives rest := hframes.1.1
    obtain ⟨hnone, hl⟩ := h.exiting q (by rw [hexitings]; exact List.mem_cons_self)
    refine ⟨h.linked, hframes.2, ?_, ?_, ?_, ?_, ?_, ?_, ?_, nofun⟩
    · intro r hr
      obtain ⟨hrl, ha⟩ := h.running r hr
      rw [hactives] at ha
      exact ⟨hrl, fun hmem => ha (List.mem_cons_of_mem _ hmem)⟩
    · intro r hr
      obtain ⟨hrl, ha⟩ := h.called r hr
      rw [hactives] at ha
      refine ⟨hrl, (List.mem_cons.mp ha).resolve_left ?_⟩
      rintro rfl
      exact absurd (hnone.symm.trans hr) nofun
    · intro r hr hrl
      have hmem := h.leaving r hr hrl
      rw [hexitings] at hmem
      exact hmem
    · intro r hr
      refine h.exiting r ?_
      rw [hexitings]
      exact hr
    · intro r hr
      have hne : r ≠ q := fun heq => hfresh (heq ▸ hr)
      rcases h.active r (by rw [hactives]; exact List.mem_cons_of_mem _ hr) with hrl | ⟨m', hhead⟩
      · exact .inl hrl
      · rw [hstack] at hhead
        cases hhead
        exact absurd rfl hne
    · rintro r m' (hr | hr) <;> exact absurd hr nofun
    · intro r hr
      rcases h.polled r (by rw [hstack]; exact .tail _ hr) with hrl | ⟨-, hhead | ⟨m', hhead⟩⟩
      · exact .inl hrl
      · rw [hstack] at hhead
        cases hhead
      · rw [hstack] at hhead
        cases hhead
        exact .inl hl
  · cases hret

/-! ## How the kernel goes on -/

/-- While the kernel polls or distributes events, no thread runs and no process leaves: the listed
processes are those that run. -/
lemma Sound.quiet_running (h : c.Sound) (hactives : actives c.stack = [])
    (hexitings : exitings c.stack = []) (hp : p ∈ c.list) : c.state p = .running := by
  cases hs : c.state p with
  | running => rfl
  | called =>
    have hmem := (h.called p hs).2
    rw [hactives] at hmem
    exact absurd hmem List.not_mem_nil
  | none =>
    have hmem := h.leaving p hs hp
    rw [hexitings] at hmem
    exact absurd hmem List.not_mem_nil

/-- A loop of `do_poll` starts at the first process. -/
lemma Sound.doPoll (h : c.Sound) (hpolls : Polls c.stack) : c.doPoll.Sound := by
  obtain ⟨hactives, hexitings⟩ := hpolls.quiet
  refine h.restack rfl rfl rfl ⟨hpolls, h.frames⟩ rfl rfl ?_ ?_ ?_ ?_
  · rw [hactives]
    exact nofun
  · rintro q m (hq | hq) <;> exact absurd hq nofun
  · intro q hq
    rcases List.mem_cons.mp hq with hq | hq
    · exact absurd hq nofun
    · rcases hpolls with hstack | ⟨m, x, hstack⟩
      · rw [hstack] at hq
        exact absurd (List.mem_singleton.mp hq) nofun
      · rw [hstack] at hq
        exact absurd (List.mem_singleton.mp hq) nofun
  · intro q hq
    have hhead : c.processList = some q := by
      injection hq with hq
      injection hq
    have hlinked := h.linked
    cases hl : c.list with
    | nil =>
      rw [hl] at hlinked
      exact absurd (hhead.symm.trans hlinked) nofun
    | cons a l =>
      rw [hl] at hlinked
      obtain rfl : q = a := Option.some.inj (hhead.symm.trans hlinked.1)
      exact List.mem_cons_self

lemma Sound.doEvent (h : c.Sound) (hstack : c.stack = [])
    (hok : ∀ e p, c.events.head? = some e → e.p = some p → e.msg.ev = .init → p ∈ c.list) :
    c.doEvent.Sound := by
  unfold Kernel.doEvent
  cases hevents : c.events with
  | nil => exact h
  | cons e events =>
    have hdequeued : ({ c with events } : Kernel n numEvents).Sound := h.congr rfl rfl rfl rfl rfl
    have hres : ∀ p, Resumes p ({ c with events } : Kernel n numEvents).stack := by
      intro p
      show Resumes p c.stack
      rw [hstack]
      trivial
    dsimp only
    cases hp : e.p with
    | none =>
      refine hdequeued.restack rfl rfl rfl ⟨hstack, h.frames⟩ rfl rfl ?_ ?_ ?_ nofun
      · show ∀ p ∈ actives c.stack, _
        rw [hstack]
        exact nofun
      · rintro q m (hq | hq) <;> exact absurd hq nofun
      · intro q hq
        have hmem : .pollNext q ∈ c.stack := by
          simpa [push] using hq
        rw [hstack] at hmem
        exact absurd hmem List.not_mem_nil
    | some receiver =>
      dsimp only
      by_cases hinit : e.msg.ev = .init
      · rw [if_pos hinit]
        have hl : receiver ∈ c.list := hok e receiver (by rw [hevents]; rfl) hp hinit
        have hrunning : c.state receiver = .running :=
          h.quiet_running (by rw [hstack]; rfl) (by rw [hstack]; rfl) hl
        have hsame : Function.update c.state receiver .running = c.state := by
          rw [← hrunning, Function.update_eq_self]
        have hset : ({ c with events, state := Function.update c.state receiver .running } :
            Kernel n numEvents).Sound := h.congr rfl rfl hsame rfl rfl
        exact hset.callProcess (hres receiver) _
      · rw [if_neg hinit]
        exact hdequeued.callProcess (hres receiver) _

/-- The frame on top is replaced by another one of the same call. -/
lemma Sound.swap (h : c.Sound) (hstack : c.stack = f :: rest) (hf : ∀ x m, f ≠ .thread x m)
    (hfits : g.Fits rest) (hactive : g.active? = f.active?) (hexiting : g.exiting? = f.exiting?)
    (hcurrent : ∀ p m, g = .entry p m ∨ g = .thread p m → c.current = some p)
    (hrest : ∀ x, .pollNext x ∈ rest → x ∈ c.list)
    (hpolled : ∀ x, g = .pollNext x ∨ g = .pollAt (some x) → x ∈ c.list) :
    ({ c with stack := g :: rest } : Kernel n numEvents).Sound := by
  have hframes := h.frames
  rw [hstack] at hframes
  have hheads : ∀ x m, c.stack.head? ≠ some (.thread x m) := by
    intro x m hhead
    rw [hstack] at hhead
    exact hf x m (Option.some.inj hhead)
  refine h.restack rfl rfl rfl ⟨hfits, hframes.2⟩ ?_ ?_ (h.listed hheads) ?_ ?_ ?_
  · rw [hstack, actives_cons, actives_cons, hactive]
  · rw [hstack, exitings_cons, exitings_cons, hexiting]
  · exact fun p m hp => hcurrent p m (hp.imp Option.some.inj Option.some.inj)
  · intro x hx
    rcases List.mem_cons.mp hx with hx | hx
    · exact .inl (hpolled x (.inl hx.symm))
    · exact .inl (hrest x hx)
  · exact fun x hx => hpolled x (.inr (Option.some.inj hx))

/-- A frame of a kernel loop is done with. -/
lemma Sound.pop (h : c.Sound) (hstack : c.stack = f :: rest) (hactive : f.active? = none)
    (hexiting : f.exiting? = none) (hrest : rest = [] ∨ Polls rest) :
    ({ c with stack := rest } : Kernel n numEvents).Sound := by
  have hframes := h.frames
  rw [hstack] at hframes
  have hquiet : actives rest = [] ∧ exitings rest = [] := by
    rcases hrest with rfl | hrest
    · exact ⟨rfl, rfl⟩
    · exact hrest.quiet
  have hactives : actives c.stack = actives rest := by
    rw [hstack, actives_cons, hactive]
    rfl
  refine h.restack rfl rfl rfl hframes.2 hactives.symm ?_ ?_ ?_ ?_ ?_
  · rw [hstack, exitings_cons, hexiting]
    rfl
  · rw [hactives, hquiet.1]
    exact nofun
  · intro p m hp
    rcases hrest with rfl | rfl | ⟨m', x, rfl⟩ <;> exact absurd hp (not_or_intro nofun nofun)
  · intro x hx
    rcases hrest with rfl | rfl | ⟨m', y, rfl⟩
    · exact absurd hx List.not_mem_nil
    · exact absurd (List.mem_singleton.mp hx) nofun
    · exact absurd (List.mem_singleton.mp hx) nofun
  · intro x hx
    rcases hrest with rfl | rfl | ⟨m', y, rfl⟩ <;> exact absurd hx nofun

lemma Sound.rest_polled (h : c.Sound) (hstack : c.stack = f :: rest) (hf : ∀ x m, f ≠ .thread x m)
    (hpoll : ∀ x, f ≠ .pollNext x) (x : Fin n) (hx : .pollNext x ∈ rest) : x ∈ c.list :=
  (h.polled_rest hstack (hf x) hx).resolve_right fun hr => hpoll x hr.2

/-- No loop of `do_poll` is below another one. -/
lemma not_pollNext_of_polls (h : Polls rest) (x : Fin n) : .pollNext x ∉ rest := by
  intro hx
  rcases h with rfl | ⟨m, y, rfl⟩ <;> exact absurd (List.mem_singleton.mp hx) nofun

/-- `process_post_synch` returns to the thread that called it. -/
lemma Sound.synched (h : c.Sound) {caller : Option (Fin n)} (hstack : c.stack = .synch caller :: rest) :
    ({ c with current := caller, stack := rest } : Kernel n numEvents).Sound := by
  have hframes := h.frames
  rw [hstack] at hframes
  obtain ⟨x, m, hhead, hcaller⟩ := CalledBy.head hframes.1
  have hheads : ∀ x m, c.stack.head? ≠ some (.thread x m) := by
    rw [hstack]
    exact nofun
  refine h.restack rfl rfl rfl hframes.2 ?_ ?_ (h.listed hheads) ?_ ?_ ?_
  · rw [hstack]
    rfl
  · rw [hstack]
    rfl
  · rintro p m' (hp | hp)
    · exact absurd (hhead.symm.trans hp) nofun
    · cases hhead.symm.trans hp
      exact hcaller
  · exact fun x hx => .inl (h.rest_polled hstack nofun nofun x hx)
  · exact fun p hp => absurd (hhead.symm.trans hp) nofun

/-- The loop of `exit_process` is over: the thread of the process that leaves is called, unless it
called `process_exit` itself. -/
lemma Sound.exitThread (h : c.Sound) {fromprocess old : Option (Fin n)}
    (hstack : c.stack = .exitAt p fromprocess old none :: rest) :
    ({ c with stack := .exitRemove p old :: rest } : Kernel n numEvents).Sound ∧
      (some p ≠ fromprocess →
        (({ c with stack := .exitRemove p old :: rest, current := some p } :
          Kernel n numEvents).push (.entry p m)).Sound) := by
  have hframes := h.frames
  rw [hstack] at hframes
  obtain ⟨⟨hexits, hfrom⟩, -⟩ := hframes
  have hremove := h.swap (g := .exitRemove p old) hstack nofun hexits rfl rfl
    (fun _ _ hp => absurd hp (not_or_intro nofun nofun)) (h.rest_polled hstack nofun nofun)
    fun _ hp => absurd hp (not_or_intro nofun nofun)
  refine ⟨hremove, fun hne => ?_⟩
  have hfresh : p ∉ actives rest := fun hp => hne (hfrom hp).symm
  obtain ⟨hnone, hl⟩ := hremove.exiting p List.mem_cons_self
  refine ⟨h.linked, ⟨⟨hfresh, rfl⟩, hremove.frames⟩, ?_, ?_, hremove.leaving, hremove.exiting, ?_, ?_,
    ?_, nofun⟩
  · intro q hq
    obtain ⟨hql, ha⟩ := hremove.running q hq
    refine ⟨hql, fun hmem => (List.mem_cons.mp hmem).elim (fun heq => ?_) ha⟩
    rw [heq] at hq
    exact absurd (hnone.symm.trans hq) nofun
  · intro q hq
    obtain ⟨hql, ha⟩ := hremove.called q hq
    exact ⟨hql, List.mem_cons_of_mem _ ha⟩
  · intro q hq
    rcases List.mem_cons.mp hq with rfl | hq
    · exact .inl hl
    · exact .inl (hremove.listed nofun q hq)
  · rintro q m' (hq | hq)
    · cases hq
      rfl
    · exact absurd hq nofun
  · intro q hq
    have hmem : .pollNext q ∈ rest := by
      simpa [push] using hq
    exact .inl (h.rest_polled hstack nofun nofun q hmem)

/-- **The kernel code goes on.** -/
lemma Sound.resume (h : c.Sound) (hok : c.Behaves .resume) (hresume : c.resume = .ok c') :
    c'.Sound := by
  have hframes := h.frames
  have hnever : ∀ {g : Frame n} (P : Fin n → Prop), (∀ x m, g ≠ .entry x m) →
      (∀ x m, g ≠ .thread x m) → ∀ x m, g = .entry x m ∨ g = .thread x m → P x :=
    fun _ hentry hthread x m hg => absurd hg (not_or_intro (hentry x m) (hthread x m))
  unfold Kernel.resume at hresume
  split at hresume
  · rename_i p m rest hstack
    rw [hstack] at hframes
    cases hresume
    refine h.swap hstack nofun hframes.1 rfl rfl (fun q m' hq => ?_)
      (h.rest_polled hstack nofun nofun) nofun
    rcases hq with hq | hq
    · cases hq
    · cases hq
      exact h.current p m (.inl (by rw [hstack]; rfl))
  · rename_i caller rest hstack
    cases hresume
    exact h.synched hstack
  · rename_i p fromprocess old q rest hstack
    rw [hstack] at hframes
    have hnext := h.swap (g := .exitNext p fromprocess old q) hstack nofun hframes.1 rfl rfl
      (hnever _ nofun nofun) (h.rest_polled hstack nofun nofun) nofun
    cases hresume
    split_ifs
    · exact hnext.callProcess trivial _
    · exact hnext
  · rename_i p fromprocess old rest hstack
    obtain ⟨hremove, hentry⟩ := h.exitThread (m := ⟨.exit, .null⟩) hstack
    cases hresume
    dsimp only
    split_ifs with hthread
    · exact hentry hthread.2
    · exact hremove
  · rename_i p fromprocess old q rest hstack
    rw [hstack] at hframes
    cases hresume
    exact h.swap hstack nofun hframes.1 rfl rfl (hnever _ nofun nofun)
      (h.rest_polled hstack nofun nofun) nofun
  · rename_i p old rest hstack
    cases hresume
    exact h.exitRemove hstack
  · rename_i p rest hstack
    rw [hstack] at hframes
    have hpolls : Polls rest := hframes.1
    have hl : p ∈ c.list := h.pollAt p (by rw [hstack]; rfl)
    have hnext : ({ c with stack := .pollNext p :: rest } : Kernel n numEvents).Sound := by
      refine h.swap hstack nofun hpolls rfl rfl (hnever _ nofun nofun)
        (fun x hx => absurd hx (not_pollNext_of_polls hpolls x)) fun x hx => ?_
      rcases hx with hx | hx
      · cases hx
        exact hl
      · cases hx
    have hrunning : c.state p = .running := by
      refine h.quiet_running ?_ ?_ hl
      · rw [hstack, actives_cons, hpolls.quiet.1]
        rfl
      · rw [hstack, exitings_cons, hpolls.quiet.2]
        rfl
    have hsame : Function.update c.state p .running = c.state := by
      rw [← hrunning, Function.update_eq_self]
    cases hresume
    dsimp only
    split_ifs
    · have hset : ({ c with
          stack := .pollNext p :: rest
          state := Function.update c.state p .running
          needspoll := Function.update c.needspoll p false } : Kernel n numEvents).Sound :=
        hnext.congr rfl rfl hsame rfl rfl
      exact hset.callProcess rfl _
    · exact hnext
  · rename_i rest hstack
    rw [hstack] at hframes
    cases hresume
    exact h.pop hstack rfl rfl (.inr hframes.1)
  · rename_i p rest hstack
    rw [hstack] at hframes
    have hpolls : Polls rest := hframes.1
    cases hresume
    refine h.swap hstack nofun hpolls rfl rfl (hnever _ nofun nofun)
      (fun x hx => absurd hx (not_pollNext_of_polls hpolls x)) fun x hx => ?_
    rcases hx with hx | hx
    · cases hx
    · have hnext : c.next p = some x := by
        injection hx
      rcases h.polled p (by rw [hstack]; exact List.mem_cons_self) with hl | ⟨hq, -⟩
      · rcases h.linked.next_of_mem hl with hlast | ⟨y, hy, -, hy'⟩
        · exact absurd (hlast.symm.trans hnext) nofun
        · exact Option.some.inj (hy'.symm.trans hnext) ▸ hy
      · exact hq x hnext
  · rename_i m p rest hstack
    rw [hstack] at hframes
    obtain rfl : rest = [] := hframes.1
    have hcall := h.swap (g := .castCall m p) hstack nofun rfl rfl rfl (hnever _ nofun nofun) nofun
      nofun
    cases hresume
    dsimp only
    split_ifs
    · exact hcall.doPoll (.inr ⟨m, p, rfl⟩)
    · exact hcall
  · rename_i m rest hstack
    rw [hstack] at hframes
    cases hresume
    exact h.pop hstack rfl rfl (.inl hframes.1)
  · rename_i m p rest hstack
    rw [hstack] at hframes
    obtain rfl : rest = [] := hframes.1
    cases hresume
    exact (h.swap (g := .castNext m p) hstack nofun rfl rfl rfl (hnever _ nofun nofun) nofun
      nofun).callProcess trivial _
  · rename_i m p rest hstack
    rw [hstack] at hframes
    obtain rfl : rest = [] := hframes.1
    cases hresume
    exact h.swap hstack nofun rfl rfl rfl (hnever _ nofun nofun) nofun nofun
  · rename_i rest hstack
    rw [hstack] at hframes
    obtain rfl : rest = [] := hframes.1
    have hpop := h.pop hstack rfl rfl (.inl rfl)
    cases hresume
    exact hpop.doEvent rfl (hok (by rw [hstack]; rfl))
  · cases hresume

/-! ## Runs -/

/-- At the start no call is open and the listed processes are those that run. -/
structure Initial (c : Kernel n numEvents) : Prop where
  linked : Links.Linked c.next c.processList c.list
  state : ∀ p, c.state p = if p ∈ c.list then .running else .none
  stack : c.stack = []

lemma Initial.sound (h : c.Initial) : c.Sound := by
  have hactives : actives c.stack = [] := by
    rw [h.stack]
    rfl
  have hexitings : exitings c.stack = [] := by
    rw [h.stack]
    rfl
  refine ⟨h.linked, ?_, ?_, ?_, ?_, ?_, ?_, ?_, ?_, ?_⟩
  · rw [h.stack]
    trivial
  · intro p hp
    rw [hactives]
    refine ⟨?_, List.not_mem_nil⟩
    by_contra hl
    rw [h.state, if_neg hl] at hp
    cases hp
  · intro p hp
    rw [h.state] at hp
    split_ifs at hp
  · intro p hp hl
    rw [h.state, if_pos hl] at hp
    cases hp
  · rw [hexitings]
    exact nofun
  · rw [hactives]
    exact nofun
  · rw [h.stack]
    rintro p m (hp | hp) <;> cases hp
  · rw [h.stack]
    exact nofun
  · rw [h.stack]
    exact nofun

lemma Sound.run (h : c.Sound) (hstack : c.stack = []) : c.run.Sound := by
  have hpush : (c.push .doEvent).Sound := by
    refine h.restack rfl rfl rfl ⟨hstack, h.frames⟩ rfl rfl ?_ ?_ ?_ nofun
    · rw [hstack]
      exact nofun
    · rintro p m (hp | hp) <;> exact absurd hp nofun
    · intro x hx
      rw [push, hstack] at hx
      exact absurd (List.mem_singleton.mp hx) nofun
  unfold Kernel.run
  split_ifs
  · refine hpush.doPoll (.inl ?_)
    show Frame.doEvent :: c.stack = _
    rw [hstack]
  · exact hpush

lemma Sound.step (h : c.Sound) {e : Event n} (hok : c.Behaves e) (hstep : c.step e = .ok c') :
    c'.Sound := by
  cases e with
  | run =>
    unfold Kernel.step at hstep
    dsimp only at hstep
    split_ifs at hstep with hstack
    cases hstep
    exact h.run hstack
  | resume => exact h.resume hok hstep
  | call a =>
    unfold Kernel.step at hstep
    dsimp only at hstep
    split at hstep
    · rename_i x m rest hstack
      cases hstep
      exact h.call hstack hok
    · cases hstep
  | ret r => exact h.ret hok hstep

/-- The process list is acyclic and free of duplicates; when no call is open, a process is on it iff its
state is not `PROCESS_STATE_NONE`; and a thread is entered only for a process on the list, when no
earlier call of it is open. -/
structure Consistent (c : Kernel n numEvents) : Prop where
  linked : Links.Linked c.next c.processList c.list
  nodup : c.list.Nodup
  listed : c.stack = [] → ∀ p, p ∈ c.list ↔ c.state p ≠ .none
  entered : ∀ p m rest, c.stack = .entry p m :: rest → p ∈ c.list ∧ p ∉ actives rest

lemma Sound.consistent (h : c.Sound) : c.Consistent := by
  refine ⟨h.linked, h.linked.nodup, fun hstack p => ⟨fun hl hnone => ?_, fun hs => ?_⟩,
    fun p m rest hstack => ?_⟩
  · have hmem := h.leaving p hnone hl
    rw [hstack] at hmem
    exact absurd hmem List.not_mem_nil
  · cases hstate : c.state p with
    | none => exact absurd hstate hs
    | running => exact (h.running p hstate).1
    | called => exact (h.called p hstate).1
  · have hframes := h.frames
    rw [hstack] at hframes
    have hmem : p ∈ actives c.stack := by
      rw [hstack]
      exact List.mem_cons_self
    have hheads : ∀ x m, c.stack.head? ≠ some (.thread x m) := by
      rw [hstack]
      exact nofun
    exact ⟨h.listed hheads p hmem, hframes.1.1⟩

/-- **The process list and the deliveries**, in every run whose threads behave. -/
theorem processes_consistent (c : Kernel n numEvents) (h : Reaches step Behaves Initial c) :
    c.Consistent := by
  have hsound : c.Sound :=
    h.invariant (I := Sound) (fun _ h => h.sound) fun _ _ _ h hok hstep => h.step hok hstep
  exact hsound.consistent

/-- One process that runs, with an event for it in the queue. -/
def booted : Kernel 1 4 where
  processList := some (Fin.last 0)
  next _ := none
  state _ := .running
  needspoll _ := false
  hasThread _ := true
  current := none
  pollRequested := false
  events := [⟨⟨.other 0, .null⟩, some (Fin.last 0)⟩]
  stack := []

lemma booted_initial : booted.Initial := by
  refine ⟨?_, by decide, rfl⟩
  show Links.Linked booted.next (some 0) [0]
  exact ⟨rfl, rfl⟩

/-- The thread is entered. -/
theorem processes_consistent_entered : ∃ c : Kernel 1 4,
    Reaches step Behaves Initial c ∧ actives c.stack = [0] ∧ c.Consistent := by
  have hrun : Reaches step Behaves Initial booted.run :=
    (Reaches.initial booted_initial).tail (e := .run) trivial rfl
  have hother : booted.run.Behaves .resume := by
    rintro - e p he - hinit
    cases he
    cases hinit
  obtain ⟨c, hc, hactives⟩ := exists_ok_of_map (f := fun c : Kernel 1 4 => actives c.stack)
    (x := booted.run.step .resume) (b := [0]) (by decide)
  have hruns := hrun.tail hother hc
  exact ⟨c, hruns, hactives, processes_consistent c hruns⟩

/-- The thread calls `process_exit` on its own process and then yields. -/
theorem not_processes_consistent :
    ¬∀ c : Kernel 1 4, Reaches step anyEvent Initial c → c.Consistent := by
  intro h
  obtain ⟨c, hrun, hstack⟩ := exists_ok_of_map
    (f := fun c : Kernel 1 4 => (c.stack, c.state 0, c.list)) (b := ([], .running, []))
    (x := runEvents step booted
      [.run, .resume, .resume, .call (.exit 0), .resume, .resume, .resume, .resume, .ret .yielded])
    (by decide)
  have hruns := (Reaches.initial booted_initial).of_runEvents
    (fun _ _ _ => trivial) hrun
  simp only [Prod.mk.injEq] at hstack
  have hlisted := (h c hruns).listed hstack.1 0
  rw [hstack.2.1, hstack.2.2] at hlisted
  exact absurd (hlisted.mpr nofun) List.not_mem_nil

end Kernel
end Contiki

import Contiki.Lib.ModularTime
import Contiki.Sys.Etimer
import Mathlib.Tactic.Ring

/-!
# The list of pending event timers

Each call leaves the pending timers linked and the bookkeeping of `update_time` right.

* `Etimers.Listed` — the pending timers are linked, and each belongs to a process.
* `Etimers.Kept` — in addition, the next expiration time is not later than any that is still to come,
  and none has passed while no poll is requested.
* `Kept.adjust`, `Kept.stop`, `Kept.exited`, `Listed.addTimer` — the calls.
-/

namespace Contiki
variable {w : ℕ}

lemma maxTicks_toNat (hw : 2 ≤ w) : (Etimers.maxTicks w).toNat = halfRange w - 1 := by
  have hpow := two_pow_eq hw
  have h1 := one_lt_halfRange hw
  rw [Etimers.maxTicks, BitVec.toNat_udiv, BitVec.toNat_not]
  have h2 : (2 : BitVec w).toNat = 2 := by
    rw [show (2 : BitVec w) = BitVec.ofNat w 2 from rfl, BitVec.toNat_ofNat]
    apply Nat.mod_eq_of_lt
    omega
  rw [h2, hpow]
  simp
  omega

lemma maxTicks_lt (hw : 2 ≤ w) {a b : BitVec w} (h : ahead b a < halfRange w) :
    a - b - 1 > Etimers.maxTicks w := by
  have hpow := two_pow_eq hw
  have heq : a - b - 1 = ~~~(b - a) := by
    have hneg : -(b - a) = ~~~(b - a) + 1 := BitVec.neg_eq_not_add (b - a)
    rw [← add_sub_cancel_right (~~~(b - a)) 1, ← hneg]
    ring
  rw [gt_iff_lt, BitVec.lt_def, maxTicks_toNat hw, heq, BitVec.toNat_not]
  unfold ahead at h
  omega

namespace Etimers
variable {n numEvents : ℕ} {Proc : Type} {s s' : Etimers w n numEvents Proc} {l : List (Fin n)}
  {t et : Fin n} {current : Proc}

/-! ## The list of pending timers -/

lemma pending_eq (h : Links.Linked s.next s.timerlist l) : s.pending = l :=
  h.walk_eq (by simpa using h.length_le)

/-- The timers are linked, each belongs to a process, and the intervals are short. -/
structure Listed (s : Etimers w n numEvents Proc) : Prop where
  linked : Links.Linked s.next s.timerlist s.pending
  owned : ∀ t ∈ s.pending, s.p t ≠ none
  short : ∀ t, (s.timer t).interval.toNat < halfRange w

lemma Listed.length_le (h : s.Listed) : s.pending.length ≤ n := by
  simpa using h.linked.length_le

/-- A state is `Listed` when its list, whatever it is, is. -/
lemma Listed.of_linked (h : Links.Linked s.next s.timerlist l) (howned : ∀ t ∈ l, s.p t ≠ none)
    (hshort : ∀ t, (s.timer t).interval.toNat < halfRange w) : s.Listed := by
  have heq := pending_eq h
  exact ⟨heq ▸ h, heq ▸ howned, hshort⟩

/-! ## The next expiration time -/

@[simp] lemma updateTime_pending : s.updateTime.pending = s.pending := rfl

lemma Listed.updateTime (h : s.Listed) : s.updateTime.Listed := ⟨h.linked, h.owned, h.short⟩

lemma tdistLoop_le {p : Option (Fin n)} {fuel : ℕ} (h : Links.Linked s.next p l)
    (hfuel : l.length ≤ fuel) (d : BitVec w) :
    (s.tdistLoop fuel p d).toNat ≤ d.toNat ∧
      ∀ t ∈ l, (s.tdistLoop fuel p d).toNat ≤ ahead (s.expirationTime t) s.clock := by
  induction l generalizing p fuel d with
  | nil =>
    rw [Links.linked_nil.mp h]
    refine ⟨?_, nofun⟩
    cases fuel <;> exact le_refl _
  | cons a l ih =>
    obtain ⟨rfl, hrest⟩ := h
    obtain ⟨fuel, rfl⟩ : ∃ k, fuel = k + 1 := ⟨fuel - 1, by simp at hfuel; omega⟩
    obtain ⟨hle, hall⟩ := ih hrest (by simpa using hfuel)
      (if s.expirationTime a - s.clock < d then s.expirationTime a - s.clock else d)
    have hmin : (s.tdistLoop (fuel + 1) (some a) d).toNat ≤ d.toNat ∧
        (s.tdistLoop (fuel + 1) (some a) d).toNat ≤ ahead (s.expirationTime a) s.clock := by
      rw [tdistLoop]
      by_cases hlt : s.expirationTime a - s.clock < d
      · rw [if_pos hlt] at hle ⊢
        have hlt' := BitVec.lt_def.mp hlt
        exact ⟨by omega, hle⟩
      · rw [if_neg hlt] at hle ⊢
        have hlt' := mt BitVec.lt_def.mpr hlt
        exact ⟨hle, by unfold ahead; omega⟩
    refine ⟨hmin.1, fun t ht => ?_⟩
    rcases List.mem_cons.mp ht with rfl | ht
    · exact hmin.2
    · exact hall t ht

/-- **`update_time`**: no pending timer expires nearer to now than the next expiration time. -/
lemma Listed.updateTime_le (h : s.Listed) (ht : t ∈ s.pending) :
    ahead s.updateTime.nextExpiration s.clock ≤ ahead (s.expirationTime t) s.clock := by
  have hlinked := h.linked
  have hlen := h.length_le
  cases hl : s.pending with
  | nil =>
    rw [hl] at ht
    exact absurd ht List.not_mem_nil
  | cons a l =>
    rw [hl] at hlinked hlen ht
    obtain ⟨hhead, hrest⟩ := hlinked
    have hnext : ahead s.updateTime.nextExpiration s.clock =
        (s.tdistLoop n (s.next a) (s.expirationTime a - s.clock)).toNat := by
      unfold Etimers.updateTime ahead
      rw [hhead]
      show (s.clock + _ - s.clock).toNat = _
      rw [add_sub_cancel_left]
    have hlen' : l.length ≤ n := by
      rw [List.length_cons] at hlen
      omega
    obtain ⟨hle, hall⟩ := tdistLoop_le hrest hlen' (s.expirationTime a - s.clock)
    rw [hnext]
    rcases List.mem_cons.mp ht with rfl | ht
    · exact hle
    · exact hall t ht

/-- The bookkeeping is right: the next expiration time is not later than any that is still to come,
and when no poll is requested, none has passed. -/
structure Kept (s : Etimers w n numEvents Proc) : Prop extends Listed s where
  near : ∀ t ∈ s.pending, ahead (s.expirationTime t) s.clock < halfRange w →
    NotLater s.nextExpiration (s.expirationTime t)
  unpolled : s.needspoll = false → ∀ t ∈ s.pending,
    ahead (s.expirationTime t) s.clock < halfRange w ∧
      (s.expirationTime t = s.clock → s.nextExpiration = s.clock)

lemma Listed.near_updateTime (h : s.Listed) (ht : t ∈ s.pending)
    (hahead : ahead (s.expirationTime t) s.clock < halfRange w) :
    NotLater s.updateTime.nextExpiration (s.expirationTime t) := by
  unfold NotLater
  rw [ahead_sub (h.updateTime_le ht)]
  omega

/-- Updating the time makes the bookkeeping right, unless an expiration time has passed without a
poll. -/
lemma Listed.kept_updateTime (h : s.Listed)
    (hpoll : s.needspoll = false →
      ∀ t ∈ s.pending, ahead (s.expirationTime t) s.clock < halfRange w) :
    s.updateTime.Kept := by
  refine ⟨h.updateTime, fun t ht hahead => h.near_updateTime ht hahead, fun hfalse t ht => ?_⟩
  refine ⟨hpoll hfalse t ht, fun heq => ?_⟩
  have hle := h.updateTime_le ht
  have hzero : ahead (s.expirationTime t) s.clock = 0 := ahead_eq_zero.mpr heq
  rw [hzero, Nat.le_zero] at hle
  exact ahead_eq_zero.mp hle

/-! ## The calls -/

/-- Adding a timer changes neither the timers, the clock nor the queue. -/
lemma addTimer_same (s : Etimers w n numEvents Proc) (current : Proc) (et : Fin n) :
    (s.addTimer current et).timer = s.timer ∧ (s.addTimer current et).clock = s.clock ∧
      (s.addTimer current et).events = s.events := by
  unfold Etimers.addTimer
  dsimp only
  split_ifs <;> exact ⟨rfl, rfl, rfl⟩

/-- Nor does stopping one. -/
lemma stop_same (s : Etimers w n numEvents Proc) (et : Fin n) :
    (s.stop et).timer = s.timer ∧ (s.stop et).clock = s.clock ∧
      (s.stop et).events = s.events := by
  unfold Etimers.stop Etimers.remove
  dsimp only
  split_ifs
  · exact ⟨rfl, rfl, rfl⟩
  · cases Links.before s.next et n s.timerlist <;> exact ⟨rfl, rfl, rfl⟩

lemma Listed.setTimer (h : s.Listed) {x : Timer w} (hx : x.interval.toNat < halfRange w) :
    (s.setTimer et x).Listed := by
  refine ⟨h.linked, h.owned, fun t => ?_⟩
  show (Function.update s.timer et x t).interval.toNat < _
  by_cases ht : t = et
  · rw [ht, Function.update_self]
    exact hx
  · rw [Function.update_of_ne ht]
    exact h.short t

/-- A timer that is set is pending afterwards, with a poll requested. -/
lemma Listed.addTimer (h : s.Listed) (current : Proc) (et : Fin n) :
    (s.addTimer current et).Kept := by
  unfold Etimers.addTimer
  by_cases hin : (s.requestPoll.p et).isSome ∧ et ∈ s.requestPoll.pending
  · simp only [if_pos hin]
    exact Listed.kept_updateTime ⟨h.linked, h.owned, h.short⟩ nofun
  · simp only [if_neg hin]
    refine Listed.kept_updateTime ?_ nofun
    have hnot : et ∉ s.pending := fun hmem =>
      hin ⟨Option.isSome_iff_ne_none.mpr (h.owned et hmem), hmem⟩
    refine Listed.of_linked (h.linked.push hnot) (fun t ht => ?_) h.short
    show Function.update s.p et (some current) t ≠ none
    by_cases heq : t = et
    · rw [heq, Function.update_self]
      nofun
    · rw [Function.update_of_ne heq]
      exact h.owned t ((List.mem_cons.mp ht).resolve_left heq)

lemma Kept.adjust (h : s.Kept) {timediff : ℤ}
    (hok : et ∈ s.pending → s.needspoll = true ∨
      ahead (s.adjusted et timediff).expiration s.clock < halfRange w) :
    (s.adjust et timediff).Kept := by
  refine Listed.kept_updateTime (h.toListed.setTimer (h.short et)) fun hfalse t ht => ?_
  show ahead (Function.update s.timer et _ t).expiration s.clock < _
  by_cases heq : t = et
  · subst heq
    rw [Function.update_self]
    refine (hok ht).resolve_left ?_
    rw [show s.needspoll = false from hfalse]
    nofun
  · rw [Function.update_of_ne heq]
    exact (h.unpolled hfalse t ht).1

/-- Fewer timers are pending, at the same times, and the time is updated or left. -/
lemma Kept.remove (h : s.Kept) (et : Fin n) :
    (s.remove et).Kept ∧ (s.remove et).pending = s.pending.filter (· ≠ et) := by
  have hsub : ∀ x : Etimers w n numEvents Proc, x.timer = s.timer → x.p = s.p →
      x.needspoll = s.needspoll → x.clock = s.clock →
      Links.Linked x.next x.timerlist (s.pending.filter (· ≠ et)) →
      x.updateTime.Kept ∧ x.updateTime.pending = s.pending.filter (· ≠ et) := by
    intro x htimer hp hpoll hclock hlinked
    have hpending := pending_eq hlinked
    refine ⟨Listed.kept_updateTime (Listed.of_linked hlinked ?_ ?_) ?_, hpending⟩
    · intro t ht
      rw [hp]
      exact h.owned t (List.mem_of_mem_filter ht)
    · rw [htimer]
      exact h.short
    · intro hfalse t ht
      rw [hpending] at ht
      rw [hpoll] at hfalse
      have hback := (h.unpolled hfalse t (List.mem_of_mem_filter ht)).1
      unfold expirationTime at hback ⊢
      rw [htimer, hclock]
      exact hback
  unfold Etimers.remove
  by_cases hmem : et ∈ s.pending
  · rcases h.linked.without hmem h.toListed.length_le with
      ⟨hhead, hrest⟩ | ⟨hhead, b, -, -, hbefore, hrest⟩
    · rw [if_pos hhead]
      exact hsub _ rfl rfl rfl rfl hrest
    · rw [if_neg hhead, hbefore]
      exact hsub _ rfl rfl rfl rfl hrest
  · have hhead : s.timerlist ≠ some et := by
      intro hhead
      have hlinked := h.linked
      rw [hhead] at hlinked
      cases hl : s.pending with
      | nil =>
        rw [hl] at hlinked
        exact absurd hlinked nofun
      | cons a l =>
        rw [hl] at hlinked hmem
        exact hmem (Option.some.inj hlinked.1 ▸ List.mem_cons_self)
    rw [if_neg hhead, h.linked.before_eq_none hmem]
    refine ⟨h, ?_⟩
    rw [eq_comm, List.filter_eq_self]
    intro t ht
    have hne : t ≠ et := fun heq => hmem (heq ▸ ht)
    simpa using hne

lemma Kept.stop (h : s.Kept) (et : Fin n) :
    (s.stop et).Kept ∧ (s.stop et).pending = s.pending.filter (· ≠ et) := by
  obtain ⟨hkept, hpending⟩ := h.remove et
  have hnot : et ∉ (s.remove et).pending := by
    rw [hpending]
    simp
  have heq : (s.stop et).pending = (s.remove et).pending :=
    pending_eq (hkept.linked.update_of_notMem hnot none)
  refine ⟨⟨Listed.of_linked (hkept.linked.update_of_notMem hnot none) ?_ hkept.short, ?_, ?_⟩,
    heq.trans hpending⟩
  · intro t ht
    show Function.update (s.remove et).p et none t ≠ none
    have hne : t ≠ et := by
      rintro rfl
      exact hnot ht
    rw [Function.update_of_ne hne]
    exact hkept.owned t ht
  · rw [heq]
    exact hkept.near
  · rw [heq]
    exact hkept.unpolled

/-! ## The exit of a process -/

section exited
variable [DecidableEq Proc] {p : Proc}

/-- The timers in front that belong to `p` are skipped. -/
lemma skipOwned_linked {q : Option (Fin n)} {fuel : ℕ} (h : Links.Linked s.next q l)
    (hfuel : l.length ≤ fuel) :
    ∃ m, Links.Linked s.next (s.skipOwned p fuel q) m ∧ m.length ≤ l.length ∧
      m.filter (s.p · ≠ some p) = l.filter (s.p · ≠ some p) ∧ ∀ t ∈ m.head?, s.p t ≠ some p := by
  induction l generalizing q fuel with
  | nil =>
    refine ⟨[], ?_, le_refl _, rfl, nofun⟩
    rw [Links.linked_nil.mp h]
    cases fuel <;> rfl
  | cons a l ih =>
    obtain ⟨rfl, hrest⟩ := h
    obtain ⟨fuel, rfl⟩ : ∃ k, fuel = k + 1 := ⟨fuel - 1, by simp at hfuel; omega⟩
    rw [skipOwned]
    by_cases howner : s.p a = some p
    · obtain ⟨m, hlinked, hlen, hfilter, hhead⟩ := ih hrest (by simpa using hfuel)
      rw [if_pos howner, List.filter_cons_of_neg (by simpa using howner)]
      exact ⟨m, hlinked, hlen.trans (Nat.le_succ _), hfilter, hhead⟩
    · rw [if_neg howner]
      refine ⟨a :: l, ⟨rfl, hrest⟩, le_refl _, rfl, fun t ht => ?_⟩
      obtain rfl : a = t := Option.some.inj ht
      exact howner

/-- The loop keeps `t` and the timers of other processes behind it, and touches no pointer of a timer
that is not behind `t`. -/
lemma unlinkOwned_linked {owner : Fin n → Option Proc} {next : Fin n → Option (Fin n)} {fuel : ℕ}
    (h : Links.Linked next (some t) (t :: l)) (hfuel : l.length ≤ fuel) :
    Links.Linked (unlinkOwned owner p fuel t next) (some t)
        (t :: l.filter (owner · ≠ some p)) ∧
      ∀ x, x ∉ t :: l → unlinkOwned owner p fuel t next x = next x := by
  induction l generalizing t next fuel with
  | nil =>
    have hnone : next t = none := h.2
    have hsame : unlinkOwned owner p fuel t next = next := by
      cases fuel with
      | zero => rfl
      | succ fuel => rw [unlinkOwned, hnone]
    rw [hsame]
    exact ⟨h, fun _ _ => rfl⟩
  | cons u l ih =>
    have hnext : next t = some u := h.2.1
    have hnodup := h.nodup
    obtain ⟨fuel, rfl⟩ : ∃ k, fuel = k + 1 := ⟨fuel - 1, by simp at hfuel; omega⟩
    have hfuel' : l.length ≤ fuel := by simpa using hfuel
    rw [unlinkOwned, hnext]
    by_cases howner : owner u = some p
    · simp only [if_pos howner]
      obtain ⟨hlinked, hframe⟩ := ih (Links.Linked.unlink (l := []) h) hfuel'
      rw [List.filter_cons_of_neg (by simpa using howner)]
      refine ⟨hlinked, fun x hx => ?_⟩
      rw [hframe x fun hmem => hx ?_, Function.update_of_ne]
      · rintro rfl
        exact hx List.mem_cons_self
      · rcases List.mem_cons.mp hmem with rfl | hmem
        · exact List.mem_cons_self
        · exact List.mem_cons_of_mem _ (List.mem_cons_of_mem _ hmem)
    · simp only [if_neg howner]
      obtain ⟨hlinked, hframe⟩ := ih (t := u) (hnext ▸ h.2) hfuel'
      rw [List.filter_cons_of_pos (by simpa using howner)]
      refine ⟨⟨rfl, ?_⟩, fun x hx => hframe x fun hmem => hx (List.mem_cons_of_mem _ hmem)⟩
      rw [hframe t (List.nodup_cons.mp hnodup).1, hnext]
      exact hlinked

lemma Kept.exited (h : s.Kept) (p : Proc) :
    (s.exited p).Kept ∧ (s.exited p).pending = s.pending.filter (s.p · ≠ some p) := by
  have hlinked : Links.Linked (s.exited p).next (s.exited p).timerlist
      (s.pending.filter (s.p · ≠ some p)) := by
    have hlen := h.toListed.length_le
    obtain ⟨m, hskip, hm, hfilter, hhead⟩ := skipOwned_linked (p := p) h.linked hlen
    rw [← hfilter]
    unfold Etimers.exited
    cases m with
    | nil =>
      rw [Links.linked_nil.mp hskip]
      rfl
    | cons t l =>
      rw [List.length_cons] at hm
      rw [hskip.1, List.filter_cons_of_pos (by simpa using hhead t rfl)]
      exact (unlinkOwned_linked ⟨rfl, hskip.2⟩ (by omega)).1
  have hsame : (s.exited p).timer = s.timer ∧ (s.exited p).p = s.p ∧
      (s.exited p).clock = s.clock ∧ (s.exited p).nextExpiration = s.nextExpiration ∧
      (s.exited p).needspoll = s.needspoll := by
    unfold Etimers.exited
    cases s.skipOwned p n s.timerlist <;> exact ⟨rfl, rfl, rfl, rfl, rfl⟩
  obtain ⟨htimer, hp, hclock, hnext, hpoll⟩ := hsame
  have hpending := pending_eq hlinked
  have hmem : ∀ t ∈ (s.exited p).pending, t ∈ s.pending := by
    intro t ht
    rw [hpending] at ht
    exact List.mem_of_mem_filter ht
  have hexp : ∀ t, (s.exited p).expirationTime t = s.expirationTime t := by
    intro t
    unfold expirationTime
    rw [htimer]
  refine ⟨⟨⟨hpending ▸ hlinked, fun t ht => ?_, ?_⟩, fun t ht => ?_, fun hfalse t ht => ?_⟩,
    hpending⟩
  · rw [hp]
    exact h.owned t (hmem t ht)
  · rw [htimer]
    exact h.short
  · rw [hexp, hclock, hnext]
    exact h.near t (hmem t ht)
  · rw [hexp, hclock, hnext]
    rw [hpoll] at hfalse
    exact h.unpolled hfalse t (hmem t ht)
end exited
end Etimers
end Contiki

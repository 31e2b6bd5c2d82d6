import Contiki.Rime.RouteTable
import Mathlib.Logic.Function.Basic

/-!
# How long routes live

The periodic timer of the route table.  The loop follows the links of the entries; the link of an entry that
is taken off the table leads nowhere, so the loop is through with the first entry that has reached its
limit.

* `RouteTable.periodic_of_none_due`, `periodic_of_due` — what the loop does to the table.
* `RouteTable.Timed` — the table with the time since each entry was added or refreshed.
* `RouteTable.fires_of_run` — when a firing ages all entries and removes just those that are too old.
-/

namespace Contiki
namespace Rime
namespace RouteTable
variable {size n : ℕ} {s s' : RouteTable size n} {e x : Fin (n + 1)}

/-! ## The loop -/

@[simp] lemma entry_older_self (s : RouteTable size n) (e : Fin (n + 1)) :
    (s.older e).entry e = { s.entry e with time := (s.entry e).time + 1 } := Function.update_self ..

lemma entry_older_of_ne (hx : x ≠ e) : (s.older e).entry x = s.entry x := Function.update_of_ne hx ..

@[simp] lemma entry_routeRemove (s : RouteTable size n) (e : Fin (n + 1)) : (s.routeRemove e).entry = s.entry :=
  s.mem.free_mem e

/-- The next firing takes an entry off, when its turn comes. -/
def DueNext (s : RouteTable size n) (e : Fin (n + 1)) : Prop :=
  (((s.entry e).time + 1).toNat : ℤ) ≥ s.maxTime

instance (s : RouteTable size n) (e : Fin (n + 1)) : Decidable (s.DueNext e) :=
  inferInstanceAs (Decidable (_ ≥ _))

lemma due_older : (s.older e).Due e ↔ s.DueNext e := by
  unfold Due DueNext
  rw [entry_older_self]
  rfl

lemma turn_of_due (h : s.DueNext e) : s.turn e = (s.older e).routeRemove e := if_pos (due_older.mpr h)

lemma turn_of_not_due (h : ¬ s.DueNext e) : s.turn e = s.older e := if_neg (mt due_older.mp h)

/-- What is behind an item on its list. -/
lemma listItemNext_append {β : Type*} [DecidableEq β] {pre post : List β} {a : β} (h : a ∉ pre) :
    listItemNext (pre ++ a :: post) a = post.head? := by
  induction pre with
  | nil => exact if_pos rfl
  | cons b pre ih =>
    obtain ⟨hne, hpre⟩ := not_or.mp (mt List.mem_cons.mpr h)
    have hstep : listItemNext (b :: (pre ++ a :: post)) a = listItemNext (pre ++ a :: post) a :=
      if_neg (Ne.symm hne)
    exact hstep.trans (ih hpre)

/-- Nothing is behind an item that is not on the list. -/
lemma listItemNext_of_notMem {β : Type*} [DecidableEq β] {l : List β} {a : β} (h : a ∉ l) :
    listItemNext l a = none := by
  induction l with
  | nil => rfl
  | cons b l ih =>
    obtain ⟨hne, hl⟩ := not_or.mp (mt List.mem_cons.mpr h)
    have hstep : listItemNext (b :: l) a = listItemNext l a := if_neg (Ne.symm hne)
    exact hstep.trans (ih hl)

/-- The table after the turns of some entries that stay on it. -/
def olderAll (s : RouteTable size n) (l : List (Fin (n + 1))) : RouteTable size n := l.foldl older s

lemma olderAll_table (s : RouteTable size n) (l : List (Fin (n + 1))) : (s.olderAll l).table = s.table := by
  induction l generalizing s with
  | nil => rfl
  | cons e l ih => exact ih (s.older e)

lemma olderAll_maxTime (s : RouteTable size n) (l : List (Fin (n + 1))) :
    (s.olderAll l).maxTime = s.maxTime := by
  induction l generalizing s with
  | nil => rfl
  | cons e l ih => exact ih (s.older e)

lemma entry_olderAll_of_notMem {l : List (Fin (n + 1))} (hx : x ∉ l) : (s.olderAll l).entry x = s.entry x := by
  induction l generalizing s with
  | nil => rfl
  | cons e l ih =>
    obtain ⟨hne, hl⟩ := not_or.mp (mt List.mem_cons.mpr hx)
    exact (ih hl).trans (entry_older_of_ne hne)

lemma entry_olderAll {l : List (Fin (n + 1))} (hl : l.Nodup) (hx : x ∈ l) :
    (s.olderAll l).entry x = { s.entry x with time := (s.entry x).time + 1 } := by
  induction l generalizing s with
  | nil => exact absurd hx List.not_mem_nil
  | cons e l ih =>
    obtain ⟨hnot, hnodup⟩ := List.nodup_cons.mp hl
    rcases List.mem_cons.mp hx with rfl | hx
    · exact (entry_olderAll_of_notMem (s := s.older x) hnot).trans (entry_older_self s x)
    · have hne : x ≠ e := fun heq => hnot (heq ▸ hx)
      rw [← entry_older_of_ne (s := s) hne]
      exact ih hnodup hx

lemma periodicLoop_none (fuel : ℕ) (s : RouteTable size n) : periodicLoop fuel none s = s := by
  cases fuel with
  | zero => rfl
  | succ fuel => rfl

lemma dueNext_older (hx : x ≠ e) : (s.older e).DueNext x ↔ s.DueNext x := by
  unfold DueNext
  rw [entry_older_of_ne hx]
  rfl

lemma dueNext_olderAll {l : List (Fin (n + 1))} (hx : x ∉ l) : (s.olderAll l).DueNext x ↔ s.DueNext x := by
  unfold DueNext
  rw [entry_olderAll_of_notMem hx, olderAll_maxTime]

/-- The loop goes through the entries that stay, and makes each of them older. -/
lemma periodicLoop_young {pre young rest : List (Fin (n + 1))} {fuel : ℕ}
    (htable : s.table = pre ++ (young ++ rest)) (hnodup : s.table.Nodup) (hdue : ∀ e ∈ young, ¬ s.DueNext e) :
    periodicLoop (young.length + fuel) (young ++ rest).head? s =
      periodicLoop fuel rest.head? (s.olderAll young) := by
  induction young generalizing pre s with
  | nil =>
    rw [List.length_nil, Nat.zero_add]
    rfl
  | cons e young ih =>
    have hsplit : s.table = pre ++ e :: (young ++ rest) := htable
    have hnodup' := hnodup
    rw [hsplit, List.nodup_append] at hnodup'
    obtain ⟨-, hcons, hdisj⟩ := hnodup'
    have hpre : e ∉ pre := fun hin => hdisj e hin e List.mem_cons_self rfl
    have hyoung : ∀ x ∈ young, x ≠ e := by
      rintro x hx rfl
      exact (List.nodup_cons.mp hcons).1 (List.mem_append_left _ hx)
    have hlen : (e :: young).length + fuel = (young.length + fuel) + 1 := by
      rw [List.length_cons]
      omega
    have hnext : listItemNext (s.older e).table e = (young ++ rest).head? := by
      show listItemNext s.table e = _
      rw [hsplit, listItemNext_append hpre]
    have hstep : periodicLoop ((young.length + fuel) + 1) (some e) s =
        periodicLoop (young.length + fuel) (young ++ rest).head? (s.older e) := by
      rw [periodicLoop, turn_of_not_due (hdue e List.mem_cons_self), hnext]
    have holder : (s.older e).table = (pre ++ [e]) ++ (young ++ rest) := by
      rw [List.append_assoc]
      exact hsplit
    rw [hlen]
    exact hstep.trans (ih holder hnodup fun x hx =>
      mt (dueNext_older (hyoung x hx)).mp (hdue x (List.mem_cons_of_mem _ hx)))

/-- When no entry reaches its limit, all become older. -/
lemma periodic_of_none_due (hnodup : s.table.Nodup) (hdue : ∀ e ∈ s.table, ¬ s.DueNext e) :
    s.periodic = s.olderAll s.table := by
  have hloop : periodicLoop (s.table.length + 0) (s.table ++ []).head? s =
      periodicLoop 0 ([] : List (Fin (n + 1))).head? (s.olderAll s.table) :=
    periodicLoop_young (by rw [List.append_nil, List.nil_append]) hnodup hdue
  rw [List.append_nil] at hloop
  exact hloop.trans (periodicLoop_none 0 _)

/-- When an entry reaches its limit, it is taken off the table; those in front have become older, and those
behind have no turn. -/
lemma periodic_of_due {young rest : List (Fin (n + 1))} (htable : s.table = young ++ e :: rest)
    (hnodup : s.table.Nodup) (hyoung : ∀ x ∈ young, ¬ s.DueNext x) (hdue : s.DueNext e) :
    s.periodic = ((s.olderAll young).older e).routeRemove e := by
  have hnodup' := hnodup
  rw [htable, List.nodup_append] at hnodup'
  have hnot : e ∉ young := fun hin => hnodup'.2.2 e hin e List.mem_cons_self rfl
  have hloop : periodicLoop (young.length + (rest.length + 1)) (young ++ e :: rest).head? s =
      periodicLoop (rest.length + 1) (e :: rest).head? (s.olderAll young) :=
    periodicLoop_young (htable.trans (List.nil_append _).symm) hnodup hyoung
  have hturn := turn_of_due ((dueNext_olderAll hnot).mpr hdue)
  have hgone : e ∉ (((s.olderAll young).older e).routeRemove e).table := by
    show e ∉ listRemove (s.olderAll young).table e
    rw [olderAll_table, mem_listRemove hnodup]
    exact fun h => h.2 rfl
  have hend : periodicLoop (rest.length + 1) (some e) (s.olderAll young) =
      ((s.olderAll young).older e).routeRemove e := by
    rw [periodicLoop, hturn, listItemNext_of_notMem hgone, periodicLoop_none]
  have hlen : s.table.length = young.length + (rest.length + 1) := by
    rw [htable, List.length_append, List.length_cons]
  unfold periodic
  rw [hlen, htable]
  exact hloop.trans hend

/-- Either no entry reaches its limit, or there is a first one. -/
lemma none_due_or_first (s : RouteTable size n) : (∀ e ∈ s.table, ¬ s.DueNext e) ∨
    ∃ young e rest, s.table = young ++ e :: rest ∧ (∀ x ∈ young, ¬ s.DueNext x) ∧ s.DueNext e := by
  cases hfind : s.table.find? fun e => decide (s.DueNext e) with
  | none =>
    refine .inl fun e he => ?_
    simpa using List.find?_eq_none.mp hfind e he
  | some e =>
    obtain ⟨hdue, young, rest, hsplit, hyoung⟩ := List.find?_eq_some_iff_append.mp hfind
    exact .inr ⟨young, e, rest, hsplit, fun x hx => by simpa using hyoung x hx, of_decide_eq_true hdue⟩

/-! ## Time -/

/-- The table, with the number of firings since each entry was added or refreshed. -/
structure Timed (size n : ℕ) where
  state : RouteTable size n
  idle : Fin (n + 1) → ℕ

namespace Timed
variable {t : Timed size n}

/-- The time after an event that leads to the table `s`; an entry that was added is the first one then. -/
def idleAfter (t : Timed size n) (s : RouteTable size n) : Event size n → Fin (n + 1) → ℕ
  | .add _ _ _ _ => (s.table.head?).elim t.idle fun e => Function.update t.idle e 0
  | .refresh e => Function.update t.idle e 0
  | .periodic => fun e => t.idle e + 1
  | .remove _ => t.idle
  | .decay _ => t.idle
  | .flushAll => t.idle
  | .setLifetime _ => t.idle

/-- What happens to the table and to the time. -/
def step (t : Timed size n) (ev : Event size n) : Except Unit (Timed size n) :=
  (t.state.step ev).map fun s => ⟨s, t.idleAfter s ev⟩

/-- The next firing makes every entry that stays older by one, and the entries that stay are those for which
the lifetime is not over. -/
def Fires (t : Timed size n) : Prop :=
  (t.state.periodic.table = t.state.table.filter fun e => ((t.idle e + 1 : ℕ) : ℤ) < t.state.maxTime) ∧
    ∀ e ∈ t.state.periodic.table,
      (t.state.periodic.entry e).time.toNat = (t.state.entry e).time.toNat + 1

/-- No age is at the end of its range, and where an entry reaches the limit with the next firing, it is the
last one. -/
def InTurn (t : Timed size n) : Prop :=
  (∀ e ∈ t.state.table, t.idle e ≠ 255) ∧
    ∀ e ∈ t.state.table, ((t.idle e + 1 : ℕ) : ℤ) ≥ t.state.maxTime → t.state.table.getLast? = some e

/-- The ages of the entries count the firings. -/
structure Counts (t : Timed size n) : Prop where
  owned : t.state.Owned
  maxTime : 0 < t.state.maxTime
  time : ∀ e ∈ t.state.table, (t.state.entry e).time.toNat = t.idle e

lemma Counts.time_succ (h : t.Counts) (he : e ∈ t.state.table) (hmax : t.idle e ≠ 255) :
    ((t.state.entry e).time + 1).toNat = t.idle e + 1 := by
  have hlt := (t.state.entry e).time.toNat_lt
  have htime := h.time e he
  rw [UInt8.toNat_add]
  show ((t.state.entry e).time.toNat + 1) % 256 = _
  omega

lemma Counts.dueNext_iff (h : t.Counts) (he : e ∈ t.state.table) (hmax : t.idle e ≠ 255) :
    t.state.DueNext e ↔ ((t.idle e + 1 : ℕ) : ℤ) ≥ t.state.maxTime := by
  unfold DueNext
  rw [h.time_succ he hmax]

lemma eq_nil_of_getLast? {α : Type*} {young rest : List α} {a : α} (hnodup : (young ++ a :: rest).Nodup)
    (h : (young ++ a :: rest).getLast? = some a) : rest = [] := by
  rcases List.eq_nil_or_concat' rest with hnil | ⟨l, b, rfl⟩
  · exact hnil
  · have hsplit : young ++ a :: (l ++ [b]) = (young ++ a :: l) ++ [b] := by simp
    rw [hsplit, List.getLast?_concat, Option.some.injEq] at h
    rw [h] at hnodup
    simp [List.nodup_append] at hnodup

/-- Where everything has its turn that needs one, the firing does what it should. -/
lemma Counts.fires_of_inTurn (h : t.Counts) (hturn : t.InTurn) : t.Fires := by
  have hnodup := h.owned.nodup
  have hstays : ∀ x ∈ t.state.table, ¬ t.state.DueNext x → ((t.idle x + 1 : ℕ) : ℤ) < t.state.maxTime :=
    fun x hx hdue => not_le.mp (mt (h.dueNext_iff hx (hturn.1 x hx)).mpr hdue)
  have htime : ∀ x ∈ t.state.table,
      ((t.state.entry x).time + 1).toNat = (t.state.entry x).time.toNat + 1 := fun x hx => by
    rw [h.time_succ hx (hturn.1 x hx), h.time x hx]
  unfold Fires
  rcases t.state.none_due_or_first with hnone | ⟨young, e, rest, hsplit, hyoung, hdue⟩
  · rw [periodic_of_none_due hnodup hnone, olderAll_table]
    refine ⟨(List.filter_eq_self.mpr fun x hx => decide_eq_true (hstays x hx (hnone x hx))).symm, fun x hx => ?_⟩
    rw [entry_olderAll hnodup hx]
    exact htime x hx
  · have he : e ∈ t.state.table := hsplit ▸ List.mem_append_right _ List.mem_cons_self
    have hlimit := (h.dueNext_iff he (hturn.1 e he)).mp hdue
    have hlast := hturn.2 e he hlimit
    have hin : ∀ x ∈ young, x ∈ t.state.table := fun x hx => hsplit ▸ List.mem_append_left _ hx
    rw [periodic_of_due hsplit hnodup hyoung hdue, entry_routeRemove]
    have hnodup' := hnodup
    rw [hsplit] at hnodup' hlast
    obtain rfl := eq_nil_of_getLast? hnodup' hlast
    have hnot : e ∉ young := fun hx => (List.nodup_append.mp hnodup').2.2 e hx e List.mem_cons_self rfl
    have htable : (((t.state.olderAll young).older e).routeRemove e).table = young := by
      show listRemove (t.state.olderAll young).table e = young
      rw [olderAll_table, hsplit, listRemove, List.erase_append_right _ hnot, List.erase_cons_head,
        List.append_nil]
    rw [htable]
    constructor
    · have hfront : (young.filter fun x => ((t.idle x + 1 : ℕ) : ℤ) < t.state.maxTime) = young :=
        List.filter_eq_self.mpr fun x hx => decide_eq_true (hstays x (hin x hx) (hyoung x hx))
      have hback : ([e].filter fun x => ((t.idle x + 1 : ℕ) : ℤ) < t.state.maxTime) = [] :=
        List.filter_eq_nil_iff.mpr fun x hx => by
          rw [List.mem_singleton.mp hx, decide_eq_true_eq]
          exact not_lt.mpr hlimit
      rw [hsplit, List.filter_append, hfront, hback, List.append_nil]
    · intro x hx
      have hne : x ≠ e := fun heq => hnot (heq ▸ hx)
      rw [entry_older_of_ne hne, entry_olderAll (List.nodup_append.mp hnodup').1 hx]
      exact htime x (hin x hx)

/-- Where the firing does what it should, everything has its turn that needs one. -/
lemma Counts.inTurn_of_fires (h : t.Counts) (hfires : t.Fires) : t.InTurn := by
  have hnodup := h.owned.nodup
  obtain ⟨htable, htime⟩ := hfires
  rcases t.state.none_due_or_first with hnone | ⟨young, e, rest, hsplit, hyoung, hdue⟩
  · have hall : t.state.periodic.table = t.state.table := by
      rw [periodic_of_none_due hnodup hnone, olderAll_table]
    rw [hall] at htable htime
    refine ⟨fun x hx hmax => ?_, fun x hx hlimit => ?_⟩
    · have hsucc := htime x hx
      have hlt := (t.state.periodic.entry x).time.toNat_lt
      have hcount := h.time x hx
      omega
    · have hstays := List.filter_eq_self.mp htable.symm x hx
      exact absurd hlimit (not_le.mpr (of_decide_eq_true hstays))
  · have hper := periodic_of_due hsplit hnodup hyoung hdue
    have hin : ∀ x ∈ t.state.table, x ≠ e → x ∈ t.state.periodic.table := fun x hx hne => by
      rw [hper]
      show x ∈ listRemove (t.state.olderAll young).table e
      rw [olderAll_table, mem_listRemove hnodup]
      exact ⟨hx, hne⟩
    refine ⟨fun x hx hmax => ?_, fun x hx hlimit => ?_⟩
    · have hcount := h.time x hx
      by_cases hxe : x = e
      · subst hxe
        have hzero : ((t.state.entry x).time + 1).toNat = 0 := by
          rw [UInt8.toNat_add]
          show ((t.state.entry x).time.toNat + 1) % 256 = 0
          omega
        have hpos := h.maxTime
        unfold DueNext at hdue
        rw [hzero] at hdue
        omega
      · have hsucc := htime x (hin x hx hxe)
        have hlt := (t.state.periodic.entry x).time.toNat_lt
        omega
    · have hxe : x = e := by
        by_contra hne
        have hmem := hin x hx hne
        rw [htable, List.mem_filter, decide_eq_true_eq] at hmem
        exact absurd hlimit (not_le.mpr hmem.2)
      subst hxe
      have hnodup' := hnodup
      rw [hsplit] at hnodup' ⊢
      cases rest with
      | nil => exact List.getLast?_concat
      | cons y rest =>
        -- what is behind the entry that was taken off has not become older
        obtain ⟨-, hcons, hdisj⟩ := List.nodup_append.mp hnodup'
        have hyx : y ≠ x := fun heq => (List.nodup_cons.mp hcons).1 (heq ▸ List.mem_cons_self)
        have hyoung' : y ∉ young := fun hy =>
          hdisj y hy y (List.mem_cons_of_mem _ List.mem_cons_self) rfl
        have hytable : y ∈ t.state.table := by
          rw [hsplit]
          exact List.mem_append_right _ (List.mem_cons_of_mem _ List.mem_cons_self)
        have hsucc := htime y (hin y hytable hyx)
        rw [hper, entry_routeRemove, entry_older_of_ne hyx, entry_olderAll_of_notMem hyoung'] at hsucc
        omega

/-! ## Runs -/

/-- A lifetime that is set is positive. -/
def LifetimeOk (ev : Event size n) : Prop := ∀ seconds, ev = .setLifetime seconds → 0 < seconds

/-- Before a firing, everything has its turn that needs one. -/
def FiringOk (t : Timed size n) (ev : Event size n) : Prop :=
  LifetimeOk ev ∧ (ev = .periodic → t.InTurn)

/-- Entries are taken off the table, or changed without their time. -/
lemma Counts.of_sublist {t' : Timed size n} (h : t.Counts) (howned : t'.state.Owned)
    (hmax : t'.state.maxTime = t.state.maxTime) (hsub : t'.state.table.Sublist t.state.table)
    (htime : ∀ e, (t'.state.entry e).time = (t.state.entry e).time) (hidle : t'.idle = t.idle) : t'.Counts where
  owned := howned
  maxTime := hmax ▸ h.maxTime
  time e he := by
    rw [htime, hidle]
    exact h.time e (hsub.subset he)

lemma routeDecay_time (s : RouteTable size n) (e x : Fin (n + 1)) :
    ((s.routeDecay e).entry x).time = (s.entry x).time := by
  have hdecayed : ((s.decayed e).entry x).time = (s.entry x).time := by
    have hentry : (s.decayed e).entry = Function.update s.entry e
      { s.entry e with timeLastDecay := (s.entry e).time, decay := (s.entry e).decay + 1 } := rfl
    rw [hentry]
    by_cases hx : x = e
    · subst hx
      rw [Function.update_self]
    · rw [Function.update_of_ne hx]
  unfold routeDecay
  split_ifs
  · rw [entry_routeRemove, hdecayed]
  · exact hdecayed
  · rfl

lemma routeDecay_maxTime (s : RouteTable size n) (e : Fin (n + 1)) :
    (s.routeDecay e).maxTime = s.maxTime := by
  unfold routeDecay
  split_ifs
  · rfl
  · rfl
  · rfl

lemma routeDecay_sublist (s : RouteTable size n) (e : Fin (n + 1)) :
    (s.routeDecay e).table.Sublist s.table := by
  unfold routeDecay
  split_ifs
  · exact List.erase_sublist
  · exact .refl _
  · exact .refl _

lemma periodic_maxTime (s : RouteTable size n) : s.periodic.maxTime = s.maxTime := by
  have hturn : ∀ (s : RouteTable size n) e, (s.turn e).maxTime = s.maxTime := fun s e => by
    unfold turn
    split_ifs
    · rfl
    · rfl
  exact periodicLoop_induction (P := fun t => t.maxTime = s.maxTime)
    (fun t e ht _ => (hturn t e).trans ht) _ (fun _ he => List.mem_of_head? he) rfl

/-- The firings are counted, when everything has its turn that needs one. -/
lemma Counts.step {t' : Timed size n} (h : t.Counts) {ev : Event size n} (hok : FiringOk t ev)
    (hstep : t.step ev = .ok t') : t'.Counts := by
  unfold Timed.step at hstep
  cases hs : t.state.step ev with
  | error u =>
    rw [hs] at hstep
    cases hstep
  | ok s =>
    have howned := h.owned.step hs
    rw [hs] at hstep
    cases hstep
    cases ev with
    | add dest nexthop cost seqno =>
      cases hs
      obtain ⟨e, s', hblock, htable, hmax, hentry, -⟩ := routeAdd_spec h.owned dest nexthop cost seqno
      refine ⟨howned, hmax ▸ h.maxTime, fun x hx => ?_⟩
      have hidle : t.idleAfter (t.state.routeAdd dest nexthop cost seqno) (.add dest nexthop cost seqno) =
          Function.update t.idle e 0 := by
        unfold idleAfter
        rw [htable]
        rfl
      show ((t.state.routeAdd dest nexthop cost seqno).entry x).time.toNat =
        t.idleAfter (t.state.routeAdd dest nexthop cost seqno) (.add dest nexthop cost seqno) x
      rw [hidle, hentry]
      by_cases hxe : x = e
      · subst hxe
        rw [Function.update_self, Function.update_self]
        rfl
      · rw [Function.update_of_ne hxe, Function.update_of_ne hxe]
        change x ∈ (t.state.routeAdd dest nexthop cost seqno).table at hx
        rw [htable] at hx
        exact h.time x (hblock.sublist.subset ((List.mem_cons.mp hx).resolve_left hxe))
    | remove e =>
      obtain ⟨-, rfl⟩ := onTable_eq_ok.mp hs
      exact h.of_sublist howned rfl List.erase_sublist (fun x => by rw [entry_routeRemove]) rfl
    | decay e =>
      obtain ⟨-, rfl⟩ := onTable_eq_ok.mp hs
      exact h.of_sublist howned (routeDecay_maxTime _ e) (routeDecay_sublist _ e) (routeDecay_time _ e) rfl
    | refresh e =>
      obtain ⟨-, rfl⟩ := onTable_eq_ok.mp hs
      refine ⟨howned, h.maxTime, fun x hx => ?_⟩
      have hentry : (t.state.routeRefresh e).entry =
        Function.update t.state.entry e { t.state.entry e with time := 0, decay := 0 } := rfl
      show ((t.state.routeRefresh e).entry x).time.toNat = Function.update t.idle e 0 x
      rw [hentry]
      by_cases hxe : x = e
      · subst hxe
        rw [Function.update_self, Function.update_self]
        rfl
      · rw [Function.update_of_ne hxe, Function.update_of_ne hxe]
        exact h.time x hx
    | flushAll =>
      cases hs
      exact ⟨howned, h.maxTime, fun x hx => absurd hx List.not_mem_nil⟩
    | setLifetime seconds =>
      cases hs
      exact ⟨howned, hok.1 seconds rfl, h.time⟩
    | periodic =>
      cases hs
      obtain ⟨htable, htime⟩ := h.fires_of_inTurn (hok.2 rfl)
      refine ⟨howned, (periodic_maxTime t.state).symm ▸ h.maxTime, fun x hx => ?_⟩
      have hin : x ∈ t.state.table := by
        change x ∈ t.state.periodic.table at hx
        rw [htable] at hx
        exact List.mem_of_mem_filter hx
      show (t.state.periodic.entry x).time.toNat = t.idle x + 1
      rw [htime x hx, h.time x hin]

/-- From any table on which the ages count the time, in a run in which before every firing everything has its
turn that needs one, the ages count the time; and the next firing makes every entry older by one and
removes just those whose lifetime is over, just if everything has its turn that needs one. -/
theorem fires_of_run (h : Reaches step FiringOk Counts t) :
    (∀ e ∈ t.state.table, (t.state.entry e).time.toNat = t.idle e) ∧ (t.Fires ↔ t.InTurn) := by
  have hcounts : t.Counts := h.invariant (fun _ ht => ht) fun _ _ _ ht hok hstep => ht.step hok hstep
  exact ⟨hcounts.time, hcounts.inTurn_of_fires, hcounts.fires_of_inTurn⟩

lemma counts_start : (⟨start, fun _ => 0⟩ : Timed 2 7).Counts :=
  ⟨start_empty.owned, by decide, fun e he => absurd he List.not_mem_nil⟩

instance : (ev : Event size n) → Decidable (LifetimeOk ev)
  | .setLifetime seconds => decidable_of_iff (0 < seconds)
      ⟨fun h _ heq => by cases heq; exact h, fun h => h _ rfl⟩
  | .add .. | .remove _ | .decay _ | .refresh _ | .flushAll | .periodic =>
    .isTrue fun _ heq => by cases heq

instance (t : Timed size n) : Decidable t.InTurn := inferInstanceAs (Decidable (_ ∧ _))

instance (t : Timed size n) : (ev : Event size n) → Decidable (FiringOk t ev)
  | .periodic => decidable_of_iff t.InTurn
      ⟨fun h => ⟨fun _ heq => (by cases heq), fun _ => h⟩, fun h => h.2 rfl⟩
  | .add .. | .remove _ | .decay _ | .refresh _ | .flushAll | .setLifetime _ =>
    decidable_of_iff (LifetimeOk _) ⟨fun h => ⟨h, fun heq => by cases heq⟩, And.left⟩

/-- With a lifetime of two seconds, the second firing removes the first of two routes. -/
theorem fires_of_run_two : ∃ t : Timed 2 7, Reaches step FiringOk Counts t ∧
    t.state.table = [1, 0] ∧ t.state.periodic.table = [1] ∧ t.Fires := by
  obtain ⟨t, ht, hslots⟩ : ∃ t : Timed 2 7, Reaches step FiringOk Counts t ∧
      (t.state.table, t.state.periodic.table, decide t.InTurn) = ([1, 0], [1], true) :=
    Reaches.exists_guarded counts_start
      [.setLifetime 2, .add (.short 1) (.short 2) 3 0, .periodic, .add (.short 3) (.short 2) 3 0] _
      (by decide +kernel)
  simp only [Prod.mk.injEq, decide_eq_true_eq] at hslots
  exact ⟨t, ht, hslots.1, hslots.2.1, (fires_of_run ht).2.mpr hslots.2.2⟩

/-- With a lifetime of one second, of two routes the second one outlives it. -/
theorem not_fires_of_run :
    ¬ ∀ t : Timed 2 7, Reaches step (fun _ ev => LifetimeOk ev) Counts t → t.Fires := by
  intro hall
  have hok : ∀ ev ∈ ([.setLifetime 1, .add (.short 1) (.short 2) 3 0, .add (.short 3) (.short 2) 3 0] :
      List (Event 2 7)), LifetimeOk ev := by
    intro ev hev seconds hset
    rw [hset] at hev
    simp only [List.mem_cons, Event.setLifetime.injEq, reduceCtorEq, List.not_mem_nil, or_false] at hev
    rw [hev]
    exact Int.one_pos
  have hstart : Reaches step (fun _ ev => LifetimeOk ev) Counts (⟨start, fun _ => 0⟩ : Timed 2 7) :=
    Reaches.initial counts_start
  have hrun := hstart.of_runEvents (fun ev hev _ => hok ev hev) rfl
  exact absurd (hall _ hrun).1 (by decide)

end Timed
end RouteTable
end Rime
end Contiki

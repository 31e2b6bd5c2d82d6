import Contiki.Rime.CollectNeighbor
import Mathlib.Logic.Function.Basic

/-!
# How old the neighbours of `collect` get

The periodic timer of a list of neighbours.  After a neighbour has been taken off the list the loop goes
on behind the head of the list; when it was the head that was taken off, its successor is passed over.

* `CollectNeighborList.expire_of_old`, `expire_of_young` — what the loop over the ages leaves.
* `CollectAges.step`, `CollectAges.Aging` — runs with the time that has passed since the last updates.
* `CollectAges.fresh_of_run` — in which runs no neighbour gets too old.
-/

namespace Contiki
open Rime
variable {size : ℕ}

namespace CollectNeighbor

/-- What the second loop of `periodic` makes of a neighbour that it comes to. -/
def examine (n : CollectNeighbor size) : Option (CollectNeighbor size) :=
  if n.age = maxAge then none else some n.renew

variable {n m : CollectNeighbor size}

@[simp] lemma renew_age (n : CollectNeighbor size) : n.renew.age = n.age := by
  unfold renew
  split_ifs <;> rfl

@[simp] lemma renew_addr (n : CollectNeighbor size) : n.renew.addr = n.addr := by
  unfold renew
  split_ifs <;> rfl

lemma renew_renew (n : CollectNeighbor size) : n.renew.renew = n.renew := by
  by_cases hage : n.leAge = maxLeAge
  · have hnew : n.renew = { n with le := .new, leAge := 0 } := if_pos hage
    rw [hnew]
    rfl
  · have hsame : n.renew = n := if_neg hage
    rw [hsame, hsame]

lemma examine_eq_some : n.examine = some m ↔ n.age ≠ maxAge ∧ n.renew = m := by
  unfold examine
  split_ifs with hage
  · simp [hage]
  · simp [hage]

/-- A neighbour that was examined is left as it is from then on. -/
lemma examine_examine (h : n.examine = some m) : m.examine = some m := by
  obtain ⟨hage, rfl⟩ := examine_eq_some.mp h
  exact examine_eq_some.mpr ⟨by rwa [renew_age], renew_renew n⟩

end CollectNeighbor

namespace CollectNeighborList

/-! ## The loop -/

/-- Behind the head, in front of which nothing is looked at any more, every neighbour has its turn. -/
lemma expire_behind {a : CollectNeighbor size} (l : CollectNeighborList size) (pos : ℕ)
    (pre post : CollectNeighborList size) (hl : l = a :: (pre ++ post)) (hpos : pos = pre.length + 1)
    (hpre : ∀ n ∈ pre, n.examine = some n) :
    expire l pos = a :: (pre ++ post.filterMap CollectNeighbor.examine) := by
  fun_induction expire l pos generalizing pre post with
  | case1 l pos hlt n hage ih =>
    obtain rfl := hl
    obtain rfl := hpos
    cases post with
    | nil => simp at hlt
    | cons x post =>
      have hx : (a :: (pre ++ x :: post))[pre.length + 1] = x := by simp
      have hnone : x.examine = none := by
        refine if_pos ?_
        rw [← x.renew_age, ← hx]
        exact hage
      have herase : (a :: (pre ++ x :: post)).eraseIdx (pre.length + 1) = a :: ([] ++ (pre ++ post)) := by
        rw [List.eraseIdx_cons_succ, List.eraseIdx_append_of_length_le le_rfl, Nat.sub_self]
        rfl
      have hpre' : pre.filterMap CollectNeighbor.examine = pre :=
        (List.filterMap_congr hpre).trans List.filterMap_some
      rw [ih [] (pre ++ post) herase rfl fun n hn => absurd hn List.not_mem_nil, List.nil_append,
        List.filterMap_append, hpre', List.filterMap_cons_none hnone]
  | case2 l pos hlt n hage ih =>
    obtain rfl := hl
    obtain rfl := hpos
    cases post with
    | nil => simp at hlt
    | cons x post =>
      have hx : n = x.renew := by
        show (a :: (pre ++ x :: post))[pre.length + 1].renew = _
        simp
      have hsome : x.examine = some x.renew := by
        refine if_neg fun hold => hage ?_
        rw [hx, x.renew_age]
        exact hold
      have hset : (a :: (pre ++ x :: post)).set (pre.length + 1) n = a :: ((pre ++ [x.renew]) ++ post) := by
        rw [hx]
        simp
      rw [ih (pre ++ [x.renew]) post hset (by simp) ?_, List.filterMap_cons_some hsome]
      · simp
      · intro m hm
        rcases List.mem_append.mp hm with hm | hm
        · exact hpre m hm
        · rw [List.mem_singleton.mp hm]
          exact CollectNeighbor.examine_examine hsome
  | case3 l pos hlt =>
    obtain rfl := hl
    obtain rfl := hpos
    have hnil : post = [] := by
      simp only [List.length_cons, List.length_append] at hlt
      exact List.length_eq_zero_iff.mp (by omega)
    rw [hnil]
    rfl

section
variable {a b : CollectNeighbor size} {l : CollectNeighborList size}

lemma expire_nil (pos : ℕ) : expire ([] : CollectNeighborList size) pos = [] := by
  unfold expire
  rw [dif_neg (by simp)]

/-- When the head is too old, its successor has no turn. -/
lemma expire_of_old (h : a.age = maxAge) :
    expire (a :: b :: l) 0 = b :: l.filterMap CollectNeighbor.examine := by
  have hage : ((a :: b :: l)[0].renew).age = maxAge := (a.renew_age).trans h
  rw [expire, dif_pos (by simp)]
  simp only [hage, if_true]
  exact expire_behind _ _ [] l rfl rfl fun n hn => absurd hn List.not_mem_nil

lemma expire_single (h : a.age = maxAge) : expire [a] 0 = [] := by
  have hage : (([a] : CollectNeighborList size)[0].renew).age = maxAge := (a.renew_age).trans h
  rw [expire, dif_pos (by simp)]
  simp only [hage, if_true]
  exact expire_nil 1

/-- When the head is not too old, everything has its turn. -/
lemma expire_of_young (h : a.age ≠ maxAge) :
    expire (a :: l) 0 = a.renew :: l.filterMap CollectNeighbor.examine := by
  have hage : ((a :: l)[0].renew).age ≠ maxAge := fun hold => h ((a.renew_age).symm.trans hold)
  rw [expire, dif_pos (by simp)]
  simp only [hage, if_false]
  exact expire_behind _ _ [] l rfl rfl fun n hn => absurd hn List.not_mem_nil

end

/-! ## The addresses on the list -/

/-- The addresses of the neighbours. -/
def addrs (l : CollectNeighborList size) : List (Rimeaddr size) := l.map CollectNeighbor.addr

section
variable {l : CollectNeighborList size} {addr : Rimeaddr size} {n x : CollectNeighbor size} {i : ℕ}

lemma find_eq_some (h : l.find addr = some i) : ∃ hi : i < l.length, l[i].addr = addr := by
  obtain ⟨hi, haddr, -⟩ := List.findIdx?_eq_some_iff_getElem.mp h
  exact ⟨hi, by simpa using haddr⟩

lemma find_eq_none (h : l.find addr = none) : addr ∉ l.addrs := by
  intro hmem
  obtain ⟨n, hn, rfl⟩ := List.mem_map.mp hmem
  have hnot := List.findIdx?_eq_none_iff.mp h n hn
  simp at hnot

/-- Only one neighbour has the address of the neighbour at a place. -/
lemma addr_ne (hl : l.addrs.Nodup) {k : ℕ} (hi : i < l.length) (hk : k < l.length) (hne : k ≠ i) :
    l[k].addr ≠ l[i].addr := by
  intro heq
  have hk' : k < l.addrs.length := by rwa [addrs, List.length_map]
  have hi' : i < l.addrs.length := by rwa [addrs, List.length_map]
  have hget : l.addrs[k] = l.addrs[i] := by simpa [addrs] using heq
  exact hne (hl.getElem_inj_iff.mp hget)

lemma mem_set_cases (hl : l.addrs.Nodup) (hi : i < l.length) (h : n ∈ l.set i x) :
    n = x ∨ n ∈ l ∧ n.addr ≠ l[i].addr := by
  obtain ⟨k, hk, rfl⟩ := List.getElem_of_mem h
  rw [List.length_set] at hk
  by_cases hki : i = k
  · subst hki
    exact .inl (List.getElem_set_self _)
  · rw [List.getElem_set_ne hki]
    exact .inr ⟨List.getElem_mem hk, addr_ne hl hi hk (Ne.symm hki)⟩

lemma addrs_set (l : CollectNeighborList size) (i : ℕ) (x : CollectNeighbor size) :
    addrs (l.set i x) = l.addrs.set i x.addr := List.map_set

/-- A neighbour that is added takes the place of the one with its address, or there was none; then it
comes to the end, takes the place of another one, or is left out. -/
lemma add_cases (l : CollectNeighborList size) (addr : Rimeaddr size) (nrtmetric : UInt16) (room : Bool) :
    (∃ (i : ℕ) (hi : i < l.length), l[i].addr = addr ∧
      l.add addr nrtmetric room = l.set i (.added addr nrtmetric)) ∨
    addr ∉ l.addrs ∧ (l.add addr nrtmetric room = l ++ [.added addr nrtmetric] ∨
      (∃ i < l.length, l.add addr nrtmetric room = l.set i (.added addr nrtmetric)) ∨
      l.add addr nrtmetric room = l) := by
  unfold add
  cases hfind : l.find addr with
  | some i =>
    obtain ⟨hi, haddr⟩ := find_eq_some hfind
    exact .inl ⟨i, hi, haddr, rfl⟩
  | none =>
    refine .inr ⟨find_eq_none hfind, ?_⟩
    cases room with
    | true => exact .inl rfl
    | false =>
      cases l.worst.2 with
      | none => exact .inr (.inr rfl)
      | some i =>
        by_cases hbetter : nrtmetric.toNat < l.worst.1
        · exact .inr (.inl ⟨i, i.isLt, if_pos hbetter⟩)
        · exact .inr (.inr (if_neg hbetter))

lemma mem_add_cases (hl : l.addrs.Nodup) {nrtmetric : UInt16} {room : Bool}
    (h : n ∈ l.add addr nrtmetric room) : n = .added addr nrtmetric ∨ n ∈ l ∧ n.addr ≠ addr := by
  rcases add_cases l addr nrtmetric room with ⟨i, hi, haddr, heq⟩ | ⟨hnot, hcases⟩
  · rw [heq] at h
    rw [← haddr] at h ⊢
    exact mem_set_cases hl hi h
  · have hother : n ∈ l → n = .added addr nrtmetric ∨ n ∈ l ∧ n.addr ≠ addr := by
      refine fun hn => .inr ⟨hn, ?_⟩
      rintro rfl
      exact hnot (List.mem_map_of_mem hn)
    rcases hcases with heq | ⟨i, hi, heq⟩ | heq
    · rw [heq] at h
      rcases List.mem_append.mp h with h | h
      · exact hother h
      · exact .inl (List.mem_singleton.mp h)
    · rw [heq] at h
      rcases List.mem_or_eq_of_mem_set h with h | h
      · exact hother h
      · exact .inl h
    · rw [heq] at h
      exact hother h

lemma nodup_add (hl : l.addrs.Nodup) (nrtmetric : UInt16) (room : Bool) :
    (l.add addr nrtmetric room).addrs.Nodup := by
  rcases add_cases l addr nrtmetric room with ⟨i, hi, haddr, heq⟩ | ⟨hnot, heq | ⟨i, hi, heq⟩ | heq⟩
  · have hsame : l.addrs.set i addr = l.addrs := by
      have hi' : i < l.addrs.length := by rwa [addrs, List.length_map]
      have hget : l.addrs[i] = addr := by simpa [addrs] using haddr
      rw [← hget]
      exact List.set_getElem_self hi'
    rw [heq, addrs_set]
    exact hsame.symm ▸ hl
  · rw [heq, addrs, List.map_append, List.map_singleton]
    exact hl.append (List.nodup_singleton _) (List.disjoint_singleton.mpr hnot)
  · rw [heq, addrs_set]
    exact hl.set hnot
  · rwa [heq]

/-- After something was done with the neighbour at an address, there is what was made of it, and others. -/
lemma mem_withNeighbor_cases (hl : l.addrs.Nodup) {f : CollectNeighbor size → CollectNeighbor size}
    (h : n ∈ l.withNeighbor addr f) : (∃ m ∈ l, m.addr = addr ∧ n = f m) ∨ n ∈ l ∧ n.addr ≠ addr := by
  unfold withNeighbor at h
  cases hfind : l.find addr with
  | none =>
    rw [hfind] at h
    refine .inr ⟨h, ?_⟩
    rintro rfl
    exact find_eq_none hfind (List.mem_map_of_mem h)
  | some i =>
    rw [hfind] at h
    obtain ⟨hi, rfl⟩ := find_eq_some hfind
    obtain ⟨k, hk, rfl⟩ := List.getElem_of_mem h
    have hk' : k < l.length := by rwa [List.length_modify] at hk
    rw [List.getElem_modify]
    split_ifs with hki
    · subst hki
      exact .inl ⟨l[i], List.getElem_mem hi, rfl, rfl⟩
    · exact .inr ⟨List.getElem_mem hk', addr_ne hl hi hk' (Ne.symm hki)⟩

lemma addrs_withNeighbor {f : CollectNeighbor size → CollectNeighbor size} (hf : ∀ n, (f n).addr = n.addr) :
    (l.withNeighbor addr f).addrs = l.addrs := by
  unfold withNeighbor
  cases l.find addr with
  | none => rfl
  | some i =>
    apply List.ext_getElem
    · simp [addrs]
    · intro k hk hk'
      simp only [addrs, List.getElem_map, List.getElem_modify]
      split_ifs
      · exact hf _
      · rfl

lemma remove_sublist (l : CollectNeighborList size) (addr : Rimeaddr size) : (l.remove addr).Sublist l := by
  unfold remove
  cases l.find addr with
  | none => exact .refl l
  | some i => exact List.eraseIdx_sublist ..

end

/-! ## A tick -/

section
variable {l : CollectNeighborList size} {n : CollectNeighbor size}

/-- The timer finds an empty list, or it takes off a head that has reached its limit and passes over the
next neighbour, or every neighbour has its turn. -/
lemma periodic_cases (l : CollectNeighborList size) :
    (l.periodic = [] ∧ ∀ n ∈ l, n.older.age = maxAge) ∨
    (∃ a b r, l = a :: b :: r ∧ a.older.age = maxAge ∧
      l.periodic = b.older :: (r.map CollectNeighbor.older).filterMap CollectNeighbor.examine) ∨
    ∃ a r, l = a :: r ∧ a.older.age ≠ maxAge ∧
      l.periodic = a.older.renew :: (r.map CollectNeighbor.older).filterMap CollectNeighbor.examine := by
  cases l with
  | nil => exact .inl ⟨expire_nil 0, fun n hn => absurd hn List.not_mem_nil⟩
  | cons a r =>
    by_cases hage : a.older.age = maxAge
    · cases r with
      | nil =>
        refine .inl ⟨expire_single hage, fun n hn => ?_⟩
        rw [List.mem_singleton.mp hn]
        exact hage
      | cons b r => exact .inr (.inl ⟨a, b, r, rfl, hage, expire_of_old hage⟩)
    · exact .inr (.inr ⟨a, r, rfl, hage, expire_of_young hage⟩)

lemma mem_examined {r : CollectNeighborList size} :
    n ∈ (r.map CollectNeighbor.older).filterMap CollectNeighbor.examine ↔
      ∃ m ∈ r, m.older.age ≠ maxAge ∧ m.older.renew = n := by
  rw [List.filterMap_map, List.mem_filterMap]
  refine exists_congr fun m => and_congr_right fun _ => ?_
  exact CollectNeighbor.examine_eq_some

/-- Who is on the list after a tick: neighbours that had their turn, and the one that was passed over. -/
lemma mem_periodic (h : n ∈ l.periodic) :
    ∃ m ∈ l, (m.older.age ≠ maxAge ∧ n = m.older.renew) ∨
      (n = m.older ∧ ∃ a r, l = a :: m :: r ∧ a.older.age = maxAge) := by
  rcases periodic_cases l with ⟨hnil, -⟩ | ⟨a, b, r, rfl, hage, heq⟩ | ⟨a, r, rfl, hage, heq⟩
  · rw [hnil] at h
    exact absurd h List.not_mem_nil
  · rw [heq] at h
    rcases List.mem_cons.mp h with rfl | h
    · exact ⟨b, by simp, .inr ⟨rfl, a, r, rfl, hage⟩⟩
    · obtain ⟨m, hm, hyoung, rfl⟩ := mem_examined.mp h
      exact ⟨m, by simp [hm], .inl ⟨hyoung, rfl⟩⟩
  · rw [heq] at h
    rcases List.mem_cons.mp h with rfl | h
    · exact ⟨a, List.mem_cons_self, .inl ⟨hage, rfl⟩⟩
    · obtain ⟨m, hm, hyoung, rfl⟩ := mem_examined.mp h
      exact ⟨m, List.mem_cons_of_mem _ hm, .inl ⟨hyoung, rfl⟩⟩

/-- Who has not reached the limit is still on the list after a tick. -/
lemma mem_periodic_of_young (h : n ∈ l) (hage : n.older.age ≠ maxAge) :
    n.older.renew ∈ l.periodic ∨ n.older ∈ l.periodic := by
  rcases periodic_cases l with ⟨-, hold⟩ | ⟨a, b, r, rfl, hold, heq⟩ | ⟨a, r, rfl, hyoung, heq⟩
  · exact absurd (hold n h) hage
  · rw [heq]
    rcases List.mem_cons.mp h with rfl | h
    · exact absurd hold hage
    · rcases List.mem_cons.mp h with rfl | h
      · exact .inr List.mem_cons_self
      · exact .inl (List.mem_cons_of_mem _ (mem_examined.mpr ⟨n, h, hage, rfl⟩))
  · rw [heq]
    rcases List.mem_cons.mp h with rfl | h
    · exact .inl List.mem_cons_self
    · exact .inl (List.mem_cons_of_mem _ (mem_examined.mpr ⟨n, h, hage, rfl⟩))

lemma addrs_examined (r : CollectNeighborList size) :
    (addrs ((r.map CollectNeighbor.older).filterMap CollectNeighbor.examine)).Sublist r.addrs := by
  induction r with
  | nil => exact .refl _
  | cons m r ih =>
    by_cases hage : m.older.age = maxAge
    · have hnone : m.older.examine = none := if_pos hage
      rw [List.map_cons, List.filterMap_cons_none hnone]
      exact ih.cons _
    · have hsome : m.older.examine = some m.older.renew := if_neg hage
      rw [List.map_cons, List.filterMap_cons_some hsome, addrs, List.map_cons, CollectNeighbor.renew_addr]
      exact ih.cons_cons _

lemma addrs_periodic (l : CollectNeighborList size) : l.periodic.addrs.Sublist l.addrs := by
  rcases periodic_cases l with ⟨hnil, -⟩ | ⟨a, b, r, rfl, hage, heq⟩ | ⟨a, r, rfl, hage, heq⟩
  · rw [hnil]
    exact List.nil_sublist _
  · rw [heq]
    exact ((addrs_examined r).cons_cons _).cons _
  · rw [heq, addrs, List.map_cons, CollectNeighbor.renew_addr]
    exact (addrs_examined r).cons_cons _

lemma eq_of_addr_eq {m : CollectNeighbor size} (hl : l.addrs.Nodup) (hn : n ∈ l) (hm : m ∈ l)
    (h : n.addr = m.addr) : n = m := List.inj_on_of_nodup_map hl hn hm h

end

end CollectNeighborList

/-! ## Time -/

/-- A list of neighbours, with the number of ticks since the last update of each of them and since its
link estimate was last refreshed. -/
structure CollectAges (size : ℕ) where
  list : CollectNeighborList size
  quiet : Rimeaddr size → ℕ
  stale : Rimeaddr size → ℕ

namespace CollectAges

/-- In a tick, the estimate of the neighbour with an address is made new. -/
def Renews (l : CollectNeighborList size) (addr : Rimeaddr size) : Prop :=
  ∃ n ∈ l.periodic, n.addr = addr ∧ n.le = .new ∧ n.leAge = 0

instance (l : CollectNeighborList size) (addr : Rimeaddr size) : Decidable (Renews l addr) :=
  inferInstanceAs (Decidable (∃ n ∈ l.periodic, n.addr = addr ∧ n.le = .new ∧ n.leAge = 0))

/-- What happens to a list, and to the time. -/
def step (s : CollectAges size) (e : CollectNeighborEvent size) : CollectAges size :=
  match e with
  | .add addr _ _ =>
    { list := s.list.step e, quiet := Function.update s.quiet addr 0, stale := Function.update s.stale addr 0 }
  | .remove _ => { s with list := s.list.step e }
  | .purge => { s with list := s.list.step e }
  | .updateRtmetric addr _ => { s with list := s.list.step e, quiet := Function.update s.quiet addr 0 }
  | .tx addr _ =>
    { list := s.list.step e, quiet := Function.update s.quiet addr 0, stale := Function.update s.stale addr 0 }
  | .txFail addr _ =>
    { list := s.list.step e, quiet := Function.update s.quiet addr 0, stale := Function.update s.stale addr 0 }
  | .rx addr => { s with list := s.list.step e, quiet := Function.update s.quiet addr 0 }
  | .tick =>
    { list := s.list.step e
      quiet := fun addr => s.quiet addr + 1
      stale := fun addr => if Renews s.list addr then 0 else s.stale addr + 1 }

/-- No neighbour on the list has gone without an update, or its link estimate without being refreshed, for
too long. -/
def Fresh (s : CollectAges size) : Prop :=
  ∀ n ∈ s.list, s.quiet n.addr < maxAge.toNat ∧ s.stale n.addr ≤ maxLeAge.toNat

/-- A tick makes everything on the list older by one, and makes new the link estimates that have reached
their limit; what has not reached its own limit stays. -/
structure Advances (l l' : CollectNeighborList size) : Prop where
  older : ∀ n' ∈ l', ∃ n ∈ l, n'.addr = n.addr ∧ n'.rtmetric = n.rtmetric ∧
    n'.age.toNat = n.age.toNat + 1 ∧
    (n'.leAge.toNat = n.leAge.toNat + 1 ∧ n'.le = n.le ∨
      n.leAge.toNat + 1 = maxLeAge.toNat ∧ n'.leAge = 0 ∧ n'.le = .new)
  stays : ∀ n ∈ l, n.age.toNat + 1 < maxAge.toNat → ∃ n' ∈ l', n'.addr = n.addr

/-- The first two neighbours do not both reach the limit of age with the next tick, and where a link
estimate has been left at its limit, the neighbour itself reaches its limit. -/
def InTurn (l : CollectNeighborList size) : Prop :=
  (∀ a b rest, l = a :: b :: rest → ¬ (a.age.toNat + 1 = maxAge.toNat ∧ b.age.toNat + 1 = maxAge.toNat)) ∧
    ∀ n ∈ l, n.leAge.toNat = maxLeAge.toNat → n.age.toNat + 1 = maxAge.toNat

/-- The ages of the neighbours count the ticks. -/
structure Aging (s : CollectAges size) : Prop where
  nodup : s.list.addrs.Nodup
  age : ∀ n ∈ s.list, n.age.toNat = s.quiet n.addr
  leAge : ∀ n ∈ s.list, n.leAge.toNat = s.stale n.addr
  fresh : s.Fresh

section
variable {s : CollectAges size} {n m : CollectNeighbor size}

lemma Aging.age_lt (h : s.Aging) (hn : n ∈ s.list) : n.age.toNat < maxAge.toNat := by
  rw [h.age n hn]
  exact (h.fresh n hn).1

lemma Aging.leAge_le (h : s.Aging) (hn : n ∈ s.list) : n.leAge.toNat ≤ maxLeAge.toNat := by
  rw [h.leAge n hn]
  exact (h.fresh n hn).2

/-- The counters of a neighbour that becomes older do not run over. -/
lemma older_toNat (hage : n.age.toNat < maxAge.toNat) (hle : n.leAge.toNat ≤ maxLeAge.toNat) :
    n.older.age.toNat = n.age.toNat + 1 ∧ n.older.leAge.toNat = n.leAge.toNat + 1 := by
  have hage' : n.age.toNat < 180 := hage
  have hle' : n.leAge.toNat ≤ 10 := hle
  constructor
  · show (n.age + 1).toNat = _
    rw [UInt16.toNat_add]
    show (n.age.toNat + 1) % 65536 = _
    omega
  · show (n.leAge + 1).toNat = _
    rw [UInt16.toNat_add]
    show (n.leAge.toNat + 1) % 65536 = _
    omega

lemma older_age_eq (h : s.Aging) (hn : n ∈ s.list) :
    n.older.age = maxAge ↔ n.age.toNat + 1 = maxAge.toNat := by
  rw [← (older_toNat (h.age_lt hn) (h.leAge_le hn)).1]
  exact UInt16.toNat_inj.symm

/-- The counters of a neighbour after a tick, by those before. -/
lemma Aging.advanced (h : s.Aging) (hm : m ∈ s.list.periodic) :
    ∃ n ∈ s.list, m.addr = n.addr ∧ m.rtmetric = n.rtmetric ∧ m.age.toNat = n.age.toNat + 1 ∧
      (m.leAge.toNat = n.leAge.toNat + 1 ∧ m.le = n.le ∨
        n.leAge.toNat + 1 = maxLeAge.toNat ∧ m.leAge = 0 ∧ m.le = .new) := by
  obtain ⟨n, hn, hform⟩ := CollectNeighborList.mem_periodic hm
  obtain ⟨hage, hle⟩ := older_toNat (h.age_lt hn) (h.leAge_le hn)
  refine ⟨n, hn, ?_⟩
  rcases hform with ⟨hyoung, rfl⟩ | ⟨rfl, -⟩
  · by_cases hlimit : n.older.leAge = maxLeAge
    · have hnew : n.older.renew = { n.older with le := .new, leAge := 0 } := if_pos hlimit
      rw [hnew]
      exact ⟨rfl, rfl, hage, .inr ⟨by rw [← hle, hlimit], rfl, rfl⟩⟩
    · have hsame : n.older.renew = n.older := if_neg hlimit
      rw [hsame]
      exact ⟨rfl, rfl, hage, .inl ⟨hle, rfl⟩⟩
  · exact ⟨rfl, rfl, hage, .inl ⟨hle, rfl⟩⟩

lemma Aging.advances (h : s.Aging) : Advances s.list s.list.periodic where
  older _ hm := h.advanced hm
  stays n hn hlt := by
    have hyoung : n.older.age ≠ maxAge := fun hold => by
      have heq := (older_age_eq h hn).mp hold
      omega
    rcases CollectNeighborList.mem_periodic_of_young hn hyoung with hmem | hmem
    · exact ⟨_, hmem, n.older.renew_addr⟩
    · exact ⟨_, hmem, rfl⟩

/-- After a tick the counters still count the ticks. -/
lemma Aging.tick_counts (h : s.Aging) (hm : m ∈ s.list.periodic) :
    m.age.toNat = (s.step .tick).quiet m.addr ∧ m.leAge.toNat = (s.step .tick).stale m.addr := by
  obtain ⟨n, hn, haddr, -, hage, hle⟩ := h.advanced hm
  have hnodup := h.nodup.sublist (CollectNeighborList.addrs_periodic s.list)
  refine ⟨?_, ?_⟩
  · show _ = s.quiet m.addr + 1
    rw [hage, haddr, h.age n hn]
  · show _ = if Renews s.list m.addr then 0 else s.stale m.addr + 1
    rcases hle with ⟨hle, -⟩ | ⟨-, hzero, hnew⟩
    · have hnot : ¬ Renews s.list m.addr := by
        rintro ⟨x, hx, hxm, -, hxzero⟩
        rw [CollectNeighborList.eq_of_addr_eq hnodup hx hm hxm] at hxzero
        rw [hxzero] at hle
        exact absurd hle (Nat.succ_ne_zero _).symm
      rw [if_neg hnot, hle, haddr, h.leAge n hn]
    · rw [if_pos ⟨m, hm, rfl, hnew, hzero⟩, hzero]
      rfl

/-- After a tick everything is fresh just if everything had its turn that needed one. -/
lemma Aging.tick_fresh_iff (h : s.Aging) : (s.step .tick).Fresh ↔ InTurn s.list := by
  have hfresh : (s.step .tick).Fresh ↔ ∀ m ∈ s.list.periodic,
      m.age.toNat < maxAge.toNat ∧ m.leAge.toNat ≤ maxLeAge.toNat := by
    refine forall₂_congr fun m hm => ?_
    rw [(h.tick_counts hm).1, (h.tick_counts hm).2]
  rw [hfresh]
  constructor
  · intro hall
    refine ⟨?_, fun n hn hlimit => ?_⟩
    · rintro a b rest hl ⟨ha, hb⟩
      have ha' : a ∈ s.list := hl ▸ List.mem_cons_self
      have hb' : b ∈ s.list := hl ▸ List.mem_cons_of_mem _ List.mem_cons_self
      have hmem : b.older ∈ s.list.periodic := by
        rw [hl]
        show b.older ∈ CollectNeighborList.expire (a.older :: b.older :: rest.map CollectNeighbor.older) 0
        rw [CollectNeighborList.expire_of_old ((older_age_eq h ha').mpr ha)]
        exact List.mem_cons_self
      have hbound := (hall _ hmem).1
      rw [(older_age_eq h hb').mpr hb] at hbound
      exact absurd hbound (lt_irrefl _)
    · by_contra hnot
      have hyoung := mt (older_age_eq h hn).mp hnot
      obtain ⟨hage, hle⟩ := older_toNat (h.age_lt hn) (h.leAge_le hn)
      have hpast : n.older.leAge ≠ maxLeAge := fun heq => by
        rw [← heq] at hlimit
        omega
      have hsame : n.older.renew = n.older := if_neg hpast
      have hmem : n.older ∈ s.list.periodic := by
        rcases CollectNeighborList.mem_periodic_of_young hn hyoung with hmem | hmem
        · rwa [hsame] at hmem
        · exact hmem
      have hbound := (hall _ hmem).2
      omega
  · intro hturn m hm
    obtain ⟨n, hn, hform⟩ := CollectNeighborList.mem_periodic hm
    have haddr : m.addr = n.addr := by
      rcases hform with ⟨-, rfl⟩ | ⟨rfl, -⟩
      · exact n.older.renew_addr
      · rfl
    have hyoung : n.age.toNat + 1 ≠ maxAge.toNat := by
      rcases hform with ⟨hage, -⟩ | ⟨-, a, r, hl, hold⟩
      · exact mt (older_age_eq h hn).mpr hage
      · have ha : a ∈ s.list := hl ▸ List.mem_cons_self
        exact fun hlimit => hturn.1 a n r hl ⟨(older_age_eq h ha).mp hold, hlimit⟩
    have hpast : n.leAge.toNat ≠ maxLeAge.toNat := fun hlimit => hyoung (hturn.2 n hn hlimit)
    have hage := h.age_lt hn
    have hle := h.leAge_le hn
    obtain ⟨n', hn', haddr', -, hcount, hrenew⟩ := h.advanced hm
    obtain rfl := CollectNeighborList.eq_of_addr_eq h.nodup hn hn' (haddr.symm.trans haddr')
    refine ⟨by omega, ?_⟩
    rcases hrenew with ⟨hcount', -⟩ | ⟨-, hzero, -⟩
    · omega
    · rw [hzero]
      exact Nat.zero_le _

/-! ## Runs -/

/-- The list after an event has neighbours of before, with the same times, and neighbours whose counters
count the time. -/
lemma Aging.of_cases {s' : CollectAges size} (h : s.Aging) (hnodup : s'.list.addrs.Nodup)
    (hcases : ∀ n ∈ s'.list,
      n ∈ s.list ∧ s'.quiet n.addr = s.quiet n.addr ∧ s'.stale n.addr = s.stale n.addr ∨
      n.age = 0 ∧ s'.quiet n.addr = 0 ∧ n.leAge.toNat = s'.stale n.addr ∧
        s'.stale n.addr ≤ maxLeAge.toNat) : s'.Aging where
  nodup := hnodup
  age n hn := by
    rcases hcases n hn with ⟨hold, hquiet, -⟩ | ⟨hage, hquiet, -⟩
    · rw [hquiet]
      exact h.age n hold
    · rw [hage, hquiet]
      rfl
  leAge n hn := by
    rcases hcases n hn with ⟨hold, -, hstale⟩ | ⟨-, -, hle, -⟩
    · rw [hstale]
      exact h.leAge n hold
    · exact hle
  fresh n hn := by
    rcases hcases n hn with ⟨hold, hquiet, hstale⟩ | ⟨-, hquiet, -, hbound⟩
    · rw [hquiet, hstale]
      exact h.fresh n hold
    · rw [hquiet]
      exact ⟨by decide, hbound⟩

/-- An update of the neighbour at an address, in which its age is set back. -/
lemma Aging.withNeighbor {s' : CollectAges size} (h : s.Aging) {addr : Rimeaddr size}
    {f : CollectNeighbor size → CollectNeighbor size} (hlist : s'.list = s.list.withNeighbor addr f)
    (hf : ∀ n, (f n).addr = n.addr) (hage : ∀ n, (f n).age = 0)
    (hquiet : s'.quiet = Function.update s.quiet addr 0)
    (hstale : (∀ n, (f n).leAge = n.leAge) ∧ s'.stale = s.stale ∨
      (∀ n, (f n).leAge = 0) ∧ s'.stale = Function.update s.stale addr 0) : s'.Aging := by
  refine h.of_cases ?_ fun n hn => ?_
  · rw [hlist, CollectNeighborList.addrs_withNeighbor hf]
    exact h.nodup
  · rw [hlist] at hn
    rcases CollectNeighborList.mem_withNeighbor_cases h.nodup hn with ⟨m, hm, rfl, rfl⟩ | ⟨hold, hne⟩
    · refine .inr ⟨hage m, ?_, ?_⟩
      · rw [hquiet, hf, Function.update_self]
      · rcases hstale with ⟨hle, hstale⟩ | ⟨hle, hstale⟩
        · rw [hstale, hle, hf]
          exact ⟨h.leAge m hm, (h.fresh m hm).2⟩
        · rw [hstale, hle, hf, Function.update_self]
          exact ⟨rfl, Nat.zero_le _⟩
    · refine .inl ⟨hold, ?_, ?_⟩
      · rw [hquiet, Function.update_of_ne hne]
      · rcases hstale with ⟨-, hstale⟩ | ⟨-, hstale⟩
        · rw [hstale]
        · rw [hstale, Function.update_of_ne hne]

/-- Neighbours are taken off the list. -/
lemma Aging.sublist {l : CollectNeighborList size} (h : s.Aging) (hl : l.Sublist s.list) :
    Aging { s with list := l } :=
  h.of_cases (h.nodup.sublist (hl.map _)) fun _ hn => .inl ⟨hl.subset hn, rfl, rfl⟩

/-- The ticks are counted, when everything has its turn that needs one. -/
lemma Aging.step (h : s.Aging) {e : CollectNeighborEvent size} (he : e = .tick → InTurn s.list) :
    (s.step e).Aging := by
  cases e with
  | add addr nrtmetric room =>
    refine h.of_cases (CollectNeighborList.nodup_add h.nodup nrtmetric room) fun n hn => ?_
    rcases CollectNeighborList.mem_add_cases h.nodup hn with rfl | ⟨hold, hne⟩
    · have hstale : (s.step (.add addr nrtmetric room)).stale addr = 0 := Function.update_self ..
      exact .inr ⟨rfl, Function.update_self .., hstale.symm, hstale.le.trans (Nat.zero_le _)⟩
    · exact .inl ⟨hold, Function.update_of_ne hne .., Function.update_of_ne hne ..⟩
  | remove addr => exact h.sublist (CollectNeighborList.remove_sublist ..)
  | purge => exact h.sublist (List.nil_sublist _)
  | updateRtmetric addr rtmetric =>
    exact h.withNeighbor rfl (fun _ => rfl) (fun _ => rfl) rfl (.inl ⟨fun _ => rfl, rfl⟩)
  | tx addr numTx =>
    exact h.withNeighbor rfl (fun _ => rfl) (fun _ => rfl) rfl (.inr ⟨fun _ => rfl, rfl⟩)
  | txFail addr numTx =>
    exact h.withNeighbor rfl (fun _ => rfl) (fun _ => rfl) rfl (.inr ⟨fun _ => rfl, rfl⟩)
  | rx addr =>
    exact h.withNeighbor rfl (fun _ => rfl) (fun _ => rfl) rfl (.inl ⟨fun _ => rfl, rfl⟩)
  | tick =>
    exact {
      nodup := h.nodup.sublist (CollectNeighborList.addrs_periodic s.list)
      age := fun n hn => (h.tick_counts hn).1
      leAge := fun n hn => (h.tick_counts hn).2
      fresh := h.tick_fresh_iff.mpr (he rfl) }

end

/-- In a run, a list comes from an empty one. -/
def Run (ok : CollectAges size → CollectNeighborEvent size → Prop) : CollectAges size → Prop :=
  Reaches (φ := Empty) (fun s e => .ok (s.step e)) ok fun s => s.list = []

lemma aging_of_run {s : CollectAges size}
    (h : Run (fun s e => e = .tick → InTurn s.list) s) : s.Aging := by
  refine h.invariant ?_ ?_
  · intro s hs
    constructor
    · rw [hs]
      exact List.nodup_nil
    all_goals
      intro n hn
      rw [hs] at hn
      exact absurd hn List.not_mem_nil
  · intro s e s' hs he hstep
    cases hstep
    exact hs.step he

/-- In a run in which before every tick everything has its turn that needs one, nothing on the list ever
gets too old; and of every list of such a run, the next tick makes everything older by one and leaves
nothing that is too old just if everything has its turn that needs one. -/
theorem fresh_of_run {s : CollectAges size} (h : Run (fun s e => e = .tick → InTurn s.list) s) :
    s.Fresh ∧ Advances s.list s.list.periodic ∧ ((s.step .tick).Fresh ↔ InTurn s.list) :=
  have haging := aging_of_run h
  ⟨haging.fresh, haging.advances, haging.tick_fresh_iff⟩

/-- An empty list. -/
def start : CollectAges 2 := ⟨[], fun _ => 0, fun _ => 0⟩

/-- A list with two neighbours. -/
def pair : CollectAges 2 := (start.step (.add (.short 1) 10 true)).step (.add (.short 2) 10 true)

/-- A neighbour that nothing has been heard of for `k` ticks. -/
def silent (k : ℕ) (addr : Rimeaddr 2) : CollectNeighbor 2 := ⟨addr, 10, .ofNat k, .ofNat (k % 10), .new⟩

lemma silent_older (k : ℕ) (addr : Rimeaddr 2) :
    (silent k addr).older = ⟨addr, 10, .ofNat (k + 1), .ofNat (k % 10 + 1), .new⟩ := by
  rw [UInt16.ofNat_add, UInt16.ofNat_add]
  rfl

lemma silent_renew (k : ℕ) (addr : Rimeaddr 2) : (silent k addr).older.renew = silent (k + 1) addr := by
  rw [silent_older]
  by_cases hlimit : k % 10 = 9
  · have hnext : (k + 1) % 10 = 0 := by omega
    rw [silent, hlimit, hnext]
    rfl
  · have hnext : (k + 1) % 10 = k % 10 + 1 := by omega
    rw [silent, hnext]
    refine if_neg fun heq => hlimit ?_
    have hnat := congrArg UInt16.toNat heq
    change (UInt16.ofNat (k % 10 + 1)).toNat = 10 at hnat
    rw [UInt16.toNat_ofNat'] at hnat
    omega

/-- A tick with no neighbour at its limit. -/
lemma periodic_silent {j k : ℕ} (hj : j < 179) (hk : k < 179) (a b : Rimeaddr 2) :
    CollectNeighborList.periodic [silent j a, silent k b] = [silent (j + 1) a, silent (k + 1) b] := by
  have hyoung : ∀ k addr, k < 179 → (silent k addr).older.age ≠ maxAge := fun k addr hk heq => by
    rw [silent_older] at heq
    have hnat := congrArg UInt16.toNat heq
    rw [UInt16.toNat_ofNat'] at hnat
    change (k + 1) % 65536 = 180 at hnat
    omega
  show CollectNeighborList.expire [(silent j a).older, (silent k b).older] 0 = _
  have hsome : (silent k b).older.examine = some (silent k b).older.renew := if_neg (hyoung k b hk)
  rw [CollectNeighborList.expire_of_young (hyoung j a hj), List.filterMap_cons_some hsome, silent_renew,
    silent_renew]
  rfl

lemma inTurn_silent {j k : ℕ} (hj : j < 180) (hk : k < 180) (hne : ¬ (j = 179 ∧ k = 179))
    (a b : Rimeaddr 2) : InTurn [silent j a, silent k b] := by
  have hage : ∀ k addr, k < 180 → (silent k addr).age.toNat = k := fun k addr hk => by
    show (UInt16.ofNat k).toNat = k
    rw [UInt16.toNat_ofNat']
    omega
  refine ⟨fun x y rest hl hold => ?_, fun n hn hlimit => ?_⟩
  · cases hl
    rw [hage j a hj, hage k b hk] at hold
    change j + 1 = 180 ∧ k + 1 = 180 at hold
    omega
  · have hle : ∀ k addr, (silent k addr).leAge.toNat ≠ 10 := fun k addr heq => by
      change (UInt16.ofNat (k % 10)).toNat = 10 at heq
      rw [UInt16.toNat_ofNat'] at heq
      omega
    rcases List.mem_pair.mp hn with rfl | rfl
    · exact absurd hlimit (hle j a)
    · exact absurd hlimit (hle k b)

/-- Ticks up to the limit of a neighbour. -/
lemma exists_run_silent {s : CollectAges 2} {j k : ℕ} (h : Run (fun s e => e = .tick → InTurn s.list) s)
    (hlist : s.list = [silent j (.short 1), silent k (.short 2)]) (n : ℕ) (hj : j + n < 180)
    (hk : k + n < 180) :
    ∃ s' : CollectAges 2, Run (fun s e => e = .tick → InTurn s.list) s' ∧
      s'.list = [silent (j + n) (.short 1), silent (k + n) (.short 2)] := by
  induction n with
  | zero => exact ⟨s, h, hlist⟩
  | succ n ih =>
    obtain ⟨s', hs', hlist'⟩ := ih (by omega) (by omega)
    refine ⟨s'.step .tick, Reaches.tail hs' (e := .tick) (fun _ => ?_) rfl, ?_⟩
    · rw [hlist']
      exact inTurn_silent (by omega) (by omega) (by omega) _ _
    · show CollectNeighborList.periodic s'.list = _
      rw [hlist']
      exact periodic_silent (by omega) (by omega) _ _

/-- Two neighbours are added, and the second is heard of again: the first one reaches its limit before
it, and is removed. -/
theorem fresh_of_run_two : ∃ s : CollectAges 2, Run (fun s e => e = .tick → InTurn s.list) s ∧
    s.list = [silent 179 (.short 1), silent 79 (.short 2)] ∧ s.Fresh ∧
      (s.step .tick).list = [(silent 79 (.short 2)).older] ∧ (s.step .tick).Fresh := by
  have hpair : Run (fun s e => e = .tick → InTurn s.list) pair :=
    Reaches.tail (Reaches.tail (Reaches.initial rfl) (e := .add (.short 1) 10 true) (fun h => (by cases h)) rfl)
      (e := .add (.short 2) 10 true) (fun h => (by cases h)) rfl
  obtain ⟨s₁, hs₁, hlist₁⟩ := exists_run_silent hpair (by decide : pair.list = [silent 0 _, silent 0 _])
    100 (by decide) (by decide)
  have hheard : (s₁.step (.rx (.short 2))).list = [silent 100 (.short 1), silent 0 (.short 2)] := by
    show s₁.list.withNeighbor (.short 2) _ = _
    rw [hlist₁]
    decide
  obtain ⟨s, hs, hlist⟩ := exists_run_silent
    (Reaches.tail hs₁ (e := .rx (.short 2)) (fun h => (by cases h)) rfl) hheard 79 (by decide) (by decide)
  obtain ⟨hfresh, -, hnext⟩ := fresh_of_run hs
  refine ⟨s, hs, hlist, hfresh, ?_, hnext.mpr ?_⟩
  · show CollectNeighborList.periodic s.list = _
    rw [hlist]
    exact CollectNeighborList.expire_of_old rfl
  · rw [hlist]
    exact inTurn_silent (by decide) (by decide) (by decide) _ _

/-- The list after some ticks. -/
def ticks (k : ℕ) : CollectAges 2 := (fun s => s.step .tick)^[k] pair

lemma ticks_succ (k : ℕ) : ticks (k + 1) = (ticks k).step .tick := Function.iterate_succ_apply' ..

/-- The two neighbours reach their limit together. -/
lemma list_ticks {k : ℕ} (hk : k < 180) :
    (ticks k).list = [silent k (.short 1), silent k (.short 2)] := by
  induction k with
  | zero => decide
  | succ k ih =>
    rw [ticks_succ]
    show CollectNeighborList.periodic (ticks k).list = _
    rw [ih (by omega)]
    exact periodic_silent (by omega) (by omega) _ _

lemma quiet_ticks (k : ℕ) (addr : Rimeaddr 2) : (ticks k).quiet addr = k := by
  induction k with
  | zero =>
    show Function.update (Function.update (fun _ => 0) (.short 1) 0) (.short 2) 0 addr = 0
    simp
  | succ k ih =>
    rw [ticks_succ]
    show (ticks k).quiet addr + 1 = k + 1
    rw [ih]

/-- Of two neighbours that reach their limit in the same tick, the second one stays. -/
theorem not_fresh_of_run : ¬ ∀ s : CollectAges 2, Run anyEvent s → s.Fresh := by
  intro hall
  have hrun : ∀ k, Run anyEvent (ticks k) := by
    intro k
    induction k with
    | zero =>
      exact Reaches.tail (Reaches.tail (Reaches.initial rfl) (e := .add (.short 1) 10 true) trivial rfl)
        (e := .add (.short 2) 10 true) trivial rfl
    | succ k ih =>
      rw [ticks_succ]
      exact Reaches.tail ih (e := .tick) trivial rfl
  have hlist : (ticks 180).list = [(silent 179 (.short 2)).older] := by
    rw [ticks_succ]
    show CollectNeighborList.periodic (ticks 179).list = _
    rw [list_ticks (by decide)]
    exact CollectNeighborList.expire_of_old rfl
  have hfresh := (hall _ (hrun 180) (silent 179 (.short 2)).older (by rw [hlist]; exact List.mem_cons_self)).1
  rw [quiet_ticks] at hfresh
  exact absurd hfresh (by decide)

end CollectAges
end Contiki

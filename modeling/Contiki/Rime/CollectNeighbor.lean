import Contiki.Lib.Run
import Contiki.Lib.Search
import Contiki.Rime.LinkEstimate
import Contiki.Rime.Packetbuf

/-!
# The neighbours of `collect`

The list of neighbours of a collect connection.  A pointer to a neighbour is its place on the list.  The
pool of neighbours is shared with the lists of other connections, so whether there is a block is left open.

* `CollectNeighborList.step`, `CollectNeighborList.run` — what happens to a list.
* `CollectNeighborList.best_and_updates` — when the neighbour that is chosen is the best one, and when an
  update leads towards what was reported.
-/

namespace Contiki
open Rime

/-- `struct collect_neighbor`, without the timer of its congestion. -/
structure CollectNeighbor (size : ℕ) where
  addr : Rimeaddr size
  rtmetric : UInt16
  age : UInt16
  leAge : UInt16
  le : CollectLinkEstimate
deriving DecidableEq

/-- `RTMETRIC_MAX`, which is `COLLECT_MAX_DEPTH`. -/
def rtmetricMax : UInt16 := .ofNat (collectLinkEstimateUnit * 64 - 1)

def maxAge : UInt16 := 180

def maxLeAge : UInt16 := 10

variable {size : ℕ}

namespace CollectNeighbor

/-- A neighbour as it is put on the list. -/
def added (addr : Rimeaddr size) (nrtmetric : UInt16) : CollectNeighbor size :=
  { addr, rtmetric := nrtmetric, age := 0, leAge := 0, le := .new }

def updateRtmetric (rtmetric : UInt16) (n : CollectNeighbor size) : CollectNeighbor size :=
  { n with rtmetric := rtmetric, age := 0 }

def txFail (numTx : UInt16) (n : CollectNeighbor size) : CollectNeighbor size :=
  { n with le := n.le.updateTxFail numTx.toUInt8, leAge := 0, age := 0 }

def tx (numTx : UInt16) (n : CollectNeighbor size) : CollectNeighbor size :=
  { n with le := n.le.updateTx numTx.toUInt8, leAge := 0, age := 0 }

def rx (n : CollectNeighbor size) : CollectNeighbor size := { n with le := n.le.updateRx, age := 0 }

def rtmetricLinkEstimate (n : CollectNeighbor size) : UInt16 := n.rtmetric + n.le.estimate

/-- The turn of a neighbour in the first loop of `periodic`. -/
def older (n : CollectNeighbor size) : CollectNeighbor size :=
  { n with age := n.age + 1, leAge := n.leAge + 1 }

/-- The turn of a neighbour in the second loop of `periodic`, before its age is looked at. -/
def renew (n : CollectNeighbor size) : CollectNeighbor size :=
  if n.leAge = maxLeAge then { n with le := .new, leAge := 0 } else n

end CollectNeighbor

abbrev CollectNeighborList (size : ℕ) := List (CollectNeighbor size)

namespace CollectNeighborList
variable (l : CollectNeighborList size)

/-- The second loop of `periodic`, from the place `pos` on.  When a neighbour has been taken off the list,
the loop goes on with the one behind the head of the list. -/
def expire (l : CollectNeighborList size) (pos : ℕ) : CollectNeighborList size :=
  if h : pos < l.length then
    let n := l[pos].renew
    if n.age = maxAge then expire (l.eraseIdx pos) 1 else expire (l.set pos n) (pos + 1)
  else l
termination_by (l.length, l.length - pos)
decreasing_by
  · rw [List.length_eraseIdx_of_lt h]
    exact Prod.Lex.left _ _ (by omega)
  · rw [List.length_set]
    exact Prod.Lex.right _ (by omega)

def periodic : CollectNeighborList size := expire (l.map CollectNeighbor.older) 0

def find (addr : Rimeaddr size) : Option ℕ := l.findIdx? fun n => n.addr == addr

/-- The neighbour with the highest routing metric, and that metric. -/
def worst : ℕ × Option (Fin l.length) :=
  search (· > ·) (fun i : Fin l.length => l[i].rtmetric.toNat) 0 (List.finRange l.length)

/-- `collect_neighbor_list_add`; `room` says whether there is a block for another neighbour. -/
def add (addr : Rimeaddr size) (nrtmetric : UInt16) (room : Bool) : CollectNeighborList size :=
  match l.find addr with
  | some i => l.set i (.added addr nrtmetric)
  | none =>
    if room then l ++ [.added addr nrtmetric]
    else
      match l.worst.2 with
      | some i => if nrtmetric.toNat < l.worst.1 then l.set i (.added addr nrtmetric) else l
      | none => l

def remove (addr : Rimeaddr size) : CollectNeighborList size :=
  match l.find addr with
  | some i => l.eraseIdx i
  | none => l

/-- What is done with a neighbour that is found on the list. -/
def withNeighbor (addr : Rimeaddr size) (f : CollectNeighbor size → CollectNeighbor size) :
    CollectNeighborList size :=
  match l.find addr with
  | some i => l.modify i f
  | none => l

def best : Option (CollectNeighbor size) :=
  (search (· < ·) (fun n : CollectNeighbor size => n.rtmetricLinkEstimate.toNat) rtmetricMax.toNat l).2

end CollectNeighborList

/-! ## What happens to a list -/

/-- A call for a list of neighbours, or its timer. -/
inductive CollectNeighborEvent (size : ℕ)
  | add (addr : Rimeaddr size) (nrtmetric : UInt16) (room : Bool)
  | remove (addr : Rimeaddr size)
  | purge
  | updateRtmetric (addr : Rimeaddr size) (rtmetric : UInt16)
  | tx (addr : Rimeaddr size) (numTx : UInt16)
  | txFail (addr : Rimeaddr size) (numTx : UInt16)
  | rx (addr : Rimeaddr size)
  | tick

namespace CollectNeighborList

/-- The list after an event. -/
def step (l : CollectNeighborList size) : CollectNeighborEvent size → CollectNeighborList size
  | .add addr nrtmetric room => l.add addr nrtmetric room
  | .remove addr => l.remove addr
  | .purge => []
  | .updateRtmetric addr rtmetric => l.withNeighbor addr (CollectNeighbor.updateRtmetric rtmetric)
  | .tx addr numTx => l.withNeighbor addr (CollectNeighbor.tx numTx)
  | .txFail addr numTx => l.withNeighbor addr (CollectNeighbor.txFail numTx)
  | .rx addr => l.withNeighbor addr CollectNeighbor.rx
  | .tick => l.periodic

/-- The list after some events; at first it is empty. -/
def run (es : List (CollectNeighborEvent size)) : CollectNeighborList size := es.foldl step []

lemma run_concat (es : List (CollectNeighborEvent size)) (e : CollectNeighborEvent size) :
    run (es ++ [e]) = (run es).step e := by
  unfold run
  rw [List.foldl_append]
  rfl

variable {l : CollectNeighborList size} {P : CollectNeighbor size → Prop}

/-- What making an estimate new keeps is kept by the loop that looks for old neighbours. -/
lemma expire_forall (hrenew : ∀ n, P n → P n.renew) (pos : ℕ) (h : ∀ n ∈ l, P n) :
    ∀ n ∈ expire l pos, P n := by
  fun_induction expire l pos with
  | case1 l pos hpos n hage ih => exact ih fun m hm => h m (List.mem_of_mem_eraseIdx hm)
  | case2 l pos hpos n hage ih =>
    refine ih fun m hm => ?_
    rcases List.mem_or_eq_of_mem_set hm with hm | rfl
    · exact h m hm
    · exact hrenew _ (h _ (List.getElem_mem hpos))
  | case3 l pos hpos => exact h

lemma withNeighbor_forall {f : CollectNeighbor size → CollectNeighbor size} (hf : ∀ n, P n → P (f n))
    (addr : Rimeaddr size) (h : ∀ n ∈ l, P n) : ∀ n ∈ l.withNeighbor addr f, P n := by
  unfold withNeighbor
  cases l.find addr with
  | none => exact h
  | some i =>
    intro n hn
    obtain ⟨k, hk, rfl⟩ := List.getElem_of_mem hn
    rw [List.getElem_modify]
    split_ifs
    · exact hf _ (h _ (List.getElem_mem _))
    · exact h _ (List.getElem_mem _)

lemma set_forall {n : CollectNeighbor size} (hn : P n) (i : ℕ) (h : ∀ n ∈ l, P n) :
    ∀ m ∈ l.set i n, P m := by
  intro m hm
  rcases List.mem_or_eq_of_mem_set hm with hm | rfl
  · exact h m hm
  · exact hn

lemma add_forall {addr : Rimeaddr size} {nrtmetric : UInt16} (hadded : P (.added addr nrtmetric))
    (room : Bool) (h : ∀ n ∈ l, P n) : ∀ n ∈ l.add addr nrtmetric room, P n := by
  unfold add
  cases l.find addr with
  | some i => exact set_forall hadded i h
  | none =>
    cases room with
    | true =>
      intro n hn
      rcases List.mem_append.mp hn with hn | hn
      · exact h n hn
      · rw [List.mem_singleton.mp hn]
        exact hadded
    | false =>
      cases l.worst.2 with
      | none => exact h
      | some i =>
        intro n hn
        change n ∈ if nrtmetric.toNat < l.worst.1 then l.set i (.added addr nrtmetric) else l at hn
        split_ifs at hn
        · exact set_forall hadded i h n hn
        · exact h n hn

lemma remove_forall (addr : Rimeaddr size) (h : ∀ n ∈ l, P n) : ∀ n ∈ l.remove addr, P n := by
  unfold remove
  cases l.find addr with
  | none => exact h
  | some i => exact fun n hn => h n (List.mem_of_mem_eraseIdx hn)

/-- No estimate is out of range. -/
lemma step_bounded (h : ∀ n ∈ l, n.le.Bounded) (e : CollectNeighborEvent size) :
    ∀ n ∈ l.step e, n.le.Bounded := by
  cases e with
  | add addr nrtmetric room => exact add_forall CollectLinkEstimate.bounded_new room h
  | remove addr => exact remove_forall addr h
  | purge => exact fun n hn => absurd hn List.not_mem_nil
  | updateRtmetric addr rtmetric =>
    exact withNeighbor_forall (f := CollectNeighbor.updateRtmetric rtmetric) (fun n hn => hn) addr h
  | tx addr numTx => exact withNeighbor_forall (fun n hn => hn.updateTx _) addr h
  | txFail addr numTx => exact withNeighbor_forall (fun n hn => hn.updateTx _) addr h
  | rx addr => exact withNeighbor_forall (f := CollectNeighbor.rx) (fun n hn => hn) addr h
  | tick =>
    refine expire_forall (fun n hn => ?_) 0 fun n hn => ?_
    · unfold CollectNeighbor.renew
      split_ifs
      · exact CollectLinkEstimate.bounded_new
      · exact hn
    · obtain ⟨m, hm, rfl⟩ := List.mem_map.mp hn
      exact h m hm

/-- In every run no estimate is out of range. -/
lemma run_bounded (es : List (CollectNeighborEvent size)) : ∀ n ∈ run es, n.le.Bounded := by
  induction es using List.reverseRecOn with
  | nil => exact fun n hn => absurd hn List.not_mem_nil
  | append_singleton es e ih =>
    rw [run_concat]
    exact step_bounded ih e

end CollectNeighborList

/-! ## The best neighbour -/

namespace CollectNeighbor

/-- The cost of the path by a neighbour. -/
def cost (n : CollectNeighbor size) : ℕ := n.rtmetric.toNat + n.le.estimate.toNat

/-- The cost of the path is too large for its field, and what is left of it is below the maximum. -/
def Wraps (n : CollectNeighbor size) : Prop := 65536 ≤ n.cost ∧ n.cost - 65536 < rtmetricMax.toNat

variable {n : CollectNeighbor size}

lemma rtmetricLinkEstimate_toNat (n : CollectNeighbor size) :
    n.rtmetricLinkEstimate.toNat = n.cost % 65536 := UInt16.toNat_add ..

lemma rtmetricLinkEstimate_le (n : CollectNeighbor size) : n.rtmetricLinkEstimate.toNat ≤ n.cost := by
  rw [rtmetricLinkEstimate_toNat]
  exact Nat.mod_le ..

lemma cost_lt (h : n.le.Bounded) : n.cost < 2 * 65536 := by
  have hle := h.estimate_le
  have hlt := n.rtmetric.toNat_lt
  unfold cost
  omega

/-- What is below the maximum is the cost, unless that is too large. -/
lemma rtmetricLinkEstimate_eq (h : n.le.Bounded)
    (hmax : n.rtmetricLinkEstimate.toNat < rtmetricMax.toNat) (hwraps : ¬ n.Wraps) :
    n.rtmetricLinkEstimate.toNat = n.cost := by
  have hlt := cost_lt h
  have hkey := rtmetricLinkEstimate_toNat n
  unfold Wraps at hwraps
  omega

lemma Wraps.key (hwraps : n.Wraps) (h : n.le.Bounded) :
    n.rtmetricLinkEstimate.toNat = n.cost - 65536 := by
  have hlt := cost_lt h
  have hkey := rtmetricLinkEstimate_toNat n
  obtain ⟨hge, -⟩ := hwraps
  omega

end CollectNeighbor

namespace CollectNeighborList
variable {l : CollectNeighborList size} {n : CollectNeighbor size}

/-- The neighbour that is chosen has the least cost of all, and none is chosen only if the cost of none is
below the maximum. -/
def PicksBest (l : CollectNeighborList size) : Prop :=
  (l.best = none ↔ ∀ n ∈ l, ¬ n.cost < rtmetricMax.toNat) ∧
    ∀ n, l.best = some n → n ∈ l ∧ n.cost < rtmetricMax.toNat ∧ ∀ m ∈ l, n.cost ≤ m.cost

/-- What is left of a cost that is too large is outdone by the cost of a neighbour in front, or by a lower
one behind. -/
def Outdone (l : CollectNeighborList size) : Prop :=
  ∀ pre m post, l = pre ++ m :: post → m.Wraps →
    (∃ n ∈ pre, n.cost ≤ m.cost - 65536) ∨ ∃ n ∈ post, n.cost < m.cost - 65536

lemma best_eq_none_iff :
    l.best = none ↔ ∀ n ∈ l, ¬ n.rtmetricLinkEstimate.toNat < rtmetricMax.toNat :=
  search_eq_none_iff preference_lt

lemma foundIn_best (h : l.best = some n) : FoundIn (fun x y : ℕ => x < y)
    (fun n : CollectNeighbor size => n.rtmetricLinkEstimate.toNat) rtmetricMax.toNat l n :=
  foundIn_of_search preference_lt h

/-- The best neighbour does not come from a cost that is too large if every such cost is outdone. -/
lemma Outdone.not_wraps (hout : l.Outdone) (hl : ∀ n ∈ l, n.le.Bounded) (h : l.best = some n) :
    ¬ n.Wraps := by
  intro hwraps
  obtain ⟨pre, post, hsplit, -, hpre, hpost⟩ := foundIn_best h
  have hkey := hwraps.key (hl n (foundIn_best h).mem)
  rcases hout pre n post hsplit hwraps with ⟨m, hm, hle⟩ | ⟨m, hm, hlt⟩
  · have hless : n.rtmetricLinkEstimate.toNat < m.rtmetricLinkEstimate.toNat := hpre m hm
    have hcost := m.rtmetricLinkEstimate_le
    omega
  · have hnot : ¬ m.rtmetricLinkEstimate.toNat < n.rtmetricLinkEstimate.toNat := hpost m hm
    have hcost := m.rtmetricLinkEstimate_le
    omega

lemma picksBest_of_outdone (hl : ∀ n ∈ l, n.le.Bounded) (hout : l.Outdone) : l.PicksBest := by
  have hbest : ∀ n, l.best = some n → n.rtmetricLinkEstimate.toNat = n.cost := fun n h =>
    CollectNeighbor.rtmetricLinkEstimate_eq (hl n (foundIn_best h).mem) (foundIn_best h).beats
      (hout.not_wraps hl h)
  have hsome : ∀ n, l.best = some n → n ∈ l ∧ n.cost < rtmetricMax.toNat ∧ ∀ m ∈ l, n.cost ≤ m.cost := by
    intro n h
    have hfound := foundIn_best h
    rw [← hbest n h]
    exact ⟨hfound.mem, hfound.beats, fun m hm => (hfound.least hm).trans m.rtmetricLinkEstimate_le⟩
  refine ⟨⟨fun hnone n hn hcost => ?_, fun hall => ?_⟩, hsome⟩
  · exact best_eq_none_iff.mp hnone n hn (n.rtmetricLinkEstimate_le.trans_lt hcost)
  · cases h : l.best with
    | none => rfl
    | some n => exact absurd (hsome n h).2.1 (hall n (hsome n h).1)

lemma outdone_of_picksBest (hl : ∀ n ∈ l, n.le.Bounded) (h : l.PicksBest) : l.Outdone := by
  intro pre m post hsplit hwraps
  have hm : m ∈ l := by
    rw [hsplit]
    exact List.mem_append_right _ List.mem_cons_self
  have hkey := hwraps.key (hl m hm)
  cases hbest : l.best with
  | none =>
    refine absurd ?_ (best_eq_none_iff.mp hbest m hm)
    rw [hkey]
    exact hwraps.2
  | some n =>
    obtain ⟨hn, hcost, -⟩ := h.2 n hbest
    have hsame : n.rtmetricLinkEstimate.toNat = n.cost := by
      rw [CollectNeighbor.rtmetricLinkEstimate_toNat]
      exact Nat.mod_eq_of_lt (hcost.trans (by decide))
    have hne : n ≠ m := by
      rintro rfl
      exact absurd (hwraps.1.trans_lt hcost) (by decide)
    have hfound := foundIn_best hbest
    have hle : n.rtmetricLinkEstimate.toNat ≤ m.rtmetricLinkEstimate.toNat := hfound.least hm
    rcases hfound.front_or_behind hne hsplit with hfront | ⟨hbehind, hless⟩
    · exact .inl ⟨n, hfront, by omega⟩
    · exact .inr ⟨n, hbehind, by omega⟩

/-- In every run, the neighbour that is chosen is the best one just if every cost that is too large for its
field is outdone by another one; and the report of a number of transmissions moves the estimate of a
neighbour towards it just if no bit of the number is lost, none is left, or the estimate is not above
what is left. -/
theorem best_and_updates (es : List (CollectNeighborEvent size)) :
    ((run es).PicksBest ↔ (run es).Outdone) ∧
      ∀ n ∈ run es, ∀ numTx : UInt16,
        (CollectLinkEstimate.Between n.le.estimate.toNat (numTx.toNat * collectLinkEstimateUnit)
            (n.tx numTx).le.estimate.toNat ↔
          numTx.toNat < 256 ∨ numTx.toNat % 256 = 0 ∨
            n.le.estimate.toNat ≤ numTx.toNat % 256 * collectLinkEstimateUnit) ∧
        (CollectLinkEstimate.Between n.le.estimate.toNat (2 * numTx.toNat * collectLinkEstimateUnit)
            (n.txFail numTx).le.estimate.toNat ↔
          2 * numTx.toNat < 256 ∨ 2 * numTx.toNat % 256 = 0 ∨
            n.le.estimate.toNat ≤ 2 * numTx.toNat % 256 * collectLinkEstimateUnit) := by
  have hl := run_bounded es
  refine ⟨⟨outdone_of_picksBest hl, picksBest_of_outdone hl⟩, fun n hn numTx => ⟨?_, ?_⟩⟩
  · exact CollectLinkEstimate.between_iff (hl n hn) (UInt16.toNat_toUInt8 numTx)
  · refine CollectLinkEstimate.between_iff (hl n hn) ?_
    rw [UInt8.toNat_mul, UInt16.toNat_toUInt8]
    show numTx.toNat % 256 * 2 % 256 = _
    omega

/-- Three neighbours, of which the first is chosen.  The cost of the second, 65535 + 128, is taken for 127,
and outdone. -/
theorem best_and_updates_three : ∃ es : List (CollectNeighborEvent 2),
    run es = [⟨.short 1, 0, 0, 0, ⟨8, 1⟩⟩, .added (.short 2) 0xffff, .added (.short 3) 100] ∧
      (run es).PicksBest ∧ CollectLinkEstimate.Between 8 (4 * collectLinkEstimateUnit)
        ((⟨.short 1, 0, 0, 0, ⟨8, 1⟩⟩ : CollectNeighbor 2).tx 4).le.estimate.toNat := by
  have hrun : run [.add (.short 1) 0 true, .tx (.short 1) 1, .add (.short 2) 0xffff true,
      .add (.short 3) 100 true] =
        [⟨.short 1, 0, 0, 0, ⟨8, 1⟩⟩, .added (.short 2) 0xffff, .added (.short 3) 100] := by decide
  obtain ⟨hbest, hupdates⟩ := best_and_updates [.add (.short 1) 0 true, .tx (.short 1) 1,
    .add (.short 2) 0xffff true, .add (.short 3) 100 true]
  have hmem : ⟨.short 1, 0, 0, 0, ⟨8, 1⟩⟩ ∈ run [.add (.short 1) 0 true, .tx (.short 1) 1,
      .add (.short 2) 0xffff true, .add (.short 3) 100 true] := by
    rw [hrun]
    exact List.mem_cons_self
  refine ⟨_, hrun, hbest.mpr ?_, (hupdates _ hmem 4).1.mpr (.inl (by decide))⟩
  intro pre m post hsplit hwraps
  rw [hrun] at hsplit
  rcases pre with _ | ⟨a, _ | ⟨b, _ | ⟨c, pre⟩⟩⟩
  · cases hsplit
    exact absurd hwraps.1 (by decide)
  · cases hsplit
    exact .inl ⟨_, List.mem_cons_self, by decide⟩
  · cases hsplit
    exact absurd hwraps.1 (by decide)
  · have hlength := congrArg List.length hsplit
    simp at hlength

/-- Of a neighbour with the greatest metric and one with metric 0, the first is chosen: 65535 + 128 is
taken for 127.  And after a report of 257 transmissions the estimate is that after a single one. -/
theorem not_picksBest :
    ¬ (run [.add (.short 1) 0xffff true, .add (.short 2) 0 true]).PicksBest ∧
      ¬ CollectLinkEstimate.Between 128 (257 * collectLinkEstimateUnit)
        ((CollectNeighbor.added (.short 1) 10).tx 257).le.estimate.toNat := by
  constructor
  · intro h
    have hbest : (run [.add (.short 1) 0xffff true, .add (.short 2) 0 true]).best =
        some (.added (.short 1) 0xffff) := by decide
    exact absurd (h.2 _ hbest).2.1 (by decide)
  · unfold CollectLinkEstimate.Between
    decide

end CollectNeighborList
end Contiki

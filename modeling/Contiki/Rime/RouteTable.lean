import Contiki.Lib.Memb
import Contiki.Lib.Run
import Contiki.Lib.Search
import Contiki.Rime.Packetbuf

/-!
# The route table of Rime, with the age of its entries

The blocks of the table come from a pool.  An entry is taken off the table when it has not been refreshed
for some time, or when its route has been found to decay.

* `RouteTable.routeAdd`, `routeLookup`, `periodic`, … — the operations.
* `RouteTable.Owned` — the blocks in use are those on the table.
* `RouteTable.blockFor_spec` — which block a new entry gets.
-/

namespace Contiki

/-- `list_item_next`: what follows an item on its list.  An item that is not on a list has nothing behind
it: `list_remove` sets the link of what it takes off to zero. -/
def listItemNext {β : Type*} [DecidableEq β] : List β → β → Option β
  | [], _ => none
  | a :: l, item => if a = item then l.head? else listItemNext l item

namespace Rime
variable {size n : ℕ}

/-- `struct route_entry`, without its link. -/
structure RouteItem (size : ℕ) where
  dest : Rimeaddr size
  nexthop : Rimeaddr size
  seqno : UInt8
  cost : UInt8
  time : UInt8
  decay : UInt8
  timeLastDecay : UInt8
deriving DecidableEq

/-- What `route_add` writes into the block. -/
def RouteItem.renewed (r : RouteItem size) (dest nexthop : Rimeaddr size) (cost seqno : UInt8) :
    RouteItem size :=
  { r with dest, nexthop, cost, seqno, time := 0, decay := 0 }

def decayThreshold : UInt8 := 8

def defaultLifetime : ℤ := 60

/-- `route_table`, `route_mem` with its `NUM_RT_ENTRIES` blocks, of which there is at least one, and
`max_time`. -/
structure RouteTable (size n : ℕ) where
  table : List (Fin (n + 1))
  mem : Memb (RouteItem size) (n + 1)
  maxTime : ℤ

namespace RouteTable
variable (s : RouteTable size n)

/-- The entry in a block. -/
def entry (e : Fin (n + 1)) : RouteItem size := s.mem.mem e

/-- An entry is written to. -/
def setEntry (e : Fin (n + 1)) (r : RouteItem size) : RouteTable size n := { s with mem := s.mem.write e r }

/-- The entries for a destination. -/
def routesTo (dest : Rimeaddr size) : List (Fin (n + 1)) := s.table.filter fun e => (s.entry e).dest = dest

def routeLookup (dest : Rimeaddr size) : Option (Fin (n + 1)) :=
  (search (· < ·) (fun e => (s.entry e).cost.toNat) 255 (s.routesTo dest)).2

/-- The block for a new entry, when the old one cannot be used again. -/
def newBlock : Option (Fin (n + 1) × RouteTable size n) :=
  match s.mem.alloc with
  | some (e, mem) => some (e, { s with mem })
  -- `list_chop`
  | none => s.table.getLast?.map fun e => (e, { s with table := s.table.dropLast })

/-- The block for a new entry, and the table without it: the entry that is found, if it has the next hop. -/
def blockFor (dest nexthop : Rimeaddr size) : Option (Fin (n + 1) × RouteTable size n) :=
  match (s.routeLookup dest).filter fun e => (s.entry e).nexthop = nexthop with
  | some e => some (e, { s with table := listRemove s.table e })
  | none => s.newBlock

def routeAdd (dest nexthop : Rimeaddr size) (cost seqno : UInt8) : RouteTable size n :=
  match s.blockFor dest nexthop with
  | some (e, s) =>
    { s.setEntry e ((s.entry e).renewed dest nexthop cost seqno) with table := listPush s.table e }
  | none => s

def routeRefresh (e : Fin (n + 1)) : RouteTable size n := s.setEntry e { s.entry e with time := 0, decay := 0 }

def routeRemove (e : Fin (n + 1)) : RouteTable size n :=
  { s with table := listRemove s.table e, mem := s.mem.free e }

/-- An entry decays. -/
def decayed (e : Fin (n + 1)) : RouteTable size n :=
  s.setEntry e { s.entry e with timeLastDecay := (s.entry e).time, decay := (s.entry e).decay + 1 }

def routeDecay (e : Fin (n + 1)) : RouteTable size n :=
  if (s.entry e).time ≠ (s.entry e).timeLastDecay then
    if ((s.decayed e).entry e).decay ≥ decayThreshold then (s.decayed e).routeRemove e else s.decayed e
  else s

def routeFlushAll : RouteTable size n := { s with table := [], mem := s.mem.freeAll s.table }

def routeSetLifetime (seconds : ℤ) : RouteTable size n := { s with maxTime := seconds }

/-- An entry becomes older. -/
def older (e : Fin (n + 1)) : RouteTable size n := s.setEntry e { s.entry e with time := (s.entry e).time + 1 }

/-- An entry has reached the limit of time. -/
def Due (e : Fin (n + 1)) : Prop := ((s.entry e).time.toNat : ℤ) ≥ s.maxTime

instance (e : Fin (n + 1)) : Decidable (s.Due e) := inferInstanceAs (Decidable (_ ≥ _))

/-- One turn of the loop of `periodic`. -/
def turn (e : Fin (n + 1)) : RouteTable size n :=
  if (s.older e).Due e then (s.older e).routeRemove e else s.older e

/-- The loop of `periodic`, from an entry on. -/
def periodicLoop : ℕ → Option (Fin (n + 1)) → RouteTable size n → RouteTable size n
  | 0, _, s => s
  | _ + 1, none, s => s
  | fuel + 1, some e, s => periodicLoop fuel (listItemNext (s.turn e).table e) (s.turn e)

def periodic : RouteTable size n := periodicLoop s.table.length s.table.head? s

/-! ## The pool -/

/-- The blocks in use are those on the table. -/
def Owned : Prop := s.mem.OwnedBy fun _ : Unit => s.table

variable {s} {s' : RouteTable size n} {e : Fin (n + 1)}

lemma Owned.nodup (h : s.Owned) : s.table.Nodup := h.parts.nodup ()

lemma Owned.setEntry (h : s.Owned) (e : Fin (n + 1)) (r : RouteItem size) : (s.setEntry e r).Owned :=
  h.write e r

lemma Owned.remove (h : s.Owned) (he : e ∈ s.table) : (s.routeRemove e).Owned :=
  (h.free_erase (i := ()) he).congr rfl fun _ => by simp [routeRemove]

lemma Owned.flush (h : s.Owned) : s.routeFlushAll.Owned :=
  (h.free_all ()).congr rfl fun _ => by simp [routeFlushAll]

/-- When no block is free, all of them are on the table. -/
lemma Owned.full (h : s.Owned) (halloc : s.mem.alloc = none) (e : Fin (n + 1)) : e ∈ s.table :=
  let ⟨_, he⟩ := (h.parts.live_iff e).mp (Memb.alloc_eq_none.mp halloc e)
  he

/-- The entry for a destination and a next hop, where it is the one that the lookup finds. -/
def Finds (s : RouteTable size n) (dest nexthop : Rimeaddr size) (e : Fin (n + 1)) : Prop :=
  FoundIn (fun x y : ℕ => x < y) (fun e => (s.entry e).cost.toNat) 255 (s.routesTo dest) e ∧
    (s.entry e).nexthop = nexthop

/-- Every block is on the table. -/
def Full (s : RouteTable size n) : Prop := ∀ e, e ∈ s.table

variable {dest nexthop : Rimeaddr size}

lemma routeLookup_eq_some_iff : s.routeLookup dest = some e ↔
    FoundIn (fun x y : ℕ => x < y) (fun e => (s.entry e).cost.toNat) 255 (s.routesTo dest) e :=
  search_lt_eq_some_iff

lemma filter_routeLookup :
    (s.routeLookup dest).filter (fun e => (s.entry e).nexthop = nexthop) = some e ↔
      s.Finds dest nexthop e := by
  rw [Option.filter_eq_some_iff, routeLookup_eq_some_iff]
  simp [Finds]

lemma Finds.mem (h : s.Finds dest nexthop e) : e ∈ s.table := (List.mem_filter.mp h.1.mem).1

lemma Finds.dest_eq (h : s.Finds dest nexthop e) : (s.entry e).dest = dest := by
  simpa using (List.mem_filter.mp h.1.mem).2

/-- Which block a new entry gets, and the table without it. -/
structure BlockFor (s : RouteTable size n) (dest nexthop : Rimeaddr size) (e : Fin (n + 1))
    (s' : RouteTable size n) : Prop where
  fresh : e ∉ s'.table
  same : s'.mem.mem = s.mem.mem
  maxTime : s'.maxTime = s.maxTime
  owned : s'.mem.OwnedBy fun _ : Unit => e :: s'.table
  cases : s.Finds dest nexthop e ∧ s'.table = listRemove s.table e ∨
    (∀ x, ¬ s.Finds dest nexthop x) ∧
      (s'.table = s.table ∨ s.Full ∧ s.table = s'.table ++ [e])

/-- The blocks in use may be listed in another order. -/
lemma owned_reorder {mem : Memb (RouteItem size) (n + 1)} {l l' : List (Fin (n + 1))}
    (h : mem.OwnedBy fun _ : Unit => l) (hl : l'.Nodup) (hmem : ∀ a, a ∈ l' ↔ a ∈ l) :
    mem.OwnedBy fun _ : Unit => l' :=
  ⟨⟨fun _ => hl, fun _ _ _ _ _ => rfl, fun b => (h.parts.live_iff b).trans
    (exists_congr fun _ => (hmem b).symm)⟩, h.count_le⟩

lemma newBlock_spec (h : s.Owned) : ∃ e s', s.newBlock = some (e, s') ∧ e ∉ s'.table ∧
    s'.mem.mem = s.mem.mem ∧ s'.maxTime = s.maxTime ∧ (s'.mem.OwnedBy fun _ : Unit => e :: s'.table) ∧
      (s'.table = s.table ∨ s.Full ∧ s.table = s'.table ++ [e]) := by
  unfold newBlock
  cases halloc : s.mem.alloc with
  | some r =>
    obtain ⟨e, mem⟩ := r
    obtain ⟨hfree, hmem⟩ := Memb.alloc_eq_some halloc
    have hnot : e ∉ s.table := h.fresh_notMem hfree ()
    have howned := h.alloc_give halloc () (List.nodup_cons.mpr ⟨hnot, h.nodup⟩) fun a => by
      rw [List.mem_cons, or_comm]
    refine ⟨e, _, rfl, hnot, ?_, rfl, howned.congr rfl fun _ => ?_, .inl rfl⟩
    · rw [hmem]
    · simp
  | none =>
    have hne : s.table ≠ [] := List.ne_nil_of_mem (h.full halloc 0)
    obtain ⟨e, he⟩ : ∃ e, s.table.getLast? = some e := ⟨_, List.getLast?_eq_some_getLast hne⟩
    have hsplit : s.table = s.table.dropLast ++ [e] := (List.dropLast_append_getLast? e he).symm
    have hnodup := h.nodup
    rw [hsplit] at hnodup
    rw [he]
    refine ⟨e, _, rfl, ?_, rfl, rfl, ?_, .inr ⟨h.full halloc, hsplit⟩⟩
    · exact fun hmem => (List.nodup_append.mp hnodup).2.2 e hmem e (List.mem_singleton_self e) rfl
    · have hback := List.perm_append_singleton e s.table.dropLast
      exact owned_reorder h (hback.nodup_iff.mp hnodup) fun a => by
        rw [← hback.mem_iff, ← hsplit]

/-- A block is found for a new entry. -/
lemma blockFor_spec (h : s.Owned) (dest nexthop : Rimeaddr size) :
    ∃ e s', s.blockFor dest nexthop = some (e, s') ∧ s.BlockFor dest nexthop e s' := by
  unfold blockFor
  cases hfind : (s.routeLookup dest).filter fun e => (s.entry e).nexthop = nexthop with
  | some e =>
    have hfinds := filter_routeLookup.mp hfind
    have hmem : ∀ a, a ∈ e :: listRemove s.table e ↔ a ∈ s.table := fun a => by
      rw [List.mem_cons, mem_listRemove h.nodup]
      by_cases ha : a = e
      · simp [ha, hfinds.mem]
      · simp [ha]
    have hfresh : e ∉ listRemove s.table e := fun hin => ((mem_listRemove h.nodup).mp hin).2 rfl
    exact ⟨e, _, rfl, hfresh, rfl, rfl,
      owned_reorder h (List.nodup_cons.mpr ⟨hfresh, nodup_listRemove h.nodup e⟩) hmem,
      .inl ⟨hfinds, rfl⟩⟩
  | none =>
    obtain ⟨e, s', hnew, hfresh, hsame, hmax, howned, hcases⟩ := newBlock_spec h
    refine ⟨e, s', hnew, hfresh, hsame, hmax, howned, .inr ⟨fun x hx => ?_, hcases⟩⟩
    rw [filter_routeLookup.mpr hx] at hfind
    cases hfind

lemma BlockFor.sublist (h : s.BlockFor dest nexthop e s') : s'.table.Sublist s.table := by
  rcases h.cases with ⟨-, heq⟩ | ⟨-, heq | ⟨-, heq⟩⟩
  · rw [heq]
    exact List.erase_sublist
  · rw [heq]
  · rw [heq]
    exact List.sublist_append_left ..

/-- A new entry is put in front of the table. -/
lemma routeAdd_spec (h : s.Owned) (dest nexthop : Rimeaddr size) (cost seqno : UInt8) :
    ∃ e s', s.BlockFor dest nexthop e s' ∧
      (s.routeAdd dest nexthop cost seqno).table = e :: s'.table ∧
      (s.routeAdd dest nexthop cost seqno).maxTime = s.maxTime ∧
      (s.routeAdd dest nexthop cost seqno).entry =
        Function.update s.entry e ((s.entry e).renewed dest nexthop cost seqno) ∧
      (s.routeAdd dest nexthop cost seqno).Owned := by
  obtain ⟨e, s', hfor, hblock⟩ := blockFor_spec h dest nexthop
  have hpush : listPush s'.table e = e :: s'.table := by
    rw [listPush, List.erase_of_not_mem hblock.fresh]
  have hentry : s'.entry = s.entry := hblock.same
  refine ⟨e, s', hblock, ?_⟩
  unfold routeAdd
  rw [hfor]
  refine ⟨hpush, hblock.maxTime, ?_, ?_⟩
  · rw [← hentry]
    rfl
  · show Memb.OwnedBy _ fun _ => listPush s'.table e
    rw [hpush]
    exact hblock.owned.write e _

/-! ## Runs -/

/-- What happens to the table.  An entry is given by its block. -/
inductive Event (size n : ℕ)
  | add (dest nexthop : Rimeaddr size) (cost seqno : UInt8)
  | remove (e : Fin (n + 1))
  | decay (e : Fin (n + 1))
  | refresh (e : Fin (n + 1))
  | flushAll
  | setLifetime (seconds : ℤ)
  | periodic

/-- What is not on the table is not removed, decayed or refreshed. -/
def onTable (s : RouteTable size n) (e : Fin (n + 1)) (s' : RouteTable size n) :
    Except Unit (RouteTable size n) := if e ∈ s.table then .ok s' else .error ()

lemma onTable_eq_ok {t : RouteTable size n} : s.onTable e t = .ok s' ↔ e ∈ s.table ∧ t = s' := by
  unfold onTable
  split_ifs with he
  · simp [he]
  · simp [he]

/-- The table after an event. -/
def step (s : RouteTable size n) : Event size n → Except Unit (RouteTable size n)
  | .add dest nexthop cost seqno => .ok (s.routeAdd dest nexthop cost seqno)
  | .remove e => s.onTable e (s.routeRemove e)
  | .decay e => s.onTable e (s.routeDecay e)
  | .refresh e => s.onTable e (s.routeRefresh e)
  | .flushAll => .ok s.routeFlushAll
  | .setLifetime seconds => .ok (s.routeSetLifetime seconds)
  | .periodic => .ok s.periodic

lemma mem_of_listItemNext {β : Type*} [DecidableEq β] {l : List β} {a b : β} (h : listItemNext l a = some b) :
    b ∈ l := by
  induction l with
  | nil => cases h
  | cons c l ih =>
    unfold listItemNext at h
    split_ifs at h
    · exact List.mem_cons_of_mem _ (List.mem_of_head? h)
    · exact List.mem_cons_of_mem _ (ih h)

lemma Owned.turn (h : s.Owned) (he : e ∈ s.table) : (s.turn e).Owned := by
  unfold RouteTable.turn
  split_ifs
  · exact (h.setEntry e _).remove he
  · exact h.setEntry e _

/-- What every turn of the loop keeps is kept by the loop. -/
lemma periodicLoop_induction {P : RouteTable size n → Prop}
    (hturn : ∀ s e, P s → e ∈ s.table → P (s.turn e)) (fuel : ℕ) {p : Option (Fin (n + 1))}
    (hp : ∀ e ∈ p, e ∈ s.table) (h : P s) : P (periodicLoop fuel p s) := by
  induction fuel generalizing p s with
  | zero => exact h
  | succ fuel ih =>
    cases p with
    | none => exact h
    | some e =>
      refine ih (fun x hx => ?_) (hturn s e h (hp e rfl))
      exact mem_of_listItemNext hx

lemma Owned.periodic (h : s.Owned) : s.periodic.Owned :=
  periodicLoop_induction (fun _ _ hs he => hs.turn he) _ (fun _ he => List.mem_of_head? he) h

lemma Owned.decay (h : s.Owned) (he : e ∈ s.table) : (s.routeDecay e).Owned := by
  unfold routeDecay
  split_ifs
  · exact (h.setEntry e _).remove he
  · exact h.setEntry e _
  · exact h

lemma Owned.step (h : s.Owned) {ev : Event size n} (hstep : s.step ev = .ok s') : s'.Owned := by
  cases ev with
  | add dest nexthop cost seqno =>
    cases hstep
    obtain ⟨_, _, _, -, -, -, howned⟩ := routeAdd_spec h dest nexthop cost seqno
    exact howned
  | remove e =>
    obtain ⟨he, rfl⟩ := onTable_eq_ok.mp hstep
    exact h.remove he
  | decay e =>
    obtain ⟨he, rfl⟩ := onTable_eq_ok.mp hstep
    exact h.decay he
  | refresh e =>
    obtain ⟨he, rfl⟩ := onTable_eq_ok.mp hstep
    exact h.setEntry e _
  | flushAll =>
    cases hstep
    exact h.flush
  | setLifetime seconds =>
    cases hstep
    exact h
  | periodic =>
    cases hstep
    exact h.periodic

/-- The table as `route_init` leaves it. -/
def Empty (s : RouteTable size n) : Prop := s.table = [] ∧ ∀ b, s.mem.count b = 0

lemma Empty.owned (h : s.Empty) : s.Owned :=
  (Memb.OwnedBy.fresh (ι := Unit) (s.entry 0)).congr (funext h.2) fun _ => h.1

/-- A table with eight blocks, before anything has been added. -/
def start : RouteTable 2 7 := ⟨[], .fresh ⟨.null 2, .null 2, 0, 0, 0, 0, 0⟩, defaultLifetime⟩

lemma start_empty : start.Empty := ⟨rfl, fun _ => rfl⟩

end RouteTable
end Rime
end Contiki

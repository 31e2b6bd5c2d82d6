import Mathlib.Data.Fintype.Card
import Mathlib.Data.List.FinRange
import Mathlib.Data.List.Nodup
import Mathlib.Logic.Function.Basic

/-!
# Pools of equally sized blocks, and who owns them

`Memb α n` is a static pool of `n` blocks holding values of type `α`, with one reference
counter per block.  Allocation takes the first block whose counter is zero; freeing lowers the
counter and leaves the block's content in place.

The blocks of a pool are kept on lists.  `Partitions own live` is the abstract statement of
good bookkeeping — the lists `own i` are duplicate free, no block is on two of them, and
together they hold exactly the live blocks — and `Memb.OwnedBy` is that statement for a pool.
The rules `OwnedBy.alloc_add`, `OwnedBy.free_erase` and `OwnedBy.write` are what a client uses:
it never has to look at counters.
-/

namespace Contiki

/-! ## Lists of blocks -/

section Lists
variable {β : Type*} [DecidableEq β]

/-- Add an item at the end of a list; an item that is already present is moved. -/
def listAdd (l : List β) (item : β) : List β := l.erase item ++ [item]

/-- Add an item at the start of a list; an item that is already present is moved. -/
def listPush (l : List β) (item : β) : List β := item :: l.erase item

/-- Remove an item from a list. -/
def listRemove (l : List β) (item : β) : List β := l.erase item

lemma listAdd_of_notMem {l : List β} {b : β} (h : b ∉ l) : listAdd l b = l ++ [b] := by
  rw [listAdd, List.erase_of_not_mem h]

lemma mem_listAdd {l : List β} {a b : β} : a ∈ listAdd l b ↔ a ∈ l ∨ a = b := by
  by_cases hab : a = b
  · simp [listAdd, hab]
  · simp [listAdd, hab, List.mem_erase_of_ne hab]

lemma mem_listRemove {l : List β} (hl : l.Nodup) {a b : β} :
    a ∈ listRemove l b ↔ a ∈ l ∧ a ≠ b := by
  rw [listRemove, hl.mem_erase_iff]
  tauto

lemma mem_of_mem_listRemove {l : List β} {a b : β} (h : a ∈ listRemove l b) : a ∈ l :=
  List.mem_of_mem_erase h

lemma nodup_listRemove {l : List β} (hl : l.Nodup) (b : β) : (listRemove l b).Nodup :=
  hl.erase b

lemma nodup_listAdd {l : List β} (hl : l.Nodup) (b : β) : (listAdd l b).Nodup := by
  rw [listAdd, List.nodup_append]
  refine ⟨hl.erase b, List.nodup_singleton b, ?_⟩
  rintro a ha c hc rfl
  rw [List.mem_singleton] at hc
  exact (hl.mem_erase_iff.mp ha).1 hc

lemma mem_listPush {l : List β} {a b : β} : a ∈ listPush l b ↔ a ∈ l ∨ a = b := by
  by_cases hab : a = b
  · simp [listPush, hab]
  · simp [listPush, hab, List.mem_erase_of_ne hab]

lemma nodup_listPush {l : List β} (hl : l.Nodup) (b : β) : (listPush l b).Nodup :=
  List.nodup_cons.mpr ⟨fun h => (hl.mem_erase_iff.mp h).1 rfl, hl.erase b⟩

end Lists

/-! ## Families of lists that share out a set -/

section Partitions
variable {ι β : Type*}

/-- The lists `own i` are duplicate free and pairwise disjoint, and their union is `live`. -/
structure Partitions (own : ι → List β) (live : β → Prop) : Prop where
  nodup : ∀ i, (own i).Nodup
  unique : ∀ i j b, b ∈ own i → b ∈ own j → i = j
  live_iff : ∀ b, live b ↔ ∃ i, b ∈ own i

namespace Partitions

variable {own own' : ι → List β} {live live' : β → Prop}

lemma congr (h : Partitions own live) (hown : ∀ i, own' i = own i)
    (hlive : ∀ b, live' b ↔ live b) : Partitions own' live' := by
  obtain rfl : own' = own := funext hown
  exact ⟨h.nodup, h.unique, fun b => (hlive b).trans (h.live_iff b)⟩

lemma not_mem (h : Partitions own live) {b : β} (hb : ¬live b) (i : ι) : b ∉ own i :=
  fun hmem => hb ((h.live_iff b).mpr ⟨i, hmem⟩)

variable [DecidableEq ι]

/-- A block that was not live is put on the list of `i`, wherever on that list it goes. -/
lemma give (h : Partitions own live) {i : ι} {b : β} (hb : ¬live b) {l : List β}
    (hl : l.Nodup) (hmem : ∀ a, a ∈ l ↔ a ∈ own i ∨ a = b) :
    Partitions (Function.update own i l) fun a => live a ∨ a = b := by
  have hfresh := h.not_mem hb
  refine ⟨?_, ?_, ?_⟩
  · intro j
    by_cases hj : j = i
    · subst hj; simpa using hl
    · simpa [hj] using h.nodup j
  · intro j k a hj hk
    by_cases hji : j = i <;> by_cases hki : k = i
    · rw [hji, hki]
    · subst hji
      simp only [Function.update_self, hmem, ne_eq, hki, not_false_eq_true,
        Function.update_of_ne] at hj hk
      rcases hj with hj | rfl
      · exact h.unique _ _ a hj hk
      · exact absurd hk (hfresh k)
    · subst hki
      simp only [Function.update_self, hmem, ne_eq, hji, not_false_eq_true,
        Function.update_of_ne] at hj hk
      rcases hk with hk | rfl
      · exact h.unique _ _ a hj hk
      · exact absurd hj (hfresh j)
    · simp only [ne_eq, hji, hki, not_false_eq_true, Function.update_of_ne] at hj hk
      exact h.unique _ _ a hj hk
  · intro a
    rw [h.live_iff]
    constructor
    · rintro (⟨j, hj⟩ | rfl)
      · by_cases hji : j = i
        · subst hji
          exact ⟨j, by simp [hmem, hj]⟩
        · exact ⟨j, by simpa [hji] using hj⟩
      · exact ⟨i, by simp [hmem]⟩
    · rintro ⟨j, hj⟩
      by_cases hji : j = i
      · subst hji
        simp only [Function.update_self, hmem] at hj
        exact hj.imp_left fun hj => ⟨j, hj⟩
      · exact .inl ⟨j, by simpa [hji] using hj⟩

/-- A block is taken off the list of its owner. -/
lemma take [DecidableEq β] (h : Partitions own live) {i : ι} {b : β} (hb : b ∈ own i) :
    Partitions (Function.update own i (listRemove (own i) b)) fun a => live a ∧ a ≠ b := by
  refine ⟨?_, ?_, ?_⟩
  · intro j
    by_cases hj : j = i
    · subst hj; simpa using nodup_listRemove (h.nodup j) b
    · simpa [hj] using h.nodup j
  · have hsub : ∀ j a, a ∈ Function.update own i (listRemove (own i) b) j → a ∈ own j := by
      intro j a ha
      by_cases hj : j = i
      · subst hj
        exact mem_of_mem_listRemove (by simpa using ha)
      · simpa [hj] using ha
    exact fun j k a hj hk => h.unique j k a (hsub j a hj) (hsub k a hk)
  · intro a
    rw [h.live_iff]
    constructor
    · rintro ⟨⟨j, hj⟩, hab⟩
      refine ⟨j, ?_⟩
      by_cases hji : j = i
      · subst hji
        simpa [mem_listRemove (h.nodup j)] using ⟨hj, hab⟩
      · simpa [hji] using hj
    · rintro ⟨j, hj⟩
      by_cases hji : j = i
      · subst hji
        rw [Function.update_self, mem_listRemove (h.nodup j)] at hj
        exact ⟨⟨j, hj.1⟩, hj.2⟩
      · rw [Function.update_of_ne hji] at hj
        refine ⟨⟨j, hj⟩, ?_⟩
        rintro rfl
        exact hji (h.unique j i a hj hb)

end Partitions
end Partitions

/-! ## The pool -/

/-- A pool of `n` blocks with their reference counters. -/
structure Memb (α : Type*) (n : ℕ) where
  count : Fin n → ℕ
  mem : Fin n → α

namespace Memb

variable {α ι : Type*} {n : ℕ}

/-- A pool as it is before the first allocation: all counters zero, all blocks `a`. -/
def fresh (a : α) : Memb α n := ⟨fun _ => 0, fun _ => a⟩

/-- Take the first unused block. -/
def alloc (m : Memb α n) : Option (Fin n × Memb α n) :=
  match (List.finRange n).find? fun i => m.count i == 0 with
  | some i => some (i, { m with count := Function.update m.count i (m.count i + 1) })
  | none => none

/-- Give a block back; its content stays where it is. -/
def free (m : Memb α n) (i : Fin n) : Memb α n :=
  if m.count i > 0 then { m with count := Function.update m.count i (m.count i - 1) } else m

/-- Give back the blocks of a list, from its head on. -/
def freeAll (m : Memb α n) (l : List (Fin n)) : Memb α n := l.foldl free m

/-- Write to a block. -/
def write (m : Memb α n) (i : Fin n) (a : α) : Memb α n :=
  { m with mem := Function.update m.mem i a }

/-- Every block is in use. -/
def Exhausted (m : Memb α n) : Prop := ∀ i, m.count i ≠ 0

instance (m : Memb α n) : Decidable m.Exhausted := by
  unfold Exhausted; infer_instance

lemma alloc_eq_none {m : Memb α n} : m.alloc = none ↔ m.Exhausted := by
  unfold alloc Exhausted
  cases hf : (List.finRange n).find? fun i => m.count i == 0 with
  | none => simpa using hf
  | some i =>
      have := List.find?_some hf
      simp only [beq_iff_eq] at this
      simp only [reduceCtorEq, ne_eq, false_iff, not_forall, not_not]
      exact ⟨i, this⟩

lemma alloc_eq_some {m m' : Memb α n} {i : Fin n} (h : m.alloc = some (i, m')) :
    m.count i = 0 ∧ m' = { m with count := Function.update m.count i (m.count i + 1) } := by
  unfold alloc at h
  split at h
  · rename_i j hj
    obtain ⟨rfl, rfl⟩ : j = i ∧ _ = m' := by simpa using h
    exact ⟨by simpa using List.find?_some hj, rfl⟩
  · cases h

@[simp] lemma free_mem (m : Memb α n) (i : Fin n) : (m.free i).mem = m.mem := by
  unfold free; split <;> rfl

lemma free_count (m : Memb α n) (i : Fin n) :
    (m.free i).count = Function.update m.count i (m.count i - 1) := by
  unfold free
  by_cases h : m.count i > 0
  · rw [if_pos h]
  · rw [if_neg h, Nat.sub_eq_zero_of_le (by omega), Function.eq_update_self_iff]
    omega

@[simp] lemma write_count (m : Memb α n) (i : Fin n) (a : α) :
    (m.write i a).count = m.count := rfl

lemma write_mem (m : Memb α n) (i : Fin n) (a : α) :
    (m.write i a).mem = Function.update m.mem i a := rfl

/-- A block that is taken and written was unused, and the others stay as they are. -/
lemma alloc_write {m m' : Memb α n} {i : Fin n} (h : m.alloc = some (i, m')) (a : α) :
    m.count i = 0 ∧ (m'.write i a).count i = 1 ∧ (m'.write i a).mem i = a ∧
      ∀ j ≠ i, (m'.write i a).count j = m.count j ∧ (m'.write i a).mem j = m.mem j := by
  obtain ⟨hzero, rfl⟩ := alloc_eq_some h
  refine ⟨hzero, ?_, ?_, fun j hj => ⟨?_, ?_⟩⟩
  · show Function.update m.count i (m.count i + 1) i = 1
    rw [Function.update_self, hzero]
  · rw [write_mem, Function.update_self]
  · show Function.update m.count i (m.count i + 1) j = m.count j
    rw [Function.update_of_ne hj]
  · rw [write_mem, Function.update_of_ne hj]

/-- The number of unused blocks. -/
def room (m : Memb α n) : ℕ := (Finset.univ.filter fun i => m.count i = 0).card

lemma room_le (m : Memb α n) : m.room ≤ n := by
  have hcard := Finset.card_filter_le (Finset.univ : Finset (Fin n)) fun i => m.count i = 0
  rwa [Finset.card_univ, Fintype.card_fin] at hcard

/-- While there is room a block can be taken, and it is taken from the room. -/
lemma alloc_of_room {m : Memb α n} (h : 0 < m.room) :
    ∃ b m', m.alloc = some (b, m') ∧ m.count b = 0 ∧ m'.mem = m.mem ∧
      (∀ b', m.count b' ≠ 0 ∨ b' = b → m'.count b' ≠ 0) ∧ m'.room + 1 = m.room := by
  cases halloc : m.alloc with
  | none =>
      have hfull := alloc_eq_none.mp halloc
      obtain ⟨b, hb⟩ := Finset.card_pos.mp h
      exact (hfull b (Finset.mem_filter.mp hb).2).elim
  | some r =>
      obtain ⟨b, m'⟩ := r
      obtain ⟨hfree, rfl⟩ := alloc_eq_some halloc
      refine ⟨b, _, rfl, hfree, rfl, fun b' hb' => ?_, ?_⟩
      · by_cases hbb : b' = b
        · simp [hbb]
        · simpa [hbb] using hb'
      · have herase : (Finset.univ.filter fun i => Function.update m.count b (m.count b + 1) i = 0) =
            (Finset.univ.filter fun i => m.count i = 0).erase b := by
          ext i
          by_cases hi : i = b
          · simp [hi]
          · simp [hi]
        unfold room
        rw [herase]
        exact Finset.card_erase_add_one (Finset.mem_filter.mpr ⟨Finset.mem_univ b, hfree⟩)

lemma room_le_freeAll (m : Memb α n) (l : List (Fin n)) : m.room ≤ (m.freeAll l).room := by
  induction l generalizing m with
  | nil => exact Nat.le_refl _
  | cons b l ih =>
    apply Nat.le_trans _ (ih (m.free b))
    apply Finset.card_le_card
    intro i hi
    obtain ⟨-, hzero⟩ := Finset.mem_filter.mp hi
    refine Finset.mem_filter.mpr ⟨Finset.mem_univ i, ?_⟩
    rw [free_count]
    by_cases hib : i = b
    · subst hib
      rw [Function.update_self, hzero]
    · rw [Function.update_of_ne hib, hzero]

/-- The allocated blocks are shared out among the lists `own i`, each allocated once. -/
structure OwnedBy (m : Memb α n) (own : ι → List (Fin n)) : Prop where
  parts : Partitions own fun b => m.count b ≠ 0
  count_le : ∀ b, m.count b ≤ 1

namespace OwnedBy

variable {m m' : Memb α n} {own own' : ι → List (Fin n)}

lemma congr (h : m.OwnedBy own) (hcount : m'.count = m.count) (hown : ∀ i, own' i = own i) :
    m'.OwnedBy own' :=
  ⟨h.parts.congr hown fun b => by rw [hcount], fun b => by rw [hcount]; exact h.count_le b⟩

lemma write (h : m.OwnedBy own) (i : Fin n) (a : α) : (m.write i a).OwnedBy own :=
  h.congr rfl fun _ => rfl

/-- An initial pool is owned by empty lists. -/
lemma fresh (a : α) : (Memb.fresh a : Memb α n).OwnedBy fun _ : ι => [] :=
  ⟨⟨fun _ => List.nodup_nil, fun _ _ _ h => by simp at h, fun _ => by simp [Memb.fresh]⟩,
    fun _ => Nat.zero_le 1⟩

lemma fresh_notMem (h : m.OwnedBy own) {b : Fin n} (hb : m.count b = 0) (i : ι) : b ∉ own i :=
  h.parts.not_mem (by simpa using hb) i

variable [DecidableEq ι]

/-- A block just allocated is put on the list of `i`. -/
lemma alloc_give (h : m.OwnedBy own) {b : Fin n} (halloc : m.alloc = some (b, m')) (i : ι)
    {l : List (Fin n)} (hl : l.Nodup) (hmem : ∀ a, a ∈ l ↔ a ∈ own i ∨ a = b) :
    m'.OwnedBy (Function.update own i l) := by
  obtain ⟨hzero, rfl⟩ := alloc_eq_some halloc
  refine ⟨(h.parts.give (by simpa using hzero) hl hmem).congr (fun _ => rfl) ?_, ?_⟩
  · intro a
    by_cases hab : a = b
    · simp [hab]
    · simp [hab]
  · intro a
    by_cases hab : a = b
    · simp [hab, hzero]
    · simpa [hab] using h.count_le a

lemma alloc_add (h : m.OwnedBy own) {b : Fin n} (halloc : m.alloc = some (b, m')) (i : ι) :
    m'.OwnedBy (Function.update own i (listAdd (own i) b)) :=
  h.alloc_give halloc i (nodup_listAdd (h.parts.nodup i) b) fun _ => mem_listAdd

/-- A block is taken off its owner's list and given back. -/
lemma free_erase (h : m.OwnedBy own) {b : Fin n} {i : ι} (hb : b ∈ own i) :
    (m.free b).OwnedBy (Function.update own i (listRemove (own i) b)) := by
  have hlive : m.count b ≠ 0 := (h.parts.live_iff b).mpr ⟨i, hb⟩
  have hone : m.count b = 1 := by have := h.count_le b; omega
  have hcount : (m.free b).count = Function.update m.count b 0 := by
    simp [Memb.free, hone]
  refine ⟨(h.parts.take hb).congr (fun _ => rfl) ?_, ?_⟩
  · intro a
    by_cases hab : a = b
    · simp [hcount, hab]
    · simp [hcount, hab]
  · intro a
    by_cases hab : a = b
    · simp [hcount, hab]
    · simpa [hcount, hab] using h.count_le a

/-- The list of an owner is given back as a whole. -/
lemma free_all (h : m.OwnedBy own) (i : ι) :
    (m.freeAll (own i)).OwnedBy (Function.update own i []) := by
  generalize hl : own i = l
  induction l generalizing m own with
  | nil => exact h.congr rfl fun j => by rw [← hl, Function.update_eq_self]
  | cons b l ih =>
      have hb : b ∈ own i := by rw [hl]; exact List.mem_cons_self
      have hrest : Function.update own i (listRemove (own i) b) i = l := by
        rw [Function.update_self, hl, listRemove, List.erase_cons_head]
      exact (ih (h.free_erase hb) hrest).congr rfl fun j => by rw [Function.update_idem]

end OwnedBy
end Memb

end Contiki

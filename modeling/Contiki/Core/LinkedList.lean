import Contiki.Lib.Links
import Contiki.Lib.Machine
import Contiki.Lib.Memb

/-!
# Lists whose links are in the items

`list.c` keeps a pointer to the first item; each item starts with a pointer to the next one.

* `LinkedList.listRemove_spec`, `LinkedList.listAdd_spec`, `LinkedList.listPush_spec`,
  `LinkedList.listInsert_spec`, `LinkedList.listPop_spec`, `LinkedList.listChop_spec` — what an operation does
  to the items of a list.
* `not_linked_listInsert` — an item that is inserted behind another one while it is on the list.
* `linkedList_calls` — every sequence of calls, compared with sequences.
-/

namespace Contiki
open Links

variable {ι : Type*} [DecidableEq ι]

/-- A `list_t`, with the `next` pointers of all items there are. -/
structure LinkedList (ι : Type*) where
  head : Option ι
  next : ι → Option ι

/-- The operations of a list. -/
inductive ListCall (ι : Type*)
  | add (item : ι)
  | push (item : ι)
  | insert (previtem : Option ι) (newitem : ι)
  | remove (item : ι)
  | pop
  | chop

/-- An item is put behind another one; one that is already present is moved. -/
def insertBehind (prev item : ι) : List ι → List ι
  | [] => []
  | a :: l => if a = prev then a :: item :: l else a :: insertBehind prev item l

/-- What an operation answers, and what it does to a sequence without duplicates. -/
def sequenceCall (l : List ι) : ListCall ι → Option ι × List ι
  | .add item => (none, listAdd l item)
  | .push item => (none, listPush l item)
  | .insert none item => (none, listPush l item)
  | .insert (some prev) item => (none, if prev = item then l else insertBehind prev item (l.erase item))
  | .remove item => (none, listRemove l item)
  | .pop => (l.head?, l.tail)
  | .chop => (l.getLast?, l.dropLast)

/-- The operations of a sequence always return. -/
def sequenceStep (l : List ι) (call : ListCall ι) : Option (Option ι) × List ι :=
  (some (sequenceCall l call).1, (sequenceCall l call).2)

namespace ListCall

/-- An item is inserted behind one that is on the list. -/
def BehindPresent (l : List ι) : ListCall ι → Prop
  | .insert (some prev) _ => prev ∈ l
  | _ => True

/-- No item is inserted behind another one that is on the list already. -/
def InsertsAbsent (l : List ι) : ListCall ι → Prop
  | .insert (some _) item => item ∉ l
  | _ => True

/-- Whether an item is added and not removed, behind a call with its answer. -/
def Keeps (a : ι) (held : Prop) : ListCall ι × Option (Option ι) → Prop
  | (.add item, _) => held ∨ a = item
  | (.push item, _) => held ∨ a = item
  | (.insert _ item, _) => held ∨ a = item
  | (.remove item, _) => held ∧ a ≠ item
  | (.pop, answer) => held ∧ answer ≠ some (some a)
  | (.chop, answer) => held ∧ answer ≠ some (some a)

end ListCall

/-- An item was added and not removed since, as calls and their answers have it. -/
def AddedNotRemoved (a : ι) (log : List (ListCall ι × Option (Option ι))) : Prop :=
  log.foldl (ListCall.Keeps a) False

lemma insertBehind_append {pre post : List ι} {prev item : ι} (h : prev ∉ pre) :
    insertBehind prev item (pre ++ prev :: post) = pre ++ prev :: item :: post := by
  induction pre with
  | nil => exact if_pos rfl
  | cons a pre ih =>
    rw [List.mem_cons, not_or] at h
    show (if a = prev then _ else a :: insertBehind prev item (pre ++ prev :: post)) = _
    rw [if_neg (Ne.symm h.1), ih h.2]
    rfl

lemma mem_insertBehind {l : List ι} {prev item a : ι} (h : prev ∈ l) :
    a ∈ insertBehind prev item l ↔ a ∈ l ∨ a = item := by
  induction l with
  | nil => exact absurd h List.not_mem_nil
  | cons b l ih =>
    unfold insertBehind
    by_cases hb : b = prev
    · rw [if_pos hb]
      simp only [List.mem_cons]
      tauto
    · rw [if_neg hb, List.mem_cons, ih (List.mem_of_ne_of_mem (Ne.symm hb) h), List.mem_cons, or_assoc]

lemma nodup_insertBehind {l : List ι} {prev item : ι} (h : l.Nodup) (hprev : prev ∈ l) (hitem : item ∉ l) :
    (insertBehind prev item l).Nodup := by
  obtain ⟨pre, post, rfl⟩ := List.append_of_mem hprev
  have hnot := (List.nodup_cons.mp (List.nodup_middle.mp h)).1
  rw [insertBehind_append fun hmem => hnot (List.mem_append_left _ hmem)]
  have hsplit : pre ++ prev :: item :: post = (pre ++ [prev]) ++ item :: post := by simp
  rw [hsplit, List.nodup_middle, List.nodup_cons]
  have hback : (pre ++ [prev]) ++ post = pre ++ prev :: post := by simp
  rw [hback]
  exact ⟨hitem, h⟩

/-- A sequence without duplicates stays one, and loses and gains what the call says. -/
lemma sequenceStep_spec {l : List ι} (h : l.Nodup) {call : ListCall ι} (hcall : call.BehindPresent l) :
    (sequenceStep l call).2.Nodup ∧
      ∀ a, a ∈ (sequenceStep l call).2 ↔ ListCall.Keeps a (a ∈ l) (call, (sequenceStep l call).1) := by
  cases call with
  | add item => exact ⟨nodup_listAdd h item, fun a => mem_listAdd⟩
  | push item => exact ⟨nodup_listPush h item, fun a => mem_listPush⟩
  | insert previtem item =>
    cases previtem with
    | none => exact ⟨nodup_listPush h item, fun a => mem_listPush⟩
    | some prev =>
      have hprev : prev ∈ l := hcall
      show (if prev = item then l else insertBehind prev item (l.erase item)).Nodup ∧
        ∀ a, a ∈ (if prev = item then l else insertBehind prev item (l.erase item)) ↔ a ∈ l ∨ a = item
      by_cases hsame : prev = item
      · subst hsame
        simp only [if_pos]
        refine ⟨h, fun a => ⟨.inl, ?_⟩⟩
        rintro (ha | rfl)
        · exact ha
        · exact hprev
      · have hrest : prev ∈ l.erase item := (h.mem_erase_iff).mpr ⟨hsame, hprev⟩
        rw [if_neg hsame]
        refine ⟨nodup_insertBehind (h.erase item) hrest fun hmem => (h.mem_erase_iff.mp hmem).1 rfl, ?_⟩
        intro a
        rw [mem_insertBehind hrest, h.mem_erase_iff]
        tauto
  | remove item => exact ⟨nodup_listRemove h item, fun a => mem_listRemove h⟩
  | pop =>
    cases l with
    | nil => exact ⟨h, fun a => by simp [sequenceStep, sequenceCall, ListCall.Keeps]⟩
    | cons b l =>
      refine ⟨(List.nodup_cons.mp h).2, fun a => ?_⟩
      have hb := (List.nodup_cons.mp h).1
      simp only [sequenceStep, sequenceCall, ListCall.Keeps, List.tail_cons, List.head?_cons, List.mem_cons,
        ne_eq, Option.some.injEq]
      grind
  | chop =>
    rcases List.eq_nil_or_concat' l with rfl | ⟨pre, b, rfl⟩
    · exact ⟨h, fun a => by simp [sequenceStep, sequenceCall, ListCall.Keeps]⟩
    · have hsplit := List.nodup_cons.mp (List.nodup_middle.mp h)
      rw [List.append_nil] at hsplit
      simp only [sequenceStep, sequenceCall, ListCall.Keeps, List.dropLast_concat, List.getLast?_concat,
        List.mem_append, List.mem_singleton, ne_eq, Option.some.injEq]
      refine ⟨hsplit.2, fun a => ?_⟩
      have hb := hsplit.1
      grind

/-- A sequence that starts empty holds what was added and not removed, once. -/
lemma sequence_run {l : List ι} (h : l.Nodup) {calls : List (ListCall ι)}
    (hcalls : InOrder sequenceStep ListCall.BehindPresent l calls) :
    (runCalls sequenceStep l calls).2.Nodup ∧ ∀ a, a ∈ (runCalls sequenceStep l calls).2 ↔
      (calls.zip (runCalls sequenceStep l calls).1).foldl (ListCall.Keeps a) (a ∈ l) := by
  induction calls generalizing l with
  | nil => exact ⟨h, fun a => Iff.rfl⟩
  | cons call calls ih =>
    obtain ⟨hnodup, hmem⟩ := sequenceStep_spec h hcalls.1
    obtain ⟨hlast, hall⟩ := ih hnodup hcalls.2
    refine ⟨hlast, fun a => ?_⟩
    rw [runCalls_cons, List.zip_cons_cons, List.foldl_cons, ← propext (hmem a)]
    exact hall a

namespace LinkedList

def listInit (s : LinkedList ι) : LinkedList ι := { s with head := none }

/-- The `next` pointer of an item is set. -/
def setNext (s : LinkedList ι) (a : ι) (q : Option ι) : LinkedList ι :=
  { s with next := Function.update s.next a q }

/-- What comes behind the item `r`, or first, becomes `q`. -/
def setBehind (s : LinkedList ι) (r q : Option ι) : LinkedList ι :=
  match r with
  | none => { s with head := q }
  | some r => s.setNext r q

/-- The loop of `list_remove`, from the item `l` on, behind the item `r`; `none` is a loop that goes on for
ever. -/
def removeFrom (item : ι) (s : LinkedList ι) : ℕ → Option ι → Option ι → Option (LinkedList ι)
  | 0, _, _ => none
  | fuel + 1, r, l =>
    match l with
    | none => some s
    | some l =>
      if l = item then some ((s.setBehind r (s.next l)).setNext l none)
      else removeFrom item s fuel (some l) (s.next l)

/-- The loop of `list_tail`. -/
def tailFrom (next : ι → Option ι) : ℕ → ι → Option ι
  | 0, _ => none
  | fuel + 1, l =>
    match next l with
    | none => some l
    | some l => tailFrom next fuel l

/-- The loop of `list_chop`; `none` also is a null pointer that is followed. -/
def chopFrom (next : ι → Option ι) : ℕ → ι → Option ι
  | 0, _ => none
  | fuel + 1, l =>
    match next l with
    | none => none
    | some l' => if next l' = none then some l else chopFrom next fuel l'

section ops
variable [Fintype ι]

/-- A walk that takes more steps than there are items goes on for ever. -/
def steps (ι : Type*) [Fintype ι] : ℕ := Fintype.card ι + 1

def listRemove (s : LinkedList ι) (item : ι) : Option (LinkedList ι) :=
  removeFrom item s (steps ι) none s.head

def listTail (s : LinkedList ι) : Option (Option ι) :=
  match s.head with
  | none => some none
  | some l => (tailFrom s.next (steps ι) l).map some

def listAdd (s : LinkedList ι) (item : ι) : Option (LinkedList ι) := do
  let s ← s.listRemove item
  let s := s.setNext item none
  let l ← s.listTail
  return s.setBehind l (some item)

def listPush (s : LinkedList ι) (item : ι) : Option (LinkedList ι) := do
  let s ← s.listRemove item
  let s := s.setNext item s.head
  return { s with head := some item }

def listInsert (s : LinkedList ι) : Option ι → ι → Option (LinkedList ι)
  | none, newitem => s.listPush newitem
  | some previtem, newitem =>
    let s := s.setNext newitem (s.next previtem)
    some (s.setNext previtem (some newitem))

def listPop (s : LinkedList ι) : Option ι × LinkedList ι :=
  match s.head with
  | none => (none, s)
  | some l => (some l, { s with head := s.next l })

def listChop (s : LinkedList ι) : Option (Option ι × LinkedList ι) :=
  match s.head with
  | none => some (none, s)
  | some h =>
    if s.next h = none then some (some h, { s with head := none })
    else (chopFrom s.next (steps ι) h).map fun l => (s.next l, s.setNext l none)

/-- What an operation answers, and what it makes of a list; `none` behind a call that does not return. -/
def step (s : Option (LinkedList ι)) (call : ListCall ι) : Option (Option ι) × Option (LinkedList ι) :=
  let r := s.bind fun s =>
    match call with
    | .add item => (s.listAdd item).map fun s => (none, s)
    | .push item => (s.listPush item).map fun s => (none, s)
    | .insert previtem newitem => (s.listInsert previtem newitem).map fun s => (none, s)
    | .remove item => (s.listRemove item).map fun s => (none, s)
    | .pop => some s.listPop
    | .chop => s.listChop
  (r.map Prod.fst, r.map Prod.snd)

end ops

/-- The list holds the items of `l`, in this order. -/
def Holds (s : LinkedList ι) (l : List ι) : Prop := Linked s.next s.head l

variable {s : LinkedList ι} {l pre post : List ι} {a b c : ι} {p r : Option ι} {fuel : ℕ}

/-! ## The loops -/

lemma removeFrom_of_notMem (h : Linked s.next p l) (ha : a ∉ l) (hfuel : l.length < fuel) :
    removeFrom a s fuel r p = some s := by
  induction l generalizing p r fuel with
  | nil =>
    obtain ⟨fuel, rfl⟩ : ∃ k, fuel = k + 1 := ⟨fuel - 1, by simp at hfuel; omega⟩
    rw [linked_nil.mp h]
    rfl
  | cons b l ih =>
    obtain ⟨fuel, rfl⟩ : ∃ k, fuel = k + 1 := ⟨fuel - 1, by simp at hfuel; omega⟩
    obtain ⟨rfl, hrest⟩ := h
    have hne : b ≠ a := fun heq => ha (heq ▸ List.mem_cons_self)
    show (if b = a then _ else removeFrom a s fuel (some b) (s.next b)) = _
    rw [if_neg hne]
    exact ih hrest (fun hmem => ha (List.mem_cons_of_mem _ hmem)) (by simpa using hfuel)

/-- The item is taken off behind the one before it, which is `r` where the walk starts. -/
lemma removeFrom_of_mem (h : Linked s.next p (pre ++ a :: post)) (hfuel : pre.length < fuel) :
    removeFrom a s fuel r p = some ((s.setBehind (pre.getLast?.or r) (s.next a)).setNext a none) := by
  have hnodup := h.nodup
  induction pre generalizing p r fuel with
  | nil =>
    obtain ⟨fuel, rfl⟩ : ∃ k, fuel = k + 1 := ⟨fuel - 1, by omega⟩
    obtain ⟨rfl, -⟩ := h
    exact if_pos rfl
  | cons b pre ih =>
    obtain ⟨fuel, rfl⟩ : ∃ k, fuel = k + 1 := ⟨fuel - 1, by omega⟩
    obtain ⟨rfl, hrest⟩ := h
    have hne : b ≠ a := by
      rintro rfl
      simp at hnodup
    show (if b = a then _ else removeFrom a s fuel (some b) (s.next b)) = _
    rw [if_neg hne, ih hrest (by simpa using hfuel) (List.nodup_cons.mp hnodup).2, List.getLast?_cons]
    cases pre.getLast? <;> rfl

omit [DecidableEq ι] in
/-- A list with an item at its end has a first one. -/
lemma exists_first (h : Linked s.next p (pre ++ [b])) : ∃ a, p = some a := by
  cases pre with
  | nil => exact ⟨b, h.1⟩
  | cons a pre => exact ⟨a, h.1⟩

omit [DecidableEq ι] in
/-- A list with two items at its end has one behind the first. -/
lemma exists_second (h : Linked s.next p (pre ++ [b, c])) : ∃ a, p = some a ∧ s.next a ≠ none := by
  cases pre with
  | nil => exact ⟨b, h.1, by rw [h.2.1]; exact Option.some_ne_none c⟩
  | cons a pre =>
    have hrest : Linked s.next (s.next a) ((pre ++ [b]) ++ [c]) := by
      rw [List.append_assoc]
      exact h.2
    obtain ⟨d, hd⟩ := exists_first hrest
    exact ⟨a, h.1, by rw [hd]; exact Option.some_ne_none d⟩

omit [DecidableEq ι] in
lemma tailFrom_eq (h : Linked s.next (some a) (pre ++ [b])) (hfuel : pre.length < fuel) :
    tailFrom s.next fuel a = some b := by
  induction pre generalizing a fuel with
  | nil =>
    obtain ⟨fuel, rfl⟩ : ∃ k, fuel = k + 1 := ⟨fuel - 1, by omega⟩
    obtain ⟨hab, hnext⟩ := h
    obtain rfl := Option.some.inj hab
    rw [tailFrom, linked_nil.mp hnext]
  | cons c pre ih =>
    obtain ⟨fuel, rfl⟩ : ∃ k, fuel = k + 1 := ⟨fuel - 1, by omega⟩
    obtain ⟨hac, hrest⟩ := h
    obtain rfl := Option.some.inj hac
    obtain ⟨d, hd⟩ := exists_first hrest
    rw [tailFrom, hd]
    rw [hd] at hrest
    exact ih hrest (by simpa using hfuel)

omit [DecidableEq ι] in
lemma chopFrom_eq (h : Linked s.next (some a) (pre ++ [b, c])) (hfuel : pre.length < fuel) :
    chopFrom s.next fuel a = some b := by
  induction pre generalizing a fuel with
  | nil =>
    obtain ⟨fuel, rfl⟩ : ∃ k, fuel = k + 1 := ⟨fuel - 1, by omega⟩
    obtain ⟨hab, hnext, hlast⟩ := h
    obtain rfl := Option.some.inj hab
    rw [chopFrom, hnext]
    exact if_pos hlast
  | cons d pre ih =>
    obtain ⟨fuel, rfl⟩ : ∃ k, fuel = k + 1 := ⟨fuel - 1, by omega⟩
    obtain ⟨had, hrest⟩ := h
    obtain rfl := Option.some.inj had
    obtain ⟨e, he, hmore⟩ := exists_second hrest
    rw [chopFrom, he]
    rw [he] at hrest
    exact (if_neg hmore).trans (ih hrest (by simpa using hfuel))

/-! ## The operations -/

section ops
variable [Fintype ι]

omit [DecidableEq ι] in
lemma Holds.length_lt (h : s.Holds l) : l.length < steps ι := Nat.lt_succ_of_le h.length_le

lemma listRemove_spec (h : s.Holds l) (item : ι) :
    ∃ s', s.listRemove item = some s' ∧ s'.Holds (l.erase item) := by
  have hlength := h.length_lt
  by_cases hitem : item ∈ l
  · obtain ⟨pre, post, rfl⟩ := List.append_of_mem hitem
    have hnodup := h.nodup
    rw [List.length_append] at hlength
    refine ⟨_, removeFrom_of_mem h (by omega), ?_⟩
    have hnot : item ∉ pre ++ post := (List.nodup_cons.mp (List.nodup_middle.mp hnodup)).1
    rw [List.erase_append_right _ fun hmem => hnot (List.mem_append_left _ hmem), List.erase_cons_head]
    rcases List.eq_nil_or_concat' pre with rfl | ⟨init, b, rfl⟩
    · exact Linked.update_of_notMem h.2 hnot none
    · rw [List.getLast?_append]
      rw [List.append_assoc] at h hnot ⊢
      exact Linked.update_of_notMem h.unlink hnot none
  · rw [List.erase_of_not_mem hitem]
    exact ⟨s, removeFrom_of_notMem h hitem hlength, h⟩

omit [DecidableEq ι] in
lemma listTail_spec (h : s.Holds l) : s.listTail = some l.getLast? := by
  have hlength := h.length_lt
  rcases List.eq_nil_or_concat' l with rfl | ⟨pre, b, rfl⟩
  · have hhead : s.head = none := h
    rw [listTail, hhead]
    rfl
  · rw [List.length_append] at hlength
    obtain ⟨a, ha⟩ := exists_first h
    unfold Holds at h
    rw [ha] at h
    rw [listTail, ha, List.getLast?_concat]
    show (tailFrom s.next (steps ι) a).map some = _
    rw [tailFrom_eq h (by omega)]
    rfl

/-- `list_add` moves an item that is present to the end. -/
lemma listAdd_spec (h : s.Holds l) (item : ι) :
    ∃ s', s.listAdd item = some s' ∧ s'.Holds (Contiki.listAdd l item) := by
  obtain ⟨s₁, hremove, h₁⟩ := listRemove_spec h item
  have hnot : item ∉ l.erase item := fun hmem => ((h.nodup.mem_erase_iff).mp hmem).1 rfl
  have h₂ : (s₁.setNext item none).Holds (l.erase item) := h₁.update_of_notMem hnot none
  unfold listAdd Contiki.listAdd
  rw [hremove]
  show ∃ s', ((s₁.setNext item none).listTail.bind fun l =>
    some ((s₁.setNext item none).setBehind l (some item))) = some s' ∧ _
  rw [listTail_spec h₂]
  rcases List.eq_nil_or_concat' (l.erase item) with hnil | ⟨pre, b, hconcat⟩
  · rw [hnil]
    refine ⟨_, rfl, rfl, ?_⟩
    exact Function.update_self item none s₁.next
  · rw [hconcat] at h₁ hnot ⊢
    rw [List.getLast?_concat]
    refine ⟨_, rfl, ?_⟩
    have hb : s₁.next b = none := h₁.next_eq
    have hinsert := Linked.insert h₁ hnot
    rw [hb] at hinsert
    rw [List.append_assoc]
    exact hinsert

/-- `list_push` moves an item that is present to the front. -/
lemma listPush_spec (h : s.Holds l) (item : ι) :
    ∃ s', s.listPush item = some s' ∧ s'.Holds (Contiki.listPush l item) := by
  obtain ⟨s₁, hremove, h₁⟩ := listRemove_spec h item
  unfold listPush
  rw [hremove]
  exact ⟨_, rfl, h₁.push fun hmem => ((h.nodup.mem_erase_iff).mp hmem).1 rfl⟩

omit [DecidableEq ι] [Fintype ι] in
lemma listPop_spec (h : s.Holds l) : s.listPop.1 = l.head? ∧ s.listPop.2.Holds l.tail := by
  cases l with
  | nil =>
    have hhead : s.head = none := h
    unfold listPop
    rw [hhead]
    exact ⟨rfl, h⟩
  | cons a l =>
    unfold listPop
    rw [h.1]
    exact ⟨rfl, h.2⟩

lemma listChop_spec (h : s.Holds l) :
    ∃ s', s.listChop = some (l.getLast?, s') ∧ s'.Holds l.dropLast := by
  have hlength := h.length_lt
  rcases List.eq_nil_or_concat' l with rfl | ⟨pre, c, rfl⟩
  · have hhead : s.head = none := h
    rw [listChop, hhead]
    exact ⟨s, rfl, h⟩
  · rw [List.getLast?_concat, List.dropLast_concat]
    rcases List.eq_nil_or_concat' pre with rfl | ⟨pre, b, rfl⟩
    · obtain ⟨hhead, hnext⟩ := h
      unfold listChop
      rw [hhead]
      exact ⟨_, if_pos hnext, rfl⟩
    · rw [List.append_assoc] at h
      obtain ⟨a, ha, hmore⟩ := exists_second h
      have hb : s.next b = some c := Linked.next_eq (m := [c]) h
      have hc : s.next c = none := (linked_append.mp h).choose_spec.2.2.2
      have hchop : chopFrom s.next (steps ι) a = some b := by
        unfold Holds at h
        rw [ha] at h
        refine chopFrom_eq h ?_
        simp only [List.length_append, List.length_cons] at hlength
        omega
      unfold listChop
      rw [ha]
      refine ⟨s.setNext b none, ?_, ?_⟩
      · show (if s.next a = none then _ else (chopFrom s.next (steps ι) a).map _) = _
        rw [if_neg hmore, hchop, Option.map_some, hb]
      · have hcut := Linked.unlink h
        rwa [hc] at hcut

/-- `list_insert` puts an item that is not on the list behind one that is. -/
lemma listInsert_spec (h : s.Holds l) {prev item : ι} (hprev : prev ∈ l) (hitem : item ∉ l) :
    ∃ s', s.listInsert (some prev) item = some s' ∧ s'.Holds (insertBehind prev item l) := by
  obtain ⟨pre, post, rfl⟩ := List.append_of_mem hprev
  refine ⟨_, rfl, ?_⟩
  have hnot := (List.nodup_cons.mp (List.nodup_middle.mp h.nodup)).1
  rw [insertBehind_append fun hmem => hnot (List.mem_append_left _ hmem)]
  exact Linked.insert h hitem

/-- **An item that is on the list is inserted behind another one**: it is left where it was, and so comes
twice, or cuts off what is between. -/
lemma not_holds_listInsert (h : s.Holds l) {prev item : ι} (hprev : prev ∈ l) (hitem : item ∈ l)
    {s' : LinkedList ι} (hs' : s.listInsert (some prev) item = some s') :
    ¬s'.Holds (sequenceCall l (.insert (some prev) item)).2 := by
  obtain rfl : (s.setNext item (s.next prev)).setNext prev (some item) = s' := Option.some.inj hs'
  have hself : ∀ {l₁ l₂ : List ι} {t : LinkedList ι}, t.Holds (l₁ ++ item :: l₂) → t.next item ≠ some item := by
    intro l₁ l₂ t ht hnext
    have hnot := (List.nodup_cons.mp (List.nodup_middle.mp ht.nodup)).1
    have hhead := ht.next_eq.symm.trans hnext
    exact hnot (List.mem_append_right _ (List.mem_of_head? hhead))
  intro h'
  by_cases hsame : prev = item
  · -- the item points to itself
    subst hsame
    have hl : (sequenceCall l (.insert (some prev) prev)).2 = l := if_pos rfl
    rw [hl] at h'
    obtain ⟨l₁, l₂, rfl⟩ := List.append_of_mem hprev
    exact hself h' (Function.update_self prev _ _)
  · have hrest : prev ∈ l.erase item := (h.nodup.mem_erase_iff).mpr ⟨hsame, hprev⟩
    have hl : (sequenceCall l (.insert (some prev) item)).2 = insertBehind prev item (l.erase item) :=
      if_neg hsame
    obtain ⟨l₁, l₂, herase⟩ := List.append_of_mem hrest
    have hnot := (List.nodup_cons.mp (List.nodup_middle.mp (herase ▸ h.nodup.erase item))).1
    rw [hl, herase, insertBehind_append fun hmem => hnot (List.mem_append_left _ hmem)] at h'
    have hother : ∀ b, b ≠ prev → b ≠ item →
        ((s.setNext item (s.next prev)).setNext prev (some item)).next b = s.next b := by
      intro b hb hb'
      show Function.update (Function.update s.next item _) prev _ b = _
      rw [Function.update_of_ne hb, Function.update_of_ne hb']
    by_cases hhead : s.head = some item
    · -- the item is still the first one
      have hfront : l₁ ++ prev :: item :: l₂ = (l₁ ++ [prev]) ++ item :: l₂ := by simp
      rw [hfront] at h'
      exact Linked.head_ne h' (by simp) hhead
    · obtain ⟨pre, b, post, rfl⟩ := h.head_or_before hitem hhead
      have hb : s.next b = some item := h.next_eq
      have hne : b ≠ item := by
        rintro rfl
        exact hself h hb
      by_cases hbprev : b = prev
      · -- it is behind the other one already, and now points to itself
        subst hbprev
        rw [List.append_cons] at h'
        refine hself h' ?_
        show Function.update (Function.update s.next item _) b _ item = _
        rw [Function.update_of_ne (Ne.symm hne), Function.update_self, hb]
      · -- it still is behind the one it was behind
        have hmem : b ∈ l₁ ++ prev :: item :: l₂ := by
          have hb' : b ∈ (pre ++ b :: item :: post).erase item :=
            (h.nodup.mem_erase_iff).mpr ⟨hne, by simp⟩
          rw [herase] at hb'
          simp only [List.mem_append, List.mem_cons] at hb' ⊢
          tauto
        exact hbprev (h'.next_inj hmem ((hother b hbprev hne).trans hb))

/-- The operations act as those of a sequence, as long as no item on the list is inserted behind another. -/
lemma simulates : Simulates step sequenceStep
    (fun l call => call.BehindPresent l ∧ call.InsertsAbsent l)
    fun s l => ∃ s' : LinkedList ι, s = some s' ∧ s'.Holds l := by
  rintro _ l call ⟨s, rfl, h⟩ ⟨hprev, habsent⟩
  cases call with
  | add item =>
    obtain ⟨s', hs', h'⟩ := listAdd_spec h item
    simp only [step, Option.bind_some, hs', Option.map_some]
    exact ⟨rfl, s', rfl, h'⟩
  | push item =>
    obtain ⟨s', hs', h'⟩ := listPush_spec h item
    simp only [step, Option.bind_some, hs', Option.map_some]
    exact ⟨rfl, s', rfl, h'⟩
  | insert previtem item =>
    cases previtem with
    | none =>
      obtain ⟨s', hs', h'⟩ := listPush_spec h item
      simp only [step, Option.bind_some, listInsert, hs', Option.map_some]
      exact ⟨rfl, s', rfl, h'⟩
    | some prev =>
      obtain ⟨s', hs', h'⟩ := listInsert_spec h hprev habsent
      simp only [step, Option.bind_some, hs', Option.map_some]
      refine ⟨rfl, s', rfl, ?_⟩
      have hne : prev ≠ item := fun heq => habsent (heq ▸ hprev)
      show s'.Holds (if prev = item then l else insertBehind prev item (l.erase item))
      rwa [if_neg hne, List.erase_of_not_mem habsent]
  | remove item =>
    obtain ⟨s', hs', h'⟩ := listRemove_spec h item
    simp only [step, Option.bind_some, hs', Option.map_some]
    exact ⟨rfl, s', rfl, h'⟩
  | pop =>
    obtain ⟨hanswer, h'⟩ := listPop_spec h
    exact ⟨congrArg some hanswer, _, rfl, h'⟩
  | chop =>
    obtain ⟨s', hs', h'⟩ := listChop_spec h
    simp only [step, Option.bind_some, hs', Option.map_some]
    exact ⟨rfl, s', rfl, h'⟩

/-- At every point of a run the list answers as a sequence, and holds its items, once each: those added and
not removed. -/
def ActsAsSequence (s : LinkedList ι) (calls : List (ListCall ι)) : Prop :=
  ∀ pre, pre <+: calls →
    let r := runCalls step (some s.listInit) pre
    let q := runCalls sequenceStep [] pre
    r.1 = q.1 ∧ (∃ s', r.2 = some s' ∧ s'.Holds q.2) ∧ q.2.Nodup ∧
      ∀ a, a ∈ q.2 ↔ AddedNotRemoved a (pre.zip q.1)

end ops
end LinkedList

/-- **Lists and sequences.**  Items being inserted only behind items of the list, a list acts as a sequence
just as long as none of them is on the list already: unlike `list_add` and `list_push`, `list_insert` does
not take the item off first. -/
theorem linkedList_calls [Fintype ι] (s : LinkedList ι) (calls : List (ListCall ι))
    (hcalls : InOrder sequenceStep ListCall.BehindPresent [] calls) :
    s.ActsAsSequence calls ↔ InOrder sequenceStep ListCall.InsertsAbsent [] calls := by
  have hstart : ∃ s', some s.listInit = some s' ∧ s'.Holds [] := ⟨_, rfl, rfl⟩
  rw [← LinkedList.simulates.iff_inOrder ?_ hstart hcalls]
  · constructor
    · intro h pre hpre
      exact ⟨(h pre hpre).1, (h pre hpre).2.1⟩
    · intro h pre hpre
      obtain ⟨hnodup, hmem⟩ := sequence_run List.nodup_nil (hcalls.of_prefix hpre)
      refine ⟨(h pre hpre).1, (h pre hpre).2, hnodup, fun a => ?_⟩
      rw [hmem a, AddedNotRemoved, ← propext (iff_false_intro (List.not_mem_nil (a := a)))]
  · rintro _ l call ⟨s, rfl, h⟩ hprev ⟨s', hs', h'⟩
    cases call with
    | insert previtem item =>
      cases previtem with
      | none => trivial
      | some prev =>
        intro hitem
        exact LinkedList.not_holds_listInsert h hprev hitem hs' h'
    | _ => trivial

/-- Two items, the second of them first inserted behind the first and then pushed. -/
theorem linkedList_calls_push :
    (⟨none, fun _ => none⟩ : LinkedList (Fin 2)).ActsAsSequence
      [.add 0, .insert (some 0) 1, .push 1, .chop, .pop] := by
  refine (linkedList_calls ⟨none, fun _ => none⟩ [.add 0, .insert (some 0) 1, .push 1, .chop, .pop]
    ⟨trivial, List.mem_cons_self, trivial, trivial, trivial, trivial⟩).mpr
    ⟨trivial, ?_, trivial, trivial, trivial, trivial⟩
  show (1 : Fin 2) ∉ [0]
  decide

/-- The second of two items is inserted behind the first, where it is already, and points to itself. -/
theorem linkedList_calls_loop :
    ¬(⟨none, fun _ => none⟩ : LinkedList (Fin 2)).ActsAsSequence [.add 0, .add 1, .insert (some 0) 1] := by
  intro h
  obtain ⟨-, ⟨s', hs', hholds⟩, -⟩ := h _ List.prefix_rfl
  have hnext : s'.next 1 = some 1 := by
    have hsome := congrArg (Option.map fun s => s.next 1) hs'
    exact (Option.some.inj (hsome.symm.trans (by decide)))
  have hlast : s'.next 1 = none := hholds.2.2
  exact absurd (hnext.symm.trans hlast) (Option.some_ne_none 1)

end Contiki

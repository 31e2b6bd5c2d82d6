import Contiki.Core.LinkedList
import Contiki.Lib.Tiles

/-!
# Managed memory

`mmem.c` hands out blocks of one array from its front on.  A client keeps a handle with the place of its
block; when a block is given back, the blocks behind it are moved down and their handles are set anew.

* `Mmem.shiftFrom_eq` — the loop that sets the handles.
* `Mmem.alloc_spec`, `Mmem.free_spec`, `Mmem.write_spec` — what a call does to the blocks.
* `mmem_calls` — every sequence of calls.
-/

namespace Contiki
open Links

variable {ι : Type*} [DecidableEq ι]

/-- The state of `mmem.c`, with the fields of all `struct mmem` there are; a `ptr` is the place in `memory` it
points to.  The `unsigned int`s are never above `MMEM_SIZE`. -/
structure Mmem (ι : Type*) where
  mmemlist : LinkedList ι
  size : ι → ℕ
  ptr : ι → ℕ
  availMemory : ℕ
  memory : ℕ → UInt8

/-- The calls of `mmem.c`, and a byte that a client writes to its block. -/
inductive MmemCall (ι : Type*)
  | alloc (m : ι) (size : ℕ)
  | free (m : ι)
  | write (m : ι) (k : ℕ) (c : UInt8)

def memmove (b : ℕ → UInt8) (dst src n : ℕ) : ℕ → UInt8 := fun k =>
  if dst ≤ k ∧ k < dst + n then b (src + (k - dst)) else b k

namespace Mmem

def mmemInit (mmemSize : ℕ) (s : Mmem ι) : Mmem ι :=
  { s with mmemlist := s.mmemlist.listInit, availMemory := mmemSize }

/-- The loop of `mmem_free`, from the handle `n` on; `none` is a loop that goes on for ever. -/
def shiftFrom (next : ι → Option ι) (size : ℕ) : ℕ → Option ι → (ι → ℕ) → Option (ι → ℕ)
  | 0, _, _ => none
  | fuel + 1, n, ptr =>
    match n with
    | none => some ptr
    | some n => shiftFrom next size fuel (next n) (Function.update ptr n (ptr n - size))

/-- A byte is written through a handle. -/
def write (s : Mmem ι) (m : ι) (k : ℕ) (c : UInt8) : Mmem ι :=
  { s with memory := Function.update s.memory (s.ptr m + k) c }

/-- The bytes that are read through a handle. -/
def block (s : Mmem ι) (m : ι) : List UInt8 :=
  (List.range (s.size m)).map fun k => s.memory (s.ptr m + k)

section calls
variable [Fintype ι] (mmemSize : ℕ)

def mmemAlloc (s : Mmem ι) (m : ι) (size : ℕ) : Option (ℤ × Mmem ι) :=
  if s.availMemory < size then some (0, s)
  else do
    let mmemlist ← s.mmemlist.listAdd m
    return (1, { s with
      mmemlist := mmemlist
      ptr := Function.update s.ptr m (mmemSize - s.availMemory)
      size := Function.update s.size m size
      availMemory := s.availMemory - size })

/-- The part of `mmem_free` that moves the blocks behind the one of `m`. -/
def compact (s : Mmem ι) (m : ι) : Option (Mmem ι) :=
  match s.mmemlist.next m with
  | none => some s
  | some n => do
    let memory := memmove s.memory (s.ptr m) (s.ptr n) (mmemSize - s.availMemory - s.ptr n)
    let ptr ← shiftFrom s.mmemlist.next (s.size m) (LinkedList.steps ι) (some n) s.ptr
    return { s with memory := memory, ptr := ptr }

def mmemFree (s : Mmem ι) (m : ι) : Option (Mmem ι) := do
  let s ← s.compact mmemSize m
  let s := { s with availMemory := s.availMemory + s.size m }
  let mmemlist ← s.mmemlist.listRemove m
  return { s with mmemlist := mmemlist }

/-- What a call answers, 0 where it answers nothing, and what it does; `none` is a call that does not
return. -/
def step (s : Option (Mmem ι)) (call : MmemCall ι) : Option ℤ × Option (Mmem ι) :=
  let r := s.bind fun s =>
    match call with
    | .alloc m size => s.mmemAlloc mmemSize m size
    | .free m => (s.mmemFree mmemSize m).map fun s => (0, s)
    | .write m k c => some (0, s.write m k c)
  (r.map Prod.fst, r.map Prod.snd)

end calls
end Mmem

/-! ## The handles that have a block, with its size -/

/-- What a call answers, and which blocks there are behind it, from the front on. -/
def blocksStep (mmemSize : ℕ) (l : List (ι × ℕ)) : MmemCall ι → Option ℤ × List (ι × ℕ)
  | .alloc m size =>
    if mmemSize - (l.map Prod.snd).sum < size then (some 0, l) else (some 1, l ++ [(m, size)])
  | .free m => (some 0, l.filter fun b => b.1 ≠ m)
  | .write _ _ _ => (some 0, l)

namespace MmemCall

/-- Blocks are asked for with handles that have none; blocks are given back, and written to, through their
handles. -/
def Valid (l : List (ι × ℕ)) : MmemCall ι → Prop
  | .alloc m _ => m ∉ l.map Prod.fst
  | .free m => m ∈ l.map Prod.fst
  | .write m k _ => ∃ size, (m, size) ∈ l ∧ k < size

/-- The handle of a call. -/
def handle : MmemCall ι → ι
  | .alloc m _ => m
  | .free m => m
  | .write m _ _ => m

end MmemCall

namespace Mmem

/-- The blocks lie side by side at the front of the memory, in the order of `mmemlist`, and what is behind
them is available. -/
structure Laid (mmemSize : ℕ) (s : Mmem ι) (l : List (ι × ℕ)) : Prop where
  holds : s.mmemlist.Holds (l.map Prod.fst)
  size : ∀ b ∈ l, s.size b.1 = b.2
  abuts : Abuts s.ptr s.size 0 (mmemSize - s.availMemory) (l.map Prod.fst)
  avail : (l.map Prod.snd).sum + s.availMemory = mmemSize

variable {mmemSize : ℕ} {s : Mmem ι} {l : List (ι × ℕ)} {m m' : ι}

omit [DecidableEq ι] in
lemma block_congr {s' : Mmem ι} (hsize : s'.size m = s.size m)
    (hbytes : ∀ k < s.size m, s'.memory (s'.ptr m + k) = s.memory (s.ptr m + k)) :
    s'.block m = s.block m := by
  unfold block
  rw [hsize]
  exact List.map_congr_left fun k hk => hbytes k (List.mem_range.mp hk)

/-- The loop moves the handles that it visits. -/
lemma shiftFrom_eq {next : ι → Option ι} {size fuel : ℕ} {p : Option ι} {ms : List ι} {ptr : ι → ℕ}
    (h : Linked next p ms) (hfuel : ms.length < fuel) : ∃ ptr', shiftFrom next size fuel p ptr = some ptr' ∧
      (∀ m ∈ ms, ptr' m = ptr m - size) ∧ ∀ m, m ∉ ms → ptr' m = ptr m := by
  have hnodup := h.nodup
  induction ms generalizing p fuel ptr with
  | nil =>
    obtain ⟨fuel, rfl⟩ : ∃ k, fuel = k + 1 := ⟨fuel - 1, by simp at hfuel; omega⟩
    rw [linked_nil.mp h]
    exact ⟨ptr, rfl, fun m hm => absurd hm List.not_mem_nil, fun m _ => rfl⟩
  | cons n ms ih =>
    obtain ⟨fuel, rfl⟩ : ∃ k, fuel = k + 1 := ⟨fuel - 1, by simp at hfuel; omega⟩
    obtain ⟨rfl, hrest⟩ := h
    obtain ⟨hn, hms⟩ := List.nodup_cons.mp hnodup
    obtain ⟨ptr', hptr', hmoved, hkept⟩ : ∃ ptr',
        shiftFrom next size fuel (next n) (Function.update ptr n (ptr n - size)) = some ptr' ∧ _ :=
      ih hrest (by simpa using hfuel) hms
    refine ⟨ptr', hptr', ?_, ?_⟩
    · intro m hm
      rcases List.mem_cons.mp hm with rfl | hm
      · rw [hkept m hn, Function.update_self]
      · have hne : m ≠ n := fun heq => hn (heq ▸ hm)
        rw [hmoved m hm, Function.update_of_ne hne]
    · intro m hm
      rw [List.mem_cons, not_or] at hm
      rw [hkept m hm.2, Function.update_of_ne hm.1]

/-! ## The calls -/

section calls
variable [Fintype ι]

omit [DecidableEq ι] [Fintype ι] in
lemma laid_init (s : Mmem ι) : (s.mmemInit mmemSize).Laid mmemSize [] where
  holds := rfl
  size := fun _ hb => absurd hb List.not_mem_nil
  abuts := (Nat.sub_self mmemSize).symm
  avail := Nat.zero_add mmemSize

/-- A block is handed out behind the others, if there is room. -/
lemma alloc_spec (h : s.Laid mmemSize l) (hm : m ∉ l.map Prod.fst) (size : ℕ) :
    ∃ s', s.mmemAlloc mmemSize m size = some (if s.availMemory < size then 0 else 1, s') ∧
      s'.Laid mmemSize (blocksStep mmemSize l (.alloc m size)).2 ∧ ∀ m' ∈ l.map Prod.fst, s'.block m' = s.block m' := by
  have hroom : mmemSize - (l.map Prod.snd).sum = s.availMemory := by
    have havail := h.avail
    omega
  have hblocks : blocksStep mmemSize l (.alloc m size) =
      if s.availMemory < size then (some 0, l) else (some 1, l ++ [(m, size)]) := by
    rw [← hroom]
    rfl
  unfold mmemAlloc
  rw [hblocks]
  by_cases hfull : s.availMemory < size
  · rw [if_pos hfull, if_pos hfull, if_pos hfull]
    exact ⟨s, rfl, h, fun m' hm' => rfl⟩
  · rw [if_neg hfull, if_neg hfull, if_neg hfull]
    obtain ⟨list, hadd, hholds⟩ := LinkedList.listAdd_spec h.holds m
    rw [hadd]
    have hne : ∀ m' ∈ l.map Prod.fst, m' ≠ m := by
      rintro m' hm' rfl
      exact hm hm'
    refine ⟨_, rfl, ⟨?_, ?_, ?_, ?_⟩, ?_⟩
    · rw [listAdd_of_notMem hm] at hholds
      rw [List.map_append]
      exact hholds
    · intro b hb
      rcases List.mem_append.mp hb with hb | hb
      · exact (Function.update_of_ne (hne b.1 (List.mem_map_of_mem hb)) _ _).trans (h.size b hb)
      · obtain rfl := List.mem_singleton.mp hb
        exact Function.update_self m size s.size
    · rw [List.map_append, abuts_append]
      refine ⟨mmemSize - s.availMemory, h.abuts.congr fun m' hm' => ?_, ?_, ?_⟩
      · exact ⟨Function.update_of_ne (hne m' hm') _ _, Function.update_of_ne (hne m' hm') _ _⟩
      · exact Function.update_self m _ s.ptr
      · show mmemSize - s.availMemory + Function.update s.size m size m = mmemSize - (s.availMemory - size)
        have havail := h.avail
        rw [Function.update_self]
        omega
    · have havail := h.avail
      rw [List.map_append, List.sum_append, List.map_singleton, List.sum_singleton]
      show (l.map Prod.snd).sum + size + (s.availMemory - size) = mmemSize
      omega
    · intro m' hm'
      apply block_congr
      · exact Function.update_of_ne (hne m' hm') _ _
      · intro k _
        show s.memory (Function.update s.ptr m _ m' + k) = _
        rw [Function.update_of_ne (hne m' hm')]

omit [DecidableEq ι] [Fintype ι] in
/-- A byte of one block is in no other. -/
lemma write_spec (h : s.Laid mmemSize l) {size k : ℕ} (hm : (m, size) ∈ l) (hk : k < size) (c : UInt8) :
    (s.write m k c).Laid mmemSize l ∧ ∀ m' ∈ l.map Prod.fst, m' ≠ m → (s.write m k c).block m' = s.block m' := by
  refine ⟨⟨h.holds, h.size, h.abuts, h.avail⟩, fun m' hm' hne => block_congr rfl fun j hj => ?_⟩
  have hapart : Apart s.ptr s.size m m' := h.abuts.apart (List.mem_map_of_mem hm) hm' (Ne.symm hne)
  have hsize : s.size m = size := h.size _ hm
  apply Function.update_of_ne
  unfold Apart at hapart
  show s.ptr m' + j ≠ s.ptr m + k
  omega

/-- The blocks behind one are moved down by its size. -/
lemma compact_spec {pre post : List ι} (hlist : s.mmemlist.Holds (pre ++ m :: post))
    (habuts : Abuts s.ptr s.size 0 (mmemSize - s.availMemory) (pre ++ m :: post)) :
    ∃ s', s.compact mmemSize m = some s' ∧ s'.mmemlist = s.mmemlist ∧ s'.size = s.size ∧
      s'.availMemory = s.availMemory ∧
      Abuts s'.ptr s'.size 0 (mmemSize - s.availMemory - s.size m) (pre ++ post) ∧
      ∀ m' ∈ pre ++ post, s'.block m' = s.block m' := by
  obtain ⟨a, hpre, rfl, hpost⟩ := abuts_append.mp habuts
  have hnodup := (List.nodup_cons.mp (List.nodup_middle.mp hlist.nodup)).2
  have hlength := hlist.length_lt
  have hnext : s.mmemlist.next m = post.head? := hlist.next_eq
  unfold compact
  cases post with
  | nil =>
    rw [hnext]
    have hend : s.ptr m + s.size m = mmemSize - s.availMemory := hpost
    refine ⟨s, rfl, rfl, rfl, rfl, ?_, fun m' _ => rfl⟩
    rw [List.append_nil, ← hend, Nat.add_sub_cancel]
    exact hpre
  | cons n post =>
    rw [hnext]
    obtain ⟨hn, hrest⟩ := hpost
    have htail : Linked s.mmemlist.next (some n) (n :: post) := by
      obtain ⟨r, -, -, htail⟩ := linked_append.mp hlist
      rwa [hnext] at htail
    simp only [List.length_append, List.length_cons] at hlength
    obtain ⟨ptr', hshift, hmoved, hkept⟩ : ∃ ptr',
        shiftFrom s.mmemlist.next (s.size m) (LinkedList.steps ι) (some n) s.ptr = some ptr' ∧ _ :=
      shiftFrom_eq htail (by rw [List.length_cons]; omega)
    have hfront : ∀ m' ∈ pre, m' ∉ n :: post := fun m' hm' hmem =>
      (List.nodup_append.mp hnodup).2.2 m' hm' m' hmem rfl
    have hbehind : Abuts s.ptr s.size (s.ptr m + s.size m) (mmemSize - s.availMemory) (n :: post) := ⟨hn, hrest⟩
    let memory := memmove s.memory (s.ptr m) (s.ptr n) (mmemSize - s.availMemory - s.ptr n)
    refine ⟨{ s with memory := memory, ptr := ptr' }, ?_, rfl, rfl, rfl, ?_, ?_⟩
    · show ((shiftFrom s.mmemlist.next (s.size m) (LinkedList.steps ι) (some n) s.ptr).bind fun ptr =>
        some { s with memory := memory, ptr := ptr }) = _
      rw [hshift]
      rfl
    · refine abuts_append.mpr ⟨s.ptr m, hpre.congr fun m' hm' => ⟨hkept m' (hfront m' hm'), rfl⟩, ?_⟩
      have hle := (hbehind.mem List.mem_cons_self).2
      have hstart : Abuts s.ptr s.size (s.ptr m + s.size m) (mmemSize - s.availMemory - s.size m + s.size m) (n :: post) := by
        rw [Nat.sub_add_cancel (by omega)]
        exact hbehind
      exact hstart.shift hmoved
    · intro m' hm'
      apply block_congr (s := s)
      · rfl
      intro k hk
      show memmove s.memory (s.ptr m) (s.ptr n) (mmemSize - s.availMemory - s.ptr n) (ptr' m' + k) = _
      unfold memmove
      rcases List.mem_append.mp hm' with hm' | hm'
      · have hend := (hpre.mem hm').2
        rw [hkept m' (hfront m' hm'), if_neg (by omega)]
      · obtain ⟨hlow, hhigh⟩ := hbehind.mem hm'
        rw [hmoved m' hm', if_pos (by omega)]
        congr 1
        omega

/-- A block is given back: the others keep their order and their bytes. -/
lemma free_spec (h : s.Laid mmemSize l) (hm : m ∈ l.map Prod.fst) :
    ∃ s', s.mmemFree mmemSize m = some s' ∧ s'.Laid mmemSize (l.filter fun b => b.1 ≠ m) ∧
      ∀ m' ∈ l.map Prod.fst, m' ≠ m → s'.block m' = s.block m' := by
  obtain ⟨b, hb, rfl⟩ := List.mem_map.mp hm
  obtain ⟨pre, post, rfl⟩ := List.append_of_mem hb
  have hholds := h.holds
  have habuts := h.abuts
  rw [List.map_append, List.map_cons] at hholds habuts
  have hnot := (List.nodup_cons.mp (List.nodup_middle.mp hholds.nodup)).1
  obtain ⟨s₁, hcompact, hlist, hsize, havail, hlaid, hbytes⟩ := compact_spec hholds habuts
  obtain ⟨list, hremove, hrest⟩ := LinkedList.listRemove_spec hholds b.1
  have hkeep : ∀ c ∈ pre ++ post, c.1 ≠ b.1 := by
    rintro c hc heq
    rw [← List.map_append] at hnot
    exact hnot (heq ▸ List.mem_map_of_mem hc)
  have hfilter : (pre ++ b :: post).filter (fun c => c.1 ≠ b.1) = pre ++ post := by
    rw [List.filter_append, List.filter_cons_of_neg (by simp), ← List.filter_append, List.filter_eq_self]
    intro c hc
    exact decide_eq_true (hkeep c hc)
  have herase : (pre.map Prod.fst ++ b.1 :: post.map Prod.fst).erase b.1 = (pre ++ post).map Prod.fst := by
    rw [List.erase_append_right _ fun hmem => hnot (List.mem_append_left _ hmem), List.erase_cons_head,
      List.map_append]
  have hb : s.size b.1 = b.2 := h.size b (by simp)
  unfold mmemFree
  rw [hcompact]
  show ∃ s', ((s₁.mmemlist.listRemove b.1).bind fun list =>
    some { s₁ with mmemlist := list, availMemory := s₁.availMemory + s₁.size b.1 }) = some s' ∧ _
  rw [hlist, hremove, hfilter]
  refine ⟨_, rfl, ⟨?_, ?_, ?_, ?_⟩, ?_⟩
  · rw [herase] at hrest
    exact hrest
  · intro c hc
    show s₁.size c.1 = c.2
    rw [hsize]
    apply h.size
    rcases List.mem_append.mp hc with hc | hc
    · exact List.mem_append_left _ hc
    · exact List.mem_append_right _ (List.mem_cons_of_mem _ hc)
  · show Abuts s₁.ptr s₁.size 0 (mmemSize - (s₁.availMemory + s₁.size b.1)) ((pre ++ post).map Prod.fst)
    rw [havail, hsize, List.map_append, Nat.sub_add_eq, ← hsize]
    rw [← hsize] at hlaid
    exact hlaid
  · show ((pre ++ post).map Prod.snd).sum + (s₁.availMemory + s₁.size b.1) = mmemSize
    have hsum := h.avail
    rw [havail, hsize, hb]
    simp only [List.map_append, List.map_cons, List.sum_append, List.sum_cons] at hsum ⊢
    omega
  · intro m' hm' hne
    have hm'' : m' ∈ pre.map Prod.fst ++ post.map Prod.fst := by
      rw [List.map_append, List.map_cons] at hm'
      simp only [List.mem_append, List.mem_cons] at hm' ⊢
      tauto
    exact hbytes m' hm''

/-- A call in order does what it does to the blocks, and leaves the bytes of the other blocks. -/
lemma step_spec (h : s.Laid mmemSize l) {call : MmemCall ι} (hcall : call.Valid l) :
    ∃ s', step mmemSize (some s) call = ((blocksStep mmemSize l call).1, some s') ∧
      s'.Laid mmemSize (blocksStep mmemSize l call).2 ∧
      ∀ m ∈ l.map Prod.fst, m ≠ call.handle → s'.block m = s.block m := by
  cases call with
  | alloc m size =>
    obtain ⟨s', halloc, hlaid, hbytes⟩ := alloc_spec h hcall size
    refine ⟨s', ?_, hlaid, fun m' hm' _ => hbytes m' hm'⟩
    have hroom : mmemSize - (l.map Prod.snd).sum = s.availMemory := by
      have havail := h.avail
      omega
    show (((s.mmemAlloc mmemSize m size).map Prod.fst), ((s.mmemAlloc mmemSize m size).map Prod.snd)) =
      ((if mmemSize - (l.map Prod.snd).sum < size then (some 0, l) else (some 1, l ++ [(m, size)])).1, some s')
    rw [halloc, hroom]
    by_cases hfull : s.availMemory < size
    · rw [if_pos hfull, if_pos hfull]
      rfl
    · rw [if_neg hfull, if_neg hfull]
      rfl
  | free m =>
    obtain ⟨s', hfree, hlaid, hbytes⟩ := free_spec h hcall
    refine ⟨s', ?_, hlaid, hbytes⟩
    simp only [step, Option.bind_some, hfree, Option.map_some]
    rfl
  | write m k c =>
    obtain ⟨size, hm, hk⟩ := hcall
    obtain ⟨hlaid, hbytes⟩ := write_spec h hm hk c
    exact ⟨s.write m k c, rfl, hlaid, hbytes⟩

/-- The memory is used as a row of blocks. -/
lemma simulates : Simulates (step mmemSize) (blocksStep mmemSize) (fun l call => call.Valid l)
    fun s l => ∃ s' : Mmem ι, s = some s' ∧ s'.Laid mmemSize l := by
  rintro _ l call ⟨s, rfl, h⟩ hcall
  obtain ⟨s', hstep, hlaid, -⟩ := step_spec h hcall
  rw [hstep]
  exact ⟨rfl, s', rfl, hlaid⟩

end calls
end Mmem

/-- **Managed memory.**  Whatever the memory and the handles hold at first, and whatever is asked for, given
back and written, the blocks lie side by side at the front, in the order of the list, and what is behind
them is available; a block is refused if there is less available than asked for, and then only; and no call
changes what is read through the handle of another block. -/
theorem mmem_calls [Fintype ι] (mmemSize : ℕ) (s : Mmem ι) (calls : List (MmemCall ι))
    (hcalls : InOrder (blocksStep mmemSize) (fun l call => call.Valid l) [] calls) :
    let r := runCalls (Mmem.step mmemSize) (some (s.mmemInit mmemSize)) calls
    let l := (runCalls (blocksStep mmemSize) [] calls).2
    r.1 = (runCalls (blocksStep mmemSize) [] calls).1 ∧ ∃ s', r.2 = some s' ∧ s'.Laid mmemSize l ∧ ∀ call : MmemCall ι, call.Valid l →
      ∃ answer s'', Mmem.step mmemSize (some s') call = (some answer, some s'') ∧
        (∀ m size, call = .alloc m size → (answer = 0 ↔ s'.availMemory < size)) ∧
        ∀ m ∈ l.map Prod.fst, m ≠ call.handle → s''.block m = s'.block m := by
  intro r l
  obtain ⟨hanswers, s', hr, hlaid⟩ := Mmem.simulates.run ⟨_, rfl, Mmem.laid_init s⟩ hcalls
  refine ⟨hanswers, s', hr, hlaid, fun call hcall => ?_⟩
  obtain ⟨s'', hstep, -, hbytes⟩ := Mmem.step_spec hlaid hcall
  cases call with
  | alloc m size =>
    obtain ⟨s₁, halloc, -, -⟩ := Mmem.alloc_spec hlaid hcall size
    have hanswer : (Mmem.step mmemSize (some s') (.alloc m size)).1 =
        some (if s'.availMemory < size then 0 else 1) := congrArg (Option.map Prod.fst) halloc
    have hstate : (Mmem.step mmemSize (some s') (.alloc m size)).2 = some s'' := by rw [hstep]
    refine ⟨_, s'', Prod.ext hanswer hstate, ?_, hbytes⟩
    rintro m size ⟨⟩
    by_cases hfull : s'.availMemory < size
    · simp [hfull]
    · simp [hfull]
  | free m => exact ⟨0, s'', hstep, nofun, hbytes⟩
  | write m k c => exact ⟨0, s'', hstep, nofun, hbytes⟩

/-- Of three blocks the first one is given back. -/
theorem mmem_calls_three :
    let s : Mmem (Fin 3) := ⟨⟨none, fun _ => none⟩, fun _ => 0, fun _ => 0, 0, fun _ => 0⟩
    let calls : List (MmemCall (Fin 3)) := [.alloc 0 2, .alloc 1 3, .alloc 2 1, .write 1 2 7, .free 0]
    let r := runCalls (Mmem.step 8) (some (s.mmemInit 8)) calls
    let l := (runCalls (blocksStep 8) [] calls).2
    r.1 = (runCalls (blocksStep 8) [] calls).1 ∧ ∃ s', r.2 = some s' ∧ s'.Laid 8 l ∧ ∀ call : MmemCall (Fin 3), call.Valid l →
      ∃ answer s'', Mmem.step 8 (some s') call = (some answer, some s'') ∧
        (∀ m size, call = .alloc m size → (answer = 0 ↔ s'.availMemory < size)) ∧
        ∀ m ∈ l.map Prod.fst, m ≠ call.handle → s''.block m = s'.block m := by
  refine mmem_calls 8 _ _ ⟨?_, ?_, ?_, ⟨3, ?_, ?_⟩, ?_, trivial⟩
  · show (0 : Fin 3) ∉ []
    decide
  · show (1 : Fin 3) ∉ [0]
    decide
  · show (2 : Fin 3) ∉ [0, 1]
    decide
  · show ((1 : Fin 3), 3) ∈ [(0, 2), (1, 3), (2, 1)]
    decide
  · decide
  · show (0 : Fin 3) ∈ [0, 1, 2]
    decide

end Contiki

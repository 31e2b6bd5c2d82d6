import Contiki.Lib.Memb

/-!
# The pools of queue buffers

`queuebuf.c` keeps packets in two pools, one for copies and one for packets that are references.

* `QueuebufPools.queuebufNew_spec`, `QueuebufPools.queuebufFree_count` — what taking and freeing a buffer does to
  the counters and the packets.
-/

namespace Contiki
namespace Rime
variable {P : Type} {n m : ℕ}

/-- A pointer to a queue buffer: to a block of `bufmem`, or to one of `refbufmem`. -/
inductive QueuebufPtr (n m : ℕ)
  | buf (i : Fin n)
  | ref (i : Fin m)
deriving DecidableEq

/-- `bufmem` and `refbufmem`, with the packet that is kept in each block. -/
structure QueuebufPools (P : Type) (n m : ℕ) where
  bufmem : Memb P n
  refbufmem : Memb P m

namespace QueuebufPools
variable (s : QueuebufPools P n m)

def queuebufInit (blank : P) : QueuebufPools P n m := ⟨Memb.fresh blank, Memb.fresh blank⟩

/-- `queuebuf_new_from_packetbuf`, with the packet in the packet buffer. -/
def queuebufNew (isReference : P → Bool) (p : P) : Option (QueuebufPtr n m × QueuebufPools P n m) :=
  if isReference p then
    s.refbufmem.alloc.map fun r => (.ref r.1, { s with refbufmem := r.2.write r.1 p })
  else s.bufmem.alloc.map fun r => (.buf r.1, { s with bufmem := r.2.write r.1 p })

def queuebufFree : QueuebufPtr n m → QueuebufPools P n m
  | .buf i => { s with bufmem := s.bufmem.free i }
  | .ref i => { s with refbufmem := s.refbufmem.free i }

/-- The counter of a buffer. -/
def count : QueuebufPtr n m → ℕ
  | .buf i => s.bufmem.count i
  | .ref i => s.refbufmem.count i

/-- The packet that `queuebuf_to_packetbuf` finds in a buffer. -/
def packet : QueuebufPtr n m → P
  | .buf i => s.bufmem.mem i
  | .ref i => s.refbufmem.mem i

variable {s} {s' : QueuebufPools P n m} {b : QueuebufPtr n m} {p : P} {isReference : P → Bool}

@[simp] lemma count_init (blank : P) (b : QueuebufPtr n m) : (queuebufInit blank).count b = 0 := by
  cases b <;> rfl

/-- A buffer that is taken was free, and holds the packet. -/
lemma queuebufNew_spec (h : s.queuebufNew isReference p = some (b, s')) :
    s.count b = 0 ∧ s'.count b = 1 ∧ s'.packet b = p ∧
      ∀ b' ≠ b, s'.count b' = s.count b' ∧ s'.packet b' = s.packet b' := by
  unfold queuebufNew at h
  by_cases href : isReference p = true
  · rw [if_pos href] at h
    obtain ⟨⟨i, mem⟩, halloc, heq⟩ := Option.map_eq_some_iff.mp h
    obtain ⟨rfl, rfl⟩ := Prod.mk.inj heq
    obtain ⟨hzero, hone, hpacket, hother⟩ := Memb.alloc_write halloc p
    refine ⟨hzero, hone, hpacket, fun b' hb' => ?_⟩
    cases b' with
    | buf j => exact ⟨rfl, rfl⟩
    | ref j => exact hother j fun heq => hb' (congrArg QueuebufPtr.ref heq)
  · rw [if_neg href] at h
    obtain ⟨⟨i, mem⟩, halloc, heq⟩ := Option.map_eq_some_iff.mp h
    obtain ⟨rfl, rfl⟩ := Prod.mk.inj heq
    obtain ⟨hzero, hone, hpacket, hother⟩ := Memb.alloc_write halloc p
    refine ⟨hzero, hone, hpacket, fun b' hb' => ?_⟩
    cases b' with
    | buf j => exact hother j fun heq => hb' (congrArg QueuebufPtr.buf heq)
    | ref j => exact ⟨rfl, rfl⟩

/-- Freeing a buffer leaves the others. -/
lemma queuebufFree_count (s : QueuebufPools P n m) (b b' : QueuebufPtr n m) :
    (s.queuebufFree b).count b' = if b' = b then s.count b - 1 else s.count b' := by
  cases b with
  | buf i =>
    cases b' with
    | buf j =>
      simp only [queuebufFree, count, Memb.free_count, Function.update_apply, QueuebufPtr.buf.injEq]
    | ref j => simp [queuebufFree, count]
  | ref i =>
    cases b' with
    | buf j => simp [queuebufFree, count]
    | ref j =>
      simp only [queuebufFree, count, Memb.free_count, Function.update_apply, QueuebufPtr.ref.injEq]

@[simp] lemma queuebufFree_packet (s : QueuebufPools P n m) (b : QueuebufPtr n m) :
    (s.queuebufFree b).packet = s.packet := by
  funext b'
  cases b <;> cases b' <;> simp [queuebufFree, packet]

end QueuebufPools
end Rime
end Contiki

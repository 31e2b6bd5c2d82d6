import Contiki.Lib.Machine
import Contiki.Lib.Ring
import Mathlib.Algebra.Group.Nat.Defs

/-!
# Ring buffers of bytes

`ringbuf.c` keeps two indices into an array whose size is a power of two.  The number of elements is their
difference under a mask, so that one place stays free.

* `Ringbuf.Sized.ringbufElements_eq` — the difference of the indices, as a number.
* `Ringbuf.put_spec`, `Ringbuf.get_spec` — what a call answers, and what it does to the elements.
* `ringbuf_fifo` — every sequence of calls, compared with a queue.
-/

namespace Contiki

structure Ringbuf where
  data : ℕ → UInt8
  mask : UInt8
  putPtr : UInt8
  getPtr : UInt8

namespace Ringbuf
variable (r : Ringbuf)

def ringbufInit (dataptr : ℕ → UInt8) (size : UInt8) : Ringbuf where
  data := dataptr
  mask := size - 1
  putPtr := 0
  getPtr := 0

/-- `ringbuf_elements`; the difference is an `int`, of which the mask leaves some of the low bits. -/
def ringbufElements : UInt8 := (r.putPtr - r.getPtr) &&& r.mask

def ringbufPut (c : UInt8) : ℤ × Ringbuf :=
  if (r.putPtr - r.getPtr) &&& r.mask = r.mask then (0, r)
  else
    (1, { r with
      data := Function.update r.data r.putPtr.toNat c
      putPtr := (r.putPtr + 1) &&& r.mask })

def ringbufGet : ℤ × Ringbuf :=
  if (r.putPtr - r.getPtr) &&& r.mask > 0 then
    ((r.data r.getPtr.toNat).toNat, { r with getPtr := (r.getPtr + 1) &&& r.mask })
  else (-1, r)

end Ringbuf

/-- The calls of a ring buffer. -/
inductive RingbufCall
  | put (c : UInt8)
  | get

/-- What a ring buffer answers. -/
def Ringbuf.step (r : Ringbuf) : RingbufCall → ℤ × Ringbuf
  | .put c => r.ringbufPut c
  | .get => r.ringbufGet

/-- An element is put at the end of a queue, unless the queue is full. -/
def fifoPut (capacity : ℕ) (l : List UInt8) (c : UInt8) : ℤ × List UInt8 :=
  if l.length = capacity then (0, l) else (1, l ++ [c])

/-- The oldest element is taken from the front of a queue. -/
def fifoGet : List UInt8 → ℤ × List UInt8
  | [] => (-1, [])
  | c :: l => (c.toNat, l)

/-- What a queue with a capacity answers. -/
def fifoStep (capacity : ℕ) (l : List UInt8) : RingbufCall → ℤ × List UInt8
  | .put c => fifoPut capacity l c
  | .get => fifoGet l

namespace Ringbuf
variable {k : ℕ} {r : Ringbuf}

/-- The mask belongs to an array with a size of `2 ^ k`, and the indices are within it. -/
structure Sized (k : ℕ) (r : Ringbuf) : Prop where
  short : k ≤ 7
  mask : r.mask.toNat = 2 ^ k - 1
  put : r.putPtr.toNat < 2 ^ k
  get : r.getPtr.toNat < 2 ^ k

/-- The elements of a ring buffer, the oldest one first. -/
def contents (k : ℕ) (r : Ringbuf) : List UInt8 :=
  ring (2 ^ k) r.data r.getPtr.toNat r.ringbufElements.toNat

namespace Sized

lemma dvd (h : r.Sized k) : 2 ^ k ∣ 256 := Nat.pow_dvd_pow 2 (show k ≤ 8 from h.short.trans (by decide))

lemma le (h : r.Sized k) : 2 ^ k ≤ 128 := Nat.pow_le_pow_right (by decide) h.short

/-- The mask takes a byte modulo the size. -/
lemma and_mask (h : r.Sized k) (x : UInt8) : (x &&& r.mask).toNat = x.toNat % 2 ^ k := by
  rw [UInt8.toNat_and, h.mask, Nat.and_two_pow_sub_one_eq_mod]

lemma next (h : r.Sized k) (i : UInt8) :
    ((i + 1) &&& r.mask).toNat = (i.toNat + 1) % 2 ^ k := by
  rw [h.and_mask, UInt8.toNat_add]
  exact Nat.mod_mod_of_dvd _ h.dvd

/-- The number of elements is what the one index is ahead of the other. -/
lemma ringbufElements_eq (h : r.Sized k) :
    r.ringbufElements.toNat = (r.putPtr.toNat + 2 ^ k - r.getPtr.toNat) % 2 ^ k := by
  have hput := h.put
  have hget := h.get
  have hle := h.le
  obtain ⟨m, hm⟩ := h.dvd
  unfold ringbufElements
  rw [h.and_mask, UInt8.toNat_sub]
  have hpos : 0 < m := Nat.pos_of_ne_zero fun hzero => by simp [hzero] at hm
  obtain ⟨m, rfl⟩ : ∃ j, m = j + 1 := ⟨m - 1, by omega⟩
  have hsum : 256 - r.getPtr.toNat + r.putPtr.toNat =
      r.putPtr.toNat + 2 ^ k - r.getPtr.toNat + 2 ^ k * m := by
    rw [Nat.mul_succ] at hm
    omega
  change (256 - r.getPtr.toNat + r.putPtr.toNat) % 256 % 2 ^ k = _
  rw [Nat.mod_mod_of_dvd _ ⟨m + 1, hm⟩, hsum, Nat.add_mul_mod_self_left]

lemma ringbufElements_lt (h : r.Sized k) : r.ringbufElements.toNat < 2 ^ k := by
  rw [h.ringbufElements_eq]
  exact Nat.mod_lt _ (Nat.two_pow_pos k)

/-- The one index is behind the last element. -/
lemma putPtr_eq (h : r.Sized k) : (r.getPtr.toNat + r.ringbufElements.toNat) % 2 ^ k = r.putPtr.toNat := by
  have hput := h.put
  have hget := h.get
  rw [h.ringbufElements_eq, Nat.add_mod_mod]
  have hsum : r.getPtr.toNat + (r.putPtr.toNat + 2 ^ k - r.getPtr.toNat) = r.putPtr.toNat + 2 ^ k := by
    omega
  rw [hsum, Nat.add_mod_right, Nat.mod_eq_of_lt hput]

/-- The number of elements is how far the one index is behind the other. -/
lemma elements_of_putPtr (h : r.Sized k) {n : ℕ} (hn : n < 2 ^ k)
    (hput : (r.getPtr.toNat + n) % 2 ^ k = r.putPtr.toNat) : r.ringbufElements.toNat = n := by
  have hget := h.get
  rw [h.ringbufElements_eq, ← hput]
  by_cases hwrap : r.getPtr.toNat + n < 2 ^ k
  · have hsum : r.getPtr.toNat + n + 2 ^ k - r.getPtr.toNat = n + 2 ^ k := by omega
    rw [Nat.mod_eq_of_lt hwrap, hsum, Nat.add_mod_right, Nat.mod_eq_of_lt hn]
  · have hsum : r.getPtr.toNat + n - 2 ^ k + 2 ^ k - r.getPtr.toNat = n := by omega
    have hmod : (r.getPtr.toNat + n) % 2 ^ k = r.getPtr.toNat + n - 2 ^ k := by
      rw [Nat.mod_eq_sub_mod (Nat.not_lt.mp hwrap)]
      exact Nat.mod_eq_of_lt (by omega)
    rw [hmod, hsum, Nat.mod_eq_of_lt hn]

end Sized

lemma length_contents : (r.contents k).length = r.ringbufElements.toNat := length_ring

/-- The buffer is full when all places but one are taken. -/
lemma Sized.full_iff (h : r.Sized k) :
    (r.putPtr - r.getPtr) &&& r.mask = r.mask ↔ (r.contents k).length = 2 ^ k - 1 := by
  rw [length_contents, ← h.mask]
  exact UInt8.toNat_inj.symm

/-- What `ringbuf_put` answers, and what it does to the elements. -/
lemma put_spec (h : r.Sized k) (c : UInt8) :
    (r.ringbufPut c).1 = (fifoPut (2 ^ k - 1) (r.contents k) c).1 ∧ (r.ringbufPut c).2.Sized k ∧
      (r.ringbufPut c).2.contents k = (fifoPut (2 ^ k - 1) (r.contents k) c).2 := by
  have hlt := h.ringbufElements_lt
  unfold ringbufPut fifoPut
  by_cases hfull : (r.putPtr - r.getPtr) &&& r.mask = r.mask
  · rw [if_pos hfull, if_pos (h.full_iff.mp hfull)]
    exact ⟨rfl, h, rfl⟩
  · have hroom := mt h.full_iff.mpr hfull
    rw [length_contents] at hroom
    rw [if_neg hfull, if_neg (mt h.full_iff.mpr hfull)]
    let r' : Ringbuf := { r with
      data := Function.update r.data r.putPtr.toNat c
      putPtr := (r.putPtr + 1) &&& r.mask }
    have hput : r'.putPtr.toNat = (r.putPtr.toNat + 1) % 2 ^ k := h.next r.putPtr
    have hsized : r'.Sized k :=
      ⟨h.short, h.mask, hput ▸ Nat.mod_lt _ (Nat.two_pow_pos k), h.get⟩
    have helements : r'.ringbufElements.toNat = r.ringbufElements.toNat + 1 := by
      apply hsized.elements_of_putPtr (by omega)
      show (r.getPtr.toNat + (r.ringbufElements.toNat + 1)) % 2 ^ k = _
      rw [hput, ← Nat.add_assoc, ← Nat.mod_add_mod, h.putPtr_eq]
    refine ⟨rfl, hsized, ?_⟩
    show ring (2 ^ k) (Function.update r.data r.putPtr.toNat c) r.getPtr.toNat r'.ringbufElements.toNat = _
    rw [helements, ← h.putPtr_eq]
    exact ring_update hlt c

/-- What `ringbuf_get` answers, and what it does to the elements. -/
lemma get_spec (h : r.Sized k) :
    r.ringbufGet.1 = (fifoGet (r.contents k)).1 ∧ r.ringbufGet.2.Sized k ∧
      r.ringbufGet.2.contents k = (fifoGet (r.contents k)).2 := by
  unfold ringbufGet
  by_cases hsome : (r.putPtr - r.getPtr) &&& r.mask > 0
  · rw [if_pos hsome]
    obtain ⟨n, hn⟩ : ∃ n, r.ringbufElements.toNat = n + 1 := by
      have hpos : 0 < r.ringbufElements.toNat := hsome
      exact ⟨r.ringbufElements.toNat - 1, by omega⟩
    have hcontents : r.contents k = r.data r.getPtr.toNat ::
        ring (2 ^ k) r.data ((r.getPtr.toNat + 1) % 2 ^ k) n := by
      unfold contents
      rw [hn]
      exact ring_succ h.get
    let r' : Ringbuf := { r with getPtr := (r.getPtr + 1) &&& r.mask }
    have hget : r'.getPtr.toNat = (r.getPtr.toNat + 1) % 2 ^ k := h.next r.getPtr
    have hsized : r'.Sized k :=
      ⟨h.short, h.mask, h.put, hget ▸ Nat.mod_lt _ (Nat.two_pow_pos k)⟩
    have hlt := h.ringbufElements_lt
    have helements : r'.ringbufElements.toNat = n := by
      apply hsized.elements_of_putPtr (by omega)
      show _ = r.putPtr.toNat
      rw [hget, Nat.mod_add_mod, ← h.putPtr_eq, hn, Nat.add_assoc, Nat.add_comm 1 n]
    rw [hcontents]
    refine ⟨rfl, hsized, ?_⟩
    show ring (2 ^ k) r.data r'.getPtr.toNat r'.ringbufElements.toNat = _
    rw [helements, hget]
    rfl
  · rw [if_neg hsome]
    have hzero : r.ringbufElements.toNat = 0 := Nat.eq_zero_of_not_pos hsome
    have hnil : r.contents k = [] := ring_eq_nil_iff.mpr hzero
    refine ⟨?_, h, ?_⟩
    · rw [hnil]
      rfl
    · show r.contents k = _
      rw [hnil]
      rfl

lemma sized_init (hk : k ≤ 7) (dataptr : ℕ → UInt8) : (ringbufInit dataptr (UInt8.ofNat (2 ^ k))).Sized k := by
  have hle : 2 ^ k ≤ 128 := Nat.pow_le_pow_right (by decide) hk
  have hpos : 0 < 2 ^ k := Nat.two_pow_pos k
  have hsize : (UInt8.ofNat (2 ^ k)).toNat = 2 ^ k := by
    rw [UInt8.toNat_ofNat']
    exact Nat.mod_eq_of_lt (by omega)
  have hone : (1 : UInt8) ≤ UInt8.ofNat (2 ^ k) := by
    rw [UInt8.le_iff_toNat_le, hsize]
    exact hpos
  refine ⟨hk, ?_, hpos, hpos⟩
  show (UInt8.ofNat (2 ^ k) - 1).toNat = _
  rw [UInt8.toNat_sub_of_le _ _ hone, hsize]
  rfl

/-- A ring buffer answers as the queue of its elements. -/
lemma simulates : Simulates step (fifoStep (2 ^ k - 1)) (fun _ _ => True)
    fun r l => r.Sized k ∧ r.contents k = l := by
  rintro r l e ⟨h, rfl⟩ -
  cases e with
  | put c => exact put_spec h c
  | get => exact get_spec h

end Ringbuf

/-- **A ring buffer is a queue.**  Whatever the array holds at first, the calls are answered as by an
empty queue with one place less than the array has, the elements are those of the queue, and
`ringbuf_elements` is their number. -/
theorem ringbuf_fifo {k : ℕ} (hk : k ≤ 7) (dataptr : ℕ → UInt8) (calls : List RingbufCall) :
    let r := runCalls Ringbuf.step (Ringbuf.ringbufInit dataptr (UInt8.ofNat (2 ^ k))) calls
    let q := runCalls (fifoStep (2 ^ k - 1)) [] calls
    r.1 = q.1 ∧ r.2.contents k = q.2 ∧ r.2.ringbufElements.toNat = q.2.length := by
  intro r q
  have hsized := Ringbuf.sized_init hk dataptr
  have hempty : (Ringbuf.ringbufInit dataptr (UInt8.ofNat (2 ^ k))).contents k = [] := by
    rw [Ringbuf.contents, ring_eq_nil_iff, hsized.ringbufElements_eq]
    show (0 + 2 ^ k - 0) % 2 ^ k = 0
    rw [Nat.zero_add, Nat.sub_zero, Nat.mod_self]
  obtain ⟨hanswers, -, hcontents⟩ := Ringbuf.simulates.run ⟨hsized, hempty⟩
    (inOrder_of_forall (fun _ _ => trivial) [] calls)
  exact ⟨hanswers, hcontents, Ringbuf.length_contents.symm.trans (congrArg List.length hcontents)⟩

/-- Three bytes in a ring buffer of four. -/
theorem ringbuf_fifo_four :
    let r := runCalls Ringbuf.step (Ringbuf.ringbufInit (fun _ => 0) 4) [.put 1, .put 2, .put 3, .put 4, .get]
    let q := runCalls (fifoStep 3) [] [.put 1, .put 2, .put 3, .put 4, .get]
    r.1 = q.1 ∧ r.2.contents 2 = q.2 ∧ r.2.ringbufElements.toNat = q.2.length :=
  ringbuf_fifo (k := 2) (by decide) (fun _ => 0) _

end Contiki

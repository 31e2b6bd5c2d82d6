import Mathlib.Algebra.Group.Nat.Defs
import Mathlib.Data.Int.Basic
import Mathlib.Data.List.Basic
import Mathlib.Tactic.Common

/-!
# Files in chunks

Bulk transfer protocols cut a file into chunks of 64 bytes.  The last chunk is the one that is
shorter, so a file whose length is a multiple of 64 ends with an empty chunk.  A receiver hands the
chunks to the application, which starts a new file with the first and writes the others behind it.  The offset of a
chunk is an `int`, of 16 bits on some platforms.

* `chunkOf`, `numChunks` — the chunks of a file.
* `chunkOffset`, `InRange` — the offset of a chunk as an `int`, and the chunks for which it is right.
* `readData` — `read_data`, the call of `read_chunk` for one chunk.
* `writeData` — `write_data`, the calls of `write_chunk` for one chunk.
* `chunkWrites` — the writes that a chunk of a file asks for.
* `HoldsChunks` — an application's file with the first chunks of a file.
* `WritesInOrder` — what is claimed of the writes on all nodes.
-/

namespace Contiki
namespace Rime

/-- `RUDOLPH1_DATASIZE` and `RUDOLPH2_DATASIZE`. -/
def datasize : ℕ := 64

/-- The flags that `write_chunk` is called with. -/
inductive WriteFlag
  | none
  | newfile
  | lastchunk
deriving DecidableEq

/-- A call of `write_chunk`. -/
structure Write where
  offset : ℤ
  flag : WriteFlag
  data : List UInt8
deriving DecidableEq

/-- The offset of a chunk, as an `int` of so many bits. -/
def chunkOffset (intBits chunk : ℕ) : ℤ := Int.bmod (chunk * datasize) (2 ^ intBits)

/-- What the application's `read_chunk` gives at an offset: nothing in front of its file. -/
def readChunk (file : List UInt8) (offset : ℤ) (maxsize : ℕ) : List UInt8 :=
  if offset < 0 then [] else (file.drop offset.toNat).take maxsize

/-- What the application's `write_chunk` leaves in its file: a new file is started or the data is written
at the offset, unless that is in front of the file. -/
def writeChunk (file : List UInt8) (w : Write) : List UInt8 :=
  match w.flag with
  | .newfile => w.data
  | _ =>
    if w.offset < 0 then file
    else file.take w.offset.toNat ++ w.data ++ file.drop (w.offset.toNat + w.data.length)

/-- `write_data`: the writes for a chunk that was received. -/
def writeData (intBits chunk : ℕ) (data : List UInt8) : List Write :=
  (if chunk = 0 then [⟨0, .newfile, []⟩] else []) ++
    [⟨chunkOffset intBits chunk, if data.length < datasize then .lastchunk else .none, data⟩]

/-- `read_data`: a chunk of the application's file. -/
def readData (intBits : ℕ) (file : List UInt8) (chunk : ℕ) : List UInt8 :=
  readChunk file (chunkOffset intBits chunk) datasize

/-- A chunk of a file. -/
def chunkOf (file : List UInt8) (chunk : ℕ) : List UInt8 := (file.drop (chunk * datasize)).take datasize

/-- The number of chunks, with the one that is shorter. -/
def numChunks (file : List UInt8) : ℕ := file.length / datasize + 1

/-- The writes that a chunk of the file asks for: the first starts a new file, and the one that brings the
end of the file says so. -/
def chunkWrites (file : List UInt8) (chunk : ℕ) : List Write :=
  (if chunk = 0 then [⟨0, .newfile, []⟩] else []) ++
    [⟨chunk * datasize, if chunk + 1 = numChunks file then .lastchunk else .none, chunkOf file chunk⟩]

/-- The writes for the first chunks of the file, in order and once each. -/
def writesUpTo (file : List UInt8) (k : ℕ) : List Write := (List.range k).flatMap (chunkWrites file)

/-- The application's file after some writes. -/
def written (file : List UInt8) (writes : List Write) : List UInt8 := writes.foldl writeChunk file

/-! ## Chunks of a file -/

variable {file held : List UInt8} {intBits i j k : ℕ}

/-- The chunk's offset is in the range of an `int`. -/
def InRange (intBits chunk : ℕ) : Prop := chunk * datasize < 2 ^ (intBits - 1)

instance : Decidable (InRange intBits i) := inferInstanceAs (Decidable (_ < _))

lemma InRange.mono (h : InRange intBits k) (hj : j ≤ k) : InRange intBits j :=
  Nat.lt_of_le_of_lt (Nat.mul_le_mul_right datasize hj) h

lemma chunkOffset_eq (h : InRange intBits i) : chunkOffset intBits i = (i * datasize : ℕ) := by
  have hhalf : 2 ^ (intBits - 1) ≤ (2 ^ intBits + 1) / 2 := by
    cases intBits with
    | zero => decide
    | succ b =>
        rw [Nat.add_sub_cancel, Nat.pow_succ]
        omega
  have hlt : i * datasize < (2 ^ intBits + 1) / 2 := Nat.lt_of_lt_of_le h hhalf
  unfold chunkOffset
  generalize 2 ^ intBits = m at hlt
  rw [← Int.natCast_mul]
  exact Int.bmod_eq_of_le (by omega) (by omega)

lemma readData_eq (h : InRange intBits i) : readData intBits file i = chunkOf file i := by
  unfold readData readChunk
  rw [chunkOffset_eq h, if_neg (Int.not_lt.mpr (Int.natCast_nonneg _)), Int.toNat_natCast]
  rfl

lemma length_chunkOf : (chunkOf file i).length = min datasize (file.length - i * datasize) := by
  unfold chunkOf
  rw [List.length_take, List.length_drop]

/-- The last chunk is the one that is shorter. -/
lemma length_chunkOf_lt (hi : i < numChunks file) :
    (chunkOf file i).length < datasize ↔ i + 1 = numChunks file := by
  rw [length_chunkOf]
  unfold numChunks datasize at *
  omega

lemma writeData_chunkOf (hrange : InRange intBits i) (hi : i < numChunks file) :
    writeData intBits i (chunkOf file i) = chunkWrites file i := by
  unfold writeData chunkWrites
  simp only [length_chunkOf_lt hi, chunkOffset_eq hrange]
  rfl

lemma writesUpTo_succ : writesUpTo file (k + 1) = writesUpTo file k ++ chunkWrites file k := by
  unfold writesUpTo
  rw [List.range_succ, List.flatMap_append, List.flatMap_singleton]

/-! ## The application's file -/

/-- The application's file holds the first chunks of the file, and nothing else. -/
def HoldsChunks (file : List UInt8) (k : ℕ) (held : List UInt8) : Prop :=
  k = 0 ∨ held = file.take (k * datasize)

/-- Chunks that are held are read as they are in the file. -/
lemma HoldsChunks.chunkOf (h : HoldsChunks file k held) (hj : j < k) :
    chunkOf held j = Rime.chunkOf file j := by
  rcases h with rfl | rfl
  · omega
  · have hle : datasize ≤ k * datasize - j * datasize := by
      unfold datasize
      omega
    unfold Rime.chunkOf
    rw [List.drop_take, List.take_take, Nat.min_eq_left hle]

/-- The next chunk is written behind those that are held. -/
lemma HoldsChunks.succ (h : HoldsChunks file k held) (hrange : InRange intBits k) :
    HoldsChunks file (k + 1) (written held (writeData intBits k (Rime.chunkOf file k))) := by
  refine .inr ?_
  have hsucc : file.take ((k + 1) * datasize) = file.take (k * datasize) ++ Rime.chunkOf file k := by
    rw [Nat.succ_mul, List.take_add]
    rfl
  have hwrite : ∀ flag, flag ≠ WriteFlag.newfile →
      writeChunk (file.take (k * datasize)) ⟨(k * datasize : ℕ), flag, Rime.chunkOf file k⟩ =
        file.take (k * datasize) ++ Rime.chunkOf file k := by
    intro flag hflag
    have hlength : (file.take (k * datasize)).length ≤ k * datasize := by
      rw [List.length_take]
      exact Nat.min_le_left _ _
    unfold writeChunk
    cases flag with
    | newfile => exact absurd rfl hflag
    | _ =>
        show ite _ _ (List.take (k * datasize) _ ++ _ ++ List.drop (k * datasize + _) _) = _
        rw [if_neg (Int.not_lt.mpr (Int.natCast_nonneg _)), List.take_of_length_le hlength, List.drop_eq_nil_of_le (Nat.le_add_right_of_le hlength),
          List.append_nil]
  have hflag : (if (Rime.chunkOf file k).length < datasize then WriteFlag.lastchunk else .none) ≠ .newfile := by
    split_ifs <;> nofun
  rw [hsucc]
  unfold writeData written
  rw [chunkOffset_eq hrange, List.foldl_append, List.foldl_cons, List.foldl_nil]
  rcases h with rfl | rfl
  · have hnew := hwrite _ hflag
    rw [Nat.zero_mul, List.take_zero] at hnew ⊢
    exact hnew
  · by_cases hzero : k = 0
    · subst hzero
      have hnew := hwrite _ hflag
      rw [Nat.zero_mul, List.take_zero] at hnew ⊢
      exact hnew
    · rw [if_neg hzero]
      exact hwrite _ hflag

/-! ## The writes on all nodes -/

/-- A write for a version of the file. -/
structure WriteReport (ι : Type) where
  node : ι
  version : ℕ
  write : Write

variable {ι : Type} [DecidableEq ι] {log : List (WriteReport ι)} {v w : ι} {V W : ℕ} {files : ℕ → List UInt8}

/-- The writes on a node for a version. -/
def writesOf (log : List (WriteReport ι)) (v : ι) (V : ℕ) : List Write :=
  (log.filter fun r => r.node = v ∧ r.version = V).map (·.write)

/-- The reports about the writes on a node. -/
def writeReports (v : ι) (V : ℕ) (writes : List Write) : List (WriteReport ι) :=
  writes.map fun write => ⟨v, V, write⟩

/-- What is claimed: for every version, each node's writes are those of the first chunks of the file, each
once. -/
def WritesInOrder (files : ℕ → List UInt8) (log : List (WriteReport ι)) : Prop :=
  ∀ v V, ∃ k ≤ numChunks (files V), writesOf log v V = writesUpTo (files V) k

lemma writesOf_self (writes : List Write) :
    writesOf (log ++ writeReports v V writes) v V = writesOf log v V ++ writes := by
  have hall : (writeReports v V writes).filter (fun r => r.node = v ∧ r.version = V) =
      writeReports v V writes := by
    refine List.filter_eq_self.mpr fun r hr => ?_
    obtain ⟨write, -, rfl⟩ := List.mem_map.mp hr
    exact decide_eq_true ⟨rfl, rfl⟩
  have hmap : (writeReports v V writes).map (·.write) = writes := by
    unfold writeReports
    rw [List.map_map]
    exact List.map_id _
  unfold writesOf
  rw [List.filter_append, List.map_append, hall, hmap]

/-- Writes elsewhere or for another version do not matter. -/
lemma writesOf_other (writes : List Write) (h : ¬(v = w ∧ V = W)) :
    writesOf (log ++ writeReports v V writes) w W = writesOf log w W := by
  have hnone : (writeReports v V writes).filter (fun r => r.node = w ∧ r.version = W) = [] := by
    refine List.filter_eq_nil_iff.mpr fun r hr => ?_
    obtain ⟨write, -, rfl⟩ := List.mem_map.mp hr
    exact fun heq => h (of_decide_eq_true heq)
  unfold writesOf
  rw [List.filter_append, hnone, List.append_nil]

end Rime
end Contiki

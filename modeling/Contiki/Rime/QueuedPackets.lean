import Contiki.Rime.Queuebuf

/-!
# Packets that come back from a queue

The packet buffer with packets that are only referred to, and the two kinds of queue buffers.  A copy keeps
the bytes of a packet with its attributes and addresses; of a reference there are kept the place where the
packet began, its length and its header.

* `RefPacketbuf.queuebufNew`, `Queued.toPacketbuf` — a packet is put into a queue buffer, and taken out.
* `RefPacketbuf.comesBack_iff` — which packets come back as they were.
-/

namespace Contiki
namespace Rime
variable {size : ℕ}

/-- `packetbuf`, with the place that `packetbufptr` points to when it is not in the buffer. -/
structure RefPacketbuf (size : ℕ) extends Packetbuf size where
  reference : Option ℕ

/-- A queue buffer from `bufmem` or from `refbufmem`. -/
inductive Queued (size : ℕ)
  | buf (b : Queuebuf size)
  | ref (r : QueuebufRef)

namespace RefPacketbuf
variable (mem : ℕ → UInt8) (p : RefPacketbuf size)

def copyfrom (l : List UInt8) : RefPacketbuf size := ⟨p.toPacketbuf.copyfrom l, none⟩

/-- `packetbuf_reference`. -/
def referTo (ptr len : ℕ) : RefPacketbuf size := ⟨{ p.clear with buflen := len }, some ptr⟩

/-- `packetbuf_hdralloc`, if there is room. -/
def hdralloc (n : ℕ) : Option (RefPacketbuf size) :=
  (p.toPacketbuf.hdralloc n).map fun q => ⟨q, p.reference⟩

/-- `packetbuf_hdrreduce`, if the packet is long enough. -/
def hdrreduce (n : ℕ) : Option (RefPacketbuf size) :=
  (p.toPacketbuf.hdrreduce n).map fun q => ⟨q, p.reference⟩

/-- The data of a packet, from `packetbufptr + bufptr` on. -/
def data : List UInt8 :=
  match p.reference with
  | none => p.toPacketbuf.data
  | some ptr => copyBytes mem (ptr + p.bufptr) p.buflen

/-- The header of a packet, and its data. -/
def bytes : List UInt8 := p.hdr ++ p.data mem

def copyto : List UInt8 := if p.hdrlen + p.buflen > packetbufSize then [] else p.bytes mem

/-- `queuebuf_new_from_packetbuf`; `room` says whether there is a free buffer in the pool. -/
def queuebufNew (room : Bool) : Option (Queued size) :=
  if room then
    match p.reference with
    | some ptr => some (.ref ⟨p.buflen, ptr, p.hdr⟩)
    | none => some (.buf ⟨p.copyto mem, p.attr, p.addr⟩)
  else none

end RefPacketbuf

/-- `queuebuf_to_packetbuf`.  Where the header cannot be allocated, it is written over the data. -/
def Queued.toPacketbuf (mem : ℕ → UInt8) (p : RefPacketbuf size) : Queued size → RefPacketbuf size
  | .buf b => ⟨b.toPacketbuf p.toPacketbuf, none⟩
  | .ref r =>
    let q := p.clear.copyfrom (copyBytes mem r.ref r.len)
    let q := (q.hdralloc r.hdr.length).getD q
    ⟨q.write q.hdrptr r.hdr, none⟩

namespace RefPacketbuf
variable {mem : ℕ → UInt8} {p : RefPacketbuf size}

/-- Whatever the packet buffer has in it then, a packet that was put into a queue buffer comes back with its
header and data and with its attributes and addresses. -/
def ComesBack (mem : ℕ → UInt8) (p : RefPacketbuf size) : Prop :=
  ∀ room b, p.queuebufNew mem room = some b → ∀ p' : RefPacketbuf size,
    (b.toPacketbuf mem p').bytes mem = p.bytes mem ∧ (b.toPacketbuf mem p').attr = p.attr ∧
      (b.toPacketbuf mem p').addr = p.addr

/-- A packet is not too large, and if it is a reference it has no attributes and no addresses, and nothing
was taken off its front, or its data are the same as at the front. -/
def Keepable (mem : ℕ → UInt8) (p : RefPacketbuf size) : Prop :=
  p.hdrlen + p.buflen ≤ packetbufSize ∧ ∀ ptr, p.reference = some ptr →
    (∀ type, p.attr type = 0) ∧ (∀ type, p.addr type = .null size) ∧
      copyBytes mem (ptr + p.bufptr) p.buflen = copyBytes mem ptr p.buflen

@[simp] lemma length_hdr (p : Packetbuf size) : p.hdr.length = p.hdrlen := length_copyBytes ..

lemma length_bytes (p : RefPacketbuf size) {mem : ℕ → UInt8} :
    (p.bytes mem).length = p.hdrlen + p.buflen := by
  unfold bytes data
  rw [List.length_append, length_hdr]
  cases p.reference with
  | none => exact congrArg _ (length_copyBytes ..)
  | some ptr => exact congrArg _ (length_copyBytes ..)

/-! ## Copies -/

/-- A packet that stands in the buffer comes back just if it is not too large; otherwise an empty packet is
kept in its place. -/
lemma comesBack_copy_iff (href : p.reference = none) :
    ComesBack mem p ↔ p.hdrlen + p.buflen ≤ packetbufSize := by
  have hnew : p.queuebufNew mem true = some (.buf ⟨p.copyto mem, p.attr, p.addr⟩) := by
    unfold queuebufNew
    rw [href]
    rfl
  constructor
  · intro h
    by_contra hlarge
    have hempty : p.copyto mem = [] := if_pos (not_le.mp hlarge)
    have hback := (h true _ hnew p).1
    rw [hempty] at hback
    have hlen := congrArg List.length hback
    rw [length_bytes p] at hlen
    change 0 = p.hdrlen + p.buflen at hlen
    omega
  · intro hfit room b hb p'
    cases room with
    | false => cases hb
    | true =>
      have hwhole : p.copyto mem = p.bytes mem := if_neg (not_lt.mpr hfit)
      rw [hnew, Option.some.injEq] at hb
      subst hb
      refine ⟨?_, rfl, rfl⟩
      have hlen : (p.copyto mem).length ≤ packetbufSize := by
        rw [hwhole, length_bytes]
        exact hfit
      have hdata : (p'.toPacketbuf.copyfrom (p.copyto mem)).data = p.copyto mem := Packetbuf.copyfrom_data hlen
      rw [← hwhole]
      exact hdata

/-! ## References -/

section
variable {r : QueuebufRef} {p' : RefPacketbuf size}

/-- The packet before the header is put in front of it again. -/
def unheaded (mem : ℕ → UInt8) (r : QueuebufRef) (p' : RefPacketbuf size) : Packetbuf size :=
  p'.clear.copyfrom (copyBytes mem r.ref r.len)

lemma unheaded_data (h : r.len ≤ packetbufSize) :
    (unheaded mem r p').data = copyBytes mem r.ref r.len :=
  Packetbuf.copyfrom_data (by rwa [length_copyBytes])

lemma unheaded_buflen : (unheaded mem r p').buflen = min packetbufSize r.len := by
  show ((copyBytes mem r.ref r.len).take packetbufSize).length = _
  rw [List.length_take, length_copyBytes]

lemma unheaded_totlen : (unheaded mem r p').totlen = min packetbufSize r.len := by
  have hbuflen : (unheaded mem r p').buflen = min packetbufSize r.len := unheaded_buflen
  rw [← hbuflen]
  exact Nat.zero_add _

/-- The packet with room for its header, if there is any. -/
def headed (mem : ℕ → UInt8) (r : QueuebufRef) (p' : RefPacketbuf size) : Packetbuf size :=
  ((unheaded mem r p').hdralloc r.hdr.length).getD (unheaded mem r p')

lemma toPacketbuf_ref : (Queued.ref r).toPacketbuf mem p' =
    ⟨(headed mem r p').write (headed mem r p').hdrptr r.hdr, none⟩ := rfl

/-- When header and data fit together, both come back. -/
lemma toPacketbuf_ref_bytes (hhdr : r.hdr.length ≤ packetbufHdrSize)
    (hfit : r.hdr.length + r.len ≤ packetbufSize) :
    ((Queued.ref r).toPacketbuf mem p').bytes mem = r.hdr ++ copyBytes mem r.ref r.len := by
  obtain ⟨q, hq⟩ : ∃ q, (unheaded mem r p').hdralloc r.hdr.length = some q := by
    refine ⟨_, if_pos ⟨hhdr, ?_⟩⟩
    rw [unheaded_totlen]
    omega
  have hptr : q.hdrptr + r.hdr.length = packetbufHdrSize := by
    obtain ⟨hle, rfl⟩ := Packetbuf.hdralloc_eq hq
    exact Nat.sub_add_cancel hhdr
  have hheaded : headed mem r p' = q := by
    unfold headed
    rw [hq, Option.getD_some]
  have hbytes : ({ q with mem := memcpy q.mem q.hdrptr r.hdr } : Packetbuf size).bytes =
      copyBytes (memcpy q.mem q.hdrptr r.hdr) q.hdrptr r.hdr.length ++ (unheaded mem r p').bytes :=
    Packetbuf.hdralloc_bytes hq fun k hk => by
      obtain ⟨-, hq'⟩ := Packetbuf.hdralloc_eq hq
      rw [memcpy_of_notMem (.inr _), hq']
      rw [hptr]
      exact hk
  rw [copyBytes_memcpy _ _ rfl] at hbytes
  have hplain : (unheaded mem r p').bytes = copyBytes mem r.ref r.len :=
    unheaded_data (le_trans (Nat.le_add_left ..) hfit)
  rw [hplain] at hbytes
  rw [toPacketbuf_ref, hheaded]
  exact hbytes

/-- When they do not, something is missing. -/
lemma toPacketbuf_ref_length (hlarge : packetbufSize < r.hdr.length + r.len) :
    (((Queued.ref r).toPacketbuf mem p').bytes mem).length < r.hdr.length + r.len := by
  rw [length_bytes]
  show (headed mem r p').hdrlen + (headed mem r p').buflen < _
  have hbuflen : (unheaded mem r p').buflen = min packetbufSize r.len := unheaded_buflen
  unfold headed
  cases hq : (unheaded mem r p').hdralloc r.hdr.length with
  | none =>
    have hhdrlen : (unheaded mem r p').hdrlen = 0 := rfl
    rw [Option.getD_none, hhdrlen, hbuflen]
    omega
  | some q =>
    have htot := Packetbuf.hdralloc_totlen hq
    obtain ⟨hle, rfl⟩ := Packetbuf.hdralloc_eq hq
    have hlen : (unheaded mem r p').bytes.length = min packetbufSize r.len := by
      have htotlen : (unheaded mem r p').totlen = min packetbufSize r.len := unheaded_totlen
      rw [← htotlen, Packetbuf.bytes, List.length_append, length_hdr]
      exact congrArg _ (length_copyBytes ..)
    have hhdrlen : packetbufHdrSize - (packetbufHdrSize - r.hdr.length) = r.hdr.length :=
      Nat.sub_sub_self hle
    show packetbufHdrSize - (packetbufHdrSize - r.hdr.length) + (unheaded mem r p').buflen < _
    rw [hhdrlen, hbuflen]
    omega

lemma headed_attr : (headed mem r p').attr = fun _ => 0 := by
  unfold headed
  cases hq : (unheaded mem r p').hdralloc r.hdr.length with
  | none => rfl
  | some q =>
    obtain ⟨-, rfl⟩ := Packetbuf.hdralloc_eq hq
    rfl

lemma headed_addr : (headed mem r p').addr = fun _ => .null size := by
  unfold headed
  cases hq : (unheaded mem r p').hdralloc r.hdr.length with
  | none => rfl
  | some q =>
    obtain ⟨-, rfl⟩ := Packetbuf.hdralloc_eq hq
    rfl

/-- A packet that is only referred to comes back just if it is not too large, has no attributes and no
addresses, and nothing was taken off its front. -/
lemma comesBack_ref_iff {ptr : ℕ} (href : p.reference = some ptr) :
    ComesBack mem p ↔ p.hdrlen + p.buflen ≤ packetbufSize ∧ (∀ type, p.attr type = 0) ∧
      (∀ type, p.addr type = .null size) ∧
      copyBytes mem (ptr + p.bufptr) p.buflen = copyBytes mem ptr p.buflen := by
  have hnew : p.queuebufNew mem true = some (.ref ⟨p.buflen, ptr, p.hdr⟩) := by
    unfold queuebufNew
    rw [href]
    rfl
  have hbytes : p.bytes mem = p.hdr ++ copyBytes mem (ptr + p.bufptr) p.buflen := by
    unfold bytes data
    rw [href]
  have hhdr : p.hdr.length ≤ packetbufHdrSize := by
    rw [length_hdr]
    exact Nat.sub_le ..
  have hattr : ∀ p' : RefPacketbuf size, ((Queued.ref ⟨p.buflen, ptr, p.hdr⟩).toPacketbuf mem p').attr =
      fun _ => 0 := fun _ => headed_attr
  have haddr : ∀ p' : RefPacketbuf size, ((Queued.ref ⟨p.buflen, ptr, p.hdr⟩).toPacketbuf mem p').addr =
      fun _ => .null size := fun _ => headed_addr
  constructor
  · intro h
    obtain ⟨hback, hattr', haddr'⟩ := h true _ hnew p
    have hfit : p.hdrlen + p.buflen ≤ packetbufSize := by
      by_contra hlarge
      have hless : (((Queued.ref ⟨p.buflen, ptr, p.hdr⟩).toPacketbuf mem p).bytes mem).length <
          p.hdr.length + p.buflen :=
        toPacketbuf_ref_length (by rw [length_hdr]; exact not_le.mp hlarge)
      rw [hback, length_bytes, length_hdr] at hless
      exact lt_irrefl _ hless
    rw [toPacketbuf_ref_bytes hhdr (by rw [length_hdr]; exact hfit), hbytes] at hback
    refine ⟨hfit, fun type => ?_, fun type => ?_, (List.append_cancel_left hback).symm⟩
    · rw [← hattr', hattr]
    · rw [← haddr', haddr]
  · rintro ⟨hfit, hnoattr, hnoaddr, hfront⟩ room b hb p'
    cases room with
    | false => cases hb
    | true =>
      rw [hnew, Option.some.injEq] at hb
      subst hb
      rw [toPacketbuf_ref_bytes hhdr (by rw [length_hdr]; exact hfit), hbytes, hfront, hattr, haddr]
      exact ⟨rfl, funext fun type => (hnoattr type).symm, funext fun type => (hnoaddr type).symm⟩

/-- Which packets come back from a queue buffer as they were put into it. -/
theorem comesBack_iff (mem : ℕ → UInt8) (p : RefPacketbuf size) : ComesBack mem p ↔ Keepable mem p := by
  unfold Keepable
  cases href : p.reference with
  | none => simp [comesBack_copy_iff href]
  | some ptr => simp [comesBack_ref_iff href]

/-- A reference from which the first byte was taken off comes back with that byte in front instead of the last
one; and a header that was allocated before the data got their length makes a packet that is kept as
an empty one. -/
theorem not_comesBack :
    (∃ p, (referTo ⟨.empty 2, none⟩ 0 2).hdrreduce 1 = some p ∧
      ¬ ComesBack (fun k => [1, 2].getD k 0) p) ∧
    ∃ p, hdralloc ⟨.empty 2, none⟩ 40 = some p ∧
      ¬ ComesBack (fun _ => 0) { p with buflen := 100 } := by
  refine ⟨⟨_, rfl, fun h => ?_⟩, ⟨_, rfl, fun h => ?_⟩⟩
  · have hfront := ((comesBack_ref_iff rfl).mp h).2.2.2
    exact absurd hfront (by decide)
  · have hfit := (comesBack_copy_iff rfl).mp h
    exact absurd hfit (by decide)

end

end RefPacketbuf
end Rime
end Contiki

import Contiki.Lib.Buffer
import Contiki.Net.Packetbuf

/-!
# The packet buffer of Rime

`packetbuf` as Rime and the framers see it: one array, in which headers are put in front of the data,
with all attributes and addresses.  A packet that is only referred to does not occur here.

* `Rime.Packetbuf.hdralloc`, `hdrreduce` — headers in front of a packet, and parts of it taken off.
* `Rime.Packetbuf.bytes` — the packet as it is sent.
-/

namespace Contiki

namespace Rime

/-- `rimeaddr_t`, with `RIMEADDR_SIZE` bytes. -/
structure Rimeaddr (size : ℕ) where
  u8 : List UInt8
  length_u8 : u8.length = size
deriving DecidableEq

def Rimeaddr.null (size : ℕ) : Rimeaddr size := ⟨List.replicate size 0, List.length_replicate⟩

@[ext] lemma Rimeaddr.ext {size : ℕ} {a b : Rimeaddr size} (h : a.u8 = b.u8) : a = b := by
  cases a
  cases b
  cases h
  rfl

/-- An address of two bytes. -/
def Rimeaddr.short (n : UInt8) : Rimeaddr 2 := ⟨[n, 0], rfl⟩

/-- The address that stands in memory. -/
def rimeaddrAt (size : ℕ) (addr : ℕ → UInt8) : Rimeaddr size :=
  ⟨copyBytes addr 0 size, length_copyBytes ..⟩

/-- The attributes of a packet. -/
inductive PacketbufAttr
  | channel | networkId | linkQuality | rssi | timestamp | radioTxpower | listenTime | transmitTime
  | maxMacTransmissions | macSeqno | macAck
  | reliable | packetId | packetType | rexmit | maxRexmit | numRexmit | pending
  | hops | ttl | epacketId | epacketType | ereliable
deriving DecidableEq

/-- The addresses of a packet. -/
inductive PacketbufAddr
  | sender | receiver | esender | ereceiver
deriving DecidableEq

def packetbufHdrSize : ℕ := 48

/-- `packetbuf`, with its pointers and attributes.  The header ends where the data area begins. -/
structure Packetbuf (size : ℕ) where
  mem : ℕ → UInt8
  hdrptr : ℕ
  hdrptr_le : hdrptr ≤ packetbufHdrSize
  bufptr : ℕ
  buflen : ℕ
  attr : PacketbufAttr → UInt16
  addr : PacketbufAddr → Rimeaddr size

namespace Packetbuf

/-- The packet buffer when the node starts. -/
def empty (size : ℕ) : Packetbuf size :=
  { mem := fun _ => 0, hdrptr := packetbufHdrSize, hdrptr_le := le_refl _, bufptr := 0, buflen := 0,
    attr := fun _ => 0, addr := fun _ => .null size }

variable {size : ℕ} (p : Packetbuf size)

def clear : Packetbuf size :=
  { p with
    buflen := 0
    bufptr := 0
    hdrptr := packetbufHdrSize
    hdrptr_le := le_refl _
    attr := fun _ => 0
    addr := fun _ => .null size }

def copyfrom (l : List UInt8) : Packetbuf size :=
  let l := l.take packetbufSize
  { p.clear with mem := memcpy p.mem packetbufHdrSize l, buflen := l.length }

/-- The place of `packetbuf_dataptr`. -/
def dataptr : ℕ := packetbufHdrSize + p.bufptr

def hdrlen : ℕ := packetbufHdrSize - p.hdrptr

def totlen : ℕ := p.hdrlen + p.buflen

/-- The header of the packet. -/
def hdr : List UInt8 := copyBytes p.mem p.hdrptr p.hdrlen

/-- The data of the packet. -/
def data : List UInt8 := copyBytes p.mem p.dataptr p.buflen

/-- The packet as it is sent, from `packetbuf_copyto`. -/
def bytes : List UInt8 := p.hdr ++ p.data

/-- `packetbuf_hdralloc`, if there is room. -/
def hdralloc (n : ℕ) : Option (Packetbuf size) :=
  if p.hdrptr ≥ n ∧ p.totlen + n ≤ packetbufSize then
    some { p with hdrptr := p.hdrptr - n, hdrptr_le := (Nat.sub_le ..).trans p.hdrptr_le }
  else none

/-- `packetbuf_hdrreduce`, if the packet is long enough. -/
def hdrreduce (n : ℕ) : Option (Packetbuf size) :=
  if p.buflen < n then none else some { p with bufptr := p.bufptr + n, buflen := p.buflen - n }

def setAttr (type : PacketbufAttr) (val : UInt16) : Packetbuf size :=
  { p with attr := Function.update p.attr type val }

def setAddr (type : PacketbufAddr) (addr : Rimeaddr size) : Packetbuf size :=
  { p with addr := Function.update p.addr type addr }

/-- Bytes are written to the buffer. -/
def write (pos : ℕ) (l : List UInt8) : Packetbuf size := { p with mem := memcpy p.mem pos l }

/-! ## What the functions leave -/

variable {p} {n : ℕ}

@[simp] lemma setAttr_data (type : PacketbufAttr) (val : UInt16) : (p.setAttr type val).data = p.data := rfl

@[simp] lemma setAttr_hdr (type : PacketbufAttr) (val : UInt16) : (p.setAttr type val).hdr = p.hdr := rfl

@[simp] lemma setAddr_data (type : PacketbufAddr) (a : Rimeaddr size) : (p.setAddr type a).data = p.data :=
  rfl

@[simp] lemma setAttr_addr (type : PacketbufAttr) (val : UInt16) : (p.setAttr type val).addr = p.addr := rfl

@[simp] lemma setAddr_attr (type : PacketbufAddr) (a : Rimeaddr size) : (p.setAddr type a).attr = p.attr :=
  rfl

@[simp] lemma setAddr_self (type : PacketbufAddr) (a : Rimeaddr size) : (p.setAddr type a).addr type = a :=
  Function.update_self ..

lemma setAddr_of_ne {type type' : PacketbufAddr} (a : Rimeaddr size) (h : type' ≠ type) :
    (p.setAddr type a).addr type' = p.addr type' := Function.update_of_ne h ..

@[simp] lemma setAttr_self (type : PacketbufAttr) (val : UInt16) : (p.setAttr type val).attr type = val :=
  Function.update_self ..

lemma setAttr_of_ne {type type' : PacketbufAttr} (val : UInt16) (h : type' ≠ type) :
    (p.setAttr type val).attr type' = p.attr type' := Function.update_of_ne h ..

/-- A packet that is received is what was sent. -/
lemma copyfrom_data {l : List UInt8} (h : l.length ≤ packetbufSize) : (p.copyfrom l).data = l := by
  have htake : l.take packetbufSize = l := List.take_of_length_le h
  show copyBytes (memcpy p.mem packetbufHdrSize (l.take packetbufSize)) packetbufHdrSize
    (l.take packetbufSize).length = l
  rw [htake]
  exact copyBytes_memcpy _ _ rfl

lemma hdrreduce_eq {q : Packetbuf size} (h : p.hdrreduce n = some q) :
    n ≤ p.buflen ∧ q = { p with bufptr := p.bufptr + n, buflen := p.buflen - n } := by
  unfold hdrreduce at h
  split_ifs at h with hlen
  cases h
  exact ⟨Nat.not_lt.mp hlen, rfl⟩

/-- The rest of a packet behind what was taken off. -/
lemma hdrreduce_data {q : Packetbuf size} (h : p.hdrreduce n = some q) : q.data = p.data.drop n := by
  obtain ⟨hle, rfl⟩ := hdrreduce_eq h
  obtain ⟨m, hm⟩ := Nat.exists_eq_add_of_le hle
  have hlen := length_copyBytes p.mem (packetbufHdrSize + p.bufptr) n
  show copyBytes p.mem (packetbufHdrSize + (p.bufptr + n)) (p.buflen - n) = p.data.drop n
  unfold data dataptr
  rw [hm, copyBytes_add, List.drop_append_of_le_length hlen.ge, List.drop_of_length_le hlen.le,
    List.nil_append, Nat.add_sub_cancel_left, Nat.add_assoc]

lemma hdrreduce_of_le (h : n ≤ p.buflen) : ∃ q, p.hdrreduce n = some q :=
  ⟨_, if_neg (Nat.not_lt.mpr h)⟩

lemma hdralloc_eq {q : Packetbuf size} (h : p.hdralloc n = some q) :
    n ≤ p.hdrptr ∧
      q = { p with hdrptr := p.hdrptr - n, hdrptr_le := (Nat.sub_le ..).trans p.hdrptr_le } := by
  unfold hdralloc at h
  split_ifs at h with hroom
  cases h
  exact ⟨hroom.1, rfl⟩

/-- A header that is allocated stands in front of the packet, when nothing else is written. -/
lemma hdralloc_bytes {q : Packetbuf size} {mem : ℕ → UInt8} (h : p.hdralloc n = some q)
    (hout : ∀ k, p.hdrptr ≤ k → mem k = p.mem k) :
    ({ q with mem := mem } : Packetbuf size).bytes = copyBytes mem q.hdrptr n ++ p.bytes := by
  have hptr := p.hdrptr_le
  obtain ⟨hn, rfl⟩ := hdralloc_eq h
  have hlen : packetbufHdrSize - (p.hdrptr - n) = n + p.hdrlen := by
    unfold hdrlen
    omega
  have hold : ∀ pos m, p.hdrptr ≤ pos → copyBytes mem pos m = copyBytes p.mem pos m :=
    fun pos m hpos => copyBytes_congr fun k _ => hout _ (by omega)
  show copyBytes mem (p.hdrptr - n) (packetbufHdrSize - (p.hdrptr - n)) ++
    copyBytes mem (packetbufHdrSize + p.bufptr) p.buflen = _
  rw [hlen, copyBytes_add, hold _ p.buflen (by omega), Nat.sub_add_cancel hn, hold _ p.hdrlen le_rfl,
    List.append_assoc]
  rfl

/-- After a header is allocated the packet is not longer than the buffer. -/
lemma hdralloc_totlen {q : Packetbuf size} (h : p.hdralloc n = some q) :
    n + p.bytes.length ≤ packetbufSize := by
  unfold hdralloc at h
  split_ifs at h with hroom
  rw [bytes, List.length_append, hdr, data, length_copyBytes, length_copyBytes]
  have htot := hroom.2
  unfold totlen at htot
  omega

end Packetbuf
end Rime
end Contiki

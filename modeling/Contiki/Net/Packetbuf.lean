import Contiki.Lib.Memb
import Contiki.Net.Ip
import Contiki.Sicslowpan.Hc06

/-!
# The packet buffer and queue buffers

`packetbuf` holds one packet: the header bytes that were allocated in front of it, its data, and its
attributes.  The data stand in the buffer itself or, for a reference, at an address outside of it.
A queue buffer keeps a packet: as a copy with its attributes, or as a reference with a copy of the
header only.

Of the attributes, those that the MAC layer reads are here.
-/

namespace Contiki

def packetbufSize : ℕ := 128

def rimeaddrNull : Lladdr := ⟨List.replicate 8 0, rfl⟩

/-- The attributes of a packet and the address of its receiver. -/
structure PacketAttrs where
  macSeqno : UInt16
  packetType : UInt16
  maxMacTransmissions : UInt16
  receiver : Lladdr
deriving DecidableEq

def PacketAttrs.clear : PacketAttrs := ⟨0, 0, 0, rimeaddrNull⟩

/-- The packet buffer: `area` is what stands behind the space for headers, and `reference` is
`packetbufptr` when it points elsewhere. -/
structure Packetbuf where
  hdr : List UInt8
  area : ℕ → UInt8
  reference : Option ℕ
  bufptr : ℕ
  buflen : ℕ
  attrs : PacketAttrs

namespace Packetbuf
variable (p : Packetbuf) (mem : ℕ → UInt8)

def clear : Packetbuf :=
  { p with hdr := [], reference := none, bufptr := 0, buflen := 0, attrs := .clear }

def copyfrom (l : List UInt8) : Packetbuf :=
  let p := p.clear
  let l := l.take packetbufSize
  { p with area := memcpy p.area 0 l, buflen := l.length }

/-- The data of the packet, from `packetbufptr + bufptr` on. -/
def data : List UInt8 :=
  match p.reference with
  | none => copyBytes p.area p.bufptr p.buflen
  | some ptr => copyBytes mem (ptr + p.bufptr) p.buflen

/-- The packet as it is sent: its headers and its data. -/
def bytes : List UInt8 := p.hdr ++ p.data mem

/-- `packetbuf_copyto`: a packet that is too large is left out. -/
def copyto : List UInt8 := if p.hdr.length + p.buflen > packetbufSize then [] else p.bytes mem

end Packetbuf

structure Queuebuf where
  data : List UInt8
  attrs : PacketAttrs

structure QueuebufRef where
  len : ℕ
  ref : ℕ
  hdr : List UInt8

namespace Packetbuf
variable (p : Packetbuf)

/-- `queuebuf_to_packetbuf`, for a copy. -/
def ofQueuebuf (b : Queuebuf) : Packetbuf := { p.copyfrom b.data with attrs := b.attrs }

/-- `queuebuf_to_packetbuf`, for a reference: the attributes are lost.  A header for which there is
no room is written over the data. -/
def ofQueuebufRef (mem : ℕ → UInt8) (r : QueuebufRef) : Packetbuf :=
  let p := p.clear.copyfrom (copyBytes mem r.ref r.len)
  if p.buflen + r.hdr.length ≤ packetbufSize then { p with hdr := r.hdr }
  else { p with area := memcpy p.area 0 r.hdr }

lemma ofQueuebuf_bytes (mem : ℕ → UInt8) {b : Queuebuf} (h : b.data.length ≤ packetbufSize) :
    (p.ofQueuebuf b).bytes mem = b.data := by
  have htake : b.data.take packetbufSize = b.data := List.take_of_length_le h
  have hdata := (holds_memcpy p.area 0 b.data).map_range
  show [] ++ copyBytes (memcpy p.area 0 (b.data.take packetbufSize)) 0
    (b.data.take packetbufSize).length = b.data
  rw [htake]
  exact hdata

end Packetbuf

end Contiki

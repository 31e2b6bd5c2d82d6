import Contiki.Rime.Packetbuf

/-!
# Packets that Rime keeps, and packets it sends

A queue buffer keeps the bytes of a packet with all its attributes and addresses.  Before a packet is
given to the layers below, the sender and the receiver are written into its addresses.
-/

namespace Contiki
namespace Rime
variable {size : ℕ}

def packetTypeData : UInt16 := 0

def packetTypeAck : UInt16 := 1

structure Queuebuf (size : ℕ) where
  data : List UInt8
  attr : PacketbufAttr → UInt16
  addr : PacketbufAddr → Rimeaddr size

/-- What `queuebuf_new_from_packetbuf` copies into the buffer it allocates. -/
def Packetbuf.toQueuebuf (p : Packetbuf size) : Queuebuf size := ⟨p.bytes, p.attr, p.addr⟩

def Queuebuf.toPacketbuf (b : Queuebuf size) (p : Packetbuf size) : Packetbuf size :=
  { p.copyfrom b.data with attr := b.attr, addr := b.addr }

/-- The packet that `broadcast_send` gives to `abc_send`, on the node `nodeAddr`. -/
def Packetbuf.broadcast (nodeAddr : Rimeaddr size) (p : Packetbuf size) : Packetbuf size :=
  p.setAddr .sender nodeAddr

/-- The packet that `unicast_send` gives to `abc_send`. -/
def Packetbuf.unicast (nodeAddr : Rimeaddr size) (p : Packetbuf size) (receiver : Rimeaddr size) :
    Packetbuf size :=
  (p.setAddr .receiver receiver).broadcast nodeAddr

@[simp] lemma Queuebuf.toPacketbuf_attr (b : Queuebuf size) (p : Packetbuf size) :
    (b.toPacketbuf p).attr = b.attr := rfl

end Rime
end Contiki

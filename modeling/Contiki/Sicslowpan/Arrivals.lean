import Contiki.Sicslowpan.Reassembly

/-!
# Frames that arrive

A frame, when it arrives and the state that it finds.  Whether `input` takes it for
the reassembly that is going on, and what it goes on with, does not depend on what the reassembly
buffer held before.
-/

namespace Contiki
namespace Sicslowpan

/-- What tells the fragments of a packet from those of others. -/
structure PacketId where
  sender : Lladdr
  tag : UInt16
  size : UInt16

/-- The packet that is being reassembled. -/
def Lowpan.packetId (s : Lowpan) : PacketId := ⟨s.fragSender, s.reassTag, s.sicslowpanLen⟩

/-- A frame that has arrived: when, and the state that it found. -/
structure Arrival where
  now : ℕ
  frame : Packetbuf
  found : Lowpan

namespace Arrival
variable (cfg : LowpanConfig) (a : Arrival)

/-- The state behind the check of the timer. -/
def current : Lowpan := cancelExpired a.now a.found

/-- The fragmentation header. -/
def hdr : FragInfo := readFragHdr a.frame a.current.processedIpLen

/-- The packet that a fragment belongs to. -/
def packetId : PacketId := ⟨a.frame.sender, a.hdr.fragTag, a.hdr.fragSize⟩

/-- The frame starts a reassembly. -/
def Starts : Prop := a.current.processedIpLen = 0 ∧ a.hdr.fragSize > 0

instance : Decidable a.Starts := inferInstanceAs (Decidable (_ ∧ _))

/-- The buffer behind the frame, had `b` been there before. -/
def bufferAfter (b : ℕ → UInt8) : ℕ → UInt8 :=
  (input cfg a.now a.frame { a.found with sicslowpanBuf := b }).1.sicslowpanBuf

/-- The frame writes the octet `k`: whatever was there is gone. -/
def Writes (k : ℕ) : Prop := ∀ b b', a.bufferAfter cfg b k = a.bufferAfter cfg b' k

end Arrival

/-! ## The parts of the compressed headers -/

section Buffer
variable {cfg : LowpanConfig} {a : Arrival} {unc : ℕ}

lemma uncompressNh_ptr (buffer : ℕ → UInt8) (iphc0 old old' : UInt8) (ptr : ℕ) :
    (uncompressNh buffer iphc0 old ptr).2 = (uncompressNh buffer iphc0 old' ptr).2 := by
  unfold uncompressNh
  split_ifs <;> rfl

lemma uncompressDst_ptr (contexts : List AddrContext) (buffer : ℕ → UInt8) (receiver : Lladdr)
    (iphc1 ctx : UInt8) (old old' : IpAddr) (ptr : ℕ) :
    (uncompressDst contexts buffer receiver iphc1 ctx old ptr).map Prod.snd =
      (uncompressDst contexts buffer receiver iphc1 ctx old' ptr).map Prod.snd := by
  simp only [uncompressDst]
  split_ifs <;> rfl

lemma uncompressUdp_ptr (buffer : ℕ → UInt8) (old old' : UdpHdr) (ptr : ℕ) :
    (uncompressUdp buffer old ptr).2 = (uncompressUdp buffer old' ptr).2 := by
  simp only [uncompressUdp]
  split_ifs <;> rfl

/-! ## The steps of `input` -/

lemma cancelExpired_buffer (now : ℕ) (s : Lowpan) (b : ℕ → UInt8) :
    cancelExpired now { s with sicslowpanBuf := b } =
      { cancelExpired now s with sicslowpanBuf := b } := by
  unfold cancelExpired
  split_ifs <;> rfl

lemma joinReassembly_buffer (now : ℕ) (p : Packetbuf) (f : FragInfo) (s : Lowpan)
    (b : ℕ → UInt8) : joinReassembly now p f { s with sicslowpanBuf := b } =
      (joinReassembly now p f s).map fun s => { s with sicslowpanBuf := b } := by
  unfold joinReassembly
  split_ifs <;> rfl

/-- What is copied stays in the buffer, whether or not the packet is handed up. -/
lemma copyPayload_buffer (p : Packetbuf) (f : FragInfo) (rimeHdrLen uncompHdrLen : ℕ) (s : Lowpan)
    (h : rimeHdrLen ≤ p.datalen) : (copyPayload p f rimeHdrLen uncompHdrLen s).1.sicslowpanBuf =
      memcpy s.sicslowpanBuf (uncompHdrLen + f.fragOffset.toNat <<< 3)
        (copyBytes p.data rimeHdrLen (p.datalen - rimeHdrLen)) := by
  unfold copyPayload countOctets
  rw [if_neg (Nat.not_lt.mpr h)]
  simp only
  split_ifs <;> rfl

namespace Arrival

/-- The same frame, had it found another buffer. -/
def withBuffer (a : Arrival) (b : ℕ → UInt8) : Arrival :=
  { a with found := { a.found with sicslowpanBuf := b } }

lemma input_eq : input cfg a.now a.frame a.found =
    match joinReassembly a.now a.frame a.hdr a.current with
    | none => (a.current, none)
    | some s =>
      match uncompressHdr cfg a.frame a.hdr s.sicslowpanBuf with
      | none => (s, none)
      | some (buffer, rimeHdrLen, uncompHdrLen) =>
        copyPayload a.frame a.hdr rimeHdrLen uncompHdrLen { s with sicslowpanBuf := buffer } := rfl

lemma input_taken {s : Lowpan} {buffer : ℕ → UInt8} {rimeHdrLen : ℕ}
    (hjoin : joinReassembly a.now a.frame a.hdr a.current = some s)
    (hhdr : uncompressHdr cfg a.frame a.hdr s.sicslowpanBuf = some (buffer, rimeHdrLen, unc)) :
    input cfg a.now a.frame a.found =
      copyPayload a.frame a.hdr rimeHdrLen unc { s with sicslowpanBuf := buffer } := by
  rw [input_eq, hjoin]
  simp only
  rw [hhdr]

/-- A first fragment, or a following one. -/
lemma hdr_cases (h : 0 < a.hdr.fragSize) : a.hdr.fragSize.toNat < 2 ^ 11 ∧
    (a.hdr.firstFragment = true ∧ a.hdr.lastFragment = false ∨
      a.hdr.firstFragment = false ∧ a.hdr.rimeHdrLen = fragnHdrLen ∧ a.hdr.lastFragment =
        decide (a.current.processedIpLen.toNat + a.frame.datalen ≥
          a.hdr.fragSize.toNat + fragnHdrLen)) := by
  have hsize : (wordAt a.frame.data 0 &&& 0x07ff).toNat < 2 ^ 11 := by
    rw [UInt16.toNat_and]
    exact Nat.and_lt_two_pow _ (by decide)
  unfold hdr at h ⊢
  simp only [readFragHdr] at h ⊢
  split_ifs at h ⊢
  · exact ⟨hsize, .inl ⟨rfl, rfl⟩⟩
  · exact ⟨hsize, .inr ⟨rfl, rfl, rfl⟩⟩
  · exact absurd h (by decide)

/-- A fragment that joins belongs to the reassembly that is going on, or it starts one. -/
lemma joinReassembly_eq_some {s : Lowpan} (hsize : 0 < a.hdr.fragSize)
    (h : joinReassembly a.now a.frame a.hdr a.current = some s) :
    s.packetId = a.packetId ∧ s.processedIpLen = a.current.processedIpLen := by
  unfold joinReassembly at h
  split_ifs at h with hprocessed hforeign
  · have hsame : ¬ (a.hdr.fragSize ≠ a.current.sicslowpanLen ∨
        a.current.reassTag ≠ a.hdr.fragTag ∨ a.current.fragSender ≠ a.frame.sender) :=
      fun hne => hforeign (.inl ⟨hsize, hne⟩)
    push Not at hsame
    obtain rfl := Option.some.inj h
    refine ⟨?_, rfl⟩
    rw [Lowpan.packetId, packetId, hsame.1, hsame.2.1, hsame.2.2]
  · obtain rfl := Option.some.inj h
    exact ⟨rfl, rfl⟩

lemma joinReassembly_going {s : Lowpan}
    (h : joinReassembly a.now a.frame a.hdr a.current = some s) :
    s.processedIpLen = a.current.processedIpLen ∧
      (0 < a.current.processedIpLen → s.packetId = a.current.packetId) := by
  unfold joinReassembly at h
  split_ifs at h with hprocessed
  · obtain rfl := Option.some.inj h
    exact ⟨rfl, fun _ => rfl⟩
  · obtain rfl := Option.some.inj h
    exact ⟨rfl, fun hgoing => absurd hgoing hprocessed⟩
  · obtain rfl := Option.some.inj h
    exact ⟨rfl, fun _ => rfl⟩

/-- A reassembly that has timed out is over. -/
lemma current_eq (a : Arrival) : a.current.processedIpLen = 0 ∨ a.current = a.found := by
  unfold Arrival.current cancelExpired
  split_ifs
  · exact .inl rfl
  · exact .inr rfl

end Arrival
end Buffer

end Sicslowpan
end Contiki

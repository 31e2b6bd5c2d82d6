import Contiki.Rime.Rudolph1

/-!
# The chunks of every version in order

Every node writes the chunks of a version in order, each once, and with the bytes of the source.  The source
sends a chunk too many when the file is shorter than a chunk, a node that has nothing of a version yet answers
with the file it had before, and numbers and offsets wrap.

* `Rudolph1Net.Regular` — the events for which this does not happen.
* `Rudolph1Net.Served` — what holds in between events.
* `Rudolph1Net.writesInOrder` — the result, for all runs of such events.
-/

namespace Contiki
namespace Rime

namespace Rudolph1Conn
variable {intBits : ℕ} {c c' : Rudolph1Conn} {version : UInt8} {chunk : UInt16} {bytes : List UInt8} {full : ℕ}
  {writes : List Write} {sent : List Rudolph1Packet}

/-- The number of a packet's version compares with the one of the node's version as the versions do. -/
def DataComparable (c : Rudolph1Conn) (version : UInt8) (full : ℕ) : Prop :=
  (LT c.version version ↔ c.full < full) ∧ (version = c.version ↔ full = c.full)

/-- The number of a request's version compares with the one of the node's version as the versions do. -/
def NackComparable (c : Rudolph1Conn) (version : UInt8) (full : ℕ) : Prop :=
  (LT version c.version ↔ full < c.full) ∧ (version = c.version ↔ full = c.full)

instance : Decidable (c.DataComparable version full) := inferInstanceAs (Decidable (_ ∧ _))

instance : Decidable (c.NackComparable version full) := inferInstanceAs (Decidable (_ ∧ _))

/-! ## What a node does with a packet -/

lemma eq_nack_of_mem (d : Rudolph1Conn) :
    ∀ p ∈ [d.sendNack], ∃ version chunk full, p = .nack version chunk full :=
  fun _ hp => ⟨_, _, _, List.mem_singleton.mp hp⟩

/-- A chunk of the node's version is ignored, or it is the next one.  Only requests are sent. -/
lemma handleChunk_cases (h : c.handleChunk intBits chunk bytes = (c', writes, sent)) :
    (∀ p ∈ sent, ∃ version chunk full, p = .nack version chunk full) ∧ c'.full = c.full ∧
      (c'.chunk = c.chunk ∧ c'.file = c.file ∧ c'.t = c.t ∧ writes = [] ∨
        chunk = c.chunk ∧ c'.chunk = c.chunk + 1 ∧
          c'.file = written c.file (writeData intBits chunk.toNat bytes) ∧ writes = writeData intBits chunk.toNat bytes) := by
  unfold handleChunk at h
  by_cases hchunk : chunk = c.chunk
  · rw [if_pos hchunk] at h
    cases h
    exact ⟨nofun, rfl, .inr ⟨hchunk, rfl, rfl, rfl⟩⟩
  rw [if_neg hchunk] at h
  by_cases hlt : c.chunk < chunk
  · rw [if_pos hlt] at h
    cases h
    exact ⟨eq_nack_of_mem c, rfl, .inl ⟨rfl, rfl, rfl, rfl⟩⟩
  · rw [if_neg hlt] at h
    cases h
    exact ⟨nofun, rfl, .inl ⟨rfl, rfl, rfl, rfl⟩⟩

/-- A packet is ignored, brings the next chunk, or announces a new version, of which it may bring the first
chunk.  Only requests are sent. -/
lemma handleData_cases (h : c.handleData intBits version chunk bytes full = (c', writes, sent))
    (hcomparable : c.DataComparable version full) :
    (∀ p ∈ sent, ∃ version chunk full, p = .nack version chunk full) ∧
      (c'.full = c.full ∧ c'.chunk = c.chunk ∧ c'.file = c.file ∧ c'.t = c.t ∧ writes = [] ∨
        full = c.full ∧ chunk = c.chunk ∧ c'.full = c.full ∧ c'.chunk = c.chunk + 1 ∧
          c'.file = written c.file (writeData intBits chunk.toNat bytes) ∧ writes = writeData intBits chunk.toNat bytes ∨
        c.full < full ∧ c'.full = full ∧ c'.chunk = 0 ∧ c'.file = c.file ∧ writes = [] ∨
        c.full < full ∧ chunk = 0 ∧ c'.full = full ∧ c'.chunk = 1 ∧
          c'.file = written c.file (writeData intBits 0 bytes) ∧ writes = writeData intBits 0 bytes) := by
  unfold handleData at h
  by_cases hlt : LT c.version version
  · rw [if_pos hlt] at h
    by_cases hchunk : chunk = 0
    · rw [if_neg (not_not.mpr hchunk)] at h
      cases h
      exact ⟨nofun, .inr (.inr (.inr ⟨hcomparable.1.mp hlt, hchunk, rfl, rfl, rfl, rfl⟩))⟩
    · rw [if_pos hchunk] at h
      cases h
      exact ⟨eq_nack_of_mem _, .inr (.inr (.inl ⟨hcomparable.1.mp hlt, rfl, rfl, rfl, rfl⟩))⟩
  rw [if_neg hlt] at h
  by_cases hversion : version = c.version
  · have hfull := hcomparable.2.mp hversion
    obtain ⟨d, writes', sent', hd⟩ : ∃ d w p, c.handleChunk intBits chunk bytes = (d, w, p) := ⟨_, _, _, rfl⟩
    obtain ⟨hsent, hdfull, hd'⟩ := handleChunk_cases hd
    have hresult : c' = d ∧ writes = writes' ∧
        ∀ p ∈ sent, ∃ version chunk full, p = .nack version chunk full := by
      rw [if_pos hversion, hd] at h
      by_cases hheard : chunk < d.highestChunkHeard
      · simp only [if_pos hheard] at h
        cases h
        exact ⟨rfl, rfl, fun p hp => (List.mem_append.mp hp).elim (hsent p) (eq_nack_of_mem _ p)⟩
      · simp only [if_neg hheard] at h
        cases h
        exact ⟨rfl, rfl, hsent⟩
    obtain ⟨rfl, rfl, hnacks⟩ := hresult
    refine ⟨hnacks, ?_⟩
    rcases hd' with hsame | ⟨hchunk, hnext⟩
    · exact .inl ⟨hdfull, hsame⟩
    · exact .inr (.inl ⟨hfull, hchunk, hdfull, hnext⟩)
  · rw [if_neg hversion] at h
    cases h
    exact ⟨nofun, .inl ⟨rfl, rfl, rfl, rfl, rfl⟩⟩

end Rudolph1Conn

namespace Rudolph1Net
variable {ι : Type} [DecidableEq ι] {intBits : ℕ} {source : ι} {s s' : Rudolph1Net ι}

/-- A packet finds a node whose version compares, and a request for an older version finds one that has
something of its own. -/
def RegularPacket (c : Rudolph1Conn) : Rudolph1Packet → Prop
  | .data version _ _ full => c.DataComparable version full
  | .nack version _ full => c.NackComparable version full ∧ (full < c.full → c.chunk ≠ 0)

instance (c : Rudolph1Conn) : DecidablePred (RegularPacket c)
  | .data _ _ _ _ => inferInstanceAs (Decidable (c.DataComparable _ _))
  | .nack _ _ _ => inferInstanceAs (Decidable (_ ∧ _))

/-- The chunks of a file can be told apart by 16 bits, and have offsets in the range of an `int`. -/
def Addressable (intBits : ℕ) (file : List UInt8) : Prop :=
  numChunks file < 65536 ∧ InRange intBits (file.length / datasize)

instance (file : List UInt8) : Decidable (Addressable intBits file) := inferInstanceAs (Decidable (_ ∧ _))

/-- A chunk of the file is in range. -/
lemma Addressable.inRange {file : List UInt8} {i : ℕ} (h : Addressable intBits file) (hi : i < numChunks file) :
    InRange intBits i := h.2.mono (Nat.le_of_lt_succ hi)

/-- Files have chunks that can be addressed; when the timer sends, the file is not shorter than a chunk; packets
find nodes whose versions compare, and requests for older versions do not find nodes that have nothing of
their own version. -/
def Regular (intBits : ℕ) (source : ι) (s : Rudolph1Net ι) : Rudolph1Event ι → Prop
  | .rudolph1Send file => Addressable intBits file
  | .sendNextPacket => (s.node source).nacks = 0 → datasize ≤ (s.node source).file.length
  | .recvTrickle v i => ∀ p ∈ s.trickle[i]?, RegularPacket (s.node v) p
  | .recvIpolite v i => ∀ p ∈ s.ipolite[i]?, RegularPacket (s.node v) p

instance : ∀ e, Decidable (Regular intBits source s e)
  | .rudolph1Send _ => inferInstanceAs (Decidable (Addressable _ _))
  | .sendNextPacket => inferInstanceAs (Decidable (_ → _))
  | .recvTrickle _ _ => inferInstanceAs (Decidable (∀ p ∈ _, RegularPacket _ p))
  | .recvIpolite _ _ => inferInstanceAs (Decidable (∀ p ∈ _, RegularPacket _ p))

/-! ## What holds in between events -/

/-- The chunks of a version that the source has sent. -/
def Sent (files : ℕ → List UInt8) (src : Rudolph1Conn) (full chunk : ℕ) : Prop :=
  full ≤ src.full ∧ chunk ≤ numChunks (files full) ∧ (full = src.full → chunk ≤ src.chunk.toNat)

/-- A packet with data carries a chunk that the source has sent. -/
def PacketOk (files : ℕ → List UInt8) (src : Rudolph1Conn) : Rudolph1Packet → Prop
  | .data _ chunk bytes full => Sent files src full (chunk.toNat + 1) ∧ bytes = chunkOf (files full) chunk.toNat
  | .nack _ _ _ => True

/-- A receiver has written the chunks in front of its next one. -/
structure ReceiverOk (files : ℕ → List UInt8) (log : List (WriteReport ι)) (v : ι) (c : Rudolph1Conn) :
    Prop where
  file : HoldsChunks (files c.full) c.chunk.toNat c.file
  current : writesOf log v c.full = writesUpTo (files c.full) c.chunk.toNat
  later : ∀ V > c.full, writesOf log v V = []
  inOrder : ∀ V, ∃ k ≤ numChunks (files V), writesOf log v V = writesUpTo (files V) k

/-- The source sends the chunks of its file, and writes none. -/
structure SourceOk (files : ℕ → List UInt8) (log : List (WriteReport ι)) (source : ι) (c : Rudolph1Conn) :
    Prop where
  file : c.chunk = 0 ∨ c.file = files c.full
  timer : c.t = true → c.file = files c.full ∧
    (c.chunk.toNat < numChunks c.file ∨ c.file.length < datasize)
  writes : ∀ V, writesOf log source V = []

/-- What holds in between events. -/
structure Served (intBits : ℕ) (source : ι) (s : Rudolph1Net ι) : Prop where
  chunks : ∀ V, Addressable intBits (s.files V)
  trickle : ∀ p ∈ s.trickle, PacketOk s.files (s.node source) p
  ipolite : ∀ p ∈ s.ipolite, PacketOk s.files (s.node source) p
  sent : ∀ v, Sent s.files (s.node source) (s.node v).full (s.node v).chunk.toNat
  src : SourceOk s.files s.log source (s.node source)
  receiver : ∀ v ≠ source, ReceiverOk s.files s.log v (s.node v)

/-- What is read of the chunks in front of the next one is what the source's file of the version has. -/
lemma Served.chunkOf (h : Served intBits source s) (v : ι) {j : ℕ} (hj : j < (s.node v).chunk.toNat) :
    chunkOf (s.node v).file j = Rime.chunkOf (s.files (s.node v).full) j := by
  by_cases hv : v = source
  · subst hv
    rcases h.src.file with hzero | hfile
    · rw [hzero] at hj
      exact absurd hj (Nat.not_lt_zero j)
    · rw [hfile]
  · exact (h.receiver v hv).file.chunkOf hj

/-- A packet with a chunk in front of the next one. -/
lemma Served.formatData (h : Served intBits source s) (v : ι) {chunk : UInt16}
    (hchunk : chunk.toNat < (s.node v).chunk.toNat) :
    PacketOk s.files (s.node source) ((s.node v).formatData intBits chunk) := by
  obtain ⟨hfull, hle, hcurrent⟩ := h.sent v
  have hrange := (h.chunks _).inRange (Nat.lt_of_lt_of_le hchunk hle)
  exact ⟨⟨hfull, Nat.le_trans hchunk hle, fun heq => Nat.le_trans hchunk (hcurrent heq)⟩,
    (readData_eq hrange).trans (h.chunkOf v hchunk)⟩

/-! ## Receivers -/

variable {files files' : ℕ → List UInt8} {log : List (WriteReport ι)} {v w : ι} {c c' src src' : Rudolph1Conn}
  {chunk : UInt16} {bytes : List UInt8} {full : ℕ} {version : UInt8} {writes : List Write}
  {sent : List Rudolph1Packet}

/-- Only the version, the next chunk and the file matter. -/
lemma ReceiverOk.congr (h : ReceiverOk files log v c) (hfull : c'.full = c.full) (hchunk : c'.chunk = c.chunk)
    (hfile : c'.file = c.file) : ReceiverOk files log v c' := by
  refine ⟨?_, ?_, ?_, h.inOrder⟩
  · rw [hfull, hchunk, hfile]
    exact h.file
  · rw [hfull, hchunk]
    exact h.current
  · rw [hfull]
    exact h.later

/-- A newer version is announced. -/
lemma ReceiverOk.announced (h : ReceiverOk files log v c) (hlt : c.full < c'.full) (hchunk : c'.chunk = 0) :
    ReceiverOk files log v c' := by
  refine ⟨.inl ?_, ?_, fun V hV => h.later V (Nat.lt_trans hlt hV), h.inOrder⟩
  · rw [hchunk]
    rfl
  · rw [h.later _ hlt, hchunk]
    rfl

lemma toNat_succ {k n : ℕ} {a : UInt16} (ha : a.toNat = k) (hlt : k + 1 < n) (hn : n ≤ 65536) :
    (a + 1).toNat = k + 1 := by
  have hone : (1 : UInt16).toNat = 1 := rfl
  rw [UInt16.toNat_add, ha, hone]
  exact Nat.mod_eq_of_lt (Nat.lt_of_lt_of_le hlt hn)

/-- The next chunk is written. -/
lemma ReceiverOk.next (h : ReceiverOk files log v c) (hk : c.chunk.toNat < numChunks (files c.full))
    (hnum : Addressable intBits (files c.full)) (hbytes : bytes = Rime.chunkOf (files c.full) c.chunk.toNat)
    (hfull : c'.full = c.full) (hchunk : c'.chunk = c.chunk + 1)
    (hfile : c'.file = written c.file (writeData intBits c.chunk.toNat bytes)) :
    ReceiverOk files (log ++ writeReports v c'.full (writeData intBits c.chunk.toNat bytes)) v c' := by
  have hnext : c'.chunk.toNat = c.chunk.toNat + 1 := by
    rw [hchunk]
    exact toNat_succ rfl (Nat.lt_of_le_of_lt hk hnum.1) (Nat.le_refl _)
  have hrange := hnum.inRange hk
  have hwrites : writesOf (log ++ writeReports v c.full (writeData intBits c.chunk.toNat bytes)) v c.full =
      writesUpTo (files c.full) (c.chunk.toNat + 1) := by
    rw [writesOf_self, h.current, writesUpTo_succ, hbytes, writeData_chunkOf hrange hk]
  refine ⟨?_, ?_, fun V hV => ?_, fun V => ?_⟩
  · rw [hfull, hnext, hfile, hbytes]
    exact h.file.succ hrange
  · rw [hfull, hnext]
    exact hwrites
  · rw [hfull] at hV ⊢
    rw [writesOf_other _ fun heq => absurd heq.2 (Nat.ne_of_lt hV)]
    exact h.later V hV
  · rw [hfull]
    by_cases hV : c.full = V
    · subst hV
      exact ⟨_, hk, hwrites⟩
    · rw [writesOf_other _ fun heq => hV heq.2]
      exact h.inOrder V

/-- Writes on other nodes do not matter. -/
lemma ReceiverOk.other (h : ReceiverOk files log v c) (hne : w ≠ v) (V : ℕ) (writes : List Write) :
    ReceiverOk files (log ++ writeReports w V writes) v c := by
  have hsame : ∀ W, writesOf (log ++ writeReports w V writes) v W = writesOf log v W :=
    fun W => writesOf_other _ fun heq => hne heq.1
  refine ⟨h.file, ?_, fun W hW => ?_, fun W => ?_⟩
  · rw [hsame]
    exact h.current
  · rw [hsame]
    exact h.later W hW
  · rw [hsame]
    exact h.inOrder W

/-! ## Steps -/

/-- The source has sent more, of the same files. -/
lemma Sent.mono {k : ℕ} (h : Sent files src full k) (hfull : src.full ≤ src'.full)
    (hfiles : ∀ V ≤ src.full, files' V = files V)
    (hchunk : src'.full = src.full → src.chunk.toNat ≤ src'.chunk.toNat) : Sent files' src' full k := by
  obtain ⟨hle, hnum, hcurrent⟩ := h
  refine ⟨Nat.le_trans hle hfull, ?_, fun heq => ?_⟩
  · rw [hfiles full hle]
    exact hnum
  · have hsame : src'.full = src.full := Nat.le_antisymm (heq ▸ hle) hfull
    exact Nat.le_trans (hcurrent (heq.trans hsame)) (hchunk hsame)

lemma PacketOk.mono {p : Rudolph1Packet} (h : PacketOk files src p) (hfull : src.full ≤ src'.full)
    (hfiles : ∀ V ≤ src.full, files' V = files V)
    (hchunk : src'.full = src.full → src.chunk.toNat ≤ src'.chunk.toNat) : PacketOk files' src' p := by
  cases p with
  | nack _ _ _ => trivial
  | data version chunk bytes full =>
      obtain ⟨hsent, hbytes⟩ := h
      refine ⟨hsent.mono hfull hfiles hchunk, ?_⟩
      rw [hfiles full hsent.1]
      exact hbytes

/-- The files of versions that were not sent do not matter. -/
lemma ReceiverOk.mono (h : ReceiverOk files log v c) (hle : c.full ≤ src.full)
    (hfiles : ∀ V ≤ src.full, files' V = files V) : ReceiverOk files' log v c := by
  have hsame := hfiles c.full hle
  refine ⟨?_, ?_, h.later, fun V => ?_⟩
  · rw [hsame]
    exact h.file
  · rw [hsame]
    exact h.current
  · by_cases hV : V ≤ src.full
    · rw [hfiles V hV]
      exact h.inOrder V
    · exact ⟨0, Nat.zero_le _, h.later V (Nat.lt_of_le_of_lt hle (Nat.lt_of_not_le hV))⟩

/-- A receiver takes in a packet. -/
lemma Served.receive (h : Served intBits source s) (hv : v ≠ source)
    (hc : Sent s.files (s.node source) c.full c.chunk.toNat)
    (hreceiver : ReceiverOk s.files (s.log ++ writeReports v c.full writes) v c)
    (hsent : ∀ p ∈ sent, PacketOk s.files (s.node source) p) :
    Served intBits source (s.receive v (c, writes, sent)) := by
  have hsource : (s.receive v (c, writes, sent)).node source = s.node source :=
    Function.update_of_ne (Ne.symm hv) _ _
  refine ⟨h.chunks, ?_, ?_, fun w => ?_, ?_, fun w hw => ?_⟩
  · rw [hsource]
    exact h.trickle
  · rw [hsource]
    intro p hp
    exact (List.mem_append.mp hp).elim (h.ipolite p) (hsent p)
  · rw [hsource]
    show Sent _ _ (Function.update s.node v c w).full (Function.update s.node v c w).chunk.toNat
    by_cases hwv : w = v
    · rw [hwv, Function.update_self]
      exact hc
    · rw [Function.update_of_ne hwv]
      exact h.sent w
  · rw [hsource]
    refine ⟨h.src.file, h.src.timer, fun V => ?_⟩
    show writesOf (s.log ++ writeReports v c.full writes) source V = []
    rw [writesOf_other _ fun heq => hv heq.1]
    exact h.src.writes V
  · show ReceiverOk _ _ w (Function.update s.node v c w)
    by_cases hwv : w = v
    · rw [hwv, Function.update_self]
      exact hreceiver
    · rw [Function.update_of_ne hwv]
      exact (h.receiver w hw).other (Ne.symm hwv) c.full writes

/-- The source takes in a packet, which it ignores or answers. -/
lemma Served.receive_source (h : Served intBits source s) (hfull : c.full = (s.node source).full)
    (hchunk : c.chunk = (s.node source).chunk) (hfile : c.file = (s.node source).file)
    (ht : c.t = (s.node source).t) (hsent : ∀ p ∈ sent, PacketOk s.files (s.node source) p) :
    Served intBits source (s.receive source (c, [], sent)) := by
  have hsource : (s.receive source (c, [], sent)).node source = c := Function.update_self _ _ _
  have hother : ∀ w, w ≠ source → (s.receive source (c, [], sent)).node w = s.node w :=
    fun w hw => Function.update_of_ne hw _ _
  have hlog : (s.receive source (c, [], sent)).log = s.log := List.append_nil _
  have hmono : ∀ p, PacketOk s.files (s.node source) p → PacketOk s.files c p := fun p hp =>
    hp.mono (Nat.le_of_eq hfull.symm) (fun _ _ => rfl) fun _ => Nat.le_of_eq (hchunk ▸ rfl)
  have hsentMono : ∀ full k, Sent s.files (s.node source) full k → Sent s.files c full k := fun full k hk =>
    hk.mono (Nat.le_of_eq hfull.symm) (fun _ _ => rfl) fun _ => Nat.le_of_eq (hchunk ▸ rfl)
  refine ⟨h.chunks, ?_, ?_, fun w => ?_, ?_, fun w hw => ?_⟩
  · rw [hsource]
    exact fun p hp => hmono p (h.trickle p hp)
  · rw [hsource]
    intro p hp
    exact (List.mem_append.mp hp).elim (fun hp => hmono p (h.ipolite p hp)) fun hp => hmono p (hsent p hp)
  · rw [hsource]
    apply hsentMono
    by_cases hw : w = source
    · rw [hw, hsource, hfull, hchunk]
      exact h.sent source
    · rw [hother w hw]
      exact h.sent w
  · rw [hsource, hlog]
    refine ⟨?_, ?_, h.src.writes⟩
    · rw [hchunk, hfile, hfull]
      exact h.src.file
    · rw [hchunk, hfile, hfull, ht]
      exact h.src.timer
  · rw [hlog, hother w hw]
    exact h.receiver w hw

/-- A node takes in a packet and at most answers it. -/
lemma Served.quiet (h : Served intBits source s) (hfull : c.full = (s.node v).full)
    (hchunk : c.chunk = (s.node v).chunk) (hfile : c.file = (s.node v).file) (ht : c.t = (s.node v).t)
    (hsent : ∀ p ∈ sent, PacketOk s.files (s.node source) p) :
    Served intBits source (s.receive v (c, [], sent)) := by
  by_cases hv : v = source
  · subst hv
    exact h.receive_source hfull hchunk hfile ht hsent
  · refine h.receive hv ?_ ?_ hsent
    · rw [hfull, hchunk]
      exact h.sent v
    · show ReceiverOk _ (s.log ++ []) v c
      rw [List.append_nil]
      exact (h.receiver v hv).congr hfull hchunk hfile

/-- A packet with data reaches a node. -/
lemma Served.handleData (h : Served intBits source s) (hc : c.full = (s.node v).full)
    (hchunk : c.chunk = (s.node v).chunk) (hfile : c.file = (s.node v).file) (ht : c.t = (s.node v).t)
    (hp : PacketOk s.files (s.node source) (.data version chunk bytes full))
    (hcomparable : c.DataComparable version full) :
    Served intBits source (s.receive v (c.handleData intBits version chunk bytes full)) := by
  obtain ⟨c', writes, sent, heq⟩ : ∃ c' w p, c.handleData intBits version chunk bytes full = (c', w, p) :=
    ⟨_, _, _, rfl⟩
  obtain ⟨hnacks, hcases⟩ := Rudolph1Conn.handleData_cases heq hcomparable
  obtain ⟨hsent, hbytes⟩ := hp
  have hpackets : ∀ p ∈ sent, PacketOk s.files (s.node source) p := by
    intro p hp
    obtain ⟨_, _, _, rfl⟩ := hnacks p hp
    trivial
  rw [heq]
  rcases hcases with ⟨hfull', hchunk', hfile', ht', rfl⟩ | hnext
  · exact h.quiet (hfull'.trans hc) (hchunk'.trans hchunk) (hfile'.trans hfile) (ht'.trans ht) hpackets
  by_cases hv : v = source
  · -- what the source gets is older than what it sends
    exfalso
    subst hv
    rcases hnext with ⟨hfull', hchunk', -⟩ | ⟨hlt, -⟩ | ⟨hlt, -⟩
    · have hle := hsent.2.2 (hfull'.trans hc)
      rw [hchunk', hchunk] at hle
      omega
    · have hle := hsent.1
      omega
    · have hle := hsent.1
      omega
  have hreceiver := (h.receiver v hv).congr hc hchunk hfile
  rcases hnext with ⟨rfl, rfl, hfull', hchunk', hfile', rfl⟩ | ⟨hlt, hfull', hchunk', hfile', rfl⟩ |
    ⟨hlt, rfl, hfull', hchunk', hfile', rfl⟩
  · have hsucc : (c.chunk + 1).toNat = c.chunk.toNat + 1 :=
      toNat_succ rfl (Nat.lt_of_le_of_lt hsent.2.1 (h.chunks _).1) (Nat.le_refl _)
    refine h.receive hv ?_ (hreceiver.next hsent.2.1 (h.chunks _) hbytes hfull' hchunk' hfile') hpackets
    rw [hfull', hchunk', hsucc]
    exact hsent
  · refine h.receive hv ?_ ?_ hpackets
    · rw [hfull', hchunk']
      exact ⟨hsent.1, Nat.zero_le _, fun _ => Nat.zero_le _⟩
    · show ReceiverOk _ (s.log ++ []) v c'
      rw [List.append_nil]
      exact hreceiver.announced (hfull' ▸ hlt) hchunk'
  · -- a new version, and its first chunk as the next one
    have hnew : ReceiverOk s.files s.log v { c with full := full, chunk := 0 } :=
      hreceiver.announced hlt rfl
    refine h.receive hv ?_ (hnew.next hsent.2.1 (h.chunks _) hbytes hfull' hchunk' hfile') hpackets
    rw [hfull', hchunk']
    exact hsent

/-- A packet reaches a node through `ipolite`. -/
lemma Served.recvIpolite {p : Rudolph1Packet} (h : Served intBits source s) (hp : PacketOk s.files (s.node source) p)
    (hregular : RegularPacket (s.node v) p) : Served intBits source (s.receive v ((s.node v).recvIpolite intBits p)) := by
  cases p with
  | data version chunk bytes full => exact h.handleData rfl rfl rfl rfl hp hregular
  | nack version chunk full =>
      obtain ⟨hcomparable, hown⟩ := hregular
      rw [Rudolph1Conn.recvIpolite_nack]
      by_cases hversion : version = (s.node v).version
      · rw [if_pos hversion]
        by_cases hlt : chunk < (s.node v).chunk
        · rw [if_pos hlt]
          exact h.quiet rfl rfl rfl rfl fun q hq => List.mem_singleton.mp hq ▸ h.formatData v hlt
        · rw [if_neg hlt]
          exact h.quiet rfl rfl rfl rfl nofun
      rw [if_neg hversion]
      by_cases holder : Rudolph1Conn.LT version (s.node v).version
      · have hne := hown (hcomparable.1.mp holder)
        have hpos : (0 : UInt16).toNat < (s.node v).chunk.toNat :=
          Nat.pos_of_ne_zero fun hzero => hne (UInt16.toNat_inj.mp hzero)
        rw [if_pos holder]
        exact h.quiet rfl rfl rfl rfl fun q hq => List.mem_singleton.mp hq ▸ h.formatData v hpos
      · rw [if_neg holder]
        exact h.quiet rfl rfl rfl rfl nofun

/-- The source gives packets to `trickle`. -/
lemma Served.sends {src : Rudolph1Conn} (h : Served intBits source s) (hchunks : ∀ V, Addressable intBits (files V))
    (hfull : (s.node source).full ≤ src.full) (hfiles : ∀ V ≤ (s.node source).full, files V = s.files V)
    (hchunk : src.full = (s.node source).full → (s.node source).chunk.toNat ≤ src.chunk.toNat)
    (hsrc : SourceOk files s.log source src) (hown : Sent files src src.full src.chunk.toNat)
    (hsent : ∀ p ∈ sent, PacketOk files src p) :
    Served intBits source { s.sends source (src, sent) with files := files } := by
  have hsource : (s.sends source (src, sent)).node source = src := Function.update_self _ _ _
  have hother : ∀ w, w ≠ source → (s.sends source (src, sent)).node w = s.node w :=
    fun w hw => Function.update_of_ne hw _ _
  refine ⟨hchunks, fun p hp => ?_, fun p hp => ?_, fun w => ?_, ?_, fun w hw => ?_⟩
  · rw [hsource]
    exact (List.mem_append.mp hp).elim (fun hp => (h.trickle p hp).mono hfull hfiles hchunk) (hsent p)
  · rw [hsource]
    exact (h.ipolite p hp).mono hfull hfiles hchunk
  · rw [hsource]
    by_cases hw : w = source
    · rw [hw, hsource]
      exact hown
    · rw [hother w hw]
      exact (h.sent w).mono hfull hfiles hchunk
  · rw [hsource]
    exact hsrc
  · rw [hother w hw]
    exact (h.receiver w hw).mono (h.sent w).1 hfiles

/-- The source sends the next version. -/
lemma Served.rudolph1Send {file : List UInt8} (h : Served intBits source s)
    (hnum : Addressable intBits file) :
    Served intBits source { s.sends source ((s.node source).rudolph1Send intBits file) with
      files := Function.update s.files ((s.node source).full + 1) file } := by
  have hnew : Function.update s.files ((s.node source).full + 1) file ((s.node source).full + 1) = file :=
    Function.update_self _ _ _
  have hpos : 1 ≤ numChunks file := Nat.succ_pos _
  have hsent : ∀ k ≤ 1, Sent (Function.update s.files ((s.node source).full + 1) file)
      ((s.node source).rudolph1Send intBits file).1 ((s.node source).full + 1) k := by
    intro k hk
    refine ⟨Nat.le_refl _, ?_, fun _ => hk⟩
    rw [hnew]
    exact Nat.le_trans hk hpos
  refine h.sends (fun V => ?_) (Nat.le_succ _) (fun V hV => ?_) (fun heq => ?_) ⟨.inr hnew.symm, fun _ => ?_,
    h.src.writes⟩ (hsent 1 (Nat.le_refl _)) fun p hp => ?_
  · by_cases hV : V = (s.node source).full + 1
    · rw [hV, hnew]
      exact hnum
    · rw [Function.update_of_ne hV]
      exact h.chunks V
  · exact Function.update_of_ne (Nat.ne_of_lt (Nat.lt_succ_of_le hV)) _ _
  · exact absurd heq (Nat.succ_ne_self _)
  · refine ⟨hnew.symm, ?_⟩
    show 1 < file.length / datasize + 1 ∨ file.length < datasize
    unfold datasize
    omega
  · rw [List.mem_singleton.mp hp]
    refine ⟨hsent 1 (Nat.le_refl _), ?_⟩
    show _ = Rime.chunkOf (Function.update s.files ((s.node source).full + 1) file ((s.node source).full + 1)) 0
    rw [hnew]
    exact readData_eq (hnum.inRange hpos)

/-- The source sends the next chunk, or puts it off. -/
lemma Served.sendNextPacket (h : Served intBits source s) (ht : (s.node source).t = true)
    (hlength : (s.node source).nacks = 0 → datasize ≤ (s.node source).file.length) :
    Served intBits source (s.sends source (Rudolph1Conn.sendNextPacket intBits { s.node source with t := false })) := by
  obtain ⟨hfile, hleft⟩ := h.src.timer ht
  unfold Rudolph1Conn.sendNextPacket
  by_cases hnacks : (s.node source).nacks = 0
  · have hlt : (s.node source).chunk.toNat < numChunks (s.node source).file :=
      hleft.resolve_right (Nat.not_lt.mpr (hlength hnacks))
    have hnum : Addressable intBits (s.node source).file := hfile ▸ h.chunks _
    have hread : readData intBits (s.node source).file (s.node source).chunk.toNat =
        Rime.chunkOf (s.node source).file (s.node source).chunk.toNat := readData_eq (hnum.inRange hlt)
    have hsucc : ((s.node source).chunk + 1).toNat = (s.node source).chunk.toNat + 1 :=
      toNat_succ rfl (Nat.lt_of_le_of_lt hlt hnum.1) (Nat.le_refl _)
    have hsent : Sent s.files { s.node source with chunk := (s.node source).chunk + 1 }
        (s.node source).full ((s.node source).chunk.toNat + 1) := by
      refine ⟨Nat.le_refl _, ?_, fun _ => Nat.le_of_eq hsucc.symm⟩
      rw [← hfile]
      exact hlt
    rw [if_pos hnacks]
    refine h.sends h.chunks (Nat.le_refl _) (fun _ _ => rfl) (fun _ => ?_) ⟨.inr hfile, fun hlen => ⟨hfile, ?_⟩,
      h.src.writes⟩ ?_ fun p hp => ?_
    · show _ ≤ ((s.node source).chunk + 1).toNat
      rw [hsucc]
      exact Nat.le_succ _
    · -- a chunk that is not shorter is not the last one
      have hfullLength := hread ▸ of_decide_eq_true hlen
      have hnot : ¬(s.node source).chunk.toNat + 1 = numChunks (s.node source).file := fun hlast =>
        absurd ((length_chunkOf_lt hlt).mpr hlast) (Nat.not_lt.mpr (Nat.le_of_eq hfullLength.symm))
      refine .inl ?_
      show ((s.node source).chunk + 1).toNat < _
      rw [hsucc]
      exact Nat.lt_of_le_of_ne hlt hnot
    · show Sent _ _ _ ((s.node source).chunk + 1).toNat
      rw [hsucc]
      exact hsent
    · rw [List.mem_singleton.mp hp]
      refine ⟨hsent, ?_⟩
      show readData intBits (s.node source).file _ = _
      rw [hread, hfile]
  · rw [if_neg hnacks]
    exact h.sends h.chunks (Nat.le_refl _) (fun _ _ => rfl) (fun _ => Nat.le_refl _)
      ⟨h.src.file, fun _ => ⟨hfile, hleft⟩, h.src.writes⟩ (h.sent source) nofun

lemma Served.step {e : Rudolph1Event ι} (h : Served intBits source s) (hok : Regular intBits source s e)
    (hstep : s.step intBits source e = .ok s') : Served intBits source s' := by
  cases e with
  | rudolph1Send file =>
      cases hstep
      exact h.rudolph1Send hok
  | sendNextPacket =>
      by_cases ht : (s.node source).t = true
      · have heq := (if_pos ht).symm.trans hstep
        cases heq
        exact h.sendNextPacket ht hok
      · have heq := (if_neg ht).symm.trans hstep
        cases heq
  | recvTrickle v i =>
      cases hi : s.trickle[i]? with
      | none =>
          simp only [Rudolph1Net.step, hi] at hstep
          cases hstep
      | some p =>
          simp only [Rudolph1Net.step, hi, Except.ok.injEq] at hstep
          subst hstep
          have hp := h.trickle p (List.mem_of_getElem? hi)
          have hregular := hok p hi
          cases p with
          | data version chunk bytes full => exact h.handleData rfl rfl rfl rfl hp hregular
          | nack version chunk full => exact h.quiet rfl rfl rfl rfl nofun
  | recvIpolite v i =>
      cases hi : s.ipolite[i]? with
      | none =>
          simp only [Rudolph1Net.step, hi] at hstep
          cases hstep
      | some p =>
          simp only [Rudolph1Net.step, hi, Except.ok.injEq] at hstep
          subst hstep
          exact h.recvIpolite (h.ipolite p (List.mem_of_getElem? hi)) (hok p hi)

lemma Served.opened (h : s.Opened) : Served intBits source s := by
  obtain ⟨hnode, htrickle, hipolite, hfiles, hlog⟩ := h
  have hwrites : ∀ v V, writesOf s.log v V = [] := by
    intro v V
    rw [hlog]
    rfl
  have hconn : ∀ v, (s.node v).full = 0 ∧ (s.node v).chunk = 0 ∧ (s.node v).t = false := by
    intro v
    obtain ⟨file, hfile⟩ := hnode v
    rw [hfile]
    exact ⟨rfl, rfl, rfl⟩
  refine ⟨fun V => ?_, ?_, ?_, fun v => ?_, ⟨.inl (hconn source).2.1, fun ht => ?_, hwrites source⟩,
    fun v _ => ⟨.inl ?_, ?_, fun V _ => hwrites v V, fun V => ⟨0, Nat.zero_le _, hwrites v V⟩⟩⟩
  · rw [hfiles]
    refine ⟨?_, ?_⟩
    · show 0 / datasize + 1 < 65536
      unfold datasize
      omega
    · show 0 / datasize * datasize < 2 ^ (intBits - 1)
      rw [Nat.zero_div, Nat.zero_mul]
      exact Nat.two_pow_pos _
  · rw [htrickle]
    nofun
  · rw [hipolite]
    nofun
  · rw [(hconn v).1, (hconn v).2.1]
    exact ⟨Nat.zero_le _, Nat.zero_le _, fun _ => Nat.zero_le _⟩
  · rw [(hconn source).2.2] at ht
    cases ht
  · rw [(hconn v).2.1]
    rfl
  · rw [hwrites, (hconn v).2.1]
    rfl

/-- The run of the network from its opening on, with steps that meet a guard. -/
abbrev Reached (intBits : ℕ) (source : ι) (ok : Rudolph1Net ι → Rudolph1Event ι → Prop) (s : Rudolph1Net ι) : Prop :=
  Reaches (step intBits source) ok Opened s

/-- **Every node writes the chunks of every version in order**, each once, with the bytes of the source,
and the last one is the one that is told to be the last. -/
theorem writesInOrder (h : Reached intBits source (Regular intBits source) s) : WritesInOrder s.files s.log := by
  have hserved : Served intBits source s := h.invariant (fun _ => Served.opened) fun _ _ _ hs hok => hs.step hok
  intro v V
  by_cases hv : v = source
  · exact ⟨0, Nat.zero_le _, hv ▸ hserved.src.writes V⟩
  · exact (hserved.receiver v hv).inOrder V

/-! ## A source and a receiver -/

/-- A source, which is `true`, and a receiver. -/
def startNet : Rudolph1Net Bool :=
  { node := fun _ => .opened [], trickle := [], ipolite := [], files := fun _ => [], log := [] }

lemma startNet_opened : startNet.Opened := ⟨fun _ => ⟨[], rfl⟩, rfl, rfl, rfl, rfl⟩

/-- The receiver misses the first of two chunks, asks for it when it hears the second, and gets it from the
source. -/
def repaired : List (Rudolph1Event Bool) :=
  [.rudolph1Send (List.replicate 64 7), .sendNextPacket, .recvTrickle false 1, .recvIpolite true 0,
    .recvIpolite false 1, .recvTrickle false 1]

theorem writesInOrder_repaired : ∃ s : Rudolph1Net Bool,
    writesOf s.log false 1 =
      [⟨0, .newfile, []⟩, ⟨0, .none, List.replicate 64 7⟩, ⟨64, .lastchunk, []⟩] ∧
        WritesInOrder s.files s.log := by
  have hends : (runGuarded (step 16 true) (Regular 16 true) startNet repaired).map
      (fun s => writesOf s.log false 1) =
        some [⟨0, .newfile, []⟩, ⟨0, .none, List.replicate 64 7⟩, ⟨64, .lastchunk, []⟩] := by decide +kernel
  obtain ⟨s, hrun, hwrites⟩ := Option.map_eq_some_iff.mp hends
  exact ⟨s, hwrites, writesInOrder ((Reaches.initial startNet_opened).of_runGuarded hrun)⟩

/-- The file has one chunk, and the timer of the source sends another one. -/
def sentTwice : List (Rudolph1Event Bool) :=
  [.rudolph1Send [7], .recvTrickle false 0, .sendNextPacket, .recvTrickle false 1]

/-- The receiver is told twice that the file is complete. -/
theorem not_writesInOrder :
    ¬∀ s : Rudolph1Net Bool, Reached 16 true anyEvent s → WritesInOrder s.files s.log := by
  intro h
  obtain ⟨s, hrun, hobserved⟩ := exists_ok_of_map (x := runEvents (step 16 true) startNet sentTwice)
    (f := fun s => (writesOf s.log false 1, s.files 1))
    (b := ([⟨0, .newfile, []⟩, ⟨0, .lastchunk, [7]⟩, ⟨64, .lastchunk, []⟩], [7])) (by decide +kernel)
  obtain ⟨hwrites, hfile⟩ := Prod.mk.inj hobserved
  have hreached : Reached 16 true anyEvent s :=
    (Reaches.initial startNet_opened).of_runEvents (fun _ _ _ => trivial) hrun
  obtain ⟨k, hk, heq⟩ := h s hreached false 1
  rw [hwrites] at heq
  rw [hfile] at hk heq
  rcases Nat.le_one_iff_eq_zero_or_eq_one.mp hk with rfl | rfl
  · cases heq
  · cases heq

end Rudolph1Net
end Rime
end Contiki

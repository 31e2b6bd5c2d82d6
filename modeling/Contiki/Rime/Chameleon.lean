import Contiki.Lib.Bits
import Contiki.Rime.Packetbuf

/-!
# Headers of Chameleon

Channels, and the headers that `chameleon-bitopt` puts in front of a packet: the number of the channel,
and behind it the attributes of its list, each in as many bits as the list gives it.

* `setBits_writes` — what is written for an attribute or an address, as fields of bits.
* `getBits_holds` — what is read from such fields.
* `packHeader_holds`, `unpackHeader_holds` — a whole header.
-/

namespace Contiki
namespace Rime

/-- The type of an entry of an attribute list. -/
inductive AttrType
  | attr (a : PacketbufAttr)
  | addr (a : PacketbufAddr)
deriving DecidableEq

/-- An entry of `struct packetbuf_attrlist`; the list ends where the source has `PACKETBUF_ATTR_NONE`. -/
structure AttrEntry where
  type : AttrType
  len : UInt8

def headerSize (a : List AttrEntry) : ℕ := (a.map (·.len.toNat)).sum

/-- `struct channel`, as `channel_open` and `channel_set_attributes` fill it. -/
structure Channel where
  channelno : UInt16
  attrlist : List AttrEntry
  hdrsize : UInt8
  hdrsize_eq : hdrsize = UInt8.ofNat (headerSize attrlist)

def channelLookup (channelList : List Channel) (channelno : UInt16) : Option Channel :=
  channelList.find? (·.channelno = channelno)

/-! ## Bits of a header -/

def bitmask : List ℕ := [0x00, 0x80, 0xc0, 0xe0, 0xf0, 0xf8, 0xfc, 0xfe, 0xff]

def getBitsInByte (mem : ℕ → UInt8) (pos bitpos vallen : ℕ) : UInt8 :=
  let shiftedVal : UInt16 := (mem pos).toUInt16 <<< 8 ||| (mem (pos + 1)).toUInt16
  UInt8.ofNat ((((shiftedVal.toNat <<< bitpos) >>> 8) &&& bitmask.getD vallen 0) >>> (8 - vallen))

/-- `get_bits`: the bytes that are read. -/
def getBits (mem : ℕ → UInt8) (pos bitpos vallen : ℕ) : List UInt8 :=
  if vallen < 8 then [getBitsInByte mem pos bitpos vallen]
  else
    let bits := vallen % 8
    let rest := if bits ≠ 0 then [getBitsInByte mem (pos + vallen / 8) bitpos bits] else []
    if bitpos = 0 then copyBytes mem pos (vallen / 8) ++ rest
    else ((List.range (vallen / 8)).map fun i => getBitsInByte mem (pos + i) bitpos 8) ++ rest

def setBitsInByte (mem : ℕ → UInt8) (pos bitpos : ℕ) (val : UInt8) (vallen : ℕ) : ℕ → UInt8 :=
  let shiftedVal := UInt16.ofNat (val.toNat <<< (8 - bitpos + 8 - vallen))
  let mem := Function.update mem pos (mem pos ||| (shiftedVal >>> 8).toUInt8)
  Function.update mem (pos + 1) (mem (pos + 1) ||| shiftedVal.toUInt8)

/-- The first loop of `set_bits` at a bit that is not the first one of a byte. -/
def setBytes (mem : ℕ → UInt8) (pos bitpos : ℕ) : List UInt8 → ℕ → UInt8
  | [] => mem
  | val :: rest => setBytes (setBitsInByte mem pos bitpos val 8) (pos + 1) bitpos rest

def setBits (mem : ℕ → UInt8) (pos bitpos : ℕ) (val : ℕ → UInt8) (vallen : ℕ) : ℕ → UInt8 :=
  if vallen < 8 then setBitsInByte mem pos bitpos (val 0) vallen
  else
    let i := vallen / 8
    let bits := vallen % 8
    if bitpos = 0 then
      let mem := memcpy mem pos (copyBytes val 0 i)
      if bits ≠ 0 then setBitsInByte mem (pos + i) 0 (UInt8.ofNat ((val i).toNat >>> (8 - bits))) bits
      else mem
    else
      let mem := setBytes mem pos bitpos (copyBytes val 0 i)
      if bits ≠ 0 then
        setBitsInByte mem (pos + i) 0 (UInt8.ofNat ((val i).toNat >>> (8 - bits + bitpos))) bits
      else mem

/-! ## Headers -/

variable {size : ℕ}

/-- The bytes of an attribute in memory, the low one first. -/
def attrBytes (val : UInt16) : ℕ → UInt8 := fun k => [val.toUInt8, (val >>> 8).toUInt8].getD k 0

/-- The value with these bytes in memory. -/
def attrOfBytes (val : ℕ → UInt8) : UInt16 := (val 0).toUInt16 + (val 1).toUInt16 <<< 8

/-- What `pack_header` reads for an entry. -/
def Packetbuf.valBytes (p : Packetbuf size) : AttrType → ℕ → UInt8
  | .attr a => attrBytes (p.attr a)
  | .addr a => fun k => (p.addr a).u8.getD k 0

/-- The bytes of a header whose attributes have `hdrsize` bits. -/
def hdrbytesize (hdrsize : UInt8) : ℕ := hdrsize.toNat / 8 + if hdrsize.toNat % 8 = 0 then 0 else 1

/-- The loop of `pack_header`, from the bit `bitptr` on. -/
def packAttrs (p : Packetbuf size) (hdrptr : ℕ) : List AttrEntry → ℕ → (ℕ → UInt8) → ℕ → UInt8
  | [], _, mem => mem
  | a :: rest, bitptr, mem =>
    packAttrs p hdrptr rest (bitptr + a.len.toNat)
      (setBits mem (hdrptr + bitptr / 8) (bitptr % 8) (p.valBytes a.type) a.len.toNat)

/-- `pack_header`, if there is room. -/
def packHeader (c : Channel) (p : Packetbuf size) : Option (Packetbuf size) :=
  match p.hdralloc (hdrbytesize c.hdrsize + 2) with
  | none => none
  | some p =>
    let mem := memcpy p.mem p.hdrptr [c.channelno.toUInt8, (c.channelno >>> 8).toUInt8]
    let hdrptr := p.hdrptr + 2
    let mem := memcpy mem hdrptr (List.replicate (hdrbytesize c.hdrsize) 0)
    some { p with mem := packAttrs p hdrptr c.attrlist 0 mem }

/-- What `unpack_header` does with the bytes of an entry; an address lies on the stack, where `stack` was. -/
def Packetbuf.setVal (p : Packetbuf size) (stack : ℕ → UInt8) (bytes : List UInt8) : AttrType → Packetbuf size
  | .attr a => p.setAttr a (attrOfBytes (memcpy (fun _ => 0) 0 bytes))
  | .addr a => p.setAddr a (rimeaddrAt size (memcpy stack 0 bytes))

/-- The loop of `unpack_header`, from the bit `bitptr` on. -/
def unpackAttrs (stack : ℕ → ℕ → UInt8) (hdrptr : ℕ) :
    List AttrEntry → ℕ → Packetbuf size → Packetbuf size
  | [], _, p => p
  | a :: rest, bitptr, p =>
    unpackAttrs stack hdrptr rest (bitptr + a.len.toNat)
      (p.setVal (stack bitptr) (getBits p.mem (hdrptr + bitptr / 8) (bitptr % 8) a.len.toNat) a.type)

/-- `unpack_header`: the channel, if there is one. -/
def unpackHeader (channelList : List Channel) (stack : ℕ → ℕ → UInt8) (p : Packetbuf size) :
    Option Channel × Packetbuf size :=
  let hdr := p.dataptr
  match p.hdrreduce 2 with
  | none => (none, p)
  | some p =>
    match channelLookup channelList (UInt16.ofNat ((p.mem (hdr + 1)).toNat <<< 8 + (p.mem hdr).toNat)) with
    | none => (none, p)
    | some c =>
      let hdrptr := p.dataptr
      match p.hdrreduce (hdrbytesize c.hdrsize) with
      | none => (none, p)
      | some p => (some c, unpackAttrs stack hdrptr c.attrlist 0 p)

/-! ## Single fields -/

lemma testBit_bitmask {n : ℕ} (hn : n ≤ 8) (j : ℕ) :
    (bitmask.getD n 0).testBit (j + (8 - n)) = decide (j < n) := by
  have hmask : bitmask.getD n 0 = (2 ^ n - 1) <<< (8 - n) := by
    interval_cases n <;> rfl
  rw [hmask, Nat.testBit_shiftLeft, Nat.testBit_two_pow_sub_one, decide_eq_true (by omega), Bool.true_and,
    Nat.add_sub_cancel]

/-- Two bytes as a word: the bits of the second one are the low ones. -/
lemma testBit_word (mem : ℕ → UInt8) (pos : ℕ) {i : ℕ} (hi : i < 16) :
    ((mem pos).toUInt16 <<< 8 ||| (mem (pos + 1)).toUInt16).toNat.testBit (15 - i) = bitOf mem (8 * pos + i) := by
  have hword : ((mem pos).toUInt16 <<< 8 ||| (mem (pos + 1)).toUInt16).toNat =
      (mem pos).toNat <<< 8 ||| (mem (pos + 1)).toNat := by
    have hlt := (mem pos).toNat_lt
    rw [UInt16.toNat_or, UInt16.toNat_shiftLeft, UInt8.toNat_toUInt16, UInt8.toNat_toUInt16]
    congr 1
    show ((mem pos).toNat <<< 8) % 2 ^ 16 = _
    rw [Nat.shiftLeft_eq]
    omega
  rw [hword, Nat.testBit_or, Nat.testBit_shiftLeft]
  by_cases hlow : i < 8
  · rw [bitOf_byte _ _ hlow, decide_eq_true (by omega), Bool.true_and, show 15 - i - 8 = 7 - i by omega,
      Nat.testBit_lt_two_pow (x := (mem (pos + 1)).toNat), Bool.or_false]
    exact (UInt8.toNat_lt _).trans_le (Nat.pow_le_pow_right (by omega) (by omega))
  · rw [decide_eq_false (by omega), Bool.false_and, Bool.false_or,
      show 8 * pos + i = 8 * (pos + 1) + (i - 8) by omega, bitOf_byte _ _ (by omega),
      show 7 - (i - 8) = 15 - i by omega]

/-- What is read are the bits in the buffer. -/
lemma getBitsInByte_eq (mem : ℕ → UInt8) (pos : ℕ) {bitpos n : ℕ} (hbit : bitpos < 8) (hn : n ≤ 8) :
    getBitsInByte mem pos bitpos n = UInt8.ofNat (readBits mem (8 * pos + bitpos) n) := by
  show UInt8.ofNat (((((mem pos).toUInt16 <<< 8 ||| (mem (pos + 1)).toUInt16).toNat <<< bitpos >>> 8) &&&
    bitmask.getD n 0) >>> (8 - n)) = _
  congr 1
  apply Nat.eq_of_testBit_eq
  intro j
  rw [Nat.testBit_shiftRight, Nat.testBit_and, Nat.testBit_shiftRight, Nat.testBit_shiftLeft, Nat.add_comm _ j,
    testBit_bitmask hn, testBit_readBits, Bool.and_comm]
  by_cases hj : j < n
  · rw [decide_eq_true hj, Bool.true_and, Bool.true_and, decide_eq_true (by omega), Bool.true_and,
      show 8 + (j + (8 - n)) - bitpos = 15 - (bitpos + (n - 1 - j)) by omega, testBit_word _ _ (by omega),
      Nat.add_assoc]
  · rw [decide_eq_false hj, Bool.false_and, Bool.false_and]

/-- The word that is put over two bytes has the value at its place. -/
lemma testBit_shiftedVal {bitpos n : ℕ} {val : UInt8} (hbit : bitpos < 8) (hn : n ≤ 8)
    (hval : val.toNat < 2 ^ n) {i : ℕ} (hi : i < 16) :
    (UInt16.ofNat (val.toNat <<< (8 - bitpos + 8 - n))).toNat.testBit (15 - i) =
      (decide (bitpos ≤ i ∧ i < bitpos + n) && val.toNat.testBit (bitpos + n - 1 - i)) := by
  have hword : (UInt16.ofNat (val.toNat <<< (8 - bitpos + 8 - n))).toNat =
      val.toNat <<< (8 - bitpos + 8 - n) := by
    apply UInt16.toNat_ofNat_of_lt'
    have hpow : val.toNat * 2 ^ (8 - bitpos + 8 - n) < 2 ^ n * 2 ^ (8 - bitpos + 8 - n) :=
      Nat.mul_lt_mul_of_pos_right hval (Nat.two_pow_pos _)
    rw [← Nat.pow_add] at hpow
    rw [Nat.shiftLeft_eq, UInt16.size]
    exact hpow.trans_le (Nat.pow_le_pow_right (n := 2) (by omega) (show n + (8 - bitpos + 8 - n) ≤ 16 by omega))
  rw [hword, Nat.testBit_shiftLeft]
  by_cases hin : bitpos ≤ i ∧ i < bitpos + n
  · rw [decide_eq_true hin, decide_eq_true (by omega),
      show 15 - i - (8 - bitpos + 8 - n) = bitpos + n - 1 - i by omega]
  · rw [decide_eq_false hin, Bool.false_and]
    by_cases hlow : i < bitpos
    · rw [Nat.testBit_lt_two_pow, Bool.and_false]
      exact hval.trans_le (Nat.pow_le_pow_right (by omega) (by omega))
    · rw [decide_eq_false (by omega), Bool.false_and]

/-- The value is put over what stands in the buffer. -/
lemma bitOf_setBitsInByte (mem : ℕ → UInt8) (pos : ℕ) {bitpos n : ℕ} {val : UInt8} (hbit : bitpos < 8)
    (hn : n ≤ 8) (hval : val.toNat < 2 ^ n) (k : ℕ) :
    bitOf (setBitsInByte mem pos bitpos val n) k = (bitOf mem k ||
      (decide (8 * pos + bitpos ≤ k ∧ k < 8 * pos + bitpos + n) &&
        val.toNat.testBit (8 * pos + bitpos + n - 1 - k))) := by
  have hset : setBitsInByte mem pos bitpos val n = Function.update (Function.update mem pos
      (mem pos ||| (UInt16.ofNat (val.toNat <<< (8 - bitpos + 8 - n)) >>> 8).toUInt8)) (pos + 1)
      (mem (pos + 1) ||| (UInt16.ofNat (val.toNat <<< (8 - bitpos + 8 - n))).toUInt8) := by
    unfold setBitsInByte
    simp only [Function.update_of_ne (Nat.succ_ne_self pos)]
  rw [hset]
  rcases Nat.lt_or_ge k (8 * pos) with hk | hk
  · rw [decide_eq_false (by omega), Bool.false_and, Bool.or_false]
    unfold bitOf
    rw [Function.update_of_ne (by omega), Function.update_of_ne (by omega)]
  obtain ⟨i, rfl⟩ := Nat.exists_eq_add_of_le hk
  rcases Nat.lt_or_ge i 16 with hi | hi
  · have hshifted := testBit_shiftedVal hbit hn hval hi
    rw [show 8 * pos + bitpos + n - 1 - (8 * pos + i) = bitpos + n - 1 - i by omega,
      decide_eq_decide.mpr (show (8 * pos + bitpos ≤ 8 * pos + i ∧ 8 * pos + i < 8 * pos + bitpos + n) ↔
        (bitpos ≤ i ∧ i < bitpos + n) by omega), ← hshifted]
    rcases Nat.lt_or_ge i 8 with hlow | hlow
    · rw [bitOf_byte _ _ hlow, bitOf_byte _ _ hlow, Function.update_of_ne (Nat.succ_ne_self pos).symm,
        Function.update_self, UInt8.toNat_or, Nat.testBit_or]
      congr 1
      rw [UInt16.toNat_toUInt8, UInt16.toNat_shiftRight, Nat.testBit_mod_two_pow, decide_eq_true (by omega),
        Bool.true_and]
      show (_ >>> 8).testBit (7 - i) = _
      rw [Nat.testBit_shiftRight, show 8 + (7 - i) = 15 - i by omega]
    · obtain ⟨j, rfl⟩ := Nat.exists_eq_add_of_le hlow
      rw [show 8 * pos + (8 + j) = 8 * (pos + 1) + j by omega, bitOf_byte _ _ (by omega),
        bitOf_byte _ _ (by omega), Function.update_self, UInt8.toNat_or, Nat.testBit_or]
      congr 1
      rw [UInt16.toNat_toUInt8, Nat.testBit_mod_two_pow, decide_eq_true (by omega), Bool.true_and,
        show 7 - j = 15 - (8 + j) by omega]
  · rw [decide_eq_false (by omega), Bool.false_and, Bool.or_false]
    unfold bitOf
    rw [Function.update_of_ne (by omega), Function.update_of_ne (by omega)]

/-- A value is written over zeros. -/
lemma setBitsInByte_writes {mem : ℕ → UInt8} {pos bitpos n : ℕ} {val : UInt8} (hbit : bitpos < 8)
    (hn : n ≤ 8) (hval : val.toNat < 2 ^ n) (hz : ZeroBits mem (8 * pos + bitpos) n) :
    Writes mem (setBitsInByte mem pos bitpos val n) (8 * pos + bitpos) [(val.toNat, n)] :=
  writes_of_or hval hz fun k => bitOf_setBitsInByte mem pos hbit hn hval k

/-! ## Attributes and addresses as fields -/

/-- What `set_bits` makes of the bits of a value that do not fill a byte. -/
def lastField (bits bitpos : ℕ) (val : UInt8) : ℕ := (val.toNat >>> (8 - bits + bitpos)) <<< bitpos

/-- The fields of a value of `vallen` bits at the bit `bitpos` of a byte. -/
def fields (bitpos vallen : ℕ) (val : ℕ → UInt8) : List (ℕ × ℕ) :=
  if vallen < 8 then [((val 0).toNat, vallen)]
  else
    byteFields (copyBytes val 0 (vallen / 8)) ++
      if vallen % 8 ≠ 0 then [(lastField (vallen % 8) bitpos (val (vallen / 8)), vallen % 8)] else []

/-- The value fits into its bits. -/
def Fits (vallen : ℕ) (val : ℕ → UInt8) : Prop :=
  if vallen < 8 then (val 0).toNat < 2 ^ vallen
  else vallen % 8 ≠ 0 → (val (vallen / 8)).toNat < 2 ^ (vallen % 8)

lemma width_fields (bitpos vallen : ℕ) (val : ℕ → UInt8) : width (fields bitpos vallen val) = vallen := by
  unfold fields
  by_cases hshort : vallen < 8
  · rw [if_pos hshort]
    rfl
  · rw [if_neg hshort, width_append, width_byteFields, length_copyBytes]
    by_cases hbits : vallen % 8 ≠ 0
    · rw [if_pos hbits, width_cons, width_nil]
      omega
    · rw [if_neg hbits, width_nil]
      omega

lemma lastField_lt {bits bitpos : ℕ} {val : UInt8} (hval : val.toNat < 2 ^ bits) :
    lastField bits bitpos val < 2 ^ bits := by
  unfold lastField
  rw [Nat.shiftLeft_eq, Nat.shiftRight_eq_div_pow, Nat.pow_add, ← Nat.div_div_eq_div_mul]
  calc val.toNat / 2 ^ (8 - bits) / 2 ^ bitpos * 2 ^ bitpos ≤ val.toNat / 2 ^ (8 - bits) :=
        Nat.div_mul_le_self ..
    _ ≤ val.toNat := Nat.div_le_self ..
    _ < 2 ^ bits := hval

/-- Of the bits that do not fill a byte only the value zero is kept. -/
lemma lastField_eq_iff {bits bitpos : ℕ} {val : UInt8} (hbits : bits < 8) :
    lastField bits bitpos val = val.toNat ↔ val = 0 := by
  constructor
  · intro h
    by_contra hne
    have hpos : 0 < val.toNat := Nat.pos_of_ne_zero fun h0 => hne (UInt8.toNat_inj.mp h0)
    have hless : lastField bits bitpos val < val.toNat := by
      unfold lastField
      rw [Nat.shiftLeft_eq, Nat.shiftRight_eq_div_pow, Nat.pow_add, ← Nat.div_div_eq_div_mul]
      calc val.toNat / 2 ^ (8 - bits) / 2 ^ bitpos * 2 ^ bitpos ≤ val.toNat / 2 ^ (8 - bits) :=
            Nat.div_mul_le_self ..
        _ < val.toNat := Nat.div_lt_self hpos (Nat.one_lt_two_pow (by omega))
    omega
  · rintro rfl
    unfold lastField
    simp

/-- The bits that do not fill a byte are written as `lastField` bits behind those before them. -/
lemma setBitsInByte_last (mem : ℕ → UInt8) (pos : ℕ) {bits bitpos : ℕ} {val : UInt8} (hbit : bitpos < 8)
    (hbits : bits < 8) (hval : val.toNat < 2 ^ bits) :
    setBitsInByte mem pos 0 (UInt8.ofNat (val.toNat >>> (8 - bits + bitpos))) bits =
      setBitsInByte mem pos bitpos (UInt8.ofNat (lastField bits bitpos val)) bits := by
  have hlt := val.toNat_lt
  have hpow : 2 ^ bits ≤ 2 ^ 8 := Nat.pow_le_pow_right (by omega) (by omega)
  have hleft : (UInt8.ofNat (val.toNat >>> (8 - bits + bitpos))).toNat = val.toNat >>> (8 - bits + bitpos) := by
    apply UInt8.toNat_ofNat_of_lt'
    exact (Nat.shiftRight_le ..).trans_lt hlt
  have hright : (UInt8.ofNat (lastField bits bitpos val)).toNat = lastField bits bitpos val := by
    apply UInt8.toNat_ofNat_of_lt'
    exact (lastField_lt hval).trans_le hpow
  unfold setBitsInByte
  rw [hleft, hright, lastField, ← Nat.shiftLeft_add, show bitpos + (8 - bitpos + 8 - bits) = 8 - 0 + 8 - bits by omega]

lemma setBytes_writes {mem : ℕ → UInt8} {pos bitpos : ℕ} (hbit : bitpos < 8) {l : List UInt8}
    (hz : ZeroBits mem (8 * pos + bitpos) (8 * l.length)) :
    Writes mem (setBytes mem pos bitpos l) (8 * pos + bitpos) (byteFields l) := by
  induction l generalizing mem pos with
  | nil => exact .refl ..
  | cons val rest ih =>
      rw [List.length_cons] at hz
      have hfirst : Writes mem (setBitsInByte mem pos bitpos val 8) (8 * pos + bitpos) [(val.toNat, 8)] :=
        setBitsInByte_writes hbit (le_refl 8) val.toNat_lt (hz.mono (by omega))
      have hbehind : ZeroBits (setBitsInByte mem pos bitpos val 8) (8 * (pos + 1) + bitpos) (8 * rest.length) := by
        have h := ZeroBits.behind (n := 8 * rest.length) (hz.mono (by rw [width_cons, width_nil]; omega)) hfirst
        rwa [width_cons, width_nil, show 8 * pos + bitpos + (8 + 0) = 8 * (pos + 1) + bitpos by omega] at h
      have hrest := ih hbehind
      refine hfirst.append ?_
      rwa [width_cons, width_nil, show 8 * pos + bitpos + (8 + 0) = 8 * (pos + 1) + bitpos by omega]

/-- The bytes of a value, at any bit. -/
lemma setWholeBytes_writes {mem : ℕ → UInt8} {pos bitpos : ℕ} (hbit : bitpos < 8) {l : List UInt8}
    (hz : ZeroBits mem (8 * pos + bitpos) (8 * l.length)) :
    Writes mem (if bitpos = 0 then memcpy mem pos l else setBytes mem pos bitpos l) (8 * pos + bitpos)
      (byteFields l) := by
  by_cases hzero : bitpos = 0
  · rw [if_pos hzero, hzero]
    exact writes_memcpy mem pos l
  · rw [if_neg hzero]
    exact setBytes_writes hbit hz

/-- What `set_bits` writes over zeros. -/
lemma setBits_writes {mem : ℕ → UInt8} {pos bitpos vallen : ℕ} {val : ℕ → UInt8} (hbit : bitpos < 8)
    (hfits : Fits vallen val) (hz : ZeroBits mem (8 * pos + bitpos) vallen) :
    Writes mem (setBits mem pos bitpos val vallen) (8 * pos + bitpos) (fields bitpos vallen val) := by
  unfold fields
  unfold Fits at hfits
  by_cases hshort : vallen < 8
  · rw [if_pos hshort] at hfits ⊢
    unfold setBits
    rw [if_pos hshort]
    exact setBitsInByte_writes hbit (by omega) hfits hz
  rw [if_neg hshort] at hfits ⊢
  have hset : setBits mem pos bitpos val vallen =
      let mem' := if bitpos = 0 then memcpy mem pos (copyBytes val 0 (vallen / 8))
        else setBytes mem pos bitpos (copyBytes val 0 (vallen / 8))
      if vallen % 8 ≠ 0 then
        setBitsInByte mem' (pos + vallen / 8) 0
          (UInt8.ofNat ((val (vallen / 8)).toNat >>> (8 - vallen % 8 + bitpos))) (vallen % 8)
      else mem' := by
    unfold setBits
    rw [if_neg hshort]
    by_cases hzero : bitpos = 0
    · simp only [hzero, if_pos, Nat.add_zero]
    · simp only [hzero, if_false]
  have hlen : (copyBytes val 0 (vallen / 8)).length = vallen / 8 := length_copyBytes ..
  have hbytes := setWholeBytes_writes hbit (l := copyBytes val 0 (vallen / 8))
    (hz.mono (by rw [hlen]; omega))
  have hplace : 8 * pos + bitpos + width (byteFields (copyBytes val 0 (vallen / 8))) =
      8 * (pos + vallen / 8) + bitpos := by
    rw [width_byteFields, hlen]
    omega
  rw [hset]
  refine hbytes.append ?_
  rw [hplace]
  by_cases hbits : vallen % 8 ≠ 0
  · rw [if_pos hbits, if_pos hbits, setBitsInByte_last _ _ hbit (by omega) (hfits hbits)]
    have hsmall : lastField (vallen % 8) bitpos (val (vallen / 8)) < 2 ^ (vallen % 8) := lastField_lt (hfits hbits)
    have hpow : 2 ^ (vallen % 8) ≤ 2 ^ 8 := Nat.pow_le_pow_right (by omega) (by omega)
    have hback : (UInt8.ofNat (lastField (vallen % 8) bitpos (val (vallen / 8)))).toNat =
        lastField (vallen % 8) bitpos (val (vallen / 8)) := UInt8.toNat_ofNat_of_lt' (hsmall.trans_le hpow)
    have hlast := setBitsInByte_writes hbit
      (show vallen % 8 ≤ 8 by omega) (hback ▸ hsmall) (by
        rw [← hplace]
        exact ZeroBits.behind (hz.mono (by rw [width_byteFields, hlen]; omega)) hbytes)
    rwa [hback] at hlast
  · rw [if_neg hbits, if_neg hbits]
    exact .refl ..

/-! ## Reading attributes and addresses -/

/-- `get_bits` reads the bits in the buffer, eight by eight. -/
lemma getBits_eq (mem : ℕ → UInt8) (pos : ℕ) {bitpos : ℕ} (vallen : ℕ) (hbit : bitpos < 8) :
    getBits mem pos bitpos vallen =
      if vallen < 8 then [UInt8.ofNat (readBits mem (8 * pos + bitpos) vallen)]
      else
        ((List.range (vallen / 8)).map fun i => UInt8.ofNat (readBits mem (8 * pos + bitpos + 8 * i) 8)) ++
          if vallen % 8 ≠ 0 then
            [UInt8.ofNat (readBits mem (8 * pos + bitpos + 8 * (vallen / 8)) (vallen % 8))]
          else [] := by
  have hplace : ∀ i, 8 * (pos + i) + bitpos = 8 * pos + bitpos + 8 * i := fun i => by omega
  unfold getBits
  by_cases hshort : vallen < 8
  · rw [if_pos hshort, if_pos hshort, getBitsInByte_eq _ _ hbit (by omega)]
  rw [if_neg hshort, if_neg hshort]
  simp only [getBitsInByte_eq _ _ hbit (show vallen % 8 ≤ 8 by omega), getBitsInByte_eq _ _ hbit (le_refl 8), hplace]
  by_cases hzero : bitpos = 0
  · rw [if_pos hzero]
    congr 1
    refine List.map_congr_left fun i _ => ?_
    rw [hzero, Nat.add_zero, ← Nat.mul_add, readBits_byte, UInt8.ofNat_toNat]
  · rw [if_neg hzero]

/-- The bytes that are read where the fields of a value stand. -/
lemma getBits_holds {mem : ℕ → UInt8} {pos bitpos vallen : ℕ} {val : ℕ → UInt8} (hbit : bitpos < 8)
    (h : BitHolds mem (8 * pos + bitpos) (fields bitpos vallen val)) :
    getBits mem pos bitpos vallen = (fields bitpos vallen val).map fun f => UInt8.ofNat f.1 := by
  rw [getBits_eq _ _ _ hbit]
  unfold fields at h ⊢
  by_cases hshort : vallen < 8
  · rw [if_pos hshort] at h ⊢
    rw [if_pos hshort, h.1]
    rfl
  rw [if_neg hshort] at h ⊢
  rw [if_neg hshort]
  obtain ⟨hbytes, hlast⟩ := bitHolds_append.mp h
  have hlen : (copyBytes val 0 (vallen / 8)).length = vallen / 8 := length_copyBytes ..
  rw [width_byteFields, hlen] at hlast
  have hread := BitHolds.bytes hbytes
  rw [hlen] at hread
  rw [List.map_append, hread]
  congr 1
  · unfold byteFields
    rw [List.map_map]
    exact (List.map_id' _).symm.trans (List.map_congr_left fun v _ => (UInt8.ofNat_toNat).symm)
  · by_cases hbits : vallen % 8 ≠ 0
    · rw [if_pos hbits] at hlast ⊢
      rw [if_pos hbits, hlast.1]
      rfl
    · rw [if_neg hbits, if_neg hbits]
      rfl

/-! ## A whole header -/

/-- The fields of the entries of a list, from the bit `bitptr` on. -/
def headerFields (p : Packetbuf size) : List AttrEntry → ℕ → List (ℕ × ℕ)
  | [], _ => []
  | a :: rest, bitptr =>
    fields (bitptr % 8) a.len.toNat (p.valBytes a.type) ++ headerFields p rest (bitptr + a.len.toNat)

lemma width_headerFields (p : Packetbuf size) (l : List AttrEntry) (bitptr : ℕ) :
    width (headerFields p l bitptr) = headerSize l := by
  induction l generalizing bitptr with
  | nil => rfl
  | cons a rest ih =>
      unfold headerFields
      rw [width_append, width_fields, ih]
      rfl

/-- The place of a bit in memory. -/
lemma bit_place (hdrptr bitptr : ℕ) : 8 * (hdrptr + bitptr / 8) + bitptr % 8 = 8 * hdrptr + bitptr := by
  omega

lemma packAttrs_writes {p : Packetbuf size} {hdrptr : ℕ} {l : List AttrEntry} {bitptr : ℕ}
    {mem : ℕ → UInt8} (hfits : ∀ a ∈ l, Fits a.len.toNat (p.valBytes a.type))
    (hz : ZeroBits mem (8 * hdrptr + bitptr) (headerSize l)) :
    Writes mem (packAttrs p hdrptr l bitptr mem) (8 * hdrptr + bitptr) (headerFields p l bitptr) := by
  induction l generalizing bitptr mem with
  | nil => exact .refl ..
  | cons a rest ih =>
      have hsize : headerSize (a :: rest) = a.len.toNat + headerSize rest := rfl
      rw [hsize] at hz
      have hfirst := setBits_writes (Nat.mod_lt bitptr (by omega))
        (hfits a List.mem_cons_self) (by
          rw [bit_place]
          exact hz.mono (by omega))
      rw [bit_place] at hfirst
      have hbehind := ZeroBits.behind (n := headerSize rest) (by rwa [width_fields]) hfirst
      refine hfirst.append ?_
      rw [width_fields] at hbehind ⊢
      rw [Nat.add_assoc] at hbehind ⊢
      exact ih (fun b hb => hfits b (List.mem_cons_of_mem _ hb)) hbehind

lemma setVal_mem (p : Packetbuf size) (stack : ℕ → UInt8) (bytes : List UInt8) (t : AttrType) :
    (p.setVal stack bytes t).mem = p.mem := by
  cases t <;> rfl

lemma setVal_data (p : Packetbuf size) (stack : ℕ → UInt8) (bytes : List UInt8) (t : AttrType) :
    (p.setVal stack bytes t).data = p.data := by
  cases t <;> rfl

/-- The two packets agree in an attribute or an address. -/
def Packetbuf.SameVal (p q : Packetbuf size) : AttrType → Prop
  | .attr a => q.attr a = p.attr a
  | .addr a => q.addr a = p.addr a

lemma setVal_sameVal_of_ne (p : Packetbuf size) (stack : ℕ → UInt8) (bytes : List UInt8) {t t' : AttrType}
    (h : t' ≠ t) : p.SameVal (p.setVal stack bytes t) t' := by
  cases t with
  | attr a =>
      cases t' with
      | attr a' => exact Packetbuf.setAttr_of_ne _ fun heq => h (congrArg AttrType.attr heq)
      | addr a' => rfl
  | addr a =>
      cases t' with
      | attr a' => rfl
      | addr a' => exact Packetbuf.setAddr_of_ne _ fun heq => h (congrArg AttrType.addr heq)

variable {stack : ℕ → ℕ → UInt8} {hdrptr : ℕ}

lemma unpackAttrs_mem (l : List AttrEntry) (bitptr : ℕ) (q : Packetbuf size) :
    (unpackAttrs stack hdrptr l bitptr q).mem = q.mem ∧ (unpackAttrs stack hdrptr l bitptr q).data = q.data := by
  induction l generalizing bitptr q with
  | nil => exact ⟨rfl, rfl⟩
  | cons a rest ih =>
      obtain ⟨hmem, hdata⟩ := ih (bitptr + a.len.toNat) (q.setVal (stack bitptr)
        (getBits q.mem (hdrptr + bitptr / 8) (bitptr % 8) a.len.toNat) a.type)
      exact ⟨hmem.trans (setVal_mem ..), hdata.trans (setVal_data ..)⟩

lemma Packetbuf.SameVal.trans {p q r : Packetbuf size} {t : AttrType} (h : p.SameVal q t) (h' : q.SameVal r t) :
    p.SameVal r t := by
  cases t with
  | attr a => exact Eq.trans h' h
  | addr a => exact Eq.trans h' h

lemma Packetbuf.SameVal.symm {p q : Packetbuf size} {t : AttrType} (h : p.SameVal q t) : q.SameVal p t := by
  cases t with
  | attr a => exact Eq.symm h
  | addr a => exact Eq.symm h

lemma Packetbuf.SameVal.refl (p : Packetbuf size) (t : AttrType) : p.SameVal p t := by
  cases t <;> rfl

/-- What a list does not have stays. -/
lemma unpackAttrs_of_notMem {l : List AttrEntry} {t : AttrType} (h : ∀ a ∈ l, a.type ≠ t) (bitptr : ℕ)
    (q : Packetbuf size) : q.SameVal (unpackAttrs stack hdrptr l bitptr q) t := by
  induction l generalizing bitptr q with
  | nil => exact .refl ..
  | cons a rest ih =>
      exact (setVal_sameVal_of_ne _ _ _ (h a List.mem_cons_self).symm).trans
        (ih (fun b hb => h b (List.mem_cons_of_mem _ hb)) _ _)

lemma unpackAttrs_append (l₁ l₂ : List AttrEntry) (bitptr : ℕ) (q : Packetbuf size) :
    unpackAttrs stack hdrptr (l₁ ++ l₂) bitptr q =
      unpackAttrs stack hdrptr l₂ (bitptr + headerSize l₁) (unpackAttrs stack hdrptr l₁ bitptr q) := by
  induction l₁ generalizing bitptr q with
  | nil => rfl
  | cons a rest ih =>
      have hsize : bitptr + headerSize (a :: rest) = bitptr + a.len.toNat + headerSize rest := by
        rw [Nat.add_assoc]
        rfl
      rw [List.cons_append, hsize]
      exact ih ..

/-- The last entry of a type decides what is restored. -/
lemma unpackAttrs_last (stack : ℕ → ℕ → UInt8) (hdrptr : ℕ) (l₁ : List AttrEntry) {l₂ : List AttrEntry}
    {a : AttrEntry} (h : ∀ b ∈ l₂, b.type ≠ a.type) (q : Packetbuf size) : ∃ r : Packetbuf size,
      (r.setVal (stack (headerSize l₁)) (getBits q.mem (hdrptr + headerSize l₁ / 8) (headerSize l₁ % 8)
        a.len.toNat) a.type).SameVal (unpackAttrs stack hdrptr (l₁ ++ a :: l₂) 0 q) a.type := by
  refine ⟨unpackAttrs stack hdrptr l₁ 0 q, ?_⟩
  rw [unpackAttrs_append, Nat.zero_add, ← (unpackAttrs_mem l₁ 0 q).1]
  exact unpackAttrs_of_notMem h ..

/-! ## What is kept of a value -/

/-- The entry can carry the value that the packet has for it. -/
def Packetbuf.Carries (p : Packetbuf size) (a : AttrEntry) : Prop :=
  match a.type with
  | .attr t => 1 ≤ a.len.toNat ∧ a.len.toNat ≤ 16 ∧ (p.attr t).toNat < 2 ^ a.len.toNat
  | .addr _ => 8 ∣ a.len.toNat ∧ 8 ≤ a.len.toNat ∧ a.len.toNat ≤ 8 * size

/-- The value survives: an attribute of nine to fifteen bits is below 256, an address is there as a whole. -/
def Packetbuf.Keeps (p : Packetbuf size) (a : AttrEntry) : Prop :=
  match a.type with
  | .attr t => 9 ≤ a.len.toNat → a.len.toNat ≤ 15 → (p.attr t).toNat < 256
  | .addr _ => a.len.toNat = 8 * size

/-- The bytes that are read for a value. -/
def readBytes (bitpos vallen : ℕ) (val : ℕ → UInt8) : List UInt8 :=
  (fields bitpos vallen val).map fun f => UInt8.ofNat f.1

lemma readBytes_short {bitpos vallen : ℕ} (h : vallen < 8) (val : ℕ → UInt8) :
    readBytes bitpos vallen val = [val 0] := by
  unfold readBytes fields
  rw [if_pos h, List.map_cons, UInt8.ofNat_toNat, List.map_nil]

lemma readBytes_whole {bitpos vallen : ℕ} (h : ¬ vallen < 8) (hwhole : vallen % 8 = 0) (val : ℕ → UInt8) :
    readBytes bitpos vallen val = copyBytes val 0 (vallen / 8) := by
  unfold readBytes fields byteFields
  rw [if_neg h, if_neg (not_not.mpr hwhole), List.append_nil, List.map_map]
  exact (List.map_congr_left fun v _ => UInt8.ofNat_toNat).trans (List.map_id' _)

lemma readBytes_long {bitpos vallen : ℕ} (h : ¬ vallen < 8) (hbits : vallen % 8 ≠ 0) (val : ℕ → UInt8) :
    readBytes bitpos vallen val = copyBytes val 0 (vallen / 8) ++
      [UInt8.ofNat (lastField (vallen % 8) bitpos (val (vallen / 8)))] := by
  unfold readBytes fields byteFields
  rw [if_neg h, if_pos hbits, List.map_append, List.map_map]
  congr 1
  exact (List.map_congr_left fun v _ => UInt8.ofNat_toNat).trans (List.map_id' _)

lemma attrBytes_toNat (v : UInt16) : (attrBytes v 0).toNat = v.toNat % 256 ∧ (attrBytes v 1).toNat = v.toNat / 256 := by
  have hv := v.toNat_lt
  constructor
  · show v.toUInt8.toNat = _
    rw [UInt16.toNat_toUInt8]
  · show (v >>> 8).toUInt8.toNat = _
    rw [UInt16.toNat_toUInt8, UInt16.toNat_shiftRight]
    show (v.toNat >>> 8) % 2 ^ 8 = _
    rw [Nat.shiftRight_eq_div_pow]
    omega

lemma attrOfBytes_toNat (a b : UInt8) :
    (attrOfBytes (memcpy (fun _ => 0) 0 [a, b])).toNat = a.toNat + 256 * b.toNat := by
  have ha := a.toNat_lt
  have hb := b.toNat_lt
  show (a.toUInt16 + b.toUInt16 <<< 8).toNat = _
  rw [UInt16.toNat_add, UInt16.toNat_shiftLeft, UInt8.toNat_toUInt16, UInt8.toNat_toUInt16]
  show (a.toNat + (b.toNat <<< 8) % 2 ^ 16) % 2 ^ 16 = _
  rw [Nat.shiftLeft_eq]
  omega

lemma attrOfBytes_single (a : UInt8) : (attrOfBytes (memcpy (fun _ => 0) 0 [a])).toNat = a.toNat :=
  (attrOfBytes_toNat a 0).trans (by simp)

/-- An attribute comes back unless bits that do not fill a byte are lost. -/
lemma attr_restored_iff {v : UInt16} {bitpos len : ℕ} (hlow : 1 ≤ len) (hhigh : len ≤ 16)
    (hv : v.toNat < 2 ^ len) : attrOfBytes (memcpy (fun _ => 0) 0 (readBytes bitpos len (attrBytes v))) = v ↔
      (9 ≤ len → len ≤ 15 → v.toNat < 256) := by
  obtain ⟨hfirst, hsecond⟩ := attrBytes_toNat v
  have hlt := v.toNat_lt
  rw [← UInt16.toNat_inj]
  by_cases hshort : len < 8
  · have hpow : 2 ^ len ≤ 2 ^ 8 := Nat.pow_le_pow_right (by omega) (by omega)
    rw [readBytes_short hshort, attrOfBytes_single, hfirst]
    omega
  by_cases hwhole : len % 8 = 0
  · rw [readBytes_whole hshort hwhole]
    rcases (show len = 8 ∨ len = 16 by omega) with rfl | rfl
    · show (attrOfBytes (memcpy (fun _ => 0) 0 [attrBytes v 0])).toNat = _ ↔ _
      rw [attrOfBytes_single, hfirst]
      omega
    · show (attrOfBytes (memcpy (fun _ => 0) 0 [attrBytes v 0, attrBytes v 1])).toNat = _ ↔ _
      rw [attrOfBytes_toNat, hfirst, hsecond]
      omega
  · rw [readBytes_long hshort hwhole, show len / 8 = 1 by omega]
    show (attrOfBytes (memcpy (fun _ => 0) 0 [attrBytes v 0,
      UInt8.ofNat (lastField (len % 8) bitpos (attrBytes v 1))])).toNat = _ ↔ _
    have hbyte : (attrBytes v 1).toNat < 2 ^ (len % 8) := by
      rw [hsecond]
      have hsplit : 2 ^ len = 2 ^ (len % 8) * 2 ^ 8 := by
        rw [← Nat.pow_add]
        congr 1
        omega
      rw [hsplit] at hv
      omega
    have hpow : 2 ^ (len % 8) ≤ 2 ^ 8 := Nat.pow_le_pow_right (by omega) (by omega)
    have hsmall := @lastField_lt _ bitpos _ hbyte
    have hiff := @lastField_eq_iff _ bitpos (attrBytes v 1) (show len % 8 < 8 by omega)
    rw [← UInt8.toNat_inj] at hiff
    rw [attrOfBytes_toNat, UInt8.toNat_ofNat_of_lt' (hsmall.trans_le hpow), hfirst]
    rw [hsecond] at hiff
    have hzero : (0 : UInt8).toNat = 0 := rfl
    rw [hzero] at hiff
    omega

/-- The bytes of an address. -/
lemma copyBytes_addr {a : Rimeaddr size} {n : ℕ} (hn : n ≤ size) :
    copyBytes (fun k => a.u8.getD k 0) 0 n = a.u8.take n := by
  rw [copyBytes_getD (by rw [a.length_u8]; omega), List.drop_zero]

lemma fits_of_carries {p : Packetbuf size} {a : AttrEntry} (h : p.Carries a) :
    Fits a.len.toNat (p.valBytes a.type) := by
  obtain ⟨type, len⟩ := a
  cases type with
  | addr t =>
      obtain ⟨hdvd, hlow, -⟩ := h
      unfold Fits
      rw [if_neg (by omega)]
      exact fun hbits => absurd (Nat.mod_eq_zero_of_dvd hdvd) hbits
  | attr t =>
      obtain ⟨hlow, hhigh, hv⟩ := h
      obtain ⟨hfirst, hsecond⟩ := attrBytes_toNat (p.attr t)
      have hlow' : 1 ≤ len.toNat := hlow
      have hhigh' : len.toNat ≤ 16 := hhigh
      have hv' : (p.attr t).toNat < 2 ^ len.toNat := hv
      unfold Fits
      by_cases hshort : len.toNat < 8
      · rw [if_pos hshort]
        show (attrBytes (p.attr t) 0).toNat < _
        rw [hfirst]
        exact (Nat.mod_le ..).trans_lt hv'
      · rw [if_neg hshort]
        intro hbits
        have hone : len.toNat / 8 = 1 := by
          have hbits' : len.toNat % 8 ≠ 0 := hbits
          omega
        show (attrBytes (p.attr t) (len.toNat / 8)).toNat < 2 ^ (len.toNat % 8)
        rw [hone, hsecond]
        have hsplit : 2 ^ len.toNat = 2 ^ (len.toNat % 8) * 2 ^ 8 := by
          rw [← Nat.pow_add]
          congr 1
          omega
        rw [hsplit] at hv'
        omega

/-- The bytes that are read for an address. -/
lemma readBytes_addr {len bitpos : ℕ} (a : Rimeaddr size) (hdvd : 8 ∣ len) (hlow : 8 ≤ len)
    (hhigh : len ≤ 8 * size) :
    readBytes bitpos len (fun k => a.u8.getD k 0) = a.u8.take (len / 8) := by
  rw [readBytes_whole (by omega) (Nat.mod_eq_zero_of_dvd hdvd), copyBytes_addr (by omega)]

/-- A value that survives is restored, whatever was in its place. -/
lemma setVal_of_keeps {p : Packetbuf size} {a : AttrEntry} (h : p.Carries a) (hk : p.Keeps a) (bitpos : ℕ)
    (stack : ℕ → UInt8) (r : Packetbuf size) :
    p.SameVal (r.setVal stack (readBytes bitpos a.len.toNat (p.valBytes a.type)) a.type) a.type := by
  obtain ⟨type, len⟩ := a
  cases type with
  | attr t =>
      obtain ⟨hlow, hhigh, hv⟩ := h
      exact (Packetbuf.setAttr_self ..).trans ((attr_restored_iff hlow hhigh hv).mpr hk)
  | addr t =>
      obtain ⟨hdvd, hlow, hhigh⟩ := h
      have hlen : len.toNat / 8 = size := by
        have hall : len.toNat = 8 * size := hk
        omega
      refine (Packetbuf.setAddr_self ..).trans (Rimeaddr.ext ?_)
      show copyBytes (memcpy stack 0 (readBytes bitpos len.toNat fun k => (p.addr t).u8.getD k 0)) 0 size = _
      rw [readBytes_addr _ hdvd hlow hhigh, hlen, List.take_of_length_le (p.addr t).length_u8.le]
      exact copyBytes_memcpy _ _ (p.addr t).length_u8

/-- A value that does not survive is not restored, for some rest on the stack. -/
lemma setVal_of_not_keeps {p : Packetbuf size} {a : AttrEntry} (h : p.Carries a) (hk : ¬ p.Keeps a) :
    ∃ stack : ℕ → UInt8, ∀ (bitpos : ℕ) (r : Packetbuf size),
      ¬ p.SameVal (r.setVal stack (readBytes bitpos a.len.toNat (p.valBytes a.type)) a.type) a.type := by
  obtain ⟨type, len⟩ := a
  cases type with
  | attr t =>
      obtain ⟨hlow, hhigh, hv⟩ := h
      refine ⟨fun _ => 0, fun bitpos r hsame => hk ?_⟩
      exact (attr_restored_iff hlow hhigh hv).mp ((Packetbuf.setAttr_self ..).symm.trans hsame)
  | addr t =>
      obtain ⟨hdvd, hlow, hhigh⟩ := h
      have hshort : len.toNat / 8 < size := by
        have hne : len.toNat ≠ 8 * size := hk
        have hdvd' : 8 ∣ len.toNat := hdvd
        have hhigh' : len.toNat ≤ 8 * size := hhigh
        omega
      refine ⟨fun k => (p.addr t).u8.getD k 0 + 1, fun bitpos r hsame => ?_⟩
      have haddr := congrArg Rimeaddr.u8 ((Packetbuf.setAddr_self ..).symm.trans hsame)
      have hbytes : copyBytes (memcpy (fun k => (p.addr t).u8.getD k 0 + 1) 0
          (readBytes bitpos len.toNat fun k => (p.addr t).u8.getD k 0)) 0 size = (p.addr t).u8 := haddr
      rw [readBytes_addr _ hdvd hlow hhigh] at hbytes
      -- the first byte that was not sent
      have hget := (hbytes ▸ holds_copyBytes (memcpy (fun k => (p.addr t).u8.getD k 0 + 1) 0
        ((p.addr t).u8.take (len.toNat / 8))) 0 size).get (len.toNat / 8) (by rwa [(p.addr t).length_u8])
      rw [memcpy_of_notMem (.inr (by rw [List.length_take]; omega)), Nat.zero_add,
        List.getD_eq_getElem _ _ (by rwa [(p.addr t).length_u8])] at hget
      have hne : ∀ b : UInt8, b + 1 ≠ b := fun b hb => by simp at hb
      exact hne _ hget

/-! ## Packing and unpacking -/

lemma headerFields_congr {p q : Packetbuf size} (hattr : q.attr = p.attr) (haddr : q.addr = p.addr)
    (l : List AttrEntry) (bitptr : ℕ) : headerFields q l bitptr = headerFields p l bitptr := by
  induction l generalizing bitptr with
  | nil => rfl
  | cons a rest ih =>
      have hval : q.valBytes a.type = p.valBytes a.type := by
        cases a.type with
        | attr t => exact congrArg (fun f => attrBytes (f t)) hattr
        | addr t => exact congrArg (fun f k => (f t).u8.getD k 0) haddr
      unfold headerFields
      rw [hval, ih]

/-- Up to 255 bits the header has room for all attributes. -/
lemma headerSize_le {c : Channel} (h : headerSize c.attrlist < 256) :
    headerSize c.attrlist ≤ 8 * hdrbytesize c.hdrsize := by
  have hsize : c.hdrsize.toNat = headerSize c.attrlist := by
    rw [c.hdrsize_eq, UInt8.toNat_ofNat_of_lt' h]
  unfold hdrbytesize
  rw [hsize]
  split_ifs <;> omega

/-- A header that was packed: the channel, and the fields behind it. -/
structure IsHeader (c : Channel) (p : Packetbuf size) (hdr : List UInt8) : Prop where
  length : hdr.length = hdrbytesize c.hdrsize + 2
  channel : hdr.take 2 = [c.channelno.toUInt8, (c.channelno >>> 8).toUInt8]
  fields : ∀ b pos, Holds b pos hdr → BitHolds b (8 * (pos + 2)) (headerFields p c.attrlist 0)

lemma packHeader_holds {c : Channel} {p p' : Packetbuf size} (h : packHeader c p = some p')
    (htotal : headerSize c.attrlist < 256) (hfits : ∀ a ∈ c.attrlist, Fits a.len.toNat (p.valBytes a.type)) :
    ∃ hdr, IsHeader c p hdr ∧ p'.bytes = hdr ++ p.bytes := by
  have hroom := headerSize_le htotal
  unfold packHeader at h
  cases halloc : p.hdralloc (hdrbytesize c.hdrsize + 2) with
  | none =>
      rw [halloc] at h
      cases h
  | some q =>
      rw [halloc] at h
      cases h
      obtain ⟨hfit, hq⟩ := Packetbuf.hdralloc_eq halloc
      have hfields : headerFields q c.attrlist 0 = headerFields p c.attrlist 0 :=
        headerFields_congr (by rw [hq]) (by rw [hq]) _ _
      have hptr : q.hdrptr + (hdrbytesize c.hdrsize + 2) = p.hdrptr := by
        rw [hq]
        exact Nat.sub_add_cancel hfit
      have hfitsq : ∀ a ∈ c.attrlist, Fits a.len.toNat (q.valBytes a.type) := by
        rw [hq]
        exact hfits
      have hmem : q.mem = p.mem := by rw [hq]
      set mem₁ := memcpy q.mem q.hdrptr [c.channelno.toUInt8, (c.channelno >>> 8).toUInt8] with hmem₁
      set mem₂ := memcpy mem₁ (q.hdrptr + 2) (List.replicate (hdrbytesize c.hdrsize) 0) with hmem₂
      have hzero : ZeroBits mem₂ (8 * (q.hdrptr + 2) + 0) (headerSize c.attrlist) := by
        intro k hk
        have hbyte := (holds_memcpy mem₁ (q.hdrptr + 2) (List.replicate (hdrbytesize c.hdrsize) (0 : UInt8))).get
          (k / 8) (by rw [List.length_replicate]; omega)
        rw [List.getElem_replicate, ← hmem₂] at hbyte
        unfold bitOf
        rw [show (8 * (q.hdrptr + 2) + 0 + k) / 8 = q.hdrptr + 2 + k / 8 by omega, hbyte]
        exact Nat.zero_testBit _
      have hw : Writes mem₂ (packAttrs q (q.hdrptr + 2) c.attrlist 0 mem₂) (8 * (q.hdrptr + 2))
          (headerFields q c.attrlist 0) := packAttrs_writes hfitsq hzero
      set mem := packAttrs q (q.hdrptr + 2) c.attrlist 0 mem₂ with hmem'
      have hwidth := width_headerFields q c.attrlist 0
      have hout : ∀ k, p.hdrptr ≤ k → mem k = p.mem k := by
        intro k hk
        rw [hw.byte (.inr (by omega)), hmem₂, memcpy_of_notMem (.inr (by rw [List.length_replicate]; omega)),
          hmem₁, memcpy_of_notMem (.inr (by simp only [List.length_cons, List.length_nil]; omega)), hmem]
      have hfirst : ∀ k, k < 2 → mem (q.hdrptr + k) = mem₁ (q.hdrptr + k) := by
        intro k hk
        rw [hw.byte (.inl (by omega)), hmem₂, memcpy_of_notMem (.inl (by omega))]
      obtain ⟨hlow, hhigh, -⟩ := holds_memcpy q.mem q.hdrptr [c.channelno.toUInt8, (c.channelno >>> 8).toUInt8]
      refine ⟨copyBytes mem q.hdrptr (hdrbytesize c.hdrsize + 2), ⟨length_copyBytes .., ?_, ?_⟩,
        Packetbuf.hdralloc_bytes halloc hout⟩
      · rw [Nat.add_comm, copyBytes_add, List.take_left' (length_copyBytes ..)]
        show [mem (q.hdrptr + 0), mem (q.hdrptr + 1)] = _
        rw [hfirst 0 (by omega), hfirst 1 (by omega)]
        exact congrArg₂ (fun a b => [a, b]) hlow hhigh
      · intro b pos hb
        have hsame : ∀ i < hdrbytesize c.hdrsize + 2, b (pos + i) = mem (q.hdrptr + i) := by
          intro i hi
          rw [hb.get i (by rwa [length_copyBytes])]
          simp [copyBytes]
        rw [← hfields]
        refine hw.holds.congr fun k hk => ?_
        rw [hwidth] at hk
        unfold bitOf
        rw [show (8 * (pos + 2) + k) / 8 = pos + (2 + k / 8) by omega,
          show (8 * (q.hdrptr + 2) + k) / 8 = q.hdrptr + (2 + k / 8) by omega, hsame _ (by omega)]
        congr 1
        omega

/-- The two parts of a header are taken off, and the attributes are read from the second one. -/
lemma unpackHeader_eq {channelList : List Channel} {c : Channel} {q : Packetbuf size}
    (stack : ℕ → ℕ → UInt8) (hlen : hdrbytesize c.hdrsize + 2 ≤ q.buflen)
    (hchannel : q.data.take 2 = [c.channelno.toUInt8, (c.channelno >>> 8).toUInt8])
    (hlookup : channelLookup channelList c.channelno = some c) :
    ∃ q₂ : Packetbuf size, q₂.mem = q.mem ∧ q₂.data = q.data.drop (hdrbytesize c.hdrsize + 2) ∧
      unpackHeader channelList stack q = (some c, unpackAttrs stack (q.dataptr + 2) c.attrlist 0 q₂) := by
  obtain ⟨q₁, hreduce₁⟩ := Packetbuf.hdrreduce_of_le (p := q) (n := 2) (by omega)
  obtain ⟨-, hq₁⟩ := Packetbuf.hdrreduce_eq hreduce₁
  obtain ⟨q₂, hreduce₂⟩ := Packetbuf.hdrreduce_of_le (p := q₁) (n := hdrbytesize c.hdrsize) (by
    rw [hq₁]
    show _ ≤ q.buflen - 2
    omega)
  obtain ⟨-, hq₂⟩ := Packetbuf.hdrreduce_eq hreduce₂
  have hnumber : UInt16.ofNat ((q₁.mem (q.dataptr + 1)).toNat <<< 8 + (q₁.mem q.dataptr).toNat) = c.channelno := by
    have hbytes : q.data.take 2 = [q.mem q.dataptr, q.mem (q.dataptr + 1)] := by
      obtain ⟨m, hm⟩ := Nat.exists_eq_add_of_le (show 2 ≤ q.buflen by omega)
      unfold Packetbuf.data
      rw [hm, copyBytes_add, List.take_left' (length_copyBytes ..)]
      rfl
    rw [hbytes] at hchannel
    obtain ⟨hlow, hhigh⟩ := List.cons.inj hchannel
    have hno := c.channelno.toNat_lt
    rw [hq₁]
    show UInt16.ofNat ((q.mem (q.dataptr + 1)).toNat <<< 8 + (q.mem q.dataptr).toNat) = _
    rw [hlow, (List.cons.inj hhigh).1]
    apply UInt16.toNat_inj.mp
    rw [UInt16.toNat_toUInt8, UInt16.toNat_toUInt8, UInt16.toNat_shiftRight, Nat.shiftLeft_eq]
    show UInt16.toNat (UInt16.ofNat ((c.channelno.toNat >>> 8) % 2 ^ 8 * 2 ^ 8 + c.channelno.toNat % 2 ^ 8)) = _
    rw [Nat.shiftRight_eq_div_pow, UInt16.toNat_ofNat_of_lt' (by rw [UInt16.size]; omega)]
    omega
  have hptr : q₁.dataptr = q.dataptr + 2 := by
    rw [hq₁]
    rfl
  refine ⟨q₂, by rw [hq₂, hq₁], ?_, ?_⟩
  · rw [Packetbuf.hdrreduce_data hreduce₂, Packetbuf.hdrreduce_data hreduce₁, List.drop_drop, Nat.add_comm]
  · unfold unpackHeader
    simp only [hreduce₁, hnumber, hlookup, hreduce₂, hptr]

end Rime
end Contiki

import Contiki.Apps.Coap
import Contiki.Lib.Reads
import Mathlib.Data.List.Induction

/-!
# What `parse_message` reads

The parser of CoAP messages with every access to the memory made explicit.  The values of options, the URL,
the query and the payload are recorded as places in the memory from the message on; the octet behind the
message is zero.

* `Coap.parsePlaces`, `Coap.run_parsePlaces` — the accesses; on a message they give what `parseMessage` gives.
* `Coap.messageOptions` — the options of a message, by its format.
* `Coap.parsePlaces_inside_iff` — for which messages nothing but the message is read and recorded.
-/

namespace Contiki
namespace Coap

open Reads

/-- An option that is parsed, with the place of its value. -/
structure OptionPlace where
  option : UInt16
  len : UInt16
  place : ℕ
deriving DecidableEq

/-- What `parse_message` makes of a message. -/
structure CoapPlaces where
  ver : UInt8
  type : UInt8
  optionCount : UInt8
  code : UInt8
  tid : UInt16
  options : List OptionPlace
  url : Option ℕ
  urlLen : UInt16
  query : Option ℕ
  queryLen : UInt16
  payload : Option ℕ
  payloadLen : UInt16

/-! ## The accesses -/

/-- One round of the loop over the options. -/
def readOption (i : ℕ) (prev : UInt16) : Reads ℕ UInt8 OptionPlace := do
  let first ← read i
  let optionDelta := (first &&& 0xF0) >>> 4
  let optionLen : UInt16 := (first &&& 0x0F).toUInt16
  if optionLen = 0xf then do
    let more ← read (i + 1)
    pure ⟨optionDelta.toUInt16 + prev, optionLen + more.toUInt16, i + 2⟩
  else pure ⟨optionDelta.toUInt16 + prev, optionLen, i + 1⟩

/-- The loop over the options, and the place behind them. -/
def readOptions : (count i : ℕ) → (prev : UInt16) → Reads ℕ UInt8 (List OptionPlace × ℕ)
  | 0, i, _ => pure ([], i)
  | count + 1, i, prev => do
    let option ← readOption i prev
    let rest ← readOptions count (option.place + option.len.toNat) option.option
    pure (option :: rest.1, rest.2)

/-- The URL and the query are shortcuts to the last option of their type. -/
def notePlace (packet : CoapPlaces) (option : OptionPlace) : CoapPlaces :=
  if option.option = optionTypeUriPath then { packet with url := some option.place, urlLen := option.len }
  else if option.option = optionTypeUriQuery then
    { packet with query := some option.place, queryLen := option.len }
  else packet

/-- `strchr`, in a memory of `room` octets. -/
def strchrFrom (c : UInt8) : (room pos : ℕ) → Reads ℕ UInt8 (Option ℕ)
  | 0, _ => pure none
  | room + 1, pos => do
    let b ← read pos
    if b = c then pure (some pos) else if b = 0 then pure none else strchrFrom c room (pos + 1)

/-- The URL is split where a mark was found. -/
def splitAt (packet : CoapPlaces) (url : ℕ) : Option ℕ → CoapPlaces
  | none => packet
  | some mark =>
    let query := mark + 1
    { packet with
      urlLen := UInt16.ofNat (mark - url)
      query := some query
      queryLen := UInt16.ofInt (url + packet.urlLen.toNat - query) }

/-- If there is no query, it is looked for in the URL. -/
def splitPlaces (room : ℕ) (packet : CoapPlaces) : Reads ℕ UInt8 CoapPlaces :=
  match packet.url, packet.query with
  | some url, none => do
    let mark ← strchrFrom 0x3F room url
    pure (splitAt packet url mark)
  | _, _ => pure packet

/-- What is left of a message of `size` bytes is its payload. -/
def placePayload (size : UInt16) (packet : CoapPlaces) (processed : ℕ) : CoapPlaces :=
  if processed < size.toNat then
    { packet with payload := some processed, payloadLen := UInt16.ofNat (size.toNat - processed) }
  else packet

/-- The first four bytes of a message. -/
def placeHeader (b₀ b₁ b₂ b₃ : UInt8) : CoapPlaces where
  ver := (b₀ &&& 0xC0) >>> 6
  type := (b₀ &&& 0x30) >>> 4
  optionCount := b₀ &&& 0x0F
  code := b₁
  tid := b₂.toUInt16 <<< 8 + b₃.toUInt16
  options := []
  url := none
  urlLen := 0
  query := none
  queryLen := 0
  payload := none
  payloadLen := 0

/-- The rest of a message, if there is memory for its options. -/
def parseRest (sizeofOption : UInt16) (b : RestBuffer) (size : UInt16) (room : ℕ) (packet : CoapPlaces) :
    Reads ℕ UInt8 CoapPlaces :=
  if packet.optionCount ≠ 0 then
    if (b.allocateBuffer (sizeofOption * packet.optionCount.toUInt16)).isSome then do
      let r ← readOptions packet.optionCount.toNat 4 0
      splitPlaces room (placePayload size (r.1.foldl notePlace { packet with options := r.1 }) r.2)
    else pure packet
  else splitPlaces room (placePayload size packet 4)

/-- `parse_message`. -/
def parsePlaces (sizeofOption : UInt16) (b : RestBuffer) (size : UInt16) (room : ℕ) : Reads ℕ UInt8 CoapPlaces := do
  let b₀ ← read 0
  let b₁ ← read 1
  let b₂ ← read 2
  let b₃ ← read 3
  parseRest sizeofOption b size room (placeHeader b₀ b₁ b₂ b₃)

/-! ## What the accesses give -/

lemma run_strchrFrom_succ (mem : ℕ → UInt8) (c : UInt8) (room pos : ℕ) :
    (strchrFrom c (room + 1) pos).run mem = if mem pos = c then some pos
      else if mem pos = 0 then none else (strchrFrom c room (pos + 1)).run mem := by
  show (if mem pos = c then pure (some pos) else if mem pos = 0 then pure none
    else strchrFrom c room (pos + 1) : Reads ℕ UInt8 (Option ℕ)).run mem = _
  rw [run_ite, run_ite]
  rfl

/-- The places lead to what is recorded in a packet. -/
structure SameParse (p : CoapPlaces) (q : CoapPacket) : Prop where
  header : p.ver = q.ver ∧ p.type = q.type ∧ p.optionCount = q.optionCount ∧ p.code = q.code ∧ p.tid = q.tid
  options : p.options.map (fun o => (o.option, o.len)) = q.options.map fun o => (o.option, o.len)
  url : p.url = q.url ∧ p.urlLen = q.urlLen
  query : p.query = q.query ∧ p.queryLen = q.queryLen
  payloadLen : p.payloadLen = q.payloadLen

section parse
variable (buf : List UInt8)

lemma run_readOption_octet (i : ℕ) (prev : UInt16) : (readOption i prev).run (octet buf) =
    ⟨((octet buf i &&& 0xF0) >>> 4).toUInt16 + prev, (readLen buf i).1, (readLen buf i).2⟩ := by
  refine (run_ite (octet buf) ((octet buf i &&& 0x0F).toUInt16 = 0xf) _ _).trans ?_
  unfold readLen
  by_cases hlong : (octet buf i &&& 0x0F).toUInt16 = 0xf
  · simp only [if_pos hlong]
    rfl
  · simp only [if_neg hlong]
    rfl

lemma run_readOptions_octet (count i : ℕ) (prev : UInt16) : (readOptions count i prev).run (octet buf) =
    ((parseOptions buf count i prev).1.map (fun o => ⟨o.option, o.len, o.place⟩), (parseOptions buf count i prev).2) := by
  induction count generalizing i prev with
  | zero => rfl
  | succ count ih =>
    simp only [readOptions, run_bind, run_pure, run_readOption_octet, ih]
    rfl

lemma notePlace_same {p : CoapPlaces} {q : CoapPacket} (h : SameParse p q) (o : ParsedOption) :
    SameParse (notePlace p ⟨o.option, o.len, o.place⟩) (noteOption q o) := by
  unfold notePlace noteOption
  by_cases hpath : o.option = optionTypeUriPath
  · rw [if_pos hpath, if_pos hpath]
    exact ⟨h.header, h.options, ⟨rfl, rfl⟩, h.query, h.payloadLen⟩
  · rw [if_neg hpath, if_neg hpath]
    by_cases hquery : o.option = optionTypeUriQuery
    · rw [if_pos hquery, if_pos hquery]
      exact ⟨h.header, h.options, h.url, ⟨rfl, rfl⟩, h.payloadLen⟩
    · rw [if_neg hquery, if_neg hquery]
      exact h

lemma foldl_notePlace_same (options : List ParsedOption) {p : CoapPlaces} {q : CoapPacket} (h : SameParse p q) :
    SameParse ((options.map fun o => (⟨o.option, o.len, o.place⟩ : OptionPlace)).foldl notePlace p)
      (options.foldl noteOption q) := by
  induction options generalizing p q with
  | nil => exact h
  | cons o options ih => exact ih (notePlace_same h o)

lemma placePayload_same {p : CoapPlaces} {q : CoapPacket} (h : SameParse p q) (size : UInt16) (processed : ℕ) :
    SameParse (placePayload size p processed) (withPayload buf size q processed) := by
  unfold placePayload withPayload
  by_cases hrest : processed < size.toNat
  · rw [if_pos hrest, if_pos hrest]
    exact ⟨h.header, h.options, h.url, h.query, rfl⟩
  · rw [if_neg hrest, if_neg hrest]
    exact h

lemma run_strchrFrom_octet (room pos : ℕ) (hroom : buf.length < pos + room) :
    (strchrFrom 0x3F room pos).run (octet buf) = strchr buf pos 0x3F := by
  induction room generalizing pos with
  | zero =>
    rw [strchr, List.drop_eq_nil_of_le (by omega)]
    rfl
  | succ room ih =>
    rw [run_strchrFrom_succ, ih (pos + 1) (by omega)]
    by_cases hpos : pos < buf.length
    · have hoctet : octet buf pos = buf[pos] := List.getD_eq_getElem _ _ hpos
      unfold strchr
      rw [hoctet, List.drop_eq_getElem_cons hpos, List.takeWhile_cons]
      by_cases hmark : buf[pos] = 0x3F
      · simp [hmark]
      · by_cases hend : buf[pos] = 0
        · simp [hend]
        · have hne : (buf[pos] != 0) = true := bne_iff_ne.mpr hend
          have hmem : ∀ l : List UInt8, 0x3F ∈ buf[pos] :: l ↔ 0x3F ∈ l := fun l => by simp [Ne.symm hmark]
          simp only [if_neg hmark, if_neg hend, if_pos hne, hmem, List.idxOf_cons_ne _ hmark]
          congr 2
          omega
    · have hoctet : octet buf pos = 0 := List.getD_eq_default _ _ (by omega)
      have hnil : buf.drop pos = [] := List.drop_eq_nil_of_le (by omega)
      unfold strchr
      rw [hoctet, hnil]
      rfl

lemma splitPlaces_same {room : ℕ} (hroom : buf.length < room) {p : CoapPlaces} {q : CoapPacket} (h : SameParse p q) :
    SameParse ((splitPlaces room p).run (octet buf)) (splitUrl buf q) := by
  unfold splitPlaces splitUrl
  rw [h.url.1, h.query.1]
  cases hurl : q.url with
  | none => exact h
  | some url =>
    cases hquery : q.query with
    | some query => exact h
    | none =>
      have hrun := run_strchrFrom_octet buf room url (by omega)
      cases hfound : strchr buf url 0x3F with
      | none =>
        simp only [run_bind, hrun, hfound, run_pure]
        exact h
      | some mark =>
        have hlen : p.urlLen = q.urlLen := h.url.2
        simp only [run_bind, hrun, hfound, run_pure]
        refine ⟨h.header, h.options, ⟨h.url.1.trans hurl, rfl⟩, ⟨rfl, ?_⟩, h.payloadLen⟩
        show UInt16.ofInt _ = UInt16.ofInt _
        rw [hlen]

/-- On a message in memory, the accesses give what `parseMessage` gives. -/
theorem run_parsePlaces (sizeofOption : UInt16) (b : RestBuffer) (memory : ℕ → Next) (size : UInt16) {room : ℕ}
    (hroom : buf.length < room) :
    SameParse ((parsePlaces sizeofOption b size room).run (octet buf))
      (parseMessage sizeofOption b memory buf size).2.2 := by
  have hheader : SameParse (placeHeader (octet buf 0) (octet buf 1) (octet buf 2) (octet buf 3)) (parseHeader buf) :=
    ⟨⟨rfl, rfl, rfl, rfl, rfl⟩, rfl, ⟨rfl, rfl⟩, ⟨rfl, rfl⟩, rfl⟩
  show SameParse ((parseRest sizeofOption b size room
    (placeHeader (octet buf 0) (octet buf 1) (octet buf 2) (octet buf 3))).run (octet buf)) _
  have hcount : (placeHeader (octet buf 0) (octet buf 1) (octet buf 2) (octet buf 3)).optionCount =
    (parseHeader buf).optionCount := rfl
  unfold parseRest parseMessage
  rw [hcount]
  by_cases hsome : (parseHeader buf).optionCount ≠ 0
  · simp only [if_pos hsome]
    cases halloc : b.allocateBuffer (sizeofOption * (parseHeader buf).optionCount.toUInt16) with
    | none => exact hheader
    | some b' =>
      rw [if_pos (Option.isSome_some (a := b')), run_bind, run_readOptions_octet]
      refine splitPlaces_same buf hroom (placePayload_same buf (foldl_notePlace_same _ ?_) size _)
      refine ⟨hheader.header, ?_, hheader.url, hheader.query, hheader.payloadLen⟩
      have hsame := congrArg (List.map fun c => (c.option, c.len)) (optionArray_content
        (linkOptions (parseHeader buf).optionCount.toNat memory)
        (parseOptions buf (parseHeader buf).optionCount.toNat 4 0).1)
      simp only [List.map_map] at hsame ⊢
      exact hsame.symm
  · simp only [if_neg hsome]
    exact splitPlaces_same buf hroom (placePayload_same buf hheader size 4)

end parse

/-! ## The format of a message -/

section format
variable (mem : ℕ → UInt8)

/-- The place of the value of an option that starts at `i`. -/
def valuePlace (i : ℕ) : ℕ := if (mem i).toNat % 16 = 15 then i + 2 else i + 1

/-- The length of the value of an option that starts at `i`. -/
def valueLen (i : ℕ) : ℕ := if (mem i).toNat % 16 = 15 then 15 + (mem (i + 1)).toNat else (mem i).toNat % 16

/-- Where the options of a message start. -/
def optionStart : ℕ → ℕ
  | 0 => 4
  | k + 1 => valuePlace mem (optionStart k) + valueLen mem (optionStart k)

/-- The types of the options of a message, zero being ahead of the first. -/
def typeBefore : ℕ → ℕ
  | 0 => 0
  | k + 1 => (mem (optionStart mem k)).toNat / 16 + typeBefore k

/-- An option of a message. -/
def messageOption (k : ℕ) : OptionPlace where
  option := UInt16.ofNat (typeBefore mem (k + 1))
  len := UInt16.ofNat (valueLen mem (optionStart mem k))
  place := valuePlace mem (optionStart mem k)

/-- How many options a message says it has. -/
def messageCount : ℕ := (mem 0).toNat % 16

/-- The options of a message. -/
def messageOptions : List OptionPlace := (List.range (messageCount mem)).map (messageOption mem)

/-- The first question mark from a place on, no zero being ahead of it. -/
def FirstMark (pos mark : ℕ) : Prop :=
  pos ≤ mark ∧ mem mark = 0x3F ∧ ∀ k, pos ≤ k → k < mark → mem k ≠ 0x3F ∧ mem k ≠ 0

end format

/-- The last option of a type. -/
def lastOption (option : UInt16) (options : List OptionPlace) : Option OptionPlace :=
  (options.filter (·.option = option)).getLast?

/-- What is recorded lies in the first `size` octets. -/
structure CoapPlaces.Inside (size : ℕ) (packet : CoapPlaces) : Prop where
  options : ∀ o ∈ packet.options, o.place + o.len.toNat ≤ size
  url : ∀ url, packet.url = some url → url + packet.urlLen.toNat ≤ size
  query : ∀ query, packet.query = some query → query + packet.queryLen.toNat ≤ size
  payload : ∀ payload, packet.payload = some payload → payload + packet.payloadLen.toNat ≤ size
  split : ∀ o, lastOption optionTypeUriPath packet.options = some o →
    (∀ o' ∈ packet.options, o'.option ≠ optionTypeUriQuery) → packet.query ≠ none →
    packet.urlLen.toNat + packet.queryLen.toNat ≤ o.len.toNat

variable {mem : ℕ → UInt8} {size n : ℕ}

/-! ## The options -/

lemma toNat_low_nibble (x : UInt8) : (x &&& 0x0F).toNat = x.toNat % 16 := by
  rw [UInt8.toNat_and]
  exact Nat.and_two_pow_sub_one_eq_mod x.toNat 4

lemma high_nibble (x : UInt8) : ((x &&& 0xF0) >>> 4).toUInt16 = UInt16.ofNat (x.toNat / 16) := by
  revert x
  apply byte_cases
  decide +kernel

lemma ofNat_low_nibble (x : UInt8) : UInt16.ofNat (x.toNat % 16) = (x &&& 0x0F).toUInt16 := by
  rw [← toNat_low_nibble]
  exact UInt16.toNat_inj.mp (UInt16.toNat_ofNat_of_lt' ((x &&& 0x0F).toNat_lt.trans (by decide)))

lemma low_nibble_eq (x : UInt8) : (x &&& 0x0F).toUInt16 = 0xf ↔ x.toNat % 16 = 15 := by
  rw [← UInt16.toNat_inj, UInt8.toNat_toUInt16, toNat_low_nibble]
  rfl

lemma valueLen_lt (mem : ℕ → UInt8) (i : ℕ) : valueLen mem i < 65536 := by
  have hmore := (mem (i + 1)).toNat_lt
  unfold valueLen
  by_cases hlong : (mem i).toNat % 16 = 15
  · rw [if_pos hlong]
    omega
  · rw [if_neg hlong]
    omega

lemma run_readOption (i : ℕ) (prev : UInt16) : (readOption i prev).run mem =
    ⟨UInt16.ofNat ((mem i).toNat / 16) + prev, UInt16.ofNat (valueLen mem i), valuePlace mem i⟩ := by
  have hlow := ofNat_low_nibble (mem i)
  have hrun : (readOption i prev).run mem = if (mem i &&& 0x0F).toUInt16 = 0xf then
      ⟨((mem i &&& 0xF0) >>> 4).toUInt16 + prev, (mem i &&& 0x0F).toUInt16 + (mem (i + 1)).toUInt16, i + 2⟩
      else ⟨((mem i &&& 0xF0) >>> 4).toUInt16 + prev, (mem i &&& 0x0F).toUInt16, i + 1⟩ :=
    run_ite mem ((mem i &&& 0x0F).toUInt16 = 0xf) _ _
  unfold valueLen valuePlace
  rw [hrun, high_nibble]
  by_cases hlong : (mem i).toNat % 16 = 15
  · rw [if_pos ((low_nibble_eq _).mpr hlong), if_pos hlong, if_pos hlong, ← hlow, hlong]
    congr 1
  · rw [if_neg (mt (low_nibble_eq _).mp hlong), if_neg hlong, if_neg hlong, hlow]

lemma within_readOption (i : ℕ) (prev : UInt16) (h : valuePlace mem i ≤ n + 1) :
    (readOption i prev).Within mem (· ≤ n) := by
  unfold valuePlace at h
  unfold readOption
  rw [within_bind, within_read]
  refine ⟨?_, (within_ite mem _ ((mem i &&& 0x0F).toUInt16 = 0xf) _ _).mpr ⟨fun hlong => ?_, fun _ => ?_⟩⟩
  · by_cases hlong : (mem i).toNat % 16 = 15
    · rw [if_pos hlong] at h
      omega
    · rw [if_neg hlong] at h
      omega
  · rw [if_pos ((low_nibble_eq _).mp hlong)] at h
    rw [within_bind, within_read]
    exact ⟨by omega, within_pure _ _ _⟩
  · exact within_pure _ _ _

/-- The next option starts behind the value. -/
lemma optionStart_succ (mem : ℕ → UInt8) (k : ℕ) :
    (messageOption mem k).place + (messageOption mem k).len.toNat = optionStart mem (k + 1) := by
  show valuePlace mem (optionStart mem k) + (UInt16.ofNat (valueLen mem (optionStart mem k))).toNat = _
  rw [UInt16.toNat_ofNat_of_lt' (valueLen_lt mem _)]
  rfl

lemma run_readOption_start (mem : ℕ → UInt8) (k : ℕ) :
    (readOption (optionStart mem k) (UInt16.ofNat (typeBefore mem k))).run mem = messageOption mem k := by
  rw [run_readOption, messageOption, typeBefore, UInt16.ofNat_add]

/-- The loop finds the options of the message. -/
lemma run_readOptions (mem : ℕ → UInt8) (count k : ℕ) :
    (readOptions count (optionStart mem k) (UInt16.ofNat (typeBefore mem k))).run mem =
      ((List.range' k count).map (messageOption mem), optionStart mem (k + count)) := by
  induction count generalizing k with
  | zero => rfl
  | succ count ih =>
    have hprev : (messageOption mem k).option = UInt16.ofNat (typeBefore mem (k + 1)) := rfl
    simp only [readOptions, run_bind, run_pure, run_readOption_start, optionStart_succ, hprev, ih]
    rw [List.range'_succ, List.map_cons, Nat.add_right_comm k 1 count]
    rfl

/-- The loop reads within the message if all options end in it. -/
lemma within_readOptions {count k : ℕ} (h : ∀ j, k ≤ j → j < k + count → optionStart mem (j + 1) ≤ n) :
    (readOptions count (optionStart mem k) (UInt16.ofNat (typeBefore mem k))).Within mem (· ≤ n) := by
  induction count generalizing k with
  | zero => exact within_pure _ _ _
  | succ count ih =>
    have hprev : (messageOption mem k).option = UInt16.ofNat (typeBefore mem (k + 1)) := rfl
    have hfirst : optionStart mem (k + 1) ≤ n := h k (Nat.le_refl k) (by omega)
    have hplace : valuePlace mem (optionStart mem k) ≤ optionStart mem (k + 1) := Nat.le_add_right _ _
    simp only [readOptions, within_bind, within_pure, and_true, run_readOption_start, optionStart_succ, hprev]
    exact ⟨within_readOption _ _ (by omega), ih fun j hj hlt => h j (by omega) (by omega)⟩

lemma run_readOptions_message (mem : ℕ → UInt8) :
    (readOptions (messageCount mem) 4 0).run mem = (messageOptions mem, optionStart mem (messageCount mem)) := by
  have hrun := run_readOptions mem (messageCount mem) 0
  rw [Nat.zero_add, ← List.range_eq_range'] at hrun
  exact hrun

lemma within_readOptions_message (h : ∀ o ∈ messageOptions mem, o.place + o.len.toNat ≤ n) :
    (readOptions (messageCount mem) 4 0).Within mem (· ≤ n) := by
  refine within_readOptions (k := 0) fun j _ hj => ?_
  rw [Nat.zero_add] at hj
  rw [← optionStart_succ]
  exact h _ (List.mem_map_of_mem (List.mem_range.mpr hj))

/-! ## The URL and the query -/

/-- What the options change in a packet. -/
structure Shortcuts (parsed : List OptionPlace) (packet p : CoapPlaces) : Prop where
  options : p.options = packet.options
  payload : p.payload = packet.payload
  url : p.url = ((lastOption optionTypeUriPath parsed).map (·.place)).or packet.url
  urlLen : p.urlLen = ((lastOption optionTypeUriPath parsed).map (·.len)).getD packet.urlLen
  query : p.query = ((lastOption optionTypeUriQuery parsed).map (·.place)).or packet.query
  queryLen : p.queryLen = ((lastOption optionTypeUriQuery parsed).map (·.len)).getD packet.queryLen

lemma lastOption_append (t : UInt16) (options : List OptionPlace) (o : OptionPlace) :
    lastOption t (options ++ [o]) = if o.option = t then some o else lastOption t options := by
  unfold lastOption
  rw [List.filter_append]
  by_cases ht : o.option = t
  · simp [ht]
  · simp [ht]

/-- The shortcuts lead to the last option of their type. -/
lemma foldl_notePlace (options : List OptionPlace) (packet : CoapPlaces) :
    Shortcuts options packet (options.foldl notePlace packet) := by
  induction options using List.reverseRecOn with
  | nil => exact ⟨rfl, rfl, rfl, rfl, rfl, rfl⟩
  | append_singleton options o ih =>
    rw [List.foldl_append]
    generalize options.foldl notePlace packet = p at ih
    show Shortcuts (options ++ [o]) packet (notePlace p o)
    obtain ⟨hoptions, hpayload, hurl, hurlLen, hquery, hqueryLen⟩ := ih
    unfold notePlace
    by_cases hpath : o.option = optionTypeUriPath
    · have hother : o.option ≠ optionTypeUriQuery := hpath ▸ by decide
      rw [if_pos hpath]
      refine ⟨hoptions, hpayload, ?_, ?_, ?_, ?_⟩
      all_goals rw [lastOption_append]
      · rw [if_pos hpath]
        rfl
      · rw [if_pos hpath]
        rfl
      · rw [if_neg hother]
        exact hquery
      · rw [if_neg hother]
        exact hqueryLen
    · rw [if_neg hpath]
      by_cases hquery' : o.option = optionTypeUriQuery
      · rw [if_pos hquery']
        refine ⟨hoptions, hpayload, ?_, ?_, ?_, ?_⟩
        all_goals rw [lastOption_append]
        · rw [if_neg hpath]
          exact hurl
        · rw [if_neg hpath]
          exact hurlLen
        · rw [if_pos hquery']
          rfl
        · rw [if_pos hquery']
          rfl
      · rw [if_neg hquery']
        refine ⟨hoptions, hpayload, ?_, ?_, ?_, ?_⟩
        all_goals rw [lastOption_append]
        · rw [if_neg hpath]
          exact hurl
        · rw [if_neg hpath]
          exact hurlLen
        · rw [if_neg hquery']
          exact hquery
        · rw [if_neg hquery']
          exact hqueryLen

lemma within_strchrFrom_succ {c : UInt8} {room pos : ℕ} (hpos : pos ≤ n)
    (h : mem pos ≠ c → mem pos ≠ 0 → (strchrFrom c room (pos + 1)).Within mem (· ≤ n)) :
    (strchrFrom c (room + 1) pos).Within mem (· ≤ n) := by
  rw [strchrFrom, within_bind, within_read]
  refine ⟨hpos, ?_⟩
  show (if mem pos = c then pure (some pos) else if mem pos = 0 then pure none
    else strchrFrom c room (pos + 1) : Reads ℕ UInt8 (Option ℕ)).Within mem _
  rw [within_ite, within_ite]
  exact ⟨fun _ => within_pure _ _ _, fun hc => ⟨fun _ => within_pure _ _ _, h hc⟩⟩

/-- `strchr` stops at the first mark, or at the first zero. -/
lemma strchrFrom_spec {room pos : ℕ} (hzero : mem n = 0) (hpos : pos ≤ n) (hroom : n < pos + room) :
    (strchrFrom 0x3F room pos).Within mem (· ≤ n) ∧
      ∀ mark, (strchrFrom 0x3F room pos).run mem = some mark ↔ FirstMark mem pos mark := by
  induction room generalizing pos with
  | zero => omega
  | succ room ih =>
    have hnext : mem pos ≠ 0 → (strchrFrom 0x3F room (pos + 1)).Within mem (· ≤ n) ∧
        ∀ mark, (strchrFrom 0x3F room (pos + 1)).run mem = some mark ↔ FirstMark mem (pos + 1) mark := by
      intro hend
      have hne : pos ≠ n := by
        rintro rfl
        exact hend hzero
      exact ih (by omega) (by omega)
    refine ⟨within_strchrFrom_succ hpos fun _ hend => (hnext hend).1, fun mark => ?_⟩
    rw [run_strchrFrom_succ]
    by_cases hmark : mem pos = 0x3F
    · rw [if_pos hmark, Option.some.injEq]
      constructor
      · rintro rfl
        exact ⟨Nat.le_refl pos, hmark, fun k hk hlt => absurd hk (by omega)⟩
      · rintro ⟨hle, -, hbefore⟩
        by_contra hne
        exact (hbefore pos (Nat.le_refl pos) (by omega)).1 hmark
    · rw [if_neg hmark]
      by_cases hend : mem pos = 0
      · rw [if_pos hend]
        refine iff_of_false (Option.some_ne_none mark).symm ?_
        rintro ⟨hle, hmark', hbefore⟩
        by_cases heq : mark = pos
        · exact hmark (heq ▸ hmark')
        · exact (hbefore pos (Nat.le_refl pos) (by omega)).2 hend
      · rw [if_neg hend, (hnext hend).2]
        constructor
        · rintro ⟨hle, hmark', hbefore⟩
          refine ⟨by omega, hmark', fun k hk hlt => ?_⟩
          by_cases heq : k = pos
          · exact heq ▸ ⟨hmark, hend⟩
          · exact hbefore k (by omega) hlt
        · rintro ⟨hle, hmark', hbefore⟩
          have hne : mark ≠ pos := by
            rintro rfl
            exact hmark hmark'
          exact ⟨by omega, hmark', fun k hk hlt => hbefore k (by omega) hlt⟩

/-! ## The whole message -/

/-- What is said of the URL: the first question mark, up to a zero, is in the option. -/
def MarkInside (mem : ℕ → UInt8) : Prop :=
  ∀ o, lastOption optionTypeUriPath (messageOptions mem) = some o →
    (∀ o' ∈ messageOptions mem, o'.option ≠ optionTypeUriQuery) →
    ∀ mark, FirstMark mem o.place mark → mark < o.place + o.len.toNat

lemma lastOption_mem {t : UInt16} {options : List OptionPlace} {o : OptionPlace}
    (h : lastOption t options = some o) : o ∈ options ∧ o.option = t := by
  have hmem := List.mem_of_getLast? h
  rw [List.mem_filter] at hmem
  exact ⟨hmem.1, of_decide_eq_true hmem.2⟩

lemma lastOption_eq_none {t : UInt16} {options : List OptionPlace} :
    lastOption t options = none ↔ ∀ o ∈ options, o.option ≠ t := by
  rw [lastOption, List.getLast?_eq_none_iff, List.filter_eq_nil_iff]
  simp

/-- A packet is placed as the options of the message say, before the URL is split. -/
structure Unsplit (mem : ℕ → UInt8) (size : ℕ) (p : CoapPlaces) : Prop where
  options : p.options = messageOptions mem
  url : p.url = (lastOption optionTypeUriPath (messageOptions mem)).map (·.place)
  urlLen : p.urlLen = ((lastOption optionTypeUriPath (messageOptions mem)).map (·.len)).getD 0
  query : p.query = (lastOption optionTypeUriQuery (messageOptions mem)).map (·.place)
  queryLen : p.queryLen = ((lastOption optionTypeUriQuery (messageOptions mem)).map (·.len)).getD 0
  payload : ∀ payload, p.payload = some payload → payload + p.payloadLen.toNat ≤ size

lemma unsplit_placePayload {size : UInt16} {p : CoapPlaces} (h : Unsplit mem size.toNat p) (hnone : p.payload = none)
    (processed : ℕ) : Unsplit mem size.toNat (placePayload size p processed) := by
  have hsize := size.toNat_lt
  unfold placePayload
  by_cases hrest : processed < size.toNat
  · rw [if_pos hrest]
    refine ⟨h.options, h.url, h.urlLen, h.query, h.queryLen, ?_⟩
    rintro payload ⟨⟩
    show processed + (UInt16.ofNat (size.toNat - processed)).toNat ≤ size.toNat
    rw [UInt16.toNat_ofNat_of_lt' (by change _ < 65536; omega)]
    omega
  · rw [if_neg hrest]
    exact ⟨h.options, h.url, h.urlLen, h.query, h.queryLen, fun payload hsome => absurd (hnone.symm.trans hsome) nofun⟩

lemma unsplit_options (mem : ℕ → UInt8) (size : UInt16) (b₀ b₁ b₂ b₃ : UInt8) (processed : ℕ) :
    Unsplit mem size.toNat (placePayload size ((messageOptions mem).foldl notePlace
      { placeHeader b₀ b₁ b₂ b₃ with options := messageOptions mem }) processed) := by
  obtain ⟨hoptions, hpayload, hurl, hurlLen, hquery, hqueryLen⟩ := foldl_notePlace (messageOptions mem)
    { placeHeader b₀ b₁ b₂ b₃ with options := messageOptions mem }
  refine unsplit_placePayload ⟨hoptions, ?_, hurlLen, ?_, hqueryLen, ?_⟩ hpayload processed
  · exact hurl.trans (Option.or_none ..)
  · exact hquery.trans (Option.or_none ..)
  · intro payload hsome
    exact absurd (hpayload.symm.trans hsome) nofun

/-- Before the URL is split, all is inside if the options are. -/
lemma Unsplit.inside {size : ℕ} {p : CoapPlaces} (h : Unsplit mem size p)
    (hoptions : ∀ o ∈ messageOptions mem, o.place + o.len.toNat ≤ size) : p.Inside size := by
  refine ⟨h.options ▸ hoptions, ?_, ?_, h.payload, ?_⟩
  · intro url hurl
    rw [h.url] at hurl
    obtain ⟨o, ho, rfl⟩ := Option.map_eq_some_iff.mp hurl
    rw [h.urlLen, ho]
    exact hoptions o (lastOption_mem ho).1
  · intro query hquery
    rw [h.query] at hquery
    obtain ⟨o, ho, rfl⟩ := Option.map_eq_some_iff.mp hquery
    rw [h.queryLen, ho]
    exact hoptions o (lastOption_mem ho).1
  · intro o _ hnone hquery
    rw [h.options] at hnone
    rw [h.query, lastOption_eq_none.mpr hnone] at hquery
    exact absurd rfl hquery

/-- A packet that is split in the URL option is inside. -/
lemma Unsplit.inside_split {size mark : ℕ} {p : CoapPlaces} {o : OptionPlace} (h : Unsplit mem size p)
    (hsize : size < 65536) (hoptions : ∀ o ∈ messageOptions mem, o.place + o.len.toNat ≤ size)
    (ho : lastOption optionTypeUriPath (messageOptions mem) = some o) (hpos : o.place ≤ mark) (hmark : mark ≤ size) :
    (splitAt p o.place (some mark)).Inside size ↔ mark < o.place + o.len.toNat := by
  have hfits := hoptions o (lastOption_mem ho).1
  have hurlLen : p.urlLen = o.len := by
    rw [h.urlLen, ho]
    rfl
  have hlen : (UInt16.ofNat (mark - o.place)).toNat = mark - o.place :=
    UInt16.toNat_ofNat_of_lt' (by change _ < 65536; omega)
  have hrest : (UInt16.ofInt ((o.place : ℤ) + p.urlLen.toNat - ((mark + 1 : ℕ) : ℤ))).toNat =
      if mark < o.place + o.len.toNat then o.place + o.len.toNat - (mark + 1)
      else o.place + o.len.toNat + 65536 - (mark + 1) := by
    have hplace := hfits
    rw [hurlLen]
    show (UInt16.ofNat (((o.place : ℤ) + o.len.toNat - ((mark + 1 : ℕ) : ℤ)) % 65536).toNat).toNat = _
    rw [UInt16.toNat_ofNat']
    by_cases hin : mark < o.place + o.len.toNat
    · rw [if_pos hin]
      omega
    · rw [if_neg hin]
      omega
  constructor
  · intro hinside
    by_contra hbehind
    have hquery : mark + 1 + (UInt16.ofInt ((o.place : ℤ) + p.urlLen.toNat - ((mark + 1 : ℕ) : ℤ))).toNat ≤ size :=
      hinside.query (mark + 1) rfl
    rw [hrest, if_neg hbehind] at hquery
    omega
  · intro hin
    rw [if_pos hin] at hrest
    refine ⟨h.options ▸ hoptions, ?_, ?_, h.payload, ?_⟩
    · intro url hurl
      obtain rfl : o.place = url := by
        have hsome : p.url = some url := hurl
        rw [h.url, ho] at hsome
        exact Option.some.inj hsome
      show o.place + (UInt16.ofNat (mark - o.place)).toNat ≤ size
      omega
    · rintro query ⟨⟩
      show mark + 1 + (UInt16.ofInt ((o.place : ℤ) + p.urlLen.toNat - ((mark + 1 : ℕ) : ℤ))).toNat ≤ size
      omega
    · intro o' ho' _ _
      have hsame : lastOption optionTypeUriPath (messageOptions mem) = some o' := h.options ▸ ho'
      obtain rfl := Option.some.inj (ho.symm.trans hsame)
      show (UInt16.ofNat (mark - o.place)).toNat +
        (UInt16.ofInt ((o.place : ℤ) + p.urlLen.toNat - ((mark + 1 : ℕ) : ℤ))).toNat ≤ o.len.toNat
      omega

/-- **Splitting the URL** keeps within the message just if the question mark is in the option. -/
lemma splitPlaces_inside {size room : ℕ} {p : CoapPlaces} (h : Unsplit mem size p) (hsize : size < 65536)
    (hzero : mem size = 0) (hroom : size < room) (hoptions : ∀ o ∈ messageOptions mem, o.place + o.len.toNat ≤ size) :
    (splitPlaces room p).Within mem (· ≤ size) ∧
      (((splitPlaces room p).run mem).Inside size ↔ MarkInside mem) := by
  have hinside := h.inside hoptions
  cases hpath : lastOption optionTypeUriPath (messageOptions mem) with
  | none =>
    have hurl : p.url = none := by rw [h.url, hpath]; rfl
    unfold splitPlaces
    rw [hurl]
    refine ⟨within_pure _ _ _, iff_of_true hinside fun o ho => ?_⟩
    exact absurd (hpath.symm.trans ho) nofun
  | some o =>
    have hurl : p.url = some o.place := by rw [h.url, hpath]; rfl
    have hfits := hoptions o (lastOption_mem hpath).1
    unfold splitPlaces
    rw [hurl]
    cases hquery : lastOption optionTypeUriQuery (messageOptions mem) with
    | some o' =>
      have hsome : p.query = some o'.place := by rw [h.query, hquery]; rfl
      rw [hsome]
      obtain ⟨hmem, htype⟩ := lastOption_mem hquery
      exact ⟨within_pure _ _ _, iff_of_true hinside fun o _ hnone => absurd htype (hnone o' hmem)⟩
    | none =>
      have hnone : p.query = none := by rw [h.query, hquery]; rfl
      rw [hnone]
      obtain ⟨hwithin, hrun⟩ : (strchrFrom 0x3F room o.place).Within mem (· ≤ size) ∧ _ := strchrFrom_spec hzero
        ((Nat.le_add_right _ _).trans hfits) (by omega)
      have hmarks : MarkInside mem ↔ ∀ mark, FirstMark mem o.place mark → mark < o.place + o.len.toNat := by
        constructor
        · intro hall
          exact hall o hpath (lastOption_eq_none.mp hquery)
        · intro hall o' ho' _
          obtain rfl := Option.some.inj (hpath.symm.trans ho')
          exact hall
      refine ⟨?_, ?_⟩
      · show ((strchrFrom 0x3F room o.place) >>= fun mark => pure (splitAt p o.place mark)).Within mem _
        rw [within_bind]
        exact ⟨hwithin, within_pure _ _ _⟩
      · show (((strchrFrom 0x3F room o.place) >>= fun mark => pure (splitAt p o.place mark)).run mem).Inside size ↔ _
        rw [hmarks, run_bind, run_pure]
        cases hfound : (strchrFrom 0x3F room o.place).run mem with
        | none =>
          refine iff_of_true hinside fun mark hmark => ?_
          exact absurd (hfound.symm.trans ((hrun mark).mpr hmark)) nofun
        | some mark =>
          have hfirst := (hrun mark).mp hfound
          have hle : mark ≤ size := by
            by_contra hlt
            exact (hfirst.2.2 size (by omega) (by omega)).2 hzero
          rw [h.inside_split hsize hoptions hpath hfirst.1 hle]
          constructor
          · intro hin mark' hmark'
            obtain rfl := Option.some.inj (hfound.symm.trans ((hrun mark').mpr hmark'))
            exact hin
          · intro hall
            exact hall mark hfirst

lemma run_splitPlaces_options (room : ℕ) (p : CoapPlaces) : ((splitPlaces room p).run mem).options = p.options := by
  unfold splitPlaces
  cases p.url with
  | none => rfl
  | some url =>
    cases p.query with
    | some query => rfl
    | none =>
      show (((strchrFrom 0x3F room url) >>= fun mark => pure (splitAt p url mark)).run mem).options = _
      rw [run_bind, run_pure]
      cases (strchrFrom 0x3F room url).run mem <;> rfl

/-- Nothing is read but the message and the zero behind it, and what is recorded lies in the message. -/
def ParsesInside (sizeofOption : UInt16) (b : RestBuffer) (mem : ℕ → UInt8) (size : UInt16) (room : ℕ) : Prop :=
  (parsePlaces sizeofOption b size room).Within mem (· ≤ size.toNat) ∧
    ((parsePlaces sizeofOption b size room).run mem).Inside size.toNat

/-- What is behind the first four bytes is parsed within the message. -/
lemma parseRest_inside_iff (sizeofOption : UInt16) (b : RestBuffer) {size : UInt16} {room : ℕ}
    (hzero : mem size.toNat = 0) (hroom : size.toNat < room) (b₁ b₂ b₃ : UInt8) :
    (parseRest sizeofOption b size room (placeHeader (mem 0) b₁ b₂ b₃)).Within mem (· ≤ size.toNat) ∧
      ((parseRest sizeofOption b size room (placeHeader (mem 0) b₁ b₂ b₃)).run mem).Inside size.toNat ↔
    ((b.allocateBuffer (sizeofOption * UInt16.ofNat (messageCount mem))).isSome →
      (∀ o ∈ messageOptions mem, o.place + o.len.toNat ≤ size.toNat) ∧ MarkInside mem) := by
  have hcount : (placeHeader (mem 0) b₁ b₂ b₃).optionCount.toNat = messageCount mem := toNat_low_nibble (mem 0)
  have hword : (placeHeader (mem 0) b₁ b₂ b₃).optionCount.toUInt16 = UInt16.ofNat (messageCount mem) :=
    (ofNat_low_nibble (mem 0)).symm
  unfold parseRest
  by_cases hsome : (placeHeader (mem 0) b₁ b₂ b₃).optionCount ≠ 0
  · rw [if_pos hsome, hword]
    by_cases halloc : (b.allocateBuffer (sizeofOption * UInt16.ofNat (messageCount mem))).isSome = true
    · rw [if_pos halloc]
      simp only [halloc, forall_const]
      rw [hcount, within_bind, run_bind, run_readOptions_message]
      have hunsplit := unsplit_options mem size (mem 0) b₁ b₂ b₃ (optionStart mem (messageCount mem))
      by_cases hoptions : ∀ o ∈ messageOptions mem, o.place + o.len.toNat ≤ size.toNat
      · obtain ⟨hwithin, hinside⟩ := splitPlaces_inside hunsplit size.toNat_lt hzero hroom hoptions
        constructor
        · rintro ⟨-, hin⟩
          exact ⟨hoptions, hinside.mp hin⟩
        · rintro ⟨-, hmark⟩
          exact ⟨⟨within_readOptions_message hoptions, hwithin⟩, hinside.mpr hmark⟩
      · refine iff_of_false ?_ fun h => hoptions h.1
        rintro ⟨-, hin⟩
        have hall := hin.options
        rw [run_splitPlaces_options, hunsplit.options] at hall
        exact hoptions hall
    · rw [if_neg halloc]
      refine iff_of_true ⟨within_pure _ _ _, ?_⟩ fun h => absurd h halloc
      exact ⟨nofun, nofun, nofun, nofun, nofun⟩
  · rw [if_neg hsome]
    have hnone : messageCount mem = 0 := by
      rw [← hcount]
      exact congrArg UInt8.toNat (not_not.mp hsome)
    have hnil : messageOptions mem = [] := by
      rw [messageOptions, hnone]
      rfl
    have hunsplit : Unsplit mem size.toNat (placePayload size (placeHeader (mem 0) b₁ b₂ b₃) 4) := by
      refine unsplit_placePayload ⟨?_, ?_, ?_, ?_, ?_, ?_⟩ rfl 4
      · rw [hnil]
        rfl
      · rw [hnil]
        rfl
      · rw [hnil]
        rfl
      · rw [hnil]
        rfl
      · rw [hnil]
        rfl
      · intro payload hpayload
        exact absurd (show none = some payload from hpayload) nofun
    have hoptions : ∀ o ∈ messageOptions mem, o.place + o.len.toNat ≤ size.toNat := by
      rw [hnil]
      exact nofun
    have hmark : MarkInside mem := by
      unfold MarkInside
      rw [hnil]
      exact nofun
    obtain ⟨hwithin, hinside⟩ := splitPlaces_inside hunsplit size.toNat_lt hzero hroom hoptions
    exact iff_of_true ⟨hwithin, hinside.mpr hmark⟩ fun _ => ⟨hoptions, hmark⟩

/-- **Parsing a message.**  A message is parsed without going beyond it just if it has three octets at least
and, as long as there is memory for its options, they end in it, and a question mark that splits the URL is
in the URL's option. -/
theorem parsePlaces_inside_iff (sizeofOption : UInt16) (b : RestBuffer) {mem : ℕ → UInt8} {size : UInt16}
    {room : ℕ} (hzero : mem size.toNat = 0) (hroom : size.toNat < room) :
    ParsesInside sizeofOption b mem size room ↔ 3 ≤ size.toNat ∧
      ((b.allocateBuffer (sizeofOption * UInt16.ofNat (messageCount mem))).isSome →
        (∀ o ∈ messageOptions mem, o.place + o.len.toNat ≤ size.toNat) ∧ MarkInside mem) := by
  rw [← parseRest_inside_iff sizeofOption b hzero hroom (mem 1) (mem 2) (mem 3)]
  have hrun : (parsePlaces sizeofOption b size room).run mem =
      (parseRest sizeofOption b size room (placeHeader (mem 0) (mem 1) (mem 2) (mem 3))).run mem := rfl
  have hwithin : (parsePlaces sizeofOption b size room).Within mem (· ≤ size.toNat) ↔ 3 ≤ size.toNat ∧
      (parseRest sizeofOption b size room (placeHeader (mem 0) (mem 1) (mem 2) (mem 3))).Within mem (· ≤ size.toNat) := by
    unfold parsePlaces
    rw [within_bind, within_bind, within_bind, within_bind]
    simp only [within_read, run_read]
    constructor
    · rintro ⟨-, -, -, hthree, hrest⟩
      exact ⟨hthree, hrest⟩
    · rintro ⟨hthree, hrest⟩
      exact ⟨by omega, by omega, by omega, hthree, hrest⟩
  unfold ParsesInside
  rw [hrun, hwithin, and_assoc]

/-- A message with a URL of two octets, of which the second is a question mark. -/
theorem parsePlaces_inside_iff_mark :
    ParsesInside 12 ⟨300, 0⟩ (fun k => [0x41, 1, 0, 7, 0x92, 0x61, 0x3F].getD k 0) 7 8 := by
  refine (parsePlaces_inside_iff 12 ⟨300, 0⟩ (by decide) (by decide)).mpr
    ⟨by decide, fun _ => ⟨by decide, fun o hlast _ mark hfirst => ?_⟩⟩
  have ho : o = ⟨9, 2, 5⟩ := by
    refine Option.some.inj (hlast.symm.trans ?_)
    decide
  subst ho
  by_contra hbehind
  exact (hfirst.2.2 6 (by decide) (Nat.lt_of_not_le fun hle => hbehind (by show mark < 5 + 2; omega))).1 rfl

/-- The URL's option is followed by a payload that starts with a question mark. -/
theorem parsePlaces_outside :
    ¬ParsesInside 12 ⟨300, 0⟩ (fun k => [0x41, 1, 0, 7, 0x91, 0x61, 0x3F].getD k 0) 7 8 := by
  rintro ⟨-, hinside⟩
  have hquery := hinside.query 7 (by decide)
  exact absurd hquery (by decide)

end Coap
end Contiki

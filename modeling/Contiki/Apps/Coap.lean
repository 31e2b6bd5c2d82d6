import Contiki.Sicslowpan.Hc06

/-!
# CoAP messages

The options of a packet are kept sorted by their type while they are set.  A message has them as
differences of types, in two forms for the length; behind them stands the payload.  Options that are parsed
stand in an array, in memory that held something else before.

* `optionList` — the options that one finds by their `next`.
* `coapSetOption`, `setOptions` — options are set.
* `serializePacket`, `parseMessage` — a packet becomes a message, and a message a packet.
-/

namespace Contiki
namespace Coap

/-! ## Memory for options -/

/-- The buffer of `rest-common`, from which memory is taken in one direction. -/
structure RestBuffer where
  bufferSize : UInt16
  bufferIndex : UInt16

/-- `allocate_buffer`, if there is room. -/
def RestBuffer.allocateBuffer (b : RestBuffer) (size : UInt16) : Option RestBuffer :=
  let size := if size % 2 ≠ 0 then size + 1 else size
  if b.bufferIndex.toNat + size.toNat < b.bufferSize.toNat then
    some { b with bufferIndex := b.bufferIndex + size }
  else none

/-! ## Packets -/

/-- Where a `next` leads: nowhere, to the option behind it in the list, or elsewhere in memory. -/
inductive Next
  | null
  | behind
  | elsewhere
deriving DecidableEq

/-- What an option says, with the bytes that `value` points to. -/
structure OptionContent where
  option : UInt16
  len : UInt16
  value : List UInt8
  length_value : value.length = len.toNat

/-- `header_option_t`. -/
structure HeaderOption extends OptionContent where
  next : Next

def optionTypeUriPath : UInt16 := 9

def optionTypeUriQuery : UInt16 := 15

/-- `coap_packet_t`.  The payload is what stands in memory where it points to, `url` and `query` are
places in the message that was parsed. -/
structure CoapPacket where
  ver : UInt8
  type : UInt8
  optionCount : UInt8
  code : UInt8
  tid : UInt16
  options : List HeaderOption
  url : Option ℕ
  urlLen : UInt16
  query : Option ℕ
  queryLen : UInt16
  payload : Option (ℕ → UInt8)
  payloadLen : UInt16

def initPacket : CoapPacket :=
  { ver := 1
    type := 0
    optionCount := 0
    code := 0
    tid := 0
    options := []
    url := none
    urlLen := 0
    query := none
    queryLen := 0
    payload := none
    payloadLen := 0 }

/-- The payload, empty if there is none. -/
def CoapPacket.payloadBytes (packet : CoapPacket) : List UInt8 :=
  match packet.payload with
  | none => []
  | some payload => copyBytes payload 0 packet.payloadLen.toNat

/-- The options from the first on, unless a `next` leads elsewhere. -/
def followNext : List HeaderOption → Option (List OptionContent)
  | [] => some []
  | option :: options =>
    match option.next, options with
    | .null, _ => some [option.toOptionContent]
    | .behind, _ :: _ => (followNext options).map (option.toOptionContent :: ·)
    | _, _ => none

lemma followNext_behind {a c : HeaderOption} {options : List HeaderOption} (hnext : a.next = .behind) :
    followNext (a :: c :: options) = (followNext (c :: options)).map (a.toOptionContent :: ·) := by
  conv_lhs => unfold followNext
  simp only [hnext]

def CoapPacket.optionList (packet : CoapPacket) : Option (List OptionContent) := followNext packet.options

/-! ## Setting options -/

/-- The option is put in front of the first one with a greater type, in a list that ends with `NULL`. -/
def insertOption (option : HeaderOption) : List HeaderOption → List HeaderOption
  | [] => [{ option with next := .null }]
  | optionCurrent :: options =>
    if optionCurrent.option > option.option then { option with next := .behind } :: optionCurrent :: options
    else { optionCurrent with next := .behind } :: insertOption option options

/-- `coap_set_option`; an option takes `sizeofOption` bytes and those of its value. -/
def coapSetOption (sizeofOption : UInt16) (b : RestBuffer) (packet : CoapPacket)
    (optionType len : UInt16) (value : ℕ → UInt8) : RestBuffer × CoapPacket × Bool :=
  match b.allocateBuffer (sizeofOption + len) with
  | none => (b, packet, false)
  | some b =>
    let option : OptionContent := ⟨optionType, len, copyBytes value 0 len.toNat, length_copyBytes ..⟩
    (b, { packet with
      options := insertOption ⟨option, .null⟩ packet.options
      optionCount := packet.optionCount + 1 }, true)

/-- The arguments of a call of `coap_set_option`. -/
structure SetOption where
  optionType : UInt16
  len : UInt16
  value : ℕ → UInt8

/-- The calls, one after the other, and whether all of them found memory. -/
def setOptions (sizeofOption : UInt16) (b : RestBuffer) (packet : CoapPacket) :
    List SetOption → RestBuffer × CoapPacket × Bool
  | [] => (b, packet, true)
  | c :: calls =>
    let (b, packet, ok) := coapSetOption sizeofOption b packet c.optionType c.len c.value
    let (b, packet, rest) := setOptions sizeofOption b packet calls
    (b, packet, ok && rest)

/-! ## Serializing -/

/-- One option of a message, behind one of the type `optionDelta`. -/
def optionBytes (optionDelta : UInt16) (option : OptionContent) : List UInt8 :=
  let delta := option.option - optionDelta
  (if option.len < 0xF then [(delta <<< 4).toUInt8 ||| option.len.toUInt8]
    else [(delta <<< 4).toUInt8 ||| 0xF, (option.len - 0xF).toUInt8]) ++ option.value

/-- The options of a message. -/
def optionsBytes (optionDelta : UInt16) : List OptionContent → List UInt8
  | [] => []
  | option :: options => optionBytes optionDelta option ++ optionsBytes option.option options

/-- `serialize_packet` for a packet with these options. -/
def messageBytes (packet : CoapPacket) (options : List OptionContent) : List UInt8 :=
  [packet.ver <<< 6 ||| packet.type <<< 4 ||| packet.optionCount, packet.code] ++ wordBytes packet.tid ++
    optionsBytes 0 options ++ packet.payloadBytes

/-- `serialize_packet`, unless the list of options leads elsewhere. -/
def serializePacket (packet : CoapPacket) : Option (List UInt8) := packet.optionList.map (messageBytes packet)

/-! ## Parsing -/

/-- A byte of the memory from the message on, which goes on with zeros. -/
def octet (buf : List UInt8) (i : ℕ) : UInt8 := buf.getD i 0

/-- `strchr`, from a place of the memory on. -/
def strchr (buf : List UInt8) (pos : ℕ) (c : UInt8) : Option ℕ :=
  let s := (buf.drop pos).takeWhile (· != 0)
  if c ∈ s then some (pos + s.idxOf c) else none

/-- An option that is parsed, and its place. -/
structure ParsedOption extends OptionContent where
  place : ℕ

/-- The length of an option of a message, and the place of its value. -/
def readLen (buf : List UInt8) (i : ℕ) : UInt16 × ℕ :=
  let optionLen : UInt16 := (octet buf i &&& 0x0F).toUInt16
  if optionLen = 0xf then (optionLen + (octet buf (i + 1)).toUInt16, i + 2) else (optionLen, i + 1)

/-- The loop of `parse_message` over `count` options, from the place `i` on; `prev` is the type of the
option before, or zero for the first one. -/
def parseOptions (buf : List UInt8) : (count i : ℕ) → (prev : UInt16) → List ParsedOption × ℕ
  | 0, i, _ => ([], i)
  | count + 1, i, prev =>
    let optionDelta := (octet buf i &&& 0xF0) >>> 4
    let (optionLen, i) := readLen buf i
    let option : OptionContent :=
      ⟨optionDelta.toUInt16 + prev, optionLen, copyBytes (octet buf) i optionLen.toNat, length_copyBytes ..⟩
    let (rest, i') := parseOptions buf count (i + optionLen.toNat) option.option
    (⟨option, i⟩ :: rest, i')

/-- The `next`s in an array of `count` options and behind it, over what the memory held: the loop links each
option to the one behind it, and then writes `NULL` behind the last one. -/
def linkOptions (count : ℕ) (memory : ℕ → Next) (k : ℕ) : Next :=
  if k + 1 < count then .behind else if k = count then .null else memory k

/-- The array of options. -/
def optionArray (next : ℕ → Next) (parsed : List ParsedOption) : List HeaderOption :=
  parsed.mapIdx fun k o => ⟨o.toOptionContent, next k⟩

lemma optionArray_content (next : ℕ → Next) (parsed : List ParsedOption) :
    (optionArray next parsed).map (·.toOptionContent) = parsed.map (·.toOptionContent) := by
  refine List.ext_getElem ?_ fun k hk hk' => ?_
  · simp [optionArray]
  · simp [optionArray]

/-- The URL and the query are shortcuts to the last option of their type. -/
def noteOption (packet : CoapPacket) (option : ParsedOption) : CoapPacket :=
  if option.option = optionTypeUriPath then { packet with url := some option.place, urlLen := option.len }
  else if option.option = optionTypeUriQuery then
    { packet with query := some option.place, queryLen := option.len }
  else packet

/-- If there is no query, it is looked for in the URL. -/
def splitUrl (buf : List UInt8) (packet : CoapPacket) : CoapPacket :=
  match packet.url, packet.query with
  | some url, none =>
    match strchr buf url 0x3F with
    | none => packet
    | some mark =>
      let query := mark + 1
      { packet with
        urlLen := UInt16.ofNat (mark - url)
        query := some query
        queryLen := UInt16.ofInt (url + packet.urlLen.toNat - query) }
  | _, _ => packet

/-- The first four bytes of a message. -/
def parseHeader (buf : List UInt8) : CoapPacket :=
  { initPacket with
    ver := (octet buf 0 &&& 0xC0) >>> 6
    type := (octet buf 0 &&& 0x30) >>> 4
    optionCount := octet buf 0 &&& 0x0F
    code := octet buf 1
    tid := (octet buf 2).toUInt16 <<< 8 + (octet buf 3).toUInt16 }

/-- What is left of a message of `size` bytes is its payload. -/
def withPayload (buf : List UInt8) (size : UInt16) (packet : CoapPacket) (processed : ℕ) : CoapPacket :=
  if processed < size.toNat then
    { packet with
      payload := some fun k => octet buf (processed + k)
      payloadLen := UInt16.ofNat (size.toNat - processed) }
  else packet

/-- `parse_message`.  `buf` is what stands in memory from the message on, and `memory` has the `next`s that the
memory for the options, and behind it, holds. -/
def parseMessage (sizeofOption : UInt16) (b : RestBuffer) (memory : ℕ → Next) (buf : List UInt8) (size : UInt16) :
    RestBuffer × (ℕ → Next) × CoapPacket :=
  let packet := parseHeader buf
  if packet.optionCount ≠ 0 then
    match b.allocateBuffer (sizeofOption * packet.optionCount.toUInt16) with
    | none => (b, memory, packet)
    | some b =>
      let (options, processed) := parseOptions buf packet.optionCount.toNat 4 0
      let next := linkOptions packet.optionCount.toNat memory
      let packet := options.foldl noteOption { packet with options := optionArray next options }
      (b, next, splitUrl buf (withPayload buf size packet processed))
  else (b, memory, splitUrl buf (withPayload buf size packet 4))

end Coap
end Contiki

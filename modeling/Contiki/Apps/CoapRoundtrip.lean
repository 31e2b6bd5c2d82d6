import Contiki.Apps.Coap

/-!
# CoAP messages come back

A packet that is serialized and parsed has the same fields, and its options are those that were set,
sorted by their type and otherwise in their order, if their list has an end: the `next` of the last option is
not set.

* `insertContent` — the options as a list that is kept sorted.
* `setOptions_options` — what the calls of `coap_set_option` make of the options.
* `parseOptions_holds` — the options of a message, one after the other.
* `parseMessage_serializePacket` — the whole message.
-/

namespace Contiki
namespace Coap

/-! ## Options in their order -/

/-- The options are sorted by their type. -/
def Sorted (l : List OptionContent) : Prop := l.Pairwise fun a b => a.option ≤ b.option

/-- An option is put behind those that are not of a greater type. -/
def insertContent (o : OptionContent) : List OptionContent → List OptionContent
  | [] => [o]
  | c :: next => if c.option > o.option then o :: c :: next else c :: insertContent o next

variable {o : OptionContent} {l : List OptionContent}

lemma insertContent_perm : (insertContent o l).Perm (l ++ [o]) := by
  induction l with
  | nil => exact .refl _
  | cons c next ih =>
      unfold insertContent
      split_ifs with hlt
      · exact (List.perm_append_singleton o (c :: next)).symm
      · exact ih.cons c

lemma mem_insertContent {a : OptionContent} : a ∈ insertContent o l ↔ a ∈ l ∨ a = o := by
  rw [insertContent_perm.mem_iff, List.mem_append, List.mem_singleton]

lemma insertContent_sorted (h : Sorted l) : Sorted (insertContent o l) := by
  induction l with
  | nil => exact List.pairwise_singleton ..
  | cons c next ih =>
      obtain ⟨hc, hnext⟩ := List.pairwise_cons.mp h
      unfold insertContent
      by_cases hlt : c.option > o.option
      · rw [if_pos hlt]
        refine List.pairwise_cons.mpr ⟨fun a ha => ?_, h⟩
        rcases List.mem_cons.mp ha with rfl | ha
        · exact UInt16.le_of_lt hlt
        · exact UInt16.le_trans (UInt16.le_of_lt hlt) (hc a ha)
      · rw [if_neg hlt]
        refine List.pairwise_cons.mpr ⟨fun a ha => ?_, ih hnext⟩
        rcases mem_insertContent.mp ha with ha | rfl
        · exact hc a ha
        · exact UInt16.not_lt.mp hlt

/-- Options of one type keep their order, and the new one comes behind them. -/
lemma insertContent_filter (h : Sorted l) (t : UInt16) :
    (insertContent o l).filter (·.option = t) = (l ++ [o]).filter (·.option = t) := by
  induction l with
  | nil => rfl
  | cons c next ih =>
      obtain ⟨hc, hnext⟩ := List.pairwise_cons.mp h
      unfold insertContent
      by_cases hlt : c.option > o.option
      · rw [if_pos hlt]
        by_cases ht : o.option = t
        · -- nothing behind has the type of the new option
          have hnone : (c :: next).filter (·.option = t) = [] := by
            refine List.filter_eq_nil_iff.mpr fun a ha => ?_
            have hle : c.option ≤ a.option := by
              rcases List.mem_cons.mp ha with rfl | ha
              · exact UInt16.le_refl _
              · exact hc a ha
            rw [decide_eq_true_eq]
            intro hat
            rw [hat, ← ht] at hle
            exact UInt16.not_lt.mpr hle hlt
          rw [List.filter_append, hnone, List.filter_cons_of_pos (by simpa using ht), hnone,
            List.filter_cons_of_pos (by simpa using ht)]
          rfl
        · have hone : [o].filter (·.option = t) = [] := List.filter_cons_of_neg (by simpa using ht)
          rw [List.filter_cons_of_neg (by simpa using ht), List.filter_append, hone, List.append_nil]
      · rw [if_neg hlt]
        rw [List.cons_append, List.filter_cons, List.filter_cons, ih hnext]

/-! ## Lists with an end -/

/-- Each `next` leads to the option behind it, and the last one nowhere. -/
def Linked : List HeaderOption → Prop
  | [] => True
  | [option] => option.next = .null
  | option :: options => option.next = .behind ∧ Linked options

lemma Linked.cons {a : HeaderOption} {options : List HeaderOption} (hnext : a.next = .behind)
    (hne : options ≠ []) (h : Linked options) : Linked (a :: options) := by
  cases options with
  | nil => exact absurd rfl hne
  | cons c options => exact ⟨hnext, h⟩

lemma insertOption_ne_nil {a : HeaderOption} {options : List HeaderOption} : insertOption a options ≠ [] := by
  cases options with
  | nil => nofun
  | cons c options =>
      unfold insertOption
      split_ifs <;> nofun

lemma Linked.insert {a : HeaderOption} {options : List HeaderOption} (h : Linked options) :
    Linked (insertOption a options) := by
  induction options with
  | nil => rfl
  | cons c options ih =>
      unfold insertOption
      by_cases hlt : c.option > a.option
      · rw [if_pos hlt]
        exact ⟨rfl, h⟩
      · rw [if_neg hlt]
        refine Linked.cons rfl insertOption_ne_nil (ih ?_)
        cases options with
        | nil => trivial
        | cons d options => exact h.2

/-- The list is followed to its end. -/
lemma Linked.follow {options : List HeaderOption} (h : Linked options) :
    followNext options = some (options.map (·.toOptionContent)) := by
  induction options with
  | nil => rfl
  | cons a options ih =>
      cases options with
      | nil =>
          have hnull : a.next = .null := h
          simp only [followNext, hnull]
          rfl
      | cons c options =>
          rw [followNext_behind h.1, ih h.2]
          rfl

lemma insertOption_content {a : HeaderOption} {options : List HeaderOption} :
    (insertOption a options).map (·.toOptionContent) =
      insertContent a.toOptionContent (options.map (·.toOptionContent)) := by
  induction options with
  | nil => rfl
  | cons c options ih =>
      unfold insertOption
      rw [List.map_cons, insertContent]
      by_cases hlt : c.option > a.option
      · rw [if_pos hlt, if_pos hlt]
        rfl
      · rw [if_neg hlt, if_neg hlt, List.map_cons, ih]

lemma optionArray_cons (next : ℕ → Next) (a : ParsedOption) (parsed : List ParsedOption) :
    optionArray next (a :: parsed) = ⟨a.toOptionContent, next 0⟩ :: optionArray (fun k => next (k + 1)) parsed :=
  List.mapIdx_cons

/-- An array of options that are linked but for the last one. -/
lemma followNext_optionArray {next : ℕ → Next} {parsed : List ParsedOption} (hne : parsed ≠ [])
    (hlinked : ∀ k, k + 1 < parsed.length → next k = .behind) :
    followNext (optionArray next parsed) =
      if next (parsed.length - 1) = .null then some (parsed.map (·.toOptionContent)) else none := by
  induction parsed generalizing next with
  | nil => exact absurd rfl hne
  | cons a parsed ih =>
      cases parsed with
      | nil =>
          rw [optionArray_cons]
          cases hlast : next 0 <;> simp [followNext, optionArray, hlast]
      | cons c parsed =>
          have hfirst : next 0 = .behind := hlinked 0 (by simp)
          have hrest := @ih (fun k => next (k + 1)) nofun fun k hk => hlinked (k + 1) (Nat.succ_lt_succ hk)
          have hbehind := @followNext_behind ⟨a.toOptionContent, next 0⟩ ⟨c.toOptionContent, next 1⟩
            (optionArray (fun k => next (k + 2)) parsed) hfirst
          rw [optionArray_cons] at hrest
          rw [optionArray_cons, optionArray_cons]
          refine hbehind.trans ?_
          rw [hrest]
          simp only [List.length_cons, Nat.add_sub_cancel]
          split_ifs <;> rfl

/-! ## Setting options -/

variable {sizeofOption : UInt16} {b b' : RestBuffer} {p p' : CoapPacket}

/-- The option that a call sets. -/
def SetOption.toContent (c : SetOption) : OptionContent :=
  ⟨c.optionType, c.len, copyBytes c.value 0 c.len.toNat, length_copyBytes ..⟩

lemma coapSetOption_ok {c : SetOption}
    (h : coapSetOption sizeofOption b p c.optionType c.len c.value = (b', p', true)) :
    p' = { p with options := insertOption ⟨c.toContent, .null⟩ p.options, optionCount := p.optionCount + 1 } := by
  unfold coapSetOption at h
  cases halloc : b.allocateBuffer (sizeofOption + c.len) with
  | none =>
      rw [halloc] at h
      cases h
  | some b₁ =>
      rw [halloc] at h
      cases h
      rfl

/-- What the options say, one after the other. -/
def CoapPacket.contents (p : CoapPacket) : List OptionContent := p.options.map (·.toOptionContent)

/-- The options after some calls, if there was memory for them. -/
structure AfterCalls (p p' : CoapPacket) (calls : List SetOption) : Prop where
  linked : Linked p'.options
  sorted : Sorted p'.contents
  perm : p'.contents.Perm (p.contents ++ calls.map (·.toContent))
  filter : ∀ t, p'.contents.filter (·.option = t) =
    (p.contents ++ calls.map (·.toContent)).filter (·.option = t)
  rest : ∃ options,
    p' = { p with options := options, optionCount := p.optionCount + UInt8.ofNat calls.length }

lemma setOptions_options {calls : List SetOption} (hlinked : Linked p.options) (hsorted : Sorted p.contents)
    (h : setOptions sizeofOption b p calls = (b', p', true)) : AfterCalls p p' calls := by
  induction calls generalizing b p with
  | nil =>
      cases h
      exact ⟨hlinked, hsorted, by rw [List.map_nil, List.append_nil], fun t => by rw [List.map_nil, List.append_nil],
        p'.options, by simp⟩
  | cons c calls ih =>
      unfold setOptions at h
      rcases hcall : coapSetOption sizeofOption b p c.optionType c.len c.value with ⟨b₁, p₁, ok⟩
      rcases hcalls : setOptions sizeofOption b₁ p₁ calls with ⟨b₂, p₂, ok'⟩
      rw [hcall] at h
      simp only [hcalls, Prod.mk.injEq, Bool.and_eq_true] at h
      obtain ⟨rfl, rfl, rfl, rfl⟩ := h
      obtain rfl := coapSetOption_ok hcall
      have hcontents : (insertOption ⟨c.toContent, .null⟩ p.options).map (·.toOptionContent) =
          insertContent c.toContent p.contents := insertOption_content
      have hinsertSorted := insertContent_sorted (o := c.toContent) hsorted
      rw [← hcontents] at hinsertSorted
      have hrec := ih (p := { p with
        options := insertOption ⟨c.toContent, .null⟩ p.options
        optionCount := p.optionCount + 1 }) hlinked.insert hinsertSorted hcalls
      obtain ⟨options, hrest⟩ := hrec.rest
      refine ⟨hrec.linked, hrec.sorted, ?_, fun t => ?_, options, ?_⟩
      · have hinsert := insertContent_perm (o := c.toContent) (l := p.contents)
        rw [← hcontents] at hinsert
        exact (hrec.perm.trans (hinsert.append_right _)).trans (by simp)
      · rw [hrec.filter, List.filter_append, List.map_cons, List.append_cons, List.filter_append,
          ← insertContent_filter hsorted, ← hcontents]
        rfl
      · rw [hrest]
        congr 1
        rw [List.length_cons, UInt8.ofNat_add, UInt8.add_comm (UInt8.ofNat calls.length), UInt8.add_assoc]
        rfl

/-! ## The options of a message -/

/-- The two halves of the first byte of an option. -/
lemma option_byte {d n : UInt8} (hd : d < 16) (hn : n < 16) :
    ((d <<< 4 ||| n) &&& 0xF0) >>> 4 = d ∧ (d <<< 4 ||| n) &&& 0x0F = n := by
  obtain ⟨hd', -⟩ := nibble_of_lt hd
  obtain ⟨hn', -⟩ := nibble_of_lt hn
  rw [← hd', ← hn']
  constructor
  · apply UInt8.eq_of_toBitVec_eq
    ext i hi
    interval_cases i <;> simp
  · apply UInt8.eq_of_toBitVec_eq
    ext i hi
    interval_cases i <;> simp

lemma delta_byte {d : UInt16} (hd : d < 16) : (d <<< 4).toUInt8 = d.toUInt8 <<< 4 ∧ d.toUInt8 < 16 ∧
    d.toUInt8.toUInt16 = d := by
  have hlt : d.toNat < 16 := hd
  refine ⟨?_, ?_, ?_⟩
  · apply UInt8.eq_of_toBitVec_eq
    ext i hi
    interval_cases i <;> simp
  · show d.toUInt8.toNat < 16
    rw [UInt16.toNat_toUInt8]
    omega
  · apply UInt16.toNat_inj.mp
    rw [UInt8.toNat_toUInt16, UInt16.toNat_toUInt8]
    omega

@[ext] lemma OptionContent.ext {a b : OptionContent} (ho : a.option = b.option) (hl : a.len = b.len)
    (hv : a.value = b.value) : a = b := by
  cases a
  cases b
  cases ho
  cases hl
  cases hv
  rfl

/-- One option is read. -/
lemma readOption_holds {buf : List UInt8} {i : ℕ} {prev : UInt16} (h : Holds (octet buf) i (optionBytes prev o))
    (hprev : prev ≤ o.option) (hoption : o.option ≤ 15) (hlen : o.len ≤ 270) :
    ((octet buf i &&& 0xF0) >>> 4).toUInt16 + prev = o.option ∧ (readLen buf i).1 = o.len ∧
      copyBytes (octet buf) (readLen buf i).2 o.len.toNat = o.value ∧
      (readLen buf i).2 + o.len.toNat = i + (optionBytes prev o).length := by
  have hdelta : o.option - prev < 16 := by
    have h15 : o.option.toNat ≤ 15 := hoption
    show (o.option - prev).toNat < 16
    rw [UInt16.toNat_sub_of_le _ _ hprev]
    omega
  obtain ⟨hshift, hsmall, hback⟩ := delta_byte hdelta
  have hsum : o.option - prev + prev = o.option := UInt16.sub_add_cancel ..
  have hbytes : optionBytes prev o =
      (if o.len < 0xF then [(o.option - prev).toUInt8 <<< 4 ||| o.len.toUInt8]
        else [(o.option - prev).toUInt8 <<< 4 ||| 0xF, (o.len - 0xF).toUInt8]) ++ o.value := by
    rw [← hshift]
    rfl
  rw [hbytes] at h ⊢
  unfold readLen
  have hvalue : o.value.length = o.len.toNat := o.length_value
  by_cases hshort : o.len < 0xF
  · rw [if_pos hshort] at h ⊢
    have hlt : o.len < 16 := UInt16.lt_trans hshort (by decide)
    obtain ⟨-, hsmall', hback'⟩ := delta_byte hlt
    obtain ⟨hhigh, hlow⟩ := option_byte hsmall hsmall'
    obtain ⟨hfirst, hrest⟩ := holds_append.mp h
    rw [hfirst.1, hhigh, hlow, hback, hback', if_neg (UInt16.ne_of_lt hshort)]
    refine ⟨hsum, rfl, ?_, ?_⟩
    · rw [← hvalue]
      exact hrest.copyBytes
    · rw [List.length_append, hvalue]
      simp only [List.length_cons, List.length_nil]
      omega
  · rw [if_neg hshort] at h ⊢
    obtain ⟨hhigh, hlow⟩ := option_byte hsmall (show (0xF : UInt8) < 16 by decide)
    obtain ⟨hfirst, hrest⟩ := holds_append.mp h
    have hlong : (0xF : UInt8).toUInt16 + (o.len - 0xF).toUInt8.toUInt16 = o.len := by
      have hlow : 15 ≤ o.len.toNat := Nat.not_lt.mp hshort
      have hhigh : o.len.toNat ≤ 270 := hlen
      apply UInt16.toNat_inj.mp
      rw [UInt16.toNat_add, UInt8.toNat_toUInt16, UInt8.toNat_toUInt16, UInt16.toNat_toUInt8,
        UInt16.toNat_sub_of_le _ _ (show (0xF : UInt16) ≤ o.len from hlow)]
      show (15 + (o.len.toNat - 15) % 2 ^ 8) % 2 ^ 16 = o.len.toNat
      omega
    have hform : (0xF : UInt8).toUInt16 = 0xf := rfl
    rw [hfirst.1, hhigh, hlow, hback, if_pos hform, hfirst.2.1, hlong]
    refine ⟨hsum, rfl, ?_, ?_⟩
    · rw [← hvalue]
      exact hrest.copyBytes
    · rw [List.length_append, hvalue]
      simp only [List.length_cons, List.length_nil]
      omega

/-- The options of a message are read as they were written. -/
lemma parseOptions_holds {buf : List UInt8} (l : List OptionContent) {i : ℕ} {prev : UInt16}
    (h : Holds (octet buf) i (optionsBytes prev l)) (hprev : ∀ o ∈ l, prev ≤ o.option) (hsorted : Sorted l)
    (hbound : ∀ o ∈ l, o.option ≤ 15 ∧ o.len ≤ 270) :
    (parseOptions buf l.length i prev).1.map (·.toOptionContent) = l ∧
      (parseOptions buf l.length i prev).2 = i + (optionsBytes prev l).length := by
  induction l generalizing i prev with
  | nil => exact ⟨rfl, rfl⟩
  | cons o l ih =>
      obtain ⟨ho, hl⟩ := List.pairwise_cons.mp hsorted
      obtain ⟨hoption, hlen⟩ := hbound o List.mem_cons_self
      obtain ⟨hleft, hright⟩ := holds_append.mp h
      obtain ⟨htype, hread, hvalue, hnext⟩ := readOption_holds hleft (hprev o List.mem_cons_self) hoption hlen
      rw [← hnext] at hright
      obtain ⟨hmap, hend⟩ := ih hright ho hl fun a ha => hbound a (List.mem_cons_of_mem _ ha)
      rw [List.length_cons]
      unfold parseOptions
      simp only [htype, hread]
      constructor
      · rw [List.map_cons, hmap]
        congr 1
        exact OptionContent.ext rfl rfl hvalue
      · rw [hend, hnext]
        show _ = i + (optionBytes prev o ++ optionsBytes o.option l).length
        rw [List.length_append, Nat.add_assoc]

/-! ## The whole message -/

/-- The fields of a packet other than the shortcuts to URL and query. -/
structure SameMessage (p q : CoapPacket) : Prop where
  ver : q.ver = p.ver
  type : q.type = p.type
  code : q.code = p.code
  tid : q.tid = p.tid
  options : q.options = p.options
  payload : q.payload = p.payload
  payloadLen : q.payloadLen = p.payloadLen

lemma SameMessage.refl (p : CoapPacket) : SameMessage p p := ⟨rfl, rfl, rfl, rfl, rfl, rfl, rfl⟩

lemma SameMessage.trans {q r : CoapPacket} (h : SameMessage p q) (h' : SameMessage q r) : SameMessage p r :=
  ⟨h'.ver.trans h.ver, h'.type.trans h.type, h'.code.trans h.code, h'.tid.trans h.tid,
    h'.options.trans h.options, h'.payload.trans h.payload, h'.payloadLen.trans h.payloadLen⟩

lemma noteOption_same (option : ParsedOption) : SameMessage p (noteOption p option) := by
  unfold noteOption
  split_ifs <;> exact ⟨rfl, rfl, rfl, rfl, rfl, rfl, rfl⟩

lemma foldl_noteOption_same (options : List ParsedOption) : SameMessage p (options.foldl noteOption p) := by
  induction options generalizing p with
  | nil => exact .refl p
  | cons option options ih => exact (noteOption_same option).trans ih

lemma splitUrl_same (buf : List UInt8) : SameMessage p (splitUrl buf p) := by
  unfold splitUrl
  split
  · split
    · exact .refl p
    · exact ⟨rfl, rfl, rfl, rfl, rfl, rfl, rfl⟩
  · exact .refl p

/-- The three fields of the first byte of a message. -/
lemma header_byte {ver type count : UInt8} (hver : ver < 4) (htype : type < 4) (hcount : count < 16) :
    ((ver <<< 6 ||| type <<< 4 ||| count) &&& 0xC0) >>> 6 = ver ∧
      ((ver <<< 6 ||| type <<< 4 ||| count) &&& 0x30) >>> 4 = type ∧
      (ver <<< 6 ||| type <<< 4 ||| count) &&& 0x0F = count := by
  rw [← and_mask_of_lt 2 (show (3 : UInt8).toNat = _ from rfl) hver,
    ← and_mask_of_lt 2 (show (3 : UInt8).toNat = _ from rfl) htype,
    ← and_mask_of_lt 4 (show (0x0F : UInt8).toNat = _ from rfl) hcount]
  refine ⟨?_, ?_, ?_⟩
  all_goals
    apply UInt8.eq_of_toBitVec_eq
    ext i hi
    interval_cases i <;> simp

/-- The payload that is taken from a message, behind its options. -/
lemma payload_of_holds {buf l : List UInt8} {processed : ℕ} {size : UInt16} {q : CoapPacket}
    (h : Holds (octet buf) processed l) (hsize : size.toNat = processed + l.length)
    (hpayload : q.payload = none) :
    (withPayload buf size q processed).payloadBytes = l := by
  have hlt := size.toNat_lt
  unfold withPayload
  by_cases hbehind : processed < size.toNat
  · rw [if_pos hbehind]
    have hlen : (UInt16.ofNat (size.toNat - processed)).toNat = l.length := by
      rw [UInt16.toNat_ofNat_of_lt' (by rw [UInt16.size]; omega)]
      omega
    show copyBytes (fun k => octet buf (processed + k)) 0 (UInt16.ofNat (size.toNat - processed)).toNat = l
    rw [hlen]
    exact Eq.trans (copyBytes_congr fun k _ => by rw [Nat.zero_add]) h.copyBytes
  · rw [if_neg hbehind, CoapPacket.payloadBytes, hpayload]
    exact (List.length_eq_zero_iff.mp (by omega)).symm

lemma withPayload_rest (buf : List UInt8) (size : UInt16) (q : CoapPacket) (processed : ℕ) :
    ∃ payload payloadLen,
      withPayload buf size q processed = { q with payload := payload, payloadLen := payloadLen } := by
  unfold withPayload
  split_ifs
  · exact ⟨_, _, rfl⟩
  · exact ⟨q.payload, q.payloadLen, rfl⟩

/-- The packet that is parsed, if there is memory for its options. -/
lemma parseMessage_same (memory : ℕ → Next) (buf : List UInt8) (size : UInt16)
    (halloc : (parseHeader buf).optionCount ≠ 0 →
      ∃ b₁, b.allocateBuffer (sizeofOption * (parseHeader buf).optionCount.toUInt16) = some b₁) :
    let count := (parseHeader buf).optionCount.toNat
    let parsed := parseOptions buf count 4 0
    ∃ q, SameMessage { parseHeader buf with options := optionArray (linkOptions count memory) parsed.1 } q ∧
      SameMessage (withPayload buf size q parsed.2) (parseMessage sizeofOption b memory buf size).2.2 := by
  unfold parseMessage
  by_cases hzero : (parseHeader buf).optionCount ≠ 0
  · obtain ⟨b₁, hb₁⟩ := halloc hzero
    simp only [hb₁, if_pos hzero]
    exact ⟨_, foldl_noteOption_same _, splitUrl_same buf⟩
  · simp only [if_neg hzero]
    rw [not_not.mp hzero]
    exact ⟨parseHeader buf, ⟨rfl, rfl, rfl, rfl, rfl, rfl, rfl⟩, splitUrl_same buf⟩

/-- The list of the options that were parsed has an end if the memory for the last one held `NULL`. -/
lemma followNext_parsed (memory : ℕ → Next) {parsed : List ParsedOption} {count : ℕ}
    (hcount : parsed.length = count) :
    followNext (optionArray (linkOptions count memory) parsed) =
      if count = 0 ∨ memory (count - 1) = .null then some (parsed.map (·.toOptionContent)) else none := by
  by_cases hnil : parsed = []
  · subst hnil
    rw [if_pos (.inl hcount.symm)]
    rfl
  have hpos : 0 < count := hcount ▸ List.length_pos_iff.mpr hnil
  have hlast : linkOptions count memory (count - 1) = memory (count - 1) := by
    unfold linkOptions
    rw [if_neg (by omega), if_neg (by omega)]
  have hlinked : ∀ k, k + 1 < parsed.length → linkOptions count memory k = .behind :=
    fun k hk => if_pos (by omega)
  rw [followNext_optionArray hnil hlinked, hcount, hlast]
  simp only [Nat.ne_of_gt hpos, false_or]

/-- A message whose options are sorted, and short enough, is parsed to the packet, if the list has an end. -/
lemma parseMessage_holds (memory : ℕ → Next) {buf : List UInt8} {size : UInt16}
    (hbuf : Holds (octet buf) 0 (messageBytes p l)) (hsize : size.toNat = (messageBytes p l).length)
    (hver : p.ver < 4) (htype : p.type < 4) (hcount : p.optionCount.toNat = l.length) (hfew : l.length ≤ 15)
    (hsorted : Sorted l) (hbound : ∀ o ∈ l, o.option ≤ 15 ∧ o.len ≤ 270)
    (halloc : p.optionCount ≠ 0 →
      ∃ b₁, b.allocateBuffer (sizeofOption * p.optionCount.toUInt16) = some b₁) :
    let q := (parseMessage sizeofOption b memory buf size).2.2
    q.ver = p.ver ∧ q.type = p.type ∧ q.code = p.code ∧ q.tid = p.tid ∧ q.payloadBytes = p.payloadBytes ∧
      q.optionList = if l.length = 0 ∨ memory (l.length - 1) = .null then some l else none := by
  have hsmall : p.optionCount < 16 := by
    show p.optionCount.toNat < 16
    omega
  obtain ⟨hmessage, hpayload⟩ := holds_append.mp hbuf
  obtain ⟨hheader, hbehind⟩ := holds_append.mp hmessage
  have hoptions : Holds (octet buf) 4 (optionsBytes 0 l) := hbehind
  obtain ⟨hbyte, hcode, hhigh, hlow, -⟩ := hheader
  obtain ⟨hbyteVer, hbyteType, hbyteCount⟩ := header_byte hver htype hsmall
  have hparsed : parseHeader buf = { initPacket with
      ver := p.ver, type := p.type, optionCount := p.optionCount, code := p.code, tid := p.tid } := by
    have htid := word16_add_of_bytes p.tid
    rw [UInt16.add_comm] at htid
    unfold parseHeader
    rw [hbyte, hbyteVer, hbyteType, hbyteCount, hcode, hhigh, hlow, htid]
  obtain ⟨hmap, hend⟩ := parseOptions_holds l hoptions (fun o _ => UInt16.zero_le) hsorted hbound
  have hcountParsed : (parseHeader buf).optionCount = p.optionCount := by rw [hparsed]
  have hsame := parseMessage_same (b := b) memory buf size (by rwa [hcountParsed])
  rw [hcountParsed, hcount] at hsame
  obtain ⟨r, hr, hq⟩ := hsame
  obtain ⟨payload, payloadLen, hrest⟩ := withPayload_rest buf size r (parseOptions buf l.length 4 0).2
  have hbytes : (withPayload buf size r (parseOptions buf l.length 4 0).2).payloadBytes = p.payloadBytes := by
    have hlength : (messageBytes p l).length = 4 + (optionsBytes 0 l).length + p.payloadBytes.length := by
      simp only [messageBytes, wordBytes, List.length_append, List.length_cons, List.length_nil]
    have hplace : 0 + ([p.ver <<< 6 ||| p.type <<< 4 ||| p.optionCount, p.code] ++ wordBytes p.tid ++
        optionsBytes 0 l).length = 4 + (optionsBytes 0 l).length := by
      simp only [wordBytes, List.length_append, List.length_cons, List.length_nil]
      omega
    rw [hplace, ← hend] at hpayload
    refine payload_of_holds hpayload ?_ ?_
    · rw [hend, hsize, hlength]
    · rw [hr.payload, hparsed]
      rfl
  rw [hrest] at hq hbytes
  rw [hparsed] at hr
  have hlist : (parseMessage sizeofOption b memory buf size).2.2.optionList =
      if l.length = 0 ∨ memory (l.length - 1) = .null then some l else none := by
    have hlen := congrArg List.length hmap
    rw [List.length_map] at hlen
    have hfollow := followNext_parsed memory hlen
    rw [hmap] at hfollow
    unfold CoapPacket.optionList
    rw [hq.options, hr.options]
    exact hfollow
  refine ⟨hq.ver.trans hr.ver, hq.type.trans hr.type, hq.code.trans hr.code, hq.tid.trans hr.tid, ?_, hlist⟩
  rw [← hbytes]
  unfold CoapPacket.payloadBytes
  rw [hq.payload, hq.payloadLen]

/-! ## The round trip -/

/-- What an option says: its type, its length and its value. -/
def OptionContent.view (o : OptionContent) : UInt16 × UInt16 × List UInt8 := (o.option, o.len, o.value)

/-- The packet's options are those that were set, sorted by their type, those of one type in the order in
which they were set. -/
def OptionsBack (calls : List SetOption) (q : CoapPacket) : Prop :=
  let set := calls.map fun c => (c.optionType, c.len, copyBytes c.value 0 c.len.toNat)
  ∃ options, q.optionList = some options ∧
    (options.map (·.view)).Perm set ∧ (options.map (·.view)).Pairwise (fun a b => a.1 ≤ b.1) ∧
    ∀ t, (options.map (·.view)).filter (·.1 = t) = set.filter (·.1 = t)

/-- A packet comes back: its fields and its payload, and the options that were set if the memory for the last
one held `NULL`. -/
theorem parseMessage_serializePacket (sizeofOption : UInt16) (b b' b₂ : RestBuffer) (memory : ℕ → Next)
    (p p' : CoapPacket) (calls : List SetOption) (behind : List UInt8)
    (hver : p.ver < 4) (htype : p.type < 4) (hnone : p.options = []) (hzero : p.optionCount = 0)
    (hfew : calls.length ≤ 15) (hbound : ∀ c ∈ calls, c.optionType ≤ 15 ∧ c.len ≤ 270)
    (hset : setOptions sizeofOption b p calls = (b', p', true))
    (halloc : calls ≠ [] → b₂.allocateBuffer (sizeofOption * UInt16.ofNat calls.length) ≠ none) :
    ∃ bytes, serializePacket p' = some bytes ∧ ∀ size : UInt16, size.toNat = bytes.length →
      let q := (parseMessage sizeofOption b₂ memory (bytes ++ behind) size).2.2
      (q.ver = p.ver ∧ q.type = p.type ∧ q.code = p.code ∧ q.tid = p.tid ∧ q.payloadBytes = p.payloadBytes) ∧
        (OptionsBack calls q ↔ calls = [] ∨ memory (calls.length - 1) = .null) := by
  have hempty : p.contents = [] := by
    unfold CoapPacket.contents
    rw [hnone]
    rfl
  have hcalls := setOptions_options (by rw [hnone]; trivial) (by rw [hempty]; exact List.Pairwise.nil) hset
  have hperm := hcalls.perm
  have hfilter := hcalls.filter
  rw [hempty, List.nil_append] at hperm
  simp only [hempty, List.nil_append] at hfilter
  obtain ⟨options, hrest⟩ := hcalls.rest
  have hlength : p'.contents.length = calls.length := by rw [hperm.length_eq, List.length_map]
  have hcount : p'.optionCount = UInt8.ofNat calls.length := by rw [hrest, hzero, UInt8.zero_add]
  have hcountNat : p'.optionCount.toNat = calls.length := by
    rw [hcount, UInt8.toNat_ofNat_of_lt' (by rw [UInt8.size]; omega)]
  have hcount16 : p'.optionCount.toUInt16 = UInt16.ofNat calls.length := by
    apply UInt16.toNat_inj.mp
    rw [UInt8.toNat_toUInt16, hcountNat, UInt16.toNat_ofNat_of_lt' (by rw [UInt16.size]; omega)]
  have hoptions : ∀ o ∈ p'.contents, o.option ≤ 15 ∧ o.len ≤ 270 := by
    intro o ho
    obtain ⟨c, hc, rfl⟩ := List.mem_map.mp (hperm.mem_iff.mp ho)
    exact hbound c hc
  have hroom : p'.optionCount ≠ 0 →
      ∃ b₁, b₂.allocateBuffer (sizeofOption * p'.optionCount.toUInt16) = some b₁ := by
    intro hne
    rw [hcount16]
    refine Option.ne_none_iff_exists'.mp (halloc fun hnil => hne ?_)
    rw [hcount, hnil]
    rfl
  have hserialized : serializePacket p' = some (messageBytes p' p'.contents) := by
    unfold serializePacket CoapPacket.optionList
    rw [hcalls.linked.follow]
    rfl
  refine ⟨_, hserialized, fun size hsize => ?_⟩
  have hbuf : Holds (octet (messageBytes p' p'.contents ++ behind)) 0 (messageBytes p' p'.contents) :=
    (holds_append.mp (holds_getD (messageBytes p' p'.contents ++ behind) 0)).1
  obtain ⟨hq₁, hq₂, hq₃, hq₄, hq₅, hq₆⟩ := parseMessage_holds (b := b₂) memory hbuf hsize
    (by rwa [hrest]) (by rwa [hrest]) (hcountNat.trans hlength.symm) (hlength.trans_le hfew) hcalls.sorted hoptions
    hroom
  simp only [hlength, List.length_eq_zero_iff] at hq₆
  refine ⟨⟨by rw [hq₁, hrest], by rw [hq₂, hrest], by rw [hq₃, hrest], by rw [hq₄, hrest], ?_⟩, fun hback => ?_,
    fun hend => ?_⟩
  · rw [hq₅, hrest]
    rfl
  · obtain ⟨got, hgot, -⟩ := hback
    by_contra hopen
    rw [hq₆, if_neg hopen] at hgot
    cases hgot
  · have hviews : (calls.map fun c => (c.optionType, c.len, copyBytes c.value 0 c.len.toNat)) =
        (calls.map (·.toContent)).map (·.view) := by
      rw [List.map_map]
      rfl
    unfold OptionsBack
    rw [hviews]
    refine ⟨p'.contents, hq₆.trans (if_pos hend), hperm.map _, List.pairwise_map.mpr hcalls.sorted, fun t => ?_⟩
    rw [List.filter_map, List.filter_map]
    exact congrArg (List.map (·.view)) (hfilter t)

/-- A request with a token and a path of two parts, one of them long. -/
def requestOptions : List SetOption :=
  [⟨11, 2, fun k => UInt8.ofNat (k + 1)⟩, ⟨9, 16, fun _ => 0x61⟩, ⟨9, 1, fun _ => 0x62⟩]

/-- A request before its options are set. -/
def requestPacket : CoapPacket :=
  { initPacket with
    code := 1
    tid := 0x1234
    payload := some fun k => UInt8.ofNat k
    payloadLen := 3 }

/-- What is parsed of the request, in memory that held `NULL` or not. -/
def requestParsed (held : Next) : CoapPacket :=
  (parseMessage 8 ⟨100, 0⟩ (fun _ => held)
    ((serializePacket (setOptions 8 ⟨100, 0⟩ requestPacket requestOptions).2.1).getD [] ++ []) 30).2.2

theorem parseMessage_serializePacket_request :
    OptionsBack requestOptions (requestParsed .null) ∧ ¬OptionsBack requestOptions (requestParsed .elsewhere) ∧
      (requestParsed .elsewhere).tid = 0x1234 := by
  have hrequest := fun held => parseMessage_serializePacket 8 ⟨100, 0⟩
    (setOptions 8 ⟨100, 0⟩ requestPacket requestOptions).1 ⟨100, 0⟩ (fun _ => held) requestPacket
    (setOptions 8 ⟨100, 0⟩ requestPacket requestOptions).2.1 requestOptions [] (by decide) (by decide) rfl rfl
    (by decide) (by decide) rfl (fun _ h => by cases h)
  have hparsed : ∀ held, (requestParsed held).tid = 0x1234 ∧
      (OptionsBack requestOptions (requestParsed held) ↔ requestOptions = [] ∨ held = .null) := by
    intro held
    obtain ⟨bytes, hbytes, hsize⟩ := hrequest held
    have hback := hsize 30 (by rw [← Option.some_inj.mp ((rfl : serializePacket _ = some _).symm.trans hbytes)]; rfl)
    unfold requestParsed
    rw [hbytes]
    exact ⟨hback.1.2.2.2.1, hback.2⟩
  refine ⟨(hparsed .null).2.mpr (.inr rfl), fun h => ?_, (hparsed .elsewhere).1⟩
  rcases (hparsed .elsewhere).2.mp h with hnil | hheld
  · cases hnil
  · cases hheld

/-- A request for the path `a`. -/
def pathMessage : List UInt8 := [0x41, 1, 0, 7, 0x91, 0x61]

/-- The one option of the request is not the last one of the list that is parsed. -/
theorem not_optionsBack :
    serializePacket (setOptions 8 ⟨100, 0⟩ { initPacket with code := 1, tid := 7 } [⟨9, 1, fun _ => 0x61⟩]).2.1 =
        some pathMessage ∧
      ¬OptionsBack [⟨9, 1, fun _ => 0x61⟩] (parseMessage 8 ⟨100, 0⟩ (fun _ => .elsewhere) pathMessage 6).2.2 := by
  refine ⟨by decide, fun hback => ?_⟩
  obtain ⟨options, hlist, -⟩ := hback
  have hopen : (parseMessage 8 ⟨100, 0⟩ (fun _ => .elsewhere) pathMessage 6).2.2.optionList = none := rfl
  rw [hopen] at hlist
  cases hlist

end Coap
end Contiki

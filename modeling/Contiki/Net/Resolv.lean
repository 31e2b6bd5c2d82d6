import Contiki.Lib.Buffer
import Contiki.Lib.Reads

/-!
# The answers of a name server

The resolver's walk over a message of a name server, with every access to the memory made explicit.

* `Resolv.newdata` — the name in the question is skipped and the records behind it are walked up to the first
  address.
* `Resolv.NameEnd`, `Resolv.QuestionsEnd`, `Resolv.FirstAddress` — the borders of names, questions and records, by
  the format of a message.
* `Resolv.newdata_answers_iff` — for which messages the walk keeps to the message and its borders and takes the
  first address announced.
-/

namespace Contiki
namespace Resolv

open Reads

/-- The state of an entry of the table of names. -/
inductive NameState
  | unused | new | asking | done | error
deriving DecidableEq

/-- An entry of the table of names. -/
structure Namemap where
  state : NameState
  err : UInt8
  name : List UInt8
  ipaddr : List UInt8
deriving DecidableEq

/-- What a message leads to: the table, the call of `resolv_found` and where the records were taken to start and
their names to end. -/
structure Outcome where
  names : List Namemap
  found : Option (List UInt8 × Option (List UInt8))
  visited : List (ℕ × ℕ)

/-- The address that is stored and reported. -/
def Outcome.address (o : Outcome) : Option (List UInt8) := o.found.bind (·.2)

/-! ## The walk -/

/-- A word in network byte order. -/
def readWord (pos : ℕ) : Reads ℕ UInt8 ℕ := do
  let high ← read pos
  let low ← read (pos + 1)
  pure (high.toNat * 256 + low.toNat)

/-- `parse_name`, in a memory of `room` octets. -/
def parseName : (room query : ℕ) → Reads ℕ UInt8 (Option ℕ)
  | 0, _ => pure none
  | room + 1, query => do
    let n ← read query
    let next ← read (query + 1 + n.toNat)
    if next = 0 then pure (some (query + 1 + n.toNat + 1)) else parseName room (query + 1 + n.toNat)

/-- A record starts with a compressed name or a normal one. -/
def skipOwner (room nameptr : ℕ) : Reads ℕ UInt8 (Option ℕ) := do
  let first ← read nameptr
  if first &&& 0xc0 ≠ 0 then pure (some (nameptr + 2)) else parseName room nameptr

/-- Check for IP address type and Internet class. -/
def checkAddress (ans : ℕ) : Reads ℕ UInt8 Bool := do
  let type ← readWord ans
  if type = 1 then do
    let cls ← readWord (ans + 2)
    if cls = 1 then do
      let len ← readWord (ans + 8)
      pure (decide (len = 4))
    else pure false
  else pure false

/-- The rest of a record, behind its name: an address, or the start of the next record. -/
def readAnswer (ans : ℕ) : Reads ℕ UInt8 (List UInt8 ⊕ ℕ) := do
  let isAddress ← checkAddress ans
  if isAddress = true then do
    let ipaddr ← readRange (ans + 10) 4
    pure (.inl ipaddr)
  else do
    let len ← readWord (ans + 8)
    pure (.inr (ans + 10 + len))

/-- The loop over the answers. -/
def walkAnswers (room : ℕ) : (nanswers nameptr : ℕ) → Reads ℕ UInt8 (List (ℕ × ℕ) × Option (List UInt8))
  | 0, _ => pure ([], none)
  | nanswers + 1, nameptr => do
    let owner ← skipOwner room nameptr
    match owner with
    | none => pure ([], none)
    | some ans => do
      let rest ← readAnswer ans
      match rest with
      | .inl ipaddr => pure ([(nameptr, ans)], some ipaddr)
      | .inr next => do
        let r ← walkAnswers room nanswers next
        pure ((nameptr, ans) :: r.1, r.2)

/-- What is left of the loop in the table, and what is reported. -/
def finish (names : List Namemap) (i : ℕ) (entry : Namemap) (visited : List (ℕ × ℕ)) :
    Option (List UInt8) → Outcome
  | none => ⟨names.set i entry, none, visited⟩
  | some ipaddr => ⟨names.set i { entry with ipaddr := ipaddr }, some (entry.name, some ipaddr), visited⟩

/-- A message for an entry that is being asked for. -/
def answered (room : ℕ) (names : List Namemap) (i : ℕ) (entry : Namemap) : Reads ℕ UInt8 Outcome := do
  let flags2 ← read 3
  let err := flags2 &&& 0x0f
  if err ≠ 0 then
    pure ⟨names.set i { entry with state := .error, err := err }, some (entry.name, none), []⟩
  else do
    let _nquestions ← readWord 4
    let numanswers ← readWord 6
    let question ← parseName room 12
    match question with
    | none => pure (finish names i { entry with state := .done, err := err } [] none)
    | some nameEnd => do
      let r ← walkAnswers room (numanswers % 256) (nameEnd + 4)
      pure (finish names i { entry with state := .done, err := err } r.1 r.2)

/-- `newdata`.  The places are counted from `uip_appdata`. -/
def newdata (room : ℕ) (names : List Namemap) : Reads ℕ UInt8 Outcome := do
  let id ← readWord 0
  match names[id % 256]? with
  | none => pure ⟨names, none, []⟩
  | some entry =>
    if entry.state = .asking then answered room names (id % 256) entry else pure ⟨names, none, []⟩

/-! ## The format of a message -/

section format
variable (mem : ℕ → UInt8)

/-- The word at a place of the message. -/
def word (pos : ℕ) : ℕ := (mem pos).toNat * 256 + (mem (pos + 1)).toNat

/-- A name from `pos` on ends ahead of `stop`: it is the root, a pointer, or a label with a name behind it. -/
inductive NameEnd : (pos stop : ℕ) → Prop
  | root {pos} (hroot : (mem pos).toNat = 0) : NameEnd pos (pos + 1)
  | pointer {pos} (hpointer : 192 ≤ (mem pos).toNat) : NameEnd pos (pos + 2)
  | label {pos stop} (hpos : 0 < (mem pos).toNat) (hlabel : (mem pos).toNat < 64)
      (hrest : NameEnd (pos + 1 + (mem pos).toNat) stop) : NameEnd pos stop

/-- A legal name starts here. -/
def Legal (pos : ℕ) : Prop := ∃ stop, NameEnd mem pos stop

/-- A name of one or more labels that ends in the root starts here. -/
inductive PlainName : (pos : ℕ) → Prop
  | last {pos} (hpos : 0 < (mem pos).toNat) (hlabel : (mem pos).toNat < 64)
      (hroot : mem (pos + 1 + (mem pos).toNat) = 0) : PlainName pos
  | more {pos} (hpos : 0 < (mem pos).toNat) (hlabel : (mem pos).toNat < 64)
      (hrest : PlainName (pos + 1 + (mem pos).toNat)) : PlainName pos

/-- The questions from `pos` on end ahead of `stop`. -/
inductive QuestionsEnd : (nquestions pos stop : ℕ) → Prop
  | none {pos} : QuestionsEnd 0 pos pos
  | next {nquestions pos mid stop} (hname : NameEnd mem pos mid) (hrest : QuestionsEnd nquestions (mid + 4) stop) :
      QuestionsEnd (nquestions + 1) pos stop

/-- An A record of the Internet, of length four, goes on here behind its name. -/
def IsAddress (ans : ℕ) : Prop := word mem ans = 1 ∧ word mem (ans + 2) = 1 ∧ word mem (ans + 8) = 4

instance (ans : ℕ) : Decidable (IsAddress mem ans) := inferInstanceAs (Decidable (_ ∧ _ ∧ _))

/-- Where the record behind this one starts. -/
def nextRecord (ans : ℕ) : ℕ := ans + 10 + word mem (ans + 8)

/-- The data of an A record. -/
def addressAt (ans : ℕ) : List UInt8 := (List.range 4).map fun k => mem (ans + 10 + k)

/-- Records are walked along their borders from `pos` on, as far as their names are legal. -/
inductive Borders : (pos : ℕ) → (visited : List (ℕ × ℕ)) → Prop
  | nil {pos} : Borders pos []
  | cons {pos ans visited} (hname : NameEnd mem pos ans) (hrest : Borders (nextRecord mem ans) visited) :
      Borders pos ((pos, ans) :: visited)
  | illegal {pos ans visited} (hname : ¬ Legal mem pos) : Borders pos ((pos, ans) :: visited)

/-- The first address that lies in the first `size` octets, among the records from `pos` on. -/
inductive FirstAddress (size : ℕ) : (count pos : ℕ) → (ipaddr : List UInt8) → Prop
  | here {count pos ans} (hname : NameEnd mem pos ans) (haddress : IsAddress mem ans) (hin : ans + 14 ≤ size) :
      FirstAddress size (count + 1) pos (addressAt mem ans)
  | later {count pos ans ipaddr} (hname : NameEnd mem pos ans) (hother : ¬ (IsAddress mem ans ∧ ans + 14 ≤ size))
      (hrest : FirstAddress size count (nextRecord mem ans) ipaddr) : FirstAddress size (count + 1) pos ipaddr

/-- What a message of `size` octets is promised: only the message is read, the records are walked along their borders,
and the address stored is the first among those announced. -/
structure Answers (size room i : ℕ) (names : List Namemap) (entry : Namemap) : Prop where
  reads : (newdata room names).Within mem (· < size)
  borders : ∀ start, QuestionsEnd mem (word mem 4) 12 start → Borders mem start ((newdata room names).run mem).visited
  address : ∀ ipaddr, ((newdata room names).run mem).address = some ipaddr ↔ mem 3 &&& 0x0f = 0 ∧
    ∃ start, QuestionsEnd mem (word mem 4) 12 start ∧ FirstAddress mem size (word mem 6) start ipaddr
  stored : (((newdata room names).run mem).names[i]?).map (·.ipaddr) =
    some (((newdata room names).run mem).address.getD entry.ipaddr)

/-! ## What the walk needs of a message -/

/-- From `pos` on, octets taken for lengths lead to a zero ahead of `stop`. -/
inductive LengthsEnd : (pos stop : ℕ) → Prop
  | last {pos} (hzero : mem (pos + 1 + (mem pos).toNat) = 0) : LengthsEnd pos (pos + 1 + (mem pos).toNat + 1)
  | more {pos stop} (hnext : mem (pos + 1 + (mem pos).toNat) ≠ 0) (hrest : LengthsEnd (pos + 1 + (mem pos).toNat) stop) :
      LengthsEnd pos stop

/-- The owner of a record is skipped as two octets if one of the upper two bits is set, else as lengths. -/
def OwnerEnd (pos ans : ℕ) : Prop :=
  (64 ≤ (mem pos).toNat ∧ ans = pos + 2) ∨ ((mem pos).toNat < 64 ∧ LengthsEnd mem pos ans)

/-- The records from `pos` on fit into the message, up to the first address.  As long as the borders are known, legal
owners are pointers or plain names; behind an illegal one there is no address. -/
def AnswersFit (size : ℕ) : (known : Prop) → (count pos : ℕ) → Prop
  | _, 0, _ => True
  | known, count + 1, pos => ∃ ans, OwnerEnd mem pos ans ∧ ans + 10 ≤ size ∧
    (known → Legal mem pos → 192 ≤ (mem pos).toNat ∨ PlainName mem pos) ∧
    if IsAddress mem ans then ans + 14 ≤ size ∧ known ∧ Legal mem pos
    else AnswersFit size (known ∧ Legal mem pos) count (nextRecord mem ans)

/-- The condition: the name at twelve ends the questions, the records fit, and the address is not behind as many
records as an octet counts. -/
def MessageFits (size : ℕ) : Prop :=
  4 ≤ size ∧ (mem 3 &&& 0x0f = 0 → ∃ stop, LengthsEnd mem 12 stop ∧ stop ≤ size ∧
    (∀ start, QuestionsEnd mem (word mem 4) 12 start → word mem 6 % 256 ≠ 0 → start = stop + 4) ∧
    AnswersFit mem size (∃ start, QuestionsEnd mem (word mem 4) 12 start) (word mem 6 % 256) (stop + 4) ∧
    ∀ start ipaddr, QuestionsEnd mem (word mem 4) 12 start → FirstAddress mem size (word mem 6) start ipaddr →
      FirstAddress mem size (word mem 6 % 256) start ipaddr)

end format

variable {mem : ℕ → UInt8} {size room : ℕ}

/-! ## Names -/

lemma lengthsEnd_lt {pos stop : ℕ} (h : LengthsEnd mem pos stop) : pos + 1 < stop := by
  induction h with
  | last hzero => omega
  | more hnext hrest ih => omega

lemma lengthsEnd_unique {pos stop stop' : ℕ} (h : LengthsEnd mem pos stop) (h' : LengthsEnd mem pos stop') :
    stop = stop' := by
  induction h with
  | last hzero =>
    cases h' with
    | last hzero' => rfl
    | more hnext' hrest' => exact absurd hzero hnext'
  | more hnext hrest ih =>
    cases h' with
    | last hzero' => exact absurd hzero' hnext
    | more hnext' hrest' => exact ih hrest'

lemma nameEnd_unique {pos stop stop' : ℕ} (h : NameEnd mem pos stop) (h' : NameEnd mem pos stop') : stop = stop' := by
  induction h with
  | root hroot =>
    cases h' with
    | root hroot' => rfl
    | pointer hpointer' => omega
    | label hpos' hlabel' hrest' => omega
  | pointer hpointer =>
    cases h' with
    | root hroot' => omega
    | pointer hpointer' => rfl
    | label hpos' hlabel' hrest' => omega
  | label hpos hlabel hrest ih =>
    cases h' with
    | root hroot' => omega
    | pointer hpointer' => omega
    | label hpos' hlabel' hrest' => exact ih hrest'

lemma toNat_eq_zero {x : UInt8} : x.toNat = 0 ↔ x = 0 := by
  rw [← UInt8.toNat_inj]
  rfl

/-- A plain name is what the walk over lengths skips rightly. -/
lemma nameEnd_iff_plainName {pos stop : ℕ} (h : LengthsEnd mem pos stop) : NameEnd mem pos stop ↔ PlainName mem pos := by
  induction h with
  | @last pos hzero =>
    constructor
    · intro hname
      generalize hstop : pos + 1 + (mem pos).toNat + 1 = stop at hname
      cases hname with
      | root hroot => omega
      | pointer hpointer => omega
      | label hpos hlabel hrest => exact .last hpos hlabel hzero
    · intro hplain
      have hroot : NameEnd mem (pos + 1 + (mem pos).toNat) (pos + 1 + (mem pos).toNat + 1) :=
        .root (toNat_eq_zero.mpr hzero)
      cases hplain with
      | last hpos hlabel _ => exact .label hpos hlabel hroot
      | more hpos hlabel _ => exact .label hpos hlabel hroot
  | @more pos stop hnext hrest ih =>
    have hlt := lengthsEnd_lt hrest
    constructor
    · intro hname
      cases hname with
      | root hroot => omega
      | pointer hpointer => omega
      | label hpos hlabel hname => exact .more hpos hlabel (ih.mp hname)
    · intro hplain
      cases hplain with
      | last hpos hlabel hroot => exact absurd hroot hnext
      | more hpos hlabel hplain => exact .label hpos hlabel (ih.mpr hplain)

/-- The owners whose end is found are the pointers and the plain names. -/
lemma nameEnd_iff_of_ownerEnd {pos ans : ℕ} (h : OwnerEnd mem pos ans) (hlegal : Legal mem pos) :
    NameEnd mem pos ans ↔ 192 ≤ (mem pos).toNat ∨ PlainName mem pos := by
  rcases h with ⟨hbits, rfl⟩ | ⟨hlow, hlengths⟩
  · obtain ⟨stop, hstop⟩ := hlegal
    have hpointer : 192 ≤ (mem pos).toNat := by
      cases hstop with
      | root hroot => omega
      | pointer hpointer => exact hpointer
      | label hpos hlabel hrest => omega
    exact iff_of_true (.pointer hpointer) (.inl hpointer)
  · rw [nameEnd_iff_plainName hlengths]
    exact ⟨.inr, fun h => h.resolve_left (by omega)⟩

lemma ownerEnd_unique {pos ans ans' : ℕ} (h : OwnerEnd mem pos ans) (h' : OwnerEnd mem pos ans') : ans = ans' := by
  rcases h with ⟨hbits, rfl⟩ | ⟨hlow, hlengths⟩
  · rcases h' with ⟨-, rfl⟩ | ⟨hlow', -⟩
    · rfl
    · omega
  · rcases h' with ⟨hbits', -⟩ | ⟨-, hlengths'⟩
    · omega
    · exact lengthsEnd_unique hlengths hlengths'

/-! ## What is read of a name -/

lemma run_parseName_succ (mem : ℕ → UInt8) (room pos : ℕ) : (parseName (room + 1) pos).run mem =
    if mem (pos + 1 + (mem pos).toNat) = 0 then some (pos + 1 + (mem pos).toNat + 1)
    else (parseName room (pos + 1 + (mem pos).toNat)).run mem := by
  show (if mem (pos + 1 + (mem pos).toNat) = 0 then pure (some (pos + 1 + (mem pos).toNat + 1))
    else parseName room (pos + 1 + (mem pos).toNat) : Reads ℕ UInt8 (Option ℕ)).run mem = _
  rw [run_ite]
  rfl

lemma within_parseName_succ (mem : ℕ → UInt8) (room pos : ℕ) : (parseName (room + 1) pos).Within mem (· < size) ↔
    pos < size ∧ pos + 1 + (mem pos).toNat < size ∧ (mem (pos + 1 + (mem pos).toNat) ≠ 0 →
      (parseName room (pos + 1 + (mem pos).toNat)).Within mem (· < size)) := by
  rw [parseName, within_bind, within_bind, within_read, within_read, run_read, run_read, within_ite]
  refine and_congr_right fun _ => and_congr_right fun _ => ?_
  exact ⟨fun h => h.2, fun h => ⟨fun _ => within_pure _ _ _, h⟩⟩

lemma run_parseName {pos stop : ℕ} (h : LengthsEnd mem pos stop) (hroom : stop ≤ pos + room + 1) :
    (parseName room pos).run mem = some stop := by
  induction h generalizing room with
  | @last pos hzero =>
    obtain ⟨room, rfl⟩ := Nat.exists_eq_add_of_lt (show 0 < room by omega)
    rw [Nat.zero_add, run_parseName_succ, if_pos hzero]
  | @more pos stop hnext hrest ih =>
    have hlt := lengthsEnd_lt hrest
    obtain ⟨room, rfl⟩ := Nat.exists_eq_add_of_lt (show 0 < room by omega)
    rw [Nat.zero_add, run_parseName_succ, if_neg hnext]
    exact ih (by omega)

/-- `parse_name` reads within the message just if its walk ends in it. -/
lemma within_parseName {pos : ℕ} (hroom : 0 < room) (hsize : size ≤ pos + room) :
    (parseName room pos).Within mem (· < size) ↔ ∃ stop, LengthsEnd mem pos stop ∧ stop ≤ size := by
  induction room generalizing pos with
  | zero => omega
  | succ room ih =>
    rw [within_parseName_succ]
    constructor
    · rintro ⟨hpos, hnext, hrest⟩
      by_cases hzero : mem (pos + 1 + (mem pos).toNat) = 0
      · exact ⟨_, .last hzero, by omega⟩
      · obtain ⟨stop, hstop, hle⟩ := (ih (by omega) (by omega)).mp (hrest hzero)
        exact ⟨stop, .more hzero hstop, hle⟩
    · rintro ⟨stop, hstop, hle⟩
      have hlt := lengthsEnd_lt hstop
      cases hstop with
      | last hzero => exact ⟨by omega, by omega, fun hnext => absurd hzero hnext⟩
      | more hnext hrest =>
        have hlt' := lengthsEnd_lt hrest
        exact ⟨by omega, by omega, fun _ => (ih (by omega) (by omega)).mpr ⟨stop, hrest, hle⟩⟩

lemma upper_bits_eq_zero (x : UInt8) : x &&& 0xc0 = 0 ↔ x.toNat < 64 := by
  revert x
  apply byte_cases
  decide +kernel

/-- The owner of a record is skipped within the message just if it ends there. -/
lemma skipOwner_spec {pos : ℕ} (hsize : size ≤ room) :
    ((skipOwner room pos).Within mem (· < size) ↔ pos < size ∧ ∃ ans, OwnerEnd mem pos ans ∧
      ((mem pos).toNat < 64 → ans ≤ size)) ∧
    ∀ ans, OwnerEnd mem pos ans → ((mem pos).toNat < 64 → ans ≤ size) → (skipOwner room pos).run mem = some ans := by
  have hwithin : (skipOwner room pos).Within mem (· < size) ↔ pos < size ∧
      ((mem pos).toNat < 64 → (parseName room pos).Within mem (· < size)) := by
    rw [skipOwner, within_bind, within_read, run_read, within_ite, ← upper_bits_eq_zero, not_not]
    exact and_congr_right fun _ => ⟨fun h => h.2, fun h => ⟨fun _ => within_pure _ _ _, h⟩⟩
  have hrun : (skipOwner room pos).run mem =
      if mem pos &&& 0xc0 ≠ 0 then some (pos + 2) else (parseName room pos).run mem :=
    run_ite mem (mem pos &&& 0xc0 ≠ 0) (pure (some (pos + 2))) (parseName room pos)
  constructor
  · rw [hwithin]
    refine and_congr_right fun hpos => ?_
    by_cases hlow : (mem pos).toNat < 64
    · rw [within_parseName (by omega) (by omega)]
      constructor
      · intro h
        obtain ⟨stop, hstop, hle⟩ := h hlow
        exact ⟨stop, .inr ⟨hlow, hstop⟩, fun _ => hle⟩
      · rintro ⟨ans, hans, hle⟩ _
        exact ⟨ans, (hans.resolve_left (by omega)).2, hle hlow⟩
    · exact iff_of_true (fun h => absurd h hlow) ⟨pos + 2, .inl ⟨by omega, rfl⟩, fun h => absurd h hlow⟩
  · intro ans hans hle
    rw [hrun]
    rcases hans with ⟨hbits, rfl⟩ | ⟨hlow, hlengths⟩
    · exact if_pos fun h => absurd ((upper_bits_eq_zero _).mp h) (by omega)
    · rw [if_neg (not_not.mpr ((upper_bits_eq_zero _).mpr hlow))]
      exact run_parseName hlengths (by have := hle hlow; omega)

/-! ## What is read of a record -/

lemma run_readWord (mem : ℕ → UInt8) (pos : ℕ) : (readWord pos).run mem = word mem pos := rfl

lemma within_readWord (mem : ℕ → UInt8) (pos : ℕ) : (readWord pos).Within mem (· < size) ↔ pos + 1 < size := by
  rw [readWord, within_bind, within_bind, within_read, within_read]
  exact ⟨fun h => h.2.1, fun h => ⟨by omega, h, within_pure _ _ _⟩⟩

lemma run_checkAddress (mem : ℕ → UInt8) (ans : ℕ) : (checkAddress ans).run mem = decide (IsAddress mem ans) := by
  have hrun : (checkAddress ans).run mem = if word mem ans = 1 then if word mem (ans + 2) = 1 then
      decide (word mem (ans + 8) = 4) else false else false := by
    refine (run_ite mem (word mem ans = 1) _ _).trans ?_
    by_cases htype : word mem ans = 1
    · rw [if_pos htype, if_pos htype]
      exact run_ite mem (word mem (ans + 2) = 1) _ _
    · rw [if_neg htype, if_neg htype]
      rfl
  rw [hrun]
  unfold IsAddress
  by_cases htype : word mem ans = 1
  · by_cases hcls : word mem (ans + 2) = 1
    · simp [htype, hcls]
    · simp [hcls]
  · simp [htype]

lemma within_checkAddress {ans : ℕ} (h : ans + 10 ≤ size) : (checkAddress ans).Within mem (· < size) := by
  rw [checkAddress, within_bind, within_readWord]
  refine ⟨by omega, (within_ite mem _ (word mem ans = 1) _ _).mpr ⟨fun _ => ?_, fun _ => within_pure _ _ _⟩⟩
  rw [within_bind, within_readWord]
  refine ⟨by omega, (within_ite mem _ (word mem (ans + 2) = 1) _ _).mpr ⟨fun _ => ?_, fun _ => within_pure _ _ _⟩⟩
  rw [within_bind, within_readWord]
  exact ⟨by omega, within_pure _ _ _⟩

lemma run_readAnswer (mem : ℕ → UInt8) (ans : ℕ) : (readAnswer ans).run mem =
    if IsAddress mem ans then .inl (addressAt mem ans) else .inr (nextRecord mem ans) := by
  rw [readAnswer, run_bind, run_checkAddress, run_ite]
  by_cases haddress : IsAddress mem ans
  · rw [if_pos (decide_eq_true haddress), if_pos haddress, run_bind, run_readRange]
    rfl
  · rw [if_neg (by simpa using haddress), if_neg haddress]
    rfl

/-- A record needs ten octets behind its name, an address fourteen. -/
lemma within_readAnswer (mem : ℕ → UInt8) (ans : ℕ) : (readAnswer ans).Within mem (· < size) ↔
    ans + 10 ≤ size ∧ (IsAddress mem ans → ans + 14 ≤ size) := by
  rw [readAnswer, within_bind, run_checkAddress, within_ite, decide_eq_true_eq]
  simp only [within_bind, within_readRange, within_readWord, within_pure, and_true]
  by_cases haddress : IsAddress mem ans
  · constructor
    · rintro ⟨-, h, -⟩
      have hin := h haddress
      exact ⟨by omega, fun _ => by omega⟩
    · rintro ⟨hlen, hin⟩
      exact ⟨within_checkAddress hlen, fun _ => .inr (hin haddress), fun hother => absurd haddress hother⟩
  · constructor
    · rintro ⟨-, -, h⟩
      have hlen := h haddress
      exact ⟨by omega, fun h' => absurd h' haddress⟩
    · rintro ⟨hlen, -⟩
      exact ⟨within_checkAddress hlen, fun h' => absurd h' haddress, fun _ => by omega⟩

/-- One round of the loop, its owner being skipped. -/
lemma run_walkAnswers {count pos ans : ℕ} (h : (skipOwner room pos).run mem = some ans) :
    (walkAnswers room (count + 1) pos).run mem = if IsAddress mem ans then ([(pos, ans)], some (addressAt mem ans))
      else ((pos, ans) :: ((walkAnswers room count (nextRecord mem ans)).run mem).1,
        ((walkAnswers room count (nextRecord mem ans)).run mem).2) := by
  rw [walkAnswers, run_bind, h]
  simp only [run_bind, run_readAnswer]
  by_cases haddress : IsAddress mem ans
  · rw [if_pos haddress, if_pos haddress]
    rfl
  · rw [if_neg haddress, if_neg haddress]
    simp only [run_bind, run_pure]

lemma within_walkAnswers {count pos ans : ℕ} (h : (skipOwner room pos).run mem = some ans) :
    (walkAnswers room (count + 1) pos).Within mem (· < size) ↔ (skipOwner room pos).Within mem (· < size) ∧
      (readAnswer ans).Within mem (· < size) ∧
      (¬ IsAddress mem ans → (walkAnswers room count (nextRecord mem ans)).Within mem (· < size)) := by
  rw [walkAnswers, within_bind, h]
  simp only [within_bind, run_readAnswer]
  by_cases haddress : IsAddress mem ans
  · simp [haddress]
  · simp [haddress]

/-- A round of the loop reads within the message just if the record fits. -/
lemma within_walkAnswers_iff (hsize : size ≤ room) (count pos : ℕ) :
    (walkAnswers room (count + 1) pos).Within mem (· < size) ↔ ∃ ans, OwnerEnd mem pos ans ∧ ans + 10 ≤ size ∧
      (IsAddress mem ans → ans + 14 ≤ size) ∧
      (¬ IsAddress mem ans → (walkAnswers room count (nextRecord mem ans)).Within mem (· < size)) := by
  obtain ⟨hskip, hrun⟩ : (_ ↔ pos < size ∧ ∃ ans, OwnerEnd mem pos ans ∧ _) ∧ _ := skipOwner_spec hsize
  constructor
  · intro h
    have hin : (skipOwner room pos).Within mem (· < size) := ((within_bind _ _ _ _).mp h).1
    obtain ⟨-, ans, hans, hle⟩ := hskip.mp hin
    rw [within_walkAnswers (hrun ans hans hle), within_readAnswer] at h
    exact ⟨ans, hans, h.2.1.1, h.2.1.2, h.2.2⟩
  · rintro ⟨ans, hans, hlen, hin, hrest⟩
    have hpos : pos < size := by
      rcases hans with ⟨-, rfl⟩ | ⟨-, hlengths⟩
      · omega
      · have := lengthsEnd_lt hlengths
        omega
    rw [within_walkAnswers (hrun ans hans fun _ => by omega), within_readAnswer]
    exact ⟨hskip.mpr ⟨hpos, ans, hans, fun _ => by omega⟩, ⟨hlen, hin⟩, hrest⟩

lemma run_walkAnswers_of_ownerEnd (hsize : size ≤ room) {count pos ans : ℕ} (hans : OwnerEnd mem pos ans)
    (hlen : ans + 10 ≤ size) : (walkAnswers room (count + 1) pos).run mem =
      if IsAddress mem ans then ([(pos, ans)], some (addressAt mem ans))
      else ((pos, ans) :: ((walkAnswers room count (nextRecord mem ans)).run mem).1,
        ((walkAnswers room count (nextRecord mem ans)).run mem).2) :=
  run_walkAnswers ((skipOwner_spec hsize).2 ans hans fun _ => by omega)

/-! ## The walk and the borders -/

lemma borders_cons_iff {pos ans : ℕ} {visited : List (ℕ × ℕ)} : Borders mem pos ((pos, ans) :: visited) ↔
    (Legal mem pos → NameEnd mem pos ans ∧ Borders mem (nextRecord mem ans) visited) := by
  constructor
  · intro h hlegal
    cases h with
    | cons hname hrest => exact ⟨hname, hrest⟩
    | illegal hname => exact absurd hlegal hname
  · intro h
    by_cases hlegal : Legal mem pos
    · exact .cons (h hlegal).1 (h hlegal).2
    · exact .illegal hlegal

lemma eq_of_borders {start pos ans : ℕ} {visited : List (ℕ × ℕ)} (h : Borders mem start ((pos, ans) :: visited)) :
    start = pos := by
  cases h with
  | cons hname hrest => rfl
  | illegal hname => rfl

lemma FirstAddress.legal {count pos : ℕ} {ipaddr : List UInt8} (h : FirstAddress mem size count pos ipaddr) :
    Legal mem pos := by
  cases h with
  | here hname haddress hin => exact ⟨_, hname⟩
  | later hname hother hrest => exact ⟨_, hname⟩

lemma FirstAddress.mono {count count' pos : ℕ} {ipaddr : List UInt8} (h : FirstAddress mem size count pos ipaddr)
    (hle : count ≤ count') : FirstAddress mem size count' pos ipaddr := by
  induction h generalizing count' with
  | here hname haddress hin =>
    obtain ⟨k, rfl⟩ := Nat.exists_eq_add_of_lt (show 0 < count' by omega)
    exact Nat.zero_add k ▸ .here hname haddress hin
  | later hname hother hrest ih =>
    obtain ⟨k, rfl⟩ := Nat.exists_eq_add_of_lt (show 0 < count' by omega)
    exact Nat.zero_add k ▸ .later hname hother (ih (by omega))

/-- The first address, the end of the owner's name being known. -/
lemma firstAddress_succ {count pos ans : ℕ} {ipaddr : List UInt8} (hname : NameEnd mem pos ans)
    (hin : IsAddress mem ans → ans + 14 ≤ size) : FirstAddress mem size (count + 1) pos ipaddr ↔
      if IsAddress mem ans then addressAt mem ans = ipaddr
      else FirstAddress mem size count (nextRecord mem ans) ipaddr := by
  by_cases haddress : IsAddress mem ans
  · rw [if_pos haddress]
    constructor
    · intro h
      cases h with
      | here hname' _ _ => rw [nameEnd_unique hname hname']
      | later hname' hother _ =>
        rw [← nameEnd_unique hname hname'] at hother
        exact absurd ⟨haddress, hin haddress⟩ hother
    · rintro rfl
      exact .here hname haddress (hin haddress)
  · rw [if_neg haddress]
    constructor
    · intro h
      cases h with
      | here hname' haddress' _ => exact absurd (nameEnd_unique hname hname' ▸ haddress') haddress
      | later hname' _ hrest => exact nameEnd_unique hname hname' ▸ hrest
    · exact .later hname fun h => haddress h.1

/-- What the loop is promised, as long as the borders are known. -/
def Walked (mem : ℕ → UInt8) (size room : ℕ) (known : Prop) (count pos : ℕ) : Prop :=
  (walkAnswers room count pos).Within mem (· < size) ∧
    (known → Borders mem pos ((walkAnswers room count pos).run mem).1) ∧
    ∀ ipaddr, ((walkAnswers room count pos).run mem).2 = some ipaddr ↔
      known ∧ FirstAddress mem size count pos ipaddr

/-- One round of the loop. -/
lemma walked_succ (hsize : size ≤ room) (known : Prop) (count pos : ℕ) : Walked mem size room known (count + 1) pos ↔
    ∃ ans, OwnerEnd mem pos ans ∧ ans + 10 ≤ size ∧ (known → Legal mem pos → NameEnd mem pos ans) ∧
      if IsAddress mem ans then ans + 14 ≤ size ∧ known ∧ Legal mem pos
      else Walked mem size room (known ∧ Legal mem pos) count (nextRecord mem ans) := by
  have hround : ∀ ans, OwnerEnd mem pos ans → ans + 10 ≤ size → (Walked mem size room known (count + 1) pos ↔
      (known → Legal mem pos → NameEnd mem pos ans) ∧
      if IsAddress mem ans then ans + 14 ≤ size ∧ known ∧ Legal mem pos
      else Walked mem size room (known ∧ Legal mem pos) count (nextRecord mem ans)) := by
    intro ans hans hlen
    have hwithin : (walkAnswers room (count + 1) pos).Within mem (· < size) ↔ (IsAddress mem ans → ans + 14 ≤ size) ∧
        (¬ IsAddress mem ans → (walkAnswers room count (nextRecord mem ans)).Within mem (· < size)) := by
      rw [within_walkAnswers_iff hsize]
      constructor
      · rintro ⟨ans', hans', -, hrest⟩
        exact ownerEnd_unique hans hans' ▸ hrest
      · exact fun hrest => ⟨ans, hans, hlen, hrest⟩
    unfold Walked
    rw [hwithin, run_walkAnswers_of_ownerEnd hsize hans hlen]
    by_cases haddress : IsAddress mem ans
    · simp only [if_pos haddress, borders_cons_iff, Option.some.injEq]
      constructor
      · rintro ⟨⟨hin, -⟩, hborders, hfirst⟩
        obtain ⟨hknown, hfound⟩ := (hfirst _).mp rfl
        exact ⟨fun hknown hlegal => (hborders hknown hlegal).1, hin haddress, hknown, hfound.legal⟩
      · rintro ⟨hname, hin, hknown, hlegal⟩
        refine ⟨⟨fun _ => hin, fun hother => absurd haddress hother⟩, fun _ _ => ⟨hname hknown hlegal, .nil⟩,
          fun ipaddr => ?_⟩
        rw [firstAddress_succ (hname hknown hlegal) fun _ => hin, if_pos haddress]
        exact ⟨fun h => ⟨hknown, h⟩, fun h => h.2⟩
    · have hfirst : (known → Legal mem pos → NameEnd mem pos ans) → ∀ ipaddr,
          known ∧ FirstAddress mem size (count + 1) pos ipaddr ↔
            (known ∧ Legal mem pos) ∧ FirstAddress mem size count (nextRecord mem ans) ipaddr := by
        intro hname ipaddr
        constructor
        · rintro ⟨hknown, hfound⟩
          have hlegal := hfound.legal
          rw [firstAddress_succ (hname hknown hlegal) fun h => absurd h haddress, if_neg haddress] at hfound
          exact ⟨⟨hknown, hlegal⟩, hfound⟩
        · rintro ⟨⟨hknown, hlegal⟩, hfound⟩
          rw [firstAddress_succ (hname hknown hlegal) fun h => absurd h haddress, if_neg haddress]
          exact ⟨hknown, hfound⟩
      simp only [if_neg haddress, borders_cons_iff]
      constructor
      · rintro ⟨⟨-, hin⟩, hborders, haddr⟩
        have hname : known → Legal mem pos → NameEnd mem pos ans := fun hknown hlegal => (hborders hknown hlegal).1
        exact ⟨hname, hin haddress, fun h => (hborders h.1 h.2).2, fun ipaddr => (haddr ipaddr).trans (hfirst hname ipaddr)⟩
      · rintro ⟨hname, hin, hborders, haddr⟩
        exact ⟨⟨fun h => absurd h haddress, fun _ => hin⟩, fun hknown hlegal => ⟨hname hknown hlegal, hborders ⟨hknown, hlegal⟩⟩,
          fun ipaddr => (haddr ipaddr).trans (hfirst hname ipaddr).symm⟩
  constructor
  · intro h
    obtain ⟨ans, hans, hlen, -⟩ := (within_walkAnswers_iff hsize count pos).mp h.1
    exact ⟨ans, hans, hlen, (hround ans hans hlen).mp h⟩
  · rintro ⟨ans, hans, hlen, hrest⟩
    exact (hround ans hans hlen).mpr hrest

/-- **The loop over the answers** does what is promised just if the records fit. -/
theorem walked_iff (hsize : size ≤ room) (known : Prop) (count pos : ℕ) :
    Walked mem size room known count pos ↔ AnswersFit mem size known count pos := by
  induction count generalizing known pos with
  | zero =>
    refine iff_of_true ⟨within_pure _ _ _, fun _ => .nil, fun ipaddr => iff_of_false (Option.some_ne_none _).symm ?_⟩ trivial
    rintro ⟨-, h⟩
    cases h
  | succ count ih =>
    rw [walked_succ hsize, AnswersFit]
    refine exists_congr fun ans => and_congr_right fun hans => and_congr_right fun _ => and_congr ?_ ?_
    · exact forall_congr' fun _ => forall_congr' fun hlegal => nameEnd_iff_of_ownerEnd hans hlegal
    · by_cases haddress : IsAddress mem ans
      · rw [if_pos haddress, if_pos haddress]
      · rw [if_neg haddress, if_neg haddress]
        exact ih _ _

/-- An address that is announced is among the records walked, if one is found among them. -/
lemma firstAddress_of_found (hsize : size ≤ room) {count count' pos : ℕ} {ipaddr ipaddr' : List UInt8}
    (hwithin : (walkAnswers room count pos).Within mem (· < size))
    (hborders : Borders mem pos ((walkAnswers room count pos).run mem).1)
    (hfound : ((walkAnswers room count pos).run mem).2 = some ipaddr)
    (hfirst : FirstAddress mem size count' pos ipaddr') : FirstAddress mem size count pos ipaddr' := by
  induction count generalizing count' pos with
  | zero => exact absurd hfound nofun
  | succ count ih =>
    obtain ⟨ans, hans, hlen, hin, hrest⟩ := (within_walkAnswers_iff hsize count pos).mp hwithin
    obtain ⟨count', rfl⟩ : ∃ k, count' = k + 1 := by
      cases hfirst with
      | here hname haddress hin => exact ⟨_, rfl⟩
      | later hname hother hrest => exact ⟨_, rfl⟩
    rw [run_walkAnswers_of_ownerEnd hsize hans hlen] at hborders hfound
    by_cases haddress : IsAddress mem ans
    · rw [if_pos haddress] at hborders
      have hname := (borders_cons_iff.mp hborders hfirst.legal).1
      rw [firstAddress_succ hname hin, if_pos haddress] at hfirst ⊢
      exact hfirst
    · rw [if_neg haddress] at hborders hfound
      obtain ⟨hname, hborders⟩ := borders_cons_iff.mp hborders hfirst.legal
      rw [firstAddress_succ hname hin, if_neg haddress] at hfirst ⊢
      exact ih (hrest haddress) hborders hfound hfirst

/-- The records behind a question are walked and stored as promised just if they fit, the first address announced
being among those counted. -/
lemma walkAnswers_iff (hsize : size ≤ room) (count nquestions numanswers pos : ℕ) (hcount : count ≤ numanswers) :
    ((walkAnswers room count pos).Within mem (· < size) ∧
      (∀ start, QuestionsEnd mem nquestions 12 start → Borders mem start ((walkAnswers room count pos).run mem).1) ∧
      ∀ ipaddr, ((walkAnswers room count pos).run mem).2 = some ipaddr ↔
        ∃ start, QuestionsEnd mem nquestions 12 start ∧ FirstAddress mem size numanswers start ipaddr) ↔
    (∀ start, QuestionsEnd mem nquestions 12 start → count ≠ 0 → start = pos) ∧
      AnswersFit mem size (∃ start, QuestionsEnd mem nquestions 12 start) count pos ∧
      ∀ start ipaddr, QuestionsEnd mem nquestions 12 start → FirstAddress mem size numanswers start ipaddr →
        FirstAddress mem size count start ipaddr := by
  rw [← walked_iff hsize]
  constructor
  · rintro ⟨hwithin, hborders, haddr⟩
    have hstart : ∀ start, QuestionsEnd mem nquestions 12 start → count ≠ 0 → start = pos := by
      intro start hquestions hne
      obtain ⟨count, rfl⟩ := Nat.exists_eq_succ_of_ne_zero hne
      obtain ⟨ans, hans, hlen, -⟩ := (within_walkAnswers_iff hsize count pos).mp hwithin
      have hwalk := hborders start hquestions
      rw [run_walkAnswers_of_ownerEnd hsize hans hlen] at hwalk
      by_cases haddress : IsAddress mem ans
      · rw [if_pos haddress] at hwalk
        exact eq_of_borders hwalk
      · rw [if_neg haddress] at hwalk
        exact eq_of_borders hwalk
    have hcounted : ∀ start ipaddr, QuestionsEnd mem nquestions 12 start →
        FirstAddress mem size numanswers start ipaddr → count ≠ 0 ∧ FirstAddress mem size count start ipaddr := by
      intro start ipaddr hquestions hfirst
      have hfound := (haddr ipaddr).mpr ⟨start, hquestions, hfirst⟩
      have hne : count ≠ 0 := by
        rintro rfl
        exact absurd hfound nofun
      have hpos := hstart start hquestions hne
      subst hpos
      exact ⟨hne, firstAddress_of_found hsize hwithin (hborders _ hquestions) hfound hfirst⟩
    refine ⟨hstart, ⟨hwithin, ?_, fun ipaddr => ?_⟩, fun start ipaddr hquestions hfirst => (hcounted _ _ hquestions hfirst).2⟩
    · rintro ⟨start, hquestions⟩
      by_cases hne : count = 0
      · subst hne
        exact .nil
      · exact hstart start hquestions hne ▸ hborders start hquestions
    · rw [haddr]
      constructor
      · rintro ⟨start, hquestions, hfirst⟩
        obtain ⟨hne, hcount'⟩ := hcounted start ipaddr hquestions hfirst
        exact ⟨⟨start, hquestions⟩, hstart start hquestions hne ▸ hcount'⟩
      · rintro ⟨⟨start, hquestions⟩, hfirst⟩
        have hne : count ≠ 0 := by
          rintro rfl
          cases hfirst
        exact ⟨start, hquestions, hstart start hquestions hne ▸ hfirst.mono hcount⟩
  · rintro ⟨hstart, ⟨hwithin, hborders, haddr⟩, hcounted⟩
    refine ⟨hwithin, fun start hquestions => ?_, fun ipaddr => ?_⟩
    · by_cases hne : count = 0
      · subst hne
        exact .nil
      · exact hstart start hquestions hne ▸ hborders ⟨start, hquestions⟩
    · rw [haddr]
      constructor
      · rintro ⟨⟨start, hquestions⟩, hfirst⟩
        have hne : count ≠ 0 := by
          rintro rfl
          cases hfirst
        exact ⟨start, hquestions, hstart start hquestions hne ▸ hfirst.mono hcount⟩
      · rintro ⟨start, hquestions, hfirst⟩
        have hcount' := hcounted start ipaddr hquestions hfirst
        have hne : count ≠ 0 := by
          rintro rfl
          cases hcount'
        exact ⟨⟨start, hquestions⟩, hstart start hquestions hne ▸ hcount'⟩

/-! ## The whole message -/

section message
variable {names : List Namemap} {i : ℕ} {entry : Namemap}

lemma run_newdata (hasking : entry.state = .asking) (hi : word mem 0 % 256 = i) (hentry : names[i]? = some entry) :
    (newdata room names).run mem = (answered room names i entry).run mem := by
  subst hi
  rw [newdata, run_bind, run_readWord]
  simp only [hentry]
  rw [if_pos hasking]

lemma within_newdata (hasking : entry.state = .asking) (hi : word mem 0 % 256 = i) (hentry : names[i]? = some entry) :
    (newdata room names).Within mem (· < size) ↔
      1 < size ∧ (answered room names i entry).Within mem (· < size) := by
  subst hi
  rw [newdata, within_bind, run_readWord, within_readWord]
  simp only [hentry]
  rw [if_pos hasking]

/-- A message with an error code. -/
lemma run_answered_error (herr : mem 3 &&& 0x0f ≠ 0) : (answered room names i entry).run mem =
    ⟨names.set i { entry with state := .error, err := mem 3 &&& 0x0f }, some (entry.name, none), []⟩ :=
  (run_ite mem (mem 3 &&& 0x0f ≠ 0) _ _).trans (if_pos herr)

lemma within_answered_error (herr : mem 3 &&& 0x0f ≠ 0) :
    (answered room names i entry).Within mem (· < size) ↔ 3 < size := by
  rw [answered, within_bind, within_read, run_read, within_ite]
  exact ⟨fun h => h.1, fun h => ⟨h, fun _ => within_pure _ _ _, fun hok => absurd herr hok⟩⟩

/-- A message without an error code. -/
lemma within_answered_ok (herr : mem 3 &&& 0x0f = 0) (hroom : size ≤ room) (hpos : 0 < size) :
    (answered room names i entry).Within mem (· < size) ↔ ∃ stop, LengthsEnd mem 12 stop ∧ stop ≤ size ∧
      (walkAnswers room (word mem 6 % 256) (stop + 4)).Within mem (· < size) := by
  have hstep : (answered room names i entry).Within mem (· < size) ↔ 3 < size ∧ 5 < size ∧ 7 < size ∧
      (parseName room 12).Within mem (· < size) ∧ ∀ stop, (parseName room 12).run mem = some stop →
        (walkAnswers room (word mem 6 % 256) (stop + 4)).Within mem (· < size) := by
    rw [answered, within_bind, within_read, run_read, within_ite, within_bind, within_readWord, within_bind,
      within_readWord, run_readWord, within_bind]
    refine and_congr_right fun _ => ⟨fun h => ?_, fun h => ⟨fun hne => absurd herr hne, fun _ => ?_⟩⟩
    · obtain ⟨hquestions, hanswers, hname, hrest⟩ := h.2 (not_not.mpr herr)
      refine ⟨hquestions, hanswers, hname, fun stop hstop => ?_⟩
      rw [hstop] at hrest
      exact ((within_bind _ _ _ _).mp hrest).1
    · obtain ⟨hquestions, hanswers, hname, hrest⟩ := h
      refine ⟨hquestions, hanswers, hname, ?_⟩
      cases hstop : (parseName room 12).run mem with
      | none => exact within_pure _ _ _
      | some stop => exact (within_bind _ _ _ _).mpr ⟨hrest stop hstop, within_pure _ _ _⟩
  rw [hstep, within_parseName (by omega) (by omega)]
  constructor
  · rintro ⟨-, -, -, ⟨stop, hstop, hle⟩, hrest⟩
    exact ⟨stop, hstop, hle, hrest stop (run_parseName hstop (by omega))⟩
  · rintro ⟨stop, hstop, hle, hrest⟩
    have hlt := lengthsEnd_lt hstop
    refine ⟨by omega, by omega, by omega, ⟨stop, hstop, hle⟩, fun stop' hstop' => ?_⟩
    rw [run_parseName hstop (by omega)] at hstop'
    exact Option.some.inj hstop' ▸ hrest

lemma run_answered_ok (herr : mem 3 &&& 0x0f = 0) (hroom : size ≤ room) {stop : ℕ} (hstop : LengthsEnd mem 12 stop)
    (hle : stop ≤ size) : (answered room names i entry).run mem =
      finish names i { entry with state := .done, err := mem 3 &&& 0x0f }
        ((walkAnswers room (word mem 6 % 256) (stop + 4)).run mem).1
        ((walkAnswers room (word mem 6 % 256) (stop + 4)).run mem).2 := by
  refine (run_ite mem (mem 3 &&& 0x0f ≠ 0) _ _).trans ((if_neg (not_not.mpr herr)).trans ?_)
  rw [run_bind, run_bind, run_bind, run_parseName hstop (by omega)]
  exact run_bind _ _ _

lemma finish_visited (visited : List (ℕ × ℕ)) (ipaddr : Option (List UInt8)) :
    (finish names i entry visited ipaddr).visited = visited := by
  cases ipaddr with
  | none => rfl
  | some ipaddr => rfl

lemma finish_address (visited : List (ℕ × ℕ)) (ipaddr : Option (List UInt8)) :
    (finish names i entry visited ipaddr).address = ipaddr := by
  cases ipaddr with
  | none => rfl
  | some ipaddr => rfl

lemma finish_stored {old : Namemap} (hentry : names[i]? = some old) (visited : List (ℕ × ℕ))
    (ipaddr : Option (List UInt8)) : ((finish names i entry visited ipaddr).names[i]?).map (·.ipaddr) =
      some (ipaddr.getD entry.ipaddr) := by
  have hi : i < names.length := (List.getElem?_eq_some_iff.mp hentry).1
  cases ipaddr with
  | none => simp [finish, hi]
  | some ipaddr => simp [finish, hi]

/-- **The answers of a name server**: for an entry that is asked for, only the message is read, the records are walked
along their borders and the first address announced is stored, just if the message fits. -/
theorem newdata_answers_iff (hasking : entry.state = .asking) (hi : word mem 0 % 256 = i)
    (hentry : names[i]? = some entry) (hroom : size ≤ room) :
    Answers mem size room i names entry ↔ MessageFits mem size := by
  have hrun : (newdata room names).run mem = _ := run_newdata hasking hi hentry
  have hwithin : (newdata room names).Within mem (· < size) ↔ _ := within_newdata hasking hi hentry
  by_cases herr : mem 3 &&& 0x0f = 0
  · have hanswers : Answers mem size room i names entry ↔ ∃ stop, LengthsEnd mem 12 stop ∧ stop ≤ size ∧
        (walkAnswers room (word mem 6 % 256) (stop + 4)).Within mem (· < size) ∧
        (∀ start, QuestionsEnd mem (word mem 4) 12 start →
          Borders mem start ((walkAnswers room (word mem 6 % 256) (stop + 4)).run mem).1) ∧
        ∀ ipaddr, ((walkAnswers room (word mem 6 % 256) (stop + 4)).run mem).2 = some ipaddr ↔
          ∃ start, QuestionsEnd mem (word mem 4) 12 start ∧ FirstAddress mem size (word mem 6) start ipaddr := by
      constructor
      · rintro ⟨hreads, hborders, haddr, -⟩
        obtain ⟨hsize, hreads⟩ := hwithin.mp hreads
        obtain ⟨stop, hstop, hle, hreads⟩ := (within_answered_ok herr hroom (by omega)).mp hreads
        rw [hrun, run_answered_ok herr hroom hstop hle, finish_visited] at hborders
        rw [hrun, run_answered_ok herr hroom hstop hle, finish_address] at haddr
        exact ⟨stop, hstop, hle, hreads, hborders, fun ipaddr => (haddr ipaddr).trans (and_iff_right herr)⟩
      · rintro ⟨stop, hstop, hle, hreads, hborders, haddr⟩
        have hlt := lengthsEnd_lt hstop
        have hanswered : (answered room names i entry).run mem = _ := run_answered_ok herr hroom hstop hle
        refine ⟨hwithin.mpr ⟨by omega, (within_answered_ok herr hroom (by omega)).mpr ⟨stop, hstop, hle, hreads⟩⟩, ?_, ?_, ?_⟩
        · rw [hrun, hanswered, finish_visited]
          exact hborders
        · rw [hrun, hanswered, finish_address]
          exact fun ipaddr => (haddr ipaddr).trans (and_iff_right herr).symm
        · rw [hrun, hanswered, finish_address, finish_stored hentry]
    rw [hanswers]
    constructor
    · rintro ⟨stop, hstop, hle, hrest⟩
      have hlt := lengthsEnd_lt hstop
      exact ⟨by omega, fun _ => ⟨stop, hstop, hle, (walkAnswers_iff hroom _ _ _ _ (Nat.mod_le _ _)).mp hrest⟩⟩
    · rintro ⟨-, h⟩
      obtain ⟨stop, hstop, hle, hrest⟩ := h herr
      exact ⟨stop, hstop, hle, (walkAnswers_iff hroom _ _ _ _ (Nat.mod_le _ _)).mpr hrest⟩
  · constructor
    · intro h
      have hsize := (within_answered_error herr).mp (hwithin.mp h.reads).2
      exact ⟨hsize, fun hok => absurd hok herr⟩
    · rintro ⟨hsize, -⟩
      refine ⟨hwithin.mpr ⟨by omega, (within_answered_error herr).mpr hsize⟩, fun start _ => ?_, fun ipaddr => ?_, ?_⟩
      · rw [hrun, run_answered_error herr]
        exact .nil
      · rw [hrun, run_answered_error herr]
        exact iff_of_false nofun fun h => herr h.1
      · have hlt : i < names.length := (List.getElem?_eq_some_iff.mp hentry).1
        rw [hrun, run_answered_error herr]
        simp [Outcome.address, hlt]

lemma questionsEnd_one {pos stop : ℕ} : QuestionsEnd mem 1 pos stop ↔ ∃ mid, NameEnd mem pos mid ∧ mid + 4 = stop := by
  constructor
  · intro h
    cases h with
    | next hname hrest =>
      cases hrest
      exact ⟨_, hname, rfl⟩
  · rintro ⟨mid, hname, rfl⟩
    exact .next hname .none

/-- An entry that is asked for. -/
def asked : Namemap where
  state := .asking
  err := 0
  name := [0x61]
  ipaddr := []

/-- A message with one question and one answer. -/
def oneAnswer (answer : List UInt8) (k : ℕ) : UInt8 :=
  ([0, 0, 0x80, 0, 0, 1, 0, 1, 0, 0, 0, 0, 1, 0x61, 0, 0, 1, 0, 1] ++ answer).getD k 0

/-- The owner is a pointer to the question. -/
def pointerAnswer : ℕ → UInt8 := oneAnswer [0xc0, 12, 0, 1, 0, 1, 0, 0, 0, 60, 0, 4, 10, 0, 0, 1]

/-- The owner is the root. -/
def rootAnswer : ℕ → UInt8 := oneAnswer [0, 0, 1, 0, 1, 0, 0, 0, 60, 0, 4, 10, 0, 0, 1]

lemma oneAnswer_question (answer : List UInt8) : NameEnd (oneAnswer answer) 12 15 :=
  .label (Nat.zero_lt_one) (show 1 < 64 by decide) (.root rfl)

theorem newdata_answers_pointer : Answers pointerAnswer 35 35 0 [asked] asked := by
  refine (newdata_answers_iff rfl rfl rfl (Nat.le_refl 35)).mpr ⟨by decide, fun _ => ⟨15, ?_, by decide, ?_, ?_, ?_⟩⟩
  · exact .last rfl
  · intro start hquestions hne
    obtain ⟨mid, hname, rfl⟩ := questionsEnd_one.mp hquestions
    rw [nameEnd_unique hname (oneAnswer_question _)]
  · refine ⟨21, .inl ⟨by decide, rfl⟩, by decide, fun _ _ => .inl (by decide), ?_⟩
    rw [if_pos (by decide)]
    exact ⟨by decide, ⟨19, .next (oneAnswer_question _) .none⟩, 21, .pointer (by decide)⟩
  · exact fun start ipaddr hquestions hfirst => hfirst

/-- The address in the message is not found. -/
theorem newdata_root_missed : ¬ Answers rootAnswer 34 34 0 [asked] asked := by
  intro h
  have howner : OwnerEnd rootAnswer 19 21 := .inr ⟨by decide, .last rfl⟩
  have hrun : (newdata 34 [asked]).run rootAnswer = (answered 34 [asked] 0 asked).run rootAnswer :=
    run_newdata rfl rfl rfl
  have hnone : ((newdata 34 [asked]).run rootAnswer).address = none := by
    rw [hrun, run_answered_ok rfl (Nat.le_refl 34) (.last rfl) (by decide), finish_address]
    show ((walkAnswers 34 (0 + 1) 19).run rootAnswer).2 = none
    rw [run_walkAnswers_of_ownerEnd (Nat.le_refl 34) howner (by decide), if_neg (by decide)]
    rfl
  have hsome := (h.address [10, 0, 0, 1]).mpr
    ⟨by decide, 19, .next (oneAnswer_question _) .none, .here (.root rfl) (by decide) (by decide)⟩
  exact absurd (hnone.symm.trans hsome) nofun

end message

end Resolv
end Contiki

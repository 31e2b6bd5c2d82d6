import Contiki.Lib.Fallible
import Contiki.Rpl.DaoMessage
import Contiki.Rpl.DioBounds
import Contiki.Rpl.System

/-!
# What `dao_input` reads and writes

`dao_input` with every access to the message made explicit.  Its loop checks that an option begins in
the message, and nothing else: the length octet, the fields and the prefix of a target may lie behind the
end, and a target of more than 128 bits is copied over what follows `prefix`.  Without a target the
variable `prefix` is not written at all, and the route it happens to name is added or refreshed.

* `Node.daoInput_eq` — the accesses, and what is done with what was read.
* `Node.daoSafe_iff` — for which messages and nodes nothing of this happens.
-/

namespace Contiki

open Reads

/-! ## The accesses -/

/-- One option of a DAO.  A target that is longer than an address does not fit into `prefix`. -/
def readDaoOption (type : UInt8) (i : ℕ) (o : DaoOptions) : ByteReads (Except Fault DaoOptions) :=
  if type = rplOptionTarget then do
    let prefixlen ← read (i + 3)
    let bytes ← readRange (i + 4) ((prefixlen.toNat + 7) / 8)
    pure (if prefixlen ≤ 128 then .ok { o with prefixAddr := .ofBytes bytes, prefixlen }
      else .error .outOfBounds)
  else if type = rplOptionTransit then do
    -- path control and path sequence are read as well
    let _ ← read (i + 3)
    let _ ← read (i + 4)
    let lifetime ← read (i + 5)
    pure (.ok { o with lifetime })
  else pure (.ok o)

/-- The loop of `dao_input` over the options. -/
def readDaoOptions (bufferLength : ℕ) : ℕ → ℕ → DaoOptions → ByteReads (Except Fault DaoOptions)
  | 0, _, o => pure (.ok o)
  | fuel + 1, i, o =>
    if i < bufferLength then do
      let type ← read i
      let len ← readOptionLength type i
      let r ← readDaoOption type i o
      match r with
      | .error f => pure (.error f)
      | .ok o => readDaoOptions bufferLength fuel (i + len) o
    else pure (.ok o)

/-- The offset of the first option, by the flags. -/
def daoFirst (flags : UInt8) : ℕ := if flags &&& rplDaoDFlag ≠ 0 then 20 else 4

namespace Node
variable {cfg : Config} (s : Node cfg)

/-- The part of `dao_input` that reads a message of `n` bytes: the DODAG, the flags, the sequence number
and the options; none for an instance that the node is not part of. -/
def readDao (stack : IpAddr) (n : ℕ) :
    ByteReads (Except Fault (Option (cfg.DagRef × UInt8 × UInt8 × DaoOptions))) := do
  let bufferLength := (UInt8.ofNat n).toNat
  let instanceId ← read 0
  match s.rplGetDag instanceId none with
  | none => pure (.ok none)
  | some d => do
    let flags ← read 1
    let sequence ← read 3
    let r ← readDaoOptions bufferLength bufferLength (daoFirst flags)
      ⟨stack, 0, (s.dagTable d).config.defaultLifetime⟩
    pure (r.map fun o => some (d, flags, sequence, o))

/-- What is sent at the end of `dao_input`. -/
def daoAnswer (d : cfg.DagRef) (flags sequence : UInt8) (message : List UInt8) (sender : IpAddr) :
    Option DaoReply :=
  match (s.dagTable d).preferredParent with
  | some p => some (.forward (s.parent p).addr message)
  | none =>
    if flags &&& rplDaoKFlag ≠ 0 then some (.ack sender [(s.dagTable d).instanceId, 0, sequence, 0])
    else none

/-- What `dao_input` does with a message. -/
def daoUpdate (sender : IpAddr) (message : List UInt8) (d : cfg.DagRef) (flags sequence : UInt8)
    (o : DaoOptions) : Option DaoReply × Node cfg :=
  let rep := uipDs6RouteLookup s.routingTable o.prefixAddr
  if o.lifetime = zeroLifetime then (none, s.noPath rep)
  else
    let unicast := !sender.uipIsAddrMcast
    match if unicast then s.daoLoop d sender else none with
    | some p => (none, s.modifyParent p fun parent =>
        { parent with rank := infiniteRank, updated := true })
    | none =>
      match s.daoRoute d o sender rep with
      | (none, s) => (none, s)
      | (some rep, s) =>
        let route := s.routingTable rep
        let s := s.setRoute rep { route with state := { route.state with
          lifetime := (s.dagTable d).rplLifetime o.lifetime
          learnedFrom := if unicast then rplRouteFromUnicastDao else rplRouteFromMulticastDao } }
        (if unicast then s.daoAnswer d flags sequence message sender else none, s)

end Node

/-! ## The result on a buffer -/

section Run
variable (buffer : ℕ → UInt8)

lemma run_readDaoOption (i : ℕ) (o : DaoOptions) :
    (readDaoOption (buffer i) i o).run buffer = parseDaoOption buffer i o := by
  unfold readDaoOption parseDaoOption
  by_cases htarget : buffer i = rplOptionTarget
  · rw [if_pos htarget, if_pos htarget]
    simp
  · rw [if_neg htarget, if_neg htarget]
    by_cases htransit : buffer i = rplOptionTransit
    · rw [if_pos htransit, if_pos htransit]
      simp
    · rw [if_neg htransit, if_neg htransit]
      rfl

lemma run_readDaoOptions (bufferLength fuel i : ℕ) (o : DaoOptions) :
    (readDaoOptions bufferLength fuel i o).run buffer =
      parseDaoOptions buffer bufferLength fuel i o := by
  induction fuel generalizing i o with
  | zero => rfl
  | succ fuel ih =>
    rw [readDaoOptions, parseDaoOptions]
    by_cases hi : i < bufferLength
    · rw [if_pos hi, if_pos hi]
      simp only [run_bind, run_read, run_readDaoOption, run_readOptionLength]
      cases parseDaoOption buffer i o with
      | error f => rfl
      | ok o' => exact ih _ o'
    · rw [if_neg hi, if_neg hi]
      rfl

lemma run_readDao {cfg : Config} (s : Node cfg) (stack : IpAddr) (n : ℕ) :
    (s.readDao stack n).run buffer =
      match s.rplGetDag (buffer 0) none with
      | none => .ok none
      | some d => (daoOptions buffer (UInt8.ofNat n) stack (s.dagTable d).config.defaultLifetime).map
          fun o => some (d, buffer 1, buffer 3, o) := by
  rw [Node.readDao, run_bind, run_read]
  cases s.rplGetDag (buffer 0) none with
  | none => rfl
  | some d =>
    simp only [run_bind, run_read, run_pure, run_readDaoOptions]
    rfl

/-- `dao_input` does what it does with what it reads. -/
theorem Node.daoInput_eq {cfg : Config} (s : Node cfg) (stack sender : IpAddr) (n : ℕ) :
    s.daoInput stack sender buffer (UInt8.ofNat n) = ((s.readDao stack n).run buffer).map fun
      | none => (none, s)
      | some (d, flags, sequence, o) =>
        s.daoUpdate sender (bytesAt buffer 0 (UInt8.ofNat n).toNat) d flags sequence o := by
  rw [run_readDao, daoInput]
  cases s.rplGetDag (buffer 0) none with
  | none => rfl
  | some d =>
    dsimp only
    cases daoOptions buffer (UInt8.ofNat n) stack (s.dagTable d).config.defaultLifetime with
    | error f => rfl
    | ok o =>
      show _ = Except.ok (s.daoUpdate sender _ d (buffer 1) (buffer 3) o)
      unfold daoUpdate
      dsimp only [Bind.bind, Except.bind]
      by_cases hlifetime : o.lifetime = zeroLifetime
      · rw [if_pos hlifetime, if_pos hlifetime]
      · rw [if_neg hlifetime, if_neg hlifetime]
        generalize (if (!sender.uipIsAddrMcast) = true then s.daoLoop d sender else none) = loop
        cases loop with
        | some p => rfl
        | none =>
          dsimp only
          cases s.daoRoute d o sender (uipDs6RouteLookup s.routingTable o.prefixAddr) with
          | mk rep t =>
            cases rep with
            | none => rfl
            | some rep => rfl

end Run

/-! ## Where the accesses lie -/

section Bounds
variable (buffer : ℕ → UInt8) (n : ℕ)

/-- What is read of an option lies in a message of `n` bytes, and a target is no longer than an
address. -/
structure DaoOptionFits (i : ℕ) : Prop where
  length : buffer i ≠ rplOptionPad1 → i + 1 < n
  target : buffer i = rplOptionTarget → i + 3 < n ∧ buffer (i + 3) ≤ 128 ∧
    (buffer (i + 3) ≠ 0 → i + 4 + ((buffer (i + 3)).toNat + 7) / 8 ≤ n)
  transit : buffer i = rplOptionTransit → i + 5 < n

/-- An option that is read inside of the message and written inside of `prefix`. -/
lemma readDaoOption_safe (i : ℕ) (o : DaoOptions) :
    (readOptionLength (buffer i) i).Within buffer (· < n) ∧
        (readDaoOption (buffer i) i o).Within buffer (· < n) ∧
        (∃ o', parseDaoOption buffer i o = .ok o') ↔
      DaoOptionFits buffer n i := by
  rw [within_readOptionLength]
  unfold readDaoOption parseDaoOption
  by_cases htarget : buffer i = rplOptionTarget
  · have hpad : buffer i ≠ rplOptionPad1 := by
      rw [htarget]
      decide
    have hother : buffer i ≠ rplOptionTransit := by
      rw [htarget]
      decide
    have hzero : (buffer (i + 3)).toNat = 0 ↔ buffer (i + 3) = 0 := UInt8.toNat_inj (b := 0)
    have hbits : (∃ o', (if buffer (i + 3) ≤ 128 then
        Except.ok { o with
          prefixAddr := .ofBytes (bytesAt buffer (i + 4) (((buffer (i + 3)).toNat + 7) / 8))
          prefixlen := buffer (i + 3) }
        else .error Fault.outOfBounds) = .ok o') ↔ buffer (i + 3) ≤ 128 := by
      split_ifs with h <;> simp [h]
    rw [if_pos htarget, if_pos htarget]
    dsimp only
    rw [hbits]
    simp only [within_bind, within_read, run_read, within_readRange, within_pure, and_true]
    constructor
    · rintro ⟨hlen, ⟨hfield, hprefixLen⟩, hsize⟩
      refine ⟨fun _ => hlen.resolve_left hpad, fun _ => ⟨hfield, hsize, fun hne => ?_⟩,
        fun h => absurd h hother⟩
      have hpos : (buffer (i + 3)).toNat ≠ 0 := mt hzero.mp hne
      omega
    · rintro ⟨hlen, htgt, -⟩
      obtain ⟨hfield, hsize, hprefixLen⟩ := htgt htarget
      refine ⟨.inr (hlen hpad), ⟨hfield, ?_⟩, hsize⟩
      by_cases hne : buffer (i + 3) = 0
      · have := hzero.mpr hne
        omega
      · exact .inr (hprefixLen hne)
  · rw [if_neg htarget, if_neg htarget]
    by_cases htransit : buffer i = rplOptionTransit
    · have hpad : buffer i ≠ rplOptionPad1 := by
        rw [htransit]
        decide
      rw [if_pos htransit, if_pos htransit]
      simp only [within_bind, within_read, within_pure, and_true]
      constructor
      · rintro ⟨hlen, ⟨-, -, hfield⟩, -⟩
        exact ⟨fun _ => hlen.resolve_left hpad, fun h => absurd h htarget, fun _ => hfield⟩
      · rintro ⟨hlen, -, hfield⟩
        have := hfield htransit
        exact ⟨.inr (hlen hpad), ⟨by omega, by omega, this⟩, _, rfl⟩
    · rw [if_neg htransit, if_neg htransit]
      constructor
      · rintro ⟨hlen, -, -⟩
        exact ⟨fun hpad => hlen.resolve_left hpad, fun h => absurd h htarget, fun h => absurd h htransit⟩
      · rintro ⟨hlen, -, -⟩
        refine ⟨?_, within_pure _ _ _, o, rfl⟩
        by_cases hpad : buffer i = rplOptionPad1
        · exact .inl hpad
        · exact .inr (hlen hpad)

/-- The loop is safe if and only if each option that it comes to is. -/
lemma readDaoOptions_safe {bufferLength : ℕ} (hbl : bufferLength ≤ n) :
    ∀ fuel i o, bufferLength ≤ i + fuel →
      ((readDaoOptions bufferLength fuel i o).Within buffer (· < n) ∧
          (∃ o', parseDaoOptions buffer bufferLength fuel i o = .ok o') ↔
        ∀ j, Leads (nextOption buffer bufferLength) i j → j < bufferLength →
          DaoOptionFits buffer n j) := by
  intro fuel
  induction fuel with
  | zero =>
    intro i o hfuel
    have hi : ¬i < bufferLength := by omega
    have hnext : nextOption buffer bufferLength i = none := if_neg hi
    rw [Leads.forall_iff_of_none hnext]
    exact iff_of_true ⟨within_pure _ _ _, o, rfl⟩ fun h => absurd h hi
  | succ fuel ih =>
    intro i o hfuel
    by_cases hi : i < bufferLength
    · have hnext : nextOption buffer bufferLength i = some (i + dioOptionLength buffer i) := if_pos hi
      have hlong : 1 ≤ dioOptionLength buffer i := by
        unfold dioOptionLength
        split <;> omega
      have hparse : parseDaoOptions buffer bufferLength (fuel + 1) i o =
          (parseDaoOption buffer i o).bind
            (parseDaoOptions buffer bufferLength fuel (i + dioOptionLength buffer i)) := by
        rw [parseDaoOptions, if_pos hi]
        rfl
      rw [Leads.forall_iff_of_some hnext, hparse, readDaoOptions, if_pos hi,
        ← readDaoOption_safe buffer n i o]
      simp only [within_bind, within_read, run_read, run_readDaoOption, run_readOptionLength]
      have hin : i < n := Nat.lt_of_lt_of_le hi hbl
      cases hone : parseDaoOption buffer i o with
      | error f => simp [hi, Except.bind]
      | ok o' =>
        have hrest := ih (i + dioOptionLength buffer i) o' (by omega)
        simp only [Except.bind, ← hrest, hi, hin, true_imp_iff, true_and]
        simp only [Except.ok.injEq, exists_eq', and_true]
        tauto
    · have hnext : nextOption buffer bufferLength i = none := if_neg hi
      rw [Leads.forall_iff_of_none hnext, readDaoOptions, parseDaoOptions, if_neg hi, if_neg hi]
      exact iff_of_true ⟨within_pure _ _ _, o, rfl⟩ fun h => absurd h hi

end Bounds

/-! ## Routes without a target -/

namespace Node
variable {cfg : Config} (s : Node cfg)

/-- What a DAO makes of the state of a route. -/
def daoState (d : cfg.DagRef) (lifetime : UInt8) (sender : IpAddr) (state : RouteState cfg.DagRef) :
    RouteState cfg.DagRef :=
  { state with
    lifetime := (s.dagTable d).rplLifetime lifetime
    learnedFrom := if !sender.uipIsAddrMcast then rplRouteFromUnicastDao else rplRouteFromMulticastDao }

/-- A DAO without a target, which names the address `o.prefixAddr` by chance, has nothing to change: its
No-Path DAO finds no route, or one that expires already; its sender would form a loop; or its update finds
a route that is as it would make it, or no table. -/
def DaoIdle (d : cfg.DagRef) (o : DaoOptions) (sender : IpAddr) : Prop :=
  if o.lifetime = zeroLifetime then
    ∀ i, uipDs6RouteLookup s.routingTable o.prefixAddr = some i →
      (s.routingTable i).state.savedLifetime ≠ 0
  else
    sender.uipIsAddrMcast = false ∧ s.daoLoop d sender ≠ none ∨
      match uipDs6RouteLookup s.routingTable o.prefixAddr with
      | some i => s.daoState d o.lifetime sender (s.routingTable i).state = (s.routingTable i).state
      | none =>
        match uipDs6ListLoop (fun i => (s.routingTable i).toDs6Element) o.prefixAddr 0 with
        | .found i => s.daoState d o.lifetime sender { (s.routingTable i).state with dag := some d } =
            (s.routingTable i).state
        | .freespace _ => False
        | .nospace => True

lemma withState_eq_iff (route : Ds6Route cfg.DagRef) (state : RouteState cfg.DagRef) :
    { route with state } = route ↔ state = route.state := by
  constructor
  · exact fun h => congrArg Ds6Route.state h
  · rintro rfl
    rfl

lemma noPath_routingTable_iff (rep : Option (Fin cfg.routeNb)) :
    (s.noPath rep).routingTable = s.routingTable ↔
      ∀ i, rep = some i → (s.routingTable i).state.savedLifetime ≠ 0 := by
  cases rep with
  | none => simp [noPath]
  | some i =>
    simp only [noPath, Option.some.injEq, forall_eq']
    split_ifs with hsaved
    · refine iff_of_false (fun h => ?_) (not_not.mpr hsaved)
      have hentry := Function.update_eq_self_iff.mp h
      have hlife := congrArg (fun r => r.state.lifetime) hentry
      have hsave := congrArg (fun r => r.state.savedLifetime) hentry
      dsimp only at hlife hsave
      rw [hsaved] at hsave
      rw [hsave] at hlife
      exact absurd hlife (by decide)
    · exact iff_of_true rfl hsaved

/-- An update without a target leaves the routes alone if and only if it has nothing to change. -/
lemma daoUpdate_routingTable_iff {o : DaoOptions} (ho : o.prefixlen = 0) (sender : IpAddr)
    (message : List UInt8) (d : cfg.DagRef) (flags sequence : UInt8) :
    (s.daoUpdate sender message d flags sequence o).2.routingTable = s.routingTable ↔
      s.DaoIdle d o sender := by
  unfold daoUpdate DaoIdle
  dsimp only
  by_cases hlifetime : o.lifetime = zeroLifetime
  · rw [if_pos hlifetime, if_pos hlifetime]
    exact s.noPath_routingTable_iff _
  · rw [if_neg hlifetime, if_neg hlifetime]
    cases hloop : (if (!sender.uipIsAddrMcast) = true then s.daoLoop d sender else none) with
    | some p =>
      refine iff_of_true rfl (.inl ?_)
      split_ifs at hloop with hmcast
      exact ⟨by simpa using hmcast, by rw [hloop]; simp⟩
    | none =>
      have hnot : ¬(sender.uipIsAddrMcast = false ∧ s.daoLoop d sender ≠ none) := by
        rintro ⟨hmcast, hne⟩
        rw [if_pos (by simp [hmcast])] at hloop
        exact hne hloop
      rw [or_iff_right hnot]
      dsimp only
      cases hlookup : uipDs6RouteLookup s.routingTable o.prefixAddr with
      | some i =>
        show Function.update s.routingTable i { s.routingTable i with
          state := s.daoState d o.lifetime sender (s.routingTable i).state } = s.routingTable ↔ _
        rw [Function.update_eq_self_iff, withState_eq_iff]
      | none =>
        unfold daoRoute rplAddRoute addNewRoute uipDs6RouteAdd
        dsimp only
        rw [hlookup, ho]
        dsimp only
        have hzero : (0 : UInt8).toNat = 0 := rfl
        rw [hzero]
        cases hfind : uipDs6ListLoop (fun i => (s.routingTable i).toDs6Element) o.prefixAddr 0 with
        | found i =>
          dsimp only [setRoute]
          rw [Function.update_self, Function.update_idem, Function.update_eq_self_iff, ← withState_eq_iff]
          rfl
        | freespace i =>
          dsimp only [setRoute]
          rw [Function.update_self, Function.update_self, Function.update_idem, Function.update_idem,
            Function.update_eq_self_iff]
          have hfree : (s.routingTable i).isused = false := (ListLoop.freespace_spec hfind).1
          refine iff_of_false (fun h => ?_) not_false
          have hused := congrArg (fun r => r.isused) h
          rw [hfree] at hused
          cases hused
        | nospace =>
          -- a prefix of length zero matches every route in use, so that there is none
          obtain ⟨hall, hno⟩ := ListLoop.nospace_spec hfind
          refine iff_of_true (funext fun i => absurd ⟨hall i, ?_⟩ (hno i)) trivial
          simp [IpAddr.uipIpaddrPrefixcmp]

/-! ## Which messages are safe -/

/-- The options that `dao_input` comes to in a message of `n` bytes, whose length it keeps in a byte. -/
def DaoOption (buffer : ℕ → UInt8) (n i : ℕ) : Prop :=
  s.rplGetDag (buffer 0) none ≠ none ∧
    Leads (nextOption buffer (UInt8.ofNat n).toNat) (daoFirst (buffer 1)) i ∧ i < (UInt8.ofNat n).toNat

/-- `dao_input` reads only bytes of the message and writes only the 16 bytes of `prefix`, so that it comes
to its end, and without a target it leaves the routes as they are. -/
structure DaoSafe (stack sender : IpAddr) (buffer : ℕ → UInt8) (n : ℕ) : Prop where
  within : (s.readDao stack n).Within buffer (· < n)
  written : ∃ reply s', s.daoInput stack sender buffer (UInt8.ofNat n) = .ok (reply, s')
  routes : (∀ i, s.DaoOption buffer n i → buffer i ≠ rplOptionTarget) → ∀ reply s',
    s.daoInput stack sender buffer (UInt8.ofNat n) = .ok (reply, s') → s'.routingTable = s.routingTable

/-- The messages and nodes for which the missing checks make no difference: the base object and what is
read of each option lie in the message, no target is longer than an address, and a message without a
target, whatever `prefix` holds, has nothing to change. -/
structure DaoHarmless (stack sender : IpAddr) (buffer : ℕ → UInt8) (n : ℕ) : Prop where
  base : 0 < n ∧ (s.rplGetDag (buffer 0) none ≠ none → 3 < n)
  options : ∀ i, s.DaoOption buffer n i → DaoOptionFits buffer n i
  idle : (∀ i, s.DaoOption buffer n i → buffer i ≠ rplOptionTarget) → ∀ d o,
    s.rplGetDag (buffer 0) none = some d →
      daoOptions buffer (UInt8.ofNat n) stack (s.dagTable d).config.defaultLifetime = .ok o →
        s.DaoIdle d o sender

variable {s} {stack sender : IpAddr} {buffer : ℕ → UInt8} {n : ℕ} {d : cfg.DagRef}

/-- Without a target the options leave `prefix` and its length alone. -/
lemma parseDaoOptions_noTarget {bufferLength : ℕ} :
    ∀ fuel i o o', bufferLength ≤ i + fuel →
      (∀ j, Leads (nextOption buffer bufferLength) i j → j < bufferLength →
        buffer j ≠ rplOptionTarget) →
      parseDaoOptions buffer bufferLength fuel i o = .ok o' →
        o'.prefixAddr = o.prefixAddr ∧ o'.prefixlen = o.prefixlen := by
  intro fuel
  induction fuel with
  | zero =>
    intro i o o' _ _ h
    cases h
    exact ⟨rfl, rfl⟩
  | succ fuel ih =>
    intro i o o' hfuel hno h
    rw [parseDaoOptions] at h
    by_cases hi : i < bufferLength
    · have hnext : nextOption buffer bufferLength i = some (i + dioOptionLength buffer i) := if_pos hi
      have hlong : 1 ≤ dioOptionLength buffer i := by
        unfold dioOptionLength
        split <;> omega
      obtain ⟨hhere, hrest⟩ := (Leads.forall_iff_of_some hnext).mp hno
      rw [if_pos hi] at h
      obtain ⟨o₁, hone, h⟩ := bind_eq_ok.mp h
      obtain ⟨haddr, hlen⟩ := ih (i + dioOptionLength buffer i) o₁ o' (by omega) hrest h
      unfold parseDaoOption at hone
      rw [if_neg (hhere hi)] at hone
      split_ifs at hone
      · cases hone
        exact ⟨haddr, hlen⟩
      · cases hone
        exact ⟨haddr, hlen⟩
    · rw [if_neg hi] at h
      cases h
      exact ⟨rfl, rfl⟩

/-- For an instance that the node is not part of, only the first byte is read. -/
lemma daoSafe_iff_of_none (hdag : s.rplGetDag (buffer 0) none = none) :
    s.DaoSafe stack sender buffer n ↔ 0 < n := by
  have hinput : s.daoInput stack sender buffer (UInt8.ofNat n) = .ok (none, s) := by
    rw [daoInput, hdag]
  have hwithin : (s.readDao stack n).Within buffer (· < n) ↔ 0 < n := by
    rw [readDao, within_bind, within_read, run_read, hdag]
    exact and_iff_left (within_pure _ _ _)
  refine ⟨fun h => hwithin.mp h.within, fun hn => ⟨hwithin.mpr hn, ⟨none, s, hinput⟩, ?_⟩⟩
  intro _ reply s' h
  rw [hinput] at h
  cases h
  rfl

/-- For an instance of the node, the message is read up to its sequence number, and then its options. -/
lemma daoSafe_iff_of_some (hdag : s.rplGetDag (buffer 0) none = some d) :
    s.DaoSafe stack sender buffer n ↔
      3 < n ∧ (∀ i, s.DaoOption buffer n i → DaoOptionFits buffer n i) ∧
        ((∀ i, s.DaoOption buffer n i → buffer i ≠ rplOptionTarget) → ∀ o,
          daoOptions buffer (UInt8.ofNat n) stack (s.dagTable d).config.defaultLifetime = .ok o →
            s.DaoIdle d o sender) := by
  have hoption (P : ℕ → Prop) : (∀ i, s.DaoOption buffer n i → P i) ↔
      ∀ i, Leads (nextOption buffer (UInt8.ofNat n).toNat) (daoFirst (buffer 1)) i →
        i < (UInt8.ofNat n).toNat → P i := by
    unfold DaoOption
    rw [hdag]
    simp
  have hsafe := readDaoOptions_safe buffer n (ofNat_toNat_le n) (UInt8.ofNat n).toNat
    (daoFirst (buffer 1)) ⟨stack, 0, (s.dagTable d).config.defaultLifetime⟩ (by omega)
  rw [← hoption] at hsafe
  have hwithin : (s.readDao stack n).Within buffer (· < n) ↔
      3 < n ∧ (readDaoOptions (UInt8.ofNat n).toNat (UInt8.ofNat n).toNat (daoFirst (buffer 1))
        ⟨stack, 0, (s.dagTable d).config.defaultLifetime⟩).Within buffer (· < n) := by
    rw [readDao, within_bind, within_read, run_read, hdag]
    simp only [within_bind, within_read, run_read, within_pure, and_true]
    constructor
    · rintro ⟨-, -, hn, hoptions⟩
      exact ⟨hn, hoptions⟩
    · rintro ⟨hn, hoptions⟩
      exact ⟨by omega, by omega, hn, hoptions⟩
  have hinput := daoInput_eq buffer s stack sender n
  rw [run_readDao, hdag] at hinput
  dsimp only at hinput
  change _ ∧ (∃ o, daoOptions buffer (UInt8.ofNat n) stack (s.dagTable d).config.defaultLifetime =
    .ok o) ↔ _ at hsafe
  rw [← hsafe]
  cases hparse : daoOptions buffer (UInt8.ofNat n) stack (s.dagTable d).config.defaultLifetime with
  | error f =>
    rw [hparse] at hinput
    refine iff_of_false (fun h => ?_) ?_
    · obtain ⟨reply, s', hok⟩ := h.written
      rw [hinput] at hok
      cases hok
    · rintro ⟨-, ⟨-, o, ho⟩, -⟩
      cases ho
  | ok o =>
    rw [hparse] at hinput
    have hroutes (hno : ∀ i, s.DaoOption buffer n i → buffer i ≠ rplOptionTarget) :
        (∀ reply s', s.daoInput stack sender buffer (UInt8.ofNat n) = .ok (reply, s') →
          s'.routingTable = s.routingTable) ↔ s.DaoIdle d o sender := by
      have hlen : o.prefixlen = 0 := (parseDaoOptions_noTarget _ _ _ _ (by omega)
        ((hoption _).mp hno) hparse).2
      rw [hinput, ← s.daoUpdate_routingTable_iff hlen sender
        (bytesAt buffer 0 (UInt8.ofNat n).toNat) d (buffer 1) (buffer 3)]
      constructor
      · exact fun h => h _ _ rfl
      · intro h reply s' heq
        have hs' := congrArg Prod.snd (Except.ok.inj heq)
        rw [← h]
        exact congrArg Node.routingTable hs'.symm
    constructor
    · rintro ⟨hread, -, hsame⟩
      obtain ⟨hbase, hopts⟩ := hwithin.mp hread
      refine ⟨hbase, ⟨hopts, o, rfl⟩, fun hno o' ho' => ?_⟩
      cases ho'
      exact (hroutes hno).mp (hsame hno)
    · rintro ⟨hbase, ⟨hopts, -⟩, hidle⟩
      exact ⟨hwithin.mpr ⟨hbase, hopts⟩, ⟨_, _, hinput⟩, fun hno => (hroutes hno).mpr (hidle hno o rfl)⟩

/-- **Which DAOs are safe.**  Only bytes of the message are read, only the 16 bytes of `prefix` are
written, and a message without a target leaves the routes alone, if and only if the message holds what
is read and no target is longer than an address, and without a target there is nothing to change. -/
theorem daoSafe_iff (s : Node cfg) (stack sender : IpAddr) (buffer : ℕ → UInt8) (n : ℕ) :
    s.DaoSafe stack sender buffer n ↔ s.DaoHarmless stack sender buffer n := by
  cases hdag : s.rplGetDag (buffer 0) none with
  | none =>
    rw [daoSafe_iff_of_none hdag]
    constructor
    · intro hn
      refine ⟨⟨hn, fun h => absurd hdag h⟩, fun i hi => absurd hdag hi.1, fun _ d o hd => ?_⟩
      rw [hdag] at hd
      cases hd
    · exact fun h => h.base.1
  | some d =>
    have hne : s.rplGetDag (buffer 0) none ≠ none := by
      rw [hdag]
      simp
    rw [daoSafe_iff_of_some hdag]
    constructor
    · rintro ⟨hbase, hoptions, hidle⟩
      refine ⟨⟨by omega, fun _ => hbase⟩, hoptions, fun hno d' o hd' ho => ?_⟩
      rw [hdag] at hd'
      cases hd'
      exact hidle hno o ho
    · rintro ⟨hbase, hoptions, hidle⟩
      exact ⟨hbase.2 hne, hoptions, fun hno o ho => hidle hno d o hdag ho⟩

/-- A node that is the root of a DAG. -/
def rootNode : Node .default :=
  { boot 1 with
    dagTable := fun d => if d.val = 0 then { Dag.zero with used := true, joined := true } else .zero }

/-- A DAO with a target of 255 bits, which ends behind the length of the prefix. -/
def longTarget (i : ℕ) : UInt8 := [0, 0, 0, 1, 5, 34, 0, 255].getD i 0

/-- The prefix of 32 bytes is read from behind the message, and written over what follows `prefix`. -/
theorem not_daoSafe : ¬∀ (s : Node .default) (stack sender : IpAddr) (buffer : ℕ → UInt8) (n : ℕ),
    s.DaoSafe stack sender buffer n := by
  intro hall
  have hdag : (rootNode.rplGetDag (longTarget 0) none).isSome = true := by decide
  obtain ⟨d, hd⟩ := Option.isSome_iff_exists.mp hdag
  have hsafe := hall rootNode .unspecified .unspecified longTarget 8
  obtain ⟨-, hoptions, -⟩ := (daoSafe_iff_of_some hd).mp hsafe
  have hfits := hoptions 4 ⟨by rw [hd]; simp, .refl 4, by decide⟩
  exact absurd (hfits.target rfl).2.1 (by decide)

end Node
end Contiki

import Contiki.Net.ParkedPackets
import Mathlib.Data.Fintype.EquivFin
import Mathlib.Data.Fintype.Lattice

/-!
# Which neighbour makes room for a new one

A full neighbour cache gives up the entry with the least time stamp, if that lies before the clock; the
stamp of an entry is the time of its insertion.  Beside the cache a history keeps for each entry when it
was last used, by an insertion or by a look-up that found it, counted in calls.  An addition evicts
the entry that was used longest ago exactly when that entry is the one with the least stamp
(`addsWell_iff`), which is so in orderly histories (`Orderly.evictable`): no two additions in a
tick, no clock that has wrapped, no look-ups of old entries.
-/

namespace Contiki

namespace IpStack
variable {cfg : StackConfig} {δ : Type} (s : IpStack cfg δ) {i j : Fin cfg.nbrNb}

/-- The entry has the least time stamp, before the clock, and is the first with it. -/
structure LeastStamp (i : Fin cfg.nbrNb) : Prop where
  used : (s.nbrCache i).isused = true
  before : (s.nbrCache i).lastLookup < s.clockTime
  least : ∀ j, (s.nbrCache j).isused = true →
    (s.nbrCache i).lastLookup ≤ (s.nbrCache j).lastLookup ∧
      ((s.nbrCache j).lastLookup = (s.nbrCache i).lastLookup → i ≤ j)

variable {s}

/-- The loop over the first entries of the cache. -/
lemma foldl_oldest (s : IpStack cfg δ) {l : List (Fin cfg.nbrNb)} (hl : l.Pairwise (· < ·)) :
    let r := l.foldl
      (fun (oldest : Option (Fin cfg.nbrNb) × BitVec cfg.clockWidth) i =>
        if (s.nbrCache i).isused ∧ (s.nbrCache i).lastLookup < oldest.2 then
          (some i, (s.nbrCache i).lastLookup)
        else oldest) (none, s.clockTime)
    (r = (none, s.clockTime) ∧
      ∀ j ∈ l, (s.nbrCache j).isused = true → s.clockTime ≤ (s.nbrCache j).lastLookup) ∨
    ∃ i ∈ l, r = (some i, (s.nbrCache i).lastLookup) ∧ (s.nbrCache i).isused = true ∧
      (s.nbrCache i).lastLookup < s.clockTime ∧
      ∀ j ∈ l, (s.nbrCache j).isused = true →
        (s.nbrCache i).lastLookup ≤ (s.nbrCache j).lastLookup ∧
          ((s.nbrCache j).lastLookup = (s.nbrCache i).lastLookup → i ≤ j) := by
  induction l using List.reverseRecOn with
  | nil => exact .inl ⟨rfl, fun j hj => absurd hj List.not_mem_nil⟩
  | append_singleton l k ih =>
      obtain ⟨hl', -, hlast⟩ := List.pairwise_append.mp hl
      have hbehind : ∀ j ∈ l, j < k := fun j hj => hlast j hj k (List.mem_singleton_self k)
      simp only [List.foldl_append, List.foldl_cons, List.foldl_nil, BitVec.lt_def, BitVec.le_def] at ih ⊢
      rcases ih hl' with ⟨hr, hnone⟩ | ⟨i, hi, hr, hused, hbefore, hleast⟩
      · rw [hr]
        by_cases hk : (s.nbrCache k).isused = true ∧
            (s.nbrCache k).lastLookup.toNat < s.clockTime.toNat
        · refine .inr ⟨k, by simp, if_pos hk, hk.1, hk.2, fun j hj hjused => ?_⟩
          rcases List.mem_append.mp hj with hj | hj
          · have hlate := hnone j hj hjused
            have hless := hk.2
            exact ⟨by omega, fun heq => by rw [heq] at hlate; omega⟩
          · rw [List.mem_singleton.mp hj]
            exact ⟨le_refl _, fun _ => le_refl k⟩
        · refine .inl ⟨if_neg hk, fun j hj hjused => ?_⟩
          rcases List.mem_append.mp hj with hj | hj
          · exact hnone j hj hjused
          · rw [List.mem_singleton.mp hj] at hjused ⊢
            exact not_lt.mp fun hless => hk ⟨hjused, hless⟩
      · rw [hr]
        by_cases hk : (s.nbrCache k).isused = true ∧
            (s.nbrCache k).lastLookup.toNat < (s.nbrCache i).lastLookup.toNat
        · refine .inr ⟨k, by simp, if_pos hk, hk.1, hk.2.trans hbefore, fun j hj hjused => ?_⟩
          rcases List.mem_append.mp hj with hj | hj
          · obtain ⟨hle, -⟩ := hleast j hj hjused
            have hless := hk.2
            exact ⟨by omega, fun heq => by rw [heq] at hle; omega⟩
          · rw [List.mem_singleton.mp hj]
            exact ⟨le_refl _, fun _ => le_refl k⟩
        · refine .inr ⟨i, List.mem_append_left _ hi, if_neg hk, hused, hbefore, fun j hj hjused => ?_⟩
          rcases List.mem_append.mp hj with hj | hj
          · exact hleast j hj hjused
          · rw [List.mem_singleton.mp hj] at hjused ⊢
            exact ⟨not_lt.mp fun hless => hk ⟨hjused, hless⟩, fun _ => (hbehind i hi).le⟩

/-- The loop of `uip_ds6_nbr_add` gives the first entry with the least stamp. -/
lemma oldestNbr_eq_some : s.oldestNbr = some i ↔ s.LeastStamp i := by
  have hall : ∀ j : Fin cfg.nbrNb, j ∈ List.finRange cfg.nbrNb := List.mem_finRange
  unfold oldestNbr
  rcases foldl_oldest s (List.pairwise_lt_finRange cfg.nbrNb) with
    ⟨hr, hnone⟩ | ⟨k, -, hr, hused, hbefore, hleast⟩
  · rw [hr]
    constructor
    · intro h
      simp at h
    · intro h
      have hlate := hnone i (hall i) h.used
      exact absurd h.before (BitVec.not_lt.mpr hlate)
  · rw [hr]
    constructor
    · intro h
      obtain rfl := Option.some.inj h
      exact ⟨hused, hbefore, fun j hj => hleast j (hall j) hj⟩
    · intro h
      obtain ⟨hle, hfirst⟩ := hleast i (hall i) h.used
      obtain ⟨hle', hfirst'⟩ := h.least k hused
      have heq : (s.nbrCache i).lastLookup = (s.nbrCache k).lastLookup := BitVec.le_antisymm hle' hle
      exact congrArg some (le_antisymm (hfirst heq) (hfirst' heq.symm))

/-- An address that is not in the cache gets the entry for it, when there is one. -/
lemma uipDs6NbrAdd_fst {ipaddr : IpAddr} (hnew : s.uipDs6NbrLookup ipaddr = none)
    (lladdr : Option Lladdr) (isrouter : Bool) (state : NbrState) :
    (s.uipDs6NbrAdd ipaddr lladdr isrouter state).1 = s.slotFor ipaddr := by
  rcases uipDs6NbrAdd_cases s ipaddr lladdr isrouter state with ⟨hres, -, hsame⟩ | ⟨i, t, heq, hslot, -⟩
  · rw [hres]
    unfold uipDs6NbrAdd at hres hsame
    unfold uipDs6NbrLookup at hnew
    unfold slotFor
    rw [nbrAddFrom] at hres hsame
    cases hloop : s.nbrLoop ipaddr with
    | found i =>
      rw [hloop] at hnew
      cases hnew
    | freespace i =>
      rw [hloop] at hres
      cases hres
    | nospace =>
      cases hold : s.oldestNbr with
      | none => rfl
      | some i =>
        -- a removal would have been seen
        rw [hloop, hold] at hres hsame
        dsimp only at hres hsame
        have hused := (oldestNbr_eq_some.mp hold).used
        rw [nbrAddFrom] at hres hsame
        cases hloop' : (s.uipDs6NbrRm i).nbrLoop ipaddr with
        | found j =>
          rw [hloop'] at hsame
          have hgone : ((s.uipDs6NbrRm i).nbrCache i).isused = false := by
            rw [uipDs6NbrRm_isused, if_pos rfl]
          rw [show s.uipDs6NbrRm i = s from hsame, hused] at hgone
          cases hgone
        | freespace j =>
          rw [hloop'] at hres
          cases hres
        | nospace =>
          have hall : ((s.uipDs6NbrRm i).nbrCache i).isused = true :=
            (ListLoop.nospace_spec hloop').1 i
          rw [uipDs6NbrRm_isused, if_pos rfl] at hall
          cases hall
  · rw [heq, hslot]

lemma uipDs6NbrRm_clockTime (s : IpStack cfg δ) (i : Fin cfg.nbrNb) :
    (s.uipDs6NbrRm i).clockTime = s.clockTime := by
  unfold uipDs6NbrRm uipPacketqueueFree
  split <;> rfl

lemma fillNbr_lastLookup (s : IpStack cfg δ) (i : Fin cfg.nbrNb) (ipaddr : IpAddr)
    (lladdr : Option Lladdr) (isrouter : Bool) (state : NbrState) :
    ((s.fillNbr i ipaddr lladdr isrouter state).nbrCache i).lastLookup = s.clockTime := by
  unfold fillNbr uipPacketqueueNew
  rw [setNbr_self, setNbr_self]

/-- A new entry carries the time of its insertion. -/
lemma uipDs6NbrAdd_lastLookup {s' : IpStack cfg δ} {ipaddr : IpAddr} {lladdr : Option Lladdr}
    {isrouter : Bool} {state : NbrState} (h : s.uipDs6NbrAdd ipaddr lladdr isrouter state = (some i, s')) :
    (s'.nbrCache i).lastLookup = s.clockTime := by
  have hfrom (calls : ℕ) : ∀ s : IpStack cfg δ,
      nbrAddFrom ipaddr lladdr isrouter state calls s = (some i, s') →
      (s'.nbrCache i).lastLookup = s.clockTime := by
    induction calls with
    | zero =>
      intro s h
      cases h
    | succ calls ih =>
      intro s h
      rw [nbrAddFrom] at h
      split at h
      · cases h
        exact fillNbr_lastLookup s i ipaddr lladdr isrouter state
      · cases h
      · split at h
        · rw [ih _ h, uipDs6NbrRm_clockTime]
        · cases h
  exact hfrom 2 s h

end IpStack

/-! ## Histories -/

/-- A call of the cache, or a change of the clock. -/
inductive NbrCall (cfg : StackConfig)
  | clock (time : BitVec cfg.clockWidth)
  | lookup (ipaddr : IpAddr)
  | add (ipaddr : IpAddr) (lladdr : Option Lladdr) (isrouter : Bool) (state : NbrState)

/-- The stack, the number of calls so far, and for each entry the call that used it last. -/
structure NbrHistory (cfg : StackConfig) (δ : Type) where
  stack : IpStack cfg δ
  calls : ℕ
  lastUse : Fin cfg.nbrNb → ℕ

namespace NbrHistory
variable {cfg : StackConfig} {δ : Type} (h : NbrHistory cfg δ) {i j : Fin cfg.nbrNb}

/-- An entry is used. -/
def use (i : Fin cfg.nbrNb) : NbrHistory cfg δ :=
  { h with calls := h.calls + 1, lastUse := Function.update h.lastUse i h.calls }

/-- The history after one more call. -/
def call : NbrCall cfg → NbrHistory cfg δ
  | .clock time => { h with stack := { h.stack with clockTime := time } }
  | .lookup ipaddr =>
    match h.stack.uipDs6NbrLookup ipaddr with
    | some i => h.use i
    | none => h
  | .add ipaddr lladdr isrouter state =>
    match h.stack.uipDs6NbrAdd ipaddr lladdr isrouter state with
    | (some i, stack) => { h with stack }.use i
    | (none, stack) => { h with stack }

/-- The history after some calls. -/
def run (cs : List (NbrCall cfg)) : NbrHistory cfg δ := cs.foldl call h

/-- An addition of an address that is not in the cache succeeds; the other entries stay, and when the
cache was full the one that was given up is the one that was used longest ago. -/
def AddsWell : NbrCall cfg → Prop
  | .add ipaddr lladdr isrouter state =>
    h.stack.uipDs6NbrLookup ipaddr = none →
      ∃ i stack, h.stack.uipDs6NbrAdd ipaddr lladdr isrouter state = (some i, stack) ∧
        (stack.nbrCache i).isused = true ∧ (stack.nbrCache i).ipaddr = ipaddr ∧
        (∀ j, j ≠ i → stack.nbrCache j = h.stack.nbrCache j) ∧
        ((∀ j, (h.stack.nbrCache j).isused = true) → ∀ j, h.lastUse i ≤ h.lastUse j)
  | _ => True

/-- When a new address comes to a full cache, the first entry with the least stamp has a stamp before
the clock, and was used longest ago. -/
def Evictable : NbrCall cfg → Prop
  | .add ipaddr _ _ _ =>
    h.stack.uipDs6NbrLookup ipaddr = none → (∀ j, (h.stack.nbrCache j).isused = true) →
      ∃ i, h.stack.LeastStamp i ∧ ∀ j, h.lastUse i ≤ h.lastUse j
  | _ => True

variable {h}

/-- **One addition.** -/
lemma addsWell_call_iff (c : NbrCall cfg) : h.AddsWell c ↔ h.Evictable c := by
  cases c with
  | clock time => exact Iff.rfl
  | lookup ipaddr => exact Iff.rfl
  | add ipaddr lladdr isrouter state =>
    refine forall_congr' fun hnew => ?_
    have hfst := IpStack.uipDs6NbrAdd_fst hnew lladdr isrouter state
    have hslot : (∀ j, (h.stack.nbrCache j).isused = true) →
        h.stack.slotFor ipaddr = h.stack.oldestNbr := by
      intro hfull
      unfold IpStack.uipDs6NbrLookup at hnew
      unfold IpStack.slotFor
      cases hloop : h.stack.nbrLoop ipaddr with
      | found i =>
        rw [hloop] at hnew
        cases hnew
      | freespace i =>
        have hfree : (h.stack.nbrCache i).isused = false := (ListLoop.freespace_spec hloop).1
        rw [hfull i] at hfree
        cases hfree
      | nospace => rfl
    constructor
    · rintro ⟨i, stack, heq, -, -, -, hold⟩ hfull
      rw [heq, hslot hfull] at hfst
      exact ⟨i, IpStack.oldestNbr_eq_some.mp hfst.symm, hold hfull⟩
    · intro hevict
      have hroom : ∃ i, h.stack.slotFor ipaddr = some i ∧
          ((∀ j, (h.stack.nbrCache j).isused = true) → ∀ j, h.lastUse i ≤ h.lastUse j) := by
        by_cases hfull : ∀ j, (h.stack.nbrCache j).isused = true
        · obtain ⟨i, hleast, hold⟩ := hevict hfull
          exact ⟨i, (hslot hfull).trans (IpStack.oldestNbr_eq_some.mpr hleast), fun _ => hold⟩
        · unfold IpStack.uipDs6NbrLookup at hnew
          unfold IpStack.slotFor
          cases hloop : h.stack.nbrLoop ipaddr with
          | found i =>
            rw [hloop] at hnew
            cases hnew
          | freespace i => exact ⟨i, rfl, fun hall => absurd hall hfull⟩
          | nospace => exact absurd (ListLoop.nospace_spec hloop).1 hfull
      obtain ⟨i, hi, hold⟩ := hroom
      rcases IpStack.uipDs6NbrAdd_cases h.stack ipaddr lladdr isrouter state with
        ⟨hres, -⟩ | ⟨k, t, heq, hk, -, -, hsame, -⟩
      · rw [hres, hi] at hfst
        cases hfst
      · rw [hi] at hk
        obtain rfl := Option.some.inj hk
        obtain ⟨hused, haddr⟩ := IpStack.fillNbr_self (t := t) (i := i) (a := ipaddr) (l := lladdr)
          (r := isrouter) (n := state)
        exact ⟨i, _, heq, hused, haddr, fun j hj => (IpStack.fillNbr_of_ne hj).trans (hsame j hj), hold⟩

/-- **Evictions.**  Over any history of look-ups, additions and clock values, every addition of a new
address succeeds and evicts the entry that was used longest ago, if and only if at each of them that
entry has the least stamp, before the clock. -/
theorem addsWell_iff (h : NbrHistory cfg δ) (cs : List (NbrCall cfg)) :
    (∀ pre c, pre ++ [c] <+: cs → (h.run pre).AddsWell c) ↔
      ∀ pre c, pre ++ [c] <+: cs → (h.run pre).Evictable c :=
  forall_congr' fun _ => forall_congr' fun c => forall_congr' fun _ => addsWell_call_iff c

/-- A stack with room for one neighbour, and nothing used. -/
def oneNeighbor : NbrHistory IpStack.smallCfg Unit := ⟨IpStack.smallStack 0, 0, fun _ => 0⟩

/-- The addition of the router with the last byte `b`. -/
def addRouter (b : UInt8) : NbrCall IpStack.smallCfg :=
  .add (.ofBytes (0xfe :: 0x80 :: List.replicate 13 0 ++ [b])) none true .stale

/-- Of two additions in one tick the second fails. -/
theorem not_addsWell : ¬∀ (h : NbrHistory IpStack.smallCfg Unit) (cs : List (NbrCall IpStack.smallCfg)),
    ∀ pre c, pre ++ [c] <+: cs → (h.run pre).AddsWell c := by
  intro hall
  have hsecond := hall oneNeighbor [addRouter 1, addRouter 2] [addRouter 1] (addRouter 2)
    (List.prefix_refl _)
  obtain ⟨i, stack, hadd, -⟩ := hsecond rfl
  have hfails : ((oneNeighbor.run [addRouter 1]).stack.uipDs6NbrAdd
      (.ofBytes (0xfe :: 0x80 :: List.replicate 13 0 ++ [2])) none true .stale).1 = none := rfl
  rw [hadd] at hfails
  cases hfails

/-! ### Histories without bursts -/

variable (h) in
/-- The later an entry was used, the greater is its stamp. -/
structure Orderly : Prop where
  past : ∀ i, (h.stack.nbrCache i).isused = true → h.lastUse i < h.calls
  ordered : ∀ i j, (h.stack.nbrCache i).isused = true → (h.stack.nbrCache j).isused = true → i ≠ j →
    h.lastUse i < h.lastUse j ∧ (h.stack.nbrCache i).lastLookup < (h.stack.nbrCache j).lastLookup ∨
      h.lastUse j < h.lastUse i ∧ (h.stack.nbrCache j).lastLookup < (h.stack.nbrCache i).lastLookup

variable (h) in
/-- Additions come at a time that is later than all stamps, and look-ups find the entry that was used
last. -/
def Unhurried : NbrCall cfg → Prop
  | .clock _ => True
  | .lookup ipaddr => ∀ i, h.stack.uipDs6NbrLookup ipaddr = some i →
    ∀ j, (h.stack.nbrCache j).isused = true → h.lastUse j ≤ h.lastUse i
  | .add .. => ∀ j, (h.stack.nbrCache j).isused = true →
    (h.stack.nbrCache j).lastLookup < h.stack.clockTime

/-- An entry that carries the greatest stamp is used, and the others are in order. -/
lemma orderly_use
    (hpast : ∀ j, (h.stack.nbrCache j).isused = true → j ≠ i → h.lastUse j < h.calls)
    (hordered : ∀ j k, (h.stack.nbrCache j).isused = true → (h.stack.nbrCache k).isused = true →
      j ≠ i → k ≠ i → j ≠ k →
      h.lastUse j < h.lastUse k ∧ (h.stack.nbrCache j).lastLookup < (h.stack.nbrCache k).lastLookup ∨
        h.lastUse k < h.lastUse j ∧ (h.stack.nbrCache k).lastLookup < (h.stack.nbrCache j).lastLookup)
    (hlast : ∀ j, (h.stack.nbrCache j).isused = true → j ≠ i →
      (h.stack.nbrCache j).lastLookup < (h.stack.nbrCache i).lastLookup) : (h.use i).Orderly := by
  have hself : (h.use i).lastUse i = h.calls := Function.update_self ..
  have hother : ∀ j, j ≠ i → (h.use i).lastUse j = h.lastUse j := fun j hj => Function.update_of_ne hj ..
  refine ⟨fun j hj => ?_, fun j k hj hk hjk => ?_⟩
  · show (h.use i).lastUse j < h.calls + 1
    by_cases hji : j = i
    · rw [hji, hself]
      exact Nat.lt_succ_self _
    · rw [hother j hji]
      exact (hpast j hj hji).trans (Nat.lt_succ_self _)
  · by_cases hji : j = i
    · subst hji
      rw [hself, hother k hjk.symm]
      exact .inr ⟨hpast k hk hjk.symm, hlast k hk hjk.symm⟩
    · by_cases hki : k = i
      · subst hki
        rw [hself, hother j hji]
        exact .inl ⟨hpast j hj hji, hlast j hj hji⟩
      · rw [hother j hji, hother k hki]
        exact hordered j k hj hk hji hki hjk

/-- One unhurried call keeps the order. -/
lemma Orderly.call (hord : h.Orderly) {c : NbrCall cfg} (hc : h.Unhurried c) : (h.call c).Orderly := by
  cases c with
  | clock time => exact ⟨hord.past, hord.ordered⟩
  | lookup ipaddr =>
    rw [NbrHistory.call]
    cases hlook : h.stack.uipDs6NbrLookup ipaddr with
    | none => exact hord
    | some i =>
      have hused : (h.stack.nbrCache i).isused = true := by
        unfold IpStack.uipDs6NbrLookup at hlook
        split at hlook
        · rename_i k hloop
          cases hlook
          exact (ListLoop.found_spec hloop).1
        · cases hlook
      refine orderly_use (fun j hj _ => hord.past j hj) (fun j k hj hk _ _ => hord.ordered j k hj hk)
        fun j hj hji => ?_
      rcases hord.ordered j i hj hused hji with ⟨-, hlt⟩ | ⟨hlt, -⟩
      · exact hlt
      · have hle := hc i hlook j hj
        omega
  | add ipaddr lladdr isrouter state =>
    rw [NbrHistory.call]
    rcases IpStack.uipDs6NbrAdd_cases h.stack ipaddr lladdr isrouter state with
      ⟨hres, -, hsame⟩ | ⟨i, t, heq, -, -, -, hsame, -⟩
    · cases hadd : h.stack.uipDs6NbrAdd ipaddr lladdr isrouter state with
      | mk found stack =>
        rw [hadd] at hres hsame
        dsimp only at hres hsame
        subst hres hsame
        exact hord
    · have hstamp := IpStack.uipDs6NbrAdd_lastLookup heq
      have hold : ∀ j, j ≠ i → (t.fillNbr i ipaddr lladdr isrouter state).nbrCache j =
          h.stack.nbrCache j := fun j hj => (IpStack.fillNbr_of_ne hj).trans (hsame j hj)
      rw [heq]
      refine orderly_use (fun j hj hji => ?_) (fun j k hj hk hji hki hjk => ?_) fun j hj hji => ?_
      · exact hord.past j (hold j hji ▸ hj)
      · show h.lastUse j < h.lastUse k ∧ _ ∨ h.lastUse k < h.lastUse j ∧ _
        rw [hold j hji, hold k hki]
        exact hord.ordered j k (hold j hji ▸ hj) (hold k hki ▸ hk) hjk
      · rw [hold j hji, hstamp]
        exact hc j (hold j hji ▸ hj)

/-- In an orderly history, the entry that was used longest ago has the least stamp. -/
lemma Orderly.evictable (hord : h.Orderly) (hpos : 0 < cfg.nbrNb) {c : NbrCall cfg}
    (hc : h.Unhurried c) : h.Evictable c := by
  cases c with
  | clock time => trivial
  | lookup ipaddr => trivial
  | add ipaddr lladdr isrouter state =>
    intro _ hfull
    have hne : Nonempty (Fin cfg.nbrNb) := ⟨⟨0, hpos⟩⟩
    obtain ⟨i, hmin⟩ := Finite.exists_min h.lastUse
    refine ⟨i, ⟨hfull i, hc i (hfull i), fun j _ => ?_⟩, hmin⟩
    by_cases hji : j = i
    · rw [hji]
      exact ⟨BitVec.le_refl _, fun _ => le_refl i⟩
    · rcases hord.ordered j i (hfull j) (hfull i) hji with ⟨hlt, -⟩ | ⟨-, hlt⟩
      · have hle := hmin j
        omega
      · rw [BitVec.lt_def] at hlt
        refine ⟨BitVec.le_def.mpr hlt.le, fun heq => ?_⟩
        rw [heq] at hlt
        exact absurd hlt (lt_irrefl _)

/-- **Histories without bursts.**  When additions come at a time later than all stamps and look-ups
find the entry that was used last, every addition evicts the entry that was used longest ago. -/
theorem Orderly.addsWell (hord : h.Orderly) (hpos : 0 < cfg.nbrNb) {cs : List (NbrCall cfg)}
    (hcs : ∀ pre c, pre ++ [c] <+: cs → (h.run pre).Unhurried c) :
    ∀ pre c, pre ++ [c] <+: cs → (h.run pre).AddsWell c := by
  have hrun : ∀ pre, pre <+: cs → (h.run pre).Orderly := by
    intro pre
    induction pre using List.reverseRecOn with
    | nil => exact fun _ => hord
    | append_singleton pre c ih =>
      intro hpre
      have hbefore := ih ((List.prefix_append pre [c]).trans hpre)
      rw [NbrHistory.run, List.foldl_append]
      exact hbefore.call (hcs pre c hpre)
  intro pre c hpre
  have hbefore := hrun pre ((List.prefix_append pre [c]).trans hpre)
  exact (addsWell_call_iff c).mpr (hbefore.evictable hpos (hcs pre c hpre))

end NbrHistory
end Contiki

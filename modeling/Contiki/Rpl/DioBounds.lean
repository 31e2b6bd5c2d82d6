import Contiki.Lib.Walk
import Contiki.Rpl.DioReads

/-!
# Reads beyond the end of a DIO

A DIO announces its extent at three levels: the base object, the options and the metric objects
inside of a metric container.  `dio_input` checks only the options against the length of the
message, and that length it keeps in a byte.  `dioSafe_iff` says for which messages no byte
outside is read and nothing incomplete is accepted.
-/

namespace Contiki

open Reads

section Bounds
variable (buffer : ℕ → UInt8)

/-! ## The loops as walks -/

/-- The loop over the metric objects of an option that ends at `stop`. -/
def objectStep (stop : ℕ) (x : ℕ × Dio) : Option (ℕ × Dio) :=
  if x.1 < stop then
    (parseMetricContainer buffer x.1 x.2).map (x.1 + (4 + (buffer (x.1 + 3)).toNat), ·)
  else none

/-- The loop over the options; it does not go on behind an option that it refuses. -/
def optionStep (bufferLength : ℕ) (x : ℕ × Dio) : Option (ℕ × Dio) :=
  let len := dioOptionLength buffer x.1
  if x.1 < bufferLength ∧ len + x.1 ≤ bufferLength then
    (parseDioOption buffer x.1 len x.2).map (x.1 + len, ·)
  else none

variable {buffer} in
lemma optionStep_of_ge {bufferLength i : ℕ} (hi : bufferLength ≤ i) (dio : Dio) :
    optionStep buffer bufferLength (i, dio) = none :=
  if_neg fun h => absurd h.1 (Nat.not_lt.mpr hi)

variable {buffer} in
lemma optionStep_of_gt {bufferLength i : ℕ} (hlen : bufferLength < dioOptionLength buffer i + i)
    (dio : Dio) : optionStep buffer bufferLength (i, dio) = none :=
  if_neg fun h => absurd h.2 (Nat.not_le.mpr hlen)

variable {buffer} in
lemma optionStep_of_le {bufferLength i : ℕ} (hi : i < bufferLength)
    (hlen : dioOptionLength buffer i + i ≤ bufferLength) (dio : Dio) :
    optionStep buffer bufferLength (i, dio) =
      (parseDioOption buffer i (dioOptionLength buffer i) dio).map
        (i + dioOptionLength buffer i, ·) :=
  if_pos ⟨hi, hlen⟩

/-! ## Where the accesses lie -/

variable (n : ℕ)

/-- The bytes of a metric object that `dio_input` reads lie in the message: its header and, if its
type is handled, two more. -/
def ObjectFits (j : ℕ) : Prop :=
  j + 4 ≤ n ∧
    (buffer j = rplDagMcEtx ∨ buffer j = rplDagMcEnergy ∧ (buffer (j + 1) <<< 1) &&& rplDagMcFlagC = 0 →
      j + 6 ≤ n)

/-- The bytes of an option that `dio_input` reads lie in the message of which it takes
`bufferLength` bytes into account: the length, and the objects of a metric container. -/
def OptionFits (bufferLength : ℕ) (x : ℕ × Dio) : Prop :=
  let len := dioOptionLength buffer x.1
  (buffer x.1 = rplOptionPad1 ∨ x.1 + 1 < n) ∧
    (buffer x.1 = rplOptionDagMetricContainer ∧ 6 ≤ len ∧ x.1 + len ≤ bufferLength →
      ∀ y, Leads (objectStep buffer (x.1 + len)) (x.1 + 2, x.2) y → y.1 < x.1 + len →
        ObjectFits buffer n y.1)

lemma within_readGet16 (pos : ℕ) :
    (readGet16 pos).Within buffer (· < n) ↔ pos + 1 < n := by
  simp only [readGet16, within_bind, within_read, within_pure, and_true]
  omega

lemma within_readGet32 (pos : ℕ) :
    (readGet32 pos).Within buffer (· < n) ↔ pos + 3 < n := by
  simp only [readGet32, within_bind, within_read, within_pure, and_true]
  omega

lemma within_readDioBase : readDioBase.Within buffer (· < n) ↔ 24 ≤ n := by
  simp only [readDioBase, within_bind, within_read, within_pure, within_readGet16,
    within_readRange, and_true]
  omega

lemma within_readMetricHead (j : ℕ) :
    (readMetricHead j).Within buffer (· < n) ↔ j + 4 ≤ n := by
  simp only [readMetricHead, within_bind, within_read, within_pure, and_true]
  omega

lemma within_readMetricObject (j : ℕ) (dio : Dio) :
    (readMetricObject j dio).Within buffer (· < n) ↔ ObjectFits buffer n j := by
  simp only [readMetricObject, within_bind, within_ite, within_readMetricHead, within_readGet16,
    within_pure]
  simp only [run_read, within_read, run_readMetricHead, ObjectFits]
  have htype : (readMetricContainer buffer j 0).type = buffer j := rfl
  rw [htype]
  have hne : rplDagMcEnergy ≠ rplDagMcEtx := by decide
  by_cases hc : (buffer (j + 1) <<< 1) &&& rplDagMcFlagC = 0
  · by_cases he : buffer j = rplDagMcEtx
    · simp [hc, he]
      omega
    · by_cases hn : buffer j = rplDagMcEnergy
      · simp [hc, hn, hne]
        omega
      · simp [hc, he, hn]
        omega
  · by_cases he : buffer j = rplDagMcEtx
    · simp [hc, he]
      omega
    · simp [hc, he]
      omega

lemma within_readMetricObjects (stop : ℕ) :
    ∀ fuel j dio, stop ≤ j + fuel →
      ((readMetricObjects stop fuel j dio).Within buffer (· < n) ↔
        ∀ y, Leads (objectStep buffer stop) (j, dio) y → y.1 < stop → ObjectFits buffer n y.1) := by
  intro fuel
  induction fuel with
  | zero =>
    intro j dio hfuel
    have hj : ¬j < stop := by omega
    rw [Leads.forall_iff_of_none (by rw [objectStep, if_neg hj])]
    simp [readMetricObjects, hj]
  | succ fuel ih =>
    intro j dio hfuel
    by_cases hj : j < stop
    · simp only [readMetricObjects, if_pos hj, within_bind, within_read, within_ifSome,
        within_readMetricObject, run_readMetricObject, run_read]
      cases hparse : parseMetricContainer buffer j dio with
      | none =>
        rw [Leads.forall_iff_of_none (by rw [objectStep, if_pos hj, hparse]; rfl)]
        simp only [ObjectFits, hj]
        constructor
        · rintro ⟨-, h, -⟩ -
          exact h
        · intro h
          refine ⟨by have := (h trivial).1; omega, h trivial, ?_⟩
          intro a ha
          cases ha
      | some dio' =>
        rw [Leads.forall_iff_of_some
          (b := (j + (4 + (buffer (j + 3)).toNat), dio'))
          (by rw [objectStep, if_pos hj, hparse]; rfl)]
        rw [← ih _ _ (by omega)]
        constructor
        · rintro ⟨-, h, hrest⟩
          exact ⟨fun _ => h, hrest dio' rfl⟩
        · rintro ⟨h, hrest⟩
          refine ⟨by have := (h hj).1; omega, h hj, ?_⟩
          intro a ha
          cases ha
          exact hrest
    · rw [Leads.forall_iff_of_none (by rw [objectStep, if_neg hj])]
      simp [readMetricObjects, hj]

lemma within_readRouteInfo {i len : ℕ} (h : i + len ≤ n) :
    (readRouteInfo i len).Within buffer (· < n) := by
  simp only [readRouteInfo, within_bind, within_ite, within_pure, within_readGet32,
    within_readRange, implies_true, and_true, true_and]
  simp only [run_read, within_read]
  omega

lemma within_readDagConf {i len : ℕ} (h : i + len ≤ n) :
    (readDagConf i len).Within buffer (· < n) := by
  simp only [readDagConf, within_bind, within_ite, within_pure, within_readGet16, within_read,
    implies_true, and_true, true_and]
  omega

lemma within_readPrefixInfo {i len : ℕ} (h : i + len ≤ n) :
    (readPrefixInfo i len).Within buffer (· < n) := by
  simp only [readPrefixInfo, within_bind, within_ite, within_pure, within_readGet32, within_read,
    within_readRange, implies_true, and_true, true_and]
  omega

lemma within_readRdo {i len : ℕ} (h : i + len ≤ n) :
    (readRdo i len).Within buffer (· < n) := by
  simp only [readRdo, within_bind, within_ite, within_pure, within_readRange, implies_true,
    and_true, true_and]
  simp only [within_read]
  omega

lemma within_readOptionLength (i : ℕ) :
    (readOptionLength (buffer i) i).Within buffer (· < n) ↔
      buffer i = rplOptionPad1 ∨ i + 1 < n := by
  simp only [readOptionLength, within_bind, within_ite, within_pure, within_read]
  by_cases hi : buffer i = rplOptionPad1
  · simp [hi]
  · simp [hi]

/-- Of the options that end inside the message only the metric container is read beyond it. -/
lemma within_readDioOption {i len : ℕ} (h : i + len ≤ n) (dio : Dio) :
    (readDioOption (buffer i) i len dio).Within buffer (· < n) ↔
      (buffer i = rplOptionDagMetricContainer ∧ 6 ≤ len →
        ∀ y, Leads (objectStep buffer (i + len)) (i + 2, dio) y → y.1 < i + len →
          ObjectFits buffer n y.1) := by
  have hobjects := within_readMetricObjects buffer n (i + len) len (i + 2) dio (by omega)
  by_cases hmc : buffer i = rplOptionDagMetricContainer
  · by_cases hlen : len < 6
    · have hlen' : ¬6 ≤ len := by omega
      simp [readDioOption, hmc, hlen, hlen']
    · have hlen' : 6 ≤ len := by omega
      rw [readDioOption, if_pos hmc, if_neg hlen, hobjects]
      simp [hmc, hlen']
  · refine iff_of_true ?_ fun hcontra => absurd hcontra.1 hmc
    simp only [readDioOption, hmc, within_ite, within_ifSome, within_pure,
      within_readRouteInfo buffer n h, within_readDagConf buffer n h,
      within_readPrefixInfo buffer n h, within_readRdo buffer n h]
    simp

lemma within_readDioOptions {bufferLength : ℕ} (hbl : bufferLength ≤ n) :
    ∀ fuel i dio, bufferLength ≤ i + fuel →
      ((readDioOptions bufferLength fuel i dio).Within buffer (· < n) ↔
        ∀ y, Leads (optionStep buffer bufferLength) (i, dio) y → y.1 < bufferLength →
          OptionFits buffer n bufferLength y) := by
  intro fuel
  induction fuel with
  | zero =>
    intro i dio hfuel
    have hi : ¬i < bufferLength := by omega
    rw [Leads.forall_iff_of_none (optionStep_of_ge (by omega) dio)]
    simp [readDioOptions, hi]
  | succ fuel ih =>
    intro i dio hfuel
    by_cases hi : i < bufferLength
    · have hpos : 1 ≤ dioOptionLength buffer i := by
        unfold dioOptionLength
        split <;> omega
      simp only [readDioOptions, if_pos hi, within_bind, within_ite, within_read,
        within_ifSome, within_pure]
      simp only [run_read, within_readOptionLength, run_readOptionLength, run_readDioOption]
      by_cases hlen : dioOptionLength buffer i + i > bufferLength
      · rw [Leads.forall_iff_of_none (optionStep_of_gt (by omega) dio)]
        have hout : ¬i + dioOptionLength buffer i ≤ bufferLength := by omega
        simp [OptionFits, hi, hlen, hout]
        omega
      · have hstep := optionStep_of_le hi (Nat.le_of_not_lt hlen) dio
        have hin : i + dioOptionLength buffer i ≤ bufferLength := by omega
        have hmessage : i + dioOptionLength buffer i ≤ n := by omega
        rw [within_readDioOption buffer n hmessage]
        have hfits : OptionFits buffer n bufferLength (i, dio) ↔
            (buffer i = rplOptionPad1 ∨ i + 1 < n) ∧
              (buffer i = rplOptionDagMetricContainer ∧ 6 ≤ dioOptionLength buffer i →
                ∀ y, Leads (objectStep buffer (i + dioOptionLength buffer i)) (i + 2, dio) y →
                  y.1 < i + dioOptionLength buffer i → ObjectFits buffer n y.1) := by
          simp only [OptionFits, hin, and_true]
        cases hparse : parseDioOption buffer i (dioOptionLength buffer i) dio with
        | none =>
          rw [hparse] at hstep
          rw [Leads.forall_iff_of_none hstep, hfits]
          constructor
          · rintro ⟨-, h, -, hrest⟩ -
            exact ⟨h, (hrest hlen).1⟩
          · intro h
            refine ⟨by omega, (h hi).1, fun _ => trivial, fun _ => ⟨(h hi).2, ?_⟩⟩
            intro a ha
            cases ha
        | some dio' =>
          rw [hparse] at hstep
          rw [Leads.forall_iff_of_some hstep, hfits,
            ← ih (i + dioOptionLength buffer i) dio' (by omega)]
          constructor
          · rintro ⟨-, h, -, hrest⟩
            exact ⟨fun _ => ⟨h, (hrest hlen).1⟩, (hrest hlen).2 dio' rfl⟩
          · rintro ⟨h, hnext⟩
            refine ⟨by omega, (h hi).1, fun _ => trivial, fun _ => ⟨(h hi).2, ?_⟩⟩
            intro a ha
            cases ha
            exact hnext
    · rw [Leads.forall_iff_of_none (optionStep_of_ge (by omega) dio)]
      simp [readDioOptions, hi]

/-! ## Options that are refused -/

/-- `dio_input` gives up on the message at this option. -/
def Refuses (bufferLength : ℕ) (x : ℕ × Dio) : Prop :=
  x.1 < bufferLength ∧ optionStep buffer bufferLength x = none

lemma parseDioOptions_isSome_iff (bufferLength : ℕ) :
    ∀ fuel i dio, bufferLength ≤ i + fuel →
      ((parseDioOptions buffer bufferLength fuel i dio).isSome ↔
        ∀ x, Leads (optionStep buffer bufferLength) (i, dio) x → ¬Refuses buffer bufferLength x) := by
  intro fuel
  induction fuel with
  | zero =>
    intro i dio hfuel
    have hi : bufferLength ≤ i := hfuel
    rw [Leads.forall_iff_of_none (optionStep_of_ge hi dio)]
    refine iff_of_true rfl fun h => ?_
    exact absurd h.1 (Nat.not_lt.mpr hi)
  | succ fuel ih =>
    intro i dio hfuel
    by_cases hi : i < bufferLength
    · rw [parseDioOptions, if_pos hi]
      by_cases hlen : dioOptionLength buffer i + i > bufferLength
      · have hstep := optionStep_of_gt hlen dio
        rw [if_pos hlen, Leads.forall_iff_of_none hstep]
        exact iff_of_false Bool.false_ne_true fun h => h ⟨hi, hstep⟩
      · have hstep := optionStep_of_le hi (Nat.le_of_not_lt hlen) dio
        rw [if_neg hlen]
        cases hparse : parseDioOption buffer i (dioOptionLength buffer i) dio with
        | none =>
          rw [hparse] at hstep
          rw [Leads.forall_iff_of_none hstep]
          exact iff_of_false Bool.false_ne_true fun h => h ⟨hi, hstep⟩
        | some dio' =>
          rw [hparse] at hstep
          have hlong : 1 ≤ dioOptionLength buffer i := by
            unfold dioOptionLength
            split <;> omega
          rw [Leads.forall_iff_of_some hstep,
            ← ih (i + dioOptionLength buffer i) dio' (by omega)]
          refine ⟨fun h => ⟨fun hrefused => ?_, h⟩, fun h => h.2⟩
          have hnone := hrefused.2
          rw [hstep] at hnone
          cases hnone
    · rw [parseDioOptions, if_neg hi,
        Leads.forall_iff_of_none (optionStep_of_ge (Nat.le_of_not_lt hi) dio)]
      exact iff_of_true rfl fun h => hi h.1

/-! ## What a message announces -/

/-- From one option to the next one, as long as the message lasts. -/
def nextOption (i : ℕ) : Option ℕ :=
  if i < n then some (i + dioOptionLength buffer i) else none

/-- From one metric object to the next one, as long as the option lasts. -/
def nextObject (stop j : ℕ) : Option ℕ :=
  if j < stop then some (j + (4 + (buffer (j + 3)).toNat)) else none

/-- The message holds all that an option announces: the option itself, and each object of a metric
container. -/
def OptionWhole (i : ℕ) : Prop :=
  let stop := i + dioOptionLength buffer i
  stop ≤ n ∧
    (buffer i = rplOptionDagMetricContainer →
      ∀ j, Leads (nextObject buffer stop) (i + 2) j → j < stop →
        j + (4 + (buffer (j + 3)).toNat) ≤ n)

/-- The message holds all that its options from an offset on announce. -/
def WholeFrom (start : ℕ) : Prop :=
  ∀ i, Leads (nextOption buffer n) start i → i < n → OptionWhole buffer n i

/-- The message is as long as it announces: it holds the base object and all options. -/
def DioWhole : Prop := 24 ≤ n ∧ WholeFrom buffer n 24

/-- If no option is refused, the options of a message are those that `dio_input` gets to and those
behind the length that it takes into account. -/
lemma wholeFrom_iff {bufferLength : ℕ} (hbl : bufferLength ≤ n) :
    ∀ fuel i dio, bufferLength ≤ i + fuel →
      (∀ x, Leads (optionStep buffer bufferLength) (i, dio) x → ¬Refuses buffer bufferLength x) →
      (WholeFrom buffer n i ↔
        (∀ x, Leads (optionStep buffer bufferLength) (i, dio) x → x.1 < bufferLength →
          OptionWhole buffer n x.1) ∧ WholeFrom buffer n (max i bufferLength)) := by
  intro fuel
  induction fuel with
  | zero =>
    intro i dio hfuel _
    have hge : bufferLength ≤ i := hfuel
    have hmax : max i bufferLength = i := Nat.max_eq_left hge
    have hi : ¬i < bufferLength := Nat.not_lt.mpr hge
    rw [Leads.forall_iff_of_none (optionStep_of_ge hge dio), hmax]
    exact ⟨fun h => ⟨fun hlt => absurd hlt hi, h⟩, fun h => h.2⟩
  | succ fuel ih =>
    intro i dio hfuel haccept
    by_cases hi : i < bufferLength
    · have hnot := haccept (i, dio) (Leads.refl _)
      cases hstep : optionStep buffer bufferLength (i, dio) with
      | none => exact absurd ⟨hi, hstep⟩ hnot
      | some x =>
        have hlen : dioOptionLength buffer i + i ≤ bufferLength := by
          by_contra hgt
          rw [optionStep_of_gt (Nat.lt_of_not_le hgt)] at hstep
          cases hstep
        rw [optionStep_of_le hi hlen] at hstep
        obtain ⟨dio', -, rfl⟩ := Option.map_eq_some_iff.mp hstep
        rw [← optionStep_of_le hi hlen] at hstep
        have hlong : 1 ≤ dioOptionLength buffer i := by
          unfold dioOptionLength
          split <;> omega
        have hnext : nextOption buffer n i = some (i + dioOptionLength buffer i) :=
          if_pos (Nat.lt_of_lt_of_le hi hbl)
        have hmax : max i bufferLength = max (i + dioOptionLength buffer i) bufferLength := by
          omega
        have hrest := ih (i + dioOptionLength buffer i) dio' (by omega)
          fun x hx => haccept x (hx.head hstep)
        rw [WholeFrom, Leads.forall_iff_of_some hnext, Leads.forall_iff_of_some hstep, hmax,
          and_assoc, ← hrest]
        have hin : i < n := Nat.lt_of_lt_of_le hi hbl
        simp only [hi, hin, forall_const]
        rfl
    · have hge : bufferLength ≤ i := Nat.le_of_not_lt hi
      have hmax : max i bufferLength = i := Nat.max_eq_left hge
      rw [Leads.forall_iff_of_none (optionStep_of_ge hge dio), hmax]
      exact ⟨fun h => ⟨fun hlt => absurd hlt hi, h⟩, fun h => h.2⟩

end Bounds

/-! ## Which messages are safe -/

/-- `dio_input` reads only bytes of a message of `n` bytes, and one that is shorter than it
announces does not get to `rpl_process_dio`. -/
structure DioSafe (cfg : Config) (buffer : ℕ → UInt8) (n : ℕ) : Prop where
  within : (readDio cfg (UInt8.ofNat n)).Within buffer (· < n)
  refused : ¬DioWhole buffer n → parseDio buffer cfg (UInt8.ofNat n) = none

/-- The options that `dio_input` gets to in a message of `n` bytes, whose length it keeps in a
byte; the SensLAB code looks at no option of a foreign DODAG. -/
def DioOption (cfg : Config) (buffer : ℕ → UInt8) (n : ℕ) (x : ℕ × Dio) : Prop :=
  ¬(cfg.senslab ∧ ¬senslabDagId (parseDioBase buffer).dagId) ∧
    Leads (optionStep buffer (UInt8.ofNat n).toNat) (24, parseDioBase buffer) x

/-- The messages that hold what `dio_input` looks at without a check: the base object, the length
of each option, the objects of a metric container.  Unless an option is refused, the objects also
end inside of the message, and the options behind the length that is kept in a byte are whole. -/
structure DioCovered (cfg : Config) (buffer : ℕ → UInt8) (n : ℕ) : Prop where
  base : 24 ≤ n
  options : ∀ x, DioOption cfg buffer n x → x.1 < (UInt8.ofNat n).toNat →
    OptionFits buffer n (UInt8.ofNat n).toNat x
  rest : (∃ x, DioOption cfg buffer n x) →
    (∀ x, DioOption cfg buffer n x → ¬Refuses buffer (UInt8.ofNat n).toNat x) →
      (∀ x, DioOption cfg buffer n x → x.1 < (UInt8.ofNat n).toNat → OptionWhole buffer n x.1) ∧
        WholeFrom buffer n (max 24 (UInt8.ofNat n).toNat)

lemma ofNat_toNat_le (n : ℕ) : (UInt8.ofNat n).toNat ≤ n := by
  rw [UInt8.toNat_ofNat']
  exact Nat.mod_le n _

lemma within_readDio (cfg : Config) (buffer : ℕ → UInt8) (n : ℕ) :
    (readDio cfg (UInt8.ofNat n)).Within buffer (· < n) ↔
      24 ≤ n ∧ ∀ x, DioOption cfg buffer n x → x.1 < (UInt8.ofNat n).toNat →
        OptionFits buffer n (UInt8.ofNat n).toNat x := by
  simp only [readDio, within_bind, within_ite, within_pure, within_readDioBase, implies_true,
    true_and]
  rw [run_readDioBase, within_readDioOptions buffer n (ofNat_toNat_le n) _ _ _ (by omega)]
  simp only [DioOption, and_imp]
  exact and_congr_right fun _ => ⟨fun h x hx => h hx x, fun h hx x => h x hx⟩

lemma parseDio_isSome_iff (cfg : Config) (buffer : ℕ → UInt8) (n : ℕ) :
    (parseDio buffer cfg (UInt8.ofNat n)).isSome ↔
      (∃ x, DioOption cfg buffer n x) ∧
        ∀ x, DioOption cfg buffer n x → ¬Refuses buffer (UInt8.ofNat n).toNat x := by
  rw [parseDio]
  by_cases hid : cfg.senslab ∧ ¬senslabDagId (parseDioBase buffer).dagId
  · rw [if_pos hid]
    exact iff_of_false Bool.false_ne_true fun h => h.1.elim fun x hx => hx.1 hid
  · rw [if_neg hid, parseDioOptions_isSome_iff buffer _ _ _ _ (by omega)]
    exact ⟨fun h => ⟨⟨_, hid, Leads.refl _⟩, fun x hx => h x hx.2⟩,
      fun h x hx => h.2 x ⟨hid, hx⟩⟩

/-- **Which messages are safe.**  No byte outside of a message is read, and no message is accepted
that is shorter than it announces, exactly if the message covers what `dio_input` looks at. -/
theorem dioSafe_iff (cfg : Config) (buffer : ℕ → UInt8) (n : ℕ) :
    DioSafe cfg buffer n ↔ DioCovered cfg buffer n := by
  have hread := within_readDio cfg buffer n
  have haccept := parseDio_isSome_iff cfg buffer n
  -- what an accepted message announces, when it holds the base object
  have hwhole : 24 ≤ n → (parseDio buffer cfg (UInt8.ofNat n)).isSome →
      (DioWhole buffer n ↔
        (∀ x, DioOption cfg buffer n x → x.1 < (UInt8.ofNat n).toNat → OptionWhole buffer n x.1) ∧
          WholeFrom buffer n (max 24 (UInt8.ofNat n).toNat)) := by
    intro hbase hsome
    obtain ⟨⟨y, hid, -⟩, hnot⟩ := haccept.mp hsome
    have hsplit := wholeFrom_iff buffer n (ofNat_toNat_le n) (UInt8.ofNat n).toNat 24
      (parseDioBase buffer) (by omega) fun x hx => hnot x ⟨hid, hx⟩
    rw [DioWhole, hsplit]
    constructor
    · rintro ⟨-, hopt, hrest⟩
      exact ⟨fun x hx => hopt x hx.2, hrest⟩
    · rintro ⟨hopt, hrest⟩
      exact ⟨hbase, fun x hx => hopt x ⟨hid, hx⟩, hrest⟩
  constructor
  · rintro ⟨hwithin, hrefused⟩
    obtain ⟨hbase, hopt⟩ := hread.mp hwithin
    refine ⟨hbase, hopt, fun hex hnot => ?_⟩
    have hsome := haccept.mpr ⟨hex, hnot⟩
    apply (hwhole hbase hsome).mp
    by_contra hshort
    rw [hrefused hshort] at hsome
    cases hsome
  · rintro ⟨hbase, hopt, hrest⟩
    refine ⟨hread.mpr ⟨hbase, hopt⟩, fun hshort => ?_⟩
    by_contra hne
    have hsome := Option.isSome_iff_ne_none.mpr hne
    obtain ⟨hex, hnot⟩ := haccept.mp hsome
    exact hshort ((hwhole hbase hsome).mpr (hrest hex hnot))

/-- Of a message of twenty bytes, the end of the DODAGID is read from what the buffer held before. -/
theorem not_dioSafe : ¬∀ (cfg : Config) (buffer : ℕ → UInt8) (n : ℕ), DioSafe cfg buffer n := by
  intro h
  have hsafe := h .default (fun _ => 0) 20
  have hbase := ((within_readDio .default (fun _ => 0) 20).mp hsafe.within).1
  omega

end Contiki

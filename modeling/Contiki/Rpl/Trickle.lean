import Contiki.Rpl.System
import Mathlib.Algebra.Order.Ring.Nat
import Mathlib.Logic.Relation

/-!
# The Trickle timer

The timer of a DAG goes through intervals of `2 ^ n` milliseconds: `n` starts at the minimum of the
DODAG configuration and goes up by one with every interval that ends, to the maximum.  A DIO is
sent in the second half of an interval.

* `TrickleStep d e` — what an event does to the node, as far as the timer of `d` is concerned: a
  configuration is installed, the timer is reset or expires, or something else happens.
* `TrickleBounds` — the interval number stays within the configuration.
* `IntervalStarted` — an interval of the right length was started, with the DIO at a time in its
  second half.

Both hold as long as the intervals fit into the 32 bits they are computed in and into the clock
(`trickle_intervals`).
-/

namespace Contiki

variable {cfg : Config}

/-! ## Intervals -/

/-- The length of the interval `n` in ticks. -/
def trickleInterval (cfg : Config) (n : ℕ) : ℕ := 2 ^ n * cfg.clockSecond.toNat / 1000

/-- The computation of the interval `n` stays within 32 bits, and the clock counts that far. -/
def IntervalFits (cfg : Config) (n : ℕ) : Prop :=
  n < 32 ∧ 2 ^ n * cfg.clockSecond.toNat < 2 ^ 32 ∧ trickleInterval cfg n < 2 ^ cfg.clockWidth

instance (n : ℕ) : Decidable (IntervalFits cfg n) := inferInstanceAs (Decidable (_ ∧ _ ∧ _))

/-- The part of a DAG that the Trickle timer uses and that a sent DIO leaves alone. -/
structure Trickle where
  dioIntmin : UInt8
  dioIntdoubl : UInt8
  dioIntcurrent : UInt8
  dioSend : Bool
  dioNextDelay : UInt32
  dioTimer : Option UInt32
deriving DecidableEq

/-- The timer of a DAG. -/
def Dag.trickle (dag : Dag cfg) : Trickle where
  dioIntmin := dag.config.dioIntmin
  dioIntdoubl := dag.config.dioIntdoubl
  dioIntcurrent := dag.dioIntcurrent
  dioSend := dag.dioSend
  dioNextDelay := dag.dioNextDelay
  dioTimer := dag.dioTimer

/-- The interval number is within the bounds of the configuration. -/
def TrickleBounds (dag : Dag cfg) : Prop :=
  dag.config.dioIntmin.toNat ≤ dag.dioIntcurrent.toNat ∧
    dag.dioIntcurrent.toNat ≤ dag.config.dioIntmin.toNat + dag.config.dioIntdoubl.toNat

/-- The timer is set to a time `t` in the second half of the current interval `I`, and the rest of
the interval is what is waited for after that. -/
def IntervalStarted (dag : Dag cfg) : Prop :=
  ∃ t : UInt32, dag.dioTimer = some t ∧
    trickleInterval cfg dag.dioIntcurrent.toNat / 2 ≤ t.toNat ∧
    t.toNat ≤ trickleInterval cfg dag.dioIntcurrent.toNat ∧
    dag.dioNextDelay.toNat = trickleInterval cfg dag.dioIntcurrent.toNat - t.toNat

instance (dag : Dag cfg) : Decidable (TrickleBounds dag) :=
  inferInstanceAs (Decidable (_ ∧ _))

/-- The bounds depend on the timer only. -/
lemma TrickleBounds.of_trickle {dag dag' : Dag cfg} (h : TrickleBounds dag)
    (htrickle : dag'.trickle = dag.trickle) : TrickleBounds dag' := by
  have hmin : dag'.config.dioIntmin = dag.config.dioIntmin := congrArg (·.dioIntmin) htrickle
  have hdoubl : dag'.config.dioIntdoubl = dag.config.dioIntdoubl :=
    congrArg (·.dioIntdoubl) htrickle
  have hcurrent : dag'.dioIntcurrent = dag.dioIntcurrent := congrArg (·.dioIntcurrent) htrickle
  unfold TrickleBounds
  rw [hmin, hdoubl, hcurrent]
  exact h

/-! ## Arithmetic in 32 bits -/

lemma toNat_one_shiftLeft {n : UInt8} (hn : n.toNat < 32) :
    ((1 : UInt32) <<< n.toUInt32).toNat = 2 ^ n.toNat := by
  have hpow : 2 ^ n.toNat < 2 ^ 32 := Nat.pow_lt_pow_right (by omega) hn
  rw [UInt32.toNat_shiftLeft, UInt8.toNat_toUInt32, Nat.mod_eq_of_lt hn]
  show 1 <<< n.toNat % 2 ^ 32 = 2 ^ n.toNat
  rw [Nat.one_shiftLeft, Nat.mod_eq_of_lt hpow]

lemma randomRand_le (s : Node cfg) : s.randomRand.1.toNat ≤ 0x7fff := by
  unfold Node.randomRand
  simp only [UInt16.toNat_and]
  exact Nat.and_le_right

/-- The scaled random number is at most the half it is scaled to, also when the product
wraps. -/
lemma scaled_rand_le (half : UInt32) {rand : UInt16} (hrand : rand.toNat ≤ 0x7fff) :
    ((half * rand.toUInt32) / Node.randomRandMax).toNat ≤ half.toNat := by
  have hprod : (half * rand.toUInt32).toNat ≤ half.toNat * 0x7fff := by
    rw [UInt32.toNat_mul, UInt16.toNat_toUInt32]
    exact (Nat.mod_le _ _).trans (Nat.mul_le_mul_left _ hrand)
  have hmax : Node.randomRandMax.toNat = 0x7fff := rfl
  rw [UInt32.toNat_div, hmax]
  omega

namespace Node

/-! ## An interval starts -/

/-- **A new interval.**  When the interval fits it has the right length, and the DIO is due in its
second half. -/
theorem newDioInterval_started (s : Node cfg) (d : cfg.DagRef)
    (hfits : IntervalFits cfg (s.dagTable d).dioIntcurrent.toNat) :
    IntervalStarted ((s.newDioInterval d).dagTable d) := by
  obtain ⟨hn, hprod, hclock⟩ := hfits
  have hlt : (s.dagTable d).dioIntcurrent < 32 := UInt8.lt_iff_toNat_lt.mpr hn
  obtain ⟨ticks, hticks⟩ : ∃ ticks : UInt32, ticks =
      ((1 : UInt32) <<< (s.dagTable d).dioIntcurrent.toUInt32 * cfg.clockSecond) / 1000 := ⟨_, rfl⟩
  have hI : ticks.toNat = trickleInterval cfg (s.dagTable d).dioIntcurrent.toNat := by
    rw [hticks, UInt32.toNat_div, UInt32.toNat_mul, toNat_one_shiftLeft hn, Nat.mod_eq_of_lt hprod]
    rfl
  have hhalf : (ticks >>> 1).toNat = ticks.toNat / 2 := by
    rw [UInt32.toNat_shiftRight]
    exact Nat.shiftRight_one _
  have hrand := scaled_rand_le (ticks >>> 1) (randomRand_le s)
  have hbound : ticks.toNat < 2 ^ 32 := ticks.toNat_lt
  -- half an interval and at most another half do not wrap
  have htime : (ticks >>> 1 + ticks >>> 1 * s.randomRand.1.toUInt32 / randomRandMax).toNat =
      ticks.toNat / 2 + (ticks >>> 1 * s.randomRand.1.toUInt32 / randomRandMax).toNat := by
    rw [UInt32.toNat_add, hhalf]
    apply Nat.mod_eq_of_lt
    omega
  have hle : ticks >>> 1 + ticks >>> 1 * s.randomRand.1.toUInt32 / randomRandMax ≤ ticks := by
    rw [UInt32.le_iff_toNat_le]
    omega
  have htimer := Config.clockTime_of_lt (Nat.lt_of_le_of_lt (UInt32.le_iff_toNat_le.mp hle) (hI ▸ hclock))
  have hdag : s.randomRand.2.dagTable d = s.dagTable d := rfl
  unfold newDioInterval IntervalStarted
  simp only [hlt, if_true, modifyDag_dagTable, Function.update_self, ← hticks, hdag, ← hI, htimer]
  refine ⟨_, rfl, ?_, ?_, ?_⟩
  · omega
  · omega
  · exact UInt32.toNat_sub_of_le _ _ hle

@[simp] lemma newDioInterval_intcurrent (s : Node cfg) (d : cfg.DagRef) :
    ((s.newDioInterval d).dagTable d).dioIntcurrent = (s.dagTable d).dioIntcurrent := by
  simp [newDioInterval, randomRand]

@[simp] lemma newDioInterval_config (s : Node cfg) (d : cfg.DagRef) :
    ((s.newDioInterval d).dagTable d).config = (s.dagTable d).config := by
  simp [newDioInterval, randomRand]

/-! ## Sending leaves the timer alone -/

/-- The timer of `d` is the same in both states. -/
def SameTrickle (d : cfg.DagRef) (s s' : Node cfg) : Prop :=
  (s'.dagTable d).trickle = (s.dagTable d).trickle

variable {s s' s'' : Node cfg} {d : cfg.DagRef}

lemma SameTrickle.refl (d : cfg.DagRef) (s : Node cfg) : SameTrickle d s s := rfl

lemma SameTrickle.trans (h : SameTrickle d s s') (h' : SameTrickle d s' s'') :
    SameTrickle d s s'' := Eq.trans h' h

lemma SameTrickle.modifyDag (s : Node cfg) (d : cfg.DagRef) {f : Dag cfg → Dag cfg}
    (hf : ∀ dag, (f dag).trickle = dag.trickle) : SameTrickle d s (s.modifyDag d f) := by
  show ((s.modifyDag d f).dagTable d).trickle = _
  rw [modifyDag_dagTable, Function.update_self, hf]

lemma chooseRoute_trickle (s : Node cfg) (d : cfg.DagRef) (e : cfg.P2pRef) :
    SameTrickle d s (s.chooseRoute e).2 := by
  unfold chooseRoute
  simp only
  split_ifs
  · rfl
  · rfl

lemma dioRdo_trickle (s : Node cfg) (d : cfg.DagRef) (e : cfg.P2pRef) :
    Ensures (s.dioRdo d e) fun r => SameTrickle d s r.2 := by
  have hchoose := chooseRoute_trickle s d e
  unfold dioRdo
  simp only
  split_ifs
  · exact .bind (fun _ _ => trivial) fun _ _ => .ok hchoose
  · exact .error _

lemma dioTail_trickle (s : Node cfg) (d : cfg.DagRef) (of : ObjectiveFunction) :
    Ensures (s.dioTail d of) fun r => SameTrickle d s r.2 := by
  unfold dioTail
  simp only
  split_ifs
  · refine .bind (fun _ _ => trivial) fun e _ => ?_
    exact .bind (dioRdo_trickle s d e) fun r hr => .ok hr
  · exact .ok (.refl d s)

lemma countDtsn_trickle (s : Node cfg) (d : cfg.DagRef) : SameTrickle d s (s.countDtsn d) := by
  unfold countDtsn
  split_ifs
  · exact .modifyDag s d (by intro; rfl)
  · exact .refl d s

lemma refreshMetric_trickle (s : Node cfg) (of : ObjectiveFunction) (d : cfg.DagRef) :
    SameTrickle d s (s.refreshMetric of d) := by
  unfold refreshMetric
  split_ifs
  · exact .refl d s
  · exact .modifyDag s d (by intro; rfl)

lemma sendDio_trickle (s : Node cfg) (d : cfg.DagRef) :
    Ensures (s.sendDio d) fun r => SameTrickle d s r.2 := by
  unfold sendDio dioOutput
  split_ifs
  · refine .bind (fun _ _ => trivial) fun suppressed _ => ?_
    split_ifs
    · exact .ok (.refl d s)
    · refine .bind (fun _ _ => trivial) fun of _ => ?_
      have hs := (countDtsn_trickle s d).trans (refreshMetric_trickle _ of d)
      refine .bind (fun _ _ => trivial) fun constr _ => ?_
      split
      · exact .ok hs
      · exact .bind (dioTail_trickle _ d of) fun r hr => .ok (hs.trans hr)
  · exact .ok (.refl d s)

/-! ## Runs -/

end Node

/-- What can happen to the timer of a DAG. -/
inductive TrickleEvent
  /-- a configuration is installed and the timer is started, as in `join_dag` -/
  | install (dcf : DodagConfig)
  | reset (force : Bool)
  | expire
  | stop
  /-- anything that leaves this timer alone, such as draws of random numbers by others -/
  | elsewhere

namespace Node

variable {s s' s'' : Node cfg} {d : cfg.DagRef}

/-- The effect of an event on the node. -/
def TrickleStep (d : cfg.DagRef) : TrickleEvent → Node cfg → Node cfg → Prop
  | .install dcf, s, s' =>
    ∃ s₁, s.rplSetDodagConfig d dcf = some s₁ ∧ s' = s₁.rplResetDioTimer d true
  | .reset force, s, s' => s' = s.rplResetDioTimer d force
  | .expire, s, s' => ∃ packet, s.handleDioTimer d = .ok (packet, s')
  | .stop, s, s' => s' = s.stopDioTimer d
  | .elsewhere, s, s' => SameTrickle d s s'

/-- The event calls `new_dio_interval`, with the interval number `n`. -/
def startsInterval (d : cfg.DagRef) (s : Node cfg) : TrickleEvent → Option ℕ
  | .install dcf => some dcf.dioIntmin.toNat
  | .reset force =>
    let dag := s.dagTable d
    if force || dag.dioIntcurrent > dag.config.dioIntmin then some dag.config.dioIntmin.toNat
    else none
  | .expire =>
    let dag := s.dagTable d
    if dag.dioTimer = none ∨ dag.dioSend ∨
        ¬s.dioSendOk ∧ uipDs6GetLinkLocal s.addrList .preferred = none then none
    else if dag.dioIntcurrent.toNat < dag.config.dioIntmin.toNat + dag.config.dioIntdoubl.toNat then
      some (dag.dioIntcurrent.toNat + 1)
    else some dag.dioIntcurrent.toNat
  | .stop => none
  | .elsewhere => none

/-- An interval that the event starts fits. -/
def IntervalSafe (d : cfg.DagRef) (s : Node cfg) (e : TrickleEvent) : Prop :=
  ∀ n, startsInterval d s e = some n → IntervalFits cfg n

/-- A run of the timer of `d` under a guard, from the installation of a configuration on.
`started` has the DAG as it was after each call of `new_dio_interval`. -/
inductive TrickleRun (ok : Node cfg → TrickleEvent → Prop) (d : cfg.DagRef) :
    List (Dag cfg) → Node cfg → Prop
  | install {s s' : Node cfg} {dcf : DodagConfig} (hok : ok s (.install dcf))
      (h : TrickleStep d (.install dcf) s s') : TrickleRun ok d [s'.dagTable d] s'
  | step {started : List (Dag cfg)} {s s' : Node cfg} {e : TrickleEvent}
      (hrun : TrickleRun ok d started s) (hok : ok s e) (h : TrickleStep d e s s') :
      TrickleRun ok d (((startsInterval d s e).map fun _ => s'.dagTable d).toList ++ started) s'

/-- A reset that takes place starts the shortest interval. -/
lemma rplResetDioTimer_started {force : Bool}
    (hreset : (force || (s.dagTable d).dioIntcurrent > (s.dagTable d).config.dioIntmin) = true)
    (hfits : IntervalFits cfg (s.dagTable d).config.dioIntmin.toNat) :
    TrickleBounds ((s.rplResetDioTimer d force).dagTable d) ∧
      IntervalStarted ((s.rplResetDioTimer d force).dagTable d) := by
  unfold rplResetDioTimer
  simp only [hreset, if_true]
  constructor
  · unfold TrickleBounds
    simp
  · apply newDioInterval_started
    simpa using hfits

lemma install_started {dcf : DodagConfig} (hconfig : s.rplSetDodagConfig d dcf = some s')
    (hfits : IntervalFits cfg dcf.dioIntmin.toNat) :
    TrickleBounds ((s'.rplResetDioTimer d true).dagTable d) ∧
      IntervalStarted ((s'.rplResetDioTimer d true).dagTable d) := by
  have hdcf : (s'.dagTable d).config = dcf := by
    unfold rplSetDodagConfig at hconfig
    split at hconfig
    · cases hconfig
    · cases hconfig
      simp
  apply rplResetDioTimer_started (Bool.true_or _)
  rw [hdcf]
  exact hfits

/-- The interval number goes up by one, or stays when it is at the maximum. -/
lemma doubleInterval_started {n : ℕ} (hbounds : TrickleBounds (s.dagTable d))
    (hn : n = if (s.dagTable d).dioIntcurrent.toNat <
        (s.dagTable d).config.dioIntmin.toNat + (s.dagTable d).config.dioIntdoubl.toNat then
      (s.dagTable d).dioIntcurrent.toNat + 1 else (s.dagTable d).dioIntcurrent.toNat)
    (hfits : IntervalFits cfg n) :
    TrickleBounds ((s.doubleInterval d).dagTable d) ∧
      IntervalStarted ((s.doubleInterval d).dagTable d) := by
  have hcurrent : (if (s.dagTable d).dioIntcurrent.toNat <
        (s.dagTable d).config.dioIntmin.toNat + (s.dagTable d).config.dioIntdoubl.toNat then
      (s.dagTable d).dioIntcurrent + 1 else (s.dagTable d).dioIntcurrent).toNat = n := by
    have hlt := hfits.1
    split_ifs at hn ⊢
    · -- the byte does not wrap, since the interval fits
      rw [UInt8.toNat_add, hn]
      apply Nat.mod_eq_of_lt
      show (s.dagTable d).dioIntcurrent.toNat + 1 < 256
      omega
    · exact hn.symm
  obtain ⟨hmin, hmax⟩ := hbounds
  unfold doubleInterval
  constructor
  · unfold TrickleBounds
    simp only [newDioInterval_intcurrent, newDioInterval_config, modifyDag_dagTable,
      Function.update_self, hcurrent]
    split_ifs at hn <;> omega
  · apply newDioInterval_started
    simp only [modifyDag_dagTable, Function.update_self, hcurrent]
    exact hfits

/-- An expiry sends a DIO, or starts the next interval, or is put off. -/
lemma handleDioTimer_spec {packet : Option Packet} (hbounds : TrickleBounds (s.dagTable d))
    (hsafe : IntervalSafe d s .expire) (h : s.handleDioTimer d = .ok (packet, s')) :
    TrickleBounds (s'.dagTable d) ∧
      (startsInterval d s .expire ≠ none → IntervalStarted (s'.dagTable d)) := by
  unfold handleDioTimer at h
  unfold IntervalSafe at hsafe
  simp only [startsInterval] at hsafe ⊢
  split_ifs at h with htimer hpostponed hsend
  · cases h
    exact ⟨hbounds, fun hstarts => (hstarts (if_pos (.inl htimer))).elim⟩
  · cases h
    refine ⟨?_, fun hstarts => (hstarts (if_pos (.inr (.inr hpostponed)))).elim⟩
    simpa [TrickleBounds] using hbounds
  · -- the DIO is due; what remains of the interval is waited for
    refine ⟨?_, fun hstarts => (hstarts (if_pos (.inr (.inl hsend)))).elim⟩
    obtain ⟨r, hr, heq⟩ := bind_eq_ok.mp h
    have hsame : SameTrickle d { s with dioSendOk := true } r.2 := sendDio_trickle _ d r hr
    simp only [Except.ok.injEq, Prod.mk.injEq] at heq
    obtain ⟨-, rfl⟩ := heq
    have hr := hbounds.of_trickle hsame
    simpa [TrickleBounds] using hr
  · cases h
    have hnone : ¬((s.dagTable d).dioTimer = none ∨ (s.dagTable d).dioSend ∨
        ¬s.dioSendOk ∧ uipDs6GetLinkLocal s.addrList .preferred = none) := by
      simp only [not_or]
      exact ⟨htimer, hsend, hpostponed⟩
    rw [if_neg hnone, ← apply_ite some] at hsafe
    have hstarted := doubleInterval_started (s := { s with dioSendOk := true }) hbounds rfl
      (hsafe _ rfl)
    exact ⟨hstarted.1, fun _ => hstarted.2⟩

/-- What one event does to the timer: the bounds stay, and an interval that starts is as it should
be. -/
theorem trickleStep_spec {e : TrickleEvent} (hbounds : TrickleBounds (s.dagTable d))
    (hsafe : IntervalSafe d s e) (h : TrickleStep d e s s') :
    TrickleBounds (s'.dagTable d) ∧
      (startsInterval d s e ≠ none → IntervalStarted (s'.dagTable d)) := by
  cases e with
  | install dcf =>
      obtain ⟨s₁, hconfig, rfl⟩ := h
      have hstarted := install_started hconfig (hsafe _ rfl)
      exact ⟨hstarted.1, fun _ => hstarted.2⟩
  | reset force =>
      obtain rfl : s' = s.rplResetDioTimer d force := h
      by_cases hreset :
          (force || (s.dagTable d).dioIntcurrent > (s.dagTable d).config.dioIntmin) = true
      · have hstarted := rplResetDioTimer_started hreset (hsafe _ (by
          unfold startsInterval; simp only [hreset, if_true]))
        exact ⟨hstarted.1, fun _ => hstarted.2⟩
      · constructor
        · unfold rplResetDioTimer
          rw [if_neg hreset]
          exact hbounds
        · simp only [startsInterval]
          rw [if_neg hreset]
          exact fun h => (h rfl).elim
  | expire =>
      obtain ⟨packet, h⟩ := h
      exact handleDioTimer_spec hbounds hsafe h
  | stop =>
      obtain rfl : s' = s.stopDioTimer d := h
      constructor
      · simpa [stopDioTimer, TrickleBounds] using hbounds
      · exact fun h => (h rfl).elim
  | elsewhere =>
      constructor
      · exact hbounds.of_trickle h
      · exact fun h => (h rfl).elim

/-- **The Trickle timer.**  In every run whose intervals fit, the interval number is within the
configuration after each step, and each interval has the right length and its DIO is due in its
second half. -/
theorem trickle_intervals {started : List (Dag cfg)} (h : TrickleRun (IntervalSafe d) d started s) :
    TrickleBounds (s.dagTable d) ∧ ∀ dag ∈ started, IntervalStarted dag := by
  induction h with
  | @install s s' dcf hok h =>
      obtain ⟨s₁, hconfig, rfl⟩ := h
      have hstarted := install_started hconfig (hok _ rfl)
      refine ⟨hstarted.1, fun dag hdag => ?_⟩
      rw [List.mem_singleton.mp hdag]
      exact hstarted.2
  | @step started s s' e hrun hok h ih =>
      have hspec := trickleStep_spec ih.1 hok h
      refine ⟨hspec.1, fun dag hdag => ?_⟩
      rcases List.mem_append.mp hdag with hnew | hold
      · cases hstarts : startsInterval d s e with
        | none => simp [hstarts] at hnew
        | some n =>
            have hdag : dag = s'.dagTable d := by simpa [hstarts] using hnew
            rw [hdag]
            exact hspec.2 (by rw [hstarts]; exact Option.some_ne_none n)
      · exact ih.2 dag hold

/-- A DAG that has just been given a configuration. -/
def installed (dcf : DodagConfig) : Node .default :=
  (((boot 2).rplSetDodagConfig 0 dcf).getD (boot 2)).rplResetDioTimer 0 true

lemma installed_run (ok : Node .default → TrickleEvent → Prop) (dcf : DodagConfig)
    (hocp : dcf.ocp = 1) (hok : ok (boot 2) (.install dcf)) :
    TrickleRun ok 0 [(installed dcf).dagTable 0] (installed dcf) := by
  refine .install hok ⟨((boot 2).rplSetDodagConfig 0 dcf).getD (boot 2), ?_, rfl⟩
  have hof : rplFindOf .default dcf.ocp = some .etx := by rw [hocp]; rfl
  unfold rplSetDodagConfig
  rw [hof]
  rfl

/-- The timer of a DAG with the default configuration, after it was reset once more. -/
theorem trickle_intervals_installed :
    ∃ (started : List (Dag .default)) (s : Node .default), started.length = 2 ∧
      TrickleRun (IntervalSafe 0) 0 started s ∧ TrickleBounds (s.dagTable 0) ∧
      ∀ dag ∈ started, IntervalStarted dag := by
  have hfits : ∀ n, some 12 = some n → IntervalFits .default n := by
    rintro n ⟨⟩
    decide
  have hrun := (installed_run (IntervalSafe 0) defaultDodagConfig rfl hfits).step
    (e := .reset true) hfits rfl
  exact ⟨_, _, rfl, hrun, trickle_intervals hrun⟩

/-- The minimal interval of a received configuration may be too long for 32 bits: its length in
ticks comes out as zero. -/
theorem not_trickle_intervals :
    ¬∀ (cfg : Config) (d : cfg.DagRef) (started : List (Dag cfg)) (s : Node cfg),
      TrickleRun (fun _ _ => True) d started s →
        TrickleBounds (s.dagTable d) ∧ ∀ dag ∈ started, IntervalStarted dag := by
  intro hall
  let dcf : DodagConfig := { defaultDodagConfig with dioIntmin := 25 }
  have hrun := installed_run (fun _ _ => True) dcf rfl trivial
  obtain ⟨t, ht, hlow, -, -⟩ := (hall _ _ _ _ hrun).2 _ List.mem_cons_self
  have htimer : ((installed dcf).dagTable 0).dioTimer = some 0 := by decide +kernel
  have hcurrent : ((installed dcf).dagTable 0).dioIntcurrent = 25 := by decide +kernel
  rw [htimer] at ht
  cases ht
  rw [hcurrent] at hlow
  exact absurd hlow (by decide)

end Node
end Contiki

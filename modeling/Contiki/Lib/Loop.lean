import Contiki.Lib.Walk
import Mathlib.Data.Fintype.Pigeonhole
import Mathlib.Data.UInt
import Mathlib.SetTheory.Cardinal.Finite

/-!
# Loops over items that lie one behind the other

A loop goes from item to item along a partial step function and ends where there is no next item.
On a finite type of states a loop that ends has no more turns than there are states
(`Ends.runLoop_ne_none`).  What it does on its way is done to the states on its trail (`loop_eq_trail`).

The items of a message are found by an index that is advanced by the size of each item.  When the
index is a byte, it follows the items as they lie in the message exactly as long as none of them
reaches beyond 255 (`follows_iff_fits`), and then the loop ends.
-/

namespace Contiki

/-- A loop with a bound on its turns, with a result where it ends. -/
def runLoop {σ ρ : Type*} (step : σ → Option σ) (res : σ → ρ) : ℕ → σ → Option ρ
  | 0, _ => none
  | fuel + 1, a =>
    match step a with
    | none => some (res a)
    | some b => runLoop step res fuel b

/-- The walk from a state comes to an end. -/
def Ends {σ : Type*} (step : σ → Option σ) (a : σ) : Prop := ∃ b, Leads step a b ∧ step b = none

/-- The walk from a state comes back to it. -/
def Returns {σ : Type*} (step : σ → Option σ) (a : σ) : Prop := ∃ b, step a = some b ∧ Leads step b a

section Loop
variable {σ ρ : Type*} {step : σ → Option σ} {res : σ → ρ} {a b : σ}

lemma ends_of_some (h : step a = some b) : Ends step a ↔ Ends step b := by
  constructor
  · rintro ⟨c, hac, hc⟩
    rcases hac.eq_or_of_some h with rfl | hbc
    · rw [h] at hc
      simp at hc
    · exact ⟨c, hbc, hc⟩
  · rintro ⟨c, hbc, hc⟩
    exact ⟨c, hbc.head h, hc⟩

/-- A loop has a result with enough turns if and only if its walk ends. -/
lemma exists_runLoop_iff (res : σ → ρ) : (∃ fuel, runLoop step res fuel a ≠ none) ↔ Ends step a := by
  constructor
  · rintro ⟨fuel, h⟩
    induction fuel generalizing a with
    | zero => exact absurd rfl h
    | succ fuel ih =>
      cases hstep : step a with
      | none => exact ⟨a, .refl a, hstep⟩
      | some b =>
        rw [runLoop, hstep] at h
        exact (ends_of_some hstep).mpr (ih h)
  · rintro ⟨b, hab, hb⟩
    induction hab using Relation.ReflTransGen.head_induction_on with
    | refl => exact ⟨1, by simp [runLoop, hb]⟩
    | head hstep _ ih =>
      obtain ⟨fuel, hfuel⟩ := ih
      exact ⟨fuel + 1, by simpa [runLoop, hstep] using hfuel⟩

/-- From a state that the walk comes back to, every state that follows leads back. -/
lemma Returns.leads (h : Returns step a) (hab : Leads step a b) : Leads step b a := by
  refine hab.invariant (P := fun c => Leads step c a) (fun c d hca hcd => ?_) (.refl a)
  rcases hca.eq_or_of_some hcd with rfl | hda
  · obtain ⟨b, hb, hba⟩ := h
    rw [hcd, Option.some.injEq] at hb
    exact hb ▸ hba
  · exact hda

lemma Returns.not_ends (h : Returns step a) : ¬ Ends step a := by
  rintro ⟨c, hac, hc⟩
  obtain rfl := (h.leads hac).eq_of_none hc
  obtain ⟨b, hb, -⟩ := h
  rw [hc] at hb
  simp at hb

/-! ### Turns -/

/-- The state after a number of turns; at an end the walk stays. -/
def afterTurns (step : σ → Option σ) (a : σ) (n : ℕ) : σ := (fun b => (step b).getD b)^[n] a

lemma afterTurns_succ (h : step a = some b) (n : ℕ) :
    afterTurns step a (n + 1) = afterTurns step b n := by
  simp [afterTurns, h]

/-- A loop has no result if there was a next item in each of its turns. -/
lemma runLoop_eq_none_iff {fuel : ℕ} :
    runLoop step res fuel a = none ↔ ∀ k < fuel, step (afterTurns step a k) ≠ none := by
  induction fuel generalizing a with
  | zero => simp [runLoop]
  | succ fuel ih =>
    cases hstep : step a with
    | none =>
      simp only [runLoop, hstep, reduceCtorEq, false_iff, not_forall]
      exact ⟨0, fuel.succ_pos, by simpa [afterTurns] using hstep⟩
    | some b =>
      rw [runLoop, hstep]
      refine ih.trans ⟨fun h k hk => ?_, fun h k hk => ?_⟩
      · cases k with
        | zero => simp [afterTurns, hstep]
        | succ k =>
          rw [afterTurns_succ hstep]
          exact h k (by omega)
      · rw [← afterTurns_succ hstep]
        exact h (k + 1) (by omega)

lemma leads_afterTurns {m k : ℕ} (h : ∀ j < m + k, step (afterTurns step a j) ≠ none) :
    Leads step (afterTurns step a m) (afterTurns step a (m + k)) := by
  induction k with
  | zero => exact .refl _
  | succ k ih =>
    refine Relation.ReflTransGen.tail (ih fun j hj => h j (by omega)) ?_
    obtain ⟨b, hb⟩ := Option.ne_none_iff_exists'.mp (h (m + k) (by omega))
    rw [hb, ← Nat.add_assoc, afterTurns, Function.iterate_succ_apply', ← afterTurns, hb]
    simp

/-- A state that is met twice leads back to itself. -/
lemma returns_afterTurns {m n : ℕ} (hlt : m < n) (heq : afterTurns step a m = afterTurns step a n)
    (h : ∀ j < n, step (afterTurns step a j) ≠ none) :
    Leads step a (afterTurns step a m) ∧ Returns step (afterTurns step a m) := by
  have hreach := leads_afterTurns (a := a) (m := 0) (k := m) fun j hj => h j (by omega)
  rw [Nat.zero_add] at hreach
  have hback := leads_afterTurns (a := a) (m := m + 1) (k := n - (m + 1)) fun j hj => h j (by omega)
  rw [show m + 1 + (n - (m + 1)) = n by omega, ← heq] at hback
  obtain ⟨b, hb⟩ := Option.ne_none_iff_exists'.mp (h m hlt)
  rw [afterTurns, Function.iterate_succ_apply', ← afterTurns, hb, Option.getD_some] at hback
  exact ⟨hreach, b, hb, hback⟩

lemma Ends.not_returns (h : Ends step a) (hab : Leads step a b) : ¬ Returns step b := by
  intro hb
  have hends : Ends step b :=
    hab.invariant (P := fun b => Ends step b) (fun _ _ hb hbc => (ends_of_some hbc).mp hb) h
  exact hb.not_ends hends

/-- A loop that ends has no more turns than there are states. -/
theorem Ends.runLoop_ne_none [Finite σ] (h : Ends step a) {fuel : ℕ} (hfuel : Nat.card σ ≤ fuel) :
    runLoop step res fuel a ≠ none := by
  intro hnone
  have hstep := runLoop_eq_none_iff.mp hnone
  have := Fintype.ofFinite σ
  rw [Nat.card_eq_fintype_card] at hfuel
  obtain ⟨m, n, hne, heq⟩ := Fintype.exists_ne_map_eq_of_card_lt
    (fun k : Fin (Fintype.card σ + 1) => afterTurns step a k) (by simp)
  wlog hlt : m < n generalizing m n
  · exact this n m hne.symm heq.symm (lt_of_le_of_ne (not_lt.mp hlt) hne.symm)
  obtain ⟨hreach, hreturns⟩ := returns_afterTurns (Fin.lt_def.mp hlt) heq fun j hj =>
    hstep j (by omega)
  exact h.not_returns hreach hreturns

/-! ### What a loop leaves behind -/

/-- The states that a loop goes on from, and the one that it ends in. -/
def trail (step : σ → Option σ) : ℕ → σ → Option (List σ × σ)
  | 0, _ => none
  | fuel + 1, a =>
    match step a with
    | none => some ([], a)
    | some b => (trail step fuel b).map fun r => (a :: r.1, r.2)

lemma runLoop_eq_trail (fuel : ℕ) (a : σ) :
    runLoop step res fuel a = (trail step fuel a).map fun r => res r.2 := by
  induction fuel generalizing a with
  | zero => rfl
  | succ fuel ih =>
    cases hstep : step a with
    | none => simp [runLoop, trail, hstep]
    | some b => simp [runLoop, trail, hstep, ih, Function.comp_def]

lemma exists_trail_iff : (∃ fuel, trail step fuel a ≠ none) ↔ Ends step a := by
  rw [← exists_runLoop_iff id]
  simp only [runLoop_eq_trail, ne_eq, Option.map_eq_none_iff]

/-- A loop that carries a value along: each turn changes it, by the state that it goes on from. -/
lemma loop_eq_trail {τ : Type*} {F : ℕ → σ → τ → ρ} {stuck : ρ} {act : σ → τ → τ} {D : σ → τ → ρ}
    {P : τ → Prop} (hzero : ∀ a t, F 0 a t = stuck)
    (hdone : ∀ fuel a t, P t → step a = none → F (fuel + 1) a t = D a t)
    (hgo : ∀ fuel a b t, P t → step a = some b → F (fuel + 1) a t = F fuel b (act a t))
    (hact : ∀ a t, P t → P (act a t)) {t : τ} (ht : P t) (fuel : ℕ) (a : σ) :
    F fuel a t =
      (trail step fuel a).elim stuck fun r => D r.2 (r.1.foldl (fun t a => act a t) t) := by
  induction fuel generalizing a t with
  | zero => exact hzero a t
  | succ fuel ih =>
    cases hstep : step a with
    | none => simpa [trail, hstep] using hdone fuel a t ht hstep
    | some b =>
      rw [hgo fuel a b t ht hstep, ih (hact a t ht) b]
      simp only [trail, hstep]
      cases trail step fuel b with
      | none => rfl
      | some r => rfl

end Loop

/-! ## An index that is a byte -/

section ByteIndex
variable (size : ℕ → Option ℕ)

/-- The next index, as a byte; `size` is the size of the item at an index, where the loop goes on
behind it. -/
def byteStep (i : UInt8) : Option UInt8 := (size i.toNat).map fun n => i + UInt8.ofNat n

/-- The next index, as an unbounded number. -/
def wideStep (i : ℕ) : Option ℕ := (size i).map (i + ·)

/-- In each turn of the loop the index advances by the size of the item, which is not zero. -/
def Follows (i : UInt8) : Prop :=
  ∀ j, Leads (byteStep size) i j → ∀ n, size j.toNat = some n →
    0 < n ∧ (j + UInt8.ofNat n).toNat = j.toNat + n

/-- None of the items is empty, and none reaches beyond 255. -/
def Fits (i : ℕ) : Prop :=
  ∀ j, Leads (wideStep size) i j → ∀ n, size j = some n → 0 < n ∧ j + n < 256

instance finiteUInt8 : Finite UInt8 := Finite.of_injective _ UInt8.toFin_injective

/-- A loop with a byte as its state has at most 256 turns, or it does not end. -/
lemma Ends.runLoop_byte {ρ : Type*} {step : UInt8 → Option UInt8} {R : UInt8 → ρ} {i : UInt8}
    (h : Ends step i) {fuel : ℕ} (hfuel : 256 ≤ fuel) : runLoop step R fuel i ≠ none := by
  refine h.runLoop_ne_none (le_trans ?_ hfuel)
  have hcard := Nat.card_le_card_of_injective _ UInt8.toFin_injective
  rwa [Nat.card_fin] at hcard

variable {size} {i : UInt8}

lemma add_ofNat_toNat (i : UInt8) (n : ℕ) :
    (i + UInt8.ofNat n).toNat = i.toNat + n ↔ i.toNat + n < 256 := by
  rw [UInt8.toNat_add, UInt8.toNat_ofNat']
  have hi := i.toNat_lt
  omega

lemma Follows.wide (h : Follows size i) {j : ℕ} (hj : Leads (wideStep size) i.toNat j) :
    ∃ k : UInt8, k.toNat = j ∧ Leads (byteStep size) i k := by
  refine hj.invariant (P := fun j => ∃ k : UInt8, k.toNat = j ∧ Leads (byteStep size) i k) ?_
    ⟨i, rfl, .refl i⟩
  rintro _ j ⟨k, rfl, hk⟩ hstep
  obtain ⟨n, hn, rfl⟩ := Option.map_eq_some_iff.mp hstep
  refine ⟨k + UInt8.ofNat n, (h k hk n hn).2, Relation.ReflTransGen.tail hk ?_⟩
  simp [byteStep, hn]

lemma Fits.byte (h : Fits size i.toNat) {j : UInt8} (hj : Leads (byteStep size) i j) :
    Leads (wideStep size) i.toNat j.toNat := by
  refine hj.invariant (P := fun j => Leads (wideStep size) i.toNat j.toNat) ?_ (.refl _)
  intro j k hj hstep
  obtain ⟨n, hn, rfl⟩ := Option.map_eq_some_iff.mp hstep
  refine Relation.ReflTransGen.tail hj ?_
  rw [(add_ofNat_toNat j n).mpr (h _ hj n hn).2]
  simp [wideStep, hn]

/-- **The index as a byte.**  It follows the items if and only if none of them is empty or reaches
beyond 255. -/
theorem follows_iff_fits : Follows size i ↔ Fits size i.toNat := by
  constructor
  · intro h j hj n hn
    obtain ⟨k, rfl, hk⟩ := h.wide hj
    obtain ⟨hpos, hadd⟩ := h k hk n hn
    exact ⟨hpos, (add_ofNat_toNat k n).mp hadd⟩
  · intro h j hj n hn
    obtain ⟨hpos, hlt⟩ := h _ (h.byte hj) n hn
    exact ⟨hpos, (add_ofNat_toNat j n).mpr hlt⟩

/-- A loop whose index follows the items ends. -/
theorem Follows.ends (h : Follows size i) : Ends (byteStep size) i := by
  induction hk : 256 - i.toNat using Nat.strong_induction_on generalizing i with
  | _ k ih =>
    cases hstep : byteStep size i with
    | none => exact ⟨i, .refl i, hstep⟩
    | some j =>
      obtain ⟨n, hn, rfl⟩ := Option.map_eq_some_iff.mp hstep
      obtain ⟨hpos, hadd⟩ := h i (.refl i) n hn
      have hlt := (i + UInt8.ofNat n).toNat_lt
      have hnext : Follows size (i + UInt8.ofNat n) := fun j hj => h j (hj.head hstep)
      exact (ends_of_some hstep).mpr (ih _ (by omega) hnext rfl)

end ByteIndex
end Contiki

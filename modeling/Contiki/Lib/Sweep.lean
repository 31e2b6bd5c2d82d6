import Mathlib.Data.List.Induction
import Mathlib.Data.List.Nodup
import Mathlib.Tactic.Common

/-!
# Sweeps over a table

A loop goes over the keys of a table.  Its turn for a key changes the entry with that key only, and
depends on the entry and on surroundings that the loop leaves alone.  The turns may leave messages in
one place, where a message takes the place of the one before.

* `Sweeps.induction` — when the turn of an entry comes, the entry is as it was.
* `Sweeps.own` — the table after the loop.
* `Sweeps.last` — the message that is left.
-/

namespace Contiki
variable {σ κ α ε : Type*}

/-- Each turn of the loop leaves alone the other entries and the surroundings. -/
structure Sweeps (f : σ → κ → σ) (get : σ → κ → α) (env : σ → ε) : Prop where
  others : ∀ s k j, j ≠ k → get (f s k) j = get s j
  env_eq : ∀ s k, env (f s k) = env s

namespace Sweeps
variable {f : σ → κ → σ} {get : σ → κ → α} {env : σ → ε} {s : σ} {l : List κ}

lemma env_foldl (h : Sweeps f get env) (l : List κ) (s : σ) : env (l.foldl f s) = env s := by
  induction l generalizing s with
  | nil => rfl
  | cons k l ih => exact (ih (f s k)).trans (h.env_eq s k)

lemma get_foldl_of_notMem (h : Sweeps f get env) {j : κ} (hj : j ∉ l) (s : σ) :
    get (l.foldl f s) j = get s j := by
  induction l generalizing s with
  | nil => rfl
  | cons k l ih =>
    obtain ⟨hne, hj⟩ := not_or.mp (fun hmem => hj (List.mem_cons.mpr hmem))
    exact (ih hj (f s k)).trans (h.others s k j hne)

/-- **The rule for sweeps.**  What holds at first is kept by every turn, when the turns may count on
their entries and the surroundings to be as they were. -/
theorem induction (h : Sweeps f get env) {motive : List κ → σ → Prop} (hl : l.Nodup)
    (hnil : motive [] s)
    (hstep : ∀ done k t, done ++ [k] <+: l → motive done t → get t k = get s k → env t = env s →
      motive (done ++ [k]) (f t k)) :
    motive l (l.foldl f s) := by
  have hall : ∀ done, done <+: l → motive done (done.foldl f s) := by
    intro done
    induction done using List.reverseRecOn with
    | nil => exact fun _ => hnil
    | append_singleton done k ih =>
      intro hpre
      have hnodup := hl.sublist hpre.sublist
      have hk : k ∉ done := fun hmem =>
        (List.nodup_append.mp hnodup).2.2 k hmem k (List.mem_singleton_self k) rfl
      rw [List.foldl_append]
      exact hstep done k _ hpre (ih ((List.prefix_append done [k]).trans hpre))
        (h.get_foldl_of_notMem hk s) (h.env_foldl done s)
  exact hall l (List.prefix_refl l)

/-- What the turn of a key does to its entry is what the loop does to it. -/
lemma own (h : Sweeps f get env) {R : ε → κ → α → α → Prop}
    (hown : ∀ t k, R (env t) k (get t k) (get (f t k) k)) (hl : l.Nodup) {k : κ} (hk : k ∈ l) :
    R (env s) k (get s k) (get (l.foldl f s) k) := by
  have hdone := h.induction (s := s) (motive := fun done t => ∀ j ∈ done, R (env s) j (get s j) (get t j))
    hl (fun j hj => absurd hj List.not_mem_nil) ?_
  · exact hdone k hk
  · intro done i t hpre ih hget henv j hj
    have hnodup := hl.sublist hpre.sublist
    rcases List.mem_append.mp hj with hj | hj
    · have hne : j ≠ i := (List.nodup_append.mp hnodup).2.2 j hj i (List.mem_singleton_self i)
      rw [h.others t i j hne]
      exact ih j hj
    · rw [List.mem_singleton.mp hj, ← hget, ← henv]
      exact hown t i

variable {μ : Type*}

/-- After the loop, the place holds the last message; without one, it holds what it held before. -/
lemma last (h : Sweeps f get env) (msg : ε → κ → α → Option μ) (Loaded : σ → μ → Prop)
    (hload : ∀ t k m, msg (env t) k (get t k) = some m → Loaded (f t k) m)
    (hkeep : ∀ t k m, msg (env t) k (get t k) = none → Loaded t m → Loaded (f t k) m) (hl : l.Nodup) :
    ∀ m, (l.filterMap fun k => msg (env s) k (get s k)).getLast? = some m ∨
        (l.filterMap fun k => msg (env s) k (get s k)) = [] ∧ Loaded s m →
      Loaded (l.foldl f s) m := by
  refine h.induction (s := s) (motive := fun done t => ∀ m,
    (done.filterMap fun k => msg (env s) k (get s k)).getLast? = some m ∨
        (done.filterMap fun k => msg (env s) k (get s k)) = [] ∧ Loaded s m →
      Loaded t m) hl ?_ ?_
  · rintro m (hm | ⟨-, hm⟩)
    · cases hm
    · exact hm
  · intro done k t hpre ih hget henv m hm
    rw [List.filterMap_append] at hm
    cases hmsg : msg (env s) k (get s k) with
    | none =>
      have hnone : [k].filterMap (fun k => msg (env s) k (get s k)) = [] := by
        simp [hmsg]
      rw [hnone, List.append_nil] at hm
      exact hkeep t k m (by rw [hget, henv, hmsg]) (ih m hm)
    | some m' =>
      have hsome : [k].filterMap (fun k => msg (env s) k (get s k)) = [m'] := by
        simp [hmsg]
      rw [hsome, List.getLast?_concat] at hm
      rcases hm with hm | ⟨hm, -⟩
      · obtain rfl := Option.some.inj hm
        exact hload t k m' (by rw [hget, henv, hmsg])
      · exact absurd hm (List.append_ne_nil_of_right_ne_nil _ (List.cons_ne_nil m' []))

end Sweeps
end Contiki

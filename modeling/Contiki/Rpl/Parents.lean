import Contiki.Rpl.SlotMoves

/-!
# Who owns the parents

The blocks of `parent_memb` are shared out among the parent lists of the DAGs, every parent knows
its DAG, and a preferred parent is on the list of its DAG: `Node.Owned`.  It is the invariant
that makes sense of a pointer to a parent.

Functions that only take parents away have the specification `Shrinks d s s'`; the one that adds a
parent has `Adds d p addr s s'`.  All others keep the families (`SameFamilies`), mostly because
they are quiet.
-/

namespace Contiki

variable {cfg : Config}

/-- The part of a DAG that says who its parents are, and in which mode it has them. -/
def Dag.family (dag : Dag cfg) : Bool × UInt8 × List cfg.ParentRef × Option cfg.ParentRef :=
  (dag.used, dag.mop, dag.parents, dag.preferredParent)

/-- The part of a parent that ties it to its DAG. -/
def Parent.kin (parent : Parent cfg) : Option cfg.DagRef × IpAddr := (parent.dag, parent.addr)

namespace Node

/-- **Ownership of parents.** -/
structure Owned (s : Node cfg) : Prop where
  /-- the allocated blocks are the disjoint union of the parent lists -/
  owned : s.parentMemb.OwnedBy fun d => (s.dagTable d).parents
  dag : ∀ d, ∀ p ∈ (s.dagTable d).parents, (s.parent p).dag = some d
  preferred : ∀ d p, (s.dagTable d).preferredParent = some p → p ∈ (s.dagTable d).parents
  unused : ∀ d, (s.dagTable d).used = false → (s.dagTable d).parents = []

/-! ## Keeping the families -/

/-- Who is a parent of whom is kept. -/
structure SameFamilies (s s' : Node cfg) : Prop where
  family : ∀ d, (s'.dagTable d).family = (s.dagTable d).family
  count : s'.parentMemb.count = s.parentMemb.count
  kin : ∀ p, (s'.parent p).kin = (s.parent p).kin

namespace SameFamilies
variable {s s' s'' : Node cfg}

lemma refl (s : Node cfg) : SameFamilies s s := ⟨fun _ => rfl, rfl, fun _ => rfl⟩

lemma trans (h : SameFamilies s s') (h' : SameFamilies s' s'') : SameFamilies s s'' where
  family d := (h'.family d).trans (h.family d)
  count := h'.count.trans h.count
  kin p := (h'.kin p).trans (h.kin p)

lemma used (h : SameFamilies s s') (d : cfg.DagRef) : (s'.dagTable d).used = (s.dagTable d).used :=
  congrArg Prod.fst (h.family d)

lemma mop (h : SameFamilies s s') (d : cfg.DagRef) : (s'.dagTable d).mop = (s.dagTable d).mop :=
  congrArg (fun family => family.2.1) (h.family d)

lemma parents (h : SameFamilies s s') (d : cfg.DagRef) :
    (s'.dagTable d).parents = (s.dagTable d).parents :=
  congrArg (fun family => family.2.2.1) (h.family d)

lemma preferredParent (h : SameFamilies s s') (d : cfg.DagRef) :
    (s'.dagTable d).preferredParent = (s.dagTable d).preferredParent :=
  congrArg (fun family => family.2.2.2) (h.family d)

lemma addr (h : SameFamilies s s') (p : cfg.ParentRef) : (s'.parent p).addr = (s.parent p).addr :=
  congrArg Prod.snd (h.kin p)

lemma of_quiet (h : Quiet s s') : SameFamilies s s' where
  family d := have hdag := congrArg Dag.family (h.dag d); hdag
  count := by rw [h.parentMemb]
  kin p := by rw [parent, h.parentMemb]; rfl

lemma of_p2p (h : P2pFrame s s') : SameFamilies s s' where
  family d := have hdag := congrArg Dag.family (h.dag d); hdag
  count := by rw [h.parentMemb]
  kin p := by rw [parent, h.parentMemb]; rfl

lemma modifyDag (s : Node cfg) (d : cfg.DagRef) {f : Dag cfg → Dag cfg}
    (hf : ∀ dag, (f dag).family = dag.family) :
    SameFamilies s (s.modifyDag d f) where
  family d' := by
    by_cases hd : d' = d
    · subst hd; simp [hf]
    · simp [hd]
  count := rfl
  kin _ := rfl

lemma modifyP2p (s : Node cfg) (e : cfg.P2pRef) (f : DagP2p cfg → DagP2p cfg) :
    SameFamilies s (s.modifyP2p e f) := ⟨fun _ => rfl, rfl, fun _ => rfl⟩

lemma modifyParent (s : Node cfg) (p : cfg.ParentRef) {f : Parent cfg → Parent cfg}
    (hf : ∀ parent, (f parent).kin = parent.kin) :
    SameFamilies s (s.modifyParent p f) where
  family _ := rfl
  count := rfl
  kin q := by
    by_cases hq : q = p
    · subst hq; simp [parent, Memb.write_mem, hf]
    · simp [parent, Memb.write_mem, hq]

end SameFamilies

namespace Owned
variable {s s' : Node cfg}

lemma congr (h : s.Owned) (hs : SameFamilies s s') : s'.Owned where
  owned := h.owned.congr hs.count hs.parents
  dag d p hp := (congrArg Prod.fst (hs.kin p)).trans (h.dag d p (hs.parents d ▸ hp))
  preferred d p hp := by
    rw [hs.parents d]
    exact h.preferred d p (hs.preferredParent d ▸ hp)
  unused d hd := by
    rw [hs.parents d]
    exact h.unused d (hs.used d ▸ hd)

lemma nodup (h : s.Owned) (d : cfg.DagRef) : (s.dagTable d).parents.Nodup := h.owned.parts.nodup d

/-- A parent that is on a list leads back to the DAG whose list it is. -/
lemma parentDag (h : s.Owned) {d : cfg.DagRef} {p : cfg.ParentRef}
    (hp : p ∈ (s.dagTable d).parents) (d' : cfg.DagRef) : s.parentDag d' p = s.dagTable d := by
  rw [Node.parentDag, h.dag d p hp, Option.getD_some]

/-- A parent is on one list only. -/
lemma notMem_other (h : s.Owned) {d d' : cfg.DagRef} (hd : d' ≠ d) {p : cfg.ParentRef}
    (hp' : p ∈ (s.dagTable d').parents) : p ∉ (s.dagTable d).parents := fun hp =>
  hd (by simpa using (h.dag d' p hp').symm.trans (h.dag d p hp))

/-- Nothing is owned at start-up. -/
lemma initial (h : s.Initial) : s.Owned where
  owned := by
    rw [h.parentMemb]
    refine (Memb.OwnedBy.fresh (ι := cfg.DagRef) _).congr rfl fun d => ?_
    rw [h.dagTable]
    rfl
  dag d p hp := by simp [h.dagTable, Dag.zero] at hp
  preferred d p hp := by simp [h.dagTable, Dag.zero] at hp
  unused d _ := by simp [h.dagTable, Dag.zero]

end Owned

/-! ## Taking parents away -/

/-- Some parents of `d` are gone, and ownership holds. -/
structure Shrinks (d : cfg.DagRef) (s s' : Node cfg) : Prop where
  owned : s'.Owned
  sublist : (s'.dagTable d).parents.Sublist (s.dagTable d).parents
  kin : ∀ p, (s'.parent p).kin = (s.parent p).kin

namespace Shrinks
variable {d : cfg.DagRef} {s s' s'' : Node cfg}

lemma refl (d : cfg.DagRef) (h : s.Owned) : Shrinks d s s :=
  ⟨h, .refl _, fun _ => rfl⟩

lemma trans (h : Shrinks d s s') (h' : Shrinks d s' s'') : Shrinks d s s'' :=
  ⟨h'.owned, h'.sublist.trans h.sublist, fun p => (h'.kin p).trans (h.kin p)⟩

lemma of_same (h : s.Owned) (hs : SameFamilies s s') : Shrinks d s s' :=
  ⟨h.congr hs, by rw [hs.parents d], hs.kin⟩

/-- A step before which, or after which, the families stay as they are. -/
lemma then_same (h : Shrinks d s s') (hs : SameFamilies s' s'') : Shrinks d s s'' :=
  h.trans (.of_same h.owned hs)

lemma subset (h : Shrinks d s s') {p : cfg.ParentRef} (hp : p ∈ (s'.dagTable d).parents) :
    p ∈ (s.dagTable d).parents :=
  h.sublist.subset hp

lemma addr (h : Shrinks d s s') (p : cfg.ParentRef) : (s'.parent p).addr = (s.parent p).addr :=
  congrArg Prod.snd (h.kin p)

lemma nil (h : Shrinks d s s') (hnil : (s.dagTable d).parents = []) :
    (s'.dagTable d).parents = [] := by
  have hsub := h.sublist
  rw [hnil] at hsub
  exact List.sublist_nil.mp hsub

end Shrinks

/-- The preferred parent after parents of the DAG were taken away. -/
lemma Owned.preferred_none {s : Node cfg} (h : s.Owned) {d : cfg.DagRef}
    (hnil : (s.dagTable d).parents = []) : (s.dagTable d).preferredParent = none := by
  cases hp : (s.dagTable d).preferredParent with
  | none => rfl
  | some p =>
      have := h.preferred d p hp
      rw [hnil] at this
      cases this

section Remove
variable {s : Node cfg} {d : cfg.DagRef} {p : cfg.ParentRef}

lemma rplRemoveParent_parents (s : Node cfg) (d d' : cfg.DagRef) (p : cfg.ParentRef) :
    ((s.rplRemoveParent d p).dagTable d').parents =
      Function.update (fun d => (s.dagTable d).parents) d (listRemove (s.dagTable d).parents p) d' := by
  have hquiet := rmParentRoutes_quiet s d (s.parent p).addr
  by_cases hd : d' = d
  · subst hd; simp [rplRemoveParent, hquiet.parents]
  · simp [rplRemoveParent, hd, hquiet.parents]

lemma rplRemoveParent_preferredParent (s : Node cfg) (d : cfg.DagRef) (p : cfg.ParentRef) :
    ((s.rplRemoveParent d p).dagTable d).preferredParent =
      if some p = (s.dagTable d).preferredParent then none else (s.dagTable d).preferredParent := by
  have hquiet := rmParentRoutes_quiet s d (s.parent p).addr
  simp [rplRemoveParent, hquiet.preferredParent]

lemma rplRemoveParent_parentMemb (s : Node cfg) (d : cfg.DagRef) (p : cfg.ParentRef) :
    (s.rplRemoveParent d p).parentMemb = s.parentMemb.free p := by
  simp [rplRemoveParent, (rmParentRoutes_quiet s d (s.parent p).addr).parentMemb]

lemma rplRemoveParent_used (s : Node cfg) (d d' : cfg.DagRef) (p : cfg.ParentRef) :
    ((s.rplRemoveParent d p).dagTable d').used = (s.dagTable d').used :=
  congrArg DagSlot.used ((rplRemoveParent_frame s d p).slot_eq d')

/-- **Removing a parent.** -/
lemma rplRemoveParent_shrinks (h : s.Owned) (hp : p ∈ (s.dagTable d).parents) :
    Shrinks d s (s.rplRemoveParent d p) := by
  have hparents := s.rplRemoveParent_parents d (p := p)
  have hpreferred := s.rplRemoveParent_preferredParent d p
  have hmemb := s.rplRemoveParent_parentMemb d p
  have hkin : ∀ q, (s.rplRemoveParent d p).parent q = s.parent q := by
    intro q
    rw [parent, hmemb, Memb.free_mem]
    rfl
  have hmem : ∀ d' q, q ∈ ((s.rplRemoveParent d p).dagTable d').parents →
      q ∈ (s.dagTable d').parents := by
    intro d' q hq
    rw [hparents] at hq
    by_cases hd : d' = d
    · subst hd
      exact mem_of_mem_listRemove (by simpa using hq)
    · simpa [hd] using hq
  refine ⟨⟨?_, ?_, ?_, ?_⟩, ?_, fun q => by rw [hkin]⟩
  · rw [hmemb]
    exact (h.owned.free_erase hp).congr rfl hparents
  · intro d' q hq
    rw [hkin]
    exact h.dag d' q (hmem d' q hq)
  · intro d' q hq
    by_cases hd : d' = d
    · subst hd
      rw [hpreferred] at hq
      split_ifs at hq with hpq
      rw [hparents, Function.update_self, mem_listRemove (h.nodup d')]
      refine ⟨h.preferred d' q hq, ?_⟩
      rintro rfl
      exact hpq hq.symm
    · rw [(rplRemoveParent_frame s d p).other d' hd] at hq ⊢
      exact h.preferred d' q hq
  · intro d' hunused
    rw [rplRemoveParent_used] at hunused
    exact List.eq_nil_iff_forall_not_mem.mpr fun q hq => by
      simpa [h.unused d' hunused] using hmem d' q hq
  · rw [hparents, Function.update_self]
    exact List.erase_sublist

/-- The loop over the parents, of which it leaves those of too small a rank. -/
lemma removeParentsFrom_shrinks (h : s.Owned) (minimumRank : UInt16) {l : List cfg.ParentRef}
    (hl : l.Nodup) (hsub : ∀ p ∈ l, p ∈ (s.dagTable d).parents) :
    Shrinks d s (removeParentsFrom d minimumRank l s) := by
  induction l generalizing s with
  | nil => exact .refl d h
  | cons p rest ih =>
      have hp := hsub p List.mem_cons_self
      obtain ⟨hnotMem, hrest⟩ := List.nodup_cons.mp hl
      simp only [removeParentsFrom]
      split_ifs
      · have hremove := rplRemoveParent_shrinks h hp
        refine hremove.trans (ih hremove.owned hrest fun q hq => ?_)
        rw [s.rplRemoveParent_parents, Function.update_self, mem_listRemove (h.nodup d)]
        exact ⟨hsub q (List.mem_cons_of_mem p hq), fun hqp => hnotMem (hqp ▸ hq)⟩
      · exact ih h hrest fun q hq => hsub q (List.mem_cons_of_mem p hq)

lemma rplRemoveParents_shrinks (h : s.Owned) (d : cfg.DagRef) (minimumRank : UInt16) :
    Shrinks d s (s.rplRemoveParents d minimumRank) :=
  removeParentsFrom_shrinks h minimumRank (h.nodup d) fun _ hp => hp

/-- With rank zero as the bound, every parent goes. -/
lemma removeParentsFrom_zero (s : Node cfg) (d : cfg.DagRef) {l : List cfg.ParentRef}
    (hl : l.Nodup) {q : cfg.ParentRef} (hnodup : (s.dagTable d).parents.Nodup) :
    q ∈ ((removeParentsFrom d 0 l s).dagTable d).parents →
      q ∈ (s.dagTable d).parents ∧ q ∉ l := by
  induction l generalizing s with
  | nil => exact fun hq => ⟨hq, List.not_mem_nil⟩
  | cons p rest ih =>
      have hrest := (List.nodup_cons.mp hl).2
      have hparents : ((s.rplRemoveParent d p).dagTable d).parents =
          listRemove (s.dagTable d).parents p := by
        rw [s.rplRemoveParent_parents, Function.update_self]
      simp only [removeParentsFrom, ge_iff_le, UInt16.zero_le, ↓reduceIte]
      intro hq
      obtain ⟨hmem, hnotMem⟩ :=
        ih (s.rplRemoveParent d p) hrest (by rw [hparents]; exact nodup_listRemove hnodup p) hq
      rw [hparents, mem_listRemove hnodup] at hmem
      exact ⟨hmem.1, by simp [hmem.2, hnotMem]⟩

lemma rplRemoveParents_zero (h : s.Owned) (d : cfg.DagRef) :
    ((s.rplRemoveParents d 0).dagTable d).parents = [] := by
  refine List.eq_nil_iff_forall_not_mem.mpr fun q hq => ?_
  obtain ⟨hmem, hnotMem⟩ := removeParentsFrom_zero s d (h.nodup d) (h.nodup d) hq
  exact hnotMem hmem

lemma worstParent_spec {l : List cfg.ParentRef} {worst : Option cfg.ParentRef} {w : cfg.ParentRef}
    (h : s.worstParent d l worst = some w) :
    worst = some w ∨ w ∈ l ∧ some w ≠ (s.dagTable d).preferredParent := by
  induction l generalizing worst with
  | nil => exact .inl h
  | cons p rest ih =>
      simp only [worstParent] at h
      obtain heq | ⟨hmem, hne⟩ := ih h
      · split_ifs at heq with hworse
        · obtain rfl : p = w := by simpa using heq
          exact .inr ⟨List.mem_cons_self, hworse.1⟩
        · exact .inl heq
      · exact .inr ⟨List.mem_cons_of_mem p hmem, hne⟩

/-- Making room does not touch the preferred parent. -/
lemma removeWorstParent_shrinks (h : s.Owned) (d : cfg.DagRef) (minWorstRank : UInt16) :
    Shrinks d s (s.removeWorstParent d minWorstRank) ∧
      ((s.removeWorstParent d minWorstRank).dagTable d).preferredParent =
        (s.dagTable d).preferredParent := by
  unfold removeWorstParent
  split
  · rename_i w hworst
    obtain hnone | ⟨hmem, hne⟩ := worstParent_spec hworst
    · cases hnone
    split_ifs
    · exact ⟨rplRemoveParent_shrinks h hmem, by rw [rplRemoveParent_preferredParent, if_neg hne]⟩
    · exact ⟨.refl d h, rfl⟩
  · exact ⟨.refl d h, rfl⟩

end Remove

/-! ## Adding a parent -/

/-- The parent `p` with the given address was put at the end of what is left of the list. -/
structure Adds (d : cfg.DagRef) (p : cfg.ParentRef) (addr : IpAddr) (s s' : Node cfg) : Prop where
  owned : s'.Owned
  parents : ∃ l : List cfg.ParentRef, l.Sublist (s.dagTable d).parents ∧
    (s'.dagTable d).parents = l ++ [p]
  preferred : (s'.dagTable d).preferredParent = (s.dagTable d).preferredParent
  addr : (s'.parent p).addr = addr
  kin : ∀ q, q ≠ p → (s'.parent q).kin = (s.parent q).kin

lemma initParent_adds {s : Node cfg} (h : s.Owned) {d : cfg.DagRef}
    (hused : (s.dagTable d).used = true) {p : cfg.ParentRef}
    {memb : Memb (Parent cfg) cfg.maxParents} (halloc : s.parentMemb.alloc = some (p, memb))
    (dio : Dio) (addr : IpAddr) :
    Adds d p addr s ({ s with parentMemb := memb }.initParent d dio addr p) := by
  obtain ⟨hzero, hmemb⟩ := Memb.alloc_eq_some halloc
  have hfresh : ∀ d', p ∉ (s.dagTable d').parents := h.owned.fresh_notMem hzero
  set s' := { s with parentMemb := memb }.initParent d dio addr p with hs'
  have hparents : ∀ d', (s'.dagTable d').parents = Function.update
      (fun d => (s.dagTable d).parents) d (listAdd (s.dagTable d).parents p) d' := by
    intro d'
    by_cases hd : d' = d
    · subst hd; simp [hs', initParent]
    · simp [hs', initParent, hd]
  have hself : (s'.parent p).kin = (some d, addr) := by
    simp [hs', initParent, parent, Memb.write_mem, Parent.kin]
  have hkin : ∀ q, q ≠ p → (s'.parent q).kin = (s.parent q).kin := by
    intro q hq
    simp [hs', initParent, parent, Memb.write_mem, hq, hmemb]
  have hpreferred : ∀ d', (s'.dagTable d').preferredParent = (s.dagTable d').preferredParent := by
    intro d'
    by_cases hd : d' = d
    · subst hd; simp [hs', initParent]
    · simp [hs', initParent, hd]
  refine ⟨⟨?_, ?_, ?_, ?_⟩, ⟨_, .refl _, ?_⟩, hpreferred d, congrArg Prod.snd hself, hkin⟩
  · have hcount : s'.parentMemb.count = memb.count := rfl
    exact (h.owned.alloc_add halloc d).congr hcount hparents
  · intro d' q hq
    rw [hparents] at hq
    by_cases hqp : q = p
    · subst hqp
      by_cases hd : d' = d
      · subst hd; exact congrArg Prod.fst hself
      · exact absurd (by simpa [hd] using hq) (hfresh d')
    · refine (congrArg Prod.fst (hkin q hqp)).trans (h.dag d' q ?_)
      by_cases hd : d' = d
      · subst hd; simpa [mem_listAdd, hqp] using hq
      · simpa [hd] using hq
  · intro d' q hq
    rw [hpreferred] at hq
    rw [hparents]
    by_cases hd : d' = d
    · subst hd; simp [mem_listAdd, h.preferred d' q hq]
    · simpa [hd] using h.preferred d' q hq
  · intro d' hunused
    by_cases hd : d' = d
    · subst hd; simp [hs', initParent, hused] at hunused
    · rw [hparents, Function.update_of_ne hd]
      exact h.unused d' (by simpa [hs', initParent, hd] using hunused)
  · rw [hparents, Function.update_self, listAdd_of_notMem (hfresh d)]

/-- **Adding a parent**, for which a worse one may have to go. -/
lemma rplAddParent_adds {s s' : Node cfg} (h : s.Owned) {d : cfg.DagRef}
    (hused : (s.dagTable d).used = true) {dio : Dio} {addr : IpAddr} {p : cfg.ParentRef}
    (hadd : s.rplAddParent d dio addr = (some p, s')) : Adds d p addr s s' := by
  unfold rplAddParent at hadd
  split at hadd
  · rename_i halloc
    cases hadd
    exact initParent_adds h hused halloc dio addr
  · obtain ⟨hshrinks, hpreferred⟩ := removeWorstParent_shrinks h d dio.rank
    have hused' : ((s.removeWorstParent d dio.rank).dagTable d).used = true := by
      rw [← hused]
      exact congrArg DagSlot.used ((removeWorstParent_frame s d dio.rank).slot_eq d)
    simp only at hadd
    split at hadd
    · rename_i halloc
      cases hadd
      have hadds := initParent_adds hshrinks.owned hused' halloc dio addr
      obtain ⟨l, hl, hparents⟩ := hadds.parents
      exact ⟨hadds.owned, ⟨l, hl.trans hshrinks.sublist, hparents⟩,
        hadds.preferred.trans hpreferred, hadds.addr,
        fun q hq => (hadds.kin q hq).trans (hshrinks.kin q)⟩
    · cases hadd

/-- Without memory, a parent may still have been taken away to make room. -/
lemma rplAddParent_shrinks {s s' : Node cfg} (h : s.Owned) {d : cfg.DagRef} {dio : Dio}
    {addr : IpAddr} (hadd : s.rplAddParent d dio addr = (none, s')) :
    Shrinks d s s' ∧ (s'.dagTable d).preferredParent = (s.dagTable d).preferredParent := by
  unfold rplAddParent at hadd
  split at hadd
  · cases hadd
  · simp only at hadd
    split at hadd
    · cases hadd
    · cases hadd
      exact removeWorstParent_shrinks h d dio.rank

end Node
end Contiki

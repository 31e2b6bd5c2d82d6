import Contiki.Lib.History
import Contiki.Lib.Subscriptions
import Contiki.Net.Ds6Periodic
import Contiki.Net.ParkedPackets

/-!
# Solicited-node groups

Each address of the interface belongs to a solicited-node group, and neighbours resolve the address by
way of the group.  All addresses with the same last 24 bits have one group.  `uip_ds6_addr_add` joins it
once, and `uip_ds6_addr_rm` leaves it whoever else needs it.

* `Ds6Host.periodicAddrs_releases` — what a tick removes.
* `Ds6Host.groupsCover_iff` — when all groups that are needed are there, over any sequence of calls.
-/

namespace Contiki

namespace IpNode

/-- The entry of the list of addresses with a number. -/
def addrAt (node : IpNode) (i : ℕ) : Option Ds6Addr :=
  if hi : i < node.nAddr then some (node.addrList ⟨i, hi⟩) else none

/-- The address in an entry in use. -/
def member (node : IpNode) (i : ℕ) : Option IpAddr :=
  (node.addrAt i).bind fun a => if a.isused then some a.ipaddr else none

/-- The multicast addresses of the node. -/
def groups (node : IpNode) : Set IpAddr :=
  {g | ∃ k, (node.maddrList k).isused = true ∧ (node.maddrList k).ipaddr = g}

/-- Every address in use has its solicited-node group. -/
def GroupsCover (node : IpNode) : Prop := Covers IpAddr.uipCreateSolicitedNode node.member node.groups

/-- No multicast address is there twice. -/
def GroupsDistinct (node : IpNode) : Prop :=
  ∀ k l, (node.maddrList k).isused = true → (node.maddrList l).isused = true →
    (node.maddrList k).ipaddr = (node.maddrList l).ipaddr → k = l

/-- The addresses `R` are removed, and the groups `K` left. -/
structure Leaves (node node' : IpNode) (R : Set ℕ) (K : Set IpAddr) : Prop where
  releases : Releases node.member node.groups node'.member node'.groups R K
  distinct : node'.GroupsDistinct

variable {node node' node'' : IpNode} {R S : Set ℕ} {K L : Set IpAddr} {i j : ℕ}

lemma Leaves.refl (h : node.GroupsDistinct) : Leaves node node ∅ ∅ := ⟨.refl _ _, h⟩

lemma Leaves.trans (h : Leaves node node' R K) (h' : Leaves node' node'' S L) :
    Leaves node node'' (R ∪ S) (K ∪ L) := ⟨h.releases.trans h'.releases, h'.distinct⟩

lemma addrAt_of_lt (hi : i < node.nAddr) : node.addrAt i = some (node.addrList ⟨i, hi⟩) := dif_pos hi

lemma member_of_addrAt {a : Ds6Addr} (h : node.addrAt i = some a) :
    node.member i = if a.isused then some a.ipaddr else none := by
  rw [member, h, Option.bind_some]

lemma member_congr (h : node'.addrAt i = node.addrAt i) : node'.member i = node.member i := by
  unfold member
  rw [h]

/-- An entry of the list of addresses is written. -/
lemma addrAt_update (hi : i < node.nAddr) (a : Ds6Addr) (j : ℕ) :
    ({ node with addrList := Function.update node.addrList ⟨i, hi⟩ a } : IpNode).addrAt j =
      if j = i then some a else node.addrAt j := by
  unfold addrAt
  dsimp only
  by_cases hj : j = i
  · subst hj
    rw [dif_pos hi, if_pos rfl, Function.update_self]
  · rw [if_neg hj]
    by_cases hlt : j < node.nAddr
    · rw [dif_pos hlt, dif_pos hlt, Function.update_of_ne]
      exact fun h => hj (Fin.mk.inj h)
    · rw [dif_neg hlt, dif_neg hlt]

end IpNode

namespace IpStack
variable {cfg : StackConfig} {δ : Type} {s : IpStack cfg δ}

/-- A group is left. -/
lemma maddrRm_spec (s : IpStack cfg δ) (hdist : s.node.GroupsDistinct) (g : IpAddr) :
    (s.maddrRm g).node.addrAt = s.node.addrAt ∧ (s.maddrRm g).node.groups = s.node.groups \ {g} ∧
      (s.maddrRm g).node.GroupsDistinct := by
  unfold maddrRm
  cases hloop : uipDs6ListLoop s.node.maddrList g 128 with
  | found k =>
    obtain ⟨hused, hcmp⟩ := ListLoop.found_spec hloop
    have haddr := (IpAddr.uipIpaddrPrefixcmp_128 _ _).mp hcmp
    refine ⟨rfl, Set.ext fun g' => ⟨?_, ?_⟩, fun l l' hl hl' heq => ?_⟩
    · rintro ⟨l, hl, rfl⟩
      dsimp only at hl ⊢
      by_cases hlk : l = k
      · rw [hlk, Function.update_self] at hl
        cases hl
      · rw [Function.update_of_ne hlk] at hl ⊢
        refine ⟨⟨l, hl, rfl⟩, fun hg => hlk (hdist l k hl hused ?_)⟩
        rw [haddr]
        exact hg
    · rintro ⟨⟨l, hl, rfl⟩, hg⟩
      have hlk : l ≠ k := by
        rintro rfl
        exact hg haddr
      refine ⟨l, ?_, ?_⟩
      · show (Function.update s.node.maddrList k _ l).isused = true
        rwa [Function.update_of_ne hlk]
      · show (Function.update s.node.maddrList k _ l).ipaddr = _
        rw [Function.update_of_ne hlk]
    · dsimp only at l l' hl hl' heq ⊢
      have hne : ∀ m, (Function.update s.node.maddrList k
          { s.node.maddrList k with isused := false } m).isused = true → m ≠ k := by
        rintro m hm rfl
        rw [Function.update_self] at hm
        cases hm
      rw [Function.update_of_ne (hne l hl), Function.update_of_ne (hne l' hl')] at heq
      rw [Function.update_of_ne (hne l hl)] at hl
      rw [Function.update_of_ne (hne l' hl')] at hl'
      exact hdist l l' hl hl' heq
  | freespace k =>
    have hno := (ListLoop.freespace_spec hloop).2
    refine ⟨rfl, (Set.sdiff_singleton_eq_self ?_).symm, hdist⟩
    rintro ⟨l, hl, hg⟩
    exact hno l ⟨hl, (IpAddr.uipIpaddrPrefixcmp_128 _ _).mpr hg⟩
  | nospace =>
    have hno := (ListLoop.nospace_spec hloop).2
    refine ⟨rfl, (Set.sdiff_singleton_eq_self ?_).symm, hdist⟩
    rintro ⟨l, hl, hg⟩
    exact hno l ⟨hl, (IpAddr.uipIpaddrPrefixcmp_128 _ _).mpr hg⟩

/-- `uip_ds6_addr_rm` removes the address and leaves its group. -/
lemma uipDs6AddrRm_leaves (hdist : s.node.GroupsDistinct) (i : Fin s.node.nAddr) :
    s.node.Leaves (s.uipDs6AddrRm i).node {i.val}
      {(s.node.addrList i).ipaddr.uipCreateSolicitedNode} ∧
    ∀ j, j ≠ i.val → (s.uipDs6AddrRm i).node.addrAt j = s.node.addrAt j := by
  obtain ⟨haddr, hgroups, hdistinct⟩ := maddrRm_spec
    ({ s with node := { s.node with
        addrList := Function.update s.node.addrList i { s.node.addrList i with isused := false } } } :
      IpStack cfg δ) hdist (s.node.addrList i).ipaddr.uipCreateSolicitedNode
  have hat (j : ℕ) : (s.uipDs6AddrRm i).node.addrAt j =
      if j = i.val then some { s.node.addrList i with isused := false } else s.node.addrAt j :=
    (congrFun haddr j).trans (IpNode.addrAt_update i.isLt _ j)
  refine ⟨⟨⟨fun j hj => ?_, fun j hj => ?_, hgroups⟩, hdistinct⟩, fun j hj => ?_⟩
  · unfold IpNode.member
    rw [hat, if_pos (show j = i.val from hj)]
    rfl
  · exact IpNode.member_congr ((hat j).trans (if_neg hj))
  · exact (hat j).trans (if_neg hj)

end IpStack

namespace Ds6Host
variable {cfg : StackConfig} {δ : Type} (h : Ds6Host cfg δ) {i j : ℕ}

/-- An address whose lifetime is over. -/
def Expires (i : ℕ) : Prop :=
  ∃ a, h.stack.node.addrAt i = some a ∧ a.isused = true ∧ a.isinfinite = false ∧
    (h.addrVlifetime i).expired h.stack.clockSeconds = true

/-- The groups of the addresses in some entries. -/
def groupsOf (R : Set ℕ) : Set IpAddr :=
  {g | ∃ i ∈ R, ∃ a, h.stack.node.addrAt i = some a ∧ a.ipaddr.uipCreateSolicitedNode = g}

lemma groupsOf_empty : h.groupsOf ∅ = ∅ := by
  refine Set.eq_empty_of_forall_notMem ?_
  rintro g ⟨j, hj, -⟩
  exact hj

lemma groupsOf_union (R S : Set ℕ) : h.groupsOf (R ∪ S) = h.groupsOf R ∪ h.groupsOf S := by
  ext g
  constructor
  · rintro ⟨i, hi | hi, ha⟩
    · exact .inl ⟨i, hi, ha⟩
    · exact .inr ⟨i, hi, ha⟩
  · rintro (⟨i, hi, ha⟩ | ⟨i, hi, ha⟩)
    · exact ⟨i, .inl hi, ha⟩
    · exact ⟨i, .inr hi, ha⟩

variable {h}

lemma uipDs6AddrRm_leaves (hdist : h.stack.node.GroupsDistinct) (i : ℕ) :
    h.stack.node.Leaves (h.uipDs6AddrRm i).stack.node {i} (h.groupsOf {i}) := by
  unfold uipDs6AddrRm
  by_cases hi : i < h.stack.node.nAddr
  · have hgroup : h.groupsOf {i} = {(h.stack.node.addrList ⟨i, hi⟩).ipaddr.uipCreateSolicitedNode} := by
      ext g
      constructor
      · rintro ⟨_, rfl, a, ha, rfl⟩
        rw [IpNode.addrAt_of_lt hi] at ha
        cases ha
        rfl
      · rintro rfl
        exact ⟨i, rfl, _, IpNode.addrAt_of_lt hi, rfl⟩
    rw [dif_pos hi, hgroup]
    exact (IpStack.uipDs6AddrRm_leaves hdist ⟨i, hi⟩).1
  · have hnone : h.stack.node.addrAt i = none := dif_neg hi
    have hgroup : h.groupsOf {i} = ∅ := by
      refine Set.eq_empty_of_forall_notMem ?_
      rintro g ⟨_, rfl, a, ha, -⟩
      rw [hnone] at ha
      cases ha
    rw [dif_neg hi, hgroup]
    refine ⟨⟨fun j hj => ?_, fun _ _ => rfl, Set.sdiff_empty.symm⟩, hdist⟩
    unfold IpNode.member
    rw [show j = i from hj, hnone]
    rfl

lemma addrAt_uipDs6AddrRm (hdist : h.stack.node.GroupsDistinct) (hj : j ≠ i) :
    (h.uipDs6AddrRm i).stack.node.addrAt j = h.stack.node.addrAt j := by
  unfold uipDs6AddrRm
  split_ifs with hi
  · exact (IpStack.uipDs6AddrRm_leaves hdist ⟨i, hi⟩).2 j hj
  · rfl

/-- The detection of duplicates changes no address and no group. -/
lemma uipDs6Dad_leaves (hdist : h.stack.node.GroupsDistinct) (i : Fin h.stack.node.nAddr) :
    h.stack.node.Leaves (h.uipDs6Dad i).stack.node ∅ ∅ ∧
      ∀ j, j ≠ i.val → (h.uipDs6Dad i).stack.node.addrAt j = h.stack.node.addrAt j := by
  unfold uipDs6Dad
  split_ifs
  · have hnode : (h.stack.uipNd6NsOutput none none (h.stack.node.addrList i).ipaddr).node =
        h.stack.node := (IpStack.onlyPacket_uipNd6NsOutput _ _ _ _).node
    show h.stack.node.Leaves (h.stack.uipNd6NsOutput none none _).node ∅ ∅ ∧
      ∀ j, j ≠ i.val → (h.stack.uipNd6NsOutput none none _).node.addrAt j = _
    rw [hnode]
    exact ⟨.refl hdist, fun _ _ => rfl⟩
  · have hat (j : ℕ) : (h.setAddrState i .preferred).stack.node.addrAt j =
        if j = i.val then some { h.stack.node.addrList i with state := .preferred }
        else h.stack.node.addrAt j := IpNode.addrAt_update i.isLt _ j
    refine ⟨⟨⟨fun j hj => absurd hj (Set.notMem_empty j), fun j _ => ?_, Set.sdiff_empty.symm⟩, hdist⟩,
      fun j hj => (hat j).trans (if_neg hj)⟩
    unfold IpNode.member
    rw [hat]
    split_ifs with hj
    · rw [hj, IpNode.addrAt_of_lt i.isLt]
      rfl
    · rfl

lemma expires_iff (hi : i < h.stack.node.nAddr) : h.Expires i ↔
    (h.stack.node.addrList ⟨i, hi⟩).isused = true ∧ h.AddrExpired ⟨i, hi⟩ := by
  unfold Expires AddrExpired
  rw [IpNode.addrAt_of_lt hi]
  simp

/-- What one turn of the loop over the addresses does: an address whose lifetime is over is removed, and
the other entries stay. -/
lemma periodicAddr_spec (hdist : h.stack.node.GroupsDistinct) (i : ℕ) :
    h.stack.node.Leaves (h.periodicAddr i).stack.node {j | j = i ∧ h.Expires j}
        (h.groupsOf {j | j = i ∧ h.Expires j}) ∧
      (∀ j, j ≠ i → (h.periodicAddr i).stack.node.addrAt j = h.stack.node.addrAt j) ∧
      (h.periodicAddr i).addrVlifetime = h.addrVlifetime ∧
      (h.periodicAddr i).stack.clockSeconds = h.stack.clockSeconds := by
  have hempty (hnot : ¬h.Expires i) : {j | j = i ∧ h.Expires j} = ∅ := by
    refine Set.eq_empty_of_forall_notMem ?_
    rintro _ ⟨rfl, hexp⟩
    exact hnot hexp
  unfold periodicAddr
  by_cases hi : i < h.stack.node.nAddr
  · rw [dif_pos hi]
    by_cases hused : (h.stack.node.addrList ⟨i, hi⟩).isused = false
    · have hnot : ¬h.Expires i := by
        rw [expires_iff hi, hused]
        simp
      rw [if_pos hused, hempty hnot, groupsOf_empty]
      exact ⟨.refl hdist, fun _ _ => rfl, rfl, rfl⟩
    · rw [if_neg hused]
      by_cases hexp : h.AddrExpired ⟨i, hi⟩
      · have hall : {j | j = i ∧ h.Expires j} = {i} := by
          ext j
          constructor
          · exact fun hj => hj.1
          · rintro rfl
            exact ⟨rfl, (expires_iff hi).mpr ⟨by simpa using hused, hexp⟩⟩
        rw [if_pos hexp, hall]
        refine ⟨uipDs6AddrRm_leaves hdist i, fun j hj => addrAt_uipDs6AddrRm hdist hj, ?_, ?_⟩
        · unfold uipDs6AddrRm
          split_ifs
          rfl
        · unfold uipDs6AddrRm
          rw [dif_pos hi]
          show (h.stack.uipDs6AddrRm ⟨i, hi⟩).clockSeconds = _
          unfold IpStack.uipDs6AddrRm IpStack.maddrRm
          dsimp only
          split <;> rfl
      · have hnot : ¬h.Expires i := fun h' => hexp ((expires_iff hi).mp h').2
        rw [if_neg hexp, hempty hnot, groupsOf_empty]
        split_ifs
        · obtain ⟨hleaves, hat⟩ := uipDs6Dad_leaves hdist ⟨i, hi⟩
          refine ⟨hleaves, hat, ?_, ?_⟩
          · unfold uipDs6Dad
            split_ifs <;> rfl
          · unfold uipDs6Dad
            split_ifs
            · show (h.stack.uipNd6NsOutput none none _).clockSeconds = _
              rw [IpStack.onlyPacket_uipNd6NsOutput]
            · rfl
        · exact ⟨.refl hdist, fun _ _ => rfl, rfl, rfl⟩
  · have hnot : ¬h.Expires i := by
      rintro ⟨a, ha, -⟩
      rw [show h.stack.node.addrAt i = none from dif_neg hi] at ha
      cases ha
    rw [dif_neg hi, hempty hnot, groupsOf_empty]
    exact ⟨.refl hdist, fun _ _ => rfl, rfl, rfl⟩

/-- The loop over some of the addresses removes those whose lifetime is over. -/
lemma foldl_periodicAddr_leaves {l : List ℕ} (hl : l.Nodup) (hdist : h.stack.node.GroupsDistinct) :
    h.stack.node.Leaves (l.foldl periodicAddr h).stack.node {j | j ∈ l ∧ h.Expires j}
      (h.groupsOf {j | j ∈ l ∧ h.Expires j}) := by
  induction l generalizing h with
  | nil =>
    have hset : {j | j ∈ ([] : List ℕ) ∧ h.Expires j} = ∅ := by simp
    rw [hset, groupsOf_empty]
    exact .refl hdist
  | cons i l ih =>
    obtain ⟨hi, hnodup⟩ := List.nodup_cons.mp hl
    obtain ⟨hleaves, hat, hlife, hclock⟩ := periodicAddr_spec hdist i
    have hne : ∀ j ∈ l, j ≠ i := fun j hj hji => hi (hji ▸ hj)
    have hset : {j | j ∈ l ∧ (h.periodicAddr i).Expires j} = {j | j ∈ l ∧ h.Expires j} := by
      ext j
      refine and_congr_right fun hj => ?_
      unfold Expires
      rw [hat j (hne j hj), hlife, hclock]
    have hgroups : (h.periodicAddr i).groupsOf {j | j ∈ l ∧ h.Expires j} =
        h.groupsOf {j | j ∈ l ∧ h.Expires j} := by
      ext g
      refine exists_congr fun j => and_congr_right fun hj => ?_
      rw [hat j (hne j hj.1)]
    have hrest := ih hnodup hleaves.distinct
    rw [hset, hgroups] at hrest
    have hunion : {j | j ∈ i :: l ∧ h.Expires j} =
        {j | j = i ∧ h.Expires j} ∪ {j | j ∈ l ∧ h.Expires j} := by
      ext j
      simp only [List.mem_cons, Set.mem_ofPred_eq, Set.mem_union, or_and_right]
    rw [List.foldl_cons, hunion, groupsOf_union]
    exact hleaves.trans hrest

lemma foldl_periodicDefrt_node (l : List (Fin cfg.defrtNb)) :
    (l.foldl periodicDefrt h).stack.node = h.stack.node := by
  induction l generalizing h with
  | nil => rfl
  | cons i l ih =>
    rw [List.foldl_cons, ih]
    unfold periodicDefrt
    dsimp only
    split_ifs <;> rfl

/-- The nodes differ in their prefixes only. -/
def SameAddrs (node node' : IpNode) : Prop :=
  ∃ (n : ℕ) (list : Fin n → Ds6Prefix), node' = { node with nPrefix := n, prefixList := list }

lemma periodicPrefix_sameAddrs (h : Ds6Host cfg δ) (i : ℕ) :
    SameAddrs h.stack.node (h.periodicPrefix i).stack.node := by
  unfold periodicPrefix
  by_cases hi : i < h.stack.node.nPrefix
  · rw [dif_pos hi]
    dsimp only
    by_cases hover : (h.stack.node.prefixList ⟨i, hi⟩).isused = true ∧ h.prefixIsinfinite i = false ∧
        (h.prefixVlifetime i).expired h.stack.clockSeconds = true
    · rw [if_pos hover]
      exact ⟨_, _, rfl⟩
    · rw [if_neg hover]
      exact ⟨_, _, rfl⟩
  · rw [dif_neg hi]
    exact ⟨_, _, rfl⟩

lemma foldl_periodicPrefix_sameAddrs (l : List ℕ) :
    SameAddrs h.stack.node (l.foldl periodicPrefix h).stack.node := by
  induction l generalizing h with
  | nil => exact ⟨_, _, rfl⟩
  | cons i l ih =>
    obtain ⟨n, list, hrest⟩ := ih (h := h.periodicPrefix i)
    obtain ⟨m, list', hfirst⟩ := periodicPrefix_sameAddrs h i
    rw [List.foldl_cons, hrest, hfirst]
    exact ⟨_, _, rfl⟩

/-- **A tick.**  The addresses whose lifetime is over are removed, each with its group. -/
lemma uipDs6Periodic_leaves (hdist : h.stack.node.GroupsDistinct) :
    h.stack.node.Leaves h.uipDs6Periodic.stack.node {j | h.Expires j}
      (h.groupsOf {j | h.Expires j}) := by
  have hall : {j | j ∈ List.range h.stack.node.nAddr ∧ h.Expires j} = {j | h.Expires j} := by
    ext j
    refine ⟨fun hj => hj.2, fun hj => ⟨List.mem_range.mpr ?_, hj⟩⟩
    obtain ⟨a, ha, -⟩ := hj
    by_contra hlt
    rw [show h.stack.node.addrAt j = none from dif_neg hlt] at ha
    cases ha
  have haddrs := foldl_periodicAddr_leaves (h := h) (l := List.range h.stack.node.nAddr)
    List.nodup_range hdist
  rw [hall] at haddrs
  have hsame : SameAddrs h.periodicAddrs.stack.node h.uipDs6Periodic.stack.node := by
    unfold uipDs6Periodic
    dsimp only
    show SameAddrs _ (IpStack.periodicNeighbors _).node
    rw [IpStack.periodicNeighbors_node, ← foldl_periodicDefrt_node (h := h.periodicAddrs)]
    split_ifs
    · exact ⟨_, _, rfl⟩
    · exact foldl_periodicPrefix_sameAddrs _
  obtain ⟨n, list, heq⟩ := hsame
  rw [heq]
  exact ⟨haddrs.releases, haddrs.distinct⟩

end Ds6Host

/-! ## Sequences of calls -/

/-- A call that changes the addresses of the interface, a tick, or a change of the clocks. -/
inductive AddrCall (cfg : StackConfig)
  | add (ipaddr : IpAddr) (vlifetime : BitVec 32) (autoconf : Bool) (random : UInt16)
  | rm (i : ℕ)
  | dadFailed (i : ℕ)
  | maddrAdd (group : IpAddr)
  | periodic
  | clock (time : BitVec cfg.clockWidth) (seconds : BitVec 32)

namespace Ds6Host
variable {cfg : StackConfig} {δ : Type} (h : Ds6Host cfg δ)

/-- The state after a call. -/
def call : AddrCall cfg → Ds6Host cfg δ
  | .add ipaddr vlifetime autoconf random => (h.uipDs6AddrAdd ipaddr vlifetime autoconf random).2
  | .rm i => h.uipDs6AddrRm i
  | .dadFailed i => h.uipDs6DadFailed i
  | .maddrAdd group =>
    h.withStack { h.stack with node := { h.stack.node with
      maddrList := uipDs6MaddrAdd h.stack.node.maddrList group } }
  | .periodic => h.uipDs6Periodic
  | .clock time seconds => h.withStack { h.stack with clockTime := time, clockSeconds := seconds }

/-- The state after some calls. -/
def calls (cs : List (AddrCall cfg)) : Ds6Host cfg δ := cs.foldl call h

/-- The entries of the list of addresses that a call removes. -/
def Removes : AddrCall cfg → Set ℕ
  | .rm i => {i}
  | .dadFailed i =>
    {j | j = i ∧ ∃ a, h.stack.node.addrAt i = some a ∧ a.ipaddr.uipIsAddrLinkLocal = false}
  | .periodic => {j | h.Expires j}
  | _ => ∅

/-- There is room in the list of multicast addresses for the group of an address. -/
def HasRoom : AddrCall cfg → Prop
  | .add ipaddr .. => (∃ k, (h.stack.node.maddrList k).isused = false) ∨
    ipaddr.uipCreateSolicitedNode ∈ h.stack.node.groups
  | _ => True

/-- No address that stays in use has the group of an entry that a call removes. -/
def Spares (c : AddrCall cfg) : Prop :=
  ∀ i ∈ h.Removes c, ∀ a, h.stack.node.addrAt i = some a → ∀ j ∉ h.Removes c, ∀ b,
    h.stack.node.member j = some b → b.uipCreateSolicitedNode ≠ a.ipaddr.uipCreateSolicitedNode

/-- The interface as it starts: no address is in use. -/
structure NoAddrs : Prop where
  member : ∀ i, h.stack.node.member i = none
  distinct : h.stack.node.GroupsDistinct

variable {h}

/-- `uip_ds6_maddr_add` adds the group where there is room, and never twice. -/
lemma uipDs6MaddrAdd_spec (node : IpNode) (hdist : node.GroupsDistinct) (g : IpAddr) :
    ({ node with maddrList := uipDs6MaddrAdd node.maddrList g } : IpNode).GroupsDistinct ∧
      node.groups ⊆ ({ node with maddrList := uipDs6MaddrAdd node.maddrList g } : IpNode).groups ∧
      ((∃ k, (node.maddrList k).isused = false) ∨ g ∈ node.groups →
        ({ node with maddrList := uipDs6MaddrAdd node.maddrList g } : IpNode).groups =
          insert g node.groups) := by
  unfold uipDs6MaddrAdd
  cases hloop : uipDs6ListLoop node.maddrList g 128 with
  | found k =>
    obtain ⟨hused, hcmp⟩ := ListLoop.found_spec hloop
    have hmem : g ∈ node.groups := ⟨k, hused, (IpAddr.uipIpaddrPrefixcmp_128 _ _).mp hcmp⟩
    exact ⟨hdist, subset_rfl, fun _ => (Set.insert_eq_of_mem hmem).symm⟩
  | freespace k =>
    obtain ⟨hfree, hno⟩ := ListLoop.freespace_spec hloop
    have hne : ∀ l, (node.maddrList l).isused = true → l ≠ k := by
      rintro l hl rfl
      rw [hfree] at hl
      cases hl
    have hnot : ∀ l, (node.maddrList l).isused = true → (node.maddrList l).ipaddr ≠ g :=
      fun l hl hg => hno l ⟨hl, (IpAddr.uipIpaddrPrefixcmp_128 _ _).mpr hg⟩
    have hgroups : ({ node with maddrList := Function.update node.maddrList k ⟨true, g⟩ } : IpNode).groups =
        insert g node.groups := by
      ext g'
      constructor
      · rintro ⟨l, hl, rfl⟩
        dsimp only at hl ⊢
        by_cases hlk : l = k
        · rw [hlk, Function.update_self]
          exact Set.mem_insert _ _
        · rw [Function.update_of_ne hlk] at hl ⊢
          exact Set.mem_insert_of_mem _ ⟨l, hl, rfl⟩
      · rintro (rfl | ⟨l, hl, rfl⟩)
        · refine ⟨k, ?_, ?_⟩ <;> simp
        · refine ⟨l, ?_, ?_⟩
          · show (Function.update node.maddrList k _ l).isused = true
            rwa [Function.update_of_ne (hne l hl)]
          · show (Function.update node.maddrList k _ l).ipaddr = _
            rw [Function.update_of_ne (hne l hl)]
    refine ⟨fun l m hl hm heq => ?_, hgroups ▸ Set.subset_insert _ _, fun _ => hgroups⟩
    dsimp only at l m hl hm heq ⊢
    by_cases hlk : l = k
    · by_cases hmk : m = k
      · rw [hlk, hmk]
      · rw [hlk, Function.update_self, Function.update_of_ne hmk] at heq
        rw [Function.update_of_ne hmk] at hm
        exact absurd heq.symm (hnot m hm)
    · rw [Function.update_of_ne hlk] at hl heq
      by_cases hmk : m = k
      · rw [hmk, Function.update_self] at heq
        exact absurd heq (hnot l hl)
      · rw [Function.update_of_ne hmk] at hm heq
        exact hdist l m hl hm heq
  | nospace =>
    refine ⟨hdist, subset_rfl, fun hroom => ?_⟩
    obtain ⟨hall, hno⟩ := ListLoop.nospace_spec hloop
    rcases hroom with ⟨k, hk⟩ | hmem
    · rw [hall k] at hk
      cases hk
    · exact (Set.insert_eq_of_mem hmem).symm

lemma uipDs6DadFailed_leaves (hdist : h.stack.node.GroupsDistinct) (i : ℕ) :
    h.stack.node.Leaves (h.uipDs6DadFailed i).stack.node (h.Removes (.dadFailed i))
      (h.groupsOf (h.Removes (.dadFailed i))) := by
  by_cases hrm : ∃ a, h.stack.node.addrAt i = some a ∧ a.ipaddr.uipIsAddrLinkLocal = false
  · have hset : h.Removes (.dadFailed i) = {i} := Set.ext fun j => and_iff_left hrm
    obtain ⟨a, ha, hlocal⟩ := hrm
    have hfails : h.uipDs6DadFailed i = h.uipDs6AddrRm i := by
      unfold uipDs6DadFailed uipDs6AddrRm
      split_ifs with hi
      · rw [IpNode.addrAt_of_lt hi] at ha
        cases ha
        rw [IpStack.uipDs6DadFailed, if_neg (by simp [hlocal])]
      · rfl
    rw [hfails, hset]
    exact uipDs6AddrRm_leaves hdist i
  · have hset : h.Removes (.dadFailed i) = ∅ := Set.eq_empty_of_forall_notMem fun j hj => hrm hj.2
    have hfails : h.uipDs6DadFailed i = h := by
      unfold uipDs6DadFailed
      split_ifs with hi
      · have hlocal : (h.stack.node.addrList ⟨i, hi⟩).ipaddr.uipIsAddrLinkLocal = true := by
          by_contra hnot
          exact hrm ⟨_, IpNode.addrAt_of_lt hi, by simpa using hnot⟩
        rw [IpStack.uipDs6DadFailed, if_pos hlocal]
        rfl
      · rfl
    rw [hfails, hset, groupsOf_empty]
    exact .refl hdist

/-- Where a call removes entries with their groups, it spares the others exactly when they keep
theirs. -/
lemma cover_iff_spares {node' : IpNode} {c : AddrCall cfg} (hcover : h.stack.node.GroupsCover)
    (hleaves : h.stack.node.Leaves node' (h.Removes c) (h.groupsOf (h.Removes c))) :
    node'.GroupsCover ↔ h.Spares c := by
  refine (hleaves.releases.covers_iff hcover).trans ?_
  constructor
  · exact fun hfree i hi a ha j hj b hb heq => hfree j hj b hb ⟨i, hi, a, ha, heq.symm⟩
  · rintro hspares j hj b hb ⟨i, hi, a, ha, heq⟩
    exact hspares i hi a ha j hj b hb heq.symm

/-- No call adds a multicast address that is there. -/
lemma call_distinct (hdist : h.stack.node.GroupsDistinct) (c : AddrCall cfg) :
    (h.call c).stack.node.GroupsDistinct := by
  cases c with
  | add ipaddr vlifetime autoconf random =>
    have hadd := (uipDs6MaddrAdd_spec h.stack.node hdist ipaddr.uipCreateSolicitedNode).1
    rw [call]
    unfold uipDs6AddrAdd
    dsimp only
    split
    · exact hadd
    · exact hdist
  | rm i => exact (uipDs6AddrRm_leaves hdist i).distinct
  | dadFailed i => exact (uipDs6DadFailed_leaves hdist i).distinct
  | maddrAdd group => exact (uipDs6MaddrAdd_spec h.stack.node hdist group).1
  | periodic => exact (uipDs6Periodic_leaves hdist).distinct
  | clock time seconds => exact hdist

/-- An address that is added comes with its group. -/
lemma uipDs6AddrAdd_cover (hdist : h.stack.node.GroupsDistinct) (hcover : h.stack.node.GroupsCover)
    {ipaddr : IpAddr} {vlifetime : BitVec 32} {autoconf : Bool} {random : UInt16}
    (hroom : h.HasRoom (.add ipaddr vlifetime autoconf random)) :
    (h.uipDs6AddrAdd ipaddr vlifetime autoconf random).2.stack.node.GroupsCover := by
  have hgroups := (uipDs6MaddrAdd_spec h.stack.node hdist ipaddr.uipCreateSolicitedNode).2.2 hroom
  unfold uipDs6AddrAdd
  dsimp only
  split
  · rename_i i _
    have hat := @IpNode.addrAt_update h.stack.node _ i.isLt
      { isused := true, ipaddr, state := .tentative, isinfinite := vlifetime == 0 }
    refine hcover.insert (i := i.val) (a := ipaddr) ?_ (fun j hj => ?_) hgroups
    · exact IpNode.member_of_addrAt ((hat i).trans (if_pos rfl))
    · exact IpNode.member_congr ((hat j).trans (if_neg hj))
  · exact hcover

/-- **One call.** -/
lemma call_cover_iff {c : AddrCall cfg} (hdist : h.stack.node.GroupsDistinct)
    (hcover : h.stack.node.GroupsCover) (hroom : h.HasRoom c) :
    (h.call c).stack.node.GroupsCover ↔ h.Spares c := by
  have hnone (hR : h.Removes c = ∅) : h.Spares c := by
    intro i hi
    rw [hR] at hi
    exact absurd hi (Set.notMem_empty i)
  cases c with
  | add ipaddr vlifetime autoconf random =>
    exact iff_of_true (uipDs6AddrAdd_cover hdist hcover hroom) (hnone rfl)
  | rm i => exact cover_iff_spares (c := .rm i) hcover (uipDs6AddrRm_leaves hdist i)
  | dadFailed i => exact cover_iff_spares hcover (uipDs6DadFailed_leaves hdist i)
  | maddrAdd group =>
    have hsub := (uipDs6MaddrAdd_spec h.stack.node hdist group).2.1
    exact iff_of_true (fun i a ha => hsub (hcover i a ha)) (hnone rfl)
  | periodic => exact cover_iff_spares (c := .periodic) hcover (uipDs6Periodic_leaves hdist)
  | clock time seconds => exact iff_of_true hcover (hnone rfl)

/-- **Solicited-node groups.**  Over any sequence of calls that find room in the list of multicast
addresses, every address in use has its group all the time, if and only if no call removes an address
whose group an address that stays in use has, too. -/
theorem groupsCover_iff (hstart : h.NoAddrs) (cs : List (AddrCall cfg))
    (hroom : ∀ pre c, pre ++ [c] <+: cs → (h.calls pre).HasRoom c) :
    (∀ pre, pre <+: cs → (h.calls pre).stack.node.GroupsCover) ↔
      ∀ pre c, pre ++ [c] <+: cs → (h.calls pre).Spares c := by
  have hdist (pre : List (AddrCall cfg)) : (h.calls pre).stack.node.GroupsDistinct :=
    forall_prefix (I := fun t : Ds6Host cfg δ => t.stack.node.GroupsDistinct) hstart.distinct
      (fun _ c ht => call_distinct ht c) pre
  have hinit : h.stack.node.GroupsCover := by
    intro i a ha
    rw [hstart.member i] at ha
    cases ha
  exact forall_prefix_iff (P := fun t : Ds6Host cfg δ => t.stack.node.GroupsCover) (Q := Spares) hinit
    fun pre c hpre hcover => call_cover_iff (hdist pre) hcover (hroom pre c hpre)

/-- A node with room for two addresses, as it starts. -/
def bareHost : Ds6Host IpStack.smallCfg Unit where
  stack := { IpStack.smallStack 0 with
    node := { (IpStack.smallStack 0).node with
      nAddr := 2
      addrList := fun _ => ⟨⟨false, .unspecified⟩, .tentative, false⟩
      nMaddr := 2
      maddrList := fun _ => ⟨false, .unspecified⟩ } }
  nbr := none
  linkMtu := 1280
  baseReachableTime := 30000
  addrAutoconf := fun _ => false
  addrVlifetime := fun _ => ⟨0, 0⟩
  prefixVlifetime := fun _ => ⟨0, 0⟩
  prefixIsinfinite := fun _ => true
  dadtimer := fun _ => ⟨0, 0⟩
  dadnscount := fun _ => 0
  defrtLifetime := fun _ => ⟨0, 0⟩
  maxdadns := 1
  clockSecond := 128

/-- A link-local address with the interface identifier 1 and a global one with the given identifier, and
then the first of them is removed. -/
def withIid (iid : UInt8) : List (AddrCall IpStack.smallCfg) :=
  [.add (.ofBytes (0xfe :: 0x80 :: List.replicate 13 0 ++ [1])) 0 true 0,
    .add (.ofBytes (0xaa :: 0xaa :: List.replicate 13 0 ++ [iid])) 0 true 0, .rm 1]

lemma bareHost_noAddrs : bareHost.NoAddrs where
  member i := by
    unfold IpNode.member IpNode.addrAt
    split_ifs <;> rfl
  distinct k l hk := by cases hk

lemma withIid_hasRoom (iid : UInt8) (pre : List (AddrCall IpStack.smallCfg))
    (c : AddrCall IpStack.smallCfg) (h : pre ++ [c] <+: withIid iid) :
    (bareHost.calls pre).HasRoom c := by
  obtain ⟨post, heq⟩ := h
  rcases pre with _ | ⟨a, _ | ⟨b, _ | ⟨d, pre⟩⟩⟩
  · cases heq
    exact .inl ⟨⟨0, Nat.zero_lt_two⟩, rfl⟩
  · cases heq
    exact .inl ⟨⟨0, Nat.zero_lt_two⟩, rfl⟩
  · cases heq
    trivial
  · have hlen := congrArg List.length heq
    simp [withIid] at hlen

/-- With another identifier the global address keeps its group when the link-local one is removed. -/
theorem groupsCover_iff_withIid : bareHost.NoAddrs ∧
    (bareHost.calls (withIid 2)).stack.node.member 0 =
      some (.ofBytes (0xaa :: 0xaa :: List.replicate 13 0 ++ [2])) ∧
    (bareHost.calls (withIid 2)).stack.node.member 1 = none ∧
    ∀ pre, pre <+: withIid 2 → (bareHost.calls pre).stack.node.GroupsCover := by
  refine ⟨bareHost_noAddrs, by decide +kernel, by decide +kernel, ?_⟩
  refine (groupsCover_iff bareHost_noAddrs (withIid 2) (withIid_hasRoom 2)).mpr ?_
  rintro pre c ⟨post, heq⟩ i hi a ha j hj b hb
  rcases pre with _ | ⟨d, _ | ⟨e, _ | ⟨f, pre⟩⟩⟩
  · cases heq
    exact absurd hi (Set.notMem_empty i)
  · cases heq
    exact absurd hi (Set.notMem_empty i)
  · cases heq
    obtain rfl : i = 1 := hi
    cases ha
    rcases j with _ | _ | j
    · cases hb
      decide +kernel
    · exact absurd rfl hj
    · unfold IpNode.member IpNode.addrAt at hb
      split at hb
      · rename_i hin
        exact absurd (show j + 2 < 2 from hin) (by omega)
      · cases hb
  · have hlen := congrArg List.length heq
    simp [withIid] at hlen

/-- The global address loses its group with the link-local one. -/
theorem not_groupsCover : ¬∀ (h : Ds6Host IpStack.smallCfg Unit) (cs : List (AddrCall IpStack.smallCfg)),
    h.NoAddrs → (∀ pre c, pre ++ [c] <+: cs → (h.calls pre).HasRoom c) →
      ∀ pre, pre <+: cs → (h.calls pre).stack.node.GroupsCover := by
  intro hall
  have hcover := hall bareHost (withIid 1) bareHost_noAddrs (withIid_hasRoom 1) _ (List.prefix_refl _)
  obtain ⟨k, hk, -⟩ := hcover 0 (.ofBytes (0xaa :: 0xaa :: List.replicate 13 0 ++ [1])) rfl
  have hleft : ∀ k : Fin 2, ((bareHost.calls (withIid 1)).stack.node.maddrList k).isused = false := by
    decide
  rw [hleft k] at hk
  cases hk

end Ds6Host
end Contiki

import Contiki.Net.NbrEviction
import Contiki.Net.Nd6Options

/-!
# Neighbour solicitations that are discarded

`uip_nd6_ns_input` acts upon a source link-layer address option as soon as it comes to it, before the
options behind it and the target are looked at; `uip_nd6_na_input` only notes where its option is.  A
solicitation that is discarded therefore leaves the neighbour cache as it was exactly when the options
that it came to have nothing to change there (`discardKeepsCache_iff`).
-/

namespace Contiki

/-! ## One entry of the cache -/

namespace Ds6Nbr
variable {w : ℕ}

/-- What a source link-layer address option does to the entry of the source. -/
def sllao (n : Ds6Nbr w) (lladdr : Lladdr) : Ds6Nbr w :=
  if lladdr ≠ n.lladdr then { n with lladdr, state := .stale }
  else if n.state = .incomplete then { n with state := .stale }
  else n

/-- The last of some options gives the link-layer address.  The state is kept when it is not
incomplete and all of them carry the address of the entry. -/
lemma foldl_sllao (n : Ds6Nbr w) (l : List Lladdr) : l.foldl sllao n =
    { n with
      lladdr := l.getLast?.getD n.lladdr
      state := if l = [] ∨ n.state ≠ .incomplete ∧ ∀ a ∈ l, a = n.lladdr then n.state else .stale } := by
  induction l using List.reverseRecOn with
  | nil => simp
  | append_singleton l a ih =>
    rw [List.foldl_append, List.foldl_cons, List.foldl_nil, ih]
    by_cases hkeep : l = [] ∨ n.state ≠ .incomplete ∧ ∀ b ∈ l, b = n.lladdr
    · have hlast : l.getLast?.getD n.lladdr = n.lladdr := by
        rcases hkeep with rfl | ⟨-, hall⟩
        · rfl
        · cases hl : l.getLast? with
          | none => rfl
          | some b => exact hall b (List.mem_of_getLast? hl)
      have hall : ∀ b ∈ l, b = n.lladdr := by
        rcases hkeep with rfl | ⟨-, hall⟩
        · simp
        · exact hall
      rw [if_pos hkeep, hlast]
      unfold sllao
      dsimp only
      by_cases ha : a = n.lladdr
      · by_cases hinc : n.state = .incomplete
        · simp [ha, hinc]
        · have hall' : ∀ b ∈ l ++ [a], b = n.lladdr := by
            intro b hb
            rcases List.mem_append.mp hb with hb | hb
            · exact hall b hb
            · rw [List.mem_singleton.mp hb, ha]
          rw [if_neg (not_not.mpr ha), if_neg hinc, if_pos (.inr ⟨hinc, hall'⟩)]
          simp [ha]
      · rw [if_pos ha, if_neg (by simp [ha])]
        simp
    · have hstale : ¬(l ++ [a] = [] ∨ n.state ≠ .incomplete ∧ ∀ b ∈ l ++ [a], b = n.lladdr) := by
        rintro (hnil | ⟨hinc, hall⟩)
        · simp at hnil
        · exact hkeep (.inr ⟨hinc, fun b hb => hall b (List.mem_append_left _ hb)⟩)
      rw [if_neg hkeep, if_neg hstale]
      unfold sllao
      dsimp only
      by_cases ha : a = l.getLast?.getD n.lladdr
      · simp [← ha]
      · rw [if_pos ha]
        simp

/-- The options leave an entry as it is. -/
def Repeats (n : Ds6Nbr w) (l : List Lladdr) : Prop :=
  l.getLast? = some n.lladdr ∧ (n.state = .stale ∨ n.state ≠ .incomplete ∧ ∀ a ∈ l, a = n.lladdr)

lemma foldl_sllao_eq_iff {n : Ds6Nbr w} {l : List Lladdr} (hl : l ≠ []) :
    l.foldl sllao n = n ↔ n.Repeats l := by
  obtain ⟨a, ha⟩ := Option.ne_none_iff_exists'.mp (mt List.getLast?_eq_none_iff.mp hl)
  rw [foldl_sllao, ha]
  unfold Repeats
  rw [ha]
  constructor
  · intro h
    have hlladdr : a = n.lladdr := congrArg Ds6Nbr.lladdr h
    have hstate := congrArg Ds6Nbr.state h
    refine ⟨congrArg some hlladdr, ?_⟩
    dsimp only at hstate
    split_ifs at hstate with hkeep
    · exact .inr (hkeep.resolve_left hl)
    · exact .inl hstate.symm
  · rintro ⟨hlast, hstate⟩
    obtain rfl := Option.some.inj hlast
    rcases hstate with hstale | hkeep
    · simp only [hstale, ite_self, Option.getD_some]
      rw [← hstale]
    · rw [if_pos (.inr hkeep)]
      rfl

end Ds6Nbr

/-! ## The cache -/

namespace IpStack
variable {cfg : StackConfig} {δ : Type} {s s' : IpStack cfg δ} {i : Fin cfg.nbrNb}

lemma nsSllao_of_some (hlook : s.uipDs6NbrLookup s.uipBuf.srcipaddr = some i) (lladdr : Lladdr) :
    s.nsSllao lladdr = s.setNbr i (·.sllao lladdr) := by
  unfold nsSllao Ds6Nbr.sllao
  dsimp only
  rw [hlook]
  dsimp only
  split_ifs with hll hinc
  · simp only [setNbr, if_pos hll]
  · simp only [setNbr, if_neg hll, if_pos hinc]
  · simp only [setNbr, if_neg hll, if_neg hinc, Function.update_eq_self]

lemma setNbr_sllao_lookup (s : IpStack cfg δ) (i : Fin cfg.nbrNb) (lladdr : Lladdr) (a : IpAddr) :
    (s.setNbr i (·.sllao lladdr)).uipDs6NbrLookup a = s.uipDs6NbrLookup a := by
  unfold uipDs6NbrLookup
  rw [setNbr_nbrLoop]
  intro n
  unfold Ds6Nbr.sllao
  split_ifs <;> rfl

/-- When the source is in the cache, the options change its entry and no other. -/
lemma foldl_nsSllao_of_some (hlook : s.uipDs6NbrLookup s.uipBuf.srcipaddr = some i) (l : List Lladdr) :
    (l.foldl nsSllao s).nbrCache =
      Function.update s.nbrCache i (l.foldl Ds6Nbr.sllao (s.nbrCache i)) := by
  induction l generalizing s with
  | nil => exact (Function.update_eq_self i s.nbrCache).symm
  | cons a l ih =>
    have hlook' : (s.setNbr i (·.sllao a)).uipDs6NbrLookup
        (s.setNbr i (·.sllao a)).uipBuf.srcipaddr = some i :=
      (setNbr_sllao_lookup s i a _).trans hlook
    rw [List.foldl_cons, List.foldl_cons, nsSllao_of_some hlook, ih hlook', setNbr_self]
    exact Function.update_idem ..

lemma uipDs6NbrLookup_eq_some {a : IpAddr} (hlook : s.uipDs6NbrLookup a = some i) :
    (s.nbrCache i).isused = true ∧ (s.nbrCache i).ipaddr = a := by
  unfold uipDs6NbrLookup at hlook
  split at hlook
  · rename_i k hloop
    cases hlook
    obtain ⟨hused, hcmp⟩ := ListLoop.found_spec hloop
    exact ⟨hused, (IpAddr.uipIpaddrPrefixcmp_128 _ _).mp hcmp⟩
  · cases hlook

lemma uipDs6NbrLookup_ne_none {a : IpAddr} (hused : (s.nbrCache i).isused = true)
    (haddr : (s.nbrCache i).ipaddr = a) : s.uipDs6NbrLookup a ≠ none := by
  have hmatch : ListLoop.Matches (fun j => (s.nbrCache j).toDs6Element) a 128 i :=
    ⟨hused, (IpAddr.uipIpaddrPrefixcmp_128 _ _).mpr haddr⟩
  unfold uipDs6NbrLookup
  cases hloop : s.nbrLoop a with
  | found j => simp
  | freespace j => exact absurd hmatch ((ListLoop.freespace_spec hloop).2 i)
  | nospace => exact absurd hmatch ((ListLoop.nospace_spec hloop).2 i)

lemma nsSllao_of_none (hlook : s.uipDs6NbrLookup s.uipBuf.srcipaddr = none) (lladdr : Lladdr) :
    s.nsSllao lladdr = (s.uipDs6NbrAdd s.uipBuf.srcipaddr (some lladdr) false .stale).2 := by
  unfold nsSllao
  dsimp only
  rw [hlook]

/-- A source that is not in the cache does not come there when no entry can be made free. -/
lemma nsSllao_of_noRoom (hlook : s.uipDs6NbrLookup s.uipBuf.srcipaddr = none)
    (hslot : s.slotFor s.uipBuf.srcipaddr = none) (lladdr : Lladdr) : s.nsSllao lladdr = s := by
  rw [nsSllao_of_none hlook]
  rcases uipDs6NbrAdd_cases s s.uipBuf.srcipaddr (some lladdr) false .stale with
    ⟨-, -, hsame⟩ | ⟨i, t, -, hsome, -⟩
  · exact hsame
  · rw [hslot] at hsome
    cases hsome

/-- Otherwise it has an entry from the first option on. -/
lemma exists_nbr_foldl_nsSllao (hlook : s.uipDs6NbrLookup s.uipBuf.srcipaddr = none)
    (hslot : s.slotFor s.uipBuf.srcipaddr = some i) (a : Lladdr) (l : List Lladdr) :
    ∃ k, (((a :: l).foldl nsSllao s).nbrCache k).isused = true ∧
      (((a :: l).foldl nsSllao s).nbrCache k).ipaddr = s.uipBuf.srcipaddr := by
  have hsrc : (s.nsSllao a).uipBuf.srcipaddr = s.uipBuf.srcipaddr := by
    rw [(SamePacket.nsSllao s a).uipBuf]
  have hfst := uipDs6NbrAdd_fst hlook (some a) false .stale
  rw [hslot] at hfst
  rcases uipDs6NbrAdd_cases s s.uipBuf.srcipaddr (some a) false .stale with
    ⟨hres, -, -⟩ | ⟨j, t, heq, -⟩
  · rw [hres] at hfst
    cases hfst
  · have hadded : s.nsSllao a = t.fillNbr j s.uipBuf.srcipaddr (some a) false .stale := by
      rw [nsSllao_of_none hlook, heq]
    obtain ⟨hused, haddr⟩ := fillNbr_self (t := t) (i := j) (a := s.uipBuf.srcipaddr) (l := some a)
      (r := false) (n := .stale)
    rw [← hadded] at hused haddr
    obtain ⟨k, hk⟩ := Option.ne_none_iff_exists'.mp (uipDs6NbrLookup_ne_none hused haddr)
    obtain ⟨hkused, hkaddr⟩ := uipDs6NbrLookup_eq_some hk
    rw [← hsrc] at hk
    refine ⟨k, ?_⟩
    rw [List.foldl_cons, foldl_nsSllao_of_some hk, Function.update_self, Ds6Nbr.foldl_sllao]
    exact ⟨hkused, hkaddr⟩

/-- The options that the loop came to have nothing to change in the cache: there are none, or they
repeat what the entry of the source says, or the source has no entry and does not get one. -/
def NothingNew (s : IpStack cfg δ) (l : List Lladdr) : Prop :=
  l = [] ∨ (∃ i, s.uipDs6NbrLookup s.uipBuf.srcipaddr = some i ∧ (s.nbrCache i).Repeats l) ∨
    s.uipDs6NbrLookup s.uipBuf.srcipaddr = none ∧ s.slotFor s.uipBuf.srcipaddr = none

/-- Some options in a row leave the cache as it was exactly when they have nothing to change. -/
lemma foldl_nsSllao_eq_iff (s : IpStack cfg δ) (l : List Lladdr) :
    (l.foldl nsSllao s).nbrCache = s.nbrCache ↔ s.NothingNew l := by
  cases l with
  | nil => exact iff_of_true rfl (.inl rfl)
  | cons a l =>
    unfold NothingNew
    cases hlook : s.uipDs6NbrLookup s.uipBuf.srcipaddr with
    | some i =>
      rw [foldl_nsSllao_of_some hlook, Function.update_eq_self_iff,
        Ds6Nbr.foldl_sllao_eq_iff (List.cons_ne_nil a l)]
      constructor
      · exact fun h => .inr (.inl ⟨i, rfl, h⟩)
      · rintro (h | ⟨k, hk, h⟩ | ⟨h, -⟩)
        · cases h
        · cases hk
          exact h
        · cases h
    | none =>
      cases hslot : s.slotFor s.uipBuf.srcipaddr with
      | none =>
        refine iff_of_true ?_ (.inr (.inr ⟨rfl, rfl⟩))
        have hstay (b : Lladdr) : s.nsSllao b = s := nsSllao_of_noRoom hlook hslot b
        rw [List.foldl_fixed' hstay]
      | some i =>
        refine iff_of_false (fun h => ?_) ?_
        · obtain ⟨k, hused, haddr⟩ := exists_nbr_foldl_nsSllao hlook hslot a l
          rw [h] at hused haddr
          exact uipDs6NbrLookup_ne_none hused haddr hlook
        · rintro (h | ⟨k, hk, -⟩ | ⟨-, h⟩)
          · cases h
          · cases hk
          · cases h

/-! ## Messages -/

/-- The link-layer addresses in the source link-layer address options among the options at some
offsets. -/
def sllaos (s : IpStack cfg δ) (offsets : List UInt8) : List Lladdr :=
  (offsets.filter fun o => s.uipBuf.bytes (s.optPos o) = 1).map fun o =>
    lladdrAt s.uipBuf.bytes (s.optPos o + 2)

/-- A check of the header fails, before the options. -/
def NsRefused (s : IpStack cfg δ) : Prop :=
  s.uipBuf.bytes 7 ≠ 255 ∨ s.tgtipaddr.uipIsAddrMcast ∨ s.uipBuf.bytes (s.icmpPos + 1) ≠ 0

/-- The target is an address of the node, and the addresses of the header are such that it answers. -/
def NsAnswers (s : IpStack cfg δ) : Prop :=
  ∃ i, uipDs6AddrLookup s.node.addrList s.tgtipaddr = some i ∧
    if s.uipBuf.srcipaddr.uipIsAddrUnspecified then
      s.uipBuf.destipaddr.uipIsAddrSolicitedNode = true ∧ (s.node.addrList i).state ≠ .tentative
    else
      s.node.isMyAddr s.uipBuf.srcipaddr = false ∧
        (s.uipBuf.destipaddr.uipIsAddrSolicitedNode = true ∨
          uipDs6AddrLookup s.node.addrList s.uipBuf.destipaddr = some i)

/-- The loop over the options ended at an offset, and the message is discarded: the packet does not end
there, or the message is not answered. -/
def NsDiscarded (s : IpStack cfg δ) (offset : UInt8) : Prop :=
  s.optPos offset < s.uipBuf.len.toNat ∨ ¬s.NsAnswers

/-- Whatever the options did: if a solicitation is discarded, the cache is as it was. -/
def DiscardKeepsCache (s : IpStack cfg δ) : Prop :=
  ∀ s', s.uipNd6NsInput = .ok s' → s'.uipBuf.len = 0 → s'.nbrCache = s.nbrCache

lemma nbrAddFrom_node (ipaddr : IpAddr) (lladdr : Option Lladdr) (isrouter : Bool) (state : NbrState)
    (calls : ℕ) (s : IpStack cfg δ) :
    (nbrAddFrom ipaddr lladdr isrouter state calls s).2.node = s.node := by
  induction calls generalizing s with
  | zero => rfl
  | succ calls ih =>
    rw [nbrAddFrom]
    split
    · rfl
    · rfl
    · split
      · rw [ih]
        unfold uipDs6NbrRm uipPacketqueueFree
        split <;> rfl
      · rfl

lemma nsSllao_node (s : IpStack cfg δ) (lladdr : Lladdr) : (s.nsSllao lladdr).node = s.node := by
  cases hlook : s.uipDs6NbrLookup s.uipBuf.srcipaddr with
  | none =>
    rw [nsSllao_of_none hlook]
    exact nbrAddFrom_node _ _ _ _ 2 s
  | some i =>
    rw [nsSllao_of_some hlook]
    rfl

/-- The options leave the packet and the addresses of the node alone. -/
lemma foldl_nsSllao_rest (s : IpStack cfg δ) (l : List Lladdr) :
    SamePacket s (l.foldl nsSllao s) ∧ (l.foldl nsSllao s).node = s.node := by
  induction l generalizing s with
  | nil => exact ⟨.refl s, rfl⟩
  | cons a l ih =>
    obtain ⟨hpacket, hnode⟩ := ih (s.nsSllao a)
    exact ⟨(SamePacket.nsSllao s a).trans hpacket, hnode.trans (nsSllao_node s a)⟩

lemma foldl_nsOption (s : IpStack cfg δ) (offsets : List UInt8) :
    offsets.foldl nsOption s = (s.sllaos offsets).foldl nsSllao s := by
  suffices h : ∀ t : IpStack cfg δ, SamePacket s t →
      offsets.foldl nsOption t = (s.sllaos offsets).foldl nsSllao t from h s (.refl s)
  induction offsets with
  | nil => exact fun _ _ => rfl
  | cons o offsets ih =>
    intro t ht
    have hstep := ih (t.nsOption o) (ht.trans (samePacket_nsOption t o))
    rw [List.foldl_cons, hstep]
    unfold nsOption sllaos
    rw [ht.uipBuf, ht.optPos]
    by_cases htype : s.uipBuf.bytes (s.optPos o) = 1
    · rw [if_pos htype]
      simp [htype]
    · rw [if_neg htype]
      simp [htype]

/-- Behind the options, a message that is not answered is discarded. -/
lemma nsReply_len (s : IpStack cfg δ) : s.nsReply.uipBuf.len = 0 ↔ ¬s.NsAnswers := by
  have hna (t : IpStack cfg δ) (flags : UInt8) (a : IpAddr) : (t.createNa flags a).uipBuf.len = 80 := rfl
  unfold nsReply NsAnswers
  cases hlook : uipDs6AddrLookup s.node.addrList s.tgtipaddr with
  | none => exact iff_of_true rfl (by simp)
  | some i =>
    dsimp only
    simp only [Option.some.injEq, exists_eq_left']
    by_cases hsrc : s.uipBuf.srcipaddr.uipIsAddrUnspecified = true
    · rw [if_pos hsrc, if_pos hsrc]
      split_ifs with hdest hstate
      · exact iff_of_true rfl (by simp [hdest])
      · rw [hna]
        exact iff_of_false (by decide) (not_not.mpr ⟨Bool.not_eq_false _ ▸ hdest, hstate⟩)
      · exact iff_of_true rfl (fun h => hstate h.2)
    · rw [if_neg hsrc, if_neg hsrc]
      split_ifs with hmine hdest
      · exact iff_of_true rfl (by simp [hmine])
      · rw [hna]
        exact iff_of_false (by decide) (not_not.mpr ⟨Bool.not_eq_true _ ▸ hmine, hdest⟩)
      · exact iff_of_true rfl (fun h => hdest h.2)

lemma nsAnswers_congr {t : IpStack cfg δ} (hpacket : SamePacket s t) (hnode : t.node = s.node) :
    t.NsAnswers ↔ s.NsAnswers := by
  have htgt : t.tgtipaddr = s.tgtipaddr := by
    unfold tgtipaddr icmpPos
    rw [hpacket.uipBuf, hpacket.uipExtLen]
  unfold NsAnswers
  rw [hpacket.uipBuf, htgt, hnode]

lemma uipNd6NsInput_of_refused (h : s.NsRefused) : s.uipNd6NsInput = .ok (s.setLen 0) := if_pos h

lemma uipNd6NsInput_of_not_refused (h : ¬s.NsRefused) : s.uipNd6NsInput =
    (trail (Nd6Message.ns.optionStep s) 257 20).elim (.error .hang) fun r =>
      if s.uipBuf.len.toNat ≤ s.optPos r.2 then .ok ((s.sllaos r.1).foldl nsSllao s).nsReply
      else .ok (((s.sllaos r.1).foldl nsSllao s).setLen 0) := by
  have hpassed : s.uipNd6NsInput = (nsOptions 257 20 s).bind fun r =>
      if r.1 then .ok r.2.nsReply else .ok (r.2.setLen 0) := if_neg h
  rw [hpassed, nsOptions_eq]
  cases trail (Nd6Message.ns.optionStep s) 257 20 with
  | none => rfl
  | some r =>
    rw [Option.elim_some, Option.elim_some, foldl_nsOption]
    show (if decide (s.uipBuf.len.toNat ≤ s.optPos r.2) = true then _ else _) = _
    simp only [decide_eq_true_eq]

/-- What becomes of a message whose options are walked through. -/
lemma uipNd6NsInput_spec {offsets : List UInt8} {last : UInt8} (hheader : ¬s.NsRefused)
    (htrail : trail (Nd6Message.ns.optionStep s) 257 20 = some (offsets, last)) :
    ∃ s', s.uipNd6NsInput = .ok s' ∧ (s'.uipBuf.len = 0 ↔ s.NsDiscarded last) ∧
      s'.nbrCache = ((s.sllaos offsets).foldl nsSllao s).nbrCache := by
  obtain ⟨hpacket, hnode⟩ := foldl_nsSllao_rest s (s.sllaos offsets)
  have hanswers := nsAnswers_congr hpacket hnode
  rw [uipNd6NsInput_of_not_refused hheader, htrail, Option.elim_some]
  unfold NsDiscarded
  by_cases hend : s.uipBuf.len.toNat ≤ s.optPos last
  · refine ⟨_, if_pos hend, ?_, (keepsCache_nsReply _).cache⟩
    rw [nsReply_len, hanswers, or_iff_right (Nat.not_lt.mpr hend)]
  · exact ⟨_, if_neg hend, iff_of_true rfl (.inl (Nat.not_le.mp hend)), rfl⟩

/-- **Discarded solicitations.**  The cache is left as it was if and only if, when a message gets past
the checks of its header and is then discarded, the source link-layer address options that the loop
came to have nothing to change. -/
theorem discardKeepsCache_iff (s : IpStack cfg δ) : s.DiscardKeepsCache ↔
    ∀ offsets last, ¬s.NsRefused → trail (Nd6Message.ns.optionStep s) 257 20 = some (offsets, last) →
      s.NsDiscarded last → s.NothingNew (s.sllaos offsets) := by
  constructor
  · intro hkeeps offsets last hheader htrail hdiscarded
    obtain ⟨s', hrun, hlen, hcache⟩ := uipNd6NsInput_spec hheader htrail
    rw [← foldl_nsSllao_eq_iff, ← hcache]
    exact hkeeps s' hrun (hlen.mpr hdiscarded)
  · intro hnew s' hrun hlen
    by_cases hheader : s.NsRefused
    · rw [uipNd6NsInput_of_refused hheader] at hrun
      cases hrun
      rfl
    · cases htrail : trail (Nd6Message.ns.optionStep s) 257 20 with
      | none =>
        rw [uipNd6NsInput_of_not_refused hheader, htrail] at hrun
        cases hrun
      | some r =>
        obtain ⟨t, hrun', hlen', hcache⟩ := uipNd6NsInput_spec hheader htrail
        rw [hrun'] at hrun
        obtain rfl := Except.ok.inj hrun
        rw [hcache]
        exact (foldl_nsSllao_eq_iff s _).mpr (hnew r.1 r.2 hheader htrail (hlen'.mp hlen))

/-- A solicitation with a source link-layer address option, for an address that the node does not
have. -/
def strayed : UipBuf where
  bytes i := if i = 7 then 255 else if i = 8 then 0xfe else if i = 9 then 0x80
    else if i = 64 then 1 else if i = 65 then 2 else 0
  len := 80

/-- Its source comes into the cache. -/
theorem not_discardKeepsCache : ¬∀ s : IpStack smallCfg Unit, s.DiscardKeepsCache := by
  intro hall
  have hkeeps := hall { smallStack 0 with uipBuf := strayed }
  have hrun : ∃ s', uipNd6NsInput ({ smallStack 0 with uipBuf := strayed } : IpStack smallCfg Unit) =
      .ok s' ∧ s'.uipBuf.len = 0 ∧ (s'.nbrCache ⟨0, Nat.zero_lt_one⟩).isused = true := ⟨_, rfl, rfl, rfl⟩
  obtain ⟨s', hok, hlen, hused⟩ := hrun
  rw [hkeeps s' hok hlen] at hused
  cases hused

end IpStack
end Contiki

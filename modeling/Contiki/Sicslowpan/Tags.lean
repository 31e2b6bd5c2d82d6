import Contiki.Sicslowpan.Reassembly

/-!
# Datagram tags

The tag counter `my_tag` is advanced at the end of `output`, behind the returns that are taken when
no queue buffer is left.  A packet that is given up half way leaves its tag to the next one
(`not_tags_fresh`).  `tags_fresh_iff` says of every sequence of packets whether a tag is used
twice before the counter has wrapped, which a receiver relies on to tell their fragments apart.
-/

namespace Contiki
namespace Sicslowpan

/-! ## Sequences of packets -/

/-- A packet that is passed to `output`, and which of its fragments find a queue buffer. -/
structure Call where
  dest : Lladdr
  packet : List UInt8
  alloc : ℕ → Bool

/-- Packets that are passed to `output` one after the other; what is sent of them, and whether
`output` returned an error. -/
def outputAll (cfg : LowpanConfig) (uipLladdr : Lladdr) : List Call → Lowpan → List (Sent × Bool)
  | [], _ => []
  | c :: calls, s =>
    let (s, sent) := output cfg uipLladdr c.dest c.packet c.alloc s
    sent :: outputAll cfg uipLladdr calls s

/-- The fragments that were sent of a packet. -/
def Sent.frags : Sent → List Fragment
  | whole _ => []
  | fragments l => l

/-- The datagram tag in the frame of a fragment. -/
def Fragment.datagramTag (f : Fragment) : UInt16 := wordAt (fun k => f.frame.getD k 0) 2

/-- All fragments of a packet were sent: the tag counter is advanced. -/
def completes : Sent × Bool → Bool
  | (.whole _, _) => false
  | (.fragments _, ok) => ok

/-- No two packets of which a fragment was sent have the same tag, unless the counter has wrapped
between them. -/
def TagsFresh (outs : List (Sent × Bool)) : Prop :=
  ∀ before a between b after, outs = before ++ a :: between ++ b :: after →
    (a :: between).countP completes < 2 ^ 16 →
    ∀ f ∈ a.1.frags, ∀ g ∈ b.1.frags, f.datagramTag ≠ g.datagramTag

/-- A receiver that holds octets of a packet drops the fragments of a later one, unless the counter
has wrapped between them. -/
def LaterDropped (outs : List (Sent × Bool)) : Prop :=
  ∀ before a between b after, outs = before ++ a :: between ++ b :: after →
    (a :: between).countP completes < 2 ^ 16 →
    ∀ f ∈ a.1.frags, ∀ g ∈ b.1.frags, ∀ (cfg : LowpanConfig) (now : ℕ) (p : Packetbuf) (r : Lowpan),
    wordAt p.data 2 = g.datagramTag → r.reassTag = f.datagramTag → 0 < r.processedIpLen →
    timerExpired now r.reassTimer = false → input cfg now p r = (r, none)

namespace Call
variable (cfg : LowpanConfig) (uipLladdr : Lladdr) (c : Call)

/-- The packet does not fit into a frame. -/
def Splits : Prop :=
  c.packet.length + (compressHdr cfg uipLladdr c.dest c.packet).1.length >
    macMaxPayload + (compressHdr cfg uipLladdr c.dest c.packet).2

/-- A first fragment, and as many following fragments of 96 octets as the rest needs. -/
def fragmentCount : ℕ :=
  1 + (c.packet.length - (firstFragment cfg uipLladdr c.dest c.packet 0).octets + 95) / 96

/-- The first fragment finds a queue buffer. -/
def Transmits : Prop := c.Splits cfg uipLladdr ∧ c.alloc 0 = true

/-- The first fragment finds a queue buffer and a later one does not. -/
def Abandons : Prop :=
  c.Transmits cfg uipLladdr ∧ ∃ k < c.fragmentCount cfg uipLladdr, c.alloc k = false

instance : Decidable (c.Splits cfg uipLladdr) := inferInstanceAs (Decidable (_ < _))

instance : Decidable (c.Transmits cfg uipLladdr) := inferInstanceAs (Decidable (_ ∧ _))

instance : Decidable (c.Abandons cfg uipLladdr) := inferInstanceAs (Decidable (_ ∧ _))

end Call

/-! ## One packet -/

lemma datagramTag_of_frame {bytes l : List UInt8} {d tag : UInt16} {f : Fragment}
    (h : f.frame = fragHdr bytes d tag ++ l) : f.datagramTag = tag := by
  have hholds := holds_getD f.frame 0
  rw [h] at hholds
  rw [Fragment.datagramTag, h]
  exact (fragHdr_words hholds).2.1

lemma firstFragment_tag (cfg : LowpanConfig) (uipLladdr dest : Lladdr) (packet : List UInt8)
    (tag : UInt16) : (firstFragment cfg uipLladdr dest packet tag).datagramTag = tag :=
  datagramTag_of_frame (List.append_assoc _ _ _)

lemma followingFragment_tag (packet : List UInt8) (tag : UInt16) (pos n : ℕ) :
    (followingFragment packet tag pos n).datagramTag = tag :=
  datagramTag_of_frame (List.append_assoc _ _ _)

section Output
variable {cfg : LowpanConfig} {uipLladdr : Lladdr} {c : Call} {s : Lowpan} {tag : UInt16}

lemma sendFollowing_ok (bytes : List UInt8) (alloc : ℕ → Bool) (tag : UInt16)
    (rounds k pos n : ℕ) (hrounds : bytes.length ≤ pos + rounds) (hn : n = 96) :
    (sendFollowing bytes alloc tag rounds k pos n).2.2 = true ↔
      ∀ i < (bytes.length - pos + 95) / 96, alloc (k + i) = true := by
  induction rounds generalizing k pos with
  | zero =>
      have hnone : (bytes.length - pos + 95) / 96 = 0 := by omega
      simp [sendFollowing, hnone]
  | succ rounds ih =>
      subst hn
      unfold sendFollowing
      by_cases hlt : pos < bytes.length
      · rw [if_pos hlt]
        by_cases hlast : bytes.length - pos < 96
        · have hend : pos + (bytes.length - pos) = bytes.length := by omega
          have hone : (bytes.length - pos + 95) / 96 = 1 := by omega
          rw [if_pos hlast]
          simp only [hend, sendFollowing_done, hone]
          cases halloc : alloc k <;> simp [halloc]
        · have hmore : (bytes.length - pos + 95) / 96 =
              (bytes.length - (pos + 96) + 95) / 96 + 1 := by omega
          have hrest := ih (k + 1) (pos + 96) (by omega)
          rw [if_neg hlast, hmore, Nat.forall_lt_succ_left]
          cases halloc : alloc k with
          | false => simp
          | true =>
              simp only [if_true, hrest, true_and]
              exact forall₂_congr fun i _ => by rw [Nat.add_right_comm, Nat.add_assoc]
      · have hnone : (bytes.length - pos + 95) / 96 = 0 := by omega
        simp [hlt, hnone]

lemma sendFollowing_tag (bytes : List UInt8) (alloc : ℕ → Bool) (tag : UInt16)
    (rounds k pos n : ℕ) :
    ∀ f ∈ (sendFollowing bytes alloc tag rounds k pos n).1, f.datagramTag = tag := by
  induction rounds generalizing k pos n with
  | zero => simp [sendFollowing]
  | succ rounds ih =>
      unfold sendFollowing
      by_cases hlt : pos < bytes.length
      · rw [if_pos hlt]
        cases alloc k with
        | false => simp
        | true =>
            simp only [if_true, List.mem_cons]
            rintro f (rfl | hf)
            · exact followingFragment_tag _ _ _ _
            · exact ih _ _ _ f hf
      · simp [hlt]

/-- The three ways through `output`. -/
lemma output_cases (cfg : LowpanConfig) (uipLladdr : Lladdr) (c : Call) (s : Lowpan) :
    (¬ c.Splits cfg uipLladdr ∧
      ∃ frame, output cfg uipLladdr c.dest c.packet c.alloc s = (s, .whole frame, true)) ∨
    (¬ c.Transmits cfg uipLladdr ∧
      output cfg uipLladdr c.dest c.packet c.alloc s = (s, .fragments [], false)) ∨
    (c.Transmits cfg uipLladdr ∧ ∃ s' f fs ok,
      output cfg uipLladdr c.dest c.packet c.alloc s = (s', .fragments (f :: fs), ok) ∧
      (∀ g ∈ f :: fs, g.datagramTag = s.myTag) ∧ (ok = true ↔ ¬ c.Abandons cfg uipLladdr) ∧
      s'.myTag = if ok then s.myTag + 1 else s.myTag) := by
  by_cases hsplit : c.Splits cfg uipLladdr
  · cases halloc : c.alloc 0 with
    | false =>
        refine .inr (.inl ⟨fun h => ?_, ?_⟩)
        · rw [h.2] at halloc
          cases halloc
        · simp only [output, halloc, Bool.false_eq_true, if_false]
          exact if_pos hsplit
    | true =>
        have htransmits : c.Transmits cfg uipLladdr := ⟨hsplit, halloc⟩
        let first := firstFragment cfg uipLladdr c.dest c.packet s.myTag
        have hok := sendFollowing_ok c.packet c.alloc s.myTag c.packet.length 1 first.octets
          ((macMaxPayload - fragnHdrLen) &&& 0xf8) (Nat.le_add_left _ _) rfl
        have htag := sendFollowing_tag c.packet c.alloc s.myTag c.packet.length 1 first.octets
          ((macMaxPayload - fragnHdrLen) &&& 0xf8)
        have hsent : output cfg uipLladdr c.dest c.packet c.alloc s = _ := if_pos hsplit
        simp only [halloc, if_true] at hsent
        change output cfg uipLladdr c.dest c.packet c.alloc s =
          if (sendFollowing c.packet c.alloc s.myTag c.packet.length 1 first.octets
            ((macMaxPayload - fragnHdrLen) &&& 0xf8)).2.2 = true then _ else _ at hsent
        generalize sendFollowing c.packet c.alloc s.myTag c.packet.length 1 first.octets
          ((macMaxPayload - fragnHdrLen) &&& 0xf8) = sent at hok htag hsent
        have habandons : sent.2.2 = true ↔ ¬ c.Abandons cfg uipLladdr := by
          rw [hok]
          constructor
          · rintro h ⟨-, k, hk, hfalse⟩
            rcases Nat.eq_zero_or_pos k with rfl | hpos
            · rw [halloc] at hfalse
              cases hfalse
            · have hcount : c.fragmentCount cfg uipLladdr =
                  1 + (c.packet.length - first.octets + 95) / 96 := rfl
              have htrue := h (k - 1) (by omega)
              rw [show 1 + (k - 1) = k by omega, hfalse] at htrue
              cases htrue
          · intro h i hi
            by_contra hfalse
            refine h ⟨htransmits, 1 + i, ?_, by simpa using hfalse⟩
            show 1 + i < 1 + _
            exact Nat.add_lt_add_left hi 1
        have htags : ∀ g ∈ first :: sent.1, g.datagramTag = s.myTag := by
          intro g hg
          rcases List.mem_cons.mp hg with rfl | hg
          · exact firstFragment_tag _ _ _ _ _
          · exact htag g hg
        cases hdone : sent.2.2 with
        | true =>
            rw [hdone, if_pos rfl] at hsent
            rw [hdone] at habandons
            exact .inr (.inr ⟨htransmits, _, first, sent.1, true, hsent, htags, habandons, rfl⟩)
        | false =>
            rw [hdone, if_neg (by decide)] at hsent
            rw [hdone] at habandons
            exact .inr (.inr ⟨htransmits, _, first, sent.1, false, hsent, htags, habandons, rfl⟩)
  · exact .inl ⟨hsplit, _, if_neg hsplit⟩

/-- The tag of the fragments that are sent, and the advance of the counter. -/
lemma output_tag (cfg : LowpanConfig) (uipLladdr : Lladdr) (c : Call) (s : Lowpan) :
    (∀ f ∈ (output cfg uipLladdr c.dest c.packet c.alloc s).2.1.frags,
      f.datagramTag = s.myTag) ∧
    ((output cfg uipLladdr c.dest c.packet c.alloc s).2.1.frags ≠ [] ↔
      c.Transmits cfg uipLladdr) ∧
    (completes (output cfg uipLladdr c.dest c.packet c.alloc s).2 = true ↔
      c.Transmits cfg uipLladdr ∧ ¬ c.Abandons cfg uipLladdr) ∧
    (output cfg uipLladdr c.dest c.packet c.alloc s).1.myTag = s.myTag + UInt16.ofNat
      (if completes (output cfg uipLladdr c.dest c.packet c.alloc s).2 then 1 else 0) := by
  rcases output_cases cfg uipLladdr c s with
    ⟨hsplit, frame, h⟩ | ⟨hnot, h⟩ | ⟨htransmits, s', f, fs, ok, h, htags, hok, htag⟩
  · have hnot : ¬ c.Transmits cfg uipLladdr := fun ht => hsplit ht.1
    rw [h]
    simp [Sent.frags, completes, hnot]
  · rw [h]
    simp [Sent.frags, completes, hnot]
  · rw [h]
    refine ⟨htags, ?_, ?_, ?_⟩
    · simp [Sent.frags, htransmits]
    · simp only [completes, htransmits, true_and]
      exact hok
    · rw [htag]
      cases ok <;> simp [completes]

end Output

/-! ## Sequences of packets and the counter -/

section Sequence
variable (cfg : LowpanConfig) (uipLladdr : Lladdr)

/-- The state after the packets. -/
def afterAll (calls : List Call) (s : Lowpan) : Lowpan :=
  calls.foldl (fun s c => (output cfg uipLladdr c.dest c.packet c.alloc s).1) s

variable {cfg uipLladdr} {calls calls' : List Call} {s : Lowpan}

lemma outputAll_cons (c : Call) : outputAll cfg uipLladdr (c :: calls) s =
    (output cfg uipLladdr c.dest c.packet c.alloc s).2 ::
      outputAll cfg uipLladdr calls (output cfg uipLladdr c.dest c.packet c.alloc s).1 := rfl

lemma outputAll_append : outputAll cfg uipLladdr (calls ++ calls') s =
    outputAll cfg uipLladdr calls s ++
      outputAll cfg uipLladdr calls' (afterAll cfg uipLladdr calls s) := by
  induction calls generalizing s with
  | nil => rfl
  | cons c calls ih =>
      rw [List.cons_append, outputAll_cons, outputAll_cons, List.cons_append, ih]
      rfl

/-- The counter is advanced by the packets that are sent completely. -/
lemma afterAll_tag : (afterAll cfg uipLladdr calls s).myTag =
    s.myTag + UInt16.ofNat ((outputAll cfg uipLladdr calls s).countP completes) := by
  induction calls generalizing s with
  | nil => exact (UInt16.add_zero _).symm
  | cons c calls ih =>
      obtain ⟨-, -, -, htag⟩ := output_tag cfg uipLladdr c s
      rw [outputAll_cons, List.countP_cons, Nat.add_comm, UInt16.ofNat_add, ← UInt16.add_assoc,
        ← htag]
      exact ih

lemma outputAll_length : (outputAll cfg uipLladdr calls s).length = calls.length := by
  induction calls generalizing s with
  | nil => rfl
  | cons c calls ih => exact congrArg (· + 1) ih

/-- Where the results are split, the packets are. -/
lemma outputAll_split {outs outs' : List (Sent × Bool)}
    (h : outputAll cfg uipLladdr calls s = outs ++ outs') : ∃ l l', calls = l ++ l' ∧
      outputAll cfg uipLladdr l s = outs ∧
      outputAll cfg uipLladdr l' (afterAll cfg uipLladdr l s) = outs' := by
  refine ⟨calls.take outs.length, calls.drop outs.length, (List.take_append_drop _ _).symm, ?_⟩
  have hlen := congrArg List.length h
  rw [outputAll_length, List.length_append] at hlen
  rw [← List.take_append_drop outs.length calls, outputAll_append] at h
  refine List.append_inj h ?_
  rw [outputAll_length, List.length_take]
  omega

/-- Two packets and the counter between them. -/
lemma outputAll_pair {a b : Sent × Bool} {before between after : List (Sent × Bool)}
    (h : outputAll cfg uipLladdr calls s = before ++ a :: between ++ b :: after) :
    ∃ c c' s₁ s₂, [c, c'].Sublist calls ∧
      a = (output cfg uipLladdr c.dest c.packet c.alloc s₁).2 ∧
      b = (output cfg uipLladdr c'.dest c'.packet c'.alloc s₂).2 ∧
      s₂.myTag = s₁.myTag + UInt16.ofNat ((a :: between).countP completes) := by
  rw [List.append_assoc] at h
  obtain ⟨l, l', rfl, -, ha⟩ := outputAll_split h
  rcases l' with - | ⟨c, l'⟩
  · cases ha
  · rw [outputAll_cons, List.cons_append] at ha
    obtain ⟨hfirst, hrest⟩ := List.cons.inj ha
    obtain ⟨m, m', rfl, hbetween, hb⟩ := outputAll_split hrest
    rcases m' with - | ⟨c', m'⟩
    · cases hb
    · rw [outputAll_cons] at hb
      obtain ⟨hb, -⟩ := List.cons.inj hb
      obtain ⟨-, -, -, htag⟩ := output_tag cfg uipLladdr c (afterAll cfg uipLladdr l s)
      refine ⟨c, c', _, _, ?_, hfirst.symm, hb.symm, ?_⟩
      · apply List.Sublist.trans _ (List.sublist_append_right l _)
        apply List.Sublist.cons_cons
        exact List.Sublist.trans (List.singleton_sublist.mpr (List.mem_cons_self ..))
          (List.sublist_append_right m _)
      · rw [afterAll_tag, htag, hbetween, hfirst, List.countP_cons, UInt16.add_assoc,
          ← UInt16.ofNat_add, Nat.add_comm]

/-- Packets of which nothing is sent leave the counter alone. -/
lemma countP_completes (h : ∀ c ∈ calls, ¬ c.Transmits cfg uipLladdr) :
    (outputAll cfg uipLladdr calls s).countP completes = 0 := by
  induction calls generalizing s with
  | nil => rfl
  | cons c calls ih =>
      obtain ⟨-, -, hcompletes, -⟩ := output_tag cfg uipLladdr c s
      have hnot : ¬ completes (output cfg uipLladdr c.dest c.packet c.alloc s).2 = true :=
        fun hc => h c (List.mem_cons_self ..) (hcompletes.mp hc).1
      rw [outputAll_cons, List.countP_cons_of_neg hnot]
      exact ih fun c' hc' => h c' (List.mem_cons_of_mem _ hc')

/-- The next packet after one that was given up has its tag. -/
lemma not_fresh_of_abandons {c c' : Call} (habandons : c.Abandons cfg uipLladdr) (hmem : c' ∈ calls)
    (htransmits : c'.Transmits cfg uipLladdr) :
    ¬ TagsFresh (outputAll cfg uipLladdr (c :: calls) s) := by
  intro hfresh
  have hsome : (calls.find? fun c => decide (c.Transmits cfg uipLladdr)).isSome = true :=
    List.find?_isSome.mpr ⟨c', hmem, decide_eq_true htransmits⟩
  obtain ⟨next, hnext⟩ := Option.isSome_iff_exists.mp hsome
  obtain ⟨hp, l, l', rfl, hnone⟩ := List.find?_eq_some_iff_append.mp hnext
  have hskip : ∀ c ∈ l, ¬ c.Transmits cfg uipLladdr := fun c hc => by simpa using hnone c hc
  let s' := (output cfg uipLladdr c.dest c.packet c.alloc s).1
  obtain ⟨htag, hsent, hcompletes, hcounter⟩ := output_tag cfg uipLladdr c s
  obtain ⟨htag', hsent', -, -⟩ := output_tag cfg uipLladdr next (afterAll cfg uipLladdr l s')
  have hnot : ¬ completes (output cfg uipLladdr c.dest c.packet c.alloc s).2 = true :=
    fun h => (hcompletes.mp h).2 habandons
  have hcount : (outputAll cfg uipLladdr l s').countP completes = 0 := countP_completes hskip
  have hsame : (afterAll cfg uipLladdr l s').myTag = s.myTag := by
    rw [afterAll_tag, hcount, hcounter, if_neg hnot]
    exact (UInt16.add_zero _).trans (UInt16.add_zero _)
  obtain ⟨f, hf⟩ := List.exists_mem_of_ne_nil _ (hsent.mpr habandons.1)
  obtain ⟨g, hg⟩ := List.exists_mem_of_ne_nil _ (hsent'.mpr (of_decide_eq_true hp))
  have hout : outputAll cfg uipLladdr (c :: (l ++ next :: l')) s =
      [] ++ (output cfg uipLladdr c.dest c.packet c.alloc s).2 :: outputAll cfg uipLladdr l s' ++
        (output cfg uipLladdr next.dest next.packet next.alloc (afterAll cfg uipLladdr l s')).2 ::
          outputAll cfg uipLladdr l'
            (output cfg uipLladdr next.dest next.packet next.alloc
              (afterAll cfg uipLladdr l s')).1 := by
    rw [outputAll_cons, outputAll_append, outputAll_cons]
    rfl
  refine hfresh _ _ _ _ _ hout ?_ f hf g hg ?_
  · rw [List.countP_cons_of_neg hnot, hcount]
    norm_num
  · rw [htag f hf, htag' g hg, hsame]

/-- A fragment has its tag in the second word. -/
lemma readFragHdr_fragTag {p : Packetbuf} {processed : UInt16}
    (h : (readFragHdr p processed).fragSize ≠ 0) :
    (readFragHdr p processed).fragTag = wordAt p.data 2 := by
  simp only [readFragHdr] at h ⊢
  split_ifs at h ⊢
  · rfl
  · rfl
  · exact absurd rfl h

/-- Tags that are used once keep the fragments of packets apart. -/
lemma TagsFresh.laterDropped {outs : List (Sent × Bool)} (h : TagsFresh outs) :
    LaterDropped outs := by
  intro before a between b after hout hcount f hf g hg cfg now p r hp hr hprocessed htimer
  have hne : r.reassTag ≠ wordAt p.data 2 := by
    rw [hp, hr]
    exact h before a between b after hout hcount f hf g hg
  rw [input, cancelExpired, htimer, if_neg (by decide)]
  have hjoin : joinReassembly now p (readFragHdr p r.processedIpLen) r = none := by
    rw [joinReassembly, if_pos hprocessed, if_pos]
    by_cases hsize : (readFragHdr p r.processedIpLen).fragSize = 0
    · exact .inr hsize
    · refine .inl ⟨UInt16.pos_iff_ne_zero.mpr hsize, .inr (.inl ?_)⟩
      rw [readFragHdr_fragTag hsize]
      exact hne
  rw [hjoin]

end Sequence

/-- **A tag is used once.**  In every sequence of packets, no two packets of which a fragment was
sent have the same tag before the counter has wrapped, and a receiver never takes a fragment of the
one for the other, if and only if after a packet that was given up half way no fragment of another
packet is sent. -/
theorem tags_fresh_iff (cfg : LowpanConfig) (uipLladdr : Lladdr) (calls : List Call) (s : Lowpan) :
    TagsFresh (outputAll cfg uipLladdr calls s) ∧ LaterDropped (outputAll cfg uipLladdr calls s) ↔
      calls.Pairwise fun c c' => ¬ (c.Abandons cfg uipLladdr ∧ c'.Transmits cfg uipLladdr) := by
  constructor
  · rintro ⟨hfresh, -⟩
    induction calls generalizing s with
    | nil => exact .nil
    | cons c calls ih =>
        refine .cons (fun c' hmem h => not_fresh_of_abandons h.1 hmem h.2 hfresh)
          (ih (output cfg uipLladdr c.dest c.packet c.alloc s).1 ?_)
        intro before a between b after hout
        exact hfresh (_ :: before) a between b after (congrArg (List.cons _) hout)
  · intro hpairwise
    suffices hfresh : TagsFresh (outputAll cfg uipLladdr calls s) from ⟨hfresh, hfresh.laterDropped⟩
    intro before a between b after hout hcount f hf g hg heq
    obtain ⟨c, c', s₁, s₂, hsub, rfl, rfl, hcounter⟩ := outputAll_pair hout
    obtain ⟨htag, htransmits, hcompletes, -⟩ := output_tag cfg uipLladdr c s₁
    obtain ⟨htag', htransmits', -, -⟩ := output_tag cfg uipLladdr c' s₂
    rw [htag f hf, htag' g hg, hcounter] at heq
    have hzero := congrArg UInt16.toNat (UInt16.left_eq_add.mp heq)
    rw [UInt16.toNat_ofNat_of_lt' hcount] at hzero
    have hnot : ¬ completes (output cfg uipLladdr c.dest c.packet c.alloc s₁).2 = true :=
      List.countP_eq_zero.mp hzero _ (List.mem_cons_self ..)
    have htransmits := htransmits.mp (List.ne_nil_of_mem hf)
    have habandons : c.Abandons cfg uipLladdr := by
      by_contra hcontra
      exact hnot (hcompletes.mpr ⟨htransmits, hcontra⟩)
    have hpair := hpairwise.sublist hsub
    rw [List.pairwise_pair] at hpair
    exact hpair ⟨habandons, htransmits'.mp (List.ne_nil_of_mem hg)⟩

/-- Uncompressed headers. -/
def ipv6Config : LowpanConfig := ⟨.ipv6, 0, [], LowpanConfig.nodup_numbers_nil, LowpanConfig.numbers_fit_nil⟩

/-- Of the first of two packets only the first fragment finds a queue buffer. -/
theorem not_tags_fresh : ¬ ∀ (cfg : LowpanConfig) (uipLladdr : Lladdr) (calls : List Call)
    (s : Lowpan), TagsFresh (outputAll cfg uipLladdr calls s) ∧
      LaterDropped (outputAll cfg uipLladdr calls s) := by
  intro hall
  let mac : Lladdr := ⟨[0x02, 0x12, 0x74, 0x00, 0x00, 0x00, 0x00, 0x01], by decide⟩
  let abandoned : Call := ⟨mac, List.replicate 120 0, fun k => k == 0⟩
  let next : Call := ⟨mac, List.replicate 120 0, fun _ => true⟩
  let idle : Lowpan := ⟨fun _ => 0, 0, 0, 0, 0, mac, ⟨0, 0⟩⟩
  have habandons : abandoned.Abandons ipv6Config mac := 
    ⟨by decide +kernel, 1, by decide +kernel, rfl⟩
  have htransmits : next.Transmits ipv6Config mac := by decide +kernel
  exact not_fresh_of_abandons habandons (List.mem_singleton.mpr rfl) htransmits
    (hall ipv6Config mac [abandoned, next] idle).1

end Sicslowpan
end Contiki

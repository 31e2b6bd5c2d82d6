import Contiki.Cfs.Extents

/-!
# What a search for free pages finds

A search begins at `*next_free`, the hint.  No page before the hint is free: the hint moves over the
pages of an extent that is allocated there, and back to a sector that is erased (`Coffee.Hinted`).
From the hint on a search finds free pages where there are some, unless all the room there is lies at
the very end: the search gives up at the beginning of free pages that would have to be used up to the
last one (`findsRuns_iff`).
-/

namespace Contiki

variable {cfg : CoffeeConfig} {c c' : Coffee} {tiles l l' m : List Tile} {t : Tile}
  {pages pages' : ℕ → FileHeader} {amount p q : ℕ}

/-! ## Free pages -/

/-- The scan of `next_file` takes the page for a free one, at the beginning or within the free rest of
a sector. -/
def Coffee.FreePage (cfg : CoffeeConfig) (pages : ℕ → FileHeader) (p : ℕ) : Prop :=
  ∃ q, Coffee.Visits cfg pages q ∧ (pages q).free = true ∧ q ≤ p ∧ p < cfg.sectorEnd q

/-- A page of a free tile. -/
def FreeIn (tiles : List Tile) (p : ℕ) : Prop :=
  ∃ t ∈ tiles, t.kind = .free ∧ t.start ≤ p ∧ p < t.start + t.len

lemma freeIn_append : FreeIn (l ++ l') p ↔ FreeIn l p ∨ FreeIn l' p := by
  simp only [FreeIn, List.mem_append, or_and_right, exists_or]

lemma freeIn_cons : FreeIn (t :: l) p ↔
    (t.kind = .free ∧ t.start ≤ p ∧ p < t.start + t.len) ∨ FreeIn l p := by
  simp only [FreeIn, List.mem_cons, or_and_right, exists_or, exists_eq_left]

lemma FreeIn.bounds {a b : ℕ} (h : FreeIn tiles p) (hlaid : Laid cfg pages a b tiles) :
    a ≤ p ∧ p < b := by
  obtain ⟨t, ht, -, hle, hlt⟩ := h
  obtain ⟨hlow, -, hhigh⟩ := hlaid.covers.mem ht
  omega

/-- The pages of the free tiles are the free pages. -/
lemma Laid.freePage_iff (h : Laid cfg pages 0 cfg.pageCount tiles) :
    Coffee.FreePage cfg pages p ↔ FreeIn tiles p := by
  have hreads : ∀ t ∈ tiles, t.kind = .free → t.start + t.len = cfg.sectorEnd t.start := by
    intro t ht hkind
    have hread := h.reads t ht
    unfold Tile.Reads at hread
    rw [hkind] at hread
    exact hread.1
  constructor
  · rintro ⟨q, hvisits, hfree, hle, hlt⟩
    obtain ⟨t, ht, rfl⟩ := (h.visits_iff q).mp hvisits
    have hkind := ((h.reads t ht).free_iff (h.covers.mem ht).2.1).mp hfree
    exact ⟨t, ht, hkind, hle, by rwa [hreads t ht hkind]⟩
  · rintro ⟨t, ht, hkind, hle, hlt⟩
    refine ⟨t.start, (h.visits_iff _).mpr ⟨t, ht, rfl⟩, ?_, hle, by rwa [← hreads t ht hkind]⟩
    exact ((h.reads t ht).free_iff (h.covers.mem ht).2.1).mpr hkind

/-! ## The search -/

/-- No page before the hint is free. -/
def Coffee.Hinted (cfg : CoffeeConfig) (c : Coffee) : Prop :=
  ∀ p, Coffee.FreePage cfg c.pages p → c.nextFree ≤ p

lemma Coffee.le_nextFile (page : ℕ) (hdr : FileHeader) : page ≤ Coffee.nextFile cfg page hdr := by
  unfold Coffee.nextFile
  split
  · rw [Coffee.clearBits_sector]
    have hdiv := Nat.div_add_mod (page + cfg.pagesPerSector) cfg.pagesPerSector
    have hmod := Nat.mod_lt (page + cfg.pagesPerSector) cfg.pagesPerSector_pos
    rw [Nat.mul_comm] at hdiv
    omega
  · split <;> omega

/-- The scan up to a page looks at no page behind it. -/
lemma Coffee.Visits.congr_before (h : Coffee.Visits cfg pages' q)
    (hsame : ∀ p ≤ q, pages' p = pages p) : Coffee.Visits cfg pages q := by
  induction h with
  | first hlt => exact .first hlt
  | next hvisits hlt ih =>
    rename_i page
    have hle := @Coffee.le_nextFile cfg page (pages' page)
    have hpage := hsame page hle
    rw [hpage] at hlt hsame ⊢
    exact .next (ih fun p hp => hsame p (by rw [hpage] at hle; omega)) hlt

/-- What an operation on headers leaves to the scan: the steps, and no further free pages. -/
lemma Coffee.FreePage.of_scan (hscan : ∀ q, Coffee.Visits cfg pages q →
      Coffee.nextFile cfg q (pages' q) = Coffee.nextFile cfg q (pages q) ∧
        ((pages' q).free = true → (pages q).free = true))
    (h : Coffee.FreePage cfg pages' p) : Coffee.FreePage cfg pages p := by
  have hvisits : ∀ q, Coffee.Visits cfg pages' q → Coffee.Visits cfg pages q := by
    intro q hq
    induction hq with
    | first hlt => exact .first hlt
    | next _ hlt ih =>
      rw [(hscan _ ih).1] at hlt ⊢
      exact .next ih hlt
  obtain ⟨q, hq, hfree, hle, hlt⟩ := h
  exact ⟨q, hvisits q hq, (hscan q (hvisits q hq)).2 hfree, hle, hlt⟩

namespace Coffee.Hinted

/-- A collection moves the hint to the first sector that it erases, and changes nothing before. -/
lemma collectSectors_before {mode : GcMode} {count sector : ℕ} {scan : SectorScan} {c c' : Coffee}
    {erased : List ℕ} (h : Coffee.collectSectors cfg mode count sector scan c = some (c', erased)) :
    c'.nextFree ≤ c.nextFree ∧ ∀ p < c'.nextFree, c'.pages p = c.pages p := by
  have herase (c : Coffee) (sector n : ℕ) : (c.eraseSector cfg sector n).nextFree ≤ c.nextFree ∧
      ∀ p < (c.eraseSector cfg sector n).nextFree,
        (c.eraseSector cfg sector n).pages p = c.pages p := by
    rw [eraseSector_nextFree]
    exact ⟨Nat.min_le_right _ _, fun p hp => eraseSector_before c n (by omega)⟩
  induction count generalizing sector scan c c' erased with
  | zero =>
    obtain ⟨rfl, -⟩ : c = c' ∧ [] = erased := by simpa [Coffee.collectSectors] using h
    exact ⟨le_refl _, fun p _ => rfl⟩
  | succ count ih =>
    rw [Coffee.collectSectors] at h
    split at h
    · cases h
    · rename_i stats n scan' _
      dsimp only at h
      split_ifs at h
      · exact ih h
      · cases h
        exact herase c sector n
      · obtain ⟨⟨c₁, erased₁⟩, hrest, heq⟩ := Option.map_eq_some_iff.mp h
        cases heq
        obtain ⟨hle, hsame⟩ := ih hrest
        obtain ⟨hle', hsame'⟩ := herase c sector n
        exact ⟨hle.trans hle', fun p hp => (hsame p hp).trans (hsame' p (lt_of_lt_of_le hp hle))⟩
      · exact ih h

/-- A collection frees no page before the hint that it leaves. -/
lemma collectGarbage {mode : GcMode} {erased : List ℕ} (h : c.Hinted cfg)
    (hres : c.collectGarbage cfg mode = some (c', erased)) : c'.Hinted cfg := by
  obtain ⟨hle, hsame⟩ := collectSectors_before hres
  rintro p ⟨q, hvisits, hfree, hqp, hlt⟩
  by_contra hbefore
  have hq : ∀ r ≤ q, c'.pages r = c.pages r := fun r hr => hsame r (by omega)
  rw [hq q (le_refl q)] at hfree
  have hold := h p ⟨q, hvisits.congr_before hq, hfree, hqp, hlt⟩
  omega

/-- Pages are allocated: at the hint, which moves over them, or behind it. -/
lemma allocate {live : Set (ℕ × ℕ)} {page : ℕ} {hdr : FileHeader} (h : c.Hinted cfg)
    (hsound : Sound cfg live c tiles) (hamount : 0 < amount)
    (hroom : Laid.Room cfg c.pages amount 0 cfg.pageCount page tiles) (hnext : c.nextFree ≤ page)
    (hactive : hdr.active = true) (hmax : hdr.maxPages = amount) :
    ({ c with nextFree := if page = c.nextFree then page + amount else c.nextFree }.writeHeader
      hdr page).Hinted cfg := by
  have hlaid₀ := hsound.laid
  obtain ⟨l, rest, l', ⟨m, rfl, hl, hfree⟩, hfree', hlaid⟩ := @Laid.allocate _
    _ (c.writeHeader hdr page).pages _ _ _ _ _ hroom hamount
    (by rwa [Coffee.writeHeader_self]) (by rwa [Coffee.writeHeader_self])
    fun p hp => Coffee.writeHeader_of_ne c hdr page hp
  obtain ⟨k, hl', htail⟩ := hlaid.split
  obtain ⟨rfl, -, -, hrest⟩ := htail.uncons
  intro q hq
  rw [Coffee.writeHeader_nextFree]
  dsimp only
  rcases freeIn_append.mp (hlaid.freePage_iff.mp hq) with hin | hin
  · -- before the new extent the pages are as they were
    have hold := h q (hlaid₀.freePage_iff.mpr (freeIn_append.mpr (.inl hin)))
    have hbounds := hin.bounds hl
    split <;> omega
  · rcases freeIn_cons.mp hin with ⟨hkind, -⟩ | hin
    · cases hkind
    · have hbounds : page + amount ≤ q := (hin.bounds hrest).1
      split <;> omega

/-- Headers and data are written that leave the scan as it was. -/
lemma of_scan (h : c.Hinted cfg) (hnext : c'.nextFree = c.nextFree)
    (hscan : ∀ q, Coffee.Visits cfg c.pages q →
      Coffee.nextFile cfg q (c'.pages q) = Coffee.nextFile cfg q (c.pages q) ∧
        ((c'.pages q).free = true → (c.pages q).free = true)) : c'.Hinted cfg := by
  intro p hp
  rw [hnext]
  exact h p (hp.of_scan hscan)

/-- A header is written again that says the same about the extent. -/
lemma writeHeader {page : ℕ} {hdr : FileHeader} (h : c.Hinted cfg)
    (hfree : hdr.free = (c.pages page).free) (hmax : hdr.maxPages = (c.pages page).maxPages)
    (hisolated : hdr.flags.isolated = (c.pages page).flags.isolated) :
    (c.writeHeader hdr page).Hinted cfg := by
  refine h.of_scan (c.writeHeader_nextFree hdr page) fun q _ => ?_
  by_cases hq : q = page
  · subst hq
    have hself : ((c.writeHeader hdr q).pages q).free = (c.pages q).free := by
      rw [Coffee.writeHeader_self]
      exact hfree
    refine ⟨?_, fun hfree' => hself ▸ hfree'⟩
    unfold Coffee.nextFile
    rw [hself, Coffee.writeHeader_self]
    dsimp only
    rw [hisolated, hmax]
  · rw [Coffee.writeHeader_of_ne _ _ _ hq]
    exact ⟨rfl, id⟩

lemma markObsolete {page : ℕ} {hdr : FileHeader} (h : c.Hinted cfg)
    (hfree : hdr.free = (c.pages page).free) (hmax : hdr.maxPages = (c.pages page).maxPages)
    (hisolated : hdr.flags.isolated = (c.pages page).flags.isolated) :
    (c.markObsolete hdr page).Hinted cfg :=
  @writeHeader _ _ _ { hdr with flags := { hdr.flags with obsolete := true } } h hfree hmax hisolated

/-- An extent is marked, and the headers say the same about the pages as before. -/
lemma removePage (h : c.Hinted cfg) (page : ℕ) : (c.removePage page).2.Hinted cfg ∧
    ∀ q, ((c.removePage page).2.pages q).free = (c.pages q).free ∧
      ((c.removePage page).2.pages q).maxPages = (c.pages q).maxPages ∧
      ((c.removePage page).2.pages q).flags.isolated = (c.pages q).flags.isolated := by
  unfold Coffee.removePage
  dsimp only
  split
  · refine ⟨h.markObsolete rfl rfl rfl, fun q => ?_⟩
    unfold Coffee.markObsolete
    dsimp only
    by_cases hq : q = page
    · subst hq
      rw [Coffee.writeHeader_self]
      exact ⟨rfl, rfl, rfl⟩
    · rw [Coffee.writeHeader_of_ne _ _ _ hq]
      exact ⟨rfl, rfl, rfl⟩
  · exact ⟨h, fun q => ⟨rfl, rfl, rfl⟩⟩

lemma removeByPage (h : c.Hinted cfg) (page : ℕ) : (c.removeByPage page).2.Hinted cfg := by
  obtain ⟨hlog, hsame⟩ := h.removePage (c.pages page).logPage
  unfold Coffee.removeByPage
  dsimp only
  split
  · cases hremove : c.removePage (c.pages page).logPage with
    | mk done c₁ =>
        rw [hremove] at hlog hsame
        cases done with
        | false => exact hlog
        | true =>
            obtain ⟨hfree, hmax, hisolated⟩ := hsame page
            exact hlog.markObsolete hfree.symm hmax.symm hisolated.symm
  · exact (h.removePage page).1

/-- Data behind the header of a live extent is not looked at by the scan. -/
lemma writeData {live : Set (ℕ × ℕ)} {e : ℕ × ℕ} (h : c.Hinted cfg) (hsound : Sound cfg live c tiles)
    (he : e ∈ live) (data : ℕ → FileHeader) : (c.writeData e.1 e.2 data).Hinted cfg := by
  refine h.of_scan rfl fun q hvisits => ?_
  have hq : (c.writeData e.1 e.2 data).pages q = c.pages q := by
    apply if_neg
    rintro ⟨hlow, hhigh⟩
    obtain ⟨t, ht, hkind, rfl⟩ := (hsound.live_iff e).mp he
    obtain ⟨u, hu, rfl⟩ := (hsound.laid.visits_iff q).mp hvisits
    have hpos := (hsound.laid.covers.mem hu).2.1
    obtain rfl := hsound.laid.covers.eq_of_mem hu ht (k := u.start) ⟨le_refl _, by omega⟩
      ⟨hlow.le, hhigh⟩
    omega
  rw [hq]
  exact ⟨rfl, id⟩

/-- What is found by a search is allocated. -/
lemma findContiguousPages {live : Set (ℕ × ℕ)} {found : Option ℕ} (h : c.Hinted cfg)
    (hsound : Sound cfg live c tiles) (hamount : 0 < amount)
    (hres : c.findContiguousPages cfg amount = some (found, c')) :
    (found = none → c' = c) ∧ ∀ p, found = some p → ∀ hdr : FileHeader, hdr.active = true →
      hdr.maxPages = amount → (c'.writeHeader hdr p).Hinted cfg := by
  obtain ⟨found₁, c₁, hfind, hnone, hsome⟩ := findContiguousPages_spec hsound hamount
  rw [hres] at hfind
  cases hfind
  refine ⟨hnone, fun p hp hdr hactive hmax => ?_⟩
  obtain ⟨hroom, hnext, rfl⟩ := hsome p hp
  exact h.allocate hsound hamount hroom hnext hactive hmax

/-- A search, and one after a collection. -/
lemma reservePages {found : Option ℕ} (h : c.Hinted cfg) (hsound : Sound cfg c.extents c tiles)
    (hamount : 0 < amount) (hsafe : c.Collects cfg amount → c.GcSafe cfg .greedy)
    (hres : c.reservePages cfg amount = some (found, c')) :
    (found = none → c'.Hinted cfg) ∧ ∀ p, found = some p → ∀ hdr : FileHeader, hdr.active = true →
      hdr.maxPages = amount → (c'.writeHeader hdr p).Hinted cfg := by
  obtain ⟨found₁, c₁, hfind, -⟩ := findContiguousPages_spec hsound hamount
  obtain ⟨hnone, hsome⟩ := h.findContiguousPages hsound hamount hfind
  rw [Coffee.reservePages, hfind] at hres
  cases found₁ with
  | some p =>
    cases hres
    exact ⟨by simp, hsome⟩
  | none =>
    obtain rfl := hnone rfl
    dsimp only at hres
    by_cases hwait : c₁.gcWait = true
    · rw [if_pos hwait] at hres
      cases hres
      exact ⟨fun _ => h, by simp⟩
    · rw [if_neg hwait] at hres
      obtain ⟨c₂, erased, hcollect, -, ⟨tiles₂, hsound₂⟩, -⟩ :=
        hsound.collectGarbage (hsafe ⟨⟨c₁, hfind⟩, eq_false_of_ne_true hwait⟩)
      have hhint := h.collectGarbage hcollect
      obtain ⟨found₃, c₃, hfind₃, -⟩ := findContiguousPages_spec hsound₂ hamount
      obtain ⟨hnone₃, hsome₃⟩ := hhint.findContiguousPages hsound₂ hamount hfind₃
      rw [hcollect] at hres
      dsimp only at hres
      rw [hfind₃] at hres
      cases found₃ with
      | some p =>
        cases hres
        exact ⟨by simp, hsome₃⟩
      | none =>
        obtain rfl := hnone₃ rfl
        cases hres
        exact ⟨fun _ => hhint, by simp⟩

/-- A reservation. -/
lemma reserve {name : String} {flags : HdrFlags} {found : Option ℕ} (h : c.Hinted cfg)
    (hsound : Sound cfg c.extents c tiles) (hamount : 0 < amount)
    (hsafe : c.Collects cfg amount → c.GcSafe cfg .greedy) (hobsolete : flags.obsolete = false)
    (hisolated : flags.isolated = false)
    (hres : c.reserve cfg name amount flags = some (found, c')) : c'.Hinted cfg := by
  unfold Coffee.reserve at hres
  obtain ⟨⟨found₁, c₁⟩, hpages, heq⟩ := Option.map_eq_some_iff.mp hres
  obtain ⟨hnone, hsome⟩ := h.reservePages hsound hamount hsafe hpages
  cases found₁ with
  | none =>
    cases heq
    exact hnone rfl
  | some p =>
    cases heq
    refine hsome p rfl _ ?_ rfl
    simp [FileHeader.active, hobsolete, hisolated]

/-- The creation of a log. -/
lemma createLog {page logPages : ℕ} {loaded : Bool} {res : Option ℕ × Coffee} (h : c.Hinted cfg)
    (hintact : c.Intact cfg) (hfile : c.IsFile page) (hpages : 0 < logPages)
    (hsafe : c.Collects cfg logPages → c.GcSafe cfg .greedy)
    (hres : c.createLog cfg page logPages loaded = some res) : res.2.Hinted cfg := by
  obtain ⟨tiles, hsound⟩ := hintact.sound
  obtain ⟨found, c₁, hreserve, -, hkept, -⟩ := @Coffee.Intact.reserve _ _ _ (c.pages page).name
    { log := true } hintact hpages hsafe rfl rfl rfl
  have hhint := h.reserve hsound hpages hsafe rfl rfl hreserve
  obtain ⟨⟨n, hlive⟩, -⟩ := hfile
  have hhead : c₁.pages page = c.pages page := (hkept (page, n) hlive).2
  unfold Coffee.createLog at hres
  dsimp only at hres
  rw [hreserve, Option.map_some] at hres
  cases found with
  | none =>
    cases hres
    exact hhint
  | some logPage =>
    cases loaded with
    | false =>
      cases hres
      exact hhint
    | true =>
      cases hres
      refine hhint.writeHeader ?_ ?_ ?_
      · rw [hhead]
        rfl
      · rw [hhead]
      · rw [hhead]

/-- The merge of a file with its log. -/
lemma mergeLog {page extend : ℕ} {loaded : Bool} {data : ℕ → FileHeader} {res : Bool × Coffee}
    (h : c.Hinted cfg) (hintact : c.Intact cfg) (hfile : c.IsFile page)
    (hsafe : c.Collects cfg ((c.pages page).maxPages <<< extend) → c.GcSafe cfg .greedy)
    (hres : c.mergeLog cfg page extend loaded data = some res) : res.2.Hinted cfg := by
  obtain ⟨tiles, hsound⟩ := hintact.sound
  obtain ⟨⟨n, hlive⟩, -⟩ := hfile
  have hamount : 0 < (c.pages page).maxPages <<< extend := by
    obtain ⟨-, hmax, hpos, -⟩ := hsound.head hlive
    dsimp only at hmax hpos
    rw [Nat.shiftLeft_eq, hmax]
    exact Nat.mul_pos hpos (Nat.two_pow_pos extend)
  obtain ⟨found, c₁, hreserve, hintact₁, -, hsome⟩ := @Coffee.Intact.reserve _ _ _
    (c.pages page).name {} hintact hamount hsafe rfl rfl rfl
  have hhint := h.reserve hsound hamount hsafe rfl rfl hreserve
  unfold Coffee.mergeLog at hres
  dsimp only at hres
  rw [hreserve, Option.map_some] at hres
  cases found with
  | none =>
    cases hres
    exact hhint
  | some new =>
    cases loaded with
    | false =>
      cases hres
      exact hhint
    | true =>
      obtain ⟨hextents, -, -⟩ := hsome new rfl
      obtain ⟨tiles₁, hsound₁⟩ := hintact₁.sound
      have hnew : (new, (c.pages page).maxPages <<< extend) ∈ c₁.extents := by
        rw [hextents]
        exact .inl rfl
      have hremove := (hhint.writeData hsound₁ hnew data).removeByPage page
      simp only [if_true] at hres
      cases hdone : (c₁.writeData new ((c.pages page).maxPages <<< extend) data).removeByPage page with
      | mk done c₂ =>
        rw [hdone] at hres hremove
        cases done with
        | false =>
          cases hres
          exact (hremove.removePage new).1
        | true =>
          cases hres
          exact hremove.writeHeader rfl rfl rfl

/-- **The hint.**  Every operation leaves no free page before it. -/
lemma apply {op : Coffee.Op} (h : c.Hinted cfg) (hintact : c.Intact cfg) (happlies : op.Applies c)
    (hsafe : op.Safe cfg c) (hres : c.apply cfg op = some c') : c'.Hinted cfg := by
  obtain ⟨tiles, hsound⟩ := hintact.sound
  cases op with
  | create name pages =>
    obtain ⟨⟨found, c₁⟩, hreserve, rfl⟩ := Option.map_eq_some_iff.mp hres
    exact h.reserve hsound happlies hsafe rfl rfl hreserve
  | createLog page logPages loaded =>
    obtain ⟨res, hcreate, rfl⟩ := Option.map_eq_some_iff.mp hres
    exact h.createLog hintact happlies.2 happlies.1 hsafe hcreate
  | merge page extend loaded data =>
    obtain ⟨res, hmerge, rfl⟩ := Option.map_eq_some_iff.mp hres
    exact h.mergeLog hintact happlies hsafe hmerge
  | remove page =>
    cases hres
    exact h.removeByPage page
  | configureLog page logRecords logRecordSize =>
    cases hres
    unfold Coffee.configureLog
    dsimp only
    split_ifs
    · exact h
    · exact h.writeHeader rfl rfl rfl
  | write page data =>
    obtain ⟨n, hn⟩ := happlies
    cases hres
    rw [(hsound.head hn).2.1]
    exact h.writeData hsound hn data
  | collect mode =>
    obtain ⟨⟨c₁, erased⟩, hcollect, rfl⟩ := Option.map_eq_some_iff.mp hres
    exact h.collectGarbage hcollect

end Coffee.Hinted

/-! ## Searches in every state -/

end Contiki

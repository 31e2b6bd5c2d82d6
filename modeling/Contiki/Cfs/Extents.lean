import Contiki.Cfs.Garbage
import Contiki.Lib.Run

/-!
# Live extents over whole runs

Files and logs are created, merged and removed, and sectors are collected.  `Intact` is what every
operation keeps: a layout in which the live extents are the live tiles, and logs that belong to one
file each.

A collection keeps the layout unless an extent that is no longer live goes on into a sector that is
erased, while its header stays.  `GcSafe` says when that cannot happen, from what the scan of
`next_file` sees.

* `findContiguousPages_spec` — a search for pages ends, and finds free ones.
* `Intact.apply` — every operation ends and keeps the layout.
-/

namespace Contiki

/-! ## The scan of `next_file` -/

/-- The pages whose headers the scan of `next_file` from page 0 reads. -/
inductive Coffee.Visits (cfg : CoffeeConfig) (pages : ℕ → FileHeader) : ℕ → Prop
  | first (h : 0 < cfg.pageCount) : Visits cfg pages 0
  | next {page : ℕ} (h : Visits cfg pages page)
      (hlt : Coffee.nextFile cfg page (pages page) < cfg.pageCount) :
      Visits cfg pages (Coffee.nextFile cfg page (pages page))

namespace Laid
variable {cfg : CoffeeConfig} {pages : ℕ → FileHeader} {a b : ℕ} {tiles l l' : List Tile} {t : Tile}

/-- Tiles that cover a page begin with one at the first page. -/
lemma exists_start (h : Laid cfg pages a b tiles) (hlt : a < b) : ∃ t ∈ tiles, t.start = a := by
  cases tiles with
  | nil =>
    have hab : a = b := h.covers
    omega
  | cons t l => exact ⟨t, List.mem_cons_self, h.uncons.1⟩

lemma visits_start (h : Laid cfg pages a cfg.pageCount tiles)
    (ha : a < cfg.pageCount → Coffee.Visits cfg pages a) (ht : t ∈ tiles) :
    Coffee.Visits cfg pages t.start := by
  induction tiles generalizing a with
  | nil => cases ht
  | cons u l ih =>
    obtain ⟨rfl, hpos, hu, hrest⟩ := h.uncons
    have hle := hrest.covers.le
    have hvisit := ha (by omega)
    rcases List.mem_cons.mp ht with rfl | ht
    · exact hvisit
    · apply ih hrest _ ht
      intro hlt
      rw [← hu.nextFile_eq hpos] at hlt ⊢
      exact hvisit.next hlt

/-- The scan visits the beginnings of the tiles, and no other page. -/
lemma visits_iff (h : Laid cfg pages 0 cfg.pageCount tiles) (p : ℕ) :
    Coffee.Visits cfg pages p ↔ ∃ t ∈ tiles, t.start = p := by
  constructor
  · intro hvisits
    induction hvisits with
    | first hlt => exact h.exists_start hlt
    | next _ hlt ih =>
      obtain ⟨t, ht, rfl⟩ := ih
      obtain ⟨l, l', rfl, -, hrest⟩ := h.split_mem ht
      rw [(h.reads t ht).nextFile_eq (h.covers.mem ht).2.1] at hlt ⊢
      obtain ⟨u, hu, hstart⟩ := hrest.exists_start hlt
      exact ⟨u, List.mem_append_right l (List.mem_cons_of_mem t hu), hstart⟩
  · rintro ⟨t, ht, rfl⟩
    exact h.visits_start .first ht

end Laid

/-! ## Headers that are written -/

namespace Coffee
variable (c : Coffee) (hdr : FileHeader) (page : ℕ)

lemma writeHeader_self : (c.writeHeader hdr page).pages page =
    { hdr with flags := { hdr.flags with valid := true } } := if_pos rfl

lemma writeHeader_of_ne {p : ℕ} (hp : p ≠ page) : (c.writeHeader hdr page).pages p = c.pages p :=
  if_neg hp

@[simp] lemma writeHeader_nextFree : (c.writeHeader hdr page).nextFree = c.nextFree := rfl

@[simp] lemma writeHeader_live : (c.writeHeader hdr page).live = c.live := rfl

end Coffee

/-! ## What a collection needs -/

/-- The extents that were allocated and not removed. -/
def Coffee.extents (c : Coffee) : Set (ℕ × ℕ) := {e | e ∈ c.live}

/-- No extent that is no longer live loses pages to the next sector while its header stays: when it
goes on into the next sector and live pages keep its header, it ends there, and the sector is kept
too; by live pages, or by free ones when the collection is reluctant. -/
def Coffee.GcSafe (cfg : CoffeeConfig) (mode : GcMode) (c : Coffee) : Prop :=
  ∀ page, Coffee.Visits cfg c.pages page → (c.pages page).free = false →
    (c.pages page).flags.isolated = false → (c.pages page).flags.obsolete = true →
    SectorLive cfg c.extents (page / cfg.pagesPerSector) →
    cfg.sectorEnd page < page + (c.pages page).maxPages →
    page + (c.pages page).maxPages ≤ cfg.sectorEnd page + cfg.pagesPerSector ∧
      (SectorLive cfg c.extents (page / cfg.pagesPerSector + 1) ∨
        mode = .reluctant ∧ ∃ p, Coffee.Visits cfg c.pages p ∧ (c.pages p).free = true ∧
          p / cfg.pagesPerSector = page / cfg.pagesPerSector + 1)

/-- A reservation collects garbage. -/
def Coffee.Collects (cfg : CoffeeConfig) (c : Coffee) (amount : ℕ) : Prop :=
  (∃ c', c.findContiguousPages cfg amount = some (none, c')) ∧ c.gcWait = false

section
variable {cfg : CoffeeConfig} {c : Coffee} {tiles : List Tile}

lemma Coffee.GcSafe.anchored {mode : GcMode} {t : Tile} (h : Sound cfg c.extents c tiles)
    (hsafe : c.GcSafe cfg mode) (ht : t ∈ tiles) (hkind : t.kind = .obsolete) :
    Anchored cfg mode c.extents tiles t := by
  have hreads := h.laid.reads t ht
  unfold Tile.Reads at hreads
  rw [hkind] at hreads
  obtain ⟨hlen, hfree, hisolated, hobsolete⟩ := hreads
  intro hlive hgoes
  rw [hlen] at hgoes ⊢
  obtain ⟨hends, hkept⟩ := hsafe t.start ((h.laid.visits_iff t.start).mpr ⟨t, ht, rfl⟩) hfree
    hisolated hobsolete hlive hgoes
  refine ⟨hends, hkept.imp_right ?_⟩
  rintro ⟨hmode, p, hvisits, hfree, hsector⟩
  obtain ⟨u, hu, rfl⟩ := (h.laid.visits_iff p).mp hvisits
  exact ⟨hmode, u, hu, ((h.laid.reads u hu).free_iff (h.laid.covers.mem hu).2.1).mp hfree, hsector⟩

/-! ### A collection leaves the record of the extents alone -/

lemma isolatePages_live (c : Coffee) (start n : ℕ) : (c.isolatePages start n).live = c.live := by
  induction n with
  | zero => rfl
  | succ n ih =>
    refine Eq.trans ?_ ih
    unfold Coffee.isolatePages
    rw [List.range_succ, List.foldl_append]
    rfl

lemma eraseSector_live (c : Coffee) (sector n : ℕ) :
    (c.eraseSector cfg sector n).live = c.live := by
  unfold Coffee.eraseSector Coffee.erase
  dsimp only
  by_cases hn : n > 0
  · rw [if_pos hn, isolatePages_live]
    split_ifs <;> rfl
  · rw [if_neg hn]
    split_ifs <;> rfl

lemma collectSectors_live {mode : GcMode} {count sector : ℕ} {scan : SectorScan} {c c' : Coffee}
    {erased : List ℕ} (h : Coffee.collectSectors cfg mode count sector scan c = some (c', erased)) :
    c'.live = c.live := by
  induction count generalizing sector scan c c' erased with
  | zero =>
    obtain ⟨rfl, -⟩ : c = c' ∧ [] = erased := by simpa [Coffee.collectSectors] using h
    rfl
  | succ count ih =>
    rw [Coffee.collectSectors] at h
    split at h
    · cases h
    · rename_i stats n scan' _
      dsimp only at h
      split_ifs at h
      · exact ih h
      · cases h
        apply eraseSector_live
      · obtain ⟨⟨c₁, erased₁⟩, hrest, heq⟩ := Option.map_eq_some_iff.mp h
        cases heq
        rw [ih hrest, eraseSector_live]
      · exact ih h

/-- A collection ends, erases no sector with a page of a live extent, and keeps the layout. -/
lemma Sound.collectGarbage {mode : GcMode} (h : Sound cfg c.extents c tiles)
    (hsafe : c.GcSafe cfg mode) :
    ∃ c' erased, c.collectGarbage cfg mode = some (c', erased) ∧ c'.extents = c.extents ∧
      (∃ tiles, Sound cfg c'.extents c' tiles) ∧ (∀ s ∈ erased, ¬SectorLive cfg c.extents s) ∧
      ∀ e ∈ c.extents, ∀ p, e.1 ≤ p → p < e.1 + e.2 → c'.pages p = c.pages p := by
  obtain ⟨c', erased, hres, hsound, herased, hsame⟩ :=
    collectGarbage_spec h fun t ht hkind => hsafe.anchored h ht hkind
  have hextents : c'.extents = c.extents := by
    unfold Coffee.extents
    rw [collectSectors_live hres]
  exact ⟨c', erased, hres, hextents, by rwa [hextents], herased, hsame⟩

end

/-! ## Single operations -/

section
variable {cfg : CoffeeConfig} {live : Set (ℕ × ℕ)} {c : Coffee} {tiles : List Tile} {e e' : ℕ × ℕ}
  {hdr : FileHeader}

namespace Sound

/-- The first page of a live extent holds its header. -/
lemma head (h : Sound cfg live c tiles) (he : e ∈ live) :
    (c.pages e.1).active = true ∧ (c.pages e.1).maxPages = e.2 ∧ 0 < e.2 ∧
      e.1 + e.2 ≤ cfg.pageCount := by
  obtain ⟨t, ht, hkind, rfl⟩ := (h.live_iff e).mp he
  have hreads := h.laid.reads t ht
  unfold Tile.Reads at hreads
  rw [hkind] at hreads
  have hmem := h.laid.covers.mem ht
  exact ⟨hreads.2, hreads.1.symm, hmem.2⟩

lemma apart (h : Sound cfg live c tiles) (he : e ∈ live) (he' : e' ∈ live) (hne : e ≠ e') :
    Apart Prod.fst Prod.snd e e' := by
  obtain ⟨t, ht, -, rfl⟩ := (h.live_iff e).mp he
  obtain ⟨u, hu, -, rfl⟩ := (h.live_iff e').mp he'
  apply h.laid.covers.apart ht hu
  rintro rfl
  exact hne rfl

/-- The header of a live extent is written again. -/
lemma writeHeader (h : Sound cfg live c tiles) (he : e ∈ live) (hactive : hdr.active = true)
    (hmax : hdr.maxPages = e.2) : Sound cfg live (c.writeHeader hdr e.1) tiles := by
  obtain ⟨t, ht, hkind, rfl⟩ := (h.live_iff e).mp he
  obtain ⟨l, l', rfl, -, -⟩ := h.laid.split_mem ht
  have hpos := (h.laid.covers.mem ht).2.1
  refine ⟨h.laid.replace rfl rfl ?_ ?_, h.live_iff, h.nextFree⟩
  · unfold Tile.Reads
    rw [hkind]
    dsimp only
    rw [Coffee.writeHeader_self]
    exact ⟨hmax.symm, hactive⟩
  · intro p hp
    apply Coffee.writeHeader_of_ne
    dsimp only
    omega

/-- A live extent becomes obsolete. -/
lemma markObsolete (h : Sound cfg live c tiles) (he : e ∈ live) (hhdr : hdr = c.pages e.1) :
    ∃ tiles, Sound cfg {x ∈ live | x.1 ≠ e.1} (c.markObsolete hdr e.1) tiles := by
  have hhead := h.head he
  obtain ⟨t, ht, hkind, rfl⟩ := (h.live_iff e).mp he
  obtain ⟨l, l', rfl, hl, hl'⟩ := h.laid.split_mem ht
  have hpos := (h.laid.covers.mem ht).2.1
  have hactive := hhead.1
  rw [← hhdr] at hhead hactive
  simp only [FileHeader.active, Bool.and_eq_true, Bool.not_eq_true'] at hactive
  refine ⟨l ++ ⟨.obsolete, t.start, t.len⟩ :: l', h.laid.replace rfl rfl ?_ ?_, fun x => ?_, ?_⟩
  · unfold Tile.Reads Coffee.markObsolete
    dsimp only
    rw [Coffee.writeHeader_self]
    exact ⟨hhead.2.1.symm, by simp [FileHeader.free, hactive.1.1], hactive.2, rfl⟩
  · intro p hp
    apply Coffee.writeHeader_of_ne
    dsimp only
    omega
  · constructor
    · rintro ⟨hx, hne⟩
      obtain ⟨u, hu, hlive, rfl⟩ := (h.live_iff x).mp hx
      refine ⟨u, ?_, hlive, rfl⟩
      simp only [List.mem_append, List.mem_cons] at hu ⊢
      rcases hu with hu | rfl | hu
      · exact .inl hu
      · exact absurd rfl hne
      · exact .inr (.inr hu)
    · rintro ⟨u, hu, hlive, rfl⟩
      have hmem : u ∈ l ++ t :: l' ∧ u.start ≠ t.start := by
        simp only [List.mem_append, List.mem_cons] at hu ⊢
        rcases hu with hu | rfl | hu
        · have hbefore := hl.covers.mem hu
          exact ⟨.inl hu, by omega⟩
        · cases hlive
        · have hbehind := hl'.covers.mem hu
          exact ⟨.inr (.inr hu), by omega⟩
      exact ⟨(h.live_iff _).mpr ⟨u, hmem.1, hlive, rfl⟩, hmem.2⟩
  · refine h.nextFree.imp_right ?_
    rintro ⟨u, hu, hstart⟩
    simp only [List.mem_append, List.mem_cons] at hu
    rcases hu with hu | rfl | hu
    · exact ⟨u, List.mem_append_left _ hu, hstart⟩
    · exact ⟨_, List.mem_append_right l List.mem_cons_self, hstart⟩
    · exact ⟨u, List.mem_append_right l (List.mem_cons_of_mem _ hu), hstart⟩

/-- Data is written behind the header of a live extent. -/
lemma writeData (h : Sound cfg live c tiles) (he : e ∈ live) (data : ℕ → FileHeader) :
    Sound cfg live (c.writeData e.1 e.2 data) tiles := by
  obtain ⟨t, ht, hkind, rfl⟩ := (h.live_iff e).mp he
  refine ⟨h.laid.congr ?_, h.live_iff, h.nextFree⟩
  intro u hu p hle hlt hcounts
  apply if_neg
  rintro ⟨hbehind, hbefore⟩
  dsimp only at hbehind hbefore
  by_cases hne : t = u
  · subst hne
    rcases hcounts with rfl | hfree
    · omega
    · rw [hkind] at hfree
      cases hfree
  · rcases h.laid.covers.apart ht hu hne with hapart | hapart <;> omega

end Sound

/-! ## Allocation -/

/-- The tiles behind the place that `*next_free` points to. -/
lemma Sound.split_nextFree (h : Sound cfg live c tiles) :
    ∃ l l', tiles = l ++ l' ∧ Laid cfg c.pages 0 c.nextFree l ∧
      Laid cfg c.pages c.nextFree cfg.pageCount l' := by
  rcases h.nextFree with heq | ⟨t, ht, heq⟩
  · refine ⟨tiles, [], (List.append_nil _).symm, ?_, ?_⟩
    · rw [heq]
      exact h.laid
    · rw [heq]
      exact .nil
  · obtain ⟨l, l', rfl, hl, hl'⟩ := h.laid.split_mem ht
    refine ⟨l, t :: l', rfl, ?_, ?_⟩
    · rwa [← heq]
    · rw [← heq]
      exact hl'.cons (h.laid.covers.mem ht).2.1 (h.laid.reads t ht)

/-- A search for pages ends.  The pages that it finds are free, and no live extent has one. -/
lemma findContiguousPages_spec {amount : ℕ} (h : Sound cfg live c tiles) (hamount : 0 < amount) :
    ∃ found c', c.findContiguousPages cfg amount = some (found, c') ∧ (found = none → c' = c) ∧
      ∀ p, found = some p → Laid.Room cfg c.pages amount 0 cfg.pageCount p tiles ∧
        c.nextFree ≤ p ∧
        c' = { c with nextFree := if p = c.nextFree then p + amount else c.nextFree } := by
  obtain ⟨l, l', rfl, hl, hl'⟩ := h.split_nextFree
  have hfuel : l'.length < cfg.pageCount + 1 := by
    have hlength := hl'.covers.length_le
    omega
  obtain ⟨found, hfound, hroom⟩ := Laid.findPages_spec hamount (.nil : Laid cfg c.pages _ _ [])
    .nil (by rintro t ⟨⟩) hl' (.inl ⟨rfl, rfl⟩) hfuel
  unfold Coffee.findContiguousPages
  rw [hfound]
  refine ⟨found, _, rfl, ?_, ?_⟩
  · rintro rfl
    rfl
  · rintro p rfl
    obtain ⟨l₁, m, u, l₂, heq, hl₁, hm, hfree, hkind, hu, hlt, hle, hl₂⟩ := hroom p rfl
    have heq' : l ++ l' = l ++ l₁ ++ (m ++ u :: l₂) := by
      rw [List.append_assoc]
      exact congrArg (l ++ ·) heq
    refine ⟨⟨l ++ l₁, m, u, l₂, heq', hl.append hl₁, hm, hfree, hkind, hu, hlt, hle, hl₂⟩,
      hl₁.covers.le, ?_⟩
    by_cases hp : p = c.nextFree
    · rw [if_pos (congrArg some hp), if_pos hp, hp]
    · rw [if_neg (mt Option.some.inj hp), if_neg hp]

/-- Room for an extent is apart from the live extents. -/
lemma Sound.apart_room {page amount : ℕ} (h : Sound cfg live c tiles)
    (hroom : Laid.Room cfg c.pages amount 0 cfg.pageCount page tiles) (he : e ∈ live) :
    e.1 + e.2 ≤ page ∨ page + amount ≤ e.1 := by
  obtain ⟨l, m, u, l', rfl, hl, hm, hfree, hkind, -, -, hle, hl'⟩ := hroom
  obtain ⟨t, ht, hlive, rfl⟩ := (h.live_iff e).mp he
  simp only [List.mem_append, List.mem_cons] at ht
  rcases ht with ht | ht | rfl | ht
  · exact .inl (hl.covers.mem ht).2.2
  · rw [hfree t ht] at hlive
    cases hlive
  · rw [hkind] at hlive
    cases hlive
  · exact .inr (hle.trans (hl'.covers.mem ht).1)

/-- A new extent takes the place of free pages. -/
lemma Sound.allocate {page amount : ℕ} (h : Sound cfg live c tiles)
    (hroom : Laid.Room cfg c.pages amount 0 cfg.pageCount page tiles) (hamount : 0 < amount)
    (hnext : c.nextFree ≤ page) (hactive : hdr.active = true) (hmax : hdr.maxPages = amount) :
    ∃ tiles, Sound cfg (insert (page, amount) live)
      ({ c with nextFree := if page = c.nextFree then page + amount else c.nextFree }.writeHeader
        hdr page) tiles := by
  obtain ⟨l, rest, l', ⟨m, rfl, hl, hfree⟩, hfree', hlaid⟩ := @Laid.allocate _
    _ (c.writeHeader hdr page).pages _ _ _ _ _ hroom hamount
    (by rwa [Coffee.writeHeader_self]) (by rwa [Coffee.writeHeader_self])
    fun p hp => Coffee.writeHeader_of_ne c hdr page hp
  obtain ⟨k, hl', htail⟩ := hlaid.split
  obtain ⟨rfl, -, -, hrest⟩ := htail.uncons
  refine ⟨_, hlaid, fun x => ?_, ?_⟩
  · have hbehind := @exists_live_append [] l' rest
      (fun t ht hlive => by rw [hfree' t ht] at hlive; cases hlive)
      fun t => x = (t.start, t.len)
    have hbefore := @exists_live_append l l' m
      (fun t ht hlive => by rw [hfree t ht] at hlive; cases hlive) fun t => x = (t.start, t.len)
    rw [Set.mem_insert_iff, h.live_iff x, hbefore]
    constructor
    · rintro (rfl | ⟨t, ht, hlive, hx⟩)
      · exact ⟨_, List.mem_append_right l List.mem_cons_self, rfl, rfl⟩
      · rcases List.mem_append.mp ht with ht | ht
        · exact ⟨t, List.mem_append_left _ ht, hlive, hx⟩
        · obtain ⟨u, hu, hu'⟩ := hbehind.mpr ⟨t, ht, hlive, hx⟩
          exact ⟨u, List.mem_append_right l (List.mem_cons_of_mem _ hu), hu'⟩
    · rintro ⟨t, ht, hlive, hx⟩
      rcases List.mem_append.mp ht with ht | ht
      · exact .inr ⟨t, List.mem_append_left _ ht, hlive, hx⟩
      · rcases List.mem_cons.mp ht with rfl | ht
        · exact .inl hx
        · obtain ⟨u, hu, hu'⟩ := hbehind.mp ⟨t, ht, hlive, hx⟩
          exact .inr ⟨u, List.mem_append_right l hu, hu'⟩
  · rw [Coffee.writeHeader_nextFree]
    dsimp only
    by_cases hp : page = c.nextFree
    · rw [if_pos hp]
      rcases hrest.covers.le.eq_or_lt with heq | hlt
      · exact .inl heq
      · obtain ⟨t, ht, hstart⟩ := hrest.exists_start hlt
        exact .inr ⟨t, List.mem_append_right l (List.mem_cons_of_mem _ ht), hstart⟩
    · -- the tile that `*next_free` points to lies before the new extent
      rw [if_neg hp]
      refine h.nextFree.imp_right ?_
      rintro ⟨t, ht, hstart⟩
      rcases List.mem_append.mp ht with ht | ht
      · exact ⟨t, List.mem_append_left _ ht, hstart⟩
      · obtain ⟨k, hbefore, hbehind⟩ := h.laid.split
        have hsum := hl.covers.sum
        have hsum' := hbefore.covers.sum
        have hle := (hbehind.covers.mem ht).1
        omega

/-- The live extents and their pages stay as they are. -/
structure Coffee.Keeps (c c' : Coffee) : Prop where
  live : c'.live = c.live
  pages : ∀ e ∈ c.extents, ∀ p, e.1 ≤ p → p < e.1 + e.2 → c'.pages p = c.pages p

lemma Coffee.Keeps.refl (c : Coffee) : c.Keeps c := ⟨rfl, fun _ _ _ _ _ => rfl⟩

lemma Coffee.Keeps.extents {c c' : Coffee} (h : c.Keeps c') : c'.extents = c.extents := by
  unfold Coffee.extents
  rw [h.live]

/-- The search for pages, and the search after a collection. -/
lemma reservePages_spec {amount : ℕ} (h : Sound cfg c.extents c tiles) (hamount : 0 < amount)
    (hsafe : c.Collects cfg amount → c.GcSafe cfg .greedy) :
    ∃ found c₁ c' tiles, c.reservePages cfg amount = some (found, c') ∧ c.Keeps c₁ ∧
      Sound cfg c₁.extents c₁ tiles ∧ (found = none → ∃ wait, c' = { c₁ with gcWait := wait }) ∧
      ∀ p, found = some p → Laid.Room cfg c₁.pages amount 0 cfg.pageCount p tiles ∧
        c₁.nextFree ≤ p ∧
        c' = { c₁ with nextFree := if p = c₁.nextFree then p + amount else c₁.nextFree } := by
  obtain ⟨found, c', hfind, hnone, hsome⟩ := findContiguousPages_spec h hamount
  rw [Coffee.reservePages, hfind]
  cases found with
  | some p => exact ⟨_, c, c', tiles, rfl, .refl c, h, by rintro ⟨⟩, hsome⟩
  | none =>
    obtain rfl := hnone rfl
    dsimp only
    by_cases hwait : c'.gcWait = true
    · rw [if_pos hwait]
      exact ⟨none, c', c', tiles, rfl, .refl c', h, fun _ => ⟨_, rfl⟩, by rintro p ⟨⟩⟩
    · rw [if_neg hwait]
      obtain ⟨c₁, erased, hcollect, hextents, ⟨tiles₁, hsound⟩, -, hsame⟩ :=
        h.collectGarbage (hsafe ⟨⟨c', hfind⟩, eq_false_of_ne_true hwait⟩)
      have hkeeps : c'.Keeps c₁ := ⟨collectSectors_live hcollect, hsame⟩
      obtain ⟨found, c₂, hfind', hnone', hsome'⟩ := findContiguousPages_spec hsound hamount
      rw [hcollect]
      dsimp only
      rw [hfind']
      cases found with
      | some p => exact ⟨_, c₁, c₂, tiles₁, rfl, hkeeps, hsound, by rintro ⟨⟩, hsome'⟩
      | none =>
        obtain rfl := hnone' rfl
        exact ⟨none, c₂, _, tiles₁, rfl, hkeeps, hsound, fun _ => ⟨true, rfl⟩, by rintro p ⟨⟩⟩

/-- A reservation ends.  A new extent is apart from the live ones. -/
lemma reserve_spec {amount : ℕ} {name : String} {flags : HdrFlags}
    (h : Sound cfg c.extents c tiles) (hamount : 0 < amount)
    (hsafe : c.Collects cfg amount → c.GcSafe cfg .greedy) (hobsolete : flags.obsolete = false)
    (hisolated : flags.isolated = false) :
    ∃ found c', c.reserve cfg name amount flags = some (found, c') ∧
      (∃ tiles, Sound cfg c'.extents c' tiles) ∧
      (∀ e ∈ c.extents, ∀ p, e.1 ≤ p → p < e.1 + e.2 → c'.pages p = c.pages p) ∧
      (found = none → c'.extents = c.extents) ∧
      ∀ page, found = some page → c'.extents = insert (page, amount) c.extents ∧
        (∀ e ∈ c.extents, e.1 + e.2 ≤ page ∨ page + amount ≤ e.1) ∧
        (c'.pages page).flags = { flags with allocated := true, valid := true } := by
  obtain ⟨found, c₁, c', tiles₁, hres, hkeeps, hsound, hnone, hsome⟩ :=
    reservePages_spec h hamount hsafe
  have hextents := hkeeps.extents
  rw [Coffee.reserve, hres, Option.map_some]
  cases found with
  | none =>
    obtain ⟨wait, rfl⟩ := hnone rfl
    refine ⟨none, _, rfl, ⟨tiles₁, hsound.laid, hsound.live_iff, hsound.nextFree⟩, ?_, ?_, ?_⟩
    · exact hkeeps.pages
    · intro _
      exact hextents
    · rintro page ⟨⟩
  | some page =>
    obtain ⟨hroom, hnext, rfl⟩ := hsome page rfl
    dsimp only
    let hdr : FileHeader := { name := (name.take (cfg.nameLength - 1)).toString,
                              maxPages := amount, flags := { flags with allocated := true } }
    have hactive : hdr.active = true := by
      show (true && !flags.obsolete && !flags.isolated) = true
      rw [hobsolete, hisolated]
      rfl
    obtain ⟨tiles₂, hsound₂⟩ := hsound.allocate hroom hamount hnext hactive rfl
    have hapart : ∀ e ∈ c.extents, e.1 + e.2 ≤ page ∨ page + amount ≤ e.1 :=
      fun e he => hsound.apart_room hroom (hextents ▸ he)
    have hins : ({ c₁ with live := (page, amount) :: c₁.live } : Coffee).extents =
        insert (page, amount) c.extents := by
      rw [← hextents]
      ext e
      exact List.mem_cons
    refine ⟨some page, _, rfl, ⟨tiles₂, ?_, ?_, ?_⟩, ?_, by rintro ⟨⟩, ?_⟩
    · exact hsound₂.laid
    · intro e
      refine Iff.trans ?_ (hsound₂.live_iff e)
      show e ∈ ({ c₁ with live := (page, amount) :: c₁.live } : Coffee).extents ↔ _
      rw [hins, hextents]
    · exact hsound₂.nextFree
    · intro e he p hle hlt
      refine Eq.trans (Coffee.writeHeader_of_ne _ _ _ ?_) (hkeeps.pages e he p hle hlt)
      rcases hapart e he with hle' | hle' <;> omega
    · rintro p ⟨⟩
      refine ⟨hins, hapart, ?_⟩
      show ((Coffee.writeHeader _ hdr page).pages page).flags = _
      rw [Coffee.writeHeader_self]

end

/-! ## Files and their logs -/

/-- A file that was modified has a live log of its own. -/
structure Logs (live : Set (ℕ × ℕ)) (pages : ℕ → FileHeader) : Prop where
  log : ∀ e ∈ live, (pages e.1).flags.modified = true → (pages e.1).flags.log = false ∧
    (pages (pages e.1).logPage).flags.log = true ∧ ∃ n, ((pages e.1).logPage, n) ∈ live
  inj : ∀ e ∈ live, ∀ e' ∈ live, (pages e.1).flags.modified = true →
    (pages e'.1).flags.modified = true → (pages e.1).logPage = (pages e'.1).logPage → e.1 = e'.1

/-- Two headers say the same about logs. -/
structure FileHeader.SameLog (hdr hdr' : FileHeader) : Prop where
  modified : hdr'.flags.modified = hdr.flags.modified
  log : hdr'.flags.log = hdr.flags.log
  logPage : hdr'.logPage = hdr.logPage

lemma FileHeader.SameLog.of_eq {hdr hdr' : FileHeader} (h : hdr' = hdr) : hdr.SameLog hdr' := by
  subst h
  exact ⟨rfl, rfl, rfl⟩

namespace Logs
variable {live live' : Set (ℕ × ℕ)} {pages pages' : ℕ → FileHeader} {e : ℕ × ℕ}

/-- Extents are removed, but no log of a file that stays. -/
lemma restrict (h : Logs live pages) (hsub : live' ⊆ live)
    (hsame : ∀ e ∈ live', (pages e.1).SameLog (pages' e.1))
    (hkeep : ∀ e ∈ live', (pages e.1).flags.modified = true → ∀ n,
      ((pages e.1).logPage, n) ∈ live → ((pages e.1).logPage, n) ∈ live') : Logs live' pages' := by
  refine ⟨fun e he hmodified => ?_, fun e he e' he' hmodified hmodified' heq => ?_⟩
  · have hhead := hsame e he
    rw [hhead.modified] at hmodified
    obtain ⟨hfile, hlog, n, hn⟩ := h.log e (hsub he) hmodified
    have hn' := hkeep e he hmodified n hn
    rw [hhead.log, hhead.logPage]
    exact ⟨hfile, by rw [(hsame _ hn').log, hlog], n, hn'⟩
  · have hhead := hsame e he
    have hhead' := hsame e' he'
    rw [hhead.modified] at hmodified
    rw [hhead'.modified] at hmodified'
    rw [hhead.logPage, hhead'.logPage] at heq
    exact h.inj e (hsub he) e' (hsub he') hmodified hmodified' heq

lemma congr (h : Logs live pages) (hsame : ∀ e ∈ live, (pages e.1).SameLog (pages' e.1)) :
    Logs live pages' :=
  h.restrict subset_rfl hsame fun _ _ _ _ hn => hn

/-- A new extent without a log. -/
lemma insert (h : Logs live pages) (hnew : (pages e.1).flags.modified = false) :
    Logs (insert e live) pages := by
  refine ⟨fun x hx hmodified => ?_, fun x hx y hy hmodified hmodified' heq => ?_⟩
  · rcases hx with rfl | hx
    · rw [hnew] at hmodified
      cases hmodified
    · obtain ⟨hfile, hlog, n, hn⟩ := h.log x hx hmodified
      exact ⟨hfile, hlog, n, .inr hn⟩
  · rcases hx with rfl | hx
    · rw [hnew] at hmodified
      cases hmodified
    · rcases hy with rfl | hy
      · rw [hnew] at hmodified'
        cases hmodified'
      · exact h.inj x hx y hy hmodified hmodified' heq

/-- A file gets a log that no other file has. -/
lemma link {logPage n : ℕ} (h : Logs live pages) (he : (pages e.1).flags.log = false)
    (hlive : (logPage, n) ∈ live) (hlog : (pages logPage).flags.log = true)
    (hfresh : ∀ x ∈ live, (pages x.1).flags.modified = true → (pages x.1).logPage ≠ logPage)
    (hsame : ∀ p, p ≠ e.1 → pages' p = pages p) (hfile : (pages' e.1).flags.log = false)
    (hpage : (pages' e.1).logPage = logPage) : Logs live pages' := by
  have hkept : ∀ p, (pages p).flags.log = true → pages' p = pages p := by
    intro p hp
    apply hsame
    rintro rfl
    rw [he] at hp
    cases hp
  refine ⟨fun x hx hmodified => ?_, fun x hx y hy hmodified hmodified' heq => ?_⟩
  · by_cases hxe : x.1 = e.1
    · rw [hxe, hpage]
      exact ⟨hfile, by rw [hkept logPage hlog, hlog], n, hlive⟩
    · rw [hsame x.1 hxe] at hmodified ⊢
      obtain ⟨hfile, hlog, n, hn⟩ := h.log x hx hmodified
      exact ⟨hfile, by rw [hkept _ hlog, hlog], n, hn⟩
  · by_cases hxe : x.1 = e.1
    · by_cases hye : y.1 = e.1
      · rw [hxe, hye]
      · rw [hsame y.1 hye] at hmodified' heq
        rw [hxe, hpage] at heq
        exact absurd heq.symm (hfresh y hy hmodified')
    · rw [hsame x.1 hxe] at hmodified heq
      by_cases hye : y.1 = e.1
      · rw [hye, hpage] at heq
        exact absurd heq (hfresh x hx hmodified)
      · rw [hsame y.1 hye] at hmodified' heq
        exact h.inj x hx y hy hmodified hmodified' heq

end Logs

/-! ## What every operation keeps -/

/-- The live extents are where the scan finds them, and the logs belong to their files. -/
structure Coffee.Intact (cfg : CoffeeConfig) (c : Coffee) : Prop where
  sound : ∃ tiles, Sound cfg c.extents c tiles
  logs : Logs c.extents c.pages

/-- A file, by its first page. -/
def Coffee.IsFile (c : Coffee) (page : ℕ) : Prop :=
  (∃ n, (page, n) ∈ c.extents) ∧ (c.pages page).flags.log = false

section
variable {cfg : CoffeeConfig} {c : Coffee} {e : ℕ × ℕ} {page : ℕ}

lemma markObsolete_extents (c : Coffee) (hdr : FileHeader) (page : ℕ) :
    (c.markObsolete hdr page).extents = {x ∈ c.extents | x.1 ≠ page} := by
  ext x
  show x ∈ c.live.filter (fun e => e.1 ≠ page) ↔ x ∈ c.live ∧ x.1 ≠ page
  rw [List.mem_filter, decide_eq_true_iff]

/-- The removal of a live extent succeeds. -/
lemma removePage_spec (hactive : (c.pages page).active = true) :
    c.removePage page = (true, c.markObsolete (c.pages page) page) := by
  unfold Coffee.removePage
  rw [if_pos hactive]

/-- The removal of a file succeeds, and keeps the other files. -/
lemma Coffee.Intact.removeByPage (h : c.Intact cfg) (hfile : c.IsFile page) :
    ∃ c', c.removeByPage page = (true, c') ∧ c'.Intact cfg ∧
      ∀ x ∈ c.extents, x.1 ≠ page → (c.pages x.1).flags.log = false →
        x ∈ c'.extents ∧ c'.pages x.1 = c.pages x.1 := by
  obtain ⟨⟨tiles, hsound⟩, hlogs⟩ := h
  obtain ⟨⟨n, hlive⟩, hfile⟩ := hfile
  have hactive := (hsound.head hlive).1
  unfold Coffee.removeByPage
  dsimp only at hactive ⊢
  by_cases hmodified : (c.pages page).flags.modified = true
  · rw [if_pos ⟨hactive, hmodified⟩]
    obtain ⟨-, hlog, m, hm⟩ := hlogs.log (page, n) hlive hmodified
    dsimp only at hlog hm
    have hne : page ≠ (c.pages page).logPage := by
      intro heq
      rw [← heq, hfile] at hlog
      cases hlog
    rw [removePage_spec (hsound.head hm).1]
    dsimp only
    set logPage := (c.pages page).logPage with hlogPage
    set c₁ := c.markObsolete (c.pages logPage) logPage with hc₁
    have hother : ∀ p, p ≠ logPage → c₁.pages p = c.pages p :=
      fun p hp => Coffee.writeHeader_of_ne _ _ _ hp
    obtain ⟨tiles₁, hsound₁⟩ := hsound.markObsolete hm rfl
    dsimp only at hsound₁
    rw [← hc₁] at hsound₁
    obtain ⟨tiles₂, hsound₂⟩ := @Sound.markObsolete _ _ _ _ (page, n)
      (c.pages page) hsound₁ ⟨hlive, hne⟩ (hother page hne).symm
    dsimp only at hsound₂
    have hextents : (c₁.markObsolete (c.pages page) page).extents =
        {x ∈ {x ∈ c.extents | x.1 ≠ logPage} | x.1 ≠ page} := by
      rw [markObsolete_extents, hc₁, markObsolete_extents]
    have hpages : ∀ p, p ≠ page → p ≠ logPage →
        (c₁.markObsolete (c.pages page) page).pages p = c.pages p :=
      fun p hp hp' => (Coffee.writeHeader_of_ne _ _ _ hp).trans (hother p hp')
    refine ⟨_, rfl, ⟨⟨tiles₂, by rwa [hextents]⟩, ?_⟩, fun x hx hxne hxfile => ?_⟩
    · rw [hextents]
      refine hlogs.restrict (fun x hx => hx.1.1) (fun x hx => ?_) fun x hx hxmod k hk => ?_
      · exact .of_eq (hpages x.1 hx.2 hx.1.2)
      · refine ⟨⟨hk, fun heq => hx.2 ?_⟩, fun heq => ?_⟩
        · exact hlogs.inj x hx.1.1 (page, n) hlive hxmod hmodified heq
        · have hxlog := (hlogs.log x hx.1.1 hxmod).2.1
          dsimp only at heq
          rw [heq, hfile] at hxlog
          cases hxlog
    · have hxlog : x.1 ≠ logPage := by
        intro heq
        rw [heq, hlog] at hxfile
        cases hxfile
      refine ⟨?_, hpages x.1 hxne hxlog⟩
      rw [hextents]
      exact ⟨⟨hx, hxlog⟩, hxne⟩
  · rw [if_neg fun hand => hmodified hand.2, removePage_spec hactive]
    obtain ⟨tiles₁, hsound₁⟩ := hsound.markObsolete hlive rfl
    dsimp only at hsound₁
    have hextents := markObsolete_extents c (c.pages page) page
    have hpages : ∀ p, p ≠ page → (c.markObsolete (c.pages page) page).pages p = c.pages p :=
      fun p hp => Coffee.writeHeader_of_ne _ _ _ hp
    refine ⟨_, rfl, ⟨⟨tiles₁, by rwa [hextents]⟩, ?_⟩, fun x hx hxne _ => ?_⟩
    · rw [hextents]
      refine hlogs.restrict (fun x hx => hx.1) (fun x hx => .of_eq (hpages x.1 hx.2))
        fun x hx hxmod k hk => ⟨hk, fun heq => ?_⟩
      have hxlog := (hlogs.log x hx.1 hxmod).2.1
      dsimp only at heq
      rw [heq, hfile] at hxlog
      cases hxlog
    · refine ⟨?_, hpages x.1 hxne⟩
      rw [hextents]
      exact ⟨hx, hxne⟩

/-- A reservation keeps the files, and a new extent is no file's log. -/
lemma Coffee.Intact.reserve {amount : ℕ} {name : String} {flags : HdrFlags} (h : c.Intact cfg)
    (hamount : 0 < amount) (hsafe : c.Collects cfg amount → c.GcSafe cfg .greedy)
    (hobsolete : flags.obsolete = false) (hisolated : flags.isolated = false)
    (hmodified : flags.modified = false) :
    ∃ found c', c.reserve cfg name amount flags = some (found, c') ∧ c'.Intact cfg ∧
      (∀ x ∈ c.extents, x ∈ c'.extents ∧ c'.pages x.1 = c.pages x.1) ∧
      ∀ new, found = some new → c'.extents = insert (new, amount) c.extents ∧
        (∀ x ∈ c.extents, x.1 ≠ new) ∧
        (c'.pages new).flags = { flags with allocated := true, valid := true } := by
  obtain ⟨⟨tiles, hsound⟩, hlogs⟩ := h
  obtain ⟨found, c', hres, hsound', hpages, hnone, hsome⟩ :=
    reserve_spec hsound hamount hsafe hobsolete hisolated
  have hheads : ∀ x ∈ c.extents, c'.pages x.1 = c.pages x.1 := by
    intro x hx
    apply hpages x hx x.1 (Nat.le_refl _)
    have hpos := (hsound.head hx).2.2.1
    omega
  have hlogs' : Logs c.extents c'.pages := hlogs.congr fun x hx => .of_eq (hheads x hx)
  cases found with
  | none =>
    have hextents := hnone rfl
    refine ⟨none, c', hres, ⟨hsound', by rwa [hextents]⟩, fun x hx => ⟨?_, hheads x hx⟩, ?_⟩
    · rwa [hextents]
    · rintro new ⟨⟩
  | some new =>
    obtain ⟨hextents, hapart, hflags⟩ := hsome new rfl
    refine ⟨some new, c', hres, ⟨hsound', ?_⟩, fun x hx => ⟨?_, hheads x hx⟩, ?_⟩
    · rw [hextents]
      apply hlogs'.insert
      dsimp only
      rw [hflags]
      exact hmodified
    · rw [hextents]
      exact .inr hx
    · rintro _ ⟨⟩
      refine ⟨hextents, fun x hx heq => ?_, hflags⟩
      have hpos := (hsound.head hx).2.2.1
      rcases hapart x hx with hle | hle <;> omega

/-- The header of a file is written again, and says the same about logs. -/
lemma Coffee.Intact.writeHeader {hdr : FileHeader} (h : c.Intact cfg)
    (hlive : ∃ n, (page, n) ∈ c.extents) (hactive : hdr.active = (c.pages page).active)
    (hmax : hdr.maxPages = (c.pages page).maxPages) (hlog : (c.pages page).SameLog hdr) :
    (c.writeHeader hdr page).Intact cfg := by
  obtain ⟨⟨tiles, hsound⟩, hlogs⟩ := h
  obtain ⟨n, hlive⟩ := hlive
  obtain ⟨hactive', hmax', -, -⟩ := hsound.head hlive
  refine ⟨⟨tiles, hsound.writeHeader hlive (hactive.trans hactive') (hmax.trans hmax')⟩, ?_⟩
  refine hlogs.congr fun x _ => ?_
  by_cases hx : x.1 = page
  · rw [hx, Coffee.writeHeader_self]
    exact ⟨hlog.modified, hlog.log, hlog.logPage⟩
  · exact .of_eq (Coffee.writeHeader_of_ne c hdr page hx)

/-- Data is written behind the header of a live extent. -/
lemma Coffee.Intact.writeData (h : c.Intact cfg) (he : e ∈ c.extents) (data : ℕ → FileHeader) :
    (c.writeData e.1 e.2 data).Intact cfg ∧
      ∀ x ∈ c.extents, (c.writeData e.1 e.2 data).pages x.1 = c.pages x.1 := by
  obtain ⟨⟨tiles, hsound⟩, hlogs⟩ := h
  have hheads : ∀ x ∈ c.extents, (c.writeData e.1 e.2 data).pages x.1 = c.pages x.1 := by
    intro x hx
    apply if_neg
    rintro ⟨hlow, hhigh⟩
    by_cases hxe : x = e
    · subst hxe
      omega
    · have hpos := (hsound.head hx).2.2.1
      rcases hsound.apart hx he hxe with hle | hle <;> omega
  refine ⟨⟨⟨tiles, hsound.writeData he data⟩, ?_⟩, hheads⟩
  exact hlogs.congr fun x hx => .of_eq (hheads x hx)

/-- The creation of a log. -/
lemma Coffee.Intact.createLog {logPages : ℕ} {loaded : Bool} (h : c.Intact cfg)
    (hfile : c.IsFile page) (hpages : 0 < logPages)
    (hsafe : c.Collects cfg logPages → c.GcSafe cfg .greedy) :
    ∃ res, c.createLog cfg page logPages loaded = some res ∧ res.2.Intact cfg := by
  obtain ⟨found, c', hres, hintact, hkept, hsome⟩ := @Coffee.Intact.reserve _ _ _ (c.pages page).name { log := true } h
    hpages hsafe rfl rfl rfl
  unfold Coffee.createLog
  dsimp only
  rw [hres, Option.map_some]
  cases found with
  | none => exact ⟨_, rfl, hintact⟩
  | some logPage =>
    cases loaded with
    | false => exact ⟨_, rfl, hintact⟩
    | true =>
      refine ⟨_, rfl, ?_⟩
      show (c'.writeHeader _ page).Intact cfg
      obtain ⟨⟨n, hlive⟩, hnolog⟩ := hfile
      obtain ⟨hlive', hhead⟩ := hkept (page, n) hlive
      obtain ⟨hnew, hfresh, hflags⟩ := hsome logPage rfl
      obtain ⟨⟨tiles, hsound⟩, hlogs⟩ := hintact
      obtain ⟨hactive, hmax, -, -⟩ := hsound.head hlive'
      dsimp only at hhead hactive hmax
      rw [hhead] at hactive hmax
      refine ⟨⟨tiles, hsound.writeHeader hlive' hactive hmax⟩, ?_⟩
      have hin : (logPage, logPages) ∈ c'.extents := by
        rw [hnew]
        exact .inl rfl
      refine hlogs.link (e := (page, n)) ?_ hin ?_ (fun x hx hxmod heq => ?_)
        (fun p hp => Coffee.writeHeader_of_ne _ _ _ hp) ?_ ?_
      · dsimp only
        rw [hhead, hnolog]
      · rw [hflags]
      · -- the log of another file is older
        replace hx : x ∈ insert (logPage, logPages) c.extents := hnew ▸ hx
        rcases hx with rfl | hx
        · rw [hflags] at hxmod
          cases hxmod
        · rw [(hkept x hx).2] at hxmod heq
          obtain ⟨-, -, m, hm⟩ := h.logs.log x hx hxmod
          exact hfresh _ hm heq
      · rw [Coffee.writeHeader_self]
        exact hnolog
      · rw [Coffee.writeHeader_self]

/-- The merge of a file with its log. -/
lemma Coffee.Intact.mergeLog {extend : ℕ} {loaded : Bool} {data : ℕ → FileHeader}
    (h : c.Intact cfg) (hfile : c.IsFile page)
    (hsafe : c.Collects cfg ((c.pages page).maxPages <<< extend) → c.GcSafe cfg .greedy) :
    ∃ res, c.mergeLog cfg page extend loaded data = some res ∧ res.2.Intact cfg := by
  obtain ⟨⟨n, hlive⟩, hnolog⟩ := hfile
  have hamount : 0 < (c.pages page).maxPages <<< extend := by
    obtain ⟨tiles, hsound⟩ := h.sound
    obtain ⟨-, hmax, hpos, -⟩ := hsound.head hlive
    dsimp only at hmax hpos
    rw [Nat.shiftLeft_eq, hmax]
    exact Nat.mul_pos hpos (Nat.two_pow_pos extend)
  obtain ⟨found, c', hres, hintact, hkept, hsome⟩ := @Coffee.Intact.reserve _ _ _ (c.pages page).name {} h
    hamount hsafe rfl rfl rfl
  unfold Coffee.mergeLog
  dsimp only
  rw [hres, Option.map_some]
  cases found with
  | none => exact ⟨_, rfl, hintact⟩
  | some new =>
    cases loaded with
    | false => exact ⟨_, rfl, hintact⟩
    | true =>
      obtain ⟨hextents, hfresh, hflags⟩ := hsome new rfl
      obtain ⟨hlive', hhead⟩ := hkept (page, n) hlive
      have hnew : (new, (c.pages page).maxPages <<< extend) ∈ c'.extents := by
        rw [hextents]
        exact .inl rfl
      obtain ⟨hdata, hdataHeads⟩ := hintact.writeData hnew data
      have hne : new ≠ page := fun heq => hfresh (page, n) hlive heq.symm
      have hfile' : (c'.writeData new ((c.pages page).maxPages <<< extend) data).IsFile page := by
        refine ⟨⟨n, hlive'⟩, ?_⟩
        rw [hdataHeads (page, n) hlive', hhead]
        exact hnolog
      obtain ⟨c₂, hremove, hintact₂, hother⟩ := hdata.removeByPage hfile'
      obtain ⟨hnew₂, -⟩ := hother _ hnew hne (by rw [hdataHeads _ hnew, hflags])
      dsimp only
      rw [if_pos rfl, hremove]
      exact ⟨_, rfl, hintact₂.writeHeader ⟨_, hnew₂⟩ rfl rfl ⟨rfl, rfl, rfl⟩⟩

/-! ## Operations -/

/-- What the callers of an operation see to. -/
def Coffee.Op.Applies (c : Coffee) : Coffee.Op → Prop
  | .create _ pages => 0 < pages
  | .createLog page logPages _ => 0 < logPages ∧ c.IsFile page
  | .merge page _ _ _ => c.IsFile page
  | .remove page => c.IsFile page
  | .configureLog page _ _ => c.IsFile page
  | .write page _ => ∃ n, (page, n) ∈ c.extents
  | .collect _ => True

/-- No garbage collection of the operation takes pages from an extent whose header stays. -/
def Coffee.Op.Safe (cfg : CoffeeConfig) (c : Coffee) : Coffee.Op → Prop
  | .create _ pages => c.Collects cfg pages → c.GcSafe cfg .greedy
  | .createLog _ logPages _ => c.Collects cfg logPages → c.GcSafe cfg .greedy
  | .merge page extend _ _ =>
    c.Collects cfg ((c.pages page).maxPages <<< extend) → c.GcSafe cfg .greedy
  | .collect mode => c.GcSafe cfg mode
  | _ => True

/-- A safe operation ends, and keeps the files. -/
lemma Coffee.Intact.apply {op : Coffee.Op} (h : c.Intact cfg) (happlies : op.Applies c)
    (hsafe : op.Safe cfg c) : ∃ c', c.apply cfg op = some c' ∧ c'.Intact cfg := by
  cases op with
  | create name pages =>
    obtain ⟨found, c', hres, hintact, -, -⟩ :=
      @Coffee.Intact.reserve _ _ _ _ {} h happlies hsafe rfl rfl rfl
    exact ⟨c', by rw [Coffee.apply, hres]; rfl, hintact⟩
  | createLog page logPages loaded =>
    obtain ⟨res, hres, hintact⟩ :=
      h.createLog happlies.2 happlies.1 hsafe
    exact ⟨res.2, by rw [Coffee.apply, hres]; rfl, hintact⟩
  | merge page extend loaded data =>
    obtain ⟨res, hres, hintact⟩ := h.mergeLog happlies hsafe
    exact ⟨res.2, by rw [Coffee.apply, hres]; rfl, hintact⟩
  | remove page =>
    obtain ⟨c', hres, hintact, -⟩ := h.removeByPage happlies
    exact ⟨c', by rw [Coffee.apply, hres], hintact⟩
  | configureLog page logRecords logRecordSize =>
    refine ⟨_, rfl, ?_⟩
    unfold Coffee.configureLog
    dsimp only
    split_ifs
    · exact h
    · exact h.writeHeader happlies.1 rfl rfl ⟨rfl, rfl, rfl⟩
  | write page data =>
    obtain ⟨n, hn⟩ := happlies
    obtain ⟨tiles, hsound⟩ := h.sound
    refine ⟨_, rfl, ?_⟩
    rw [(hsound.head hn).2.1]
    exact (h.writeData hn data).1
  | collect mode =>
    obtain ⟨tiles, hsound⟩ := h.sound
    obtain ⟨c', erased, hres, hextents, hsound', -, hsame⟩ := hsound.collectGarbage hsafe
    refine ⟨c', by rw [Coffee.apply, hres]; rfl, hsound', ?_⟩
    rw [hextents]
    refine h.logs.congr fun x hx => .of_eq (hsame x hx x.1 (Nat.le_refl _) ?_)
    have hpos := (hsound.head hx).2.2.1
    omega

/-- An operation as a step; a loop that does not end is an error. -/
def Coffee.step (cfg : CoffeeConfig) (c : Coffee) (op : Coffee.Op) : Except Unit Coffee :=
  match c.apply cfg op with
  | some c' => .ok c'
  | none => .error ()

end

/-- The state after an operation that ends. -/
def Coffee.after (cfg : CoffeeConfig) (c : Coffee) (op : Coffee.Op) : Coffee :=
  (c.apply cfg op).getD c

end Contiki

import Contiki.Cfs.Coffee
import Contiki.Lib.Tiles

/-!
# The layout of the pages

The scan of `next_file` divides the pages into tiles: extents, live or obsolete, isolated pages, and
the free rest of a sector.  `Laid` says that the tiles cover all pages and that each begins with the
header that makes the scan take it for what it is.

* `Laid.nextFile_eq` — the scan goes from tile to tile.
* `Laid.findPages_spec` — a search for free pages ends, and finds free tiles.
-/

namespace Contiki

/-! ## Tiles -/

/-- What the scan takes pages for. -/
inductive TileKind
  | free | isolated | obsolete | live
deriving DecidableEq

/-- Some pages in a row. -/
structure Tile where
  kind : TileKind
  start : ℕ
  len : ℕ

/-- The first page behind the sector of a page. -/
def CoffeeConfig.sectorEnd (cfg : CoffeeConfig) (page : ℕ) : ℕ :=
  (page + cfg.pagesPerSector) / cfg.pagesPerSector * cfg.pagesPerSector

/-- The headers make the scan take the tile for what it is. -/
def Tile.Reads (cfg : CoffeeConfig) (pages : ℕ → FileHeader) (t : Tile) : Prop :=
  match t.kind with
  | .free =>
    t.start + t.len = cfg.sectorEnd t.start ∧
      ∀ p, t.start ≤ p → p < t.start + t.len → (pages p).flags = {}
  | .isolated => t.len = 1 ∧ (pages t.start).free = false ∧ (pages t.start).flags.isolated = true
  | .obsolete =>
    t.len = (pages t.start).maxPages ∧ (pages t.start).free = false ∧
      (pages t.start).flags.isolated = false ∧ (pages t.start).flags.obsolete = true
  | .live => t.len = (pages t.start).maxPages ∧ (pages t.start).active = true

/-- The tiles cover the pages from `a` to `b`. -/
structure Laid (cfg : CoffeeConfig) (pages : ℕ → FileHeader) (a b : ℕ) (tiles : List Tile) :
    Prop where
  covers : Tiles Tile.start Tile.len a b tiles
  reads : ∀ t ∈ tiles, t.Reads cfg pages

/-- The tiles of the pages, when the extents in `live` are allocated and not removed. -/
structure Sound (cfg : CoffeeConfig) (live : Set (ℕ × ℕ)) (c : Coffee) (tiles : List Tile) :
    Prop where
  laid : Laid cfg c.pages 0 cfg.pageCount tiles
  live_iff : ∀ e, e ∈ live ↔ ∃ t ∈ tiles, t.kind = .live ∧ e = (t.start, t.len)
  nextFree : c.nextFree = cfg.pageCount ∨ ∃ t ∈ tiles, t.start = c.nextFree

namespace CoffeeConfig
variable (cfg : CoffeeConfig)

lemma sectorEnd_eq (page : ℕ) :
    cfg.sectorEnd page = (page / cfg.pagesPerSector + 1) * cfg.pagesPerSector := by
  rw [sectorEnd, Nat.add_div_right page cfg.pagesPerSector_pos]

/-- The pages of a sector have its end in common. -/
lemma sectorEnd_of_mem {page p : ℕ} (hle : page ≤ p) (hlt : p < cfg.sectorEnd page) :
    cfg.sectorEnd p = cfg.sectorEnd page := by
  have hdiv : p / cfg.pagesPerSector = page / cfg.pagesPerSector := by
    rw [sectorEnd_eq] at hlt
    apply Nat.le_antisymm
    · exact Nat.le_of_lt_succ (Nat.div_lt_of_lt_mul (by rwa [Nat.mul_comm] at hlt))
    · exact Nat.div_le_div_right hle
  rw [sectorEnd_eq, sectorEnd_eq, hdiv]

end CoffeeConfig

namespace Tile
variable {cfg : CoffeeConfig} {pages pages' : ℕ → FileHeader} {t : Tile}

/-- Of an extent, only the first page counts. -/
lemma Reads.congr (h : t.Reads cfg pages) (hpos : 0 < t.len)
    (hagree : ∀ p, t.start ≤ p → p < t.start + t.len → p = t.start ∨ t.kind = .free →
      pages' p = pages p) : t.Reads cfg pages' := by
  have hfirst : pages' t.start = pages t.start := by
    apply hagree
    · exact Nat.le_refl t.start
    · omega
    · exact .inl rfl
  unfold Reads at h ⊢
  split at h
  · rename_i hkind
    refine ⟨h.1, fun p hle hlt => ?_⟩
    rw [hagree p hle hlt (.inr hkind)]
    exact h.2 p hle hlt
  all_goals rw [hfirst]; exact h

lemma Reads.free_iff (h : t.Reads cfg pages) (hpos : 0 < t.len) :
    (pages t.start).free = true ↔ t.kind = .free := by
  unfold Reads at h
  split at h
  · rename_i hkind
    have hflags := h.2 t.start (Nat.le_refl t.start) (by omega)
    simp [FileHeader.free, hflags, hkind]
  · rename_i hkind
    simp [h.2.1, hkind]
  · rename_i hkind
    simp [h.2.1, hkind]
  · rename_i hkind
    have hactive := h.2
    simp only [FileHeader.active, Bool.and_eq_true] at hactive
    simp [FileHeader.free, hactive.1.1, hkind]

/-- The scan goes from the beginning of a tile to its end. -/
lemma Reads.nextFile_eq (h : t.Reads cfg pages) (hpos : 0 < t.len) :
    Coffee.nextFile cfg t.start (pages t.start) = t.start + t.len := by
  have hfree := h.free_iff hpos
  unfold Coffee.nextFile
  unfold Reads at h
  split at h
  · rename_i hkind
    rw [if_pos (hfree.mpr hkind), h.1, Coffee.clearBits_sector]
    rfl
  · obtain ⟨hlen, hfree', hisolated⟩ := h
    rw [if_neg (by simp [hfree']), if_pos hisolated, hlen]
  · obtain ⟨hlen, hfree', hisolated, -⟩ := h
    rw [if_neg (by simp [hfree']), if_neg (by simp [hisolated]), hlen]
  · obtain ⟨hlen, hactive⟩ := h
    simp only [FileHeader.active, Bool.and_eq_true, Bool.not_eq_true'] at hactive
    rw [if_neg (by simp [FileHeader.free, hactive.1.1]), if_neg (by simp [hactive.2]), hlen]

end Tile

namespace Laid
variable {cfg : CoffeeConfig} {pages pages' : ℕ → FileHeader} {a b k : ℕ} {tiles l l' : List Tile}
  {t : Tile}

lemma nil : Laid cfg pages a a [] := ⟨rfl, fun _ h => nomatch h⟩

lemma cons (h : Laid cfg pages (t.start + t.len) b l) (hpos : 0 < t.len) (ht : t.Reads cfg pages) :
    Laid cfg pages t.start b (t :: l) := by
  refine ⟨⟨rfl, hpos, h.covers⟩, ?_⟩
  rintro u hu
  rcases List.mem_cons.mp hu with rfl | hu
  · exact ht
  · exact h.reads u hu

lemma append (h : Laid cfg pages a k l) (h' : Laid cfg pages k b l') :
    Laid cfg pages a b (l ++ l') := by
  refine ⟨h.covers.append h'.covers, ?_⟩
  intro u hu
  rcases List.mem_append.mp hu with hu | hu
  · exact h.reads u hu
  · exact h'.reads u hu

lemma split (h : Laid cfg pages a b (l ++ l')) :
    ∃ k, Laid cfg pages a k l ∧ Laid cfg pages k b l' := by
  obtain ⟨k, hl, hl'⟩ := h.covers.split
  refine ⟨k, ⟨hl, fun u hu => ?_⟩, ⟨hl', fun u hu => ?_⟩⟩
  · exact h.reads u (List.mem_append_left l' hu)
  · exact h.reads u (List.mem_append_right l hu)

lemma uncons (h : Laid cfg pages a b (t :: l)) :
    t.start = a ∧ 0 < t.len ∧ t.Reads cfg pages ∧ Laid cfg pages (a + t.len) b l := by
  obtain ⟨hstart, hpos, hrest⟩ := h.covers
  refine ⟨hstart, hpos, h.reads t List.mem_cons_self, hrest, ?_⟩
  exact fun u hu => h.reads u (List.mem_cons_of_mem t hu)

/-- The tiles before a tile, the tile and the tiles behind it. -/
lemma split_mem (h : Laid cfg pages a b tiles) (ht : t ∈ tiles) :
    ∃ l l', tiles = l ++ t :: l' ∧ Laid cfg pages a t.start l ∧
      Laid cfg pages (t.start + t.len) b l' := by
  obtain ⟨l, l', rfl⟩ := List.append_of_mem ht
  obtain ⟨k, hl, hl'⟩ := h.split
  obtain ⟨rfl, -, -, hrest⟩ := hl'.uncons
  exact ⟨l, l', rfl, hl, hrest⟩

/-- Only the first pages of the extents and the free pages count. -/
lemma congr (h : Laid cfg pages a b tiles)
    (hagree : ∀ u ∈ tiles, ∀ p, u.start ≤ p → p < u.start + u.len →
      p = u.start ∨ u.kind = .free → pages' p = pages p) : Laid cfg pages' a b tiles := by
  refine ⟨h.covers, fun u hu => ?_⟩
  exact (h.reads u hu).congr (h.covers.mem hu).2.1 (hagree u hu)

/-- What is written outside changes nothing. -/
lemma congr_outside (h : Laid cfg pages a b tiles)
    (hagree : ∀ p, a ≤ p → p < b → pages' p = pages p) : Laid cfg pages' a b tiles := by
  apply h.congr
  intro u hu p hle hlt _
  obtain ⟨hlow, -, hhigh⟩ := h.covers.mem hu
  exact hagree p (by omega) (by omega)

/-! ## The search for free pages -/

/-- From `page` on, free tiles offer room for `amount` pages; none of them can be left out. -/
def Room (cfg : CoffeeConfig) (pages : ℕ → FileHeader) (amount a b page : ℕ) (tiles : List Tile) :
    Prop :=
  ∃ l m u l', tiles = l ++ (m ++ u :: l') ∧ Laid cfg pages a page l ∧
    Laid cfg pages page u.start m ∧ (∀ t ∈ m, t.kind = .free) ∧ u.kind = .free ∧
    u.Reads cfg pages ∧ u.start < page + amount ∧ page + amount ≤ u.start + u.len ∧
    Laid cfg pages (u.start + u.len) b l'

/-- The search goes from tile to tile.  Behind the tiles `l`, it has come over the free tiles `m`,
which are too small. -/
lemma findPages_spec {amount page start fuel : ℕ} {m : List Tile} {found : Option ℕ}
    (hamount : 0 < amount) (hl : Laid cfg pages a start l) (hm : Laid cfg pages start page m)
    (hfree : ∀ t ∈ m, t.kind = .free) (hl' : Laid cfg pages page cfg.pageCount l')
    (hfound : found = none ∧ m = [] ∨ found = some start ∧ page < start + amount)
    (hfuel : l'.length < fuel) :
    ∃ res, Coffee.findPages cfg pages amount fuel page found = some res ∧ ∀ p, res = some p →
      Room cfg pages amount a cfg.pageCount p (l ++ (m ++ l')) := by
  induction l' generalizing l m page start fuel found with
  | nil =>
    obtain ⟨fuel, rfl⟩ : ∃ n, fuel = n + 1 := ⟨fuel - 1, by omega⟩
    have hpage : page = cfg.pageCount := hl'.covers
    refine ⟨none, ?_, fun p hp => nomatch hp⟩
    rw [Coffee.findPages, if_neg (by omega)]
  | cons t l' ih =>
    obtain ⟨fuel, rfl⟩ : ∃ n, fuel = n + 1 := ⟨fuel - 1, by omega⟩
    have hfuel' : l'.length < fuel := by
      rw [List.length_cons] at hfuel
      omega
    obtain ⟨rfl, hpos, ht, hrest⟩ := hl'.uncons
    have hlt : t.start < cfg.pageCount := by
      have hle := hrest.covers.le
      omega
    have hone := cons (l := []) nil hpos ht
    rw [Coffee.findPages, if_pos hlt]
    dsimp only
    rw [ht.nextFile_eq hpos]
    by_cases hkind : t.kind = .free
    · have hbegin : found.getD t.start = start ∧ t.start < start + amount := by
        rcases hfound with ⟨rfl, rfl⟩ | ⟨rfl, hlt⟩
        · have hstart : start = t.start := hm.covers
          exact ⟨hstart.symm, by omega⟩
        · exact ⟨rfl, hlt⟩
      rw [if_pos ((ht.free_iff hpos).mpr hkind), hbegin.1]
      by_cases hbreak : found = none ∧ t.start + amount ≥ cfg.pageCount
      · rw [if_pos hbreak]
        exact ⟨none, rfl, fun p hp => nomatch hp⟩
      · rw [if_neg hbreak]
        by_cases henough : start + amount ≤ t.start + t.len
        · rw [if_pos henough]
          refine ⟨some start, rfl, ?_⟩
          rintro p ⟨⟩
          exact ⟨l, m, t, l', rfl, hl, hm, hfree, hkind, ht, hbegin.2, henough, hrest⟩
        · rw [if_neg henough]
          have hfree' : ∀ u ∈ m ++ [t], u.kind = .free := by
            intro u hu
            rcases List.mem_append.mp hu with hu | hu
            · exact hfree u hu
            · rw [List.mem_singleton.mp hu]
              exact hkind
          have hfound' : some start = none ∧ m ++ [t] = [] ∨
              some start = some start ∧ t.start + t.len < start + amount :=
            .inr ⟨rfl, by omega⟩
          obtain ⟨res, hres, hroom⟩ := ih hl (hm.append hone) hfree' hrest hfound' hfuel'
          refine ⟨res, hres, ?_⟩
          rwa [List.append_assoc m, List.singleton_append] at hroom
    · rw [if_neg (mt (ht.free_iff hpos).mp hkind)]
      -- the run of free pages ends here
      have hdone := (hl.append hm).append hone
      obtain ⟨res, hres, hroom⟩ := ih hdone nil (fun u hu => nomatch hu) hrest (.inl ⟨rfl, rfl⟩)
        hfuel'
      refine ⟨res, hres, ?_⟩
      rwa [List.nil_append, List.append_assoc, List.append_assoc, List.singleton_append] at hroom

/-! ## Changes of one tile -/

/-- A tile takes the place of another one, and nothing else changes. -/
lemma replace {u : Tile} (h : Laid cfg pages a b (l ++ t :: l')) (hstart : u.start = t.start)
    (hlen : u.len = t.len) (hu : u.Reads cfg pages')
    (hagree : ∀ p, p < t.start ∨ t.start + t.len ≤ p → pages' p = pages p) :
    Laid cfg pages' a b (l ++ u :: l') := by
  obtain ⟨k, hl, htail⟩ := h.split
  obtain ⟨rfl, hpos, -, hl'⟩ := htail.uncons
  have hl₁ : Laid cfg pages' a t.start l := by
    apply hl.congr_outside
    exact fun p _ hlt => hagree p (.inl hlt)
  have hl₂ : Laid cfg pages' (t.start + t.len) b l' := by
    apply hl'.congr_outside
    exact fun p hle _ => hagree p (.inr hle)
  rw [← hstart] at hl₁
  rw [← hstart, ← hlen] at hl₂
  exact hl₁.append (hl₂.cons (hlen ▸ hpos) hu)

/-- An extent takes the place of free tiles; what is left of the last one stays free. -/
lemma allocate {page amount : ℕ} (hroom : Room cfg pages amount a b page tiles)
    (hamount : 0 < amount) (hlive : (pages' page).active = true)
    (hmax : (pages' page).maxPages = amount) (hagree : ∀ p, p ≠ page → pages' p = pages p) :
    ∃ l rest l', (∃ m, tiles = l ++ (m ++ l') ∧ Laid cfg pages a page l ∧ ∀ t ∈ m, t.kind = .free) ∧
      (∀ t ∈ rest, t.kind = .free) ∧
      Laid cfg pages' a b (l ++ ⟨.live, page, amount⟩ :: (rest ++ l')) := by
  obtain ⟨l, m, u, l', rfl, hl, hm, hfree, hkind, hu, hlt, hle, hl'⟩ := hroom
  have hrun := hm.covers.le
  have hl₁ : Laid cfg pages' a page l := by
    apply hl.congr_outside
    exact fun p _ hlt => hagree p (by omega)
  have hl₂ : Laid cfg pages' (u.start + u.len) b l' := by
    apply hl'.congr_outside
    exact fun p hle' _ => hagree p (by omega)
  have hextent : Tile.Reads cfg pages' ⟨.live, page, amount⟩ := ⟨hmax.symm, hlive⟩
  have hrest : ∃ rest : List Tile, (∀ t ∈ rest, t.kind = .free) ∧
      Laid cfg pages' (page + amount) b (rest ++ l') := by
    rcases hle.eq_or_lt with heq | hlt'
    · refine ⟨[], ?_, ?_⟩
      · rintro t ⟨⟩
      · rw [heq]
        exact hl₂
    · obtain ⟨hend, hpages⟩ : u.start + u.len = cfg.sectorEnd u.start ∧
          ∀ p, u.start ≤ p → p < u.start + u.len → (pages p).flags = {} := by
        unfold Tile.Reads at hu
        rw [hkind] at hu
        exact hu
      let rest : Tile := ⟨.free, page + amount, u.start + u.len - (page + amount)⟩
      have hlast : rest.start + rest.len = u.start + u.len := by
        show page + amount + (u.start + u.len - (page + amount)) = _
        omega
      have hreads : rest.Reads cfg pages' := by
        refine ⟨?_, ?_⟩
        · rw [hlast, hend, cfg.sectorEnd_of_mem hlt.le (hend ▸ hlt')]
        · intro p hle' hlt''
          rw [hagree p (by have : page + amount ≤ p := hle'; omega)]
          exact hpages p (by have : page + amount ≤ p := hle'; omega) (hlast ▸ hlt'')
      refine ⟨[rest], ?_, ?_⟩
      · intro t ht
        rw [List.mem_singleton.mp ht]
      · exact (show Laid cfg pages' (rest.start + rest.len) b l' by rwa [hlast]).cons
          (by show 0 < u.start + u.len - (page + amount); omega) hreads
  obtain ⟨rest, hfree', hrest⟩ := hrest
  refine ⟨l, rest, l', ⟨m ++ [u], ?_, hl, ?_⟩, hfree', ?_⟩
  · rw [List.append_assoc, List.singleton_append]
  · intro t ht
    rcases List.mem_append.mp ht with ht | ht
    · exact hfree t ht
    · rw [List.mem_singleton.mp ht]
      exact hkind
  · exact hl₁.append (cons (t := ⟨.live, page, amount⟩) hrest hamount hextent)

end Laid
end Contiki

import Contiki.Cfs.Layout

/-!
# Garbage collection

`collect_garbage` goes over the sectors in their order, and `get_sector_status` remembers how far
the last extent of a sector goes into the following ones.  `Sweep` is what holds before a sector is
looked at.

An obsolete extent that goes on into the next sector keeps its header when its own sector holds live
pages.  When the next sector is erased then, the scan jumps over pages that are free to be allocated
again.  `Anchored` excludes this.

* `countPages_spec` — the loop of `get_sector_status`.
* `Sweep.step` — what happens to one sector.
* `collectGarbage_spec` — a collection ends, erases no live page and keeps the layout.
-/

namespace Contiki

/-! ## The pages of a sector -/

/-- What the loop of `get_sector_status` counts of the tiles `m` from `page` to `next`. -/
structure Counted (sectorEnd page next : ℕ) (m : List Tile) (stats stats' : SectorStatus)
    (last last' : Bool) : Prop where
  reaches : sectorEnd ≤ next
  inside : ∀ t ∈ m, t.start < sectorEnd
  total : stats'.active + stats'.obsolete + stats'.free + page =
    stats.active + stats.obsolete + stats.free + next
  active : stats.active ≤ stats'.active
  live : stats'.active = stats.active → ∀ t ∈ m, t.kind ≠ .live
  some_live : stats.active < stats'.active → ∃ t ∈ m, t.kind = .live
  obsolete : stats.obsolete ≤ stats'.obsolete
  dead : stats'.obsolete = stats.obsolete → ∀ t ∈ m, t.kind ≠ .obsolete ∧ t.kind ≠ .isolated
  free : stats.free ≤ stats'.free
  full : stats'.free = stats.free → ∀ t ∈ m, t.kind ≠ .free
  exact : stats.free < stats'.free → next = sectorEnd
  crosses : sectorEnd < next → m ≠ [] → ∃ m' t, m = m' ++ [t] ∧ t.start + t.len = next ∧
    (t.kind = .live ∧ last' = true ∧ t.len ≤ stats'.active ∨ t.kind = .obsolete ∧ last' = false)
  empty : m = [] → next = page ∧ stats' = stats ∧ last' = last

section
variable {cfg : CoffeeConfig} {pages : ℕ → FileHeader} {a b : ℕ} {l l' m : List Tile} {t : Tile}

lemma Counted.nil {sectorEnd page : ℕ} {stats : SectorStatus} {last : Bool}
    (h : sectorEnd ≤ page) : Counted sectorEnd page page [] stats stats last last where
  reaches := h
  inside := by rintro t ⟨⟩
  total := rfl
  active := Nat.le_refl _
  live := by rintro - t ⟨⟩
  some_live h := absurd h (lt_irrefl _)
  obsolete := Nat.le_refl _
  dead := by rintro - t ⟨⟩
  free := Nat.le_refl _
  full := by rintro - t ⟨⟩
  exact h := absurd h (lt_irrefl _)
  crosses _ h := absurd rfl h
  empty _ := ⟨rfl, rfl, rfl⟩

/-- One tile more is counted; the rest of a sector is the last one. -/
lemma Counted.cons {sectorEnd next : ℕ} {stats stats₁ stats' : SectorStatus} {last last₁ last' : Bool}
    (h : Counted sectorEnd (t.start + t.len) next m stats₁ stats' last₁ last')
    (hin : t.start < sectorEnd) (hfree : stats₁.free = stats.free) (hkind : t.kind ≠ .free)
    (hpos : 0 < t.len) (hisolated : t.kind = .isolated → t.len = 1)
    (hcount : t.kind = .live ∧ last₁ = true ∧ stats₁.active = stats.active + t.len ∧
        stats₁.obsolete = stats.obsolete ∨
      (t.kind = .obsolete ∨ t.kind = .isolated) ∧ last₁ = false ∧ stats₁.active = stats.active ∧
        stats₁.obsolete = stats.obsolete + t.len) :
    Counted sectorEnd t.start next (t :: m) stats stats' last last' := by
  obtain ⟨h₁, h₂, h₃, h₄, h₅, hsome, h₆, h₇, h₈, h₉, h₁₀, h₁₁, h₁₂⟩ := h
  refine ⟨h₁, ?_, ?_, ?_, ?_, ?_, ?_, ?_, ?_, ?_, ?_, ?_, ?_⟩
  · rintro u hu
    rcases List.mem_cons.mp hu with rfl | hu
    · exact hin
    · exact h₂ u hu
  · rcases hcount with ⟨-, -, hactive, hobsolete⟩ | ⟨-, -, hactive, hobsolete⟩ <;> omega
  · rcases hcount with ⟨-, -, hactive, -⟩ | ⟨-, -, hactive, -⟩ <;> omega
  · intro heq u hu
    rcases hcount with ⟨-, -, hactive, -⟩ | ⟨hdead, -, hactive, -⟩
    · omega
    · rcases List.mem_cons.mp hu with rfl | hu
      · rcases hdead with hdead | hdead <;> simp [hdead]
      · exact h₅ (by omega) u hu
  · intro hlt
    rcases hcount with ⟨hlive, -, -, -⟩ | ⟨-, -, hactive, -⟩
    · exact ⟨t, List.mem_cons_self, hlive⟩
    · obtain ⟨u, hu, hlive⟩ := hsome (by omega)
      exact ⟨u, List.mem_cons_of_mem t hu, hlive⟩
  · rcases hcount with ⟨-, -, -, hobsolete⟩ | ⟨-, -, -, hobsolete⟩ <;> omega
  · intro heq u hu
    rcases hcount with ⟨hlive, -, -, hobsolete⟩ | ⟨-, -, -, hobsolete⟩
    · rcases List.mem_cons.mp hu with rfl | hu
      · simp [hlive]
      · exact h₇ (by omega) u hu
    · omega
  · omega
  · intro heq u hu
    rcases List.mem_cons.mp hu with rfl | hu
    · exact hkind
    · exact h₉ (by omega) u hu
  · intro hlt
    exact h₁₀ (by omega)
  · intro hlt _
    by_cases hm : m = []
    · subst hm
      obtain ⟨rfl, rfl, rfl⟩ := h₁₂ rfl
      refine ⟨[], t, rfl, rfl, ?_⟩
      rcases hcount with ⟨hlive, hlast, hactive, -⟩ | ⟨hdead, hlast, -, -⟩
      · exact .inl ⟨hlive, hlast, by omega⟩
      · rcases hdead with hdead | hdead
        · exact .inr ⟨hdead, hlast⟩
        · -- an isolated page ends where the next page begins
          have hlen := hisolated hdead
          omega
    · obtain ⟨m', u, rfl, hnext, hu⟩ := h₁₁ hlt hm
      exact ⟨t :: m', u, rfl, hnext, hu⟩
  · rintro ⟨⟩

/-- The rest of a sector is free. -/
lemma Counted.free_tile {sectorEnd : ℕ} {stats : SectorStatus} {last : Bool} (hkind : t.kind = .free)
    (hin : t.start < sectorEnd) (hend : t.start + t.len = sectorEnd) (hfree : stats.free = 0) :
    Counted sectorEnd t.start sectorEnd [t] stats { stats with free := sectorEnd - t.start } last
      false where
  reaches := Nat.le_refl _
  inside := by
    intro u hu
    rwa [List.mem_singleton.mp hu]
  total := by
    show stats.active + stats.obsolete + (sectorEnd - t.start) + t.start = _
    omega
  active := Nat.le_refl _
  live := by
    intro _ u hu
    rw [List.mem_singleton.mp hu, hkind]
    simp
  some_live h := absurd h (lt_irrefl _)
  obsolete := Nat.le_refl _
  dead := by
    intro _ u hu
    rw [List.mem_singleton.mp hu, hkind]
    simp
  free := by
    show stats.free ≤ sectorEnd - t.start
    omega
  full := by
    intro heq
    have heq' : sectorEnd - t.start = stats.free := heq
    omega
  exact _ := rfl
  crosses h := absurd h (lt_irrefl _)
  empty h := nomatch h

/-- The loop of `get_sector_status` counts the tiles that begin in the sector. -/
lemma countPages_spec {sector fuel page : ℕ} {stats : SectorStatus} (last : Bool)
    (hl : Laid cfg pages page b l)
    (hb : (sector + 1) * cfg.pagesPerSector ≤ b) (hpage : sector * cfg.pagesPerSector ≤ page)
    (hfree : stats.free = 0) (hfuel : (sector + 1) * cfg.pagesPerSector < page + fuel)
    (hfuel₀ : 0 < fuel) :
    ∃ stats' last' next m l', l = m ++ l' ∧ Laid cfg pages page next m ∧
      Laid cfg pages next b l' ∧
      Coffee.countPages pages ((sector + 1) * cfg.pagesPerSector) fuel page stats last =
        some (stats', last') ∧
      Counted ((sector + 1) * cfg.pagesPerSector) page next m stats stats' last last' := by
  induction l generalizing page stats last fuel with
  | nil =>
    obtain ⟨fuel, rfl⟩ : ∃ n, fuel = n + 1 := ⟨fuel - 1, by omega⟩
    obtain rfl : page = b := hl.covers
    refine ⟨stats, last, page, [], [], rfl, .nil, .nil, ?_, .nil hb⟩
    rw [Coffee.countPages, if_neg (by omega)]
  | cons t l ih =>
    obtain ⟨fuel, rfl⟩ : ∃ n, fuel = n + 1 := ⟨fuel - 1, by omega⟩
    obtain ⟨rfl, hpos, ht, hrest⟩ := hl.uncons
    by_cases hin : t.start < (sector + 1) * cfg.pagesPerSector
    swap
    · refine ⟨stats, last, t.start, [], t :: l, rfl, .nil, hl, ?_, .nil (by omega)⟩
      rw [Coffee.countPages, if_neg hin]
    rw [Coffee.countPages, if_pos hin]
    dsimp only
    have hone : Laid cfg pages t.start (t.start + t.len) [t] := Laid.nil.cons hpos ht
    -- the tiles behind an extent or an isolated page
    have hnext : ∀ stats₁ last₁, stats₁.free = 0 → t.kind ≠ .free →
        (t.kind = .isolated → t.len = 1) →
        (t.kind = .live ∧ last₁ = true ∧ stats₁.active = stats.active + t.len ∧
            stats₁.obsolete = stats.obsolete ∨
          (t.kind = .obsolete ∨ t.kind = .isolated) ∧ last₁ = false ∧
            stats₁.active = stats.active ∧ stats₁.obsolete = stats.obsolete + t.len) →
        ∃ stats' last' next m l', t :: l = m ++ l' ∧ Laid cfg pages t.start next m ∧
          Laid cfg pages next b l' ∧
          Coffee.countPages pages ((sector + 1) * cfg.pagesPerSector) fuel (t.start + t.len) stats₁
            last₁ = some (stats', last') ∧
          Counted ((sector + 1) * cfg.pagesPerSector) t.start next m stats stats' last last' := by
      intro stats₁ last₁ hfree₁ hkind hisolated hcount
      have hfuel' : (sector + 1) * cfg.pagesPerSector < t.start + t.len + fuel := by omega
      have hfuel₀' : 0 < fuel := by omega
      obtain ⟨stats', last', next, m, l', rfl, hm, hl', hres, hcounted⟩ :=
        ih last₁ hrest (by omega) hfree₁ hfuel' hfuel₀'
      exact ⟨stats', last', next, t :: m, l', rfl, hm.cons hpos ht, hl', hres,
        hcounted.cons hin (hfree₁.trans hfree.symm) hkind hpos hisolated hcount⟩
    unfold Tile.Reads at ht
    split at ht
    · rename_i hkind
      have hflags := ht.2 t.start (Nat.le_refl _) (by omega)
      have hend : t.start + t.len = (sector + 1) * cfg.pagesPerSector := by
        have hsector : t.start / cfg.pagesPerSector = sector := by
          exact Nat.div_eq_of_lt_le hpage hin
        rw [ht.1, cfg.sectorEnd_eq, hsector]
      rw [hend] at hone hrest
      refine ⟨_, _, _, [t], l, rfl, hone, hrest, ?_, .free_tile hkind hin hend hfree⟩
      rw [if_neg (by simp [FileHeader.active, hflags]), if_neg (by simp [hflags]),
        if_neg (by simp [hflags])]
    · rename_i hkind
      obtain ⟨hlen, hfree', hisolated⟩ := ht
      have hactive : (pages t.start).active = false := by
        simp [FileHeader.active, hisolated]
      rw [if_neg (by simp [hactive]), if_pos hisolated]
      have hres := hnext { stats with obsolete := stats.obsolete + t.len } false hfree
        (by simp [hkind]) (fun _ => hlen) (.inr ⟨.inr hkind, rfl, rfl, rfl⟩)
      rwa [hlen] at hres
    · rename_i hkind
      obtain ⟨hlen, hfree', hisolated, hobsolete⟩ := ht
      have hactive : (pages t.start).active = false := by
        simp [FileHeader.active, hobsolete]
      rw [if_neg (by simp [hactive]), if_neg (by simp [hisolated]), if_pos hobsolete, ← hlen]
      exact hnext _ false hfree (by simp [hkind]) (by simp [hkind])
        (.inr ⟨.inl hkind, rfl, rfl, rfl⟩)
    · rename_i hkind
      obtain ⟨hlen, hactive⟩ := ht
      rw [if_pos hactive, ← hlen]
      exact hnext _ true hfree (by simp [hkind]) (by simp [hkind]) (.inl ⟨hkind, rfl, rfl, rfl⟩)

end

/-! ## Sweeping over the sectors -/

/-- A live extent has a page in the sector. -/
def SectorLive (cfg : CoffeeConfig) (live : Set (ℕ × ℕ)) (sector : ℕ) : Prop :=
  ∃ e ∈ live, e.1 < (sector + 1) * cfg.pagesPerSector ∧ sector * cfg.pagesPerSector < e.1 + e.2

/-- The sector is not erased: it has a page of a live extent, or a free page and the collection is
reluctant. -/
def Kept (cfg : CoffeeConfig) (mode : GcMode) (live : Set (ℕ × ℕ)) (l : List Tile) (sector : ℕ) :
    Prop :=
  SectorLive cfg live sector ∨
    mode = .reluctant ∧ ∃ u ∈ l, u.kind = .free ∧ u.start / cfg.pagesPerSector = sector

/-- When an extent goes on into the next sector while live pages keep its header, then the next
sector is kept too. -/
def Anchored (cfg : CoffeeConfig) (mode : GcMode) (live : Set (ℕ × ℕ)) (l : List Tile) (t : Tile) :
    Prop :=
  SectorLive cfg live (t.start / cfg.pagesPerSector) → cfg.sectorEnd t.start < t.start + t.len →
    t.start + t.len ≤ cfg.sectorEnd t.start + cfg.pagesPerSector ∧
      Kept cfg mode live l (t.start / cfg.pagesPerSector + 1)

/-- The tiles on both sides of the pages from `k` to `k'`. -/
structure Swept (cfg : CoffeeConfig) (mode : GcMode) (live : Set (ℕ × ℕ)) (c : Coffee) (k k' : ℕ)
    (l l' : List Tile) : Prop where
  before : Laid cfg c.pages 0 k l
  behind : Laid cfg c.pages k' cfg.pageCount l'
  live_iff : ∀ e, e ∈ live ↔ ∃ t ∈ l ++ l', t.kind = .live ∧ e = (t.start, t.len)
  safe : ∀ t ∈ l', t.kind = .obsolete → Anchored cfg mode live l' t

/-- What holds before a sector is looked at.  Either an extent goes on into the sector, and if it is
obsolete, the sector is kept; or the pages that are skipped hold no extent: they are isolated, or
they are what is left of an extent whose header was erased, and fill the sector. -/
inductive Sweep (cfg : CoffeeConfig) (mode : GcMode) (live : Set (ℕ × ℕ)) (c : Coffee)
    (sector : ℕ) (scan : SectorScan) : Prop
  | crossing {l l' : List Tile} {t : Tile}
      (h : Swept cfg mode live c (sector * cfg.pagesPerSector + scan.skipPages)
        (sector * cfg.pagesPerSector + scan.skipPages) (l ++ [t]) l')
      (hnext : c.nextFree = cfg.pageCount ∨ ∃ t' ∈ l ++ [t] ++ l', t'.start = c.nextFree)
      (hskip : 0 < scan.skipPages) (hstart : t.start < sector * cfg.pagesPerSector)
      (hkind : t.kind = .live ∧ scan.lastPagesAreActive = true ∨
        t.kind = .obsolete ∧ scan.lastPagesAreActive = false ∧
          scan.skipPages ≤ cfg.pagesPerSector ∧ Kept cfg mode live l' sector)
  | apart {l l' : List Tile}
      (h : Swept cfg mode live c (sector * cfg.pagesPerSector)
        (sector * cfg.pagesPerSector + scan.skipPages) l l')
      (hlast : scan.skipPages = 0 ∨ scan.lastPagesAreActive = false)
      (hskip : cfg.pagesPerSector ≤ scan.skipPages ∧ (∃ t ∈ l, t.start = c.nextFree) ∨
        scan.skipPages < cfg.pagesPerSector ∧ ∃ iso, (∀ t ∈ iso, t.kind = .isolated) ∧
          Laid cfg c.pages (sector * cfg.pagesPerSector)
            (sector * cfg.pagesPerSector + scan.skipPages) iso ∧
          (c.nextFree = cfg.pageCount ∨ ∃ t ∈ l ++ (iso ++ l'), t.start = c.nextFree))

/-! ### The erasure of a sector -/

section
variable {cfg : CoffeeConfig} {mode : GcMode} {live : Set (ℕ × ℕ)} {c : Coffee} {a b k k' : ℕ}
  {l l' m : List Tile} {t : Tile}

lemma isolatePages_pages (c : Coffee) (start n p : ℕ) :
    (c.isolatePages start n).pages p =
      if start ≤ p ∧ p < start + n then
        { flags := { valid := true, allocated := true, isolated := true } }
      else c.pages p := by
  induction n with
  | zero =>
    rw [if_neg (by omega)]
    rfl
  | succ n ih =>
    have hstep : c.isolatePages start (n + 1) = (c.isolatePages start n).writeHeader
        { flags := { allocated := true, isolated := true } } (start + n) := by
      unfold Coffee.isolatePages
      rw [List.range_succ, List.foldl_append]
      rfl
    rw [hstep]
    show (if p = start + n then _ else (c.isolatePages start n).pages p) = _
    rw [ih]
    by_cases hp : p = start + n
    · rw [if_pos hp, if_pos (by omega)]
    · rw [if_neg hp]
      by_cases hin : start ≤ p ∧ p < start + n
      · rw [if_pos hin, if_pos (by omega)]
      · rw [if_neg hin, if_neg (by omega)]

lemma isolatePages_nextFree (c : Coffee) (start n : ℕ) :
    (c.isolatePages start n).nextFree = c.nextFree := by
  induction n with
  | zero => rfl
  | succ n ih =>
    refine Eq.trans ?_ ih
    unfold Coffee.isolatePages
    rw [List.range_succ, List.foldl_append]
    rfl

lemma eraseSector_pages (c : Coffee) (sector n p : ℕ) :
    (c.eraseSector cfg sector n).pages p =
      if p / cfg.pagesPerSector = sector then {}
      else if sector * cfg.pagesPerSector + cfg.pagesPerSector ≤ p ∧
          p < sector * cfg.pagesPerSector + cfg.pagesPerSector + n then
        { flags := { valid := true, allocated := true, isolated := true } }
      else c.pages p := by
  unfold Coffee.eraseSector Coffee.erase
  dsimp only
  by_cases hp : p / cfg.pagesPerSector = sector
  · rw [if_pos hp, if_pos hp]
  · rw [if_neg hp, if_neg hp]
    by_cases hn : n > 0
    · rw [if_pos hn, isolatePages_pages]
      split_ifs <;> rfl
    · have hout : ¬(sector * cfg.pagesPerSector + cfg.pagesPerSector ≤ p ∧
          p < sector * cfg.pagesPerSector + cfg.pagesPerSector + n) := by omega
      rw [if_neg hn, if_neg hout]
      split_ifs <;> rfl

lemma eraseSector_nextFree (c : Coffee) (sector n : ℕ) :
    (c.eraseSector cfg sector n).nextFree = min (sector * cfg.pagesPerSector) c.nextFree := by
  have hmin : (if sector * cfg.pagesPerSector < c.nextFree then
      { c with nextFree := sector * cfg.pagesPerSector } else c).nextFree =
      min (sector * cfg.pagesPerSector) c.nextFree := by
    split_ifs with hlt
    · exact (Nat.min_eq_left hlt.le).symm
    · exact (Nat.min_eq_right (Nat.le_of_not_lt hlt)).symm
  unfold Coffee.eraseSector Coffee.erase
  dsimp only
  by_cases hn : n > 0
  · rw [if_pos hn, isolatePages_nextFree]
    exact hmin
  · rw [if_neg hn]
    exact hmin

/-- Isolated pages in a row. -/
lemma exists_isolated {pages : ℕ → FileHeader} (n : ℕ)
    (h : ∀ p, a ≤ p → p < a + n → (pages p).free = false ∧ (pages p).flags.isolated = true) :
    ∃ iso, Laid cfg pages a (a + n) iso ∧ ∀ t ∈ iso, t.kind = .isolated := by
  induction n generalizing a with
  | zero => exact ⟨[], .nil, fun t ht => nomatch ht⟩
  | succ n ih =>
    obtain ⟨iso, hiso, hkind⟩ := ih (a := a + 1) fun p hle hlt => h p (by omega) (by omega)
    refine ⟨⟨.isolated, a, 1⟩ :: iso, ?_, ?_⟩
    · rw [show a + (n + 1) = a + 1 + n by omega]
      exact Laid.cons (t := ⟨.isolated, a, 1⟩) hiso Nat.one_pos ⟨rfl, h a (by omega) (by omega)⟩
    · intro t ht
      rcases List.mem_cons.mp ht with rfl | ht
      · rfl
      · exact hkind t ht

/-- Tiles that are not live hold no live extent. -/
lemma exists_live_append (hm : ∀ t ∈ m, t.kind ≠ .live) (p : Tile → Prop) :
    (∃ t ∈ l ++ (m ++ l'), t.kind = .live ∧ p t) ↔ ∃ t ∈ l ++ l', t.kind = .live ∧ p t := by
  constructor
  · rintro ⟨t, ht, hlive, hp⟩
    refine ⟨t, ?_, hlive, hp⟩
    simp only [List.mem_append] at ht ⊢
    rcases ht with ht | ht | ht
    · exact .inl ht
    · exact absurd hlive (hm t ht)
    · exact .inr ht
  · rintro ⟨t, ht, hlive, hp⟩
    refine ⟨t, ?_, hlive, hp⟩
    simp only [List.mem_append] at ht ⊢
    exact ht.imp_right .inr

/-- The pages that are isolated. -/
def isolationCount (cfg : CoffeeConfig) (scan : SectorScan) : ℕ :=
  if scan.lastPagesAreActive = true ∨ scan.skipPages ≥ cfg.pagesPerSector then 0
  else scan.skipPages

lemma isolationCount_le (scan : SectorScan) : isolationCount cfg scan ≤ scan.skipPages := by
  unfold isolationCount
  split_ifs <;> omega

lemma isolationCount_lt {scan : SectorScan} (h : 0 < isolationCount cfg scan) :
    scan.skipPages < cfg.pagesPerSector := by
  unfold isolationCount at h
  split_ifs at h with hor
  · exact absurd h (lt_irrefl 0)
  · exact Nat.lt_of_not_le fun hle => hor (.inr hle)

lemma eraseSector_before (c : Coffee) {sector p : ℕ} (n : ℕ) (hp : p < sector * cfg.pagesPerSector) :
    (c.eraseSector cfg sector n).pages p = c.pages p := by
  rw [eraseSector_pages, if_neg, if_neg (by omega)]
  exact (Nat.div_lt_of_lt_mul (by rwa [Nat.mul_comm])).ne

lemma eraseSector_behind (c : Coffee) {sector n p : ℕ}
    (hp : (sector + 1) * cfg.pagesPerSector + n ≤ p) :
    (c.eraseSector cfg sector n).pages p = c.pages p := by
  have hsucc : (sector + 1) * cfg.pagesPerSector =
      sector * cfg.pagesPerSector + cfg.pagesPerSector := Nat.succ_mul _ _
  have hsector : sector + 1 ≤ p / cfg.pagesPerSector :=
    (Nat.le_div_iff_mul_le cfg.pagesPerSector_pos).mpr (by omega)
  rw [eraseSector_pages, if_neg (by omega), if_neg (by omega)]

/-- The erasure of a sector between the tiles spares the live extents. -/
lemma Swept.eraseSector_live {sector : ℕ} (scan : SectorScan)
    (h : Swept cfg mode live c (sector * cfg.pagesPerSector)
      ((sector + 1) * cfg.pagesPerSector + scan.skipPages) l l') {e : ℕ × ℕ} (he : e ∈ live)
    {p : ℕ} (hlow : e.1 ≤ p) (hhigh : p < e.1 + e.2) :
    (c.eraseSector cfg sector (isolationCount cfg scan)).pages p = c.pages p := by
  obtain ⟨t, ht, -, rfl⟩ := (h.live_iff e).mp he
  dsimp only at hlow hhigh
  have hle := @isolationCount_le cfg scan
  rcases List.mem_append.mp ht with ht | ht
  · have hend := (h.before.covers.mem ht).2.2
    exact eraseSector_before c _ (by omega)
  · have hstart := (h.behind.covers.mem ht).1
    exact eraseSector_behind c (by omega)

/-- An erased sector is free, and the pages behind it that are skipped are isolated. -/
lemma Swept.erase {sector : ℕ} (scan : SectorScan)
    (h : Swept cfg mode live c (sector * cfg.pagesPerSector)
      ((sector + 1) * cfg.pagesPerSector + scan.skipPages) l l')
    (hnext : sector * cfg.pagesPerSector ≤ c.nextFree ∨ ∃ t ∈ l, t.start = c.nextFree)
    (hlast : scan.skipPages = 0 ∨ scan.lastPagesAreActive = false) :
    Sweep cfg mode live (c.eraseSector cfg sector (isolationCount cfg scan)) (sector + 1) scan := by
  have hpos := cfg.pagesPerSector_pos
  have hsucc : (sector + 1) * cfg.pagesPerSector =
      sector * cfg.pagesPerSector + cfg.pagesPerSector := Nat.succ_mul _ _
  have hle := @isolationCount_le cfg scan
  have hpages := @eraseSector_pages cfg c sector (isolationCount cfg scan)
  have hfirst := @eraseSector_nextFree cfg c sector (isolationCount cfg scan)
  have hbefore : ∀ p, p < sector * cfg.pagesPerSector → _ := fun p hp =>
    eraseSector_before c (isolationCount cfg scan) hp
  have hbehind : ∀ p, (sector + 1) * cfg.pagesPerSector + isolationCount cfg scan ≤ p → _ :=
    fun p hp => eraseSector_behind c hp
  set c' := c.eraseSector cfg sector (isolationCount cfg scan) with hc'
  let free : Tile := ⟨.free, sector * cfg.pagesPerSector, cfg.pagesPerSector⟩
  have hfree : free.Reads cfg c'.pages := by
    refine ⟨?_, ?_⟩
    · rw [cfg.sectorEnd_eq]
      show _ = (sector * cfg.pagesPerSector / cfg.pagesPerSector + 1) * cfg.pagesPerSector
      rw [Nat.mul_div_cancel sector hpos, hsucc]
    · intro p hle hlt
      have hle' : sector * cfg.pagesPerSector ≤ p := hle
      have hlt' : p < sector * cfg.pagesPerSector + cfg.pagesPerSector := hlt
      rw [hpages, if_pos]
      exact Nat.div_eq_of_lt_le hle' (by rwa [hsucc])
  have hl : Laid cfg c'.pages 0 ((sector + 1) * cfg.pagesPerSector) (l ++ [free]) := by
    rw [hsucc]
    refine (h.before.congr_outside fun p _ hp => hbefore p hp).append ?_
    exact Laid.nil.cons hpos hfree
  have hl' : Laid cfg c'.pages ((sector + 1) * cfg.pagesPerSector + scan.skipPages)
      cfg.pageCount l' := h.behind.congr_outside fun p hp _ => hbehind p (by omega)
  have hswept : Swept cfg mode live c' ((sector + 1) * cfg.pagesPerSector)
      ((sector + 1) * cfg.pagesPerSector + scan.skipPages) (l ++ [free]) l' := by
    refine ⟨hl, hl', fun e => ?_, h.safe⟩
    rw [h.live_iff e, List.append_assoc]
    refine (exists_live_append ?_ _).symm
    intro t ht
    rw [List.mem_singleton.mp ht]
    exact fun hkind => nomatch hkind
  have hnext' : ∃ t ∈ l ++ [free], t.start = c'.nextFree := by
    rw [hfirst]
    by_cases hle : sector * cfg.pagesPerSector ≤ c.nextFree
    · refine ⟨free, List.mem_append_right l List.mem_cons_self, ?_⟩
      exact (Nat.min_eq_left hle).symm
    · obtain ⟨t, ht, hstart⟩ := hnext.resolve_left hle
      refine ⟨t, List.mem_append_left [free] ht, ?_⟩
      rw [Nat.min_eq_right (by omega), hstart]
  refine .apart hswept hlast ?_
  by_cases hskip : cfg.pagesPerSector ≤ scan.skipPages
  · exact .inl ⟨hskip, hnext'⟩
  · right
    have heq : isolationCount cfg scan = scan.skipPages := by
      unfold isolationCount
      rcases hlast with hzero | hlast
      · rw [hzero, ite_self]
      · rw [if_neg]
        simp only [hlast, Bool.false_eq_true, false_or]
        omega
    obtain ⟨iso, hiso, hkind⟩ : ∃ iso, Laid cfg c'.pages ((sector + 1) * cfg.pagesPerSector)
        ((sector + 1) * cfg.pagesPerSector + scan.skipPages) iso ∧
          ∀ t ∈ iso, t.kind = .isolated := by
      apply exists_isolated
      intro p hle hlt
      have hsector : sector + 1 ≤ p / cfg.pagesPerSector :=
        (Nat.le_div_iff_mul_le hpos).mpr hle
      rw [hpages, if_neg (by omega), if_pos (by omega)]
      exact ⟨rfl, rfl⟩
    refine ⟨Nat.lt_of_not_le hskip, iso, hkind, hiso, .inr ?_⟩
    obtain ⟨t, ht, hstart⟩ := hnext'
    exact ⟨t, List.mem_append_left _ ht, hstart⟩

/-! ### The status of a sector -/

/-- The static variables are reset for the first sector. -/
lemma scan_reset {sector : ℕ} {scan : SectorScan} (h : sector = 0 → scan = {}) :
    (if sector = 0 then {} else scan) = scan := by
  split_ifs with hzero
  · exact (h hzero).symm
  · rfl

/-- A sector that the counted pages reach, or that is counted to its end. -/
lemma getSectorStatus_count {pages : ℕ → FileHeader} {sector : ℕ} {scan : SectorScan}
    {stats : SectorStatus} {last : Bool} (hscan : sector = 0 → scan = {})
    (hskip : scan.skipPages < cfg.pagesPerSector)
    (hcount : Coffee.countPages pages ((sector + 1) * cfg.pagesPerSector) (cfg.pagesPerSector + 1)
      (sector * cfg.pagesPerSector + scan.skipPages)
      (if scan.lastPagesAreActive then { active := scan.skipPages }
        else { obsolete := scan.skipPages }) scan.lastPagesAreActive = some (stats, last)) :
    ∃ stats', Coffee.getSectorStatus cfg pages sector scan = some (stats',
        isolationCount cfg
          ⟨stats.active + stats.obsolete + stats.free - cfg.pagesPerSector, last⟩,
        ⟨stats.active + stats.obsolete + stats.free - cfg.pagesPerSector, last⟩) ∧
      stats'.free = stats.free ∧
      (stats.active + stats.obsolete + stats.free ≤ cfg.pagesPerSector → stats' = stats) ∧
      (cfg.pagesPerSector < stats.active + stats.obsolete + stats.free →
        (last = true → stats'.active = cfg.pagesPerSector - stats.obsolete) ∧
        (last = false → stats'.active = stats.active ∧
          stats'.obsolete = cfg.pagesPerSector - stats.active)) := by
  have hend : sector * cfg.pagesPerSector + cfg.pagesPerSector =
      (sector + 1) * cfg.pagesPerSector := (Nat.succ_mul _ _).symm
  unfold Coffee.getSectorStatus
  dsimp only
  rw [scan_reset hscan, if_neg (by omega), if_neg (by omega), hend, hcount, Option.map_some]
  dsimp only
  refine ⟨_, rfl, ?_, ?_, ?_⟩
  · split_ifs <;> rfl
  · intro hle
    rw [if_neg (by omega)]
  · intro hlt
    rw [if_pos (by omega)]
    refine ⟨?_, ?_⟩
    · rintro rfl
      rfl
    · rintro rfl
      exact ⟨rfl, rfl⟩

/-- A tile that begins in a sector and is live makes it live. -/
lemma Swept.sectorLive {sector : ℕ} (h : Swept cfg mode live c k k' l l') (ht : t ∈ l ++ l')
    (hkind : t.kind = .live) (hlt : t.start < (sector + 1) * cfg.pagesPerSector)
    (hle : sector * cfg.pagesPerSector < t.start + t.len) : SectorLive cfg live sector :=
  ⟨(t.start, t.len), (h.live_iff _).mpr ⟨t, ht, hkind, rfl⟩, hlt, hle⟩

/-- A free tile of a later sector is not among those before it. -/
lemma Kept.behind {sector : ℕ} (h : Kept cfg mode live (m ++ l') sector)
    (hm : ∀ t ∈ m, t.start / cfg.pagesPerSector < sector) : Kept cfg mode live l' sector := by
  refine h.imp_right (And.imp_right ?_)
  rintro ⟨u, hu, hkind, hsector⟩
  refine ⟨u, (List.mem_append.mp hu).resolve_left fun hu => ?_, hkind, hsector⟩
  have hlt := hm u hu
  omega

lemma Counted.sector_le {sector page next : ℕ} {stats stats' : SectorStatus} {last last' : Bool}
    (h : Counted ((sector + 1) * cfg.pagesPerSector) page next m stats stats' last last') :
    ∀ t ∈ m, t.start / cfg.pagesPerSector ≤ sector := by
  intro t ht
  have hlt := h.inside t ht
  exact Nat.le_of_lt_succ (Nat.div_lt_of_lt_mul (by rwa [Nat.mul_comm]))

lemma Swept.safe_behind {sector page next : ℕ} {stats stats' : SectorStatus} {last last' : Bool}
    (h : Swept cfg mode live c k k' l (m ++ l'))
    (hcounted : Counted ((sector + 1) * cfg.pagesPerSector) page next m stats stats' last last')
    (hl' : Laid cfg c.pages next b l') :
    ∀ t ∈ l', t.kind = .obsolete → Anchored cfg mode live l' t := by
  intro t ht hkind hs hcross
  obtain ⟨hle, hkept⟩ := h.safe t (List.mem_append_right m ht) hkind hs hcross
  refine ⟨hle, hkept.behind fun u hu => ?_⟩
  have hreaches := hcounted.reaches
  have hstart := (hl'.covers.mem ht).1
  have hsector : sector + 1 ≤ t.start / cfg.pagesPerSector :=
    (Nat.le_div_iff_mul_le cfg.pagesPerSector_pos).mpr (by omega)
  have hle := hcounted.sector_le u hu
  omega

/-- A sector between the tiles is not live. -/
lemma Swept.not_sectorLive {sector : ℕ}
    (h : Swept cfg mode live c (sector * cfg.pagesPerSector) k' l l')
    (hk' : (sector + 1) * cfg.pagesPerSector ≤ k') : ¬SectorLive cfg live sector := by
  rintro ⟨e, he, hlow, hhigh⟩
  obtain ⟨t, ht, -, rfl⟩ := (h.live_iff e).mp he
  dsimp only at hlow hhigh
  rcases List.mem_append.mp ht with ht | ht
  · have hend := (h.before.covers.mem ht).2.2
    omega
  · have hstart := (h.behind.covers.mem ht).1
    omega

/-- What holds before the next sector, when a sector is kept. -/
lemma Swept.next {sector next : ℕ} {last last' : Bool} {stats stats' : SectorStatus}
    (h : Swept cfg mode live c k k l (m ++ l'))
    (hnext : c.nextFree = cfg.pageCount ∨ ∃ t ∈ l ++ (m ++ l'), t.start = c.nextFree)
    (hk : sector * cfg.pagesPerSector ≤ k)
    (hm : Laid cfg c.pages k next m) (hl' : Laid cfg c.pages next cfg.pageCount l')
    (hcounted : Counted ((sector + 1) * cfg.pagesPerSector) k next m stats stats' last last')
    (hlive : (sector + 1) * cfg.pagesPerSector < next → last' = false →
      SectorLive cfg live sector)
    (hne : (sector + 1) * cfg.pagesPerSector < next → m ≠ []) :
    Sweep cfg mode live c (sector + 1) ⟨next - (sector + 1) * cfg.pagesPerSector, last'⟩ := by
  have hreaches := hcounted.reaches
  have hsum : (sector + 1) * cfg.pagesPerSector + (next - (sector + 1) * cfg.pagesPerSector) =
      next := by omega
  have hbefore := hcounted.sector_le
  have hsafe := h.safe_behind hcounted hl'
  have hswept : Swept cfg mode live c next next (l ++ m) l' := by
    refine ⟨h.before.append hm, hl', fun e => ?_, hsafe⟩
    rw [h.live_iff e, List.append_assoc]
  rcases hreaches.eq_or_lt with heq | hlt
  · have hswept' : Swept cfg mode live c ((sector + 1) * cfg.pagesPerSector)
        ((sector + 1) * cfg.pagesPerSector + (next - (sector + 1) * cfg.pagesPerSector)) (l ++ m)
        l' := by
      rwa [hsum, heq]
    have hzero : next - (sector + 1) * cfg.pagesPerSector = 0 := by omega
    refine .apart hswept' (.inl hzero) (.inr ⟨?_, [], ?_, ?_, ?_⟩)
    · exact hzero.trans_lt cfg.pagesPerSector_pos
    · rintro t ⟨⟩
    · dsimp only
      rw [hsum, heq]
      exact .nil
    · rwa [List.nil_append, List.append_assoc]
  · obtain ⟨m', t, rfl, hend, hkind⟩ := hcounted.crosses hlt (hne hlt)
    have hin := hcounted.inside t (List.mem_append_right m' List.mem_cons_self)
    rw [← List.append_assoc] at hswept
    have hswept' : Swept cfg mode live c
        ((sector + 1) * cfg.pagesPerSector + (next - (sector + 1) * cfg.pagesPerSector))
        ((sector + 1) * cfg.pagesPerSector + (next - (sector + 1) * cfg.pagesPerSector))
        (l ++ m' ++ [t]) l' := by
      rwa [hsum]
    refine .crossing hswept' ?_ (Nat.sub_pos_of_lt hlt) hin ?_
    · rwa [List.append_assoc, List.append_assoc, ← List.append_assoc m']
    · dsimp only
      have hsector : t.start / cfg.pagesPerSector = sector := by
        have hstart := (hm.covers.mem (List.mem_append_right m' List.mem_cons_self)).1
        exact Nat.div_eq_of_lt_le (by omega) hin
      rcases hkind with ⟨hkind, hlast, -⟩ | ⟨hkind, hlast⟩
      · exact .inl ⟨hkind, hlast⟩
      · obtain ⟨hle, hkept⟩ := h.safe t (List.mem_append_left l'
          (List.mem_append_right m' List.mem_cons_self)) hkind
          (by rw [hsector]; exact hlive hlt hlast)
          (by rw [cfg.sectorEnd_eq, hsector]; omega)
        rw [cfg.sectorEnd_eq, hsector] at hle
        rw [hsector] at hkept
        refine .inr ⟨hkind, hlast, by omega, hkept.behind fun u hu => ?_⟩
        exact Nat.lt_succ_of_le (hbefore u hu)

/-- `collect_garbage` erases a sector without active pages. -/
def Erasable (mode : GcMode) (stats : SectorStatus) : Prop :=
  mode = .reluctant ∧ stats.free = 0 ∨ mode = .greedy ∧ stats.obsolete > 0

/-- What happens to a sector, by its status. -/
def Outcome (cfg : CoffeeConfig) (mode : GcMode) (live : Set (ℕ × ℕ)) (c : Coffee) (sector : ℕ)
    (scan : SectorScan) : Prop :=
  ∃ stats n scan', Coffee.getSectorStatus cfg c.pages sector scan = some (stats, n, scan') ∧
    (0 < stats.active ∨ ¬Erasable mode stats → Sweep cfg mode live c (sector + 1) scan') ∧
    (stats.active = 0 → Erasable mode stats → ¬SectorLive cfg live sector ∧
      Sweep cfg mode live (c.eraseSector cfg sector n) (sector + 1) scan' ∧
      (∀ e ∈ live, ∀ p, e.1 ≤ p → p < e.1 + e.2 →
        (c.eraseSector cfg sector n).pages p = c.pages p) ∧
      (0 < n → scan'.skipPages < cfg.pagesPerSector))

/-- A sector that is not covered by an extent from before. -/
lemma Swept.outcome {sector : ℕ} {scan : SectorScan}
    (h : Swept cfg mode live c (sector * cfg.pagesPerSector + scan.skipPages)
      (sector * cfg.pagesPerSector + scan.skipPages) l l')
    (hnext : c.nextFree = cfg.pageCount ∨ ∃ t ∈ l ++ l', t.start = c.nextFree)
    (hsector : sector < cfg.sectorCount) (hscan : sector = 0 → scan = {})
    (hskip : scan.skipPages < cfg.pagesPerSector)
    (hactive : scan.lastPagesAreActive = true → 0 < scan.skipPages → SectorLive cfg live sector)
    (hcase : 0 < scan.skipPages ∧ scan.lastPagesAreActive = true ∨
      scan.lastPagesAreActive = false ∧ Kept cfg mode live l' sector ∧
        (∀ t ∈ l, t.kind = .live → t.start + t.len ≤ sector * cfg.pagesPerSector) ∨
      (scan.skipPages = 0 ∨ scan.lastPagesAreActive = false) ∧ ∃ l₁ iso, l = l₁ ++ iso ∧
        Laid cfg c.pages 0 (sector * cfg.pagesPerSector) l₁ ∧
        Laid cfg c.pages (sector * cfg.pagesPerSector)
          (sector * cfg.pagesPerSector + scan.skipPages) iso ∧
        ∀ t ∈ iso, t.kind = .isolated) :
    Outcome cfg mode live c sector scan := by
  have hsucc : (sector + 1) * cfg.pagesPerSector =
      sector * cfg.pagesPerSector + cfg.pagesPerSector := Nat.succ_mul _ _
  have hcount : (sector + 1) * cfg.pagesPerSector ≤ cfg.pageCount :=
    Nat.mul_le_mul_right _ hsector
  set stats₀ : SectorStatus := if scan.lastPagesAreActive then { active := scan.skipPages }
    else { obsolete := scan.skipPages } with hstats₀
  have hfree₀ : stats₀.free = 0 := by
    rw [hstats₀]
    split_ifs <;> rfl
  have hactive₀ : 0 < stats₀.active → SectorLive cfg live sector := by
    rw [hstats₀]
    split_ifs with hlast
    · exact hactive hlast
    · exact fun hpos => absurd hpos (lt_irrefl 0)
  have htotal₀ : stats₀.active + stats₀.obsolete + stats₀.free = scan.skipPages := by
    rw [hstats₀]
    split_ifs <;> simp
  obtain ⟨stats, last, next, m, l'', rfl, hm, hl'', hres, hcounted⟩ :=
    countPages_spec scan.lastPagesAreActive h.behind hcount (Nat.le_add_right _ _) hfree₀
      (show _ < _ + (cfg.pagesPerSector + 1) by omega) (Nat.succ_pos _)
  have hreaches := hcounted.reaches
  have htotal := hcounted.total
  have hskip' : stats.active + stats.obsolete + stats.free - cfg.pagesPerSector =
      next - (sector + 1) * cfg.pagesPerSector := by omega
  obtain ⟨stats', hstatus, hfree', hsame, hcap⟩ := getSectorStatus_count hscan hskip hres
  rw [hskip'] at hstatus
  have hmne : m ≠ [] := by
    intro hnil
    obtain ⟨rfl, -, -⟩ := hcounted.empty hnil
    omega
  have hsome : 0 < stats.active → SectorLive cfg live sector := by
    intro hpos
    by_cases hbefore : 0 < stats₀.active
    · exact hactive₀ hbefore
    · obtain ⟨t, ht, hlive⟩ := hcounted.some_live (by omega)
      obtain ⟨hstart, hlen, -⟩ := hm.covers.mem ht
      apply h.sectorLive (List.mem_append_right l (List.mem_append_left l'' ht)) hlive
      · exact hcounted.inside t ht
      · omega
  -- a live extent that goes on into the next sector leaves no room for as many obsolete pages
  have hzero : stats'.active = 0 →
      stats.active = 0 ∧ ((sector + 1) * cfg.pagesPerSector < next → last = false) := by
    intro hactive'
    rcases hreaches.eq_or_lt with heq | hlt
    · rw [hsame (by omega)] at hactive'
      exact ⟨hactive', fun hlt => absurd heq hlt.ne⟩
    · obtain ⟨hlast, hnot⟩ := hcap (by omega)
      cases last with
      | true =>
        obtain ⟨m', t, rfl, hend, ⟨-, -, hlen⟩ | ⟨-, ⟨⟩⟩⟩ := hcounted.crosses hlt hmne
        have hin := hcounted.inside t (List.mem_append_right m' List.mem_cons_self)
        have heq := hlast rfl
        omega
      | false => exact ⟨(hnot rfl).1.symm.trans hactive', fun _ => rfl⟩
  refine ⟨stats', _, _, hstatus, ?_, ?_⟩
  · intro hkept
    refine h.next hnext (Nat.le_add_right _ _) hm hl'' hcounted ?_ (fun _ => hmne)
    intro hcross hlast
    obtain ⟨hactive', hobsolete'⟩ := (hcap (by omega)).2 hlast
    by_cases hpos : 0 < stats.active
    · exact hsome hpos
    · -- the sector is full, and nothing in it is live
      exfalso
      have hfull : ¬stats₀.free < stats.free := fun hlt => (hcounted.exact hlt).not_gt hcross
      apply (hkept.resolve_left (by omega))
      cases mode with
      | greedy => exact .inr ⟨rfl, by omega⟩
      | reluctant => exact .inl ⟨rfl, by omega⟩
  · intro hactive' herasable
    obtain ⟨hnone, hlast⟩ := hzero hactive'
    have hbound := hcounted.active
    have hdead := hcounted.live (by omega)
    rcases hcase with ⟨hpos, hset⟩ | ⟨hset, hkept, hbefore⟩ | ⟨hset, l₁, iso, rfl, hl₁, hiso, hkind⟩
    · rw [hset] at hstats₀
      have hle := hcounted.active
      rw [hstats₀] at hle
      have hle' : scan.skipPages ≤ stats.active := hle
      omega
    · exfalso
      rcases hkept with ⟨e, he, hlow, hhigh⟩ | ⟨hmode, u, hu, hfree, hsector'⟩
      · obtain ⟨t, ht, hlive, rfl⟩ := (h.live_iff e).mp he
        dsimp only at hlow hhigh
        rcases List.mem_append.mp ht with ht | ht
        · have hend := hbefore t ht hlive
          omega
        · rcases List.mem_append.mp ht with ht | ht
          · exact hdead t ht hlive
          · have hstart := (hl''.covers.mem ht).1
            omega
      · -- the free page of the sector was counted
        have hin : u.start < (sector + 1) * cfg.pagesPerSector := by
          apply (Nat.div_lt_iff_lt_mul cfg.pagesPerSector_pos).mp
          omega
        rcases List.mem_append.mp hu with hu | hu
        · have hfull : stats.free ≠ stats₀.free := fun heq => hcounted.full heq u hu hfree
          rcases herasable with ⟨-, hzero⟩ | ⟨hgreedy, -⟩
          · omega
          · rw [hmode] at hgreedy
            cases hgreedy
        · have hstart := (hl''.covers.mem hu).1
          omega
    · have hswept : Swept cfg mode live c (sector * cfg.pagesPerSector)
          ((sector + 1) * cfg.pagesPerSector + (next - (sector + 1) * cfg.pagesPerSector)) l₁
          l'' := by
        rw [Nat.add_sub_of_le hreaches]
        refine ⟨hl₁, hl'', fun e => ?_, h.safe_behind hcounted hl''⟩
        rw [h.live_iff e, List.append_assoc, ← List.append_assoc iso]
        refine exists_live_append ?_ _
        intro t ht
        rcases List.mem_append.mp ht with ht | ht
        · rw [hkind t ht]
          exact fun hlive => nomatch hlive
        · exact hdead t ht
      have hnext' : sector * cfg.pagesPerSector ≤ c.nextFree ∨ ∃ t ∈ l₁, t.start = c.nextFree := by
        rcases hnext with hend | ⟨t, ht, hstart⟩
        · rw [hend]
          exact .inl (Nat.mul_le_mul_right _ hsector.le)
        · simp only [List.mem_append] at ht
          rcases ht with (ht | ht) | ht | ht
          · exact .inr ⟨t, ht, hstart⟩
          · have hlow := (hiso.covers.mem ht).1
            omega
          · have hlow := (hm.covers.mem ht).1
            omega
          · have hlow := (hl''.covers.mem ht).1
            omega
      have hlast' : next - (sector + 1) * cfg.pagesPerSector = 0 ∨ last = false := by
        rcases hreaches.eq_or_lt with heq | hlt
        · exact .inl (by rw [heq, Nat.sub_self])
        · exact .inr (hlast hlt)
      refine ⟨hswept.not_sectorLive (Nat.le_add_right _ _), ?_, ?_, isolationCount_lt⟩
      · exact Swept.erase ⟨next - (sector + 1) * cfg.pagesPerSector, last⟩ hswept hnext' hlast'
      · exact fun e he p hlow hhigh => hswept.eraseSector_live
          ⟨next - (sector + 1) * cfg.pagesPerSector, last⟩ he hlow hhigh

/-- What happens to the next sector. -/
lemma Sweep.outcome {sector : ℕ} {scan : SectorScan} (h : Sweep cfg mode live c sector scan)
    (hsector : sector < cfg.sectorCount) (hscan : sector = 0 → scan = {}) :
    Outcome cfg mode live c sector scan := by
  have hpos := cfg.pagesPerSector_pos
  have hsucc : (sector + 1) * cfg.pagesPerSector =
      sector * cfg.pagesPerSector + cfg.pagesPerSector := Nat.succ_mul _ _
  rcases h with ⟨h, hnext, hskip, hstart, hkind⟩ | ⟨h, hlast, hskip⟩
  · rename_i l l' t
    have hend : t.start + t.len = sector * cfg.pagesPerSector + scan.skipPages := by
      obtain ⟨k, -, ht⟩ := h.before.split
      obtain ⟨rfl, -, -, hnil⟩ := ht.uncons
      exact hnil.covers
    have hbefore : ∀ u ∈ l, u.start + u.len ≤ t.start := by
      obtain ⟨k, hl, ht⟩ := h.before.split
      obtain ⟨rfl, -, -, -⟩ := ht.uncons
      exact fun u hu => (hl.covers.mem hu).2.2
    by_cases hfull : cfg.pagesPerSector ≤ scan.skipPages
    · rcases hkind with ⟨hkind, hlast⟩ | ⟨hkind, hlast, hle, hkept⟩
      · refine ⟨{ active := cfg.pagesPerSector }, 0,
          { scan with skipPages := scan.skipPages - cfg.pagesPerSector }, ?_, ?_, ?_⟩
        · unfold Coffee.getSectorStatus
          dsimp only
          rw [scan_reset hscan, if_pos ⟨hlast, hfull⟩]
        · intro _
          have hsum : sector * cfg.pagesPerSector + scan.skipPages =
              (sector + 1) * cfg.pagesPerSector +
                (scan.skipPages - cfg.pagesPerSector) := by omega
          rw [hsum] at h
          by_cases hmore : 0 < scan.skipPages - cfg.pagesPerSector
          · exact .crossing h hnext hmore (by omega) (.inl ⟨hkind, hlast⟩)
          · have hzero : scan.skipPages - cfg.pagesPerSector = 0 := Nat.eq_zero_of_not_pos hmore
            refine .apart (l := l ++ [t]) ?_ (.inl hzero)
              (.inr ⟨hzero.trans_lt hpos, [], ?_, ?_, hnext⟩)
            · dsimp only
              rw [hzero] at h ⊢
              exact h
            · rintro t ⟨⟩
            · dsimp only
              rw [hzero]
              exact .nil
        · intro hzero
          exact absurd hzero hpos.ne'
      · -- the extent covers the sector, so it is not kept
        exfalso
        rcases hkept with ⟨e, he, hlow, hhigh⟩ | ⟨-, u, hu, -, hsector'⟩
        · obtain ⟨u, hu, hlive, rfl⟩ := (h.live_iff e).mp he
          dsimp only at hlow hhigh
          simp only [List.mem_append, List.mem_singleton] at hu
          rcases hu with (hu | rfl) | hu
          · have hle := hbefore u hu
            omega
          · rw [hkind] at hlive
            cases hlive
          · have hstart := (h.behind.covers.mem hu).1
            omega
        · have hstart := (h.behind.covers.mem hu).1
          have hsector'' : sector + 1 ≤ u.start / cfg.pagesPerSector :=
            (Nat.le_div_iff_mul_le hpos).mpr (by omega)
          omega
    · refine h.outcome hnext hsector hscan (Nat.lt_of_not_le hfull) ?_ ?_
      · intro hlast _
        rcases hkind with ⟨hkind, -⟩ | ⟨-, hlast', -⟩
        · apply h.sectorLive (List.mem_append_left l' (List.mem_append_right l
            List.mem_cons_self)) hkind
          · omega
          · omega
        · rw [hlast] at hlast'
          cases hlast'
      · rcases hkind with ⟨hkind, hlast⟩ | ⟨hkind, hlast, -, hkept⟩
        · exact .inl ⟨hskip, hlast⟩
        · refine .inr (.inl ⟨hlast, hkept, ?_⟩)
          intro u hu hlive
          rcases List.mem_append.mp hu with hu | hu
          · have hle := hbefore u hu
            omega
          · rw [List.mem_singleton.mp hu, hkind] at hlive
            cases hlive
  · rename_i l l'
    rcases hskip with ⟨hfull, hfree⟩ | ⟨hless, iso, hkind, hiso, hnext⟩
    · have hlast' : scan.lastPagesAreActive = false := by
        rcases hlast with hzero | hlast
        · omega
        · exact hlast
      refine ⟨{ obsolete := cfg.pagesPerSector },
        isolationCount cfg { scan with skipPages := scan.skipPages - cfg.pagesPerSector },
        { scan with skipPages := scan.skipPages - cfg.pagesPerSector }, ?_, ?_, ?_⟩
      · unfold Coffee.getSectorStatus isolationCount
        dsimp only
        rw [scan_reset hscan, if_neg (by simp [hlast']), if_pos ⟨by simp [hlast'], hfull⟩, hlast']
        simp only [Bool.false_eq_true, false_or]
      · intro hkept
        exfalso
        rcases hkept with hactive | hnot
        · exact absurd hactive (lt_irrefl 0)
        · apply hnot
          cases mode with
          | greedy => exact .inr ⟨rfl, hpos⟩
          | reluctant => exact .inl ⟨rfl, rfl⟩
      · intro _ _
        have hsum : sector * cfg.pagesPerSector + scan.skipPages =
            (sector + 1) * cfg.pagesPerSector + (scan.skipPages - cfg.pagesPerSector) := by omega
        rw [hsum] at h
        refine ⟨h.not_sectorLive (Nat.le_add_right _ _), ?_, ?_, isolationCount_lt⟩
        · exact Swept.erase { scan with skipPages := scan.skipPages - cfg.pagesPerSector } h
            (.inr hfree) (.inr hlast')
        · exact fun e he p hlow hhigh => Swept.eraseSector_live
            { scan with skipPages := scan.skipPages - cfg.pagesPerSector } h he hlow hhigh
    · have hswept : Swept cfg mode live c (sector * cfg.pagesPerSector + scan.skipPages)
          (sector * cfg.pagesPerSector + scan.skipPages) (l ++ iso) l' := by
        refine ⟨h.before.append hiso, h.behind, fun e => ?_, h.safe⟩
        rw [h.live_iff e, List.append_assoc]
        refine (exists_live_append ?_ _).symm
        intro t ht
        rw [hkind t ht]
        exact fun hlive => nomatch hlive
      refine hswept.outcome (by rwa [List.append_assoc]) hsector hscan hless ?_
        (.inr (.inr ⟨hlast, l, iso, rfl, h.before, hiso, hkind⟩))
      intro hset hpos'
      rcases hlast with hzero | hlast
      · omega
      · rw [hset] at hlast
        cases hlast

/-- What holds between two sectors is a layout, unless a sector is still to be erased. -/
lemma Sweep.sound {sector : ℕ} {scan : SectorScan} (h : Sweep cfg mode live c sector scan)
    (hdone : scan.skipPages < cfg.pagesPerSector ∨ sector = cfg.sectorCount) :
    ∃ tiles, Sound cfg live c tiles := by
  rcases h with ⟨h, hnext, -, -, -⟩ | ⟨h, -, hskip⟩
  · exact ⟨_, h.before.append h.behind, h.live_iff, hnext⟩
  · rcases hskip with ⟨hfull, -⟩ | ⟨-, iso, hkind, hiso, hnext⟩
    · exfalso
      rcases hdone with hless | rfl
      · omega
      · have hle : cfg.sectorCount * cfg.pagesPerSector + scan.skipPages ≤
            cfg.sectorCount * cfg.pagesPerSector := h.behind.covers.le
        have hpos := cfg.pagesPerSector_pos
        omega
    · refine ⟨_, h.before.append (hiso.append h.behind), fun e => ?_, hnext⟩
      rw [h.live_iff e]
      refine (exists_live_append ?_ _).symm
      intro t ht
      rw [hkind t ht]
      exact fun hlive => nomatch hlive

/-- The sweep ends; it erases sectors that are not live, and spares the live extents. -/
lemma collectSectors_spec {count sector : ℕ} {scan : SectorScan}
    (h : Sweep cfg mode live c sector scan) (hcount : sector + count = cfg.sectorCount)
    (hscan : sector = 0 → scan = {}) :
    ∃ c' erased, Coffee.collectSectors cfg mode count sector scan c = some (c', erased) ∧
      (∃ tiles, Sound cfg live c' tiles) ∧ (∀ s ∈ erased, ¬SectorLive cfg live s) ∧
      ∀ e ∈ live, ∀ p, e.1 ≤ p → p < e.1 + e.2 → c'.pages p = c.pages p := by
  induction count generalizing sector scan c with
  | zero => exact ⟨c, [], rfl, h.sound (.inr hcount), by rintro s ⟨⟩, fun _ _ _ _ _ => rfl⟩
  | succ count ih =>
    obtain ⟨stats, n, scan', hstatus, hkeep, herase⟩ := h.outcome (by omega) hscan
    have hzero : sector + 1 = 0 → scan' = {} := fun h => nomatch h
    rw [Coffee.collectSectors, hstatus]
    dsimp only
    by_cases hactive : stats.active > 0
    · rw [if_pos hactive]
      exact ih (hkeep (.inl hactive)) (by omega) hzero
    · rw [if_neg hactive]
      by_cases herasable : mode = .reluctant ∧ stats.free = 0 ∨ mode = .greedy ∧ stats.obsolete > 0
      · rw [if_pos herasable]
        obtain ⟨hdead, hsweep, hsame, hless⟩ := herase (by omega) herasable
        by_cases hbreak : mode = .reluctant ∧ n > 0
        · rw [if_pos hbreak]
          refine ⟨_, _, rfl, hsweep.sound (.inl (hless hbreak.2)), ?_, hsame⟩
          intro s hs
          rwa [List.mem_singleton.mp hs]
        · rw [if_neg hbreak]
          obtain ⟨c', erased, hres, hsound, herased, hsame'⟩ := ih hsweep (by omega) hzero
          refine ⟨c', sector :: erased, by rw [hres]; rfl, hsound, ?_, ?_⟩
          · intro s hs
            rcases List.mem_cons.mp hs with rfl | hs
            · exact hdead
            · exact herased s hs
          · intro e he p hlow hhigh
            rw [hsame' e he p hlow hhigh, hsame e he p hlow hhigh]
      · rw [if_neg herasable]
        exact ih (hkeep (.inr herasable)) (by omega) hzero

/-- A collection ends, erases no sector with a page of a live extent, and keeps the layout, when no
extent loses pages to the next sector while its header stays. -/
lemma collectGarbage_spec {tiles : List Tile} (h : Sound cfg live c tiles)
    (hsafe : ∀ t ∈ tiles, t.kind = .obsolete → Anchored cfg mode live tiles t) :
    ∃ c' erased, c.collectGarbage cfg mode = some (c', erased) ∧
      (∃ tiles, Sound cfg live c' tiles) ∧ (∀ s ∈ erased, ¬SectorLive cfg live s) ∧
      ∀ e ∈ live, ∀ p, e.1 ≤ p → p < e.1 + e.2 → c'.pages p = c.pages p := by
  have hlaid : Laid cfg c.pages (0 * cfg.pagesPerSector) cfg.pageCount tiles := by
    rw [Nat.zero_mul]
    exact h.laid
  have hnil : Laid cfg c.pages 0 (0 * cfg.pagesPerSector) [] := by
    rw [Nat.zero_mul]
    exact .nil
  have hswept : Swept cfg mode live c (0 * cfg.pagesPerSector)
      (0 * cfg.pagesPerSector + ({} : SectorScan).skipPages) [] tiles :=
    ⟨hnil, hlaid, h.live_iff, hsafe⟩
  have hsweep : Sweep cfg mode live c 0 {} :=
    .apart hswept (.inl rfl) (.inr ⟨cfg.pagesPerSector_pos, [], by rintro t ⟨⟩, .nil, h.nextFree⟩)
  exact collectSectors_spec hsweep (Nat.zero_add _) fun _ => rfl

end

end Contiki

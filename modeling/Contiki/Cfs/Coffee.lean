import Mathlib.Algebra.Group.Nat.Defs
import Mathlib.Data.Nat.Basic
import Mathlib.Tactic.Common

/-!
# The Coffee file system: extents, allocation and garbage collection

The part of Coffee that works on headers.  A page is seen as the header that `read_header` gets from
its beginning; on an erased page, that is the header with no flag set.  Only the first page of an
extent holds a header.

A loop over headers does not end when it meets a header with the extent of no page; then there is no
result.
-/

namespace Contiki

/-- The configuration of Coffee. -/
structure CoffeeConfig where
  /-- `COFFEE_PAGES_PER_SECTOR`. -/
  pagesPerSector : ℕ
  /-- `COFFEE_SECTOR_COUNT`. -/
  sectorCount : ℕ
  /-- `COFFEE_NAME_LENGTH`. -/
  nameLength : ℕ
  /-- The mask of `next_file` finds the borders of sectors for powers of two only; of the platforms, all
  but MSB-430 have one. -/
  pagesPerSector_two : ∃ k, pagesPerSector = 2 ^ k

lemma CoffeeConfig.pagesPerSector_pos (cfg : CoffeeConfig) : 0 < cfg.pagesPerSector := by
  obtain ⟨k, hk⟩ := cfg.pagesPerSector_two
  rw [hk]
  exact Nat.two_pow_pos k

def CoffeeConfig.pageCount (cfg : CoffeeConfig) : ℕ := cfg.sectorCount * cfg.pagesPerSector

/-- The flags of a header. -/
structure HdrFlags where
  valid : Bool := false
  allocated : Bool := false
  obsolete : Bool := false
  modified : Bool := false
  log : Bool := false
  isolated : Bool := false
deriving DecidableEq

structure FileHeader where
  logPage : ℕ := 0
  logRecords : ℕ := 0
  logRecordSize : ℕ := 0
  maxPages : ℕ := 0
  flags : HdrFlags := {}
  name : String := ""

def FileHeader.free (hdr : FileHeader) : Bool := !hdr.flags.allocated

def FileHeader.active (hdr : FileHeader) : Bool :=
  hdr.flags.allocated && !hdr.flags.obsolete && !hdr.flags.isolated

/-- The pages, `*next_free` and `*gc_wait`.  The extents in `live`, each with its first page and its
length, were allocated and not removed since; no operation looks at them. -/
structure Coffee where
  pages : ℕ → FileHeader
  nextFree : ℕ
  gcWait : Bool
  live : List (ℕ × ℕ)

structure SectorStatus where
  active : ℕ := 0
  obsolete : ℕ := 0
  free : ℕ := 0

/-- The static variables of `get_sector_status`. -/
structure SectorScan where
  skipPages : ℕ := 0
  lastPagesAreActive : Bool := false

/-- The modes of garbage collection. -/
inductive GcMode
  | greedy | reluctant
deriving DecidableEq

namespace Coffee
variable (cfg : CoffeeConfig)

def writeHeader (c : Coffee) (hdr : FileHeader) (page : ℕ) : Coffee :=
  let hdr := { hdr with flags := { hdr.flags with valid := true } }
  { c with pages := fun p => if p = page then hdr else c.pages p }

def erase (c : Coffee) (sector : ℕ) : Coffee :=
  { c with pages := fun p => if p / cfg.pagesPerSector = sector then {} else c.pages p }

/-- `page & ~mask`. -/
def clearBits (page mask : ℕ) : ℕ := page - (page &&& mask)

def nextFile (page : ℕ) (hdr : FileHeader) : ℕ :=
  if hdr.free then clearBits (page + cfg.pagesPerSector) (cfg.pagesPerSector - 1)
  else if hdr.flags.isolated then page + 1
  else page + hdr.maxPages

/-- From a free page the scan goes on with the next sector. -/
lemma clearBits_sector (page : ℕ) : clearBits page (cfg.pagesPerSector - 1) =
    page / cfg.pagesPerSector * cfg.pagesPerSector := by
  obtain ⟨k, hk⟩ := cfg.pagesPerSector_two
  rw [clearBits, hk, Nat.and_two_pow_sub_one_eq_mod, Nat.mul_comm]
  have hdiv := Nat.div_add_mod page (2 ^ k)
  omega

/-! ## Garbage collection -/

/-- The loop of `get_sector_status`, with the value that `last_pages_are_active` has after it. -/
def countPages (pages : ℕ → FileHeader) (sectorEnd : ℕ) :
    ℕ → ℕ → SectorStatus → Bool → Option (SectorStatus × Bool)
  | 0, _, _, _ => none
  | fuel + 1, page, stats, last =>
    if page < sectorEnd then
      let hdr := pages page
      if hdr.active then
        countPages pages sectorEnd fuel (page + hdr.maxPages)
          { stats with active := stats.active + hdr.maxPages } true
      else if hdr.flags.isolated then
        countPages pages sectorEnd fuel (page + 1)
          { stats with obsolete := stats.obsolete + 1 } false
      else if hdr.flags.obsolete then
        countPages pages sectorEnd fuel (page + hdr.maxPages)
          { stats with obsolete := stats.obsolete + hdr.maxPages } false
      else some ({ stats with free := sectorEnd - page }, false)
    else some (stats, last)

/-- `get_sector_status`: the status, the pages to isolate and the static variables afterwards. -/
def getSectorStatus (pages : ℕ → FileHeader) (sector : ℕ) (scan : SectorScan) :
    Option (SectorStatus × ℕ × SectorScan) :=
  let n := cfg.pagesPerSector
  let scan := if sector = 0 then {} else scan
  let skip := scan.skipPages
  if scan.lastPagesAreActive ∧ skip ≥ n then
    some ({ active := n }, 0, { scan with skipPages := skip - n })
  else if ¬scan.lastPagesAreActive ∧ skip ≥ n then
    some ({ obsolete := n }, if skip - n ≥ n then 0 else skip - n,
      { scan with skipPages := skip - n })
  else
    let stats : SectorStatus :=
      if scan.lastPagesAreActive then { active := skip } else { obsolete := skip }
    let start := sector * n
    (countPages pages (start + n) (n + 1) (start + skip) stats scan.lastPagesAreActive).map
      fun (stats, last) =>
        let skip := stats.active + stats.obsolete + stats.free - n
        let stats :=
          if skip > 0 then
            if last then { stats with active := n - stats.obsolete }
            else { stats with obsolete := n - stats.active }
          else stats
        (stats, if last ∨ skip ≥ n then 0 else skip, ⟨skip, last⟩)

def isolatePages (c : Coffee) (start skipPages : ℕ) : Coffee :=
  (List.range skipPages).foldl
    (fun c page => c.writeHeader { flags := { allocated := true, isolated := true } } (start + page))
    c

/-- The erasure of a sector by `collect_garbage`. -/
def eraseSector (c : Coffee) (sector isolationCount : ℕ) : Coffee :=
  let firstPage := sector * cfg.pagesPerSector
  let c := if firstPage < c.nextFree then { c with nextFree := firstPage } else c
  let c :=
    if isolationCount > 0 then c.isolatePages (firstPage + cfg.pagesPerSector) isolationCount
    else c
  c.erase cfg sector

/-- The loop of `collect_garbage` over the given number of sectors; also the sectors that are
erased. -/
def collectSectors (mode : GcMode) : ℕ → ℕ → SectorScan → Coffee → Option (Coffee × List ℕ)
  | 0, _, _, c => some (c, [])
  | count + 1, sector, scan, c =>
    match getSectorStatus cfg c.pages sector scan with
    | none => none
    | some (stats, isolationCount, scan) =>
      if stats.active > 0 then collectSectors mode count (sector + 1) scan c
      else if mode = .reluctant ∧ stats.free = 0 ∨ mode = .greedy ∧ stats.obsolete > 0 then
        let c := c.eraseSector cfg sector isolationCount
        if mode = .reluctant ∧ isolationCount > 0 then some (c, [sector])
        else (collectSectors mode count (sector + 1) scan c).map fun (c, erased) =>
          (c, sector :: erased)
      else collectSectors mode count (sector + 1) scan c

def collectGarbage (c : Coffee) (mode : GcMode) : Option (Coffee × List ℕ) :=
  collectSectors cfg mode cfg.sectorCount 0 {} c

/-! ## Allocation -/

/-- The loop of `find_contiguous_pages`; `INVALID_PAGE` is `none`. -/
def findPages (pages : ℕ → FileHeader) (amount : ℕ) : ℕ → ℕ → Option ℕ → Option (Option ℕ)
  | 0, _, _ => none
  | fuel + 1, page, start =>
    if page < cfg.pageCount then
      let hdr := pages page
      if hdr.free then
        if start = none ∧ page + amount ≥ cfg.pageCount then some none
        else
          let start := start.getD page
          let page := nextFile cfg page hdr
          if start + amount ≤ page then some (some start)
          else findPages pages amount fuel page (some start)
      else findPages pages amount fuel (nextFile cfg page hdr) none
    else some none

def findContiguousPages (c : Coffee) (amount : ℕ) : Option (Option ℕ × Coffee) :=
  (findPages cfg c.pages amount (cfg.pageCount + 1) c.nextFree none).map fun start =>
    (start, if start = some c.nextFree then { c with nextFree := c.nextFree + amount } else c)

/-- The pages for `reserve`, after a garbage collection if need be. -/
def reservePages (c : Coffee) (amount : ℕ) : Option (Option ℕ × Coffee) :=
  match c.findContiguousPages cfg amount with
  | none => none
  | some (some page, c) => some (some page, c)
  | some (none, c) =>
    if c.gcWait then some (none, c)
    else
      match c.collectGarbage cfg .greedy with
      | none => none
      | some (c, _) =>
        match c.findContiguousPages cfg amount with
        | none => none
        | some (some page, c) => some (some page, c)
        | some (none, c) => some (none, { c with gcWait := true })

/-- `reserve`, up to `load_file`; a name that must not exist yet was looked up before. -/
def reserve (c : Coffee) (name : String) (pages : ℕ) (flags : HdrFlags) :
    Option (Option ℕ × Coffee) :=
  (c.reservePages cfg pages).map fun (page, c) =>
    match page with
    | none => (none, c)
    | some page =>
      (some page,
        { c.writeHeader
            { name := (name.take (cfg.nameLength - 1)).toString
              maxPages := pages
              flags := { flags with allocated := true } } page with
          live := (page, pages) :: c.live })

/-! ## Removal -/

/-- The end of `remove_by_page`: an extent becomes obsolete. -/
def markObsolete (c : Coffee) (hdr : FileHeader) (page : ℕ) : Coffee :=
  { c.writeHeader { hdr with flags := { hdr.flags with obsolete := true } } page with
    gcWait := false
    live := c.live.filter fun e => e.1 ≠ page }

/-- `remove_by_page` without `REMOVE_LOG`: whether it succeeds, and the state afterwards. -/
def removePage (c : Coffee) (page : ℕ) : Bool × Coffee :=
  let hdr := c.pages page
  if hdr.active then (true, c.markObsolete hdr page) else (false, c)

/-- `remove_by_page` with `REMOVE_LOG`. -/
def removeByPage (c : Coffee) (page : ℕ) : Bool × Coffee :=
  let hdr := c.pages page
  if hdr.active ∧ hdr.flags.modified then
    match c.removePage hdr.logPage with
    | (true, c) => (true, c.markObsolete hdr page)
    | (false, c) => (false, c)
  else c.removePage page

/-! ## Logs -/

/-- `create_log`, with the number of pages that the log takes; `loaded` says whether `load_file`
finds a place for the log.  The result is the page of the log. -/
def createLog (c : Coffee) (page logPages : ℕ) (loaded : Bool) : Option (Option ℕ × Coffee) :=
  let hdr := c.pages page
  (c.reserve cfg hdr.name logPages { log := true }).map fun (logPage, c) =>
    match logPage with
    | none => (none, c)
    | some logPage =>
      if loaded then
        (some logPage, c.writeHeader
          { hdr with logPage, flags := { hdr.flags with modified := true } } page)
      else (none, c)

/-- What was written to the pages of a file, other than its header. -/
def writeData (c : Coffee) (page pages : ℕ) (data : ℕ → FileHeader) : Coffee :=
  { c with pages := fun p => if page < p ∧ p < page + pages then data p else c.pages p }

/-- `merge_log`, when the file can be opened; `loaded` says whether `load_file` finds a place for
the new file, and `data` is what its pages hold after copying. -/
def mergeLog (c : Coffee) (page extend : ℕ) (loaded : Bool) (data : ℕ → FileHeader) :
    Option (Bool × Coffee) :=
  let hdr := c.pages page
  let maxPages := hdr.maxPages <<< extend
  (c.reserve cfg hdr.name maxPages {}).map fun (newPage, c) =>
    match newPage with
    | none => (false, c)
    | some newPage =>
      if loaded then
        let c := c.writeData newPage maxPages data
        match c.removeByPage page with
        | (false, c) => (false, (c.removePage newPage).2)
        | (true, c) =>
          let hdr2 := c.pages newPage
          (true, c.writeHeader
            { hdr2 with logRecordSize := hdr.logRecordSize, logRecords := hdr.logRecords } newPage)
      else (false, c)

/-- `cfs_coffee_configure_log` on a file without a log. -/
def configureLog (c : Coffee) (page logRecords logRecordSize : ℕ) : Coffee :=
  let hdr := c.pages page
  if hdr.flags.modified then c else c.writeHeader { hdr with logRecords, logRecordSize } page

/-- What happens to the pages.  A file is named by its first page. -/
inductive Op
  /-- `reserve`, for a new file. -/
  | create (name : String) (pages : ℕ)
  /-- `create_log`. -/
  | createLog (page logPages : ℕ) (loaded : Bool)
  /-- `merge_log`. -/
  | merge (page extend : ℕ) (loaded : Bool) (data : ℕ → FileHeader)
  /-- `remove_by_page`, for `cfs_remove`. -/
  | remove (page : ℕ)
  /-- `cfs_coffee_configure_log`. -/
  | configureLog (page logRecords logRecordSize : ℕ)
  /-- Data is written behind the header of an extent. -/
  | write (page : ℕ) (data : ℕ → FileHeader)
  /-- `collect_garbage`. -/
  | collect (mode : GcMode)

/-- The state after an operation; without a result when a loop does not end. -/
def apply (c : Coffee) : Op → Option Coffee
  | .create name pages => (c.reserve cfg name pages {}).map Prod.snd
  | .createLog page logPages loaded => (c.createLog cfg page logPages loaded).map Prod.snd
  | .merge page extend loaded data => (c.mergeLog cfg page extend loaded data).map Prod.snd
  | .remove page => some (c.removeByPage page).2
  | .configureLog page logRecords logRecordSize =>
    some (c.configureLog page logRecords logRecordSize)
  | .write page data => some (c.writeData page (c.pages page).maxPages data)
  | .collect mode => (c.collectGarbage cfg mode).map Prod.fst

end Coffee

end Contiki

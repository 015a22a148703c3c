/-
`load_sbios`: the SBIOS file is brought into `sbiosbin`, searched for its call
table, and the disabled calls are removed from it.

An ELF file is checked and copied in one loop, which `check_sections` has for
this purpose.  The result is what `copy_sections` would have left at the place
where the SBIOS is installed later.

Addresses are machine addresses; `sbiosbin` is reached under one address only.
-/

import KernelReloaded.Loader.SbiosScan
import KernelReloaded.Loader.SectionCopy

namespace KernelReloaded.SbiosLoading

open Memory CText Elf Boot SbiosScan

/-! ### Filling `sbiosbin` -/

/-- The static array, somewhere in the loader. -/
structure Sbiosbin where
  address : Nat
  fits : address + maxSbiosSize ≤ 4294967296
  aligned : address % 4 = 0

/-- A file in memory of its own, and `sbios_size`. -/
structure SbiosFile where
  bytes : Image
  size : Int

def startAddress : Nat := sbiosStartAddress.toNat

def clearSbiosbin (memory : Image) (bin : Sbiosbin) : Image :=
  writeCells memory
    (Store.cells u32
      { dest := bin.address, size := maxSbiosSize, byte := fun _ => 0 })

/-- The check of an ELF file, which copies it to `sbiosbin`. -/
def checkSbios (bin : Sbiosbin) (file : SbiosFile) :
    CheckState × Option SectionError :=
  checkSections file.bytes (u32OfInt file.size) startAddress
    (startAddress + maxSbiosSize) (some bin.address)

def sbiosCells (bin : Sbiosbin) (file : SbiosFile) : List (Nat × Byte) :=
  (checkSbios bin file).1.stores.flatMap (Store.cells u32)

def sbiosSize (bin : Sbiosbin) (file : SbiosFile) : Int :=
  toInt32 ((checkSbios bin file).1.highest + 4294967296 - physaddr startAddress)

/-- Memory and `sbios_size` when the file has been copied to `sbiosbin`. -/
def fillSbiosbin (memory : Image) (bin : Sbiosbin) (file : SbiosFile) :
    Except Text (Image × Int) :=
  let cleared := clearSbiosbin memory bin
  if file.size < 8 ∨ le32 file.bytes 4 ≠ magicCheck then
    match (checkSbios bin file).2 with
    | some error => .error (error.message "SBIOS".toList)
    | none =>
        .ok (writeCells cleared (sbiosCells bin file), sbiosSize bin file)
  else if file.size ≥ maxSbiosSize then
    .error "SBIOS file is too large.".toList
  else
    .ok (writeCells cleared
      ((kmemcpy bin.address file.bytes (u32OfInt file.size)).flatMap
        (Store.cells u32)), file.size)

/-! ### Searching `sbiosbin` -/

def wordsRead : List Instr → ScanState → Nat
  | [], _ => 0
  | instr :: rest, state =>
      match loaderStep state instr with
      | .next next => wordsRead rest next + 1
      | .leave _ => 1

/-- The words `getSBIOSCallTable` reads: the header and then instructions. -/
def callTableReads (memory : Image) (addr : BitVec 32) : List (BitVec 32) :=
  [addr, addr + 4] ++
    if readWord memory (addr + 4) ≠ BitVec.ofNat 32 magicCheck then []
    else
      (List.range
        (wordsRead (code memory (entrypoint memory addr))
          ScanState.initial)).map fun index =>
        entrypoint memory addr + BitVec.ofNat 32 (4 * index)

def callTableErrors (memory : Image) (addr : BitVec 32) : List Text :=
  if readWord memory (addr + 4) ≠ BitVec.ofNat 32 magicCheck then
    ["SBIOS file is incorrect (magic is wrong).".toList]
  else if scan loaderStep (code memory (entrypoint memory addr))
      ScanState.initial = 0 then
    ["SBIOS call table not found.".toList]
  else []

/-- The variables of the search, with `bootinfo.sbios_base`. -/
structure Search where
  found : Bool
  sbiosBase : BitVec 32
  callTable : BitVec 32
  reads : List (BitVec 32)
  errors : List Text

def Sbiosbin.word (bin : Sbiosbin) (index : Nat) : BitVec 32 :=
  BitVec.ofNat 32 (bin.address + 4 * index)

/-- The header of a magic word begins with the word before it. -/
def searchHeader (memory : Image) (bin : Sbiosbin) (search : Search)
    (index : Nat) : Search :=
  let header := bin.word (index - 1)
  { found := true
    sbiosBase := sbiosStartAddress + BitVec.ofNat 32 ((index - 1) * 4)
    callTable := getSBIOSCallTable memory header
    reads := search.reads ++ callTableReads memory header
    errors := search.errors ++ callTableErrors memory header }

def isMagic (memory : Image) (bin : Sbiosbin) (index : Nat) : Bool :=
  readWord memory (bin.word index) = BitVec.ofNat 32 magicCheck

def searchLoop (memory : Image) (bin : Sbiosbin) :
    List Nat → Search → Search
  | [], search => search
  | index :: rest, search =>
      if isMagic memory bin index then
        let search := searchHeader memory bin search index
        if search.callTable ≠ 0 then search
        else searchLoop memory bin rest search
      else searchLoop memory bin rest search

def searchIndices (size : Int) : List Nat :=
  List.range' 1 ((size / 4).toNat - 1)

/-! ### `load_sbios` -/

def numberOfSbiosCalls : Nat := 219

/-- The entries `disableSBIOSCalls` clears. -/
def disabledEntries (sbiosCallEnabled : Nat → Int) (callTable : BitVec 32) :
    List (BitVec 32) :=
  ((List.range numberOfSbiosCalls).filter fun index =>
    sbiosCallEnabled index = 0).map fun index =>
      callTable + BitVec.ofNat 32 (4 * index)

def disableSBIOSCalls (memory : Image) (entries : List (BitVec 32)) : Image :=
  writeCells memory (entries.flatMap fun entry =>
    Store.cells u32 { dest := entry.toNat, size := 4, byte := fun _ => 0 })

/-- `loaded` is the memory when `sbiosbin` is returned, `none` for `NULL`. -/
structure SbiosRun where
  loaded : Option Image
  search : Search
  writes : List (BitVec 32)
  errors : List Text

/-- `file` is `none` when neither the ROM nor `load_file` has it. -/
def loadSbios (memory : Image) (bin : Sbiosbin) (file : Option SbiosFile)
    (sbiosCallEnabled : Nat → Int) (sbiosBase : BitVec 32) : SbiosRun :=
  let initial : Search :=
    { found := false, sbiosBase := sbiosBase, callTable := 0, reads := []
      errors := [] }
  match file with
  | none =>
      { loaded := none, search := initial, writes := []
        errors := ["Failed to load sbios.elf".toList] }
  | some file =>
      match fillSbiosbin memory bin file with
      | .error text =>
          { loaded := none, search := initial, writes := [], errors := [text] }
      | .ok (filled, size) =>
          let search := searchLoop filled bin (searchIndices size) initial
          if search.callTable = 0 then
            { loaded := none, search := search, writes := []
              errors := search.errors ++
                if search.found then []
                else ["SBIOS file is invalid, magic not found.".toList] }
          else
            let entries := disabledEntries sbiosCallEnabled search.callTable
            { loaded := some (disableSBIOSCalls filled entries)
              search := search, writes := entries, errors := search.errors }

/-! ### The ELF file in `sbiosbin` -/

section

variable {bin : Sbiosbin} {file : SbiosFile}

theorem clearSbiosbin_at (memory : Image) (bin : Sbiosbin) (offset : Nat)
    (inside : offset < maxSbiosSize) :
    clearSbiosbin memory bin (bin.address + offset) = 0 := by
  have fits := bin.fits
  apply writeCells_of_mem
  · refine Store.mem_cells.mpr ⟨offset, inside, ?_⟩
    have whole : u32 (bin.address + offset) = bin.address + offset :=
      Nat.mod_eq_of_lt (by omega)
    rw [whole]
  · intro cell written _same
    obtain ⟨index, -, rfl⟩ := Store.mem_cells.mp written
    rfl

theorem header_inside (fit : EndsFit file.bytes)
    (accepted : returnCode (checkSbios bin file) = 0) {header : ProgramHeader}
    (member : header ∈ (layoutOf file.bytes).programHeaders file.bytes)
    (loaded : header.Loaded) :
    header.Checked ∧
      header.last = physaddr (u32 header.paddr) + header.extent ∧
      sbiosStart ≤ physaddr (u32 header.paddr) ∧
      header.last < sbiosStart + maxSbiosSize ∧
      header.last ≤ (checkSbios bin file).1.highest := by
  obtain ⟨-, -, loop⟩ := checkSections_accepted _ _ _ _ _ accepted
  have bound := fit header member loaded
  have present := loaded.2
  have sizes := header.size_cases
  have size : header.size = header.extent := by
    unfold ProgramHeader.extent
    unfold u32 at sizes
    omega
  have isChecked : header.Checked := by
    refine ⟨loaded, ?_⟩
    unfold ProgramHeader.extent at size
    omega
  obtain ⟨passes, highest⟩ := loop.passes header member isChecked
  refine ⟨isChecked, ?_, passes.afterStart, passes.beforeFinish, highest⟩
  rw [ProgramHeader.last, size]
  exact Nat.mod_eq_of_lt bound

theorem sbiosCells_eq_map (fit : EndsFit file.bytes)
    (accepted : returnCode (checkSbios bin file) = 0) :
    sbiosCells bin file =
      (copiedCells file.bytes).map fun cell =>
        (bin.address + (cell.1 - sbiosStart), cell.2) := by
  have magic := (checkSections_accepted _ _ _ _ _ accepted).magic
  have fits := bin.fits
  unfold sbiosCells checkSbios
  rw [checkSections_stores _ _ _ _ _ accepted, List.flatMap_assoc,
    copiedCells_eq_flatMap file.bytes magic, List.map_flatMap]
  apply List.flatMap_congr
  intro header member
  unfold segmentCells
  by_cases loaded : header.Loaded
  · obtain ⟨isChecked, ends, fromStart, beforeFinish, -⟩ :=
      header_inside fit accepted member loaded
    have small : header.extent < 2147483648 := by
      unfold sbiosStart maxSbiosSize at beforeFinish
      omega
    rw [if_pos isChecked, if_pos loaded,
      segmentStores_cells physaddr file.bytes (u32 header.paddr) header small]
    change (segmentStores file.bytes
      (bin.address + (physaddr (u32 header.paddr) - sbiosStart))
      header).flatMap (Store.cells u32) = _
    rw [segmentStores_cells u32 file.bytes _ header small, List.map_map]
    apply List.map_congr_left
    intro index inRange
    have inside := List.mem_range.mp inRange
    rw [Function.comp_apply]
    have samePlace : u32 (bin.address +
          (physaddr (u32 header.paddr) - sbiosStart) + index) =
        bin.address +
          (physaddr (u32 header.paddr + index) - sbiosStart) := by
      simp only [physaddr_eq_mod] at ends fromStart ⊢
      unfold u32 at *
      unfold maxSbiosSize sbiosStart at *
      omega
    rw [samePlace]
  · have notChecked : ¬ header.Checked := fun checked => loaded checked.1
    rw [if_neg notChecked, if_neg loaded]
    rfl

theorem copiedCells_inside (fit : EndsFit file.bytes)
    (accepted : returnCode (checkSbios bin file) = 0) {cell : Nat × Byte}
    (written : cell ∈ copiedCells file.bytes) :
    sbiosStart ≤ cell.1 ∧ cell.1 < (checkSbios bin file).1.highest ∧
      cell.1 < sbiosStart + maxSbiosSize := by
  have magic := (checkSections_accepted _ _ _ _ _ accepted).magic
  rw [copiedCells_eq_flatMap file.bytes magic] at written
  obtain ⟨header, member, inHeader⟩ := List.mem_flatMap.mp written
  have loaded : header.Loaded := by
    by_contra notLoaded
    rw [segmentCells, if_neg notLoaded] at inHeader
    cases inHeader
  obtain ⟨-, ends, fromStart, beforeFinish, highest⟩ :=
    header_inside fit accepted member loaded
  have small : header.extent < 2147483648 := by
    unfold sbiosStart maxSbiosSize at beforeFinish
    omega
  obtain ⟨-, index, inside, rfl⟩ := (mem_segmentCells small).mp inHeader
  simp only [physaddr_eq_mod] at ends fromStart ⊢
  unfold u32 at *
  unfold maxSbiosSize sbiosStart at *
  omega

theorem highest_lt (accepted : returnCode (checkSbios bin file) = 0) :
    (checkSbios bin file).1.highest < sbiosStart + maxSbiosSize := by
  obtain ⟨-, -, loop⟩ := checkSections_accepted _ _ _ _ _ accepted
  rcases loop.attained with none | attained
  · have same : (checkSbios bin file).1.highest = 0 := none
    rw [same]
    decide
  · obtain ⟨header, member, isChecked, same⟩ := attained
    have same : (checkSbios bin file).1.highest = header.last := same
    rw [same]
    exact (loop.passes header member isChecked).1.beforeFinish

theorem sbiosSize_eq (accepted : returnCode (checkSbios bin file) = 0)
    (behind : sbiosStart ≤ (checkSbios bin file).1.highest) :
    sbiosSize bin file = (checkSbios bin file).1.highest - sbiosStart := by
  have bounded := highest_lt accepted
  have start : physaddr startAddress = sbiosStart := by decide
  unfold sbiosSize toInt32
  rw [start]
  unfold sbiosStart maxSbiosSize at *
  split <;> omega

end

/-- For an accepted ELF file without a wrapping end, `sbiosbin` has the bytes
that `copy_sections` would leave at the place of the SBIOS, and `sbios_size`
covers all that was written. -/
theorem checkSbios_copies (memory : Image) (bin : Sbiosbin) (file : SbiosFile)
    (fit : EndsFit file.bytes)
    (accepted : returnCode (checkSbios bin file) = 0) :
    (∀ offset, offset < maxSbiosSize →
      writeCells (clearSbiosbin memory bin) (sbiosCells bin file)
          (bin.address + offset) =
        writeCells (fun _ => 0) (copiedCells file.bytes)
          (physaddr startAddress + offset)) ∧
      ∀ cell, cell ∈ sbiosCells bin file →
        ∃ offset : Nat, (offset : Int) < sbiosSize bin file ∧
          cell.1 = bin.address + offset := by
  have moved := sbiosCells_eq_map fit accepted
  have start : physaddr startAddress = sbiosStart := by decide
  constructor
  · intro offset inside
    have cleared : clearSbiosbin memory bin
        (bin.address + (sbiosStart + offset - sbiosStart)) = 0 := by
      rw [Nat.add_sub_cancel_left]
      exact clearSbiosbin_at memory bin offset inside
    have own : ∀ cell, cell ∈ copiedCells file.bytes →
        bin.address + (cell.1 - sbiosStart) =
          bin.address + (sbiosStart + offset - sbiosStart) →
        cell.1 = sbiosStart + offset := by
      intro cell written same
      obtain ⟨fromStart, -⟩ := copiedCells_inside fit accepted written
      omega
    have relabelled : writeCells (clearSbiosbin memory bin)
          ((copiedCells file.bytes).map fun cell =>
            (bin.address + (cell.1 - sbiosStart), cell.2))
          (bin.address + (sbiosStart + offset - sbiosStart)) =
        writeCells (fun _ => 0) (copiedCells file.bytes)
          (sbiosStart + offset) :=
      writeCells_relabel
        (fun address => bin.address + (address - sbiosStart)) cleared own
    rw [Nat.add_sub_cancel_left] at relabelled
    rw [moved, start]
    exact relabelled
  · intro cell written
    rw [moved] at written
    obtain ⟨original, isCopied, rfl⟩ := List.mem_map.mp written
    obtain ⟨fromStart, highest, -⟩ := copiedCells_inside fit accepted isCopied
    refine ⟨original.1 - sbiosStart, ?_, rfl⟩
    rw [sbiosSize_eq accepted (by omega)]
    omega

/-- A second segment overlaps the first one, and has more contents than
memory. -/
def overlappingSbios : SbiosFile where
  bytes := imageOfList (encodeHeaders32
    { magic := elfMagic, entry := 0x80001000, phnum := 2 }
    [{ type := ptLoad, offset := 0, paddr := 0x80001000,
       filesz := 16, memsz := 32 },
     { type := ptLoad, offset := 4, paddr := 0x80001008,
       filesz := 16, memsz := 4 }])
  size := 4096

def loaderSbiosbin : Sbiosbin :=
  { address := 0x1800000, fits := by decide, aligned := by decide }

theorem overlappingSbios_copies :
    (∀ offset, offset < maxSbiosSize →
      writeCells (clearSbiosbin (fun _ => 0) loaderSbiosbin)
          (sbiosCells loaderSbiosbin overlappingSbios)
          (loaderSbiosbin.address + offset) =
        writeCells (fun _ => 0) (copiedCells overlappingSbios.bytes)
          (physaddr startAddress + offset)) ∧
      ∀ cell, cell ∈ sbiosCells loaderSbiosbin overlappingSbios →
        ∃ offset : Nat,
          (offset : Int) < sbiosSize loaderSbiosbin overlappingSbios ∧
          cell.1 = loaderSbiosbin.address + offset := by
  apply checkSbios_copies
  · intro header member loaded
    have headers : (layoutOf overlappingSbios.bytes).programHeaders
          overlappingSbios.bytes =
        [{ type := ptLoad, offset := 0, paddr := 0x80001000,
           filesz := 16, memsz := 32 },
         { type := ptLoad, offset := 4, paddr := 0x80001008,
           filesz := 16, memsz := 4 }] := by
      decide
    rw [headers, List.mem_cons, List.mem_singleton] at member
    rcases member with rfl | rfl <;> decide
  · decide

end KernelReloaded.SbiosLoading

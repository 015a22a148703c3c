/-
The copy of a kernel within memory, and its verification.

`copy_sections` reads the file from the memory it writes to, and so does
`verify_sections` afterwards.  Here the copier goes byte by byte and reads the
headers where they are.  A file that no segment overlaps is copied as if it
were kept elsewhere; segments apart from each other then pass verification.
-/

import KernelReloaded.Loader.BootLayout
import KernelReloaded.Loader.SectionReads
import KernelReloaded.Loader.SectionVerify
import Mathlib.Data.List.Pairwise

namespace KernelReloaded.Elf

open Memory Boot

/-! ### The cells of one segment -/

/-- The byte of a segment at an index: its contents, then zeros. -/
def ProgramHeader.imageByte (header : ProgramHeader) (buffer : Image)
    (index : Nat) : Byte :=
  if index < header.filesz then buffer (u32 (header.offset + index)) else 0

theorem kmemcpy_cells (place : Nat → Nat) (dest : Nat) (source : Nat → Byte)
    {size : Nat} (small : size < 2147483648) :
    (kmemcpy dest source size).flatMap (Store.cells place) =
      (List.range size).map fun index => (place (dest + index), source index) := by
  unfold kmemcpy
  rw [toInt32_of_small size small]
  by_cases empty : size = 0
  · subst size
    rfl
  · rw [if_pos (by omega), List.flatMap_singleton]
    rfl

theorem zeroFill_cells (place : Nat → Nat) (dest : Nat) {size : Nat}
    (small : size < 2147483648) :
    (zeroFill dest size).flatMap (Store.cells place) =
      (List.range size).map fun index => (place (dest + index), (0 : Byte)) :=
  kmemcpy_cells place dest (fun _ => 0) small

theorem contents_cells (place : Nat → Nat) (buffer : Image) (dest : Nat)
    {header : ProgramHeader} (small : header.filesz < 2147483648) :
    (if header.filesz ≠ 0 then
        kmemcpy dest (fun index => buffer (u32 (header.offset + index)))
          header.filesz
      else []).flatMap (Store.cells place) =
      (List.range header.filesz).map fun index =>
        (place (dest + index), buffer (u32 (header.offset + index))) := by
  by_cases empty : header.filesz = 0
  · rw [if_neg (not_not_intro empty), empty]
    rfl
  · rw [if_pos empty]
    exact kmemcpy_cells place dest _ small

theorem segmentStores_cells (place : Nat → Nat) (buffer : Image) (dest : Nat)
    (header : ProgramHeader) (small : header.extent < 2147483648) :
    (segmentStores buffer dest header).flatMap (Store.cells place) =
      (List.range header.extent).map fun index =>
        (place (dest + index), header.imageByte buffer index) := by
  unfold ProgramHeader.extent at small ⊢
  have contents : (List.range header.filesz).map (fun index =>
        (place (dest + index), buffer (u32 (header.offset + index)))) =
      (List.range header.filesz).map fun index =>
        (place (dest + index), header.imageByte buffer index) := by
    apply List.map_congr_left
    intro index member
    rw [ProgramHeader.imageByte, if_pos (List.mem_range.mp member)]
  unfold segmentStores
  rw [List.flatMap_append, contents_cells place buffer dest (by omega),
    contents]
  by_cases longer : header.memsz < header.filesz
  · have noFill : toInt32 header.fillSize < 0 := by
      apply toInt32_of_large <;> unfold ProgramHeader.fillSize u32 <;> omega
    rw [zeroFill, if_neg (by omega), max_eq_right (by omega)]
    simp
  · have fill : header.fillSize = header.memsz - header.filesz := by
      unfold ProgramHeader.fillSize u32
      omega
    have split : header.memsz =
        header.filesz + (header.memsz - header.filesz) := by
      omega
    rw [fill, zeroFill_cells place _ (by omega), max_eq_left (by omega)]
    nth_rewrite 2 [split]
    rw [List.range_add, List.map_append, List.map_map]
    congr 1
    apply List.map_congr_left
    intro index _member
    rw [Function.comp_apply, ProgramHeader.imageByte, if_neg (by omega),
      Nat.add_assoc]

/-- What the copier writes for one header. -/
def segmentCells (buffer : Image) (header : ProgramHeader) :
    List (Nat × Byte) :=
  if header.Loaded then
    (segmentStores buffer (u32 header.paddr) header).flatMap
      (Store.cells physaddr)
  else []

theorem copiedCells_eq_flatMap (buffer : Image)
    (magic : ((layoutOf buffer).fileHeader buffer).magic = elfMagic) :
    copiedCells buffer =
      ((layoutOf buffer).programHeaders buffer).flatMap
        (segmentCells buffer) := by
  unfold copiedCells
  rw [copySections_stores buffer magic, copyLoop, List.flatMap_assoc]
  apply List.flatMap_congr
  intro header _member
  unfold segmentCells
  split <;> rfl

theorem physaddr_u32_add (address index : Nat) :
    physaddr (u32 address + index) = physaddr (address + index) := by
  simp only [physaddr_eq_mod, u32]
  omega

theorem mem_segmentCells {buffer : Image} {header : ProgramHeader}
    (small : header.extent < 2147483648) {cell : Nat × Byte} :
    cell ∈ segmentCells buffer header ↔
      header.Loaded ∧ ∃ index, index < header.extent ∧
        cell = (physaddr (header.paddr + index),
          header.imageByte buffer index) := by
  unfold segmentCells
  by_cases loaded : header.Loaded
  · rw [if_pos loaded, segmentStores_cells _ _ _ _ small, List.mem_map]
    simp only [List.mem_range, physaddr_u32_add, loaded, true_and]
    constructor
    · intro written
      obtain ⟨index, inside, same⟩ := written
      exact ⟨index, inside, same.symm⟩
    · intro written
      obtain ⟨index, inside, same⟩ := written
      exact ⟨index, inside, same.symm⟩
  · rw [if_neg loaded]
    simp [loaded]

/-! ### The copier within memory -/

/-- The file as it stands in memory. -/
def fileAt (memory : Image) (address : Nat) : Image := fun index =>
  memory (physaddr (address + index))

/-- One pass of the loop of `copy_sections32` and `copy_sections64`.  The sizes
are read again after the contents have been copied. -/
def copySegmentAt (layout : HeaderLayout) (address pos : Nat)
    (memory : Image) : Image :=
  let header := layout.programHeader (fileAt memory address) pos
  if header.Loaded then
    let dest := u32 header.paddr
    let copied :=
      if header.filesz ≠ 0 then
        copyBytes physaddr dest (address + header.offset)
          (toInt32 header.filesz).toNat memory
      else memory
    let header := layout.programHeader (fileAt copied address) pos
    writeCells copied
      ((zeroFill (dest + header.filesz) header.fillSize).flatMap
        (Store.cells physaddr))
  else memory

/-- The loop; `phnum` is a half word, so 65536 rounds are enough. -/
def copyLoopAt (layout : HeaderLayout) (address : Nat) :
    (rounds index : Nat) → Image → Image
  | 0, _, memory => memory
  | rounds + 1, index, memory =>
      if index < (layout.fileHeader (fileAt memory address)).phnum then
        copyLoopAt layout address rounds (index + 1)
          (copySegmentAt layout address
            (layout.fileHeaderSize + index * layout.programHeaderSize) memory)
      else memory

/-- `copy_sections` of the file at an address, as what it leaves in memory. -/
def copySectionsAt (memory : Image) (address : Nat) : Image :=
  let layout := layoutOf (fileAt memory address)
  if (layout.fileHeader (fileAt memory address)).magic ≠ elfMagic then memory
  else copyLoopAt layout address 65536 0 memory

/-! ### The writes of the copier -/

def contentsCellsAt (address : Nat) (header : ProgramHeader) (memory : Image) :
    List (Nat × Byte) :=
  if header.filesz ≠ 0 then
    copyCells physaddr (u32 header.paddr) (address + header.offset)
      (List.range (toInt32 header.filesz).toNat) memory
  else []

def segmentCellsAt (layout : HeaderLayout) (address pos : Nat)
    (memory : Image) : List (Nat × Byte) :=
  let header := layout.programHeader (fileAt memory address) pos
  if header.Loaded then
    let dest := u32 header.paddr
    let contents := contentsCellsAt address header memory
    let header :=
      layout.programHeader (fileAt (writeCells memory contents) address) pos
    contents ++
      (zeroFill (dest + header.filesz) header.fillSize).flatMap
        (Store.cells physaddr)
  else []

def copyLoopCellsAt (layout : HeaderLayout) (address : Nat) :
    (rounds index : Nat) → Image → List (Nat × Byte)
  | 0, _, _ => []
  | rounds + 1, index, memory =>
      if index < (layout.fileHeader (fileAt memory address)).phnum then
        let cells := segmentCellsAt layout address
          (layout.fileHeaderSize + index * layout.programHeaderSize) memory
        cells ++
          copyLoopCellsAt layout address rounds (index + 1)
            (writeCells memory cells)
      else []

/-- What `copy_sections` writes, in order. -/
def copiedCellsAt (memory : Image) (address : Nat) : List (Nat × Byte) :=
  let layout := layoutOf (fileAt memory address)
  if (layout.fileHeader (fileAt memory address)).magic ≠ elfMagic then []
  else copyLoopCellsAt layout address 65536 0 memory

theorem copySegmentAt_eq_writeCells (layout : HeaderLayout) (address pos : Nat)
    (memory : Image) :
    copySegmentAt layout address pos memory =
      writeCells memory (segmentCellsAt layout address pos memory) := by
  unfold copySegmentAt segmentCellsAt contentsCellsAt
  dsimp only
  split
  · rw [writeCells_append]
    by_cases empty : (layout.programHeader (fileAt memory address) pos).filesz = 0
    · rw [if_neg (not_not_intro empty), if_neg (not_not_intro empty)]
      rfl
    · rw [if_pos empty, if_pos empty, copyBytes, foldl_copy_eq_writeCells]
  · rfl

theorem copyLoopAt_eq_writeCells (layout : HeaderLayout) (address : Nat)
    (rounds index : Nat) (memory : Image) :
    copyLoopAt layout address rounds index memory =
      writeCells memory (copyLoopCellsAt layout address rounds index memory) := by
  induction rounds generalizing index memory with
  | zero =>
      rfl
  | succ rounds ih =>
      rw [copyLoopAt, copyLoopCellsAt]
      split
      · rw [ih, copySegmentAt_eq_writeCells]
        dsimp only
        rw [writeCells_append]
      · rfl

/-- The copier does nothing but these writes. -/
theorem copySectionsAt_eq_writeCells (memory : Image) (address : Nat) :
    copySectionsAt memory address =
      writeCells memory (copiedCellsAt memory address) := by
  unfold copySectionsAt copiedCellsAt
  dsimp only
  split
  · rfl
  · exact copyLoopAt_eq_writeCells _ _ _ _ _

/-! ### Files that are not overwritten -/

/-- The bytes of the file that the loader uses: as many as were read, and the
headers, which nothing keeps inside of what was read. -/
def fileExtent (buffer : Image) (filesize : Nat) : Nat :=
  max filesize
    ((layoutOf buffer).fileHeaderSize +
      ((layoutOf buffer).fileHeader buffer).phnum *
        (layoutOf buffer).programHeaderSize)

def fileRegion (address extent : Nat) : Set Nat :=
  { place | ∃ index, index < extent ∧ place = physaddr (address + index) }

def ProgramHeader.region (header : ProgramHeader) : Set Nat :=
  { place | ∃ index, index < header.memsz ∧
    place = physaddr (header.paddr + index) }

/-- Two loaded segments share no memory. -/
def ProgramHeader.Apart (left right : ProgramHeader) : Prop :=
  left.Loaded → right.Loaded → Disjoint left.region right.region

instance : Std.Symm ProgramHeader.Apart where
  symm _ _ apart rightLoaded leftLoaded := (apart leftLoaded rightLoaded).symm

/-- The segments of a file at an address do not wrap, hold their contents and
are apart from each other and from a buffer of the given length. -/
structure Separate (memory : Image) (address extent : Nat) : Prop where
  fit : EndsFit (fileAt memory address)
  contained : ∀ header,
    header ∈ (layoutOf (fileAt memory address)).programHeaders
      (fileAt memory address) →
    header.Loaded → header.filesz ≤ header.memsz
  disjoint : ((layoutOf (fileAt memory address)).programHeaders
    (fileAt memory address)).Pairwise ProgramHeader.Apart
  apart : ∀ header,
    header ∈ (layoutOf (fileAt memory address)).programHeaders
      (fileAt memory address) →
    header.Loaded → Disjoint header.region (fileRegion address extent)

/-- The index is one of a byte of the field. -/
def Place.Holds (place : Place) (base index : Nat) : Prop :=
  base + place.offset ≤ index ∧ index < base + place.stop

theorem Place.value_congr {place : Place} {left right : Image} {base : Nat}
    (same : ∀ index, place.Holds base index → left index = right index) :
    place.value left base = place.value right base := by
  obtain ⟨offset, width⟩ := place
  have sameAt : ∀ index < width.bytes,
      left (base + offset + index) = right (base + offset + index) := by
    intro index inside
    apply same
    unfold Place.Holds Place.stop
    dsimp only
    omega
  unfold Place.value
  cases width with
  | half => exact le16_congr sameAt
  | word => exact le32_congr sameAt
  | double => exact le64_congr sameAt

theorem HeaderPlaces.fileHeader_congr {layout : HeaderLayout}
    (places : HeaderPlaces layout) {left right : Image}
    (same : ∀ index, index < places.phnum.stop → left index = right index) :
    layout.fileHeader left = layout.fileHeader right := by
  obtain ⟨magicInside, entryInside, -⟩ := places.ordered
  have sameField (place : Place) (inside : place.stop ≤ places.phnum.stop) :
      place.value left 0 = place.value right 0 := by
    apply Place.value_congr
    rintro index ⟨-, before⟩
    exact same index (by omega)
  rw [places.fileHeader, places.fileHeader, sameField _ (Nat.le_refl _),
    sameField places.entry entryInside,
    sameField places.magic (magicInside.trans entryInside)]

theorem HeaderPlaces.programHeader_congr {layout : HeaderLayout}
    (places : HeaderPlaces layout) {left right : Image} {pos : Nat}
    (same : ∀ index, index < places.memsz.stop →
      left (pos + index) = right (pos + index)) :
    layout.programHeader left pos = layout.programHeader right pos := by
  obtain ⟨-, -, typeInside, offsetInside, -, paddrInside, fileszInside⟩ :=
    places.ordered
  have sameField (place : Place) (inside : place.stop ≤ places.memsz.stop) :
      place.value left pos = place.value right pos := by
    apply Place.value_congr
    rintro index ⟨lower, before⟩
    have isField := same (index - pos) (by omega)
    rwa [Nat.add_sub_of_le (by omega)] at isField
  rw [places.programHeader, places.programHeader, sameField _ typeInside,
    sameField _ offsetInside, sameField _ paddrInside,
    sameField _ fileszInside, sameField _ (Nat.le_refl _)]

/-- The fields that are read lie in the headers. -/
theorem layoutOf_places (buffer : Image) :
    ∃ places : HeaderPlaces (layoutOf buffer),
      places.phnum.stop ≤ (layoutOf buffer).fileHeaderSize ∧
        places.memsz.stop ≤ (layoutOf buffer).programHeaderSize := by
  by_cases wide : elfClass buffer = 2
  · have isLayout : layoutOf buffer = elf64 := if_pos wide
    rw [isLayout]
    exact ⟨places64, by decide, by decide⟩
  · have isLayout : layoutOf buffer = elf32 := if_neg wide
    rw [isLayout]
    exact ⟨places32, by decide, by decide⟩

theorem phnum_le (buffer : Image) :
    ((layoutOf buffer).fileHeader buffer).phnum ≤ 65536 := by
  unfold layoutOf
  split
  · exact (le16_lt buffer 56).le
  · exact (le16_lt buffer 44).le

/-! ### The copy leaves the file alone -/

def KeepsFile (file : Image) (address extent : Nat) (memory : Image) : Prop :=
  ∀ index, index < extent → fileAt memory address index = file index

theorem KeepsFile.writeCells {file memory : Image} {address extent : Nat}
    (keeps : KeepsFile file address extent memory) (cells : List (Nat × Byte))
    (outside : ∀ cell, cell ∈ cells → cell.1 ∉ fileRegion address extent) :
    KeepsFile file address extent (writeCells memory cells) := by
  intro index inside
  rw [← keeps index inside]
  apply writeCells_untouched
  intro cell written same
  exact outside cell written ⟨index, inside, same⟩

/-- The contents of a segment are in the file, and its memory is not. -/
structure ProgramHeader.CopyableFrom (header : ProgramHeader)
    (address extent : Nat) : Prop where
  small : header.memsz < 2147483648
  contained : header.filesz ≤ header.memsz
  contents : header.filesz ≠ 0 →
    header.offset + header.filesz ≤ extent ∧
      header.offset + header.filesz < 4294967296
  apart : Disjoint header.region (fileRegion address extent)

theorem ProgramHeader.CopyableFrom.outside {header : ProgramHeader}
    {address extent : Nat} (copyable : header.CopyableFrom address extent)
    (index : Nat) (inside : index < header.memsz) :
    physaddr (u32 header.paddr + index) ∉ fileRegion address extent := by
  rw [physaddr_u32_add]
  intro inFile
  exact Set.disjoint_left.mp copyable.apart ⟨index, inside, rfl⟩ inFile

theorem ProgramHeader.CopyableFrom.cell_outside {header : ProgramHeader}
    {address extent : Nat} (copyable : header.CopyableFrom address extent)
    {buffer : Image} {cell : Nat × Byte}
    (written : cell ∈ segmentCells buffer header) :
    cell.1 ∉ fileRegion address extent := by
  have small := copyable.small
  have contained := copyable.contained
  have extentEq : header.extent = header.memsz := max_eq_left contained
  obtain ⟨-, index, inside, rfl⟩ :=
    (mem_segmentCells (by omega)).mp written
  have outside := copyable.outside index (by omega)
  rwa [physaddr_u32_add] at outside

theorem cells_outside {buffer : Image} {header : ProgramHeader}
    {address extent : Nat}
    (copyable : header.Loaded → header.CopyableFrom address extent)
    (cell : Nat × Byte) (written : cell ∈ segmentCells buffer header) :
    cell.1 ∉ fileRegion address extent := by
  by_cases loaded : header.Loaded
  · exact (copyable loaded).cell_outside written
  · rw [segmentCells, if_neg loaded] at written
    cases written

/-- The contents are copied as they are in the file. -/
theorem copyContents_eq {file memory : Image} {address extent : Nat}
    {header : ProgramHeader} (keeps : KeepsFile file address extent memory)
    (copyable : header.CopyableFrom address extent) :
    (if header.filesz ≠ 0 then
        copyBytes physaddr (u32 header.paddr) (address + header.offset)
          (toInt32 header.filesz).toNat memory
      else memory) =
      writeCells memory ((List.range header.filesz).map fun index =>
        (physaddr (u32 header.paddr + index),
          file (u32 (header.offset + index)))) := by
  have small := copyable.small
  have contained := copyable.contained
  by_cases empty : header.filesz = 0
  · rw [if_neg (not_not_intro empty), empty]
    rfl
  · obtain ⟨inFile, fits⟩ := copyable.contents empty
    have size : (toInt32 header.filesz).toNat = header.filesz := by
      rw [toInt32_of_small header.filesz (by omega)]
      exact Int.toNat_natCast header.filesz
    rw [if_pos empty, size, copyBytes_eq_writeCells]
    · congr 1
      apply List.map_congr_left
      intro index member
      have inside := List.mem_range.mp member
      have sameByte := keeps (header.offset + index) (by omega)
      have whole : u32 (header.offset + index) = header.offset + index :=
        Nat.mod_eq_of_lt (by omega)
      rw [fileAt, ← Nat.add_assoc] at sameByte
      rw [sameByte, whole]
    · intro index inside other otherInside same
      apply copyable.outside index (by omega)
      refine ⟨header.offset + other, by omega, ?_⟩
      rw [same, Nat.add_assoc]

section

variable {file memory : Image} {address extent : Nat}

theorem copySegmentAt_eq {pos : Nat}
    (keeps : KeepsFile file address extent memory)
    (inside : pos + (layoutOf file).programHeaderSize ≤ extent)
    (copyable : ((layoutOf file).programHeader file pos).Loaded →
      ((layoutOf file).programHeader file pos).CopyableFrom address extent) :
    copySegmentAt (layoutOf file) address pos memory =
      writeCells memory
        (segmentCells file ((layoutOf file).programHeader file pos)) := by
  obtain ⟨places, -, fieldsInside⟩ := layoutOf_places file
  have sameHeader {current : Image}
      (kept : KeepsFile file address extent current) :
      (layoutOf file).programHeader (fileAt current address) pos =
        (layoutOf file).programHeader file pos := by
    apply places.programHeader_congr
    intro index before
    exact kept (pos + index) (by omega)
  unfold copySegmentAt segmentCells
  simp only
  rw [sameHeader keeps]
  generalize (layoutOf file).programHeader file pos = header at *
  by_cases loaded : header.Loaded
  · have copyableHeader := copyable loaded
    have small := copyableHeader.small
    have contained := copyableHeader.contained
    rw [if_pos loaded, if_pos loaded, copyContents_eq keeps copyableHeader]
    have keepsCopied := keeps.writeCells
      ((List.range header.filesz).map fun index =>
        (physaddr (u32 header.paddr + index),
          file (u32 (header.offset + index))))
      (by
        intro cell written
        obtain ⟨index, member, rfl⟩ := List.mem_map.mp written
        have before := List.mem_range.mp member
        exact copyableHeader.outside index (by omega))
    rw [sameHeader keepsCopied, ← writeCells_append]
    unfold segmentStores
    rw [List.flatMap_append,
      contents_cells physaddr file (u32 header.paddr) (by omega)]
  · rw [if_neg loaded, if_neg loaded]
    rfl

/-- The headers from an index on. -/
def headersFrom (file : Image) (index count : Nat) : List ProgramHeader :=
  (List.range' index count).map fun index =>
    (layoutOf file).programHeader file
      ((layoutOf file).fileHeaderSize +
        index * (layoutOf file).programHeaderSize)

theorem copyLoopAt_eq {rounds index count : Nat} (enough : count ≤ rounds)
    (counted : index + count = ((layoutOf file).fileHeader file).phnum)
    (keeps : KeepsFile file address extent memory)
    (inside : (layoutOf file).fileHeaderSize +
      ((layoutOf file).fileHeader file).phnum *
        (layoutOf file).programHeaderSize ≤ extent)
    (copyable : ∀ header, header ∈ headersFrom file index count →
      header.Loaded → header.CopyableFrom address extent) :
    copyLoopAt (layoutOf file) address rounds index memory =
      writeCells memory
        ((headersFrom file index count).flatMap (segmentCells file)) := by
  obtain ⟨places, fieldsInside, -⟩ := layoutOf_places file
  have sameCount {current : Image}
      (kept : KeepsFile file address extent current) :
      (layoutOf file).fileHeader (fileAt current address) =
        (layoutOf file).fileHeader file := by
    apply places.fileHeader_congr
    intro field before
    exact kept field (by omega)
  induction count generalizing rounds index memory with
  | zero =>
      cases rounds with
      | zero =>
          rfl
      | succ rounds =>
          rw [copyLoopAt, sameCount keeps, if_neg (by omega)]
          rfl
  | succ count ih =>
      obtain ⟨rounds, rfl⟩ : ∃ less, rounds = less + 1 :=
        ⟨rounds - 1, by omega⟩
      have headerInside : (index + 1) * (layoutOf file).programHeaderSize ≤
          ((layoutOf file).fileHeader file).phnum *
            (layoutOf file).programHeaderSize :=
        Nat.mul_le_mul_right _ (by omega)
      rw [Nat.succ_mul] at headerInside
      have split : headersFrom file index (count + 1) =
          (layoutOf file).programHeader file
              ((layoutOf file).fileHeaderSize +
                index * (layoutOf file).programHeaderSize) ::
            headersFrom file (index + 1) count := rfl
      rw [split] at copyable ⊢
      have copyableHere := copyable _ (List.mem_cons_self ..)
      have copied := copySegmentAt_eq keeps (by omega) copyableHere
      have keepsNext := keeps.writeCells
        (segmentCells file ((layoutOf file).programHeader file
          ((layoutOf file).fileHeaderSize +
            index * (layoutOf file).programHeaderSize)))
        (cells_outside copyableHere)
      rw [copyLoopAt, sameCount keeps, if_pos (by omega), copied,
        ih (by omega) (by omega) keepsNext fun header member =>
          copyable header (List.mem_cons_of_mem _ member),
        List.flatMap_cons, writeCells_append]

end

/-! ### The copied kernel passes verification -/

section

variable {memory : Image} {address filesize start finish : Nat}
  {destaddr : Option Nat}

/-- A segment is checked, and ends inside the checked range. -/
theorem Separate.passes {extent : Nat} (separate : Separate memory address extent)
    (accepted : returnCode (checkSections (fileAt memory address) filesize
      start finish destaddr) = 0)
    {header : ProgramHeader}
    (member : header ∈ (layoutOf (fileAt memory address)).programHeaders
      (fileAt memory address))
    (loaded : header.Loaded) :
    header.Passes (contextOf (fileAt memory address) filesize start finish
        destaddr) ∧
      physaddr (u32 header.paddr) + header.memsz < physaddr finish := by
  obtain ⟨-, -, loop⟩ := checkSections_accepted _ _ _ _ _ accepted
  have fits := separate.fit header member loaded
  have contained := separate.contained header member loaded
  have present := loaded.2
  have sizes := header.size_cases
  have size : header.size = header.memsz := by
    unfold u32 at sizes
    omega
  have isChecked : header.Checked := ⟨loaded, by omega⟩
  obtain ⟨passes, -⟩ := loop.passes header member isChecked
  have lastEq : header.last =
      physaddr (u32 header.paddr) + header.memsz := by
    rw [ProgramHeader.last, size]
    exact Nat.mod_eq_of_lt (by omega)
  have ends : header.last < physaddr finish := passes.beforeFinish
  rw [lastEq] at ends
  exact ⟨passes, ends⟩

theorem Separate.copyableFrom
    (separate : Separate memory address
      (fileExtent (fileAt memory address) filesize))
    (accepted : returnCode (checkSections (fileAt memory address) filesize
      start finish destaddr) = 0)
    {header : ProgramHeader}
    (member : header ∈ (layoutOf (fileAt memory address)).programHeaders
      (fileAt memory address))
    (loaded : header.Loaded) :
    header.CopyableFrom address
      (fileExtent (fileAt memory address) filesize) := by
  obtain ⟨passes, ends⟩ := separate.passes accepted member loaded
  have bound := physaddr_lt finish
  have extentBound : filesize ≤
      fileExtent (fileAt memory address) filesize := le_max_left _ _
  refine ⟨by omega, separate.contained header member loaded, ?_,
    separate.apart header member loaded⟩
  intro hasContents
  obtain ⟨sizeSmall, offsetSmall, inFile⟩ :=
    checkFileRange_none passes.fileRange hasContents
  have inFile : u32 (header.offset + header.filesz) < filesize := inFile
  unfold u32 at inFile
  omega

/-- The file is copied as if it were kept apart from the memory. -/
theorem copySectionsAt_eq (separate : Separate memory address
      (fileExtent (fileAt memory address) filesize))
    (accepted : returnCode (checkSections (fileAt memory address) filesize
      start finish destaddr) = 0) :
    copySectionsAt memory address =
      writeCells memory (copiedCells (fileAt memory address)) := by
  have magic := (checkSections_accepted _ _ _ _ _ accepted).magic
  have allHeaders : (layoutOf (fileAt memory address)).programHeaders
        (fileAt memory address) =
      headersFrom (fileAt memory address) 0
        ((layoutOf (fileAt memory address)).fileHeader
          (fileAt memory address)).phnum := by
    unfold HeaderLayout.programHeaders headersFrom
    rw [List.range_eq_range']
  unfold copySectionsAt
  simp only
  rw [if_neg (not_not_intro magic), copiedCells_eq_flatMap _ magic, allHeaders]
  apply copyLoopAt_eq
  · exact phnum_le _
  · exact Nat.zero_add _
  · intro index inside
    rfl
  · exact le_max_right filesize _
  · intro header member loaded
    rw [← allHeaders] at member
    exact separate.copyableFrom accepted member loaded

theorem Separate.keepsFile (separate : Separate memory address
      (fileExtent (fileAt memory address) filesize))
    (accepted : returnCode (checkSections (fileAt memory address) filesize
      start finish destaddr) = 0) :
    KeepsFile (fileAt memory address) address
      (fileExtent (fileAt memory address) filesize)
      (copySectionsAt memory address) := by
  have magic := (checkSections_accepted _ _ _ _ _ accepted).magic
  rw [copySectionsAt_eq separate accepted, copiedCells_eq_flatMap _ magic]
  apply KeepsFile.writeCells
  · intro index inside
    rfl
  · intro cell written
    obtain ⟨header, member, inHeader⟩ := List.mem_flatMap.mp written
    exact cells_outside
      (fun loaded => separate.copyableFrom accepted member loaded) cell inHeader

/-- Each byte of a segment is written once. -/
theorem copied_byte (separate : Separate memory address
      (fileExtent (fileAt memory address) filesize))
    (accepted : returnCode (checkSections (fileAt memory address) filesize
      start finish destaddr) = 0)
    {header : ProgramHeader}
    (member : header ∈ (layoutOf (fileAt memory address)).programHeaders
      (fileAt memory address))
    (loaded : header.Loaded) (index : Nat) (inside : index < header.memsz) :
    copySectionsAt memory address (physaddr (header.paddr + index)) =
      header.imageByte (fileAt memory address) index := by
  have magic := (checkSections_accepted _ _ _ _ _ accepted).magic
  have cellOf {other : ProgramHeader}
      (isHeader : other ∈ (layoutOf (fileAt memory address)).programHeaders
        (fileAt memory address)) (isLoaded : other.Loaded) :
      other.extent = other.memsz ∧ other.memsz < 2147483648 :=
    ⟨max_eq_left (separate.contained other isHeader isLoaded),
      (separate.copyableFrom accepted isHeader isLoaded).small⟩
  obtain ⟨extent, small⟩ := cellOf member loaded
  rw [copySectionsAt_eq separate accepted, copiedCells_eq_flatMap _ magic]
  apply writeCells_of_mem
  · refine List.mem_flatMap.mpr ⟨header, member, ?_⟩
    exact (mem_segmentCells (by omega)).mpr ⟨loaded, index, by omega, rfl⟩
  · intro cell written same
    obtain ⟨other, otherMember, inOther⟩ := List.mem_flatMap.mp written
    have otherLoaded : other.Loaded := by
      by_contra notLoaded
      rw [segmentCells, if_neg notLoaded] at inOther
      cases inOther
    obtain ⟨otherExtent, otherSmall⟩ := cellOf otherMember otherLoaded
    obtain ⟨-, otherIndex, otherInside, rfl⟩ :=
      (mem_segmentCells (by omega)).mp inOther
    have sameHeader : other = header := by
      by_contra different
      have disjoint := separate.disjoint.forall otherMember member different
        otherLoaded loaded
      exact Set.disjoint_left.mp disjoint
        ⟨otherIndex, by omega, rfl⟩ ⟨index, inside, same⟩
    subst other
    obtain ⟨-, ends⟩ := separate.passes accepted member loaded
    have bound := physaddr_lt finish
    have sameIndex : otherIndex = index := by
      simp only [physaddr_eq_mod, u32] at same ends bound
      omega
    rw [sameIndex]

theorem KeepsFile.layoutOf_eq {file current : Image}
    (keeps : KeepsFile file address (fileExtent file filesize) current) :
    layoutOf (fileAt current address) = layoutOf file := by
  have headerBytes : 4 < (layoutOf file).fileHeaderSize := by
    unfold layoutOf
    split <;> decide
  have classByte := keeps 4 (by unfold fileExtent; omega)
  unfold layoutOf elfClass
  rw [classByte]

theorem KeepsFile.fileHeader_eq {file current : Image}
    (keeps : KeepsFile file address (fileExtent file filesize) current) :
    (layoutOf file).fileHeader (fileAt current address) =
      (layoutOf file).fileHeader file := by
  obtain ⟨places, fieldsInside, -⟩ := layoutOf_places file
  apply places.fileHeader_congr
  intro index before
  apply keeps
  unfold fileExtent
  omega

theorem KeepsFile.programHeaders_eq {file current : Image}
    (keeps : KeepsFile file address (fileExtent file filesize) current) :
    (layoutOf file).programHeaders (fileAt current address) =
      (layoutOf file).programHeaders file := by
  obtain ⟨places, -, headerInside⟩ := layoutOf_places file
  have tableInside := le_max_right filesize
    ((layoutOf file).fileHeaderSize + ((layoutOf file).fileHeader file).phnum *
      (layoutOf file).programHeaderSize)
  change _ ≤ fileExtent file filesize at tableInside
  unfold HeaderLayout.programHeaders
  rw [keeps.fileHeader_eq]
  apply List.map_congr_left
  intro index member
  have before := List.mem_range.mp member
  have inTable : (index + 1) * (layoutOf file).programHeaderSize ≤
      ((layoutOf file).fileHeader file).phnum *
        (layoutOf file).programHeaderSize :=
    Nat.mul_le_mul_right _ before
  rw [Nat.succ_mul] at inTable
  apply places.programHeader_congr
  intro offset inHeader
  exact keeps _ (by omega)

theorem verified_copy (separate : Separate memory address
      (fileExtent (fileAt memory address) filesize))
    (accepted : returnCode (checkSections (fileAt memory address) filesize
      start finish destaddr) = 0) :
    Verified (copySectionsAt memory address)
      (fileAt (copySectionsAt memory address) address) := by
  have keeps := separate.keepsFile accepted
  intro header member loaded
  rw [keeps.layoutOf_eq, keeps.programHeaders_eq] at member
  have contained := separate.contained header member loaded
  have copyable := separate.copyableFrom accepted member loaded
  refine ⟨?_, ?_⟩
  · intro index inside
    obtain ⟨inFile, fits⟩ := copyable.contents (by omega)
    have whole : u32 (header.offset + index) = header.offset + index :=
      Nat.mod_eq_of_lt (by omega)
    have byte := copied_byte separate accepted member loaded index (by omega)
    rw [ProgramHeader.imageByte, if_pos inside] at byte
    rw [ProgramHeader.HoldsAt, byte, whole]
    exact (keeps _ (by omega)).symm
  · intro index behind inside
    have byte := copied_byte separate accepted member loaded index inside
    rw [ProgramHeader.imageByte, if_neg (by omega)] at byte
    exact byte

/-- An accepted kernel whose segments are apart from each other and from the
file, its header table included, passes its verification after it was copied. -/
theorem verifySections_copySectionsAt
    (separate : Separate memory address
      (fileExtent (fileAt memory address) filesize))
    (accepted : returnCode (checkSections (fileAt memory address) filesize
      start finish destaddr) = 0) :
    verifySections (copySectionsAt memory address)
      (fileAt (copySectionsAt memory address) address) = true := by
  have keeps := separate.keepsFile accepted
  have right := verified_copy separate accepted
  have magic := (checkSections_accepted _ _ _ _ _ accepted).magic
  by_contra refused
  rw [Bool.not_eq_true, verifySections_eq_false_iff _ _ (by
    rw [keeps.layoutOf_eq, keeps.fileHeader_eq, magic])] at refused
  rcases refused with caught | alarm
  · exact (not_verified_iff _ _).mpr (Or.inl caught) right
  · obtain ⟨header, member, loaded, alarm⟩ := alarm
    rw [keeps.layoutOf_eq, keeps.programHeaders_eq] at member
    have contained := separate.contained header member loaded
    have noFill := alarm.noFill
    apply alarm.tested.1
    unfold ProgramHeader.fillSize u32
    omega

end

/-- Memory with `plainKernel` from the end of the kernel's range on. -/
def loadedMemory : Image := fun place => plainKernel (place - 0x1000000)

theorem loadedMemory_headers :
    (layoutOf (fileAt loadedMemory 0x81000000)).programHeaders
        (fileAt loadedMemory 0x81000000) =
      [{ type := ptLoad, offset := 0x1000, paddr := 0x80010000,
         filesz := 0x100, memsz := 0x200 }] := by
  decide +kernel

theorem loadedMemory_separate :
    Separate loadedMemory 0x81000000
      (fileExtent (fileAt loadedMemory 0x81000000) 0x2000) := by
  have extent : fileExtent (fileAt loadedMemory 0x81000000) 0x2000 = 0x2000 := by
    decide +kernel
  refine ⟨?_, ?_, ?_, ?_⟩
  · intro header member loaded
    rw [loadedMemory_headers, List.mem_singleton] at member
    subst header
    decide
  · intro header member loaded
    rw [loadedMemory_headers, List.mem_singleton] at member
    subst header
    decide
  · rw [loadedMemory_headers]
    exact List.pairwise_singleton _ _
  · intro header member loaded
    rw [loadedMemory_headers, List.mem_singleton] at member
    subst header
    rw [extent, Set.disjoint_left]
    intro place inSegment inFile
    obtain ⟨index, inside, rfl⟩ := inSegment
    obtain ⟨other, otherInside, same⟩ := inFile
    have inside : index < 0x200 := inside
    simp only [physaddr_eq_mod] at same
    omega

theorem loadedMemory_verified :
    verifySections (copySectionsAt loadedMemory 0x81000000)
      (fileAt (copySectionsAt loadedMemory 0x81000000) 0x81000000) = true :=
  verifySections_copySectionsAt loadedMemory_separate
    (show returnCode (checkSections (fileAt loadedMemory 0x81000000) 0x2000
      0x10000 0x1000000 none) = 0 by decide +kernel)

/-- A file of 116 bytes with three headers: the third one begins where the file
ends, and there the first segment is copied to. -/
def shortFile : Image :=
  imageOfList ([elfMagic, 1, 0, 0, 0, 0, 0x81000074, 1, 4, 0, 0x80010000, 3, 3,
    ptLoad, 28, 0, 0x81000074, 24, 24, 0, 0,
    ptLoad, 0, 0, 0x80010000, 4, 4, 0, 0].flatMap (bytesLe 4))

def shortMemory : Image := fun place => shortFile (place - 0x1000000)

theorem shortMemory_headers :
    (layoutOf (fileAt shortMemory 0x81000000)).programHeaders
        (fileAt shortMemory 0x81000000) =
      [{ type := ptLoad, offset := 28, paddr := 0x81000074, filesz := 24,
         memsz := 24 },
       { type := ptLoad, offset := 0, paddr := 0x80010000, filesz := 4,
         memsz := 4 },
       { type := 0, offset := 0, paddr := 0, filesz := 0, memsz := 0 }] := by
  decide +kernel

theorem shortMemory_separate : Separate shortMemory 0x81000000 116 := by
  have headers := shortMemory_headers
  refine ⟨?_, ?_, ?_, ?_⟩
  · unfold EndsFit
    rw [headers]
    decide
  · rw [headers]
    decide
  · rw [headers]
    simp only [List.pairwise_cons, List.mem_cons, List.not_mem_nil, or_false,
      forall_eq_or_imp, forall_eq, List.Pairwise.nil, and_true, false_imp_iff,
      implies_true]
    refine ⟨⟨?_, fun _ loaded => absurd loaded (by decide)⟩,
      fun _ loaded => absurd loaded (by decide)⟩
    intro _ _
    rw [Set.disjoint_left]
    rintro place ⟨index, inside, rfl⟩ ⟨other, otherInside, same⟩
    simp only [physaddr_eq_mod] at same inside otherInside
    omega
  · rw [headers]
    intro header member loaded
    rw [Set.disjoint_left]
    rintro place ⟨index, inside, rfl⟩ ⟨other, otherInside, same⟩
    simp only [physaddr_eq_mod] at same
    simp only [List.mem_cons, List.not_mem_nil, or_false] at member
    rcases member with rfl | rfl | rfl
    · dsimp only at same inside
      omega
    · dsimp only at same inside
      omega
    · exact absurd loaded (by decide)

/-- The segment lies behind the bytes that were read and changes the header. -/
theorem shortMemory_not_verified :
    returnCode (checkSections (fileAt shortMemory 0x81000000) 116 0x10000
        0x2000000 none) = 0 ∧
      Separate shortMemory 0x81000000 116 ∧
      verifySections (copySectionsAt shortMemory 0x81000000)
        (fileAt (copySectionsAt shortMemory 0x81000000) 0x81000000) = false := by
  refine ⟨by decide +kernel, shortMemory_separate, ?_⟩
  decide +kernel

end KernelReloaded.Elf

/-
Where `copy_sections` writes in the memory that holds the file.

The copier reads each header where it stands, when the segments before it have been
copied already.  As long as these leave alone what it has still to read, it writes
where the headers of the file say, and what the checker knows about these headers
decides whether that is confined.  A segment that is copied onto a later header lets
the copier follow a header that nothing has checked.
-/

import KernelReloaded.Loader.SectionCopy

namespace KernelReloaded.Elf

open Memory

/-! ### What the copier has still to read -/

section

variable {layout : HeaderLayout}

def HeaderLayout.pos (layout : HeaderLayout) (index : Nat) : Nat :=
  layout.fileHeaderSize + index * layout.programHeaderSize

def HeaderLayout.header (layout : HeaderLayout) (file : Image) (index : Nat) :
    ProgramHeader :=
  layout.programHeader file (layout.pos index)

/-- The fields that decide on a copy. -/
def HeaderPlaces.fields (places : HeaderPlaces layout) : List Place :=
  [places.type, places.offset, places.paddr, places.filesz, places.memsz]

/-- Bytes of the file that the copier reads from a round on: the number of headers,
and the fields of the headers that are left. -/
def HeaderPlaces.StillRead (places : HeaderPlaces layout) (file : Image)
    (round byte : Nat) : Prop :=
  places.phnum.Holds 0 byte ∨
    ∃ index, round ≤ index ∧ index < (layout.fileHeader file).phnum ∧
      ∃ field ∈ places.fields, field.Holds (layout.pos index) byte

/-- The contents are copied to this address. -/
def ProgramHeader.ContentsAt (header : ProgramHeader) (address : Nat) : Prop :=
  header.filesz ≠ 0 ∧ ∃ index : Nat, (index : Int) < toInt32 header.filesz ∧
    address = physaddr (u32 header.paddr + index)

/-- No segment of the file is copied onto what is still read: onto the number of
headers and the later headers, and with its contents onto its own sizes. -/
structure HeaderPlaces.Kept (places : HeaderPlaces layout) (file : Image)
    (address : Nat) : Prop where
  later : ∀ index, index < (layout.fileHeader file).phnum →
    (layout.header file index).Loaded →
    ∀ byte, places.StillRead file (index + 1) byte →
      ¬ SegmentCell (layout.header file index) (physaddr (address + byte))
  sizes : ∀ index, index < (layout.fileHeader file).phnum →
    (layout.header file index).Loaded →
    ∀ byte, places.filesz.Holds (layout.pos index) byte ∨
        places.memsz.Holds (layout.pos index) byte →
      ¬ (layout.header file index).ContentsAt (physaddr (address + byte))

variable {places : HeaderPlaces layout} {file current : Image}
  {address round index : Nat}

theorem HeaderPlaces.StillRead.before {byte : Nat}
    (read : places.StillRead file (round + 1) byte) :
    places.StillRead file round byte := by
  rcases read with isCount | ⟨index, later, inside, isField⟩
  · exact Or.inl isCount
  · exact Or.inr ⟨index, by omega, inside, isField⟩

/-- What is still read is as it is in the file. -/
def HeaderPlaces.Same (places : HeaderPlaces layout) (file current : Image)
    (address round : Nat) : Prop :=
  ∀ byte, places.StillRead file round byte →
    fileAt current address byte = file byte

theorem HeaderPlaces.Same.phnum (same : places.Same file current address round) :
    (layout.fileHeader (fileAt current address)).phnum =
      (layout.fileHeader file).phnum := by
  rw [places.fileHeader, places.fileHeader]
  apply Place.value_congr
  intro byte isCount
  exact same byte (Or.inl isCount)

theorem HeaderPlaces.Same.header (same : places.Same file current address round)
    (inside : round < (layout.fileHeader file).phnum) :
    layout.header (fileAt current address) round = layout.header file round := by
  have sameField (field : Place) (isField : field ∈ places.fields) :
      field.value (fileAt current address) (layout.pos round) =
        field.value file (layout.pos round) := by
    apply Place.value_congr
    intro byte inField
    exact same byte (Or.inr ⟨round, Nat.le_refl _, inside, field, isField, inField⟩)
  unfold HeaderLayout.header
  rw [places.programHeader, places.programHeader,
    sameField places.type (by simp [fields]), sameField places.offset (by simp [fields]),
    sameField places.paddr (by simp [fields]), sameField places.filesz (by simp [fields]),
    sameField places.memsz (by simp [fields])]

/-! ### The writes of one round -/

theorem contentsCellsAt_place_iff {header : ProgramHeader} {memory : Image}
    {place : Nat} :
    place ∈ (contentsCellsAt address header memory).map Prod.fst ↔
      header.ContentsAt place := by
  unfold contentsCellsAt ProgramHeader.ContentsAt
  split
  case isTrue present =>
    rw [copyCells_places, List.mem_map]
    constructor
    · rintro ⟨index, member, rfl⟩
      have inside := List.mem_range.mp member
      exact ⟨present, index, by omega, rfl⟩
    · rintro ⟨-, index, inside, rfl⟩
      exact ⟨index, List.mem_range.mpr (by omega), rfl⟩
  case isFalse empty =>
    constructor
    · intro member
      cases member
    · rintro ⟨present, -⟩
      exact absurd present empty

theorem zeroFill_mem_iff {dest size place : Nat} :
    place ∈ ((zeroFill dest size).flatMap (Store.cells physaddr)).map Prod.fst ↔
      ∃ index : Nat, (index : Int) < toInt32 size ∧
        place = physaddr (dest + index) := by
  unfold zeroFill
  split
  · rw [List.flatMap_singleton, Store.cells, List.map_map, List.mem_map]
    constructor
    · rintro ⟨index, member, rfl⟩
      have inside := List.mem_range.mp member
      dsimp only at inside
      exact ⟨index, by omega, rfl⟩
    · rintro ⟨index, inside, rfl⟩
      exact ⟨index, List.mem_range.mpr (by dsimp only; omega), rfl⟩
  · constructor
    · intro member
      cases member
    · rintro ⟨index, inside, -⟩
      omega

theorem fileAt_writeCells {cells : List (Nat × Byte)} {byte : Nat}
    (untouched : physaddr (address + byte) ∉ cells.map Prod.fst) :
    fileAt (writeCells current cells) address byte = fileAt current address byte := by
  apply writeCells_untouched
  intro cell member isPlace
  apply untouched
  rw [← isPlace]
  exact List.mem_map_of_mem member

theorem segmentCell_iff {header : ProgramHeader} {place : Nat} :
    SegmentCell header place ↔ header.ContentsAt place ∨
      ∃ index : Nat, (index : Int) < toInt32 header.fillSize ∧
        place = physaddr (u32 header.paddr + header.filesz + index) := by
  constructor
  · intro copied
    cases copied with
    | contents index present inside isPlace =>
        exact Or.inl ⟨present, index, inside, isPlace⟩
    | fill index inside isPlace =>
        exact Or.inr ⟨index, inside, isPlace⟩
  · rintro (⟨present, index, inside, isPlace⟩ | ⟨index, inside, isPlace⟩)
    · exact .contents index present inside isPlace
    · exact .fill index inside isPlace

/-- The sizes that are read again behind the contents. -/
theorem HeaderPlaces.Same.sizes_eq (same : places.Same file current address round)
    (kept : places.Kept file address)
    (inside : round < (layout.fileHeader file).phnum)
    (loaded : (layout.header file round).Loaded) :
    let copied := writeCells current
      (contentsCellsAt address (layout.header file round) current)
    (layout.header (fileAt copied address) round).filesz =
        (layout.header file round).filesz ∧
      (layout.header (fileAt copied address) round).memsz =
        (layout.header file round).memsz := by
  intro copied
  have isHeader := same.header inside
  have sameField (field : Place)
      (isSize : ∀ byte, field.Holds (layout.pos round) byte →
        places.filesz.Holds (layout.pos round) byte ∨
          places.memsz.Holds (layout.pos round) byte) :
      field.value (fileAt copied address) (layout.pos round) =
        field.value (fileAt current address) (layout.pos round) := by
    apply Place.value_congr
    intro byte inField
    apply fileAt_writeCells
    rw [contentsCellsAt_place_iff]
    exact kept.sizes round inside loaded byte (isSize byte inField)
  rw [← isHeader]
  unfold HeaderLayout.header
  rw [places.programHeader, places.programHeader]
  exact ⟨sameField _ fun _ => Or.inl, sameField _ fun _ => Or.inr⟩

/-- One round writes where the header of the file says. -/
theorem HeaderPlaces.Same.segment_places
    (same : places.Same file current address round)
    (kept : places.Kept file address)
    (inside : round < (layout.fileHeader file).phnum) (place : Nat) :
    place ∈ (segmentCellsAt layout address (layout.pos round) current).map Prod.fst ↔
      (layout.header file round).Loaded ∧
        SegmentCell (layout.header file round) place := by
  have isHeader := same.header inside
  unfold segmentCellsAt
  dsimp only
  by_cases loaded : (layout.header file round).Loaded
  · obtain ⟨sameFilesz, sameMemsz⟩ := same.sizes_eq kept inside loaded
    unfold HeaderLayout.header at *
    rw [isHeader, if_pos loaded, ProgramHeader.fillSize, sameFilesz, sameMemsz,
      ← ProgramHeader.fillSize, List.map_append, List.mem_append,
      contentsCellsAt_place_iff, zeroFill_mem_iff, segmentCell_iff]
    exact (and_iff_right loaded).symm
  · unfold HeaderLayout.header at *
    rw [isHeader, if_neg loaded]
    constructor
    · intro member
      cases member
    · intro copied
      exact absurd copied.1 loaded

theorem HeaderPlaces.Same.next (same : places.Same file current address round)
    (kept : places.Kept file address)
    (inside : round < (layout.fileHeader file).phnum) :
    places.Same file
      (writeCells current (segmentCellsAt layout address (layout.pos round) current))
      address (round + 1) := by
  intro byte read
  rw [← same byte read.before]
  apply fileAt_writeCells
  rw [same.segment_places kept inside]
  rintro ⟨loaded, copied⟩
  exact kept.later round inside loaded byte read copied

/-- By induction on the rounds: all of them write where the headers of the file
say. -/
theorem HeaderPlaces.Same.loop_places {rounds : Nat}
    (same : places.Same file current address round)
    (kept : places.Kept file address)
    (enough : (layout.fileHeader file).phnum ≤ round + rounds) (place : Nat) :
    place ∈ (copyLoopCellsAt layout address rounds round current).map Prod.fst ↔
      ∃ index, round ≤ index ∧ index < (layout.fileHeader file).phnum ∧
        (layout.header file index).Loaded ∧
        SegmentCell (layout.header file index) place := by
  induction rounds generalizing round current with
  | zero =>
      constructor
      · intro member
        cases member
      · rintro ⟨index, later, inside, -⟩
        omega
  | succ rounds ih =>
      rw [copyLoopCellsAt, same.phnum]
      by_cases inside : round < (layout.fileHeader file).phnum
      · have here := same.segment_places kept inside place
        have behind := ih (same.next kept inside) (by omega)
        rw [if_pos inside]
        dsimp only
        rw [List.map_append, List.mem_append]
        refine (or_congr here behind).trans ?_
        constructor
        · rintro (⟨loaded, copied⟩ | ⟨index, later, before, copied⟩)
          · exact ⟨round, Nat.le_refl _, inside, loaded, copied⟩
          · exact ⟨index, by omega, before, copied⟩
        · rintro ⟨index, later, before, copied⟩
          by_cases here : index = round
          · subst here
            exact Or.inl copied
          · exact Or.inr ⟨index, by omega, before, copied⟩
      · rw [if_neg inside]
        constructor
        · intro member
          cases member
        · rintro ⟨index, later, before, -⟩
          omega

end

/-! ### Confinement -/

/-- The fields of the headers of a file. -/
def placesOf (buffer : Image) : (layout : HeaderLayout) × HeaderPlaces layout :=
  if elfClass buffer = 2 then ⟨elf64, places64⟩ else ⟨elf32, places32⟩

theorem layoutOf_eq (buffer : Image) : layoutOf buffer = (placesOf buffer).1 := by
  unfold layoutOf placesOf
  split <;> rfl

/-- The file at an address is not copied onto what the copier has still to read of
it. -/
def HeadersKept (memory : Image) (address : Nat) : Prop :=
  (placesOf (fileAt memory address)).2.Kept (fileAt memory address) address

/-- Every byte that the copier writes lies in the checked range and below
`highest`. -/
def CopyConfinedAt (memory : Image) (address start finish highest : Nat) : Prop :=
  ∀ cell, cell ∈ copiedCellsAt memory address →
    physaddr start ≤ cell.1 ∧ cell.1 < physaddr finish ∧ cell.1 < highest

section

variable {memory : Image} {address : Nat}

theorem copiedCellsAt_place_iff (kept : HeadersKept memory address)
    (magic : ((layoutOf (fileAt memory address)).fileHeader
      (fileAt memory address)).magic = elfMagic) (place : Nat) :
    place ∈ (copiedCellsAt memory address).map Prod.fst ↔
      place ∈ (copiedCells (fileAt memory address)).map Prod.fst := by
  have few := phnum_le (fileAt memory address)
  rw [copiedCells_place_iff _ magic, copiedCellsAt]
  rw [if_neg (not_not_intro magic), HeaderLayout.programHeaders]
  rw [layoutOf_eq] at few ⊢
  have same : (placesOf (fileAt memory address)).2.Same (fileAt memory address)
      memory address 0 := fun byte _ => rfl
  rw [same.loop_places kept (by omega)]
  constructor
  · rintro ⟨index, -, inside, loaded, copied⟩
    exact ⟨_, List.mem_map_of_mem (List.mem_range.mpr inside), loaded, copied⟩
  · rintro ⟨header, member, loaded, copied⟩
    obtain ⟨index, inside, rfl⟩ := List.mem_map.mp member
    exact ⟨index, Nat.zero_le _, List.mem_range.mp inside, loaded, copied⟩

theorem copyConfinedAt_iff_copyConfined (kept : HeadersKept memory address)
    (magic : ((layoutOf (fileAt memory address)).fileHeader
      (fileAt memory address)).magic = elfMagic) (start finish highest : Nat) :
    CopyConfinedAt memory address start finish highest ↔
      CopyConfined (fileAt memory address) start finish highest := by
  have byPlace (cells : List (Nat × Byte)) (inside : Nat → Prop) :
      (∀ cell, cell ∈ cells → inside cell.1) ↔
        ∀ place, place ∈ cells.map Prod.fst → inside place := by
    rw [List.forall_mem_map]
  unfold CopyConfinedAt CopyConfined
  rw [byPlace _ fun place => physaddr start ≤ place ∧ place < physaddr finish ∧
      place < highest,
    byPlace _ fun place => physaddr start ≤ place ∧ place < physaddr finish ∧
      place < highest]
  simp only [copiedCellsAt_place_iff kept magic]

theorem placesOf_inside (buffer : Image) :
    (placesOf buffer).2.phnum.stop ≤ (placesOf buffer).1.fileHeaderSize ∧
      ∀ field ∈ (placesOf buffer).2.fields,
        field.stop ≤ (placesOf buffer).1.programHeaderSize := by
  by_cases wide : elfClass buffer = 2
  · have isLayout : placesOf buffer = ⟨elf64, places64⟩ := if_pos wide
    rw [isLayout]
    decide
  · have isLayout : placesOf buffer = ⟨elf32, places32⟩ := if_neg wide
    rw [isLayout]
    decide

/-- A segment is apart from all of the headers. -/
theorem headersKept_of_apart
    (apart : ∀ header,
      header ∈ (layoutOf (fileAt memory address)).programHeaders
        (fileAt memory address) →
      header.Loaded → ∀ byte, byte < fileExtent (fileAt memory address) 0 →
        ¬ SegmentCell header (physaddr (address + byte))) :
    HeadersKept memory address := by
  obtain ⟨countInside, fieldInside⟩ := placesOf_inside (fileAt memory address)
  unfold fileExtent at apart
  rw [layoutOf_eq, Nat.zero_max] at apart
  unfold HeadersKept
  generalize placesOf (fileAt memory address) = described at *
  generalize fileAt memory address = file at *
  obtain ⟨layout, places⟩ := described
  dsimp only at *
  have headerInside {index byte : Nat} {field : Place}
      (inside : index < (layout.fileHeader file).phnum)
      (isField : field ∈ places.fields)
      (inField : field.Holds (layout.pos index) byte) :
      byte < layout.fileHeaderSize +
        (layout.fileHeader file).phnum * layout.programHeaderSize := by
    have before : (index + 1) * layout.programHeaderSize ≤
        (layout.fileHeader file).phnum * layout.programHeaderSize :=
      Nat.mul_le_mul_right _ inside
    have stop := fieldInside field isField
    have ends := inField.2
    rw [Nat.succ_mul] at before
    unfold HeaderLayout.pos at ends
    omega
  have isHeader {index : Nat} (inside : index < (layout.fileHeader file).phnum) :
      layout.header file index ∈ layout.programHeaders file :=
    List.mem_map_of_mem (List.mem_range.mpr inside)
  constructor
  · intro index inside loaded byte read
    apply apart _ (isHeader inside) loaded
    rcases read with isCount | ⟨later, -, laterInside, field, isField, inField⟩
    · have ends := isCount.2
      omega
    · exact headerInside laterInside isField inField
  · intro index inside loaded byte isSize copied
    apply apart _ (isHeader inside) loaded byte _ (segmentCell_iff.mpr (Or.inl copied))
    rcases isSize with isFilesz | isMemsz
    · exact headerInside inside (by simp [HeaderPlaces.fields]) isFilesz
    · exact headerInside inside (by simp [HeaderPlaces.fields]) isMemsz

/-- As in a boot: the headers lie outside of the range that the kernel is checked
for. -/
theorem headersKept_of_outside {filesize start finish : Nat}
    (accepted : returnCode
      (checkSections (fileAt memory address) filesize start finish none) = 0)
    (covered : UncheckedCovered
      ((layoutOf (fileAt memory address)).programHeaders (fileAt memory address))
      start)
    (outside : ∀ byte, byte < fileExtent (fileAt memory address) 0 →
      physaddr start ≤ physaddr (address + byte) →
        physaddr finish ≤ physaddr (address + byte)) :
    HeadersKept memory address := by
  have magic := (checkSections_accepted _ _ _ _ _ accepted).magic
  have confined := copyConfined_of_covered _ _ _ _ accepted covered
  apply headersKept_of_apart
  intro header member loaded byte inside copied
  have written := (copiedCells_place_iff _ magic _).mpr
    ⟨header, member, loaded, copied⟩
  obtain ⟨cell, isCell, isPlace⟩ := List.mem_map.mp written
  obtain ⟨fromStart, beforeFinish, -⟩ := confined cell isCell
  rw [isPlace] at fromStart beforeFinish
  have behind := outside byte inside fromStart
  omega

end

/-- The second segment claims `0xff200000` bytes of memory: its computed end is
`0x100000`, while its file contents reach `0x1100000`. -/
def wrappingKernel : Image :=
  imageOfList (encodeHeaders32
    { magic := elfMagic, entry := 0x80010000, phnum := 2 }
    [{ type := ptLoad, offset := 0x1000, paddr := 0x80010000,
       filesz := 0x100, memsz := 0x100 },
     { type := ptLoad, offset := 0x2000, paddr := 0x80f00000,
       filesz := 0x200000, memsz := 0xff200000 }])

def wrappingMemory : Image := fun place => wrappingKernel (place - 0x1200000)

theorem wrappingMemory_headers :
    (layoutOf (fileAt wrappingMemory 0x81200000)).programHeaders
        (fileAt wrappingMemory 0x81200000) =
      [{ type := ptLoad, offset := 0x1000, paddr := 0x80010000,
         filesz := 0x100, memsz := 0x100 },
       { type := ptLoad, offset := 0x2000, paddr := 0x80f00000,
         filesz := 0x200000, memsz := 0xff200000 }] := by
  decide +kernel

theorem wrappingMemory_headersKept : HeadersKept wrappingMemory 0x81200000 := by
  have extent : fileExtent (fileAt wrappingMemory 0x81200000) 0 = 116 := by
    decide +kernel
  apply headersKept_of_apart
  rw [wrappingMemory_headers, extent]
  intro header member loaded byte inside copied
  simp only [List.mem_cons, List.not_mem_nil, or_false] at member
  -- The file begins behind the last byte of both segments.
  suffices low : physaddr (0x81200000 + byte) < 0x1200000 by
    rw [physaddr_eq_mod] at low
    omega
  rcases member with rfl | rfl
  · rcases segmentCell_iff.mp copied with ⟨-, index, few, isPlace⟩ | ⟨index, few, -⟩
    · have few : (index : Int) < 0x100 := few
      rw [isPlace, physaddr_eq_mod]
      dsimp only [u32]
      omega
    · have none : (index : Int) < 0 := few
      omega
  · rcases segmentCell_iff.mp copied with ⟨-, index, few, isPlace⟩ | ⟨index, few, -⟩
    · have few : (index : Int) < 0x200000 := few
      rw [isPlace, physaddr_eq_mod]
      dsimp only [u32]
      omega
    · have none : (index : Int) < -0x1000000 := few
      omega

/-- Behind two headers there are the contents of the first segment, which is copied
onto the second header.  They are a header for physical address 0. -/
def patchingKernel : Image :=
  imageOfList (encodeHeaders32
    { magic := elfMagic, entry := 0x81000054, phnum := 2 }
    [{ type := ptLoad, offset := 116, paddr := 0x81000054, filesz := 32, memsz := 32 },
     { type := 0, offset := 0, paddr := 0, filesz := 0, memsz := 0 },
     { type := ptLoad, offset := 0, paddr := 0x80000000, filesz := 1, memsz := 1 }])

def patchingMemory : Image := fun place => patchingKernel (place - 0x1000000)

/-- Without unchecked bytes the copier still leaves the range. -/
theorem patchingMemory_not_confined :
    returnCode (checkSections (fileAt patchingMemory 0x81000000) 149 0x10000
        0x2000000 none) = 0 ∧
      UncheckedCovered
        ((layoutOf (fileAt patchingMemory 0x81000000)).programHeaders
          (fileAt patchingMemory 0x81000000)) 0x10000 ∧
      ¬ CopyConfinedAt patchingMemory 0x81000000 0x10000 0x2000000
        (checkSections (fileAt patchingMemory 0x81000000) 149 0x10000 0x2000000
          none).1.highest := by
  have headers : (layoutOf (fileAt patchingMemory 0x81000000)).programHeaders
        (fileAt patchingMemory 0x81000000) =
      [{ type := ptLoad, offset := 116, paddr := 0x81000054, filesz := 32,
         memsz := 32 },
       { type := 0, offset := 0, paddr := 0, filesz := 0, memsz := 0 }] := by
    decide +kernel
  refine ⟨by decide +kernel, ?_, ?_⟩
  · rw [headers]
    intro header member loaded present
    simp only [List.mem_cons, List.not_mem_nil, or_false] at member
    rcases member with rfl | rfl
    · exact absurd (by decide) present
    · exact absurd loaded (by decide)
  · intro confined
    have written : (0, 0x7f) ∈ copiedCellsAt patchingMemory 0x81000000 := by
      decide +kernel
    exact absurd (confined _ written).1 (by decide)

end KernelReloaded.Elf

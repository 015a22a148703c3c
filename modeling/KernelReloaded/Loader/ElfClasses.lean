/-
One program, two ELF classes.

A logical program is encoded once with 32-bit and once with 64-bit headers.
The class-specific checkers, copiers and verifiers agree on such a pair, except
for the entry address the copiers return: `copy_sections64` reduces it with
`PHYSADDR` and `copy_sections32` does not.  The files are kept apart from the memory
that is written; `SectionCopy` has the copier for a file within it.
-/

import KernelReloaded.Loader.SectionSafety

namespace KernelReloaded.Elf

open Memory

structure Segment where
  paddr : Nat
  offset : Nat
  filesz : Nat
  memsz : Nat
  contents : Nat → Byte
  paddr_lt : paddr < 4294967296
  offset_lt : offset < 4294967296
  filesz_lt : filesz < 4294967296
  memsz_lt : memsz < 4294967296

def Segment.header (segment : Segment) : ProgramHeader :=
  { type := ptLoad
    offset := segment.offset
    paddr := segment.paddr
    filesz := segment.filesz
    memsz := segment.memsz }

structure LogicalProgram where
  entry : Nat
  segments : List Segment
  entry_lt : entry < 4294967296

/-- A file whose headers, directly behind the file header, describe the
program and whose bytes hold its segment contents. -/
structure Encodes (layout : HeaderLayout) (buffer : Image)
    (program : LogicalProgram) : Prop where
  dispatched : layoutOf buffer = layout
  magic : (layout.fileHeader buffer).magic = elfMagic
  entry : (layout.fileHeader buffer).entry = program.entry
  headers : layout.programHeaders buffer = program.segments.map Segment.header
  contents : ∀ segment, segment ∈ program.segments →
    ∀ index, index < segment.filesz →
      buffer (u32 (segment.offset + index)) = segment.contents index

/-- The distance from each segment's end to the end of file is the same in
both files. -/
def SameTail (program : LogicalProgram) (filesize32 filesize64 : Nat) : Prop :=
  ∀ segment, segment ∈ program.segments →
    (filesize32 : Int) - (segment.offset + segment.filesz) =
      (filesize64 : Int) - (segment.offset + segment.filesz)

structure ClassesAgree (buffer32 buffer64 : Image)
    (filesize32 filesize64 start finish : Nat) : Prop where
  code : returnCode (checkSections buffer32 filesize32 start finish none) =
    returnCode (checkSections buffer64 filesize64 start finish none)
  highest : (checkSections buffer32 filesize32 start finish none).1.highest =
    (checkSections buffer64 filesize64 start finish none).1.highest
  cells : copiedCells buffer32 = copiedCells buffer64
  entry : (copySections buffer32).entry = (copySections buffer64).entry
  verified : ∀ memory,
    verifySections memory buffer32 = verifySections memory buffer64

/-! ### The checkers -/

private theorem checkLoop_other_buffer (context : CheckContext)
    (noCopy : context.destaddr = none) (buffer : Image)
    (headers : List ProgramHeader) (state : CheckState) :
    checkLoop { context with buffer := buffer } headers state =
      checkLoop context headers state := by
  induction headers generalizing state with
  | nil =>
      rfl
  | cons header rest ih =>
      have sameSegment :
          checkSegment { context with buffer := buffer } header state =
            checkSegment context header state := by
        unfold checkSegment
        simp only [noCopy]
      unfold checkLoop
      rw [sameSegment]
      cases checkSegment context header state with
      | mk next error =>
          cases error with
          | none =>
              exact ih next
          | some error =>
              rfl

private theorem checkLoop_nil_filesize (context : CheckContext)
    (filesize : Nat) (state : CheckState) :
    checkLoop { context with filesize := filesize } [] state =
      checkLoop context [] state := rfl

theorem checkSections_agree {program : LogicalProgram}
    {buffer32 buffer64 : Image} {filesize32 filesize64 : Nat}
    (encodes32 : Encodes elf32 buffer32 program)
    (encodes64 : Encodes elf64 buffer64 program)
    (tail : SameTail program filesize32 filesize64) (start finish : Nat) :
    checkSections buffer32 filesize32 start finish none =
      checkSections buffer64 filesize64 start finish none := by
  have sameLoop (context : CheckContext) (noCopy : context.destaddr = none)
      (state : CheckState) :
      checkLoop
          { context with buffer := buffer32, filesize := filesize32 }
          (elf32.programHeaders buffer32) state =
        checkLoop
          { context with buffer := buffer64, filesize := filesize64 }
          (elf64.programHeaders buffer64) state := by
    rw [encodes32.headers, encodes64.headers]
    rw [checkLoop_other_buffer { context with filesize := filesize32 } noCopy,
      checkLoop_other_buffer { context with filesize := filesize64 } noCopy]
    cases segmentsEq : program.segments with
    | nil =>
        exact (checkLoop_nil_filesize context filesize32 state).trans
          (checkLoop_nil_filesize context filesize64 state).symm
    | cons segment rest =>
        have distance := tail segment (by rw [segmentsEq]; exact List.Mem.head _)
        have sameSize : filesize32 = filesize64 := by omega
        rw [sameSize]
  rw [checkSections_eq_with, checkSections_eq_with, encodes32.dispatched,
    encodes64.dispatched]
  unfold checkSectionsWith
  simp only [encodes32.magic, encodes64.magic, encodes32.entry,
    encodes64.entry]
  rw [sameLoop
    { buffer := buffer32, filesize := filesize32, start := physaddr start,
      finish := physaddr finish, entry := physaddr (u32 program.entry),
      destaddr := none } rfl]

/-! ### The copiers -/

private theorem kmemcpy_cells_congr (dest size : Nat)
    (left right : Nat → Byte)
    (same : ∀ index, index < size → left index = right index) :
    (kmemcpy dest left size).flatMap (Store.cells physaddr) =
      (kmemcpy dest right size).flatMap (Store.cells physaddr) := by
  unfold kmemcpy
  split
  · rename_i positive
    have bounded : (toInt32 size).toNat ≤ size := by
      unfold toInt32
      split <;> omega
    simp only [List.flatMap_cons, List.flatMap_nil, List.append_nil]
    apply Store.cells_congr
    · rfl
    · intro index inside
      exact ⟨rfl, same index (Nat.lt_of_lt_of_le inside bounded)⟩
  · rfl

private theorem segmentStores_cells_agree (segment : Segment)
    (buffer32 buffer64 : Image) (dest : Nat)
    (same : ∀ index, index < segment.filesz →
      buffer32 (u32 (segment.offset + index)) =
        buffer64 (u32 (segment.offset + index))) :
    (segmentStores buffer32 dest segment.header).flatMap
        (Store.cells physaddr) =
      (segmentStores buffer64 dest segment.header).flatMap
        (Store.cells physaddr) := by
  unfold segmentStores
  rw [List.flatMap_append, List.flatMap_append]
  congr 1
  split
  · exact kmemcpy_cells_congr dest _ _ _ same
  · rfl

theorem Encodes.copyLoop_cells {program : LogicalProgram}
    {buffer32 buffer64 : Image}
    (encodes32 : Encodes elf32 buffer32 program)
    (encodes64 : Encodes elf64 buffer64 program)
    (segments : List Segment)
    (subset : ∀ segment, segment ∈ segments → segment ∈ program.segments) :
    (copyLoop buffer32 (segments.map Segment.header)).flatMap
        (Store.cells physaddr) =
      (copyLoop buffer64 (segments.map Segment.header)).flatMap
        (Store.cells physaddr) := by
  unfold copyLoop
  induction segments with
  | nil =>
      rfl
  | cons segment rest ih =>
      rw [List.map_cons, List.flatMap_cons, List.flatMap_cons,
        List.flatMap_append, List.flatMap_append,
        ih fun other member => subset other (List.mem_cons_of_mem _ member)]
      congr 1
      split
      · apply segmentStores_cells_agree
        intro index inside
        have present := subset segment (List.mem_cons_self ..)
        rw [encodes32.contents segment present index inside,
          encodes64.contents segment present index inside]
      · rfl

theorem copiedCells_agree {program : LogicalProgram}
    {buffer32 buffer64 : Image}
    (encodes32 : Encodes elf32 buffer32 program)
    (encodes64 : Encodes elf64 buffer64 program) :
    copiedCells buffer32 = copiedCells buffer64 := by
  have magic32 := encodes32.magic
  have magic64 := encodes64.magic
  rw [← encodes32.dispatched] at magic32
  rw [← encodes64.dispatched] at magic64
  unfold copiedCells
  rw [copySections_stores buffer32 magic32,
    copySections_stores buffer64 magic64, encodes32.dispatched,
    encodes64.dispatched, encodes32.headers, encodes64.headers]
  exact encodes32.copyLoop_cells encodes64 program.segments
    (fun _ member => member)

private theorem elfClass_of_elf64 {buffer : Image}
    (dispatched : layoutOf buffer = elf64) : elfClass buffer = 2 := by
  by_contra narrow
  unfold layoutOf at dispatched
  rw [if_neg narrow] at dispatched
  have sizes := congrArg HeaderLayout.fileHeaderSize dispatched
  exact absurd sizes (by decide)

private theorem elfClass_of_elf32 {buffer : Image}
    (dispatched : layoutOf buffer = elf32) : elfClass buffer ≠ 2 := by
  intro wide
  unfold layoutOf at dispatched
  rw [if_pos wide] at dispatched
  have sizes := congrArg HeaderLayout.fileHeaderSize dispatched
  exact absurd sizes (by decide)

theorem Encodes.entry32 {program : LogicalProgram} {buffer : Image}
    (encodes : Encodes elf32 buffer program) :
    (copySections buffer).entry = some program.entry := by
  unfold copySections copySections32
  rw [if_neg (elfClass_of_elf32 encodes.dispatched),
    if_neg (not_not_intro encodes.magic), encodes.entry]

theorem Encodes.entry64 {program : LogicalProgram} {buffer : Image}
    (encodes : Encodes elf64 buffer program) :
    (copySections buffer).entry = some (physaddr program.entry) := by
  unfold copySections copySections64
  rw [if_pos (elfClass_of_elf64 encodes.dispatched),
    if_neg (not_not_intro encodes.magic), encodes.entry]

/-! ### The verifiers -/

private theorem verifySegment_agree (segment : Segment)
    (memory buffer32 buffer64 : Image)
    (same : ∀ index, index < segment.filesz →
      buffer32 (u32 (segment.offset + index)) =
        buffer64 (u32 (segment.offset + index))) :
    verifySegment memory buffer32 segment.paddr segment.header =
      verifySegment memory buffer64 (physaddr segment.paddr)
        segment.header := by
  have samePlace (index : Nat) :
      physaddr (segment.paddr + index) =
        physaddr (physaddr segment.paddr + index) := by
    simp only [physaddr_eq_mod]
    omega
  unfold verifySegment
  rw [samePlace segment.header.filesz]
  congr 2
  rw [Bool.eq_iff_iff, List.all_eq_true, List.all_eq_true]
  have pointwise (index : Nat)
      (member : index ∈ List.range (u32 segment.header.filesz)) :
      (decide (memory (physaddr (segment.paddr + index)) =
          buffer32 (u32 (segment.header.offset + index))) = true) ↔
        (decide (memory (physaddr (physaddr segment.paddr + index)) =
          buffer64 (u32 (segment.header.offset + index))) = true) := by
    have inside : index < segment.filesz := by
      have bounded := List.mem_range.mp member
      change index < u32 segment.filesz at bounded
      unfold u32 at bounded
      omega
    have sameByte := same index inside
    change buffer32 (u32 (segment.header.offset + index)) =
      buffer64 (u32 (segment.header.offset + index)) at sameByte
    rw [samePlace index, sameByte]
  constructor
  · intro all index member
    exact (pointwise index member).mp (all index member)
  · intro all index member
    exact (pointwise index member).mpr (all index member)

theorem verifySections_agree {program : LogicalProgram}
    {buffer32 buffer64 : Image}
    (encodes32 : Encodes elf32 buffer32 program)
    (encodes64 : Encodes elf64 buffer64 program) (memory : Image) :
    verifySections memory buffer32 = verifySections memory buffer64 := by
  unfold verifySections
  rw [if_neg (elfClass_of_elf32 encodes32.dispatched),
    if_pos (elfClass_of_elf64 encodes64.dispatched)]
  unfold verifySections32 verifySections64
  rw [encodes32.magic, encodes64.magic, encodes32.headers,
    encodes64.headers, List.all_map, List.all_map]
  congr 1
  rw [Bool.eq_iff_iff, List.all_eq_true, List.all_eq_true]
  have pointwise (segment : Segment) (member : segment ∈ program.segments) :
      verifySegment memory buffer32 segment.paddr segment.header =
        verifySegment memory buffer64 (physaddr segment.paddr)
          segment.header := by
    apply verifySegment_agree
    intro index inside
    rw [encodes32.contents segment member index inside,
      encodes64.contents segment member index inside]
  constructor
  · intro all segment member
    have checked := all segment member
    change (!decide segment.header.Loaded ||
      verifySegment memory buffer32 segment.paddr segment.header) = true
      at checked
    rw [pointwise segment member] at checked
    exact checked
  · intro all segment member
    have checked := all segment member
    change (!decide segment.header.Loaded ||
      verifySegment memory buffer64 (physaddr segment.paddr)
        segment.header) = true at checked
    rw [← pointwise segment member] at checked
    exact checked

/-- Both classes of one program are checked, copied and verified alike, and
the copiers return the same entry address, exactly for an entry address that
is its own physical address. -/
theorem classesAgree_iff_entry_physical (program : LogicalProgram)
    (buffer32 buffer64 : Image) (filesize32 filesize64 start finish : Nat)
    (encodes32 : Encodes elf32 buffer32 program)
    (encodes64 : Encodes elf64 buffer64 program)
    (tail : SameTail program filesize32 filesize64) :
    ClassesAgree buffer32 buffer64 filesize32 filesize64 start finish ↔
      program.entry < 0x10000000 := by
  have sameCheck := checkSections_agree encodes32 encodes64 tail start finish
  constructor
  · intro agree
    have sameEntry := agree.entry
    rw [encodes32.entry32, encodes64.entry64, Option.some.injEq,
      physaddr_eq_mod] at sameEntry
    omega
  · intro physical
    refine
      { code := by rw [sameCheck]
        highest := by rw [sameCheck]
        cells := copiedCells_agree encodes32 encodes64
        entry := ?_
        verified := verifySections_agree encodes32 encodes64 }
    rw [encodes32.entry32, encodes64.entry64, physaddr_eq_mod,
      Nat.mod_eq_of_lt physical]

/-! ### A kernel in both classes -/

/-- One segment of zeros at `0x80010000`, entered at the given address. -/
def zeroProgram (entry : Nat) (entry_lt : entry < 4294967296) :
    LogicalProgram :=
  { entry := entry
    segments :=
      [{ paddr := 0x80010000, offset := 0x1000, filesz := 0x100,
         memsz := 0x200, contents := fun _ => 0, paddr_lt := by decide,
         offset_lt := by decide, filesz_lt := by decide,
         memsz_lt := by decide }]
    entry_lt := entry_lt }

def zeroFile32 (entry : Nat) : Image :=
  imageOfList (encodeHeaders32
    { magic := elfMagic, entry := entry, phnum := 1 }
    [{ type := ptLoad, offset := 0x1000, paddr := 0x80010000,
       filesz := 0x100, memsz := 0x200 }])

def zeroFile64 (entry : Nat) : Image :=
  imageOfList (encodeHeaders64
    { magic := elfMagic, entry := entry, phnum := 1 }
    [{ type := ptLoad, offset := 0x1000, paddr := 0x80010000,
       filesz := 0x100, memsz := 0x200 }])

private theorem imageOfList_beyond (bytes : List Byte) (index : Nat)
    (beyond : bytes.length ≤ index) : imageOfList bytes index = 0 := by
  unfold imageOfList
  rw [List.getD_eq_getElem?_getD, List.getElem?_eq_none beyond]
  rfl

private theorem zeroContents (bytes : List Byte) (short : bytes.length ≤ 0x1000)
    (segment : Segment) (offset : segment.offset = 0x1000)
    (small : segment.filesz = 0x100) (zeros : segment.contents = fun _ => 0)
    (index : Nat) (inside : index < segment.filesz) :
    imageOfList bytes (u32 (segment.offset + index)) =
      segment.contents index := by
  rw [zeros, imageOfList_beyond bytes]
  rw [offset]
  unfold u32
  omega

theorem zeroFile32_encodes :
    Encodes elf32 (zeroFile32 0x80010000)
        (zeroProgram 0x80010000 (by decide)) ∧
      Encodes elf32 (zeroFile32 0x10000) (zeroProgram 0x10000 (by decide)) := by
  constructor
  all_goals
    refine ⟨rfl, by decide, by decide, by decide, ?_⟩
    intro segment member
    rw [List.mem_singleton.mp member]
    exact zeroContents _ (by decide) _ rfl rfl rfl

theorem zeroFile64_encodes :
    Encodes elf64 (zeroFile64 0x80010000)
        (zeroProgram 0x80010000 (by decide)) ∧
      Encodes elf64 (zeroFile64 0x10000) (zeroProgram 0x10000 (by decide)) := by
  constructor
  all_goals
    refine ⟨rfl, by decide, by decide, by decide, ?_⟩
    intro segment member
    rw [List.mem_singleton.mp member]
    exact zeroContents _ (by decide) _ rfl rfl rfl

theorem zeroFile_classesAgree :
    ClassesAgree (zeroFile32 0x10000) (zeroFile64 0x10000) 0x2000 0x2000
      0x10000 0x1000000 :=
  (classesAgree_iff_entry_physical (zeroProgram 0x10000 (by decide)) _ _
    0x2000 0x2000 0x10000 0x1000000 zeroFile32_encodes.2 zeroFile64_encodes.2
    (fun _ _ => rfl)).mpr (by decide)

/-- A kernel linked for KSEG0, as every accepted one is. -/
theorem zeroFile_classes_disagree :
    Encodes elf32 (zeroFile32 0x80010000)
        (zeroProgram 0x80010000 (by decide)) ∧
      Encodes elf64 (zeroFile64 0x80010000)
        (zeroProgram 0x80010000 (by decide)) ∧
      ¬ ClassesAgree (zeroFile32 0x80010000) (zeroFile64 0x80010000)
        0x2000 0x2000 0x10000 0x1000000 := by
  refine ⟨zeroFile32_encodes.1, zeroFile64_encodes.1, ?_⟩
  intro agree
  have sameEntry := agree.entry
  rw [zeroFile32_encodes.1.entry32, zeroFile64_encodes.1.entry64] at sameEntry
  exact absurd sameEntry (by decide)

end KernelReloaded.Elf

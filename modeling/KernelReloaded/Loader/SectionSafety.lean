/-
Where the headers of a kernel that `check_sections` accepted send its bytes.

The checker computes the end of a region in 32 bits.  A `memsz` near `2 ^ 32`
makes that end wrap to a small address, the region passes, and the copier then
writes the whole file contents.  The zero fill of such a header is skipped,
because its length is negative as an `int`.  A 64-bit `filesz` that is a
multiple of `2 ^ 32` gives the checker a zero size, so it checks nothing while
the copier still clears memory.  Every other header is confined.
-/

import KernelReloaded.Loader.ElfSections

namespace KernelReloaded.Elf

open Memory

/-! ### What an accepted header satisfies -/

def ProgramHeader.Checked (header : ProgramHeader) : Prop :=
  header.Loaded ∧ header.size ≠ 0

instance (header : ProgramHeader) : Decidable header.Checked :=
  inferInstanceAs (Decidable (_ ∧ _))

structure ProgramHeader.Passes (header : ProgramHeader)
    (context : CheckContext) : Prop where
  fileRange : checkFileRange context.filesize header = none
  accessible : accessibleArea (u32 header.paddr) = true
  afterStart : context.start ≤ physaddr (u32 header.paddr)
  beforeFinish : header.last < context.finish

theorem checkSegment_skipped (context : CheckContext) (header : ProgramHeader)
    (state : CheckState) (skipped : ¬ header.Checked) :
    checkSegment context header state = (state, none) := by
  unfold checkSegment
  by_cases loaded : header.Loaded
  · have empty : header.size = 0 := by
      by_contra nonempty
      exact skipped ⟨loaded, nonempty⟩
    rw [if_neg (not_not_intro loaded), if_pos empty]
  · rw [if_pos loaded]

theorem checkSegment_accepted (context : CheckContext) (header : ProgramHeader)
    (state : CheckState) (isChecked : header.Checked)
    (accepted : (checkSegment context header state).2 = none) :
    header.Passes context ∧
      (checkSegment context header state).1.highest =
        max state.highest header.last := by
  obtain ⟨loaded, nonempty⟩ := isChecked
  unfold checkSegment at accepted ⊢
  rw [if_neg (not_not_intro loaded), if_neg nonempty] at accepted ⊢
  cases range : checkFileRange context.filesize header with
  | some error =>
      rw [range] at accepted
      cases accepted
  | none =>
      rw [range] at accepted
      simp only at accepted ⊢
      split at accepted
      · cases accepted
      · rename_i reachable
        split at accepted
        · cases accepted
        · rename_i notBefore
          split at accepted
          · cases accepted
          · rename_i notAfter
            rw [if_neg reachable, if_neg notBefore, if_neg notAfter]
            exact ⟨⟨range, by simpa using reachable, by omega, by omega⟩, rfl⟩

/-- What the loop leaves behind when it returns zero: every checked header
passed, and `highest` is the largest end seen. -/
structure LoopAccepted (context : CheckContext)
    (headers : List ProgramHeader) (before after : Nat) : Prop where
  passes : ∀ header, header ∈ headers → header.Checked →
    header.Passes context ∧ header.last ≤ after
  monotone : before ≤ after
  attained : after = before ∨
    ∃ header, header ∈ headers ∧ header.Checked ∧ after = header.last

theorem checkLoop_accepted (context : CheckContext)
    (headers : List ProgramHeader) (state : CheckState)
    (accepted : (checkLoop context headers state).2 = none) :
    LoopAccepted context headers state.highest
      (checkLoop context headers state).1.highest := by
  induction headers generalizing state with
  | nil =>
      refine ⟨?_, Nat.le_refl _, Or.inl rfl⟩
      intro header member
      cases member
  | cons header rest ih =>
      unfold checkLoop at accepted ⊢
      by_cases isChecked : header.Checked
      · cases passed : checkSegment context header state with
        | mk next error =>
            rw [passed] at accepted
            cases error with
            | some error =>
                cases accepted
            | none =>
                have segment := checkSegment_accepted context header state
                  isChecked (by rw [passed])
                rw [passed] at segment
                obtain ⟨headerPasses, raised⟩ := segment
                simp only at raised accepted ⊢
                have tail := ih next accepted
                refine ⟨?_, ?_, ?_⟩
                · intro other member otherChecked
                  rcases List.mem_cons.mp member with same | later
                  · subst other
                    exact ⟨headerPasses, by have grows := tail.monotone; omega⟩
                  · exact tail.passes other later otherChecked
                · have grows := tail.monotone
                  omega
                · rcases tail.attained with unchanged | reached
                  · by_cases lower : header.last ≤ state.highest
                    · exact Or.inl (by omega)
                    · exact Or.inr ⟨header, List.mem_cons_self ..,
                        isChecked, by omega⟩
                  · obtain ⟨other, later, otherChecked, same⟩ := reached
                    exact Or.inr ⟨other, List.mem_cons_of_mem _ later,
                      otherChecked, same⟩
      · rw [checkSegment_skipped context header state isChecked]
          at accepted ⊢
        simp only at accepted ⊢
        have tail := ih state accepted
        refine ⟨?_, tail.monotone, ?_⟩
        · intro other member otherChecked
          rcases List.mem_cons.mp member with same | later
          · subst other
            exact absurd otherChecked isChecked
          · exact tail.passes other later otherChecked
        · rcases tail.attained with unchanged | reached
          · exact Or.inl unchanged
          · obtain ⟨other, later, otherChecked, same⟩ := reached
            exact Or.inr ⟨other, List.mem_cons_of_mem _ later, otherChecked,
              same⟩

theorem returnCode_eq_zero_iff (result : CheckState × Option SectionError) :
    returnCode result = 0 ↔ result.2 = none := by
  unfold returnCode
  cases result.2 with
  | none =>
      exact ⟨fun _ => rfl, fun _ => rfl⟩
  | some error =>
      cases error <;> simp [SectionError.code]

def contextOf (buffer : Image) (filesize start finish : Nat)
    (destaddr : Option Nat) : CheckContext :=
  { buffer := buffer
    filesize := filesize
    start := physaddr start
    finish := physaddr finish
    entry := physaddr (u32 ((layoutOf buffer).fileHeader buffer).entry)
    destaddr := destaddr }

theorem checkSections_eq_with (buffer : Image) (filesize start finish : Nat)
    (destaddr : Option Nat) :
    checkSections buffer filesize start finish destaddr =
      checkSectionsWith (layoutOf buffer) buffer filesize (physaddr start)
        (physaddr finish) destaddr := by
  unfold checkSections layoutOf checkSections32 checkSections64
  by_cases wide : elfClass buffer = 2
  · rw [if_pos wide, if_pos wide]
  · rw [if_neg wide, if_neg wide]

/-- An accepted file has the magic number, an entry point inside the range and
an accepted header loop. -/
structure FileAccepted (buffer : Image) (filesize start finish : Nat)
    (destaddr : Option Nat) : Prop where
  magic : ((layoutOf buffer).fileHeader buffer).magic = elfMagic
  entry : physaddr start ≤
      physaddr (u32 ((layoutOf buffer).fileHeader buffer).entry) ∧
    physaddr (u32 ((layoutOf buffer).fileHeader buffer).entry) <
      physaddr finish
  loop : LoopAccepted (contextOf buffer filesize start finish destaddr)
    ((layoutOf buffer).programHeaders buffer) 0
    (checkSections buffer filesize start finish destaddr).1.highest

theorem checkSections_accepted (buffer : Image) (filesize start finish : Nat)
    (destaddr : Option Nat)
    (accepted : returnCode
      (checkSections buffer filesize start finish destaddr) = 0) :
    FileAccepted buffer filesize start finish destaddr := by
  suffices accepting :
      ((layoutOf buffer).fileHeader buffer).magic = elfMagic ∧
        (physaddr start ≤
            physaddr (u32 ((layoutOf buffer).fileHeader buffer).entry) ∧
          physaddr (u32 ((layoutOf buffer).fileHeader buffer).entry) <
            physaddr finish) ∧
        LoopAccepted (contextOf buffer filesize start finish destaddr)
          ((layoutOf buffer).programHeaders buffer) 0
          (checkSections buffer filesize start finish destaddr).1.highest from
    ⟨accepting.1, accepting.2.1, accepting.2.2⟩
  rw [returnCode_eq_zero_iff] at accepted
  rw [checkSections_eq_with] at accepted ⊢
  unfold checkSectionsWith at accepted ⊢
  simp only at accepted ⊢
  split at accepted
  · cases accepted
  · rename_i goodMagic
    split at accepted
    · cases accepted
    · rename_i reachable
      split at accepted
      · cases accepted
      · rename_i notBefore
        split at accepted
        · cases accepted
        · rename_i notAfter
          rw [if_neg goodMagic, if_neg reachable, if_neg notBefore,
            if_neg notAfter]
          refine ⟨by simpa using goodMagic, ⟨by omega, by omega⟩, ?_⟩
          exact checkLoop_accepted
            (contextOf buffer filesize start finish destaddr) _ _ accepted

/-! ### The cells the copier writes -/

/-- The writes when none of them reaches the file itself.  `copiedCellsAt` has them
for a file in the memory that is written. -/
def copiedCells (buffer : Image) : List (Nat × Byte) :=
  (copySections buffer).stores.flatMap (Store.cells physaddr)

theorem copySections_stores (buffer : Image)
    (magic : ((layoutOf buffer).fileHeader buffer).magic = elfMagic) :
    (copySections buffer).stores =
      copyLoop buffer ((layoutOf buffer).programHeaders buffer) := by
  unfold layoutOf at magic ⊢
  unfold copySections copySections32 copySections64
  by_cases wide : elfClass buffer = 2
  · rw [if_pos wide] at magic
    rw [if_pos wide, if_pos wide, if_neg (not_not_intro magic)]
  · rw [if_neg wide] at magic
    rw [if_neg wide, if_neg wide, if_neg (not_not_intro magic)]

/-- The bytes of one segment's copy: file contents first, then zero fill. -/
inductive SegmentCell (header : ProgramHeader) (address : Nat) : Prop where
  | contents (index : Nat) (present : header.filesz ≠ 0)
      (inside : (index : Int) < toInt32 header.filesz)
      (place : address = physaddr (u32 header.paddr + index))
  | fill (index : Nat)
      (inside : (index : Int) < toInt32 header.fillSize)
      (place : address = physaddr (u32 header.paddr + header.filesz + index))

private theorem kmemcpy_cell {dest size : Nat} {source : Nat → Byte}
    {store : Store} (member : store ∈ kmemcpy dest source size) :
    store.dest = dest ∧ (store.size : Int) = toInt32 size := by
  unfold kmemcpy at member
  split at member
  · rename_i positive
    rw [List.mem_singleton] at member
    subst store
    exact ⟨rfl, Int.toNat_of_nonneg (by omega)⟩
  · cases member

private theorem zeroFill_cell {dest size : Nat} {store : Store}
    (member : store ∈ zeroFill dest size) :
    store.dest = dest ∧ (store.size : Int) = toInt32 size := by
  unfold zeroFill at member
  split at member
  · rename_i positive
    rw [List.mem_singleton] at member
    subst store
    exact ⟨rfl, Int.toNat_of_nonneg (by omega)⟩
  · cases member

theorem copiedCells_cases (buffer : Image)
    (magic : ((layoutOf buffer).fileHeader buffer).magic = elfMagic)
    (cell : Nat × Byte) (written : cell ∈ copiedCells buffer) :
    ∃ header, header ∈ (layoutOf buffer).programHeaders buffer ∧
      header.Loaded ∧ SegmentCell header cell.1 := by
  unfold copiedCells at written
  rw [copySections_stores buffer magic, List.mem_flatMap] at written
  obtain ⟨store, copied, inStore⟩ := written
  obtain ⟨index, inside, rfl⟩ := Store.mem_cells.mp inStore
  unfold copyLoop at copied
  obtain ⟨header, member, fromHeader⟩ := List.mem_flatMap.mp copied
  split at fromHeader
  · rename_i loaded
    refine ⟨header, member, loaded, ?_⟩
    unfold segmentStores at fromHeader
    rcases List.mem_append.mp fromHeader with fromContents | fromFill
    · split at fromContents
      · rename_i present
        obtain ⟨sameDest, sameSize⟩ := kmemcpy_cell fromContents
        exact .contents index present (by omega) (by rw [sameDest])
      · cases fromContents
    · obtain ⟨sameDest, sameSize⟩ := zeroFill_cell fromFill
      exact .fill index (by omega) (by rw [sameDest])
  · cases fromHeader

theorem contents_mem_copiedCells (buffer : Image)
    (magic : ((layoutOf buffer).fileHeader buffer).magic = elfMagic)
    (header : ProgramHeader)
    (member : header ∈ (layoutOf buffer).programHeaders buffer)
    (loaded : header.Loaded) (present : header.filesz ≠ 0) (index : Nat)
    (inside : (index : Int) < toInt32 header.filesz) :
    ∃ byte, (physaddr (u32 header.paddr + index), byte) ∈
      copiedCells buffer := by
  have positive : 0 < toInt32 header.filesz := by omega
  refine ⟨buffer (u32 (header.offset + index)), ?_⟩
  unfold copiedCells
  rw [copySections_stores buffer magic, List.mem_flatMap]
  refine
    ⟨{ dest := u32 header.paddr
       size := (toInt32 header.filesz).toNat
       byte := fun index => buffer (u32 (header.offset + index)) }, ?_, ?_⟩
  · unfold copyLoop
    refine List.mem_flatMap.mpr ⟨header, member, ?_⟩
    rw [if_pos loaded]
    unfold segmentStores
    apply List.mem_append_left
    rw [if_pos present]
    unfold kmemcpy
    rw [if_pos positive]
    exact List.mem_singleton.mpr rfl
  · exact Store.mem_cells.mpr ⟨index, by simp only; omega, rfl⟩

theorem fill_mem_copiedCells (buffer : Image)
    (magic : ((layoutOf buffer).fileHeader buffer).magic = elfMagic)
    (header : ProgramHeader)
    (member : header ∈ (layoutOf buffer).programHeaders buffer)
    (loaded : header.Loaded) (index : Nat)
    (inside : (index : Int) < toInt32 header.fillSize) :
    ∃ byte, (physaddr (u32 header.paddr + header.filesz + index), byte) ∈
      copiedCells buffer := by
  have positive : 0 < toInt32 header.fillSize := by omega
  refine ⟨0, ?_⟩
  unfold copiedCells
  rw [copySections_stores buffer magic, List.mem_flatMap]
  refine
    ⟨{ dest := u32 header.paddr + header.filesz
       size := (toInt32 header.fillSize).toNat
       byte := fun _ => 0 }, ?_, ?_⟩
  · unfold copyLoop
    refine List.mem_flatMap.mpr ⟨header, member, ?_⟩
    rw [if_pos loaded]
    unfold segmentStores
    apply List.mem_append_right
    unfold zeroFill
    rw [if_pos positive]
    exact List.mem_singleton.mpr rfl
  · exact Store.mem_cells.mpr ⟨index, by simp only; omega, rfl⟩

theorem copiedCells_place_iff (buffer : Image)
    (magic : ((layoutOf buffer).fileHeader buffer).magic = elfMagic)
    (place : Nat) :
    place ∈ (copiedCells buffer).map Prod.fst ↔
      ∃ header, header ∈ (layoutOf buffer).programHeaders buffer ∧
        header.Loaded ∧ SegmentCell header place := by
  constructor
  · intro written
    obtain ⟨cell, member, rfl⟩ := List.mem_map.mp written
    exact copiedCells_cases buffer magic cell member
  · rintro ⟨header, member, loaded, placed⟩
    cases placed with
    | contents index present inside isPlace =>
        obtain ⟨byte, written⟩ := contents_mem_copiedCells buffer magic header
          member loaded present index inside
        rw [isPlace]
        exact List.mem_map_of_mem written
    | fill index inside isPlace =>
        obtain ⟨byte, written⟩ := fill_mem_copiedCells buffer magic header
          member loaded index inside
        rw [isPlace]
        exact List.mem_map_of_mem written

/-! ### Confinement and the headers that escape the check -/

/-- The end of the region, computed without wrapping, leaves 32 bits. -/
def ProgramHeader.Wraps (header : ProgramHeader) : Prop :=
  4294967296 ≤ physaddr (u32 header.paddr) + header.size

instance (header : ProgramHeader) : Decidable header.Wraps :=
  inferInstanceAs (Decidable (_ ≤ _))

/-- Every byte that the copier writes for a file kept elsewhere lies in the
checked range and below `highest`. -/
def CopyConfined (buffer : Image) (start finish highest : Nat) : Prop :=
  ∀ cell, cell ∈ copiedCells buffer →
    physaddr start ≤ cell.1 ∧ cell.1 < physaddr finish ∧ cell.1 < highest

theorem checkFileRange_none {filesize : Nat} {header : ProgramHeader}
    (range : checkFileRange filesize header = none)
    (present : header.filesz ≠ 0) :
    header.filesz ≤ 134217728 ∧ header.offset ≤ 134217728 ∧
      u32 (header.offset + header.filesz) < filesize := by
  unfold checkFileRange at range
  rw [if_neg present] at range
  split at range
  · cases range
  · split at range
    · cases range
    · split at range
      · cases range
      · omega

theorem ProgramHeader.Passes.filesz_le {header : ProgramHeader}
    {context : CheckContext} (passes : header.Passes context) :
    header.filesz ≤ 134217728 := by
  by_cases present : header.filesz = 0
  · omega
  · exact (checkFileRange_none passes.fileRange present).1

theorem ProgramHeader.size_cases (header : ProgramHeader) :
    (u32 header.memsz < header.filesz ∧ header.size = u32 header.filesz) ∨
      (header.filesz ≤ u32 header.memsz ∧ header.size = u32 header.memsz) := by
  unfold ProgramHeader.size
  split
  · rename_i larger
    exact Or.inl ⟨larger, rfl⟩
  · rename_i smaller
    exact Or.inr ⟨by omega, rfl⟩

theorem fill_of_small_filesz {header : ProgramHeader} {index : Nat}
    (small : header.filesz ≤ 134217728)
    (inside : (index : Int) < toInt32 header.fillSize) :
    header.filesz + index < u32 header.memsz ∧
      u32 header.memsz < 2281701376 := by
  unfold toInt32 ProgramHeader.fillSize u32 at inside
  unfold u32
  split at inside <;> omega

/-- The number of bytes, from the start of the segment, that the copier writes
although no end of theirs was checked.  A 64-bit `filesz` that is a multiple of
`2 ^ 32` gives the checker a zero size, and it skips the header altogether. -/
def ProgramHeader.uncheckedBytes (header : ProgramHeader) : Nat :=
  if header.size = 0 then (toInt32 header.memsz).toNat
  else if header.Wraps then header.filesz
  else 0

theorem SegmentCell.of_size_zero {header : ProgramHeader} {address : Nat}
    (cell : SegmentCell header address) (empty : header.size = 0) :
    ∃ index, index < header.uncheckedBytes ∧
      address = physaddr (u32 header.paddr + index) := by
  have sizes := header.size_cases
  rw [empty] at sizes
  unfold ProgramHeader.uncheckedBytes
  rw [if_pos empty]
  cases cell with
  | contents index present inside place =>
      unfold toInt32 at inside
      unfold u32 at sizes
      split at inside <;> omega
  | fill index inside place =>
      refine ⟨index, ?_, ?_⟩
      · unfold toInt32 ProgramHeader.fillSize at inside
        unfold toInt32
        unfold u32 at *
        split at inside <;> split <;> omega
      · rw [place, physaddr_eq_mod, physaddr_eq_mod]
        unfold u32 at *
        omega

theorem SegmentCell.lt_last {header : ProgramHeader} {address : Nat}
    {context : CheckContext} (cell : SegmentCell header address)
    (passes : header.Passes context) (small : context.finish ≤ 268435456)
    (direct : ¬ header.Wraps) :
    physaddr (u32 header.paddr) ≤ address ∧ address < header.last := by
  have ends := passes.beforeFinish
  unfold ProgramHeader.Wraps at direct
  unfold ProgramHeader.last at ends ⊢
  have sizes := header.size_cases
  have fileSmall := passes.filesz_le
  simp only [physaddr_eq_mod] at direct ends ⊢
  cases cell with
  | contents index present inside place =>
      rw [toInt32_of_small _ (by omega)] at inside
      rw [physaddr_eq_mod] at place
      unfold u32 at *
      omega
  | fill index inside place =>
      obtain ⟨insideMemsz, memszBound⟩ := fill_of_small_filesz fileSmall inside
      rw [physaddr_eq_mod] at place
      unfold u32 at *
      omega

/-- A wrapping header has a negative fill length, so only its file contents
are written. -/
theorem SegmentCell.contents_of_wraps {header : ProgramHeader} {address : Nat}
    {context : CheckContext} (cell : SegmentCell header address)
    (passes : header.Passes context) (wraps : header.Wraps) :
    header.filesz ≠ 0 ∧ ∃ index, index < header.filesz ∧
      address = physaddr (u32 header.paddr + index) := by
  have bound := physaddr_lt (u32 header.paddr)
  have fileSmall := passes.filesz_le
  unfold ProgramHeader.Wraps at wraps
  cases cell with
  | contents index present inside place =>
      rw [toInt32_of_small _ (by omega)] at inside
      exact ⟨present, index, by omega, place⟩
  | fill index inside place =>
      have sizes := header.size_cases
      obtain ⟨insideMemsz, memszBound⟩ := fill_of_small_filesz fileSmall inside
      omega

/-- Bytes written without a checked end still start inside the range and stay
below the computed end of some checked header. -/
def UncheckedCovered (headers : List ProgramHeader) (start : Nat) : Prop :=
  ∀ header, header ∈ headers → header.Loaded → header.uncheckedBytes ≠ 0 →
    physaddr start ≤ physaddr (u32 header.paddr) ∧
      ∃ other, other ∈ headers ∧ other.Checked ∧
        physaddr (u32 header.paddr) + header.uncheckedBytes ≤ other.last

/-- Every cell is below the end of a passing header, or is an unchecked byte. -/
theorem copiedCell_cases (buffer : Image) (filesize start finish : Nat)
    (accepted : returnCode
      (checkSections buffer filesize start finish none) = 0)
    (cell : Nat × Byte) (written : cell ∈ copiedCells buffer) :
    (physaddr start ≤ cell.1 ∧ cell.1 < physaddr finish ∧
      cell.1 < (checkSections buffer filesize start finish none).1.highest) ∨
    ∃ header, header ∈ (layoutOf buffer).programHeaders buffer ∧
      header.Loaded ∧ ∃ index, index < header.uncheckedBytes ∧
        cell.1 = physaddr (u32 header.paddr + index) := by
  obtain ⟨magic, -, loop⟩ := checkSections_accepted _ _ _ _ _ accepted
  have finishSmall : (contextOf buffer filesize start finish none).finish ≤
      268435456 := Nat.le_of_lt (physaddr_lt finish)
  obtain ⟨header, member, loaded, placed⟩ :=
    copiedCells_cases buffer magic cell written
  by_cases empty : header.size = 0
  · exact Or.inr ⟨header, member, loaded, placed.of_size_zero empty⟩
  · obtain ⟨passes, belowHighest⟩ := loop.passes header member ⟨loaded, empty⟩
    by_cases wraps : header.Wraps
    · obtain ⟨-, index, inside, place⟩ := placed.contents_of_wraps passes wraps
      refine Or.inr ⟨header, member, loaded, index, ?_, place⟩
      unfold ProgramHeader.uncheckedBytes
      rw [if_neg empty, if_pos wraps]
      exact inside
    · obtain ⟨lower, upper⟩ := placed.lt_last passes finishSmall wraps
      have fromStart : physaddr start ≤ physaddr (u32 header.paddr) :=
        passes.afterStart
      have ends : header.last < physaddr finish := passes.beforeFinish
      exact Or.inl (by omega)

theorem copyConfined_of_covered (buffer : Image)
    (filesize start finish : Nat)
    (accepted : returnCode
      (checkSections buffer filesize start finish none) = 0)
    (covered : UncheckedCovered
      ((layoutOf buffer).programHeaders buffer) start) :
    CopyConfined buffer start finish
      (checkSections buffer filesize start finish none).1.highest := by
  obtain ⟨-, -, loop⟩ := checkSections_accepted _ _ _ _ _ accepted
  intro cell written
  rcases copiedCell_cases buffer filesize start finish accepted cell written
    with confined | ⟨header, member, loaded, index, inside, place⟩
  · exact confined
  · obtain ⟨fromStart, other, otherMember, otherChecked, cover⟩ :=
      covered header member loaded (by omega)
    obtain ⟨otherPasses, otherHighest⟩ :=
      loop.passes other otherMember otherChecked
    have otherFinish : other.last < physaddr finish := otherPasses.beforeFinish
    have finishBound := physaddr_lt finish
    have exactPlace : cell.1 = physaddr (u32 header.paddr) + index := by
      rw [physaddr_eq_mod] at cover place ⊢
      unfold u32 at *
      omega
    omega

theorem unchecked_mem_copiedCells (buffer : Image)
    (filesize start finish : Nat)
    (accepted : returnCode
      (checkSections buffer filesize start finish none) = 0)
    (header : ProgramHeader)
    (member : header ∈ (layoutOf buffer).programHeaders buffer)
    (loaded : header.Loaded) (index : Nat)
    (inside : index < header.uncheckedBytes) :
    ∃ byte, (physaddr (u32 header.paddr + index), byte) ∈
      copiedCells buffer := by
  obtain ⟨magic, -, loop⟩ := checkSections_accepted _ _ _ _ _ accepted
  unfold ProgramHeader.uncheckedBytes at inside
  split at inside
  · rename_i empty
    have sizes := header.size_cases
    rw [empty] at sizes
    have sameFill : toInt32 header.fillSize = toInt32 header.memsz := by
      unfold toInt32 ProgramHeader.fillSize
      unfold u32 at *
      split <;> split <;> omega
    obtain ⟨byte, written⟩ := fill_mem_copiedCells buffer magic header member
      loaded index (by omega)
    have samePlace : physaddr (u32 header.paddr + index) =
        physaddr (u32 header.paddr + header.filesz + index) := by
      rw [physaddr_eq_mod, physaddr_eq_mod]
      unfold u32 at *
      omega
    exact ⟨byte, by rw [samePlace]; exact written⟩
  · rename_i nonempty
    split at inside
    · rename_i wraps
      obtain ⟨passes, -⟩ := loop.passes header member ⟨loaded, nonempty⟩
      have fileSmall := passes.filesz_le
      apply contents_mem_copiedCells buffer magic header member loaded (by omega)
      rw [toInt32_of_small _ (by omega)]
      omega
    · omega

theorem covered_of_copyConfined (buffer : Image)
    (filesize start finish : Nat)
    (accepted : returnCode
      (checkSections buffer filesize start finish none) = 0)
    (confined : CopyConfined buffer start finish
      (checkSections buffer filesize start finish none).1.highest) :
    UncheckedCovered ((layoutOf buffer).programHeaders buffer) start := by
  obtain ⟨-, -, loop⟩ := checkSections_accepted _ _ _ _ _ accepted
  intro header member loaded present
  have destBound := physaddr_lt (u32 header.paddr)
  have finishBound := physaddr_lt finish
  have writtenAt (index : Nat) (inside : index < header.uncheckedBytes) :=
    unchecked_mem_copiedCells buffer filesize start finish accepted header
      member loaded index inside
  -- The last byte of physical memory is never inside the checked range.
  have short : physaddr (u32 header.paddr) + header.uncheckedBytes ≤
      268435456 := by
    by_contra long
    obtain ⟨byte, written⟩ :=
      writtenAt (268435455 - physaddr (u32 header.paddr)) (by omega)
    have top := (confined _ written).2.1
    simp only [physaddr_eq_mod] at top destBound finishBound long
    unfold u32 at *
    omega
  have place (index : Nat) (inside : index < header.uncheckedBytes) :
      physaddr (u32 header.paddr + index) =
        physaddr (u32 header.paddr) + index := by
    rw [physaddr_eq_mod] at short
    rw [physaddr_eq_mod, physaddr_eq_mod]
    unfold u32 at *
    omega
  obtain ⟨firstByte, firstWritten⟩ := writtenAt 0 (by omega)
  obtain ⟨lastByte, lastWritten⟩ :=
    writtenAt (header.uncheckedBytes - 1) (by omega)
  have fromStart := (confined _ firstWritten).1
  have below := (confined _ lastWritten).2.2
  have firstPlace := place 0 (by omega)
  have lastPlace := place (header.uncheckedBytes - 1) (by omega)
  simp only at fromStart below
  refine ⟨by omega, ?_⟩
  rcases loop.attained with none | ⟨other, otherMember, otherChecked, same⟩
  · omega
  · exact ⟨other, otherMember, otherChecked, by omega⟩

def plainKernel : Image :=
  imageOfList (encodeHeaders32
    { magic := elfMagic, entry := 0x80010000, phnum := 1 }
    [{ type := ptLoad, offset := 0x1000, paddr := 0x80010000,
       filesz := 0x100, memsz := 0x200 }])

theorem plainKernel_headers :
    (layoutOf plainKernel).programHeaders plainKernel =
      [{ type := ptLoad, offset := 0x1000, paddr := 0x80010000,
         filesz := 0x100, memsz := 0x200 }] := by
  decide

end KernelReloaded.Elf

/-
Which files `check_sections` accepts.

The first half says exactly when the checker returns zero.  The second half
compares that with the range it documents, start included and end excluded: the
checker also refuses a segment that ends with the range or with the file.
-/

import KernelReloaded.Loader.SectionSafety

namespace KernelReloaded.Elf

open Memory

/-! ### The accepted files -/

def ProgramHeader.Covers (header : ProgramHeader) (entry : Nat) : Prop :=
  physaddr (u32 header.paddr) ≤ entry ∧ entry < header.last

theorem checkFileRange_eq_none_iff (filesize : Nat) (header : ProgramHeader) :
    checkFileRange filesize header = none ↔
      (header.filesz ≠ 0 →
        header.filesz ≤ 134217728 ∧ header.offset ≤ 134217728 ∧
          u32 (header.offset + header.filesz) < filesize) := by
  constructor
  · intro accepted present
    exact checkFileRange_none accepted present
  · intro inside
    unfold checkFileRange
    by_cases empty : header.filesz = 0
    · rw [if_pos empty]
    · obtain ⟨sizeSmall, offsetSmall, ends⟩ := inside empty
      rw [if_neg empty, if_neg (Nat.not_lt.mpr sizeSmall),
        if_neg (Nat.not_lt.mpr offsetSmall), if_neg (Nat.not_le.mpr ends)]

/-- The stores into the copy buffer for one header. -/
def CheckContext.copyStores (context : CheckContext)
    (header : ProgramHeader) : List Store :=
  match context.destaddr with
  | none => []
  | some destaddr =>
      segmentStores context.buffer
        (destaddr + (physaddr (u32 header.paddr) - context.start)) header

theorem checkSegment_passed (context : CheckContext) (header : ProgramHeader)
    (state : CheckState) (isChecked : header.Checked)
    (passes : header.Passes context) :
    (checkSegment context header state).2 = none ∧
      ((checkSegment context header state).1.copiedEntry = true ↔
        state.copiedEntry = true ∨ header.Covers context.entry) ∧
      (checkSegment context header state).1.stores =
        state.stores ++ context.copyStores header := by
  obtain ⟨loaded, nonempty⟩ := isChecked
  have notBefore := Nat.not_lt.mpr passes.afterStart
  have notAfter := Nat.not_le.mpr passes.beforeFinish
  unfold checkSegment
  rw [if_neg (not_not_intro loaded), if_neg nonempty, passes.fileRange]
  simp only
  rw [if_neg (by rw [passes.accessible]; decide), if_neg notBefore,
    if_neg notAfter]
  refine ⟨rfl, ?_, rfl⟩
  simp only [Bool.or_eq_true, Bool.and_eq_true, decide_eq_true_eq]
  rfl

theorem checkLoop_eq_none_iff (context : CheckContext)
    (headers : List ProgramHeader) (state : CheckState) :
    (checkLoop context headers state).2 = none ↔
      (∀ header, header ∈ headers → header.Checked → header.Passes context) ∧
        (state.copiedEntry = true ∨
          ∃ header, header ∈ headers ∧ header.Checked ∧
            header.Covers context.entry) := by
  induction headers generalizing state with
  | nil =>
      rw [checkLoop]
      cases state.copiedEntry <;> simp
  | cons header rest ih =>
      simp only [List.forall_mem_cons, List.exists_mem_cons_iff]
      by_cases isChecked : header.Checked
      · by_cases passes : header.Passes context
        · obtain ⟨accepted, copied, -⟩ :=
            checkSegment_passed context header state isChecked passes
          rw [checkLoop]
          generalize checkSegment context header state = result
            at accepted copied
          obtain ⟨next, error⟩ := result
          cases accepted
          rw [ih next, copied]
          simp only [isChecked, passes, true_and, true_implies, or_assoc]
        · have refused : (checkLoop context (header :: rest) state).2 ≠ none := by
            intro accepted
            exact passes ((checkLoop_accepted context (header :: rest) state
              accepted).passes header (List.mem_cons_self ..) isChecked).1
          simp only [refused, isChecked, passes, true_implies, false_and]
      · rw [checkLoop, checkSegment_skipped context header state isChecked]
        simp only [isChecked, false_implies, false_and, true_and, false_or]
        exact ih state

theorem checkLoop_stores (context : CheckContext)
    (headers : List ProgramHeader) (state : CheckState)
    (accepted : (checkLoop context headers state).2 = none) :
    (checkLoop context headers state).1.stores =
      state.stores ++ headers.flatMap fun header =>
        if header.Checked then context.copyStores header else [] := by
  have passing := ((checkLoop_eq_none_iff context headers state).mp accepted).1
  induction headers generalizing state with
  | nil =>
      simp [checkLoop]
  | cons header rest ih =>
      have later := fun other member =>
        passing other (List.mem_cons_of_mem _ member)
      rw [checkLoop] at accepted ⊢
      rw [List.flatMap_cons]
      by_cases isChecked : header.Checked
      · obtain ⟨segmentAccepted, -, stored⟩ := checkSegment_passed context header
          state isChecked (passing header (List.mem_cons_self ..) isChecked)
        generalize checkSegment context header state = result
          at accepted segmentAccepted stored
        obtain ⟨next, error⟩ := result
        cases segmentAccepted
        rw [if_pos isChecked, ih next accepted later, stored, List.append_assoc]
      · rw [checkSegment_skipped context header state isChecked]
          at accepted ⊢
        rw [if_neg isChecked, List.nil_append]
        exact ih state accepted later

/-- `check_sections` returns zero exactly for a file with the magic number, an
entry point that a checked region covers, and checked headers that all pass. -/
theorem checkSections_eq_zero_iff (buffer : Image) (filesize start finish : Nat)
    (destaddr : Option Nat) :
    returnCode (checkSections buffer filesize start finish destaddr) = 0 ↔
      ((layoutOf buffer).fileHeader buffer).magic = elfMagic ∧
        accessibleArea (u32 ((layoutOf buffer).fileHeader buffer).entry) =
          true ∧
        (physaddr start ≤
            physaddr (u32 ((layoutOf buffer).fileHeader buffer).entry) ∧
          physaddr (u32 ((layoutOf buffer).fileHeader buffer).entry) <
            physaddr finish) ∧
        (∀ header, header ∈ (layoutOf buffer).programHeaders buffer →
          header.Checked →
            header.Passes (contextOf buffer filesize start finish destaddr)) ∧
        ∃ header, header ∈ (layoutOf buffer).programHeaders buffer ∧
          header.Checked ∧
            header.Covers
              (physaddr (u32 ((layoutOf buffer).fileHeader buffer).entry)) := by
  rw [returnCode_eq_zero_iff, checkSections_eq_with]
  unfold checkSectionsWith
  dsimp only
  split <;> rename_i goodMagic
  · simp [goodMagic]
  · rw [not_not] at goodMagic
    split <;> rename_i reachable
    · simp [reachable]
    · rw [Bool.not_eq_false] at reachable
      split <;> rename_i notBefore
      · simp only [reduceCtorEq, false_iff]
        rintro ⟨-, -, ⟨fromStart, -⟩, -⟩
        omega
      · split <;> rename_i notAfter
        · simp only [reduceCtorEq, false_iff]
          rintro ⟨-, -, ⟨-, beforeFinish⟩, -⟩
          omega
        · refine (checkLoop_eq_none_iff
            (contextOf buffer filesize start finish destaddr) _ _).trans ?_
          have inRange := And.intro (Nat.le_of_not_lt notBefore)
            (Nat.lt_of_not_le notAfter)
          simp only [goodMagic, reachable, inRange, true_and, and_self,
            Bool.false_eq_true, false_or]
          rfl

theorem checkSections_eq_checkLoop (buffer : Image)
    (filesize start finish : Nat) (destaddr : Option Nat)
    (accepted : returnCode
      (checkSections buffer filesize start finish destaddr) = 0) :
    checkSections buffer filesize start finish destaddr =
      checkLoop (contextOf buffer filesize start finish destaddr)
        ((layoutOf buffer).programHeaders buffer)
        { highest := 0, copiedEntry := false, stores := [] } := by
  obtain ⟨magic, accessible, ⟨fromStart, beforeFinish⟩, -⟩ :=
    (checkSections_eq_zero_iff _ _ _ _ _).mp accepted
  rw [checkSections_eq_with]
  unfold checkSectionsWith
  dsimp only
  rw [if_neg (not_not_intro magic), if_neg (by rw [accessible]; decide),
    if_neg (Nat.not_lt.mpr fromStart), if_neg (Nat.not_le.mpr beforeFinish)]
  rfl

theorem checkSections_stores (buffer : Image)
    (filesize start finish : Nat) (destaddr : Option Nat)
    (accepted : returnCode
      (checkSections buffer filesize start finish destaddr) = 0) :
    (checkSections buffer filesize start finish destaddr).1.stores =
      ((layoutOf buffer).programHeaders buffer).flatMap fun header =>
        if header.Checked then
          (contextOf buffer filesize start finish destaddr).copyStores header
        else [] := by
  have looped := checkSections_eq_checkLoop _ _ _ _ _ accepted
  rw [returnCode_eq_zero_iff, looped] at accepted
  rw [looped, checkLoop_stores _ _ _ accepted]
  rfl

/-! ### The documented range -/

def ProgramHeader.extent (header : ProgramHeader) : Nat :=
  max header.memsz header.filesz

/-- The contents are in the file, and the memory is in KSEG0 or KSEG1 and, as
physical memory, in the range. -/
structure ProgramHeader.InRange (header : ProgramHeader)
    (filesize start finish : Nat) : Prop where
  contents : header.offset + header.filesz ≤ filesize
  accessible : accessibleArea (u32 header.paddr) = true
  small : header.extent ≤ 134217728
  fromStart : physaddr start ≤ physaddr (u32 header.paddr)
  toFinish : physaddr (u32 header.paddr) + header.extent ≤ physaddr finish

/-- A file that belongs into the range and is entered in one of its segments. -/
structure WellFormed (buffer : Image) (filesize start finish : Nat) : Prop where
  magic : ((layoutOf buffer).fileHeader buffer).magic = elfMagic
  segments : ∀ header, header ∈ (layoutOf buffer).programHeaders buffer →
    header.Loaded → header.InRange filesize start finish
  entryAccessible :
    accessibleArea (u32 ((layoutOf buffer).fileHeader buffer).entry) = true
  entryLoaded : ∃ header, header ∈ (layoutOf buffer).programHeaders buffer ∧
    header.Loaded ∧
      physaddr (u32 header.paddr) ≤
        physaddr (u32 ((layoutOf buffer).fileHeader buffer).entry) ∧
      physaddr (u32 ((layoutOf buffer).fileHeader buffer).entry) <
        physaddr (u32 header.paddr) + header.extent

/-- The segment ends before the file and before the range.  Contents behind
128 MByte are refused too. -/
structure ProgramHeader.EndsBefore (header : ProgramHeader)
    (filesize finish : Nat) : Prop where
  file : header.filesz ≠ 0 → header.offset ≤ 134217728 ∧
    header.offset + header.filesz < filesize
  range : physaddr (u32 header.paddr) + header.extent < physaddr finish

section

variable {header : ProgramHeader} {filesize start finish : Nat}

theorem ProgramHeader.InRange.size_eq
    (inRange : header.InRange filesize start finish) :
    header.size = header.extent := by
  have small := inRange.small
  have sizes := header.size_cases
  unfold ProgramHeader.extent at small ⊢
  unfold u32 at sizes
  omega

theorem ProgramHeader.InRange.last_eq
    (inRange : header.InRange filesize start finish) :
    header.last = physaddr (u32 header.paddr) + header.extent := by
  have ends := inRange.toFinish
  have bound := physaddr_lt finish
  unfold ProgramHeader.last
  rw [inRange.size_eq, u32]
  omega

theorem ProgramHeader.InRange.checked_iff
    (inRange : header.InRange filesize start finish) :
    header.Checked ↔ header.Loaded := by
  unfold ProgramHeader.Checked
  rw [inRange.size_eq]
  constructor
  · exact And.left
  · intro loaded
    refine ⟨loaded, ?_⟩
    have present := loaded.2
    unfold ProgramHeader.extent
    omega

theorem ProgramHeader.InRange.passes_iff
    (inRange : header.InRange filesize start finish) (buffer : Image)
    (destaddr : Option Nat) :
    header.Passes (contextOf buffer filesize start finish destaddr) ↔
      header.EndsBefore filesize finish := by
  have small := inRange.small
  unfold ProgramHeader.extent at small
  constructor
  · intro passes
    refine ⟨?_, ?_⟩
    · intro present
      obtain ⟨sizeSmall, offsetSmall, ends⟩ :=
        checkFileRange_none passes.fileRange present
      refine ⟨offsetSmall, ?_⟩
      rw [u32, Nat.mod_eq_of_lt (by omega)] at ends
      exact ends
    · rw [← inRange.last_eq]
      exact passes.beforeFinish
  · intro ends
    refine ⟨?_, inRange.accessible, inRange.fromStart, ?_⟩
    · rw [checkFileRange_eq_none_iff]
      intro present
      obtain ⟨offsetSmall, inFile⟩ := ends.file present
      refine ⟨by omega, offsetSmall, ?_⟩
      rw [u32, Nat.mod_eq_of_lt (by omega)]
      exact inFile
    · rw [inRange.last_eq]
      exact ends.range

end

/-- A file that belongs into the range is accepted exactly when all its
segments end before the file and before the range. -/
theorem checkSections_wellFormed_iff (buffer : Image)
    (filesize start finish : Nat) (destaddr : Option Nat)
    (wellFormed : WellFormed buffer filesize start finish) :
    returnCode (checkSections buffer filesize start finish destaddr) = 0 ↔
      ∀ header, header ∈ (layoutOf buffer).programHeaders buffer →
        header.Loaded → header.EndsBefore filesize finish := by
  obtain ⟨magic, segments, entryAccessible, entered, member, loaded, entryFrom,
    entryTo⟩ := wellFormed
  have enteredRange := segments entered member loaded
  rw [checkSections_eq_zero_iff]
  constructor
  · rintro ⟨-, -, -, passing, -⟩ header isHeader isLoaded
    have inRange := segments header isHeader isLoaded
    exact (inRange.passes_iff buffer destaddr).mp
      (passing header isHeader (inRange.checked_iff.mpr isLoaded))
  · intro ends
    have fromStart := enteredRange.fromStart
    have toFinish := enteredRange.toFinish
    refine ⟨magic, entryAccessible, ⟨by omega, by omega⟩, ?_, entered, member,
      enteredRange.checked_iff.mpr loaded, entryFrom, ?_⟩
    · intro header isHeader isChecked
      have inRange := segments header isHeader isChecked.1
      exact (inRange.passes_iff buffer destaddr).mpr
        (ends header isHeader isChecked.1)
    · rw [enteredRange.last_eq]
      exact entryTo

/-- The contents of the only segment end at 0x1100 in the file and at 0x10200
in memory. -/
theorem plainKernel_wellFormed {filesize finish : Nat}
    (inFile : 0x1100 ≤ filesize) (inRange : 0x10200 ≤ physaddr finish) :
    WellFormed plainKernel filesize 0x10000 finish := by
  refine ⟨by decide, ?_, by decide, ?_⟩ <;> rw [plainKernel_headers]
  · intro header member loaded
    rw [List.mem_singleton] at member
    subst header
    exact ⟨inFile, by decide, by decide, by decide, inRange⟩
  · exact ⟨_, List.mem_singleton_self _, by decide, by decide, by decide⟩

theorem plainKernel_accepted :
    returnCode (checkSections plainKernel 0x1101 0x10000 0x10201 none) = 0 := by
  refine (checkSections_wellFormed_iff plainKernel 0x1101 0x10000 0x10201 none
    (plainKernel_wellFormed (by decide) (by decide))).mpr ?_
  rw [plainKernel_headers]
  intro header member loaded
  rw [List.mem_singleton] at member
  subst header
  exact ⟨by decide, by decide⟩

/-- With the last byte of the file in a segment, or with a segment up to the
end of the range, the file is refused. -/
theorem plainKernel_refused :
    (WellFormed plainKernel 0x1100 0x10000 0x1000000 ∧
      returnCode (checkSections plainKernel 0x1100 0x10000 0x1000000 none) =
        -30) ∧
    WellFormed plainKernel 0x2000 0x10000 0x10200 ∧
      returnCode (checkSections plainKernel 0x2000 0x10000 0x10200 none) =
        -4 :=
  ⟨⟨plainKernel_wellFormed (by decide) (by decide), by decide⟩,
    plainKernel_wellFormed (by decide) (by decide), by decide⟩

end KernelReloaded.Elf

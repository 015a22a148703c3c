/-
What `verify_sections` tells about memory.

It compares the contents of every loaded segment.  The loop over the zero part
reads the first byte behind the contents again and again, and its unsigned
count is not zero either when the contents are longer than the memory.  So a
segment can be refused although it is right, and pass although it is wrong.
-/

import KernelReloaded.Loader.SectionBounds

namespace KernelReloaded.Elf

open Memory

/-! ### The verifiers of both classes -/

theorem verifySegment_physaddr (memory buffer : Image) (dest : Nat)
    (header : ProgramHeader) :
    verifySegment memory buffer (physaddr dest) header =
      verifySegment memory buffer dest header := by
  have samePlace (index : Nat) :
      physaddr (physaddr dest + index) = physaddr (dest + index) := by
    simp only [physaddr_eq_mod]
    omega
  unfold verifySegment
  simp only [samePlace]

theorem verifySections_eq_all (memory buffer : Image)
    (magic : ((layoutOf buffer).fileHeader buffer).magic = elfMagic) :
    verifySections memory buffer =
      ((layoutOf buffer).programHeaders buffer).all fun header =>
        !decide header.Loaded ||
          verifySegment memory buffer header.paddr header := by
  unfold verifySections verifySections32 verifySections64
  unfold layoutOf at magic ⊢
  by_cases wide : elfClass buffer = 2
  · rw [if_pos wide] at magic
    simp only [if_pos wide, magic, verifySegment_physaddr, decide_true,
      Bool.true_and]
  · rw [if_neg wide] at magic
    simp only [if_neg wide, magic, decide_true, Bool.true_and]

/-! ### The bytes of a segment -/

section

variable (memory buffer : Image) (header : ProgramHeader)

def ProgramHeader.HoldsAt (index : Nat) : Prop :=
  memory (physaddr (header.paddr + index)) =
    buffer (u32 (header.offset + index))

def ProgramHeader.ClearAt (index : Nat) : Prop :=
  memory (physaddr (header.paddr + index)) = 0

instance (index : Nat) : Decidable (header.HoldsAt memory buffer index) :=
  inferInstanceAs (Decidable (_ = _))

instance (index : Nat) : Decidable (header.ClearAt memory index) :=
  inferInstanceAs (Decidable (_ = _))

/-- Memory holds the contents of the segment and zeros behind them. -/
structure ProgramHeader.Verified : Prop where
  contents : ∀ index, index < header.filesz → header.HoldsAt memory buffer index
  fill : ∀ index, header.filesz ≤ index → index < header.memsz →
    header.ClearAt memory index

/-- A wrong segment with a wrong byte among those that are read. -/
def ProgramHeader.Caught : Prop :=
  (∃ index, index < u32 header.filesz ∧ ¬ header.HoldsAt memory buffer index) ∨
    (header.fillSize ≠ 0 ∧ ¬ header.ClearAt memory header.filesz) ∧
      (header.filesz < header.memsz ∨
        ∃ index, index < header.filesz ∧ ¬ header.HoldsAt memory buffer index)

/-- A wrong segment whose bytes that are read are right.  Only a size of 32
bits and more has contents that are not compared. -/
structure ProgramHeader.Missed : Prop where
  compared : ∀ index, index < u32 header.filesz →
    header.HoldsAt memory buffer index
  tested : header.fillSize ≠ 0 → header.ClearAt memory header.filesz
  wrong : (∃ index, u32 header.filesz ≤ index ∧ index < header.filesz ∧
      ¬ header.HoldsAt memory buffer index) ∨
    ∃ index, header.filesz ≤ index ∧ index < header.memsz ∧
      ¬ header.ClearAt memory index

/-- A right segment without a zero part, and a byte behind its contents that
is not zero. -/
structure ProgramHeader.FalseAlarm : Prop where
  contents : ∀ index, index < header.filesz → header.HoldsAt memory buffer index
  noFill : header.memsz ≤ header.filesz
  tested : header.fillSize ≠ 0 ∧ ¬ header.ClearAt memory header.filesz

theorem verifySegment_iff :
    verifySegment memory buffer header.paddr header = true ↔
      (∀ index, index < u32 header.filesz →
        header.HoldsAt memory buffer index) ∧
      (header.fillSize ≠ 0 → header.ClearAt memory header.filesz) := by
  unfold verifySegment ProgramHeader.HoldsAt ProgramHeader.ClearAt
  simp only [Bool.and_eq_true, Bool.or_eq_true, decide_eq_true_eq,
    List.all_eq_true, List.mem_range]
  constructor
  · rintro ⟨contents, fill⟩
    refine ⟨?_, fun needed => fill.resolve_left needed⟩
    intro index inside
    rcases contents with empty | same
    · rw [empty] at inside
      cases inside
    · exact same index inside
  · rintro ⟨contents, fill⟩
    exact ⟨Or.inr contents, Classical.or_iff_not_imp_left.mpr fill⟩

theorem verifySegment_refuses_iff :
    verifySegment memory buffer header.paddr header = false ↔
      (∃ index, index < u32 header.filesz ∧
        ¬ header.HoldsAt memory buffer index) ∨
      (header.fillSize ≠ 0 ∧ ¬ header.ClearAt memory header.filesz) := by
  rw [← Bool.not_eq_true, verifySegment_iff]
  simp only [not_and_or, not_forall, exists_prop]

theorem ProgramHeader.not_verified_iff :
    ¬ header.Verified memory buffer ↔
      (∃ index, index < header.filesz ∧ ¬ header.HoldsAt memory buffer index) ∨
        ∃ index, header.filesz ≤ index ∧ index < header.memsz ∧
          ¬ header.ClearAt memory index := by
  constructor
  · intro wrong
    by_contra right
    simp only [not_or, not_exists, not_and, not_not] at right
    exact wrong ⟨right.1, right.2⟩
  · rintro (⟨index, inside, differs⟩ | ⟨index, behind, inside, set⟩) verified
    · exact differs (verified.contents index inside)
    · exact set (verified.fill index behind inside)

theorem u32_le (value : Nat) : u32 value ≤ value := Nat.mod_le _ _

theorem ProgramHeader.caught_iff :
    header.Caught memory buffer ↔
      verifySegment memory buffer header.paddr header = false ∧
        ¬ header.Verified memory buffer := by
  rw [verifySegment_refuses_iff, header.not_verified_iff]
  constructor
  · rintro (⟨index, compared, differs⟩ | ⟨tested, longer | differs⟩)
    · have inside := Nat.lt_of_lt_of_le compared (u32_le header.filesz)
      exact ⟨Or.inl ⟨index, compared, differs⟩, Or.inl ⟨index, inside, differs⟩⟩
    · exact ⟨Or.inr tested,
        Or.inr ⟨header.filesz, Nat.le_refl _, longer, tested.2⟩⟩
    · exact ⟨Or.inr tested, Or.inl differs⟩
  · rintro ⟨differs | tested, wrong⟩
    · exact Or.inl differs
    · refine Or.inr ⟨tested, ?_⟩
      rcases wrong with differs | ⟨index, behind, inside, -⟩
      · exact Or.inr differs
      · exact Or.inl (by omega)

theorem ProgramHeader.missed_iff :
    header.Missed memory buffer ↔
      verifySegment memory buffer header.paddr header = true ∧
        ¬ header.Verified memory buffer := by
  rw [verifySegment_iff, header.not_verified_iff]
  constructor
  · rintro ⟨compared, tested, wrong⟩
    refine ⟨⟨compared, tested⟩, ?_⟩
    rcases wrong with ⟨index, -, inside, differs⟩ | set
    · exact Or.inl ⟨index, inside, differs⟩
    · exact Or.inr set
  · rintro ⟨⟨compared, tested⟩, wrong⟩
    refine ⟨compared, tested, ?_⟩
    rcases wrong with ⟨index, inside, differs⟩ | set
    · refine Or.inl ⟨index, ?_, inside, differs⟩
      by_contra early
      exact differs (compared index (Nat.lt_of_not_le early))
    · exact Or.inr set

theorem ProgramHeader.falseAlarm_iff :
    header.FalseAlarm memory buffer ↔
      verifySegment memory buffer header.paddr header = false ∧
        header.Verified memory buffer := by
  rw [verifySegment_refuses_iff]
  constructor
  · rintro ⟨contents, noFill, tested⟩
    refine ⟨Or.inr tested, contents, ?_⟩
    intro index behind inside
    omega
  · rintro ⟨refused, verified⟩
    rcases refused with ⟨index, compared, differs⟩ | tested
    · have inside := Nat.lt_of_lt_of_le compared (u32_le header.filesz)
      exact absurd (verified.contents index inside) differs
    · refine ⟨verified.contents, ?_, tested⟩
      by_contra longer
      exact tested.2 (verified.fill header.filesz (Nat.le_refl _) (by omega))

end

/-! ### The verdict on a file -/

/-- Memory holds every loaded segment. -/
def Verified (memory buffer : Image) : Prop :=
  ∀ header, header ∈ (layoutOf buffer).programHeaders buffer → header.Loaded →
    header.Verified memory buffer

def SomeLoaded (buffer : Image) (property : ProgramHeader → Prop) : Prop :=
  ∃ header, header ∈ (layoutOf buffer).programHeaders buffer ∧ header.Loaded ∧
    property header

/-- Some wrong segment is caught; or false alarms do not occur without a wrong
segment that is missed, and the other way round. -/
def VerdictMet (memory buffer : Image) : Prop :=
  SomeLoaded buffer (·.Caught memory buffer) ∨
    (SomeLoaded buffer (·.Missed memory buffer) ↔
      SomeLoaded buffer (·.FalseAlarm memory buffer))

theorem someLoaded_or (buffer : Image) (left right : ProgramHeader → Prop) :
    SomeLoaded buffer (fun header => left header ∨ right header) ↔
      SomeLoaded buffer left ∨ SomeLoaded buffer right := by
  unfold SomeLoaded
  simp only [and_or_left, exists_or]

theorem verifySections_eq_false_iff (memory buffer : Image)
    (magic : ((layoutOf buffer).fileHeader buffer).magic = elfMagic) :
    verifySections memory buffer = false ↔
      SomeLoaded buffer (·.Caught memory buffer) ∨
        SomeLoaded buffer (·.FalseAlarm memory buffer) := by
  have refused (header : ProgramHeader) :
      verifySegment memory buffer header.paddr header = false ↔
        header.Caught memory buffer ∨ header.FalseAlarm memory buffer := by
    rw [header.caught_iff, header.falseAlarm_iff, ← and_or_left]
    exact (and_iff_left (Classical.em _).symm).symm
  rw [← someLoaded_or, verifySections_eq_all memory buffer magic,
    List.all_eq_false]
  unfold SomeLoaded
  simp only [Bool.not_eq_true, Bool.or_eq_false_iff, Bool.not_eq_false',
    decide_eq_true_eq, refused]

theorem not_verified_iff (memory buffer : Image) :
    ¬ Verified memory buffer ↔
      SomeLoaded buffer (·.Caught memory buffer) ∨
        SomeLoaded buffer (·.Missed memory buffer) := by
  have wrong (header : ProgramHeader) :
      ¬ header.Verified memory buffer ↔
        header.Caught memory buffer ∨ header.Missed memory buffer := by
    rw [header.caught_iff, header.missed_iff, ← or_and_right]
    cases verifySegment memory buffer header.paddr header <;> simp
  rw [← someLoaded_or]
  unfold Verified SomeLoaded
  simp only [not_forall, exists_prop, wrong]

/-- The verifier of an accepted file returns exactly for the memories that hold
its segments, except for missed segments and false alarms. -/
theorem verifySections_right_iff (memory buffer : Image)
    (filesize start finish : Nat) (destaddr : Option Nat)
    (accepted : returnCode
      (checkSections buffer filesize start finish destaddr) = 0) :
    (verifySections memory buffer = true ↔ Verified memory buffer) ↔
      VerdictMet memory buffer := by
  have magic := (checkSections_accepted _ _ _ _ _ accepted).magic
  have negated : (verifySections memory buffer = true ↔
        Verified memory buffer) ↔
      (verifySections memory buffer = false ↔ ¬ Verified memory buffer) := by
    rw [← Bool.not_eq_true, not_iff_not]
  rw [negated, verifySections_eq_false_iff memory buffer magic,
    not_verified_iff memory buffer]
  unfold VerdictMet
  by_cases caught : SomeLoaded buffer (·.Caught memory buffer)
  · simp only [caught, true_or]
  · simp only [caught, false_or]
    exact iff_comm

theorem zeroMemory_right :
    verifySections (fun _ => 0) plainKernel = true ↔
      Verified (fun _ => 0) plainKernel := by
  refine (verifySections_right_iff (fun _ => 0) plainKernel 0x1101 0x10000
    0x10201 none (by decide)).mpr (Or.inr ?_)
  constructor
  · rintro ⟨header, member, -, missed⟩
    rw [plainKernel_headers, List.mem_singleton] at member
    subst header
    rcases missed.wrong with ⟨index, behind, inside, -⟩ | ⟨index, -, -, set⟩
    · exact absurd inside (Nat.not_lt.mpr behind)
    · exact absurd rfl set
  · rintro ⟨header, -, -, alarm⟩
    exact absurd rfl alarm.tested.2

/-- Zeros but for the last byte of the zero part. -/
def dirtyMemory : Image := fun address => if address = 0x101ff then 1 else 0

theorem dirtyMemory_passes :
    returnCode (checkSections plainKernel 0x1101 0x10000 0x10201 none) = 0 ∧
      verifySections dirtyMemory plainKernel = true ∧
      ¬ Verified dirtyMemory plainKernel := by
  refine ⟨by decide, by decide +kernel, ?_⟩
  intro verified
  have right := verified
    { type := ptLoad, offset := 0x1000, paddr := 0x80010000,
      filesz := 0x100, memsz := 0x200 } (by decide) (by decide)
  exact absurd (right.fill 0x1ff (by decide) (by decide)) (by decide)

end KernelReloaded.Elf

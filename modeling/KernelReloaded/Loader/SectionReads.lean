/-
Which bytes of the file `check_sections` reads.

The checker compares the contents of a segment with the size of the file, but
reads the file header and the program headers without such a comparison.  Here
it is followed read by read: a read of a byte at or behind the end of the file
gives `none`, and a check without one gives the result of the checker.
-/

import KernelReloaded.Loader.SectionSafety

namespace KernelReloaded.Elf

open Memory

/-! ### Fields of the headers -/

inductive Width where
  | half
  | word
  | double

def Width.bytes : Width → Nat
  | .half => 2
  | .word => 4
  | .double => 8

/-- A field at a fixed place of a header. -/
structure Place where
  offset : Nat
  width : Width

def Place.stop (place : Place) : Nat :=
  place.offset + place.width.bytes

def Place.value (place : Place) (buffer : Image) (base : Nat) : Nat :=
  match place.width with
  | .half => le16 buffer (base + place.offset)
  | .word => le32 buffer (base + place.offset)
  | .double => le64 buffer (base + place.offset)

def Place.read (place : Place) (buffer : Image) (filesize base : Nat) : Option Nat :=
  if base + place.stop ≤ filesize then
    some (place.value buffer base)
  else
    none

theorem Place.read_inside {place : Place} {buffer : Image} {filesize base : Nat}
    (inside : base + place.stop ≤ filesize) :
    place.read buffer filesize base = some (place.value buffer base) := by
  unfold Place.read
  rw [if_pos inside]

theorem Place.read_outside {place : Place} {buffer : Image} {filesize base : Nat}
    (outside : ¬ base + place.stop ≤ filesize) :
    place.read buffer filesize base = none := by
  unfold Place.read
  rw [if_neg outside]

/-- Where the fields of a layout are.  `memsz` is the last field of a program
header that the checker reads. -/
structure HeaderPlaces (layout : HeaderLayout) where
  magic : Place
  entry : Place
  phnum : Place
  type : Place
  offset : Place
  vaddr : Place
  paddr : Place
  filesz : Place
  memsz : Place
  fileHeader : ∀ buffer, layout.fileHeader buffer =
    { magic := magic.value buffer 0
      entry := entry.value buffer 0
      phnum := phnum.value buffer 0 }
  programHeader : ∀ buffer pos, layout.programHeader buffer pos =
    { type := type.value buffer pos
      offset := offset.value buffer pos
      paddr := paddr.value buffer pos
      filesz := filesz.value buffer pos
      memsz := memsz.value buffer pos }
  ordered : magic.stop ≤ entry.stop ∧ entry.stop ≤ phnum.stop ∧
    type.stop ≤ memsz.stop ∧ offset.stop ≤ memsz.stop ∧ vaddr.stop ≤ memsz.stop ∧
    paddr.stop ≤ memsz.stop ∧ filesz.stop ≤ memsz.stop

def places32 : HeaderPlaces elf32 :=
  { magic := ⟨0, .word⟩
    entry := ⟨24, .word⟩
    phnum := ⟨44, .half⟩
    type := ⟨0, .word⟩
    offset := ⟨4, .word⟩
    vaddr := ⟨8, .word⟩
    paddr := ⟨12, .word⟩
    filesz := ⟨16, .word⟩
    memsz := ⟨20, .word⟩
    fileHeader := fun _ => rfl
    programHeader := fun _ _ => rfl
    ordered := by decide }

def places64 : HeaderPlaces elf64 :=
  { magic := ⟨0, .word⟩
    entry := ⟨24, .double⟩
    phnum := ⟨56, .half⟩
    type := ⟨0, .word⟩
    offset := ⟨8, .double⟩
    vaddr := ⟨16, .double⟩
    paddr := ⟨24, .double⟩
    filesz := ⟨32, .double⟩
    memsz := ⟨40, .double⟩
    fileHeader := fun _ => rfl
    programHeader := fun _ _ => rfl
    ordered := by decide }

/-! ### The checker, read by read -/

/-- The contents that `kmemcpy` reads when the segment has been accepted. -/
def readContents (context : CheckContext) (header : ProgramHeader)
    (result : CheckState × Option SectionError) :
    Option (CheckState × Option SectionError) :=
  if result.2 = none ∧ header.size ≠ 0 ∧ context.destaddr ≠ none ∧
      header.filesz ≠ 0 then
    if header.offset + header.filesz ≤ context.filesize then some result else none
  else
    some result

variable {layout : HeaderLayout}

def readSegment (places : HeaderPlaces layout) (context : CheckContext) (pos : Nat)
    (state : CheckState) : Option (CheckState × Option SectionError) :=
  (places.type.read context.buffer context.filesize pos).bind fun type =>
    if type ≠ ptLoad then
      some (state, none)
    else
      (places.memsz.read context.buffer context.filesize pos).bind fun memsz =>
        if memsz = 0 then
          some (state, none)
        else
          (places.vaddr.read context.buffer context.filesize pos).bind fun _vaddr =>
          (places.paddr.read context.buffer context.filesize pos).bind fun paddr =>
          (places.offset.read context.buffer context.filesize pos).bind fun offset =>
          (places.filesz.read context.buffer context.filesize pos).bind fun filesz =>
            let header : ProgramHeader :=
              { type := type
                offset := offset
                paddr := paddr
                filesz := filesz
                memsz := memsz }
            readContents context header (checkSegment context header state)

/-- The loop over the program headers from `pos` on. -/
def readLoop (places : HeaderPlaces layout) (context : CheckContext) :
    Nat → Nat → CheckState → Option (CheckState × Option SectionError)
  | 0, _, state =>
      some (state, if state.copiedEntry then none else some .noEntryCode)
  | count + 1, pos, state =>
      (readSegment places context pos state).bind fun result =>
        match result with
        | (next, none) =>
            readLoop places context count (pos + layout.programHeaderSize) next
        | (next, some error) => some (next, some error)

def readSectionsWith (places : HeaderPlaces layout) (buffer : Image)
    (filesize start finish : Nat) (destaddr : Option Nat) :
    Option (CheckState × Option SectionError) :=
  let initial : CheckState :=
    { highest := 0, copiedEntry := false, stores := [] }
  (places.magic.read buffer filesize 0).bind fun magic =>
    if magic ≠ elfMagic then
      some (initial, some (.badMagic magic))
    else
      (places.entry.read buffer filesize 0).bind fun entry =>
        let entry := u32 entry
        if accessibleArea entry = false then
          some (initial, some (.entryNotAccessible entry))
        else
          let entry := physaddr entry
          if entry < start then
            some (initial, some (.entryBefore entry start))
          else if entry ≥ finish then
            some (initial, some (.entryAfter entry finish))
          else
            (places.phnum.read buffer filesize 0).bind fun phnum =>
              readLoop places
                { buffer := buffer, filesize := filesize, start := start,
                  finish := finish, entry := entry, destaddr := destaddr }
                phnum layout.fileHeaderSize initial

/-- `info[0]` is the first byte behind the magic number. -/
def readSections (buffer : Image) (filesize start finish : Nat)
    (destaddr : Option Nat) : Option (CheckState × Option SectionError) :=
  if 4 < filesize then
    if elfClass buffer = 2 then
      readSectionsWith places64 buffer filesize (physaddr start) (physaddr finish) destaddr
    else
      readSectionsWith places32 buffer filesize (physaddr start) (physaddr finish) destaddr
  else
    none

/-! ### Segments -/

/-- The part of a program header that the checker looks at is in the file. -/
def HeaderInside (places : HeaderPlaces layout) (buffer : Image)
    (filesize pos : Nat) : Prop :=
  pos + places.type.stop ≤ filesize ∧
    (places.type.value buffer pos = ptLoad → pos + places.memsz.stop ≤ filesize)

instance (places : HeaderPlaces layout) (buffer : Image) (filesize pos : Nat) :
    Decidable (HeaderInside places buffer filesize pos) :=
  inferInstanceAs (Decidable (_ ∧ (_ → _)))

/-- Accepted contents end before the end of the file. -/
theorem readContents_eq (context : CheckContext) (header : ProgramHeader)
    (loaded : header.Loaded) (state : CheckState) :
    readContents context header (checkSegment context header state) =
      some (checkSegment context header state) := by
  unfold readContents
  split <;> rename_i copied
  · obtain ⟨accepted, nonempty, _copy, present⟩ := copied
    have passes :=
      (checkSegment_accepted context header state ⟨loaded, nonempty⟩ accepted).1
    obtain ⟨filesz, offset, inside⟩ := checkFileRange_none passes.fileRange present
    unfold u32 at inside
    rw [if_pos (by omega)]
  · rfl

theorem readSegment_inside (places : HeaderPlaces layout) (context : CheckContext)
    (pos : Nat) (state : CheckState)
    (inside : HeaderInside places context.buffer context.filesize pos) :
    readSegment places context pos state =
      some (checkSegment context (layout.programHeader context.buffer pos) state) := by
  obtain ⟨typeInside, memszInside⟩ := inside
  obtain ⟨_entry, _phnum, _type, offsetStop, vaddrStop, paddrStop, fileszStop⟩ :=
    places.ordered
  unfold readSegment
  rw [Place.read_inside typeInside, Option.bind_some, places.programHeader]
  split <;> rename_i isLoad
  · unfold checkSegment
    rw [if_pos fun loaded => isLoad loaded.1]
  · have last := memszInside (not_not.mp isLoad)
    rw [Place.read_inside last, Option.bind_some]
    split <;> rename_i empty
    · unfold checkSegment
      rw [if_pos fun loaded => loaded.2 empty]
    · rw [Place.read_inside (by omega), Option.bind_some, Place.read_inside (by omega),
        Option.bind_some, Place.read_inside (by omega), Option.bind_some,
        Place.read_inside (by omega), Option.bind_some]
      exact readContents_eq context _ ⟨not_not.mp isLoad, empty⟩ state

theorem readSegment_outside (places : HeaderPlaces layout) (context : CheckContext)
    (pos : Nat) (state : CheckState)
    (outside : ¬ HeaderInside places context.buffer context.filesize pos) :
    readSegment places context pos state = none := by
  unfold readSegment
  by_cases typeInside : pos + places.type.stop ≤ context.filesize
  · rw [Place.read_inside typeInside, Option.bind_some]
    unfold HeaderInside at outside
    rw [not_and] at outside
    obtain ⟨isLoad, last⟩ := Classical.not_imp.mp (outside typeInside)
    rw [if_neg (not_not.mpr isLoad), Place.read_outside last, Option.bind_none]
  · rw [Place.read_outside typeInside, Option.bind_none]

/-! ### The loop -/

/-- Whether a segment is rejected does not depend on the ones before. -/
theorem checkSegment_error (context : CheckContext) (header : ProgramHeader)
    (state state' : CheckState) :
    (checkSegment context header state).2 = (checkSegment context header state').2 := by
  unfold checkSegment
  split
  · rfl
  split
  · rfl
  split
  · rfl
  split
  · rfl
  dsimp only
  split
  · rfl
  split
  · rfl
  · rfl

def segmentError (context : CheckContext) (header : ProgramHeader) : Option SectionError :=
  (checkSegment context header { highest := 0, copiedEntry := false, stores := [] }).2

/-- The program header with a number, counted from `pos` on. -/
def headerAt (layout : HeaderLayout) (context : CheckContext) (pos index : Nat) :
    ProgramHeader :=
  layout.programHeader context.buffer (pos + index * layout.programHeaderSize)

/-- Every program header up to the first one that is rejected is in the file. -/
def LoopInside (places : HeaderPlaces layout) (context : CheckContext)
    (count pos : Nat) : Prop :=
  ∀ index < count,
    (∀ earlier < index, segmentError context (headerAt layout context pos earlier) = none) →
      HeaderInside places context.buffer context.filesize
        (pos + index * layout.programHeaderSize)

instance (places : HeaderPlaces layout) (context : CheckContext) (count pos : Nat) :
    Decidable (LoopInside places context count pos) :=
  inferInstanceAs (Decidable (∀ index < count, _ → _))

theorem headerAt_succ (context : CheckContext) (pos index : Nat) :
    headerAt layout context pos (index + 1) =
      headerAt layout context (pos + layout.programHeaderSize) index := by
  unfold headerAt
  congr 1
  rw [Nat.succ_mul]
  omega

theorem loopInside_succ (places : HeaderPlaces layout) (context : CheckContext)
    (count pos : Nat) :
    LoopInside places context (count + 1) pos ↔
      HeaderInside places context.buffer context.filesize pos ∧
        (segmentError context (layout.programHeader context.buffer pos) = none →
          LoopInside places context count (pos + layout.programHeaderSize)) := by
  have first : headerAt layout context pos 0 = layout.programHeader context.buffer pos := by
    unfold headerAt
    rw [Nat.zero_mul, Nat.add_zero]
  have shifted : ∀ index, pos + (index + 1) * layout.programHeaderSize =
      pos + layout.programHeaderSize + index * layout.programHeaderSize := by
    intro index
    rw [Nat.succ_mul]
    omega
  constructor
  · intro inside
    constructor
    · have atStart := inside 0 (Nat.succ_pos count) nofun
      rwa [Nat.zero_mul, Nat.add_zero] at atStart
    · intro accepted index bound earlierAccepted
      rw [← shifted]
      apply inside (index + 1) (Nat.succ_lt_succ bound)
      intro earlier before
      cases earlier with
      | zero => rwa [first]
      | succ earlier =>
          rw [headerAt_succ]
          exact earlierAccepted earlier (Nat.lt_of_succ_lt_succ before)
  · rintro ⟨atStart, later⟩ index bound earlierAccepted
    cases index with
    | zero => rwa [Nat.zero_mul, Nat.add_zero]
    | succ index =>
        rw [shifted]
        have accepted := earlierAccepted 0 (Nat.succ_pos index)
        rw [first] at accepted
        apply later accepted index (Nat.lt_of_succ_lt_succ bound)
        intro earlier before
        rw [← headerAt_succ]
        exact earlierAccepted (earlier + 1) (Nat.succ_lt_succ before)

theorem headers_succ (context : CheckContext) (count pos : Nat) :
    (List.range (count + 1)).map (headerAt layout context pos) =
      layout.programHeader context.buffer pos ::
        (List.range count).map
          (headerAt layout context (pos + layout.programHeaderSize)) := by
  rw [List.range_succ_eq_map, List.map_cons, List.map_map]
  congr 1
  · unfold headerAt
    rw [Nat.zero_mul, Nat.add_zero]
  · apply List.map_congr_left
    intro index _listed
    exact headerAt_succ context pos index

theorem readLoop_inside (places : HeaderPlaces layout) (context : CheckContext)
    (count pos : Nat) (state : CheckState)
    (inside : LoopInside places context count pos) :
    readLoop places context count pos state =
      some (checkLoop context ((List.range count).map (headerAt layout context pos))
        state) := by
  induction count generalizing pos state with
  | zero => rfl
  | succ count ih =>
      obtain ⟨here, later⟩ := (loopInside_succ places context count pos).mp inside
      rw [readLoop, readSegment_inside places context pos state here, Option.bind_some,
        headers_succ, checkLoop]
      have sameError := checkSegment_error context
        (layout.programHeader context.buffer pos) state
        { highest := 0, copiedEntry := false, stores := [] }
      rcases isResult :
          checkSegment context (layout.programHeader context.buffer pos) state with
        ⟨next, _ | error⟩
      · rw [isResult] at sameError
        exact ih _ next (later sameError.symm)
      · rfl

theorem readLoop_outside (places : HeaderPlaces layout) (context : CheckContext)
    (count pos : Nat) (state : CheckState)
    (outside : ¬ LoopInside places context count pos) :
    readLoop places context count pos state = none := by
  induction count generalizing pos state with
  | zero => exact absurd nofun outside
  | succ count ih =>
      rw [loopInside_succ] at outside
      rw [readLoop]
      by_cases here : HeaderInside places context.buffer context.filesize pos
      · rw [not_and] at outside
        obtain ⟨accepted, notLater⟩ := Classical.not_imp.mp (outside here)
        have sameError := checkSegment_error context
          (layout.programHeader context.buffer pos) state
          { highest := 0, copiedEntry := false, stores := [] }
        rw [← segmentError, accepted] at sameError
        rw [readSegment_inside places context pos state here, Option.bind_some]
        rcases isResult :
            checkSegment context (layout.programHeader context.buffer pos) state with
          ⟨next, _ | error⟩
        · exact ih _ next notLater
        · rw [isResult] at sameError
          cases sameError
      · rw [readSegment_outside places context pos state here, Option.bind_none]

/-! ### Files -/

def EntryAccepted (start finish entry : Nat) : Prop :=
  accessibleArea (u32 entry) = true ∧ start ≤ physaddr (u32 entry) ∧
    physaddr (u32 entry) < finish

instance (start finish entry : Nat) : Decidable (EntryAccepted start finish entry) :=
  inferInstanceAs (Decidable (_ ∧ _ ∧ _))

/-- A file with the magic number holds its entry point, and when that is
accepted also the number of its program headers and these themselves. -/
def FileInside (places : HeaderPlaces layout) (buffer : Image)
    (filesize start finish : Nat) (destaddr : Option Nat) : Prop :=
  let header := layout.fileHeader buffer
  header.magic = elfMagic →
    places.entry.stop ≤ filesize ∧
      (EntryAccepted start finish header.entry →
        places.phnum.stop ≤ filesize ∧
          LoopInside places
            { buffer := buffer, filesize := filesize, start := start, finish := finish,
              entry := physaddr (u32 header.entry), destaddr := destaddr }
            header.phnum layout.fileHeaderSize)

instance (places : HeaderPlaces layout) (buffer : Image) (filesize start finish : Nat)
    (destaddr : Option Nat) :
    Decidable (FileInside places buffer filesize start finish destaddr) :=
  inferInstanceAs (Decidable (_ = _ → _ ∧ (_ → _ ∧ _)))

/-- The condition under which no byte behind the file is read. -/
def ReadsInside (buffer : Image) (filesize start finish : Nat)
    (destaddr : Option Nat) : Prop :=
  4 < filesize ∧
    if elfClass buffer = 2 then
      FileInside places64 buffer filesize (physaddr start) (physaddr finish) destaddr
    else
      FileInside places32 buffer filesize (physaddr start) (physaddr finish) destaddr

instance (buffer : Image) (filesize start finish : Nat) (destaddr : Option Nat) :
    Decidable (ReadsInside buffer filesize start finish destaddr) :=
  inferInstanceAs (Decidable (_ ∧ ite _ _ _))

theorem HeaderPlaces.fileHeader_values (places : HeaderPlaces layout) (buffer : Image) :
    places.magic.value buffer 0 = (layout.fileHeader buffer).magic ∧
      places.entry.value buffer 0 = (layout.fileHeader buffer).entry ∧
      places.phnum.value buffer 0 = (layout.fileHeader buffer).phnum := by
  rw [places.fileHeader]
  exact ⟨rfl, rfl, rfl⟩

theorem Place.read_start {place : Place} {buffer : Image} {filesize : Nat}
    (inside : place.stop ≤ filesize) :
    place.read buffer filesize 0 = some (place.value buffer 0) :=
  Place.read_inside ((Nat.zero_add _).symm ▸ inside)

theorem Place.read_start_outside {place : Place} {buffer : Image} {filesize : Nat}
    (outside : ¬ place.stop ≤ filesize) : place.read buffer filesize 0 = none :=
  Place.read_outside ((Nat.zero_add place.stop).symm ▸ outside)

theorem readSectionsWith_inside (places : HeaderPlaces layout) (buffer : Image)
    (filesize start finish : Nat) (destaddr : Option Nat)
    (magicInside : places.magic.stop ≤ filesize)
    (inside : FileInside places buffer filesize start finish destaddr) :
    readSectionsWith places buffer filesize start finish destaddr =
      some (checkSectionsWith layout buffer filesize start finish destaddr) := by
  obtain ⟨isMagic, isEntry, isPhnum⟩ := places.fileHeader_values buffer
  unfold readSectionsWith checkSectionsWith
  dsimp only
  rw [Place.read_start magicInside, Option.bind_some, isMagic]
  split <;> rename_i wrongMagic
  · rfl
  obtain ⟨entryInside, later⟩ := inside (not_not.mp wrongMagic)
  rw [Place.read_start entryInside, Option.bind_some, isEntry]
  split <;> rename_i notAccessible
  · rfl
  split <;> rename_i before
  · rfl
  split <;> rename_i after
  · rfl
  obtain ⟨phnumInside, loopInside⟩ := later
    ⟨by simpa using notAccessible, Nat.le_of_not_lt before, Nat.lt_of_not_le after⟩
  rw [Place.read_start phnumInside, Option.bind_some, isPhnum,
    readLoop_inside places _ _ _ _ loopInside]
  rfl

theorem readSectionsWith_outside (places : HeaderPlaces layout) (buffer : Image)
    (filesize start finish : Nat) (destaddr : Option Nat)
    (magicInside : places.magic.stop ≤ filesize)
    (outside : ¬ FileInside places buffer filesize start finish destaddr) :
    readSectionsWith places buffer filesize start finish destaddr = none := by
  obtain ⟨isMagic, isEntry, isPhnum⟩ := places.fileHeader_values buffer
  obtain ⟨rightMagic, later⟩ := Classical.not_imp.mp outside
  unfold readSectionsWith
  dsimp only
  rw [Place.read_start magicInside, Option.bind_some, isMagic,
    if_neg (not_not.mpr rightMagic)]
  by_cases entryInside : places.entry.stop ≤ filesize
  · rw [Place.read_start entryInside, Option.bind_some, isEntry]
    obtain ⟨accepted, notLoop⟩ := Classical.not_imp.mp fun holds => later ⟨entryInside, holds⟩
    obtain ⟨accessible, fromStart, beforeFinish⟩ := accepted
    rw [if_neg (by simp [accessible]), if_neg (Nat.not_lt.mpr fromStart),
      if_neg (Nat.not_le.mpr beforeFinish)]
    by_cases phnumInside : places.phnum.stop ≤ filesize
    · rw [Place.read_start phnumInside, Option.bind_some, isPhnum,
        readLoop_outside places _ _ _ _ fun loop => notLoop ⟨phnumInside, loop⟩]
    · rw [Place.read_start_outside phnumInside, Option.bind_none]
  · rw [Place.read_start_outside entryInside, Option.bind_none]

/-- Followed read by read, the checker gives its result when the headers are in
the file, and otherwise reads behind it. -/
theorem readSections_inside (buffer : Image) (filesize start finish : Nat)
    (destaddr : Option Nat)
    (inside : ReadsInside buffer filesize start finish destaddr) :
    readSections buffer filesize start finish destaddr =
      some (checkSections buffer filesize start finish destaddr) := by
  obtain ⟨classInside, fileInside⟩ := inside
  unfold readSections checkSections checkSections32 checkSections64
  rw [if_pos classInside]
  split at fileInside <;> rename_i isClass
  · rw [if_pos isClass, if_pos isClass]
    exact readSectionsWith_inside places64 _ _ _ _ _ classInside.le fileInside
  · rw [if_neg isClass, if_neg isClass]
    exact readSectionsWith_inside places32 _ _ _ _ _ classInside.le fileInside

theorem readSections_outside (buffer : Image) (filesize start finish : Nat)
    (destaddr : Option Nat)
    (outside : ¬ ReadsInside buffer filesize start finish destaddr) :
    readSections buffer filesize start finish destaddr = none := by
  unfold readSections
  split <;> rename_i classInside
  · have notFile := fun holds => outside ⟨classInside, holds⟩
    split <;> rename_i isClass
    · rw [if_pos isClass] at notFile
      exact readSectionsWith_outside places64 _ _ _ _ _ classInside.le notFile
    · rw [if_neg isClass] at notFile
      exact readSectionsWith_outside places32 _ _ _ _ _ classInside.le notFile
  · rfl

/-- `check_sections` stays inside the file exactly when the headers it looks at
are in the file. -/
theorem readSections_ne_none_iff (buffer : Image) (filesize start finish : Nat)
    (destaddr : Option Nat) :
    readSections buffer filesize start finish destaddr ≠ none ↔
      ReadsInside buffer filesize start finish destaddr := by
  constructor
  · intro stays
    by_contra outside
    exact stays (readSections_outside buffer filesize start finish destaddr outside)
  · intro inside
    rw [readSections_inside buffer filesize start finish destaddr inside]
    nofun

/-- A kernel that was cut off behind its file header. -/
theorem cutKernel_reads_outside :
    readSections plainKernel 52 0x10000 0x1000000 none = none := by
  decide +kernel

end KernelReloaded.Elf

/-
`real_copyRTESBIOS`: the SBIOS of an RTE image is copied to a file.

With an offset the size is taken from the instructions of the image: registers
are followed up to a call that has the address of the SBIOS in register 5.  The
registers have no values at the start; their contents are a parameter.  `atoi`
of the configured offset is a parameter as well.
-/

import KernelReloaded.Loader.RteImage
import KernelReloaded.Loader.SbiosScan

namespace KernelReloaded.RteSbios

open Memory WordScan RteImage

/-- `"PS2b"` -/
def magicString : List Byte := [0x50, 0x53, 0x32, 0x62]

abbrev isSbios (buffer : Buffer) (addr : Nat) : Bool :=
  isMagic magicString buffer addr

/-! ### Instructions -/

/-- `other` has no effect, also `lui` with a source. -/
inductive Instr where
  | addiu (rs rt : Nat) (immidiate : BitVec 32)
  | lui (rt : Nat) (immidiate : BitVec 32)
  | subu (rs rt rd : Nat)
  | jal
  | other

def decode (value : BitVec 32) : Instr :=
  let rs := SbiosScan.field value 21
  let rt := SbiosScan.field value 16
  let rd := SbiosScan.field value 11
  if value >>> 26 = 9 then
    .addiu rs rt (SbiosScan.immidiate value)
  else if value >>> 26 = 15 then
    if rs = 0 then .lui rt (SbiosScan.immidiate value) else .other
  else if value >>> 26 = 0 then
    if value &&& 0x3f = 35 then .subu rs rt rd else .other
  else if value >>> 26 = 3 then
    .jal
  else
    .other

def instrAt (buffer : Buffer) (code : Nat) : Instr :=
  decode (BitVec.ofNat 32 (wordAt buffer code))

/-! ### The code -/

abbrev Registers := Nat → BitVec 32

structure SizeState where
  regs : Registers
  sbiosSize : BitVec 32

def SizeState.setReg (state : SizeState) (register : Nat) (value : BitVec 32) :
    SizeState :=
  { state with regs := Function.update state.regs register value }

def sizeStep (buffer : Buffer) (search : BitVec 32) (state : SizeState)
    (code : Nat) : SizeState × Bool :=
  match instrAt buffer code with
  | .addiu rs rt immidiate => (state.setReg rt (state.regs rs + immidiate), false)
  | .lui rt immidiate => (state.setReg rt (immidiate <<< 16), false)
  | .subu rs rt rd => (state.setReg rd (state.regs rs - state.regs rt), false)
  | .jal =>
      if state.regs 5 = search then
        ({ state with sbiosSize := state.regs 6 }, true)
      else
        (state, false)
  | .other => (state, false)

def findStep (buffer : Buffer) (_state : Unit) (addr : Nat) : Unit × Bool :=
  ((), isSbios buffer addr)

def defaultSize : BitVec 32 := 0xf000

/-- The SBIOS begins one word before its magic. -/
def copySbios (devices : Devices) (buffer : Buffer) (size offset : BitVec 32)
    (regs : Registers) : Copied :=
  let find := scan (findStep buffer) (wordsBelow 0 size.toNat) ()
  let addr := find.stoppedAt.getD (behindWords 0 size.toNat)
  let reads := wordReads (find.reads ++ [addr])
  if isSbios buffer addr then
    let output (sbiosSize : BitVec 32) (reads : List (Int × Nat)) : Copied :=
      writeOutput devices "Failed to open sbios.bin" "Failed to write sbios.bin"
        buffer ((addr : Int) - 4) sbiosSize reads
    if offset ≠ 0 then
      let search := BitVec.ofNat 32 addr - 4 + offset
      let sized := scan (sizeStep buffer search) (wordsBelow 0 size.toNat)
        { regs := regs
          sbiosSize := defaultSize }
      output sized.state.sbiosSize (reads ++ wordReads sized.reads)
    else
      output defaultSize reads
  else
    failed (-6) "Can't find sbios." reads

def realCopyRteSbios (devices : Devices) (filename : String) (buffer : Buffer)
    (size offset : BitVec 32) (regs : Registers) : Copied :=
  withImage devices filename size (copySbios devices buffer size offset regs)

/-! ### What is wanted -/

/-- The first aligned magic that lies in the image. -/
structure FirstMagic (buffer : Buffer) (size addr : Nat) : Prop where
  aligned : addr % 4 = 0
  inside : addr + 4 ≤ size
  magic : isSbios buffer addr = true
  first : ∀ earlier, earlier % 4 = 0 → earlier < addr →
    isSbios buffer earlier = false

/-- A copy for every contents that the registers may have at the start. -/
structure CutsSbios (buffer : Buffer) (size : Nat)
    (copied : Registers → Copied) : Prop where
  slice : ∀ regs content, (copied regs).written = some content →
    ∃ addr length, FirstMagic buffer size addr ∧ 4 ≤ addr ∧
      addr - 4 + length ≤ size ∧
      content = slice buffer ((addr : Int) - 4) length
  inside : ∀ regs content, (copied regs).written = some content →
    Inside size (copied regs).reads
  determined : ∀ regs other,
    (copied regs).written.map List.length =
      (copied other).written.map List.length
  reports : ∀ regs, (copied regs).written = none → (copied regs).error ≠ none

/-! ### What the instructions say by themselves -/

/-- Registers without a value are `none`, also the size once it depends on
one. -/
structure KnownState where
  regs : Nat → Option (BitVec 32)
  sbiosSize : Option (BitVec 32)

def KnownState.setReg (known : KnownState) (register : Nat)
    (value : Option (BitVec 32)) : KnownState :=
  { known with regs := Function.update known.regs register value }

/-- A register subtracted from itself is zero whatever it holds. -/
def knownDifference (regs : Nat → Option (BitVec 32)) (rs rt : Nat) :
    Option (BitVec 32) :=
  if rs = rt then some 0
  else (regs rs).bind fun left => (regs rt).map fun right => left - right

/-- Ends also at a call for which register 5 has no value. -/
def knownStep (buffer : Buffer) (search : BitVec 32) (known : KnownState)
    (code : Nat) : KnownState × Bool :=
  match instrAt buffer code with
  | .addiu rs rt immidiate =>
      (known.setReg rt ((known.regs rs).map (· + immidiate)), false)
  | .lui rt immidiate => (known.setReg rt (some (immidiate <<< 16)), false)
  | .subu rs rt rd =>
      (known.setReg rd (knownDifference known.regs rs rt), false)
  | .jal =>
      match known.regs 5 with
      | none => ({ known with sbiosSize := none }, true)
      | some value =>
          if value = search then
            ({ known with sbiosSize := known.regs 6 }, true)
          else
            (known, false)
  | .other => (known, false)

def knownScan (buffer : Buffer) (search : BitVec 32) (words : List Nat) :
    Scan KnownState :=
  scan (knownStep buffer search) words
    { regs := fun _ => none
      sbiosSize := some defaultSize }

/-- The first word with the magic of which a byte lies in the image, or else
the place behind the last word. -/
def magicPlace (buffer : Buffer) (size : Nat) : Nat :=
  ((wordsBelow 0 size).find? (isSbios buffer)).getD (behindWords 0 size)

def knownInstrs (buffer : Buffer) (size : Nat) (offset : BitVec 32) :
    Scan KnownState :=
  knownScan buffer (BitVec.ofNat 32 (magicPlace buffer size) - 4 + offset)
    (if offset ≠ 0 then wordsBelow 0 size else [])

/-- No register without a value decides on the size, and it is this one. -/
def SizeKnown (buffer : Buffer) (size : Nat) (offset sbiosSize : BitVec 32) :
    Prop :=
  (knownInstrs buffer size offset).state.sbiosSize = some sbiosSize

instance (buffer : Buffer) (size : Nat) (offset sbiosSize : BitVec 32) :
    Decidable (SizeKnown buffer size offset sbiosSize) :=
  inferInstanceAs (Decidable (_ = some sbiosSize))

/-! ### Registers with values -/

/-- The registers with a known value hold it. -/
def Agrees (known : KnownState) (state : SizeState) : Prop :=
  ∀ register value, known.regs register = some value →
    state.regs register = value

theorem Agrees.setReg {known : KnownState} {state : SizeState}
    (agrees : Agrees known state) (register : Nat)
    {knownValue : Option (BitVec 32)} {value : BitVec 32}
    (same : ∀ isKnown, knownValue = some isKnown → value = isKnown) :
    Agrees (known.setReg register knownValue) (state.setReg register value) := by
  intro other isKnown holds
  rw [KnownState.setReg] at holds
  rw [SizeState.setReg]
  dsimp only at holds ⊢
  by_cases here : other = register
  · rw [here, Function.update_self] at holds ⊢
    exact same isKnown holds
  · rw [Function.update_of_ne here] at holds ⊢
    exact agrees other isKnown holds

theorem Agrees.difference {known : KnownState} {state : SizeState}
    (agrees : Agrees known state) {rs rt : Nat} {value : BitVec 32}
    (holds : knownDifference known.regs rs rt = some value) :
    state.regs rs - state.regs rt = value := by
  rw [knownDifference] at holds
  split at holds
  next same =>
    rw [same, BitVec.sub_self]
    exact Option.some.inj holds
  · obtain ⟨left, isLeft, rest⟩ := Option.bind_eq_some_iff.mp holds
    obtain ⟨right, isRight, rfl⟩ := Option.map_eq_some_iff.mp rest
    rw [agrees rs left isLeft, agrees rt right isRight]

/-- One word: both loops go on and agree, or the known one stops, and if it then
has a size, so does the other one. -/
theorem step_related {buffer : Buffer} {search : BitVec 32} {known : KnownState}
    {state : SizeState} (agrees : Agrees known state)
    (start : known.sbiosSize = some state.sbiosSize) (code : Nat) :
    ((knownStep buffer search known code).2 = false ∧
      (sizeStep buffer search state code).2 = false ∧
      Agrees (knownStep buffer search known code).1
        (sizeStep buffer search state code).1 ∧
      (knownStep buffer search known code).1.sbiosSize =
        some (sizeStep buffer search state code).1.sbiosSize) ∨
    ((knownStep buffer search known code).2 = true ∧
      ∀ sbiosSize,
        (knownStep buffer search known code).1.sbiosSize = some sbiosSize →
        (sizeStep buffer search state code).2 = true ∧
          (sizeStep buffer search state code).1.sbiosSize = sbiosSize) := by
  rw [knownStep, sizeStep]
  cases instrAt buffer code with
  | addiu rs rt immidiate =>
      refine Or.inl ⟨rfl, rfl, agrees.setReg rt ?_, start⟩
      intro isKnown holds
      obtain ⟨value, isValue, rfl⟩ := Option.map_eq_some_iff.mp holds
      rw [agrees rs value isValue]
  | lui rt immidiate =>
      exact Or.inl ⟨rfl, rfl, agrees.setReg rt fun _ holds =>
        Option.some.inj holds, start⟩
  | subu rs rt rd =>
      exact Or.inl ⟨rfl, rfl, agrees.setReg rd fun _ holds =>
        agrees.difference holds, start⟩
  | jal =>
      cases called : known.regs 5 with
      | none =>
          exact Or.inr ⟨rfl, fun _ holds => by cases holds⟩
      | some value =>
          have same := agrees 5 value called
          by_cases found : value = search
          · rw [same, if_pos found]
            dsimp only
            rw [if_pos found]
            exact Or.inr ⟨rfl, fun sbiosSize holds =>
              ⟨rfl, agrees 6 sbiosSize holds⟩⟩
          · rw [same, if_neg found]
            dsimp only
            rw [if_neg found]
            exact Or.inl ⟨rfl, rfl, agrees, start⟩
  | other => exact Or.inl ⟨rfl, rfl, agrees, start⟩

/-- Whatever the registers hold at the start, the loop reads the same words and
ends with the known size. -/
theorem sizeScan_of_known {buffer : Buffer} {search sbiosSize : BitVec 32}
    {words : List Nat} {known : KnownState} {state : SizeState}
    (agrees : Agrees known state) (start : known.sbiosSize = some state.sbiosSize)
    (isKnown : (scan (knownStep buffer search) words known).state.sbiosSize =
      some sbiosSize) :
    (scan (sizeStep buffer search) words state).state.sbiosSize = sbiosSize ∧
      (scan (sizeStep buffer search) words state).reads =
        (scan (knownStep buffer search) words known).reads := by
  induction words generalizing known state with
  | nil =>
      exact ⟨Option.some.inj (start.symm.trans isKnown), rfl⟩
  | cons code rest ih =>
      rcases step_related agrees start code with
        ⟨goesOn, goesOnToo, agreesNext, next⟩ | ⟨stops, ends⟩
      · rw [scan_cons_of_goesOn goesOn] at isKnown ⊢
        rw [scan_cons_of_goesOn goesOnToo]
        obtain ⟨sameSize, sameReads⟩ := ih agreesNext next isKnown
        exact ⟨sameSize, congrArg (code :: ·) sameReads⟩
      · rw [scan_cons_of_stops stops] at isKnown ⊢
        obtain ⟨stopsToo, sameSize⟩ := ends sbiosSize isKnown
        rw [scan_cons_of_stops stopsToo]
        exact ⟨sameSize, rfl⟩

/-! ### The copy -/

theorem find_stoppedAt (buffer : Buffer) (words : List Nat) :
    (scan (findStep buffer) words ()).stoppedAt =
      words.find? (isSbios buffer) :=
  scan_stoppedAt_eq_find fun _state _addr => rfl

theorem find_place (buffer : Buffer) (size : Nat) :
    (scan (findStep buffer) (wordsBelow 0 size) ()).stoppedAt.getD
      (behindWords 0 size) = magicPlace buffer size := by
  rw [find_stoppedAt, magicPlace]

/-- The words that the search, the test behind it and the loop over the
instructions read. -/
def sbiosReads (buffer : Buffer) (size : Nat) (offset : BitVec 32) :
    List (Int × Nat) :=
  wordReads ((scan (findStep buffer) (wordsBelow 0 size) ()).reads ++
      [magicPlace buffer size]) ++
    wordReads (knownInstrs buffer size offset).reads

section

variable {devices : Devices} {buffer : Buffer} {size offset sbiosSize : BitVec 32}

theorem copySbios_of_magic (isKnown : SizeKnown buffer size.toNat offset sbiosSize)
    (magic : isSbios buffer (magicPlace buffer size.toNat) = true)
    (regs : Registers) :
    copySbios devices buffer size offset regs =
      writeOutput devices "Failed to open sbios.bin" "Failed to write sbios.bin"
        buffer ((magicPlace buffer size.toNat : Int) - 4) sbiosSize
        (sbiosReads buffer size.toNat offset) := by
  rw [copySbios]
  dsimp only
  rw [find_place, if_pos magic, sbiosReads]
  rw [SizeKnown, knownInstrs, knownScan] at isKnown
  rw [knownInstrs, knownScan]
  by_cases noOffset : offset ≠ 0
  · rw [if_pos noOffset] at isKnown ⊢
    rw [if_pos noOffset]
    have agrees : Agrees
        { regs := fun _ => none
          sbiosSize := some defaultSize }
        { regs := regs
          sbiosSize := defaultSize } := fun _register _value holds => by
      cases holds
    obtain ⟨sameSize, sameReads⟩ := sizeScan_of_known agrees rfl isKnown
    rw [sameSize, sameReads]
  · rw [if_neg noOffset] at isKnown ⊢
    rw [if_neg noOffset]
    obtain rfl : defaultSize = sbiosSize := Option.some.inj isKnown
    change _ = writeOutput _ _ _ _ _ _ (_ ++ [])
    rw [List.append_nil]

end

/-! ### The place of the magic -/

section

variable {buffer : Buffer} {size addr : Nat}

theorem FirstMagic.magicPlace_eq (first : FirstMagic buffer size addr) :
    magicPlace buffer size = addr := by
  have inside := first.inside
  have before : (wordsBelow 0 addr).find? (isSbios buffer) = none := by
    rw [List.find?_eq_none]
    intro earlier member
    obtain ⟨-, lower, aligned⟩ := mem_wordsBelow.mp member
    rw [first.first earlier aligned lower]
    exact Bool.false_ne_true
  rw [magicPlace, wordsBelow_split (Nat.zero_le addr) first.aligned
      (show addr ≤ size by omega), List.find?_append, before, Option.none_or,
    wordsBelow_of_lt (show addr < size by omega),
    List.find?_cons_of_pos first.magic, Option.getD_some]

/-- A place inside of the image is one where the search stops. -/
theorem find_magicPlace (inside : magicPlace buffer size + 4 ≤ size) :
    (wordsBelow 0 size).find? (isSbios buffer) =
      some (magicPlace buffer size) := by
  rw [magicPlace] at inside ⊢
  cases found : (wordsBelow 0 size).find? (isSbios buffer) with
  | none =>
      rw [found, Option.getD_none] at inside
      have behind := le_behindWords 0 size
      omega
  | some place =>
      rw [Option.getD_some]

theorem firstMagic_magicPlace (inside : magicPlace buffer size + 4 ≤ size) :
    FirstMagic buffer size (magicPlace buffer size) := by
  have found := find_magicPlace inside
  obtain ⟨-, -, aligned⟩ := mem_wordsBelow.mp (List.mem_of_find?_eq_some found)
  refine ⟨aligned, inside, List.find?_some found, ?_⟩
  intro earlier alignedToo before
  have member : earlier ∈ wordsBelow 0 (magicPlace buffer size) :=
    mem_wordsBelow.mpr ⟨Nat.zero_le _, before, alignedToo⟩
  rw [wordsBelow_split (Nat.zero_le _) aligned
    (show magicPlace buffer size ≤ size by omega), List.find?_append] at found
  cases front : (wordsBelow 0 (magicPlace buffer size)).find?
      (isSbios buffer) with
  | none =>
      exact eq_false_of_ne_true (List.find?_eq_none.mp front earlier member)
  | some place =>
      rw [front, Option.some_or] at found
      obtain rfl := Option.some.inj found
      have lower := (mem_wordsBelow.mp (List.mem_of_find?_eq_some front)).2.1
      exact absurd lower (Nat.lt_irrefl _)

theorem sbiosReads_inside_iff {offset : BitVec 32} :
    Inside size (sbiosReads buffer size offset) ↔
      magicPlace buffer size + 4 ≤ size ∧
        ∀ code ∈ (knownInstrs buffer size offset).reads, code + 4 ≤ size := by
  rw [sbiosReads, inside_append, inside_wordReads, inside_wordReads]
  constructor
  · rintro ⟨searched, sized⟩
    exact ⟨searched _ (List.mem_append_right _ (List.mem_singleton_self _)),
      sized⟩
  · rintro ⟨inside, sized⟩
    refine ⟨?_, sized⟩
    intro place member
    rcases List.mem_append.mp member with isRead | isTest
    · have stopped := (find_stoppedAt buffer (wordsBelow 0 size)).trans
        (find_magicPlace inside)
      have before := scan_reads_le (wordsBelow_increasing _ _) stopped isRead
      omega
    · rw [List.mem_singleton.mp isTest]
      exact inside

end

/-! ### The condition -/

/-- The slice lies in the image, and so does every instruction that is read. -/
structure SliceFits (buffer : Buffer) (size : Nat) (offset sbiosSize : BitVec 32) :
    Prop where
  wordBefore : 4 ≤ magicPlace buffer size
  magicInside : magicPlace buffer size + 4 ≤ size
  sliceInside : magicPlace buffer size - 4 + sbiosSize.toNat ≤ size
  instrsInside : ∀ code ∈ (knownInstrs buffer size offset).reads,
    code + 4 ≤ size

section

variable {devices : Devices} {buffer : Buffer} {size offset sbiosSize : BitVec 32}

theorem copySbios_written
    (isKnown : SizeKnown buffer size.toNat offset sbiosSize)
    (magic : isSbios buffer (magicPlace buffer size.toNat) = true)
    (works : devices.WriteWork) (nonempty : sbiosSize ≠ 0) (regs : Registers) :
    copySbios devices buffer size offset regs =
      { returned := 0
        written := some (slice buffer
          ((magicPlace buffer size.toNat : Int) - 4) sbiosSize.toNat)
        error := none
        reads := sbiosReads buffer size.toNat offset ++
          [((magicPlace buffer size.toNat : Int) - 4, sbiosSize.toNat)] } := by
  rw [copySbios_of_magic isKnown magic, writeOutput_of_works works nonempty]

theorem copySbios_empty (isKnown : SizeKnown buffer size.toNat offset 0)
    (magic : isSbios buffer (magicPlace buffer size.toNat) = true)
    (regs : Registers) :
    (copySbios devices buffer size offset regs).written = none := by
  rw [copySbios_of_magic isKnown magic]
  apply writeOutput_of_fails
  rintro ⟨-, nonempty⟩
  exact nonempty rfl

theorem copySbios_reports (regs : Registers)
    (notWritten : (copySbios devices buffer size offset regs).written = none) :
    (copySbios devices buffer size offset regs).error ≠ none := by
  rw [copySbios] at notWritten ⊢
  dsimp only at notWritten ⊢
  split
  next magic =>
    rw [if_pos magic] at notWritten
    split
    next withOffset =>
      rw [if_pos withOffset] at notWritten
      exact writeOutput_reports notWritten
    next noOffset =>
      rw [if_neg noOffset] at notWritten
      exact writeOutput_reports notWritten
  · exact nofun

/-- When a file is written, the copy is right exactly when the slice fits. -/
theorem written_cuts_iff {copied : Registers → Copied}
    (written : ∀ regs, copied regs =
      { returned := 0
        written := some (slice buffer
          ((magicPlace buffer size.toNat : Int) - 4) sbiosSize.toNat)
        error := none
        reads := sbiosReads buffer size.toNat offset ++
          [((magicPlace buffer size.toNat : Int) - 4, sbiosSize.toNat)] }) :
    CutsSbios buffer size.toNat copied ↔
      SliceFits buffer size.toNat offset sbiosSize := by
  constructor
  · intro cuts
    have content := congrArg Copied.written (written fun _ => 0)
    obtain ⟨addr, length, first, wordBefore, inside, same⟩ :=
      cuts.slice _ _ content
    have reads := cuts.inside _ _ content
    rw [written, inside_append, sbiosReads_inside_iff] at reads
    have sameLength := congrArg List.length same
    rw [length_slice, length_slice] at sameLength
    have place := first.magicPlace_eq
    exact ⟨by omega, reads.1.1, by omega, reads.1.2⟩
  · rintro ⟨wordBefore, magicInside, sliceInside, instrsInside⟩
    refine ⟨?_, ?_, ?_, ?_⟩
    · intro regs content isContent
      rw [written] at isContent
      exact ⟨magicPlace buffer size.toNat, sbiosSize.toNat,
        firstMagic_magicPlace magicInside, wordBefore, sliceInside,
        (Option.some.inj isContent).symm⟩
    · intro regs content _isContent
      rw [written, inside_append, sbiosReads_inside_iff]
      refine ⟨⟨magicInside, instrsInside⟩, ?_⟩
      intro read member
      rw [List.mem_singleton.mp member]
      dsimp only
      omega
    · intro regs other
      rw [written regs, written other]
    · intro regs notWritten
      rw [written] at notWritten
      cases notWritten

theorem notWritten_cuts {copied : Registers → Copied} {size : Nat}
    (notWritten : ∀ regs, (copied regs).written = none)
    (reports : ∀ regs, (copied regs).written = none →
      (copied regs).error ≠ none) :
    CutsSbios buffer size copied := by
  refine ⟨?_, ?_, ?_, reports⟩
  · intro regs content isContent
    rw [notWritten] at isContent
    cases isContent
  · intro regs content isContent
    rw [notWritten] at isContent
    cases isContent
  · intro regs other
    rw [notWritten regs, notWritten other]

/-- All calls for files and memory succeed and a magic is found, so that the size
is looked for and a file is written, if not of size zero. -/
structure Found (devices : Devices) (buffer : Buffer) (size : BitVec 32) :
    Prop where
  reads : devices.ReadWork
  writes : devices.WriteWork
  image : size ≠ 0
  magic : isSbios buffer (magicPlace buffer size.toNat) = true

theorem realCopyRteSbios_of_not_found (notFound : ¬ Found devices buffer size)
    (filename : String) (regs : Registers) :
    (realCopyRteSbios devices filename buffer size offset regs).written = none := by
  by_cases works : devices.ReadWork ∧ size ≠ 0
  · rw [realCopyRteSbios, withImage_of_works works.1 works.2]
    by_cases magic : isSbios buffer (magicPlace buffer size.toNat) = true
    · have writeFails : ¬ devices.WriteWork := fun writes =>
        notFound ⟨works.1, writes, works.2, magic⟩
      rw [copySbios]
      dsimp only
      rw [find_place, if_pos magic]
      split
      all_goals
        apply writeOutput_of_fails
        rintro ⟨writes, -⟩
        exact writeFails writes
    · rw [copySbios]
      dsimp only
      rw [find_place, if_neg magic]
      rfl
  · exact (withImage_of_fails works).1

/-- The copy is right exactly when no file is written or the slice fits; where the
size is looked for, no register without a value decides on it. -/
theorem realCopyRteSbios_cuts_iff (devices : Devices) (filename : String)
    (buffer : Buffer) (size offset sbiosSize : BitVec 32)
    (isKnown : Found devices buffer size →
      SizeKnown buffer size.toNat offset sbiosSize) :
    CutsSbios buffer size.toNat
        (realCopyRteSbios devices filename buffer size offset) ↔
      (Found devices buffer size → sbiosSize ≠ 0 →
        SliceFits buffer size.toNat offset sbiosSize) := by
  have reports (regs : Registers) :
      (realCopyRteSbios devices filename buffer size offset regs).written =
          none →
        (realCopyRteSbios devices filename buffer size offset regs).error ≠
          none :=
    withImage_reports (copySbios_reports regs)
  by_cases found : Found devices buffer size
  · have copied (regs : Registers) :
        realCopyRteSbios devices filename buffer size offset regs =
          copySbios devices buffer size offset regs :=
      withImage_of_works found.reads found.image
    by_cases empty : sbiosSize = 0
    · subst empty
      constructor
      · intro _cuts _found nonempty
        exact absurd rfl nonempty
      · intro _fits
        apply notWritten_cuts _ reports
        intro regs
        rw [copied regs, copySbios_empty (isKnown found) found.magic]
    · rw [written_cuts_iff]
      · exact ⟨fun fits _found _nonempty => fits, fun fits => fits found empty⟩
      · intro regs
        rw [copied regs,
          copySbios_written (isKnown found) found.magic found.writes empty]
  · constructor
    · intro _cuts isFound
      exact absurd isFound found
    · intro _fits
      exact notWritten_cuts
        (fun regs => realCopyRteSbios_of_not_found found filename regs) reports

end

def imageOf (words : List (BitVec 32)) : Buffer :=
  let bytes := words.flatMap fun word => bytesLe 4 word.toNat
  fun offset => if offset < 0 then 0 else bytes.getD offset.toNat 0

/-- The magic in the second word, between instructions that clear register 6
and 5, add 8 and 1 to them and call. -/
def sizedImage : Buffer :=
  imageOf [0x00C63023, 0x62325350, 0x24C60008, 0x00A52823, 0x24A50001,
    0x0C000000]

theorem sizedImage_cut :
    CutsSbios sizedImage 24
      (realCopyRteSbios workingDevices "cdfs:pbpx_955.09" sizedImage 24 1) :=
  (realCopyRteSbios_cuts_iff workingDevices _ sizedImage 24 1 8
    fun _found => by decide).mpr
    fun _found _nonempty => ⟨by decide, by decide, by decide, by decide⟩

/-- The magic in the second and last word. -/
def shortImage : Buffer := imageOf [0, 0x62325350]

/-- Without an offset the size is not compared with the image. -/
theorem shortImage_overread :
    ¬ ∀ (filename : String) (buffer : Buffer) (size offset : BitVec 32),
      CutsSbios buffer size.toNat
        (realCopyRteSbios workingDevices filename buffer size offset) := by
  intro cuts
  have short := cuts "cdfs:pbpx_955.09" shortImage 8 0
  have isKnown : SizeKnown shortImage (8 : BitVec 32).toNat 0 defaultSize := rfl
  have written (regs : Registers) :=
    copySbios_written isKnown (by decide) writeWork_workingDevices (by decide) regs
  have same (regs : Registers) :
      realCopyRteSbios workingDevices "cdfs:pbpx_955.09" shortImage 8 0 regs =
        copySbios workingDevices shortImage 8 0 regs :=
    withImage_of_works readWork_workingDevices (by decide)
  have fits := (written_cuts_iff fun regs => (same regs).trans (written regs)).mp
    short
  exact absurd fits.sliceInside (by decide)

end KernelReloaded.RteSbios

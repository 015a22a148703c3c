/-
What the two tools that cut a file out of a Linux RTE image have in common:
reading the image into a buffer, looking for a magic word in it, and writing a
part of the buffer to a new file.

The calls to files and memory succeed or fail as `Devices` says.  Progress and
`kprintf` reports, the change of the disk type and what removes a file that
could not be written are left out.
-/

import KernelReloaded.Core.Memory
import KernelReloaded.Core.WordScan

namespace KernelReloaded.RteImage

open Memory WordScan

/-- A byte for every offset from the buffer; the image ends at its size, what
lies around it is arbitrary. -/
abbrev Buffer := Int → Byte

def wordAt (buffer : Buffer) (addr : Nat) : Nat :=
  le32 (fun index => buffer index) addr

/-- `*((uint32_t *) magic_string)` -/
def magicWord (magicString : List Byte) : Nat :=
  le32 (imageOfList magicString) 0

def isMagic (magicString : List Byte) (buffer : Buffer) (addr : Nat) : Bool :=
  wordAt buffer addr == magicWord magicString

def slice (buffer : Buffer) (start : Int) (length : Nat) : List Byte :=
  (List.range length).map fun index : Nat => buffer (start + index)

/-- Which calls succeed.  `mkdir` comes between the two tries to open the
output. -/
structure Devices where
  opensImage : Bool
  allocates : Bool
  readsImage : Bool
  opensOutput : Bool
  opensOutputAgain : Bool
  writesOutput : Bool

structure Copied where
  returned : Int
  /-- What the new file holds; `none` when it is not there. -/
  written : Option (List Byte)
  error : Option String
  /-- Offset and length of every read of the buffer. -/
  reads : List (Int × Nat)

def failed (returned : Int) (error : String) (reads : List (Int × Nat)) :
    Copied :=
  { returned := returned
    written := none
    error := some error
    reads := reads }

/-- An empty image gives `fread` nothing to read. -/
def withImage (devices : Devices) (filename : String) (size : BitVec 32)
    (search : Copied) : Copied :=
  if devices.opensImage then
    if devices.allocates then
      if devices.readsImage ∧ size ≠ 0 then search
      else failed (-3) "Can't read file." []
    else failed (-2) "out of memory" []
  else failed 0 ("Failed to open file \"" ++ filename ++ "\"") []

/-- `fwrite` of nothing does not return 1. -/
def writeOutput (devices : Devices) (openError writeError : String)
    (buffer : Buffer) (addr : Int) (length : BitVec 32)
    (reads : List (Int × Nat)) : Copied :=
  if devices.opensOutput ∨ devices.opensOutputAgain then
    let reads := reads ++ [(addr, length.toNat)]
    if devices.writesOutput ∧ length ≠ 0 then
      { returned := 0
        written := some (slice buffer addr length.toNat)
        error := none
        reads := reads }
    else failed (-5) writeError reads
  else failed (-4) openError reads

/-- The words that a loop has read. -/
def wordReads (places : List Nat) : List (Int × Nat) :=
  places.map fun addr : Nat => ((addr : Int), 4)

def Inside (size : Nat) (reads : List (Int × Nat)) : Prop :=
  ∀ read ∈ reads, 0 ≤ read.1 ∧ read.1 + read.2 ≤ size

/-! ### Devices that work -/

structure Devices.ReadWork (devices : Devices) : Prop where
  opensImage : devices.opensImage = true
  allocates : devices.allocates = true
  readsImage : devices.readsImage = true

structure Devices.WriteWork (devices : Devices) : Prop where
  opens : devices.opensOutput = true ∨ devices.opensOutputAgain = true
  writes : devices.writesOutput = true

def workingDevices : Devices :=
  { opensImage := true
    allocates := true
    readsImage := true
    opensOutput := true
    opensOutputAgain := true
    writesOutput := true }

theorem readWork_workingDevices : workingDevices.ReadWork := ⟨rfl, rfl, rfl⟩

theorem writeWork_workingDevices : workingDevices.WriteWork :=
  ⟨Or.inl rfl, rfl⟩

variable {devices : Devices} {filename openError writeError : String}
  {size length : BitVec 32} {search : Copied} {buffer : Buffer} {addr : Int}
  {reads : List (Int × Nat)}

theorem withImage_of_works (works : devices.ReadWork) (nonempty : size ≠ 0) :
    withImage devices filename size search = search := by
  rw [withImage, if_pos works.opensImage, if_pos works.allocates,
    if_pos ⟨works.readsImage, nonempty⟩]

/-- An image that is not searched leaves no file, and the result is not that of
a search without success. -/
theorem withImage_of_fails (fails : ¬ (devices.ReadWork ∧ size ≠ 0)) :
    (withImage devices filename size search).written = none ∧
      (withImage devices filename size search).returned ≠ -6 := by
  rw [withImage]
  split
  next opens =>
    split
    next allocates =>
      split
      next readsIt =>
        exact absurd ⟨⟨opens, allocates, readsIt.1⟩, readsIt.2⟩ fails
      · exact ⟨rfl, by decide⟩
    · exact ⟨rfl, by decide⟩
  · have other : (0 : Int) ≠ -6 := by decide
    exact ⟨rfl, other⟩

theorem writeOutput_of_works (works : devices.WriteWork) (nonempty : length ≠ 0) :
    writeOutput devices openError writeError buffer addr length reads =
      { returned := 0
        written := some (slice buffer addr length.toNat)
        error := none
        reads := reads ++ [(addr, length.toNat)] } := by
  rw [writeOutput, if_pos works.opens]
  exact if_pos ⟨works.writes, nonempty⟩

theorem writeOutput_of_fails (fails : ¬ (devices.WriteWork ∧ length ≠ 0)) :
    (writeOutput devices openError writeError buffer addr length
      reads).written = none := by
  rw [writeOutput]
  split
  next opens =>
    dsimp only
    split
    next writes => exact absurd ⟨⟨opens, writes.1⟩, writes.2⟩ fails
    · rfl
  · rfl

theorem withImage_reports
    (reports : search.written = none → search.error ≠ none)
    (notWritten : (withImage devices filename size search).written = none) :
    (withImage devices filename size search).error ≠ none := by
  rw [withImage] at notWritten ⊢
  split
  next opens =>
    rw [if_pos opens] at notWritten
    split
    next allocates =>
      rw [if_pos allocates] at notWritten
      split
      next readsIt =>
        rw [if_pos readsIt] at notWritten
        exact reports notWritten
      · exact nofun
    · exact nofun
  · exact nofun

theorem writeOutput_reports
    (notWritten : (writeOutput devices openError writeError buffer addr length
      reads).written = none) :
    (writeOutput devices openError writeError buffer addr length
      reads).error ≠ none := by
  rw [writeOutput] at notWritten ⊢
  split
  next opens =>
    rw [if_pos opens] at notWritten
    dsimp only at notWritten ⊢
    split
    next writes =>
      rw [if_pos writes] at notWritten
      cases notWritten
    · exact nofun
  · exact nofun

theorem length_slice (buffer : Buffer) (start : Int) (count : Nat) :
    (slice buffer start count).length = count := by
  rw [slice, List.length_map, List.length_range]

theorem writeOutput_reads {read : Int × Nat} (earlier : read ∈ reads) :
    read ∈ (writeOutput devices openError writeError buffer addr length
      reads).reads := by
  rw [writeOutput]
  split
  · dsimp only
    split
    · exact List.mem_append_left _ earlier
    · exact List.mem_append_left _ earlier
  · exact earlier

theorem inside_wordReads {limit : Nat} {places : List Nat} :
    Inside limit (wordReads places) ↔ ∀ place ∈ places, place + 4 ≤ limit := by
  constructor
  · intro inside place member
    have bound := (inside _ (List.mem_map_of_mem member)).2
    dsimp only at bound
    omega
  · intro inside read member
    obtain ⟨place, isPlace, rfl⟩ := List.mem_map.mp member
    have bound := inside place isPlace
    dsimp only
    omega

theorem inside_append {limit : Nat} {first second : List (Int × Nat)} :
    Inside limit (first ++ second) ↔
      Inside limit first ∧ Inside limit second := by
  constructor
  · intro inside
    exact ⟨fun read member => inside read (List.mem_append_left _ member),
      fun read member => inside read (List.mem_append_right _ member)⟩
  · rintro ⟨insideFirst, insideSecond⟩ read member
    rcases List.mem_append.mp member with isFirst | isSecond
    · exact insideFirst read isFirst
    · exact insideSecond read isSecond

end KernelReloaded.RteImage

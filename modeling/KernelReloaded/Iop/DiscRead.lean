/-
Reading files from a disc: src/iop/SMSCDVD.

A read fetches the sectors it reaches into `s_Buffer`.  The last of them stays
there, so that a read that goes on in the same sector does not fetch it again.
Discs with a file system of their own come in raw sectors, whose data lies
between a header and a trailer.
-/

import KernelReloaded.Core.Memory
import KernelReloaded.Core.Simulation
import KernelReloaded.Core.SlotMemory
import Mathlib.Data.List.FinRange

namespace KernelReloaded.DiscRead

open Memory (Byte Image)
open SlotMemory (copied filled loaded slice Holds)

abbrev Word := BitVec 32

inductive Errno
  | ENOENT
  | EBADF
  | EINVAL
  | ENFILE
  deriving DecidableEq

/-! ### The drive -/

structure CdRMode where
  trycount : Nat
  spindlctrl : Nat
  deriving DecidableEq

/-- What `sceCdRead` answers, and after a refusal `sceCdGetError`. -/
inductive Attempt
  | accepted
  | refused (error : Word)
  deriving DecidableEq

/-- The answers of the drive to the tries of one transfer. -/
abbrev Drive := Nat → CdRMode → Attempt

/-- The data of the sectors, and what stands around it in the raw ones. -/
structure Disc where
  byte : Nat → Nat → Byte
  framing : Nat → Nat → Byte

def Disc.raw (disc : Disc) (sector offset : Nat) : Byte :=
  if 12 ≤ offset ∧ offset < 2060 then disc.byte sector (offset - 12)
  else disc.framing sector offset

/-- `s_CDReadMode` at a try. -/
def tryMode (lRetry : Nat) : CdRMode where
  trycount := 32
  spindlctrl := if lRetry ≤ 8 then 1 else 0

/-- How the loop of `ReadSect` is left. -/
inductive Tried
  | broken (lResult : Word) (read : Bool)
  | returned

def readSectLoop (drive : Drive) : (left : Nat) → (lResult : Word) → Tried
  | 0, lResult => .broken lResult false
  | left + 1, lResult =>
      match drive (31 - left) (tryMode (31 - left)) with
      | .accepted => .broken lResult true
      | .refused error =>
          if left = 0 then .returned
          else if error = 0 then .broken error false
          else readSectLoop drive left error

structure Transfer where
  answer : Bool
  mode : CdRMode
  buffer : Image

def readSect (disc : Disc) (drive : Drive) (aStartSector anSectors : Word)
    (apBuf : Nat) (buffer : Image) : Transfer :=
  let zeroed := filled (0 : Byte) apBuf (anSectors <<< 11).toNat
  match readSectLoop drive 32 0 with
  | .returned => { answer := false, mode := tryMode 31, buffer := zeroed buffer }
  | .broken lResult read =>
      let mode := { trycount := 32, spindlctrl := 1 }
      let delivered :=
        if read then
          loaded 2048 disc.byte aStartSector.toNat anSectors.toNat apBuf buffer
        else buffer
      if lResult = 0 then { answer := true, mode, buffer := delivered }
      else { answer := false, mode, buffer := zeroed delivered }

/-- From this try on the drive refuses with errors until it refuses without one,
before the last try. -/
def GivesUp (drive : Drive) (lRetry : Nat) : Prop :=
  ∃ more, lRetry + more < 31 ∧
    drive (lRetry + more) (tryMode (lRetry + more)) = .refused 0 ∧
    ∀ earlier, earlier < more → ∃ error, error ≠ 0 ∧
      drive (lRetry + earlier) (tryMode (lRetry + earlier)) = .refused error

theorem givesUp_succ {drive : Drive} {lRetry : Nat} {error : Word}
    (refused : drive lRetry (tryMode lRetry) = .refused error)
    (isError : error ≠ 0) :
    GivesUp drive lRetry ↔ GivesUp drive (lRetry + 1) := by
  constructor
  · rintro ⟨more, few, last, before⟩
    cases more with
    | zero =>
        rw [Nat.add_zero, refused] at last
        exact absurd (Attempt.refused.inj last) isError
    | succ more =>
        refine ⟨more, by omega, ?_, ?_⟩
        · rw [Nat.add_right_comm, Nat.add_assoc]
          exact last
        · intro earlier less
          rw [Nat.add_right_comm, Nat.add_assoc]
          exact before (earlier + 1) (by omega)
  · rintro ⟨more, few, last, before⟩
    refine ⟨more + 1, by omega, ?_, ?_⟩
    · rw [← Nat.add_assoc, Nat.add_right_comm]
      exact last
    · intro earlier less
      cases earlier with
      | zero => exact ⟨error, isError, refused⟩
      | succ earlier =>
          rw [← Nat.add_assoc, Nat.add_right_comm]
          exact before earlier (by omega)

/-- After an error a transfer comes to a good end only by a refusal without one. -/
theorem readSectLoop_after_error (drive : Drive) (left : Nat) (few : left ≤ 31)
    {lResult : Word} (isError : lResult ≠ 0) :
    (GivesUp drive (32 - left) ∧
        readSectLoop drive left lResult = .broken 0 false) ∨
      ¬GivesUp drive (32 - left) ∧
        (readSectLoop drive left lResult = .returned ∨
          ∃ error read, error ≠ 0 ∧
            readSectLoop drive left lResult = .broken error read) := by
  induction left generalizing lResult with
  | zero =>
      right
      refine ⟨?_, .inr ⟨lResult, false, isError, rfl⟩⟩
      rintro ⟨more, tooFar, _last, _before⟩
      omega
  | succ left ih =>
      have isTry : 32 - (left + 1) = 31 - left := by omega
      have nextTry : 31 - left + 1 = 32 - left := by omega
      rw [isTry, readSectLoop]
      cases answer : drive (31 - left) (tryMode (31 - left)) with
      | accepted =>
          right
          refine ⟨?_, .inr ⟨lResult, true, isError, rfl⟩⟩
          rintro ⟨more, _few, last, before⟩
          cases more with
          | zero =>
              rw [Nat.add_zero, answer] at last
              cases last
          | succ more =>
              obtain ⟨error, _isError, refused⟩ := before 0 (Nat.succ_pos more)
              rw [Nat.add_zero, answer] at refused
              cases refused
      | refused error =>
          dsimp only
          by_cases last : left = 0
          · right
            rw [if_pos last]
            refine ⟨?_, .inl rfl⟩
            rintro ⟨more, tooFar, _last, _before⟩
            omega
          · rw [if_neg last]
            by_cases noError : error = 0
            · left
              rw [if_pos noError, noError]
              refine ⟨⟨0, by omega, by rw [Nat.add_zero, answer, noError], ?_⟩, rfl⟩
              intro earlier none
              exact absurd none (Nat.not_lt_zero earlier)
            · rw [if_neg noError, givesUp_succ answer noError, nextTry]
              exact ih (by omega) noError

theorem readSectLoop_cases (drive : Drive) :
    (drive 0 (tryMode 0) = .accepted ∧ ¬GivesUp drive 0 ∧
        readSectLoop drive 32 0 = .broken 0 true) ∨
      (drive 0 (tryMode 0) ≠ .accepted ∧ GivesUp drive 0 ∧
        readSectLoop drive 32 0 = .broken 0 false) ∨
      (drive 0 (tryMode 0) ≠ .accepted ∧ ¬GivesUp drive 0 ∧
        (readSectLoop drive 32 0 = .returned ∨
          ∃ error read, error ≠ 0 ∧
            readSectLoop drive 32 0 = .broken error read)) := by
  rw [readSectLoop, Nat.sub_self]
  cases answer : drive 0 (tryMode 0) with
  | accepted =>
      left
      refine ⟨rfl, ?_, rfl⟩
      rintro ⟨more, _few, last, before⟩
      cases more with
      | zero => cases answer.symm.trans last
      | succ more =>
          obtain ⟨error, _isError, refused⟩ := before 0 (Nat.succ_pos more)
          cases answer.symm.trans refused
  | refused error =>
      right
      have notAccepted : Attempt.refused error ≠ .accepted := by
        intro accepted
        cases accepted
      dsimp only
      rw [if_neg (by decide)]
      by_cases noError : error = 0
      · left
        rw [if_pos noError]
        rw [noError] at answer notAccepted ⊢
        refine ⟨notAccepted, ⟨0, by decide, answer, ?_⟩, rfl⟩
        intro earlier none
        exact absurd none (Nat.not_lt_zero earlier)
      · rw [if_neg noError, givesUp_succ answer noError]
        rcases readSectLoop_after_error drive 31 (by decide) noError with
          ⟨givesUp, loop⟩ | ⟨goesOn, loop⟩
        · exact .inl ⟨notAccepted, givesUp, loop⟩
        · exact .inr ⟨notAccepted, goesOn, loop⟩

theorem filled_loaded (size count first apBuf : Nat) (source : Nat → Nat → Byte)
    (item : Byte) (buffer : Image) :
    filled item apBuf (size * count) (loaded size source first count apBuf buffer) =
      filled item apBuf (size * count) buffer := by
  funext place
  rw [filled, filled]
  by_cases inside : apBuf ≤ place ∧ place < apBuf + size * count
  · rw [if_pos inside, if_pos inside]
  · rw [if_neg inside, if_neg inside, loaded, if_neg inside]

/-- `ReadSect` brings the data only where the drive accepts the first try.  A
refusal without an error passes for a transfer, and what a later try brings is
wiped. -/
theorem readSect_brings (disc : Disc) (drive : Drive)
    (aStartSector anSectors : Word) (apBuf : Nat) (buffer : Image)
    (few : anSectors.toNat < 2097152) :
    let done := readSect disc drive aStartSector anSectors apBuf buffer
    (drive 0 (tryMode 0) = .accepted → done.answer = true ∧
        done.buffer =
          loaded 2048 disc.byte aStartSector.toNat anSectors.toNat apBuf buffer) ∧
      (GivesUp drive 0 → done.answer = true ∧ done.buffer = buffer) ∧
      (drive 0 (tryMode 0) ≠ .accepted → ¬GivesUp drive 0 →
        done.answer = false ∧
          done.buffer = filled 0 apBuf (2048 * anSectors.toNat) buffer) := by
  have bytes : (anSectors <<< 11).toNat = 2048 * anSectors.toNat := by
    rw [BitVec.toNat_shiftLeft, Nat.shiftLeft_eq, Nat.mul_comm]
    exact Nat.mod_eq_of_lt (by omega)
  dsimp only
  rw [readSect, bytes]
  rcases readSectLoop_cases drive with
    ⟨accepted, goesOn, loop⟩ | ⟨notAccepted, givesUp, loop⟩ |
      ⟨notAccepted, goesOn, loop⟩
  · rw [loop]
    refine ⟨fun _ => ⟨rfl, rfl⟩, fun givesUp => absurd givesUp goesOn, ?_⟩
    intro notAccepted
    exact absurd accepted notAccepted
  · rw [loop]
    refine ⟨fun accepted => absurd accepted notAccepted, fun _ => ⟨rfl, rfl⟩, ?_⟩
    intro _notAccepted goesOn
    exact absurd givesUp goesOn
  · refine ⟨fun accepted => absurd accepted notAccepted,
      fun givesUp => absurd givesUp goesOn, ?_⟩
    intro _notAccepted _goesOn
    rcases loop with returned | ⟨error, read, isError, broken⟩
    · rw [returned]
      exact ⟨rfl, rfl⟩
    · rw [broken]
      dsimp only
      rw [if_neg isError]
      refine ⟨rfl, ?_⟩
      cases read with
      | false => rfl
      | true => exact filled_loaded 2048 _ _ _ _ 0 _

def secondTry : Drive := fun lRetry _mode =>
  if lRetry = 0 then .refused 1 else .accepted

theorem readSect_brings_secondTry :
    let disc : Disc := { byte := fun _ _ => 7, framing := fun _ _ => 0 }
    let done := readSect disc secondTry 16 1 0 (fun _ => 1)
    (secondTry 0 (tryMode 0) = .accepted → done.answer = true ∧
        done.buffer = loaded 2048 disc.byte 16 1 0 (fun _ => 1)) ∧
      (GivesUp secondTry 0 → done.answer = true ∧ done.buffer = fun _ => 1) ∧
      (secondTry 0 (tryMode 0) ≠ .accepted → ¬GivesUp secondTry 0 →
        done.answer = false ∧ done.buffer = filled 0 0 2048 (fun _ => 1)) :=
  readSect_brings { byte := fun _ _ => 7, framing := fun _ _ => 0 } secondTry 16 1 0
    (fun _ => 1) (by decide)

theorem readSect_accepted {drive : Drive} (accepted : drive 0 (tryMode 0) = .accepted)
    (disc : Disc) (aStartSector anSectors : Word) (apBuf : Nat) (buffer : Image) :
    readSect disc drive aStartSector anSectors apBuf buffer =
      { answer := true
        mode := { trycount := 32, spindlctrl := 1 }
        buffer :=
          loaded 2048 disc.byte aStartSector.toNat anSectors.toNat apBuf buffer } := by
  rw [readSect, readSectLoop, Nat.sub_self, accepted]
  rfl

/-- `s_DVDReadMode`, as `CDVD_init` leaves it. -/
def dvdReadMode : CdRMode where
  trycount := 5
  spindlctrl := 11

def readDVDVSectors (disc : Disc) (drive : Drive) (aStartSector anSectors : Word)
    (apBuf : Nat) (buffer : Image) : Bool × Image :=
  match drive 0 dvdReadMode with
  | .accepted =>
      (true, loaded 2064 disc.raw aStartSector.toNat anSectors.toNat apBuf buffer)
  | .refused _ => (false, buffer)

/-! ### The state -/

structure FDEntry where
  fd : Word
  fileSize : Word
  lba : Word
  filePos : Word
  deriving DecidableEq

structure Driver where
  fdTable : Fin 16 → FDEntry
  fdUsed : Fin 16 → Bool
  filesOpen : Int
  lastSector : Word
  lastBk : Word
  buffer : Image
  cdReadMode : CdRMode

/-- The state after `CDVD_init`, whatever is in the buffer. -/
def started (buffer : Image) (mode : CdRMode) : Driver where
  fdTable := fun _ => { fd := 0, fileSize := 0, lba := 0, filePos := 0 }
  fdUsed := fun _ => false
  filesOpen := 0
  lastSector := 0
  lastBk := 0
  buffer := buffer
  cdReadMode := mode

def firstFree (used : Fin 16 → Bool) : Option (Fin 16) :=
  (List.finRange 16).find? fun index => !used index

def allocFD (aPos aSize : Word) (state : Driver) : Except Errno (Fin 16) × Driver :=
  match firstFree state.fdUsed with
  | none => (.error .ENFILE, state)
  | some index =>
      (.ok index,
        { state with
          fdUsed := Function.update state.fdUsed index true
          filesOpen := state.filesOpen + 1
          fdTable := Function.update state.fdTable index
            { fd := BitVec.ofNat 32 index, fileSize := aSize, lba := aPos,
              filePos := 0 } })

def lookupFD (aFD : Word) (state : Driver) : Option (Fin 16) :=
  (List.finRange 16).find? fun index => decide ((state.fdTable index).fd = aFD)

def Driver.setPos (state : Driver) (index : Fin 16) (filePos : Word) : Driver :=
  { state with
    fdTable := Function.update state.fdTable index
      { state.fdTable index with filePos } }

inductive Whence
  | set
  | cur
  | fromEnd
  | other

def lseek (fd offset : Word) (whence : Whence) (state : Driver) :
    Except Errno Word × Driver :=
  match lookupFD fd state with
  | none => (.error .EBADF, state)
  | some index =>
      let file := state.fdTable index
      let moved : Option Word :=
        match whence with
        | .set => some offset
        | .cur => some (file.filePos + offset)
        | .fromEnd => some (file.fileSize + offset)
        | .other => none
      match moved with
      | none => (.error .EINVAL, state)
      | some filePos =>
          -- the position is unsigned, so that the test for one below zero never holds
          let filePos := if file.fileSize < filePos then file.fileSize else filePos
          (.ok filePos, state.setPos index filePos)

def close (fd : Word) (state : Driver) : Except Errno Unit × Driver :=
  match lookupFD fd state with
  | none => (.error .EBADF, state)
  | some index =>
      (.ok (),
        { state with
          fdUsed := Function.update state.fdUsed index false
          filesOpen := state.filesOpen - 1 })

/-! ### Reads -/

/-- The number of bytes a read hands over, zero where it returns at once. -/
def FDEntry.granted (file : FDEntry) (size : Word) : Word :=
  if file.fileSize < file.filePos then 0
  else
    let size :=
      if file.fileSize < file.filePos + size then file.fileSize - file.filePos
      else size
    if size.sle 0 then 0
    else if BitVec.slt 16384 size then 16384
    else size

def sectorCount (bytes : Word) : Word :=
  (bytes >>> 11) + if bytes &&& 2047 = 0 then 0 else 1

/-- The sectors of a read brought into the buffer, in units of this size. -/
def fetch (stride : Nat) (transfer : Word → Word → Nat → Driver → Driver)
    (startSector numSectors : Word) (state : Driver) : Driver :=
  let read : Word := if startSector = state.lastSector then 1 else 0
  let kept :=
    if startSector = state.lastSector then
      { state with
        buffer :=
          if 0 < state.lastBk then
            copied 0 (stride * state.lastBk.toNat) stride state.buffer
          else state.buffer
        lastBk := 0 }
    else state
  let next := { kept with lastSector := startSector + numSectors - 1 }
  if read = 0 ∨ read = 1 ∧ 1 < numSectors then
    { transfer (startSector + read) (numSectors - read) (stride * read.toNat) next with
      lastBk := numSectors - 1 }
  else next

def isoRead (disc : Disc) (drive : Drive) (fd size : Word) (state : Driver) :
    Except Errno (List Byte) × Driver :=
  match lookupFD fd state with
  | none => (.error .EBADF, state)
  | some index =>
      let file := state.fdTable index
      let size := file.granted size
      if size = 0 then (.ok [], state)
      else
        let startSector := file.lba + (file.filePos >>> 11)
        let offSector := file.filePos &&& 0x7FF
        let transfer := fun first count apBuf (state : Driver) =>
          let done := readSect disc drive first count apBuf state.buffer
          { state with buffer := done.buffer, cdReadMode := done.mode }
        let next := fetch 2048 transfer startSector (sectorCount (offSector + size)) state
        (.ok (slice next.buffer offSector.toNat size.toNat),
          next.setPos index (file.filePos + size))

/-- The bytes `UDF_Read` gathers from the raw sectors in the buffer. -/
def gathered (buffer : Image) (offSector size : Nat) : List Byte :=
  let first := min (2060 - (offSector + 12)) size
  let rest := size - first
  slice buffer (offSector + 12) first ++
    ((List.range (rest / 2048)).flatMap fun sector =>
      slice buffer (2064 * (sector + 1) + 12) 2048) ++
    slice buffer (2064 * (rest / 2048 + 1) + 12) (rest % 2048)

def udfRead (disc : Disc) (drive : Drive) (fd size : Word) (state : Driver) :
    Except Errno (List Byte) × Driver :=
  match lookupFD fd state with
  | none => (.error .EBADF, state)
  | some index =>
      let file := state.fdTable index
      let size := file.granted size
      if size = 0 then (.ok [], state)
      else
        let startSector := file.lba + (file.filePos >>> 11)
        let offSector := file.filePos &&& 0x7FF
        let transfer := fun first count apBuf (state : Driver) =>
          { state with
            buffer := (readDVDVSectors disc drive first count apBuf state.buffer).2 }
        let next := fetch 2064 transfer startSector (sectorCount (offSector + size)) state
        (.ok (gathered next.buffer offSector.toNat size.toNat),
          next.setPos index (file.filePos + size))

/-! ### Runs -/

/-- What `CDVDRpc_SetDVDV` chooses. -/
inductive Format
  | iso
  | udf
  deriving DecidableEq

/-- A call of the driver.  An `open` comes with what the directory search found, and
with what that of `UDF_Open` leaves in `s_Buffer`; a search of its own is one for a
directory. -/
inductive Event
  | openFile (found : Option (Word × Word)) (searched : Image)
  | lseek (fd offset : Word) (whence : Whence)
  | read (fd size : Word) (drive : Drive)
  | close (fd : Word)
  | search (buffer : Image)

inductive Reply
  | error (errno : Errno)
  | handle (index : Fin 16)
  | position (pos : Nat)
  | bytes (data : List Byte)
  | done
  deriving DecidableEq

def Reply.of {Value : Type} (make : Value → Reply) : Except Errno Value → Reply
  | .error errno => .error errno
  | .ok value => make value

/-- The search of `UDF_Open` reads its sectors into `s_Buffer`, and leaves
`s_LastSector` as it was; that of `ISO_Open` has a buffer of its own. -/
def Driver.searched (format : Format) (buffer : Image) (state : Driver) : Driver :=
  match format with
  | .iso => state
  | .udf => { state with buffer }

def openFile (format : Format) (found : Option (Word × Word)) (searched : Image)
    (state : Driver) : Except Errno (Fin 16) × Driver :=
  match found with
  | none => (.error .ENOENT, state.searched format searched)
  | some (aPos, aSize) => allocFD aPos aSize (state.searched format searched)

def step (format : Format) (disc : Disc) (state : Driver) : Event → Reply × Driver
  | .openFile found searched =>
      (.of .handle (openFile format found searched state).1,
        (openFile format found searched state).2)
  | .lseek fd offset whence =>
      (.of (fun pos => .position pos.toNat) (lseek fd offset whence state).1,
        (lseek fd offset whence state).2)
  | .read fd size drive =>
      let done :=
        match format with
        | .iso => isoRead disc drive fd size state
        | .udf => udfRead disc drive fd size state
      (.of .bytes done.1, done.2)
  | .close fd => (.of (fun _ => .done) (close fd state).1, (close fd state).2)
  | .search buffer => (.done, { state with buffer })

end KernelReloaded.DiscRead

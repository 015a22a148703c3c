/-
`load_file` and `load_kernel_file` over a device that may fail at any read.

A file is a stream of bytes and the results of the reads are arbitrary, except
that a read delivers no more than it was asked for; behind the end of the list
every read returns zero.  A read at `pos` puts the bytes of the stream from
`pos` on into the buffer at `pos`, so only the place and the length of each read
are recorded.  Opening, allocating and shrinking are parameters.  Progress
reports are left out, but not the division in them.
-/

import KernelReloaded.Core.Memory
import KernelReloaded.Core.CText

namespace KernelReloaded.FileLoading

open Memory CText

/-! ### Reads -/

/-- Bytes asked for at once. -/
def chunk : Nat := 256 * 1024

inductive Ending where
  | finished
  | tooBig
  | dividedByZero
deriving DecidableEq

/-- What a reading loop has done: the reads as place and length, the bytes read
in all, and how it ended. -/
structure ReadRun where
  pieces : List (Nat × Nat)
  pos : Nat
  ending : Ending
deriving DecidableEq

def ReadRun.after (run : ReadRun) (piece : Nat × Nat) : ReadRun :=
  { run with pieces := piece :: run.pieces }

def Covered (pieces : List (Nat × Nat)) (index : Nat) : Prop :=
  ∃ piece ∈ pieces, piece.1 ≤ index ∧ index < piece.1 + piece.2

instance (pieces : List (Nat × Nat)) (index : Nat) : Decidable (Covered pieces index) :=
  inferInstanceAs (Decidable (∃ piece ∈ pieces, _))

/-- The buffer after the reads. -/
def contents (before stream : Image) (pieces : List (Nat × Nat)) : Image :=
  fun index => if Covered pieces index then stream index else before index

/-! ### `load_file` -/

structure FileInput where
  /-- `*size`, none for a null pointer -/
  size : Option Int
  addr : Option Nat
  opened : Bool
  filesize : Nat
  stream : Image
  reads : List Nat
  memalign : Nat → Option Nat
  loaderEnd : Nat

structure LoadResult where
  /-- The address that is returned, none for `NULL` and when the function does
  not return. -/
  buffer : Option Nat
  size : Option Int
  run : ReadRun
  errors : List Text

def noRun : ReadRun :=
  { pieces := [], pos := 0, ending := .finished }

/-- The next request shrinks to the rest of the file. -/
def restNext (s next : Int) : Int :=
  if s < next then s else next

def loadLoop (filesize : Nat) : List Nat → Nat → Int → Int → ReadRun
  | [], pos, _, _ => { pieces := [], pos := pos, ending := .finished }
  | result :: rest, pos, s, next =>
      let n := min result next.toNat
      if n = 0 then
        { pieces := [], pos := pos, ending := .finished }
      else
        let s := s - n
        let next := restNext s next
        if next ≤ 0 then
          { pieces := [(pos, n)], pos := pos + n, ending := .finished }
        else if filesize / 100 = 0 then
          { pieces := [(pos, n)], pos := pos + n, ending := .dividedByZero }
        else
          (loadLoop filesize rest (pos + n) s next).after (pos, n)

/-- The address is ignored without a size. -/
def FileInput.area (input : FileInput) : Option Nat :=
  if input.size = none then none else input.addr

/-- The buffer and the bytes it has room for. -/
def FileInput.buffer (input : FileInput) : Option (Nat × Nat) :=
  match input.area with
  | some addr =>
      if (input.filesize : Int) ≤ input.size.getD 0 then
        some (addr, (input.size.getD 0).toNat)
      else
        none
  | none => (input.memalign input.filesize).map fun buffer => (buffer, input.filesize)

def loadFile (filename : Text) (input : FileInput) : LoadResult :=
  if input.opened = false then
    { buffer := none
      size := input.size
      run := noRun
      errors := ["Error cannot open file ".toList ++ filename ++ ".".toList] }
  else
    let newSize := input.size.map fun _ => (input.filesize : Int)
    match input.buffer with
    | none => { buffer := none, size := newSize, run := noRun, errors := [] }
    | some (buffer, _) =>
        if input.area = none ∧ buffer < input.loaderEnd then
          { buffer := none
            size := newSize
            run := noRun
            errors := ["memalign() is unusable!".toList] }
        else
          let run := loadLoop input.filesize input.reads 0 input.filesize chunk
          { buffer := if run.ending = .finished then some buffer else none
            size := newSize
            run := run
            errors := [] }

/-! ### `load_kernel_file` -/

structure KernelInput where
  opened : Bool
  /-- Length of the decompressed file. -/
  length : Nat
  stream : Image
  reads : List Int
  memalign : Nat → Option Nat
  loaderEnd : Nat
  /-- The place of the buffer after it was made smaller. -/
  realloc : Nat → Nat

/-- The buffer has 1 MByte and so many times 512 KByte.  The last try is made
with one and a half MByte. -/
def obtainBuffer (memalign : Nat → Option Nat) : Nat → Option (Nat × Nat)
  | 0 => none
  | tries + 1 =>
      let maxsize := 1024 * 1024 + (tries + 1) * (512 * 1024)
      match memalign maxsize with
      | some buffer => some (buffer, maxsize)
      | none => obtainBuffer memalign tries

/-- From 128 MByte downwards. -/
def KernelInput.buffer (input : KernelInput) : Option (Nat × Nat) :=
  obtainBuffer input.memalign 254

/-- The next request shrinks to the room that is left. -/
def roomNext (maxsize pos : Nat) (next : Int) : Int :=
  if (pos : Int) + next > maxsize then (maxsize : Int) - pos else next

def kernelLoop (maxsize : Nat) : List Int → Nat → Int → ReadRun
  | [], pos, _ => { pieces := [], pos := pos, ending := .finished }
  | result :: rest, pos, next =>
      let n := min result next
      if n ≤ 0 then
        { pieces := [], pos := pos, ending := .finished }
      else
        let piece := (pos, n.toNat)
        let pos := pos + n.toNat
        if maxsize / 100 = 0 then
          { pieces := [piece], pos := pos, ending := .dividedByZero }
        else
          let next := roomNext maxsize pos next
          if next ≤ 0 then
            { pieces := [piece], pos := pos, ending := .tooBig }
          else
            (kernelLoop maxsize rest pos next).after piece

def tooBigErrors (filename : Text) (maxsize : Nat) : List Text :=
  ["Error file ".toList ++ filename ++ " is too big (free ".toList ++
      formatUnsigned (maxsize / 1024) ++ "kB).\n".toList,
    if maxsize < 6 * 1024 * 1024 then
      "Restart kernelloader for more free memory (max. 6MB for video mode auto).".toList
    else
      "You should use ee-strip to make the kernel smaller (gzip doesn't help).".toList]

/-- `hasSize` is whether the pointer for the size is not null. -/
def loadKernelFile (filename : Text) (hasSize : Bool) (input : KernelInput) :
    LoadResult :=
  if hasSize = false then
    { buffer := none, size := none, run := noRun, errors := [] }
  else if input.opened = false then
    { buffer := none
      size := none
      run := noRun
      errors := ["Error cannot open file ".toList ++ filename ++ ".".toList] }
  else
    match input.buffer with
    | none =>
        { buffer := none
          size := none
          run := noRun
          errors := [("Failed to allocate memory (memory leak)! " ++
            "Please restart kernelloader and boot kernel directly.").toList] }
    | some (buffer, maxsize) =>
        if buffer < input.loaderEnd then
          { buffer := none
            size := none
            run := noRun
            errors := ["memalign() is unusable!".toList] }
        else
          let run := kernelLoop maxsize input.reads 0 chunk
          match run.ending with
          | .finished =>
              { buffer := some (input.realloc run.pos)
                size := some run.pos
                run := run
                errors := [] }
          | .tooBig =>
              { buffer := none
                size := none
                run := run
                errors := tooBigErrors filename maxsize }
          | .dividedByZero =>
              { buffer := none, size := none, run := run, errors := [] }

/-! ### What the callers rely on -/

/-- All reads stay inside a buffer with room for `capacity` bytes, nothing is
divided by zero, and a buffer that is returned holds the whole file, whatever
was in it before. -/
structure LoadRight (result : LoadResult) (capacity length : Nat) (stream : Image)
    (size : Option Int) : Prop where
  inside : ∀ piece ∈ result.run.pieces, piece.1 + piece.2 ≤ capacity
  divides : result.run.ending ≠ .dividedByZero
  complete : ∀ address, result.buffer = some address →
    result.size = size ∧ ∀ before, ∀ index < length,
      contents before stream result.run.pieces index = stream index

/-- `load_file` returns the size only through a pointer. -/
def FileRight (filename : Text) (input : FileInput) : Prop :=
  LoadRight (loadFile filename input) ((input.buffer.map Prod.snd).getD 0)
    input.filesize input.stream (input.size.map fun _ => (input.filesize : Int))

/-- Bytes that reads from `pos` on deliver until one delivers nothing, when each
is asked for a chunk but not for more than is left below the limit. -/
def deliveredFrom (limit : Nat) : List Nat → Nat → Nat
  | [], pos => pos
  | result :: rest, pos =>
      let n := min result (min chunk (limit - pos))
      if n = 0 then pos else deliveredFrom limit rest (pos + n)

/-- The file was read to its end, and a file that was read to its end and has
room in the buffer is accepted. -/
structure KernelRight (filename : Text) (hasSize : Bool) (input : KernelInput) :
    Prop where
  load : LoadRight (loadKernelFile filename hasSize input)
    ((input.buffer.map Prod.snd).getD 0) input.length input.stream
    (some (input.length : Int))
  accepts : ∀ buffer maxsize, hasSize = true → input.opened = true →
    input.buffer = some (buffer, maxsize) → input.loaderEnd ≤ buffer →
    deliveredFrom maxsize (input.reads.map Int.toNat) 0 = input.length →
    input.length ≤ maxsize → (loadKernelFile filename hasSize input).buffer ≠ none

/-! ### The reads of a loop -/

theorem contents_eq_iff (stream : Image) (pieces : List (Nat × Nat)) (length : Nat) :
    (∀ before, ∀ index < length, contents before stream pieces index = stream index) ↔
      ∀ index < length, Covered pieces index := by
  constructor
  · intro same index inside
    by_contra uncovered
    -- a byte that was not read may have been anything before
    have kept := same (fun index => stream index + 1) index inside
    unfold contents at kept
    rw [if_neg uncovered] at kept
    exact absurd kept (by simp)
  · intro covered before index inside
    unfold contents
    rw [if_pos (covered index inside)]

/-- The reads from `pos` on are one after the other. -/
structure ReadRun.From (run : ReadRun) (pos : Nat) : Prop where
  forwards : pos ≤ run.pos
  covers : ∀ index, Covered run.pieces index ↔ pos ≤ index ∧ index < run.pos
  inside : ∀ piece ∈ run.pieces, piece.1 + piece.2 ≤ run.pos

theorem ReadRun.From.empty (pos : Nat) (ending : Ending) :
    ReadRun.From { pieces := [], pos := pos, ending := ending } pos := by
  refine ⟨Nat.le_refl pos, ?_, nofun⟩
  intro index
  constructor
  · rintro ⟨piece, impossible, _inside⟩
    cases impossible
  · rintro ⟨low, high⟩
    exact absurd high (Nat.not_lt.mpr low)

theorem ReadRun.From.after {run : ReadRun} {pos n : Nat} (later : run.From (pos + n)) :
    (run.after (pos, n)).From pos := by
  have forwards := later.forwards
  refine ⟨?_, ?_, ?_⟩
  · change pos ≤ run.pos
    omega
  · intro index
    change (∃ piece ∈ (pos, n) :: run.pieces, _) ↔ pos ≤ index ∧ index < run.pos
    rw [List.exists_mem_cons_iff]
    have rest : (∃ piece ∈ run.pieces, piece.1 ≤ index ∧ index < piece.1 + piece.2) ↔ _ :=
      later.covers index
    rw [rest]
    dsimp only
    omega
  · intro piece member
    change piece.1 + piece.2 ≤ run.pos
    rcases List.mem_cons.mp member with rfl | inRest
    · exact forwards
    · exact later.inside piece inRest

theorem ReadRun.From.single (pos n : Nat) (ending : Ending) :
    ReadRun.From { pieces := [(pos, n)], pos := pos + n, ending := ending } pos :=
  ReadRun.From.after (ReadRun.From.empty (pos + n) ending)

theorem loadLoop_from (filesize : Nat) (reads : List Nat) (pos : Nat) (s next : Int) :
    (loadLoop filesize reads pos s next).From pos := by
  induction reads generalizing pos s next with
  | nil => exact ReadRun.From.empty pos _
  | cons result rest ih =>
      unfold loadLoop
      dsimp only
      split
      · exact ReadRun.From.empty pos _
      split
      · exact ReadRun.From.single pos _ _
      split
      · exact ReadRun.From.single pos _ _
      · exact (ih _ _ _).after

theorem kernelLoop_from (maxsize : Nat) (reads : List Int) (pos : Nat) (next : Int) :
    (kernelLoop maxsize reads pos next).From pos := by
  induction reads generalizing pos next with
  | nil => exact ReadRun.From.empty pos _
  | cons result rest ih =>
      unfold kernelLoop
      dsimp only
      split
      · exact ReadRun.From.empty pos _
      split
      · exact ReadRun.From.single pos _ _
      split
      · exact ReadRun.From.single pos _ _
      · exact (ih _ _).after

/-! ### Where the loops end -/

theorem restNext_eq (s next : Int) : restNext s next = min next s := by
  unfold restNext
  split <;> omega

theorem deliveredFrom_full {limit pos : Nat} (full : limit ≤ pos) (reads : List Nat) :
    deliveredFrom limit reads pos = pos := by
  cases reads with
  | nil => rfl
  | cons result rest =>
      unfold deliveredFrom
      dsimp only
      rw [if_pos (by omega)]

/-- With a percentage to divide by, the loop reads what the device delivers. -/
theorem loadLoop_delivered {filesize : Nat} (large : 100 ≤ filesize) (reads : List Nat)
    (pos : Nat) (s next : Int) (rest : s = (filesize : Int) - pos)
    (asked : next = min (chunk : Int) s) (more : pos < filesize) :
    (loadLoop filesize reads pos s next).pos = deliveredFrom filesize reads pos ∧
      (loadLoop filesize reads pos s next).ending = .finished := by
  induction reads generalizing pos s next with
  | nil => exact ⟨rfl, rfl⟩
  | cons result later ih =>
      have request : next.toNat = min chunk (filesize - pos) := by omega
      unfold loadLoop deliveredFrom
      dsimp only
      rw [request]
      have bounded : min result (min chunk (filesize - pos)) ≤ filesize - pos := by omega
      generalize min result (min chunk (filesize - pos)) = n at bounded ⊢
      have shrunk : restNext (s - n) next = min (chunk : Int) (s - n) := by
        rw [restNext_eq]
        omega
      split <;> rename_i progress
      · exact ⟨rfl, rfl⟩
      split <;> rename_i atEnd
      · have full : filesize ≤ pos + n := by
          unfold chunk at shrunk
          omega
        exact ⟨(deliveredFrom_full full later).symm, rfl⟩
      · rw [if_neg (by omega)]
        exact ih (pos + n) (s - n) _ (by omega) shrunk (by omega)

/-- The kernel's loop ends as too big when the buffer is full. -/
theorem kernelLoop_delivered {maxsize : Nat} (large : 100 ≤ maxsize) (reads : List Int)
    (pos : Nat) (next : Int) (asked : next = min (chunk : Int) ((maxsize : Int) - pos))
    (more : pos < maxsize) :
    (kernelLoop maxsize reads pos next).pos =
        deliveredFrom maxsize (reads.map Int.toNat) pos ∧
      (kernelLoop maxsize reads pos next).ending =
        if deliveredFrom maxsize (reads.map Int.toNat) pos = maxsize then .tooBig
        else .finished := by
  induction reads generalizing pos next with
  | nil =>
      refine ⟨rfl, ?_⟩
      rw [List.map_nil, deliveredFrom, if_neg (by omega)]
      rfl
  | cons result later ih =>
      have amount : (min result next).toNat =
          min result.toNat (min chunk (maxsize - pos)) := by
        omega
      unfold kernelLoop
      rw [List.map_cons]
      unfold deliveredFrom
      dsimp only
      rw [← amount]
      have bounded : min result next ≤ (maxsize : Int) - pos := by omega
      generalize min result next = n at bounded ⊢
      split <;> rename_i stopped
      · rw [if_pos (by omega), if_neg (by omega)]
        exact ⟨rfl, rfl⟩
      have percent : ¬ maxsize / 100 = 0 := by omega
      have progress : ¬ n.toNat = 0 := by omega
      rw [if_neg percent, if_neg progress]
      have shrunk : roomNext maxsize (pos + n.toNat) next =
          min (chunk : Int) ((maxsize : Int) - (pos + n.toNat : Nat)) := by
        unfold roomNext
        split <;> omega
      split <;> rename_i atEnd
      · have full : pos + n.toNat = maxsize := by
          unfold chunk at shrunk
          omega
        rw [deliveredFrom_full (Nat.le_of_eq full.symm), if_pos full]
        exact ⟨rfl, rfl⟩
      · exact ih (pos + n.toNat) _ shrunk (by unfold chunk at shrunk; omega)

/-! ### `load_file` on any device -/

/-- Bytes the first read delivers; it is asked for a chunk of any file. -/
def FileInput.first (input : FileInput) : Nat :=
  min (input.reads.headD 0) chunk

def FileInput.delivered (input : FileInput) : Nat :=
  if input.first = 0 then 0
  else deliveredFrom input.filesize input.reads.tail input.first

/-- The file is opened and the function has a buffer for it. -/
def FileInput.Reads (input : FileInput) (buffer capacity : Nat) : Prop :=
  input.opened = true ∧ input.buffer = some (buffer, capacity) ∧
    ¬ (input.area = none ∧ buffer < input.loaderEnd)

/-- The first read does not overrun the buffer, a file too small for a
percentage comes with the first read, and no read before the end of the file
delivers nothing. -/
structure FileInput.Delivers (input : FileInput) (capacity : Nat) : Prop where
  fits : input.first ≤ capacity
  small : input.filesize < 100 → input.filesize ≤ input.first
  whole : input.filesize ≤ input.delivered

def FileInput.run (input : FileInput) : ReadRun :=
  loadLoop input.filesize input.reads 0 input.filesize chunk

theorem FileInput.run_nothing {input : FileInput} (nothing : input.first = 0) :
    input.run = noRun := by
  unfold FileInput.run
  unfold FileInput.first at nothing
  cases isReads : input.reads with
  | nil => rfl
  | cons result rest =>
      rw [isReads, List.headD_cons] at nothing
      unfold loadLoop
      dsimp only
      rw [if_pos (by rw [Int.toNat_natCast]; exact nothing)]
      rfl

/-- After a first read, the loop ends with it, divides by zero or goes on. -/
theorem FileInput.run_first {input : FileInput} (something : input.first ≠ 0) :
    input.run =
      if input.filesize ≤ input.first then
        { pieces := [(0, input.first)], pos := input.first, ending := .finished }
      else if input.filesize / 100 = 0 then
        { pieces := [(0, input.first)], pos := input.first, ending := .dividedByZero }
      else
        (loadLoop input.filesize input.reads.tail input.first
          (input.filesize - input.first)
          (restNext (input.filesize - input.first) chunk)).after (0, input.first) := by
  unfold FileInput.run
  unfold FileInput.first at something ⊢
  cases isReads : input.reads with
  | nil =>
      rw [isReads] at something
      exact absurd (Nat.zero_min chunk) something
  | cons result rest =>
      rw [isReads, List.headD_cons] at something
      rw [List.headD_cons, List.tail_cons, loadLoop]
      dsimp only
      rw [Int.toNat_natCast, if_neg something, Nat.zero_add]
      generalize min result chunk = n at something ⊢
      have atEnd : restNext ((input.filesize : Int) - n) chunk ≤ 0 ↔ input.filesize ≤ n := by
        rw [restNext_eq]
        unfold chunk
        omega
      by_cases ends : input.filesize ≤ n
      · rw [if_pos (atEnd.mpr ends), if_pos ends]
      · rw [if_neg (mt atEnd.mp ends), if_neg ends]

/-- The reads after the first one. -/
theorem FileInput.run_rest (input : FileInput) (large : 100 ≤ input.filesize)
    (more : ¬ input.filesize ≤ input.first) :
    (loadLoop input.filesize input.reads.tail input.first (input.filesize - input.first)
        (restNext (input.filesize - input.first) chunk)).pos =
      deliveredFrom input.filesize input.reads.tail input.first ∧
    (loadLoop input.filesize input.reads.tail input.first (input.filesize - input.first)
        (restNext (input.filesize - input.first) chunk)).ending = .finished :=
  loadLoop_delivered large _ _ _ _ rfl (restNext_eq _ _) (Nat.lt_of_not_le more)

theorem FileInput.run_divided (input : FileInput) :
    input.run.ending = .dividedByZero ↔
      input.first ≠ 0 ∧ input.first < input.filesize ∧ input.filesize < 100 := by
  by_cases nothing : input.first = 0
  · rw [input.run_nothing nothing]
    exact iff_of_false nofun fun reads => reads.1 nothing
  rw [input.run_first nothing]
  by_cases ends : input.filesize ≤ input.first
  · rw [if_pos ends]
    exact iff_of_false nofun fun reads => absurd reads.2.1 (Nat.not_lt.mpr ends)
  rw [if_neg ends]
  by_cases small : input.filesize / 100 = 0
  · rw [if_pos small]
    exact iff_of_true rfl ⟨nothing, Nat.lt_of_not_le ends, by omega⟩
  · rw [if_neg small]
    have large : 100 ≤ input.filesize := by omega
    have goesOn : (loadLoop input.filesize input.reads.tail input.first
        (input.filesize - input.first)
        (restNext (input.filesize - input.first) chunk)).ending ≠ .dividedByZero := by
      rw [(input.run_rest large ends).2]
      nofun
    exact iff_of_false goesOn fun reads => absurd reads.2.2 (Nat.not_lt.mpr large)

theorem FileInput.run_pos {input : FileInput}
    (divides : input.run.ending ≠ .dividedByZero) :
    input.run.pos = input.delivered := by
  have divided := mt input.run_divided.mpr divides
  unfold FileInput.delivered
  by_cases nothing : input.first = 0
  · rw [if_pos nothing, input.run_nothing nothing]
    rfl
  rw [if_neg nothing, input.run_first nothing]
  by_cases ends : input.filesize ≤ input.first
  · rw [if_pos ends, deliveredFrom_full ends]
  · have large : ¬ input.filesize / 100 = 0 := by omega
    rw [if_neg ends, if_neg large]
    exact (input.run_rest (by omega) ends).1

theorem FileInput.run_ending (input : FileInput)
    (divides : input.run.ending ≠ .dividedByZero) : input.run.ending = .finished := by
  by_cases nothing : input.first = 0
  · rw [input.run_nothing nothing]
    rfl
  rw [input.run_first nothing] at divides ⊢
  split at divides <;> rename_i ends
  · rw [if_pos ends]
  split at divides <;> rename_i small
  · exact absurd rfl divides
  · rw [if_neg ends, if_neg small]
    exact (input.run_rest (by omega) ends).2

theorem FileInput.first_le_pos (input : FileInput) : input.first ≤ input.run.pos := by
  by_cases nothing : input.first = 0
  · rw [nothing]
    exact Nat.zero_le _
  rw [input.run_first nothing]
  split
  · exact Nat.le_refl _
  split
  · exact Nat.le_refl _
  · exact (loadLoop_from _ _ _ _ _).forwards

theorem deliveredFrom_le (limit : Nat) (reads : List Nat) (pos : Nat) :
    deliveredFrom limit reads pos ≤ max pos limit := by
  induction reads generalizing pos with
  | nil => exact Nat.le_max_left pos limit
  | cons result rest ih =>
      unfold deliveredFrom
      dsimp only
      have bounded : min result (min chunk (limit - pos)) ≤ limit - pos := by omega
      generalize min result (min chunk (limit - pos)) = n at bounded ⊢
      split <;> rename_i stopped
      · exact Nat.le_max_left pos limit
      · have later := ih (pos + n)
        omega

theorem FileInput.filesize_le {input : FileInput} {buffer capacity : Nat}
    (obtained : input.buffer = some (buffer, capacity)) : input.filesize ≤ capacity := by
  unfold FileInput.buffer at obtained
  split at obtained
  · split at obtained <;> rename_i fits
    · obtain ⟨_buffer, rfl⟩ := Prod.mk.inj (Option.some.inj obtained)
      omega
    · cases obtained
  · obtain ⟨block, _isBlock, same⟩ := Option.map_eq_some_iff.mp obtained
    exact Nat.le_of_eq (congrArg Prod.snd same)

theorem loadFile_reads (filename : Text) {input : FileInput} {buffer capacity : Nat}
    (reads : input.Reads buffer capacity) :
    loadFile filename input =
      { buffer := if input.run.ending = .finished then some buffer else none
        size := input.size.map fun _ => (input.filesize : Int)
        run := input.run
        errors := [] } := by
  obtain ⟨opened, obtained, usable⟩ := reads
  unfold loadFile
  rw [if_neg (by simp [opened]), obtained]
  dsimp only
  rw [if_neg usable]
  rfl

theorem loadFile_noReads (filename : Text) {input : FileInput}
    (noReads : ∀ buffer capacity, ¬ input.Reads buffer capacity) :
    (loadFile filename input).buffer = none ∧ (loadFile filename input).run = noRun := by
  unfold loadFile
  split <;> rename_i isClosed
  · exact ⟨rfl, rfl⟩
  have opened : input.opened = true := by simpa using isClosed
  dsimp only
  split
  · exact ⟨rfl, rfl⟩
  · rename_i buffer capacity obtained
    split <;> rename_i unusable
    · exact ⟨rfl, rfl⟩
    · exact absurd ⟨opened, obtained, unusable⟩ (noReads buffer capacity)

theorem ReadRun.From.whole_iff {run : ReadRun} (fromStart : run.From 0) (stream : Image)
    (length : Nat) :
    (∀ before, ∀ index < length, contents before stream run.pieces index = stream index) ↔
      length ≤ run.pos := by
  rw [contents_eq_iff]
  constructor
  · intro covered
    by_contra short
    have behind := (fromStart.covers run.pos).mp (covered run.pos (Nat.lt_of_not_le short))
    exact Nat.lt_irrefl _ behind.2
  · intro whole index inside
    exact (fromStart.covers index).mpr ⟨Nat.zero_le index, Nat.lt_of_lt_of_le inside whole⟩

/-- The reads stay inside exactly when there are not more bytes than room. -/
theorem ReadRun.From.inside_iff {run : ReadRun} (fromStart : run.From 0) (capacity : Nat) :
    (∀ piece ∈ run.pieces, piece.1 + piece.2 ≤ capacity) ↔ run.pos ≤ capacity := by
  constructor
  · intro inside
    by_contra tooFar
    obtain ⟨piece, member, _low, high⟩ :=
      (fromStart.covers capacity).mpr ⟨Nat.zero_le capacity, Nat.lt_of_not_le tooFar⟩
    exact absurd (inside piece member) (Nat.not_le.mpr high)
  · intro room piece member
    exact Nat.le_trans (fromStart.inside piece member) room

theorem loadFile_delivers_iff (filename : Text) {input : FileInput} {buffer capacity : Nat}
    (reads : input.Reads buffer capacity) :
    FileRight filename input ↔ input.Delivers capacity := by
  have fromStart : input.run.From 0 := loadLoop_from _ _ _ _ _
  have room := input.filesize_le reads.2.1
  have capacityEq : (input.buffer.map Prod.snd).getD 0 = capacity := by
    rw [reads.2.1]
    rfl
  unfold FileRight
  rw [loadFile_reads filename reads, capacityEq]
  constructor
  · intro right
    have finished := input.run_ending right.divides
    have pos := input.run_pos right.divides
    have firstPos := input.first_le_pos
    have inside := (fromStart.inside_iff capacity).mp right.inside
    have whole := (fromStart.whole_iff input.stream input.filesize).mp
      (right.complete buffer (if_pos finished)).2
    rw [pos] at whole
    refine ⟨Nat.le_trans firstPos inside, ?_, whole⟩
    intro small
    by_contra short
    have firstNonzero : input.first ≠ 0 := by
      intro nothing
      unfold FileInput.delivered at whole
      rw [if_pos nothing] at whole
      omega
    exact right.divides
      (input.run_divided.mpr ⟨firstNonzero, Nat.lt_of_not_le short, small⟩)
  · intro delivers
    have divides : input.run.ending ≠ .dividedByZero := by
      intro divided
      obtain ⟨_nonzero, short, small⟩ := input.run_divided.mp divided
      exact absurd (delivers.small small) (Nat.not_le.mpr short)
    have pos := input.run_pos divides
    refine ⟨?_, divides, ?_⟩
    · apply (fromStart.inside_iff capacity).mpr
      rw [pos]
      unfold FileInput.delivered
      split
      · exact Nat.zero_le _
      · have bounded := deliveredFrom_le input.filesize input.reads.tail input.first
        have fits := delivers.fits
        omega
    · intro address _returned
      refine ⟨rfl, ?_⟩
      apply (fromStart.whole_iff input.stream input.filesize).mpr
      rw [pos]
      exact delivers.whole

theorem fileRight_iff (filename : Text) (input : FileInput) :
    FileRight filename input ↔
      ∀ buffer capacity, input.Reads buffer capacity → input.Delivers capacity := by
  constructor
  · intro right buffer capacity reads
    exact (loadFile_delivers_iff filename reads).mp right
  · intro delivers
    by_cases reads : ∃ buffer capacity, input.Reads buffer capacity
    · obtain ⟨buffer, capacity, reads⟩ := reads
      exact (loadFile_delivers_iff filename reads).mpr (delivers buffer capacity reads)
    · have noReads : ∀ buffer capacity, ¬ input.Reads buffer capacity :=
        fun buffer capacity isRead => reads ⟨buffer, capacity, isRead⟩
      obtain ⟨noBuffer, isRun⟩ := loadFile_noReads filename noReads
      refine ⟨?_, ?_, ?_⟩
      · rw [isRun]
        nofun
      · rw [isRun]
        nofun
      · rw [noBuffer]
        nofun

/-! ### `load_kernel_file` on any device -/

def KernelInput.delivered (input : KernelInput) (maxsize : Nat) : Nat :=
  deliveredFrom maxsize (input.reads.map Int.toNat) 0

structure KernelInput.Reads (input : KernelInput) (hasSize : Bool)
    (buffer maxsize : Nat) : Prop where
  hasSize : hasSize = true
  opened : input.opened = true
  obtained : input.buffer = some (buffer, maxsize)
  usable : input.loaderEnd ≤ buffer

/-- The file does not just fill the buffer, and the reads deliver the whole file
or, of a larger one, the whole buffer. -/
structure KernelInput.Delivers (input : KernelInput) (maxsize : Nat) : Prop where
  notFull : input.length ≠ maxsize
  whole : input.delivered maxsize = input.length ∨ input.delivered maxsize = maxsize

theorem obtainBuffer_large {memalign : Nat → Option Nat} {tries buffer maxsize : Nat}
    (obtained : obtainBuffer memalign tries = some (buffer, maxsize)) :
    1024 * 1024 + 512 * 1024 ≤ maxsize := by
  induction tries with
  | zero => cases obtained
  | succ tries ih =>
      unfold obtainBuffer at obtained
      dsimp only at obtained
      split at obtained
      · obtain ⟨_buffer, rfl⟩ := Prod.mk.inj (Option.some.inj obtained)
        omega
      · exact ih obtained

def KernelInput.run (input : KernelInput) (maxsize : Nat) : ReadRun :=
  kernelLoop maxsize input.reads 0 chunk

theorem KernelInput.run_delivered {input : KernelInput} {buffer maxsize : Nat}
    (obtained : input.buffer = some (buffer, maxsize)) :
    (input.run maxsize).pos = input.delivered maxsize ∧
      (input.run maxsize).ending =
        if input.delivered maxsize = maxsize then .tooBig else .finished := by
  have large := obtainBuffer_large obtained
  apply kernelLoop_delivered (by omega) _ _ _ _ (by omega)
  unfold chunk
  omega

theorem loadKernelFile_reads (filename : Text) {hasSize : Bool} {input : KernelInput}
    {buffer maxsize : Nat} (reads : input.Reads hasSize buffer maxsize) :
    loadKernelFile filename hasSize input =
      match (input.run maxsize).ending with
      | .finished =>
          { buffer := some (input.realloc (input.run maxsize).pos)
            size := some (input.run maxsize).pos
            run := input.run maxsize
            errors := [] }
      | .tooBig =>
          { buffer := none
            size := none
            run := input.run maxsize
            errors := tooBigErrors filename maxsize }
      | .dividedByZero =>
          { buffer := none, size := none, run := input.run maxsize, errors := [] } := by
  unfold loadKernelFile
  rw [if_neg (by simp [reads.hasSize]), if_neg (by simp [reads.opened]), reads.obtained]
  dsimp only
  rw [if_neg (Nat.not_lt.mpr reads.usable)]
  rfl

theorem loadKernelFile_noReads (filename : Text) {hasSize : Bool} {input : KernelInput}
    (noReads : ∀ buffer maxsize, ¬ input.Reads hasSize buffer maxsize) :
    (loadKernelFile filename hasSize input).buffer = none ∧
      (loadKernelFile filename hasSize input).run = noRun := by
  unfold loadKernelFile
  split <;> rename_i noSize
  · exact ⟨rfl, rfl⟩
  split <;> rename_i isClosed
  · exact ⟨rfl, rfl⟩
  split
  · exact ⟨rfl, rfl⟩
  · rename_i buffer maxsize obtained
    split <;> rename_i unusable
    · exact ⟨rfl, rfl⟩
    · exact absurd ⟨by simpa using noSize, by simpa using isClosed, obtained,
        Nat.le_of_not_lt unusable⟩ (noReads buffer maxsize)

theorem KernelInput.run_inside {input : KernelInput} {buffer maxsize : Nat}
    (obtained : input.buffer = some (buffer, maxsize)) :
    ∀ piece ∈ (input.run maxsize).pieces, piece.1 + piece.2 ≤ maxsize := by
  have fromStart : (input.run maxsize).From 0 := kernelLoop_from _ _ _ _
  apply (fromStart.inside_iff maxsize).mpr
  rw [(input.run_delivered obtained).1]
  have bounded := deliveredFrom_le maxsize (input.reads.map Int.toNat) 0
  unfold KernelInput.delivered
  omega

/-- A file that fills the buffer is refused. -/
theorem kernelRight_full (filename : Text) {hasSize : Bool} {input : KernelInput}
    {buffer maxsize : Nat} (reads : input.Reads hasSize buffer maxsize)
    (full : input.delivered maxsize = maxsize) :
    KernelRight filename hasSize input ↔ input.Delivers maxsize := by
  have ending := (input.run_delivered reads.obtained).2
  have result := loadKernelFile_reads filename reads
  rw [if_pos full] at ending
  rw [ending] at result
  constructor
  · intro right
    refine ⟨?_, Or.inr full⟩
    intro same
    apply right.accepts buffer maxsize reads.hasSize reads.opened reads.obtained
      reads.usable (full.trans same.symm) (Nat.le_of_eq same)
    rw [result]
  · intro delivers
    refine ⟨⟨?_, ?_, ?_⟩, ?_⟩
    · rw [result, reads.obtained]
      exact input.run_inside reads.obtained
    · rw [result]
      change (input.run maxsize).ending ≠ _
      rw [ending]
      nofun
    · rw [result]
      nofun
    · intro buffer' maxsize' _hasSize _opened obtained _usable delivered _fits
      rw [reads.obtained] at obtained
      obtain ⟨_same, rfl⟩ := Prod.mk.inj (Option.some.inj obtained)
      exact absurd (delivered.symm.trans full) delivers.notFull

/-- Other files are accepted with what the reads delivered. -/
theorem kernelRight_notFull (filename : Text) {hasSize : Bool}
    {input : KernelInput} {buffer maxsize : Nat}
    (reads : input.Reads hasSize buffer maxsize)
    (notFull : input.delivered maxsize ≠ maxsize) :
    KernelRight filename hasSize input ↔ input.Delivers maxsize := by
  have fromStart : (input.run maxsize).From 0 := kernelLoop_from _ _ _ _
  obtain ⟨pos, ending⟩ := input.run_delivered reads.obtained
  have result := loadKernelFile_reads filename reads
  rw [if_neg notFull] at ending
  rw [ending] at result
  constructor
  · intro right
    have complete := right.load.complete _ (congrArg LoadResult.buffer result)
    rw [result] at complete
    have same : input.delivered maxsize = input.length := by
      have size := Int.ofNat_inj.mp (Option.some.inj complete.1)
      rw [← size, pos]
    exact ⟨fun isFull => notFull (same.trans isFull), Or.inl same⟩
  · intro delivers
    have whole := delivers.whole.resolve_right notFull
    refine ⟨⟨?_, ?_, ?_⟩, ?_⟩
    · rw [result, reads.obtained]
      exact input.run_inside reads.obtained
    · rw [result]
      change (input.run maxsize).ending ≠ _
      rw [ending]
      nofun
    · intro address _returned
      rw [result]
      refine ⟨?_, ?_⟩
      · dsimp only
        rw [pos, whole]
      · apply (fromStart.whole_iff input.stream input.length).mpr
        rw [pos, whole]
    · intro buffer' maxsize' _hasSize _opened _obtained _usable _delivered _fits
      rw [result]
      nofun

theorem loadKernelFile_delivers_iff (filename : Text) {hasSize : Bool}
    {input : KernelInput} {buffer maxsize : Nat}
    (reads : input.Reads hasSize buffer maxsize) :
    KernelRight filename hasSize input ↔ input.Delivers maxsize := by
  by_cases full : input.delivered maxsize = maxsize
  · exact kernelRight_full filename reads full
  · exact kernelRight_notFull filename reads full

theorem kernelRight_iff (filename : Text) (hasSize : Bool) (input : KernelInput) :
    KernelRight filename hasSize input ↔
      ∀ buffer maxsize, input.Reads hasSize buffer maxsize → input.Delivers maxsize := by
  constructor
  · intro right buffer maxsize reads
    exact (loadKernelFile_delivers_iff filename reads).mp right
  · intro delivers
    by_cases reads : ∃ buffer maxsize, input.Reads hasSize buffer maxsize
    · obtain ⟨buffer, maxsize, reads⟩ := reads
      exact (loadKernelFile_delivers_iff filename reads).mpr (delivers buffer maxsize reads)
    · have noReads : ∀ buffer maxsize, ¬ input.Reads hasSize buffer maxsize :=
        fun buffer maxsize isRead => reads ⟨buffer, maxsize, isRead⟩
      obtain ⟨noBuffer, isRun⟩ := loadKernelFile_noReads filename noReads
      refine ⟨⟨?_, ?_, ?_⟩, ?_⟩
      · rw [isRun]
        nofun
      · rw [isRun]
        nofun
      · rw [noBuffer]
        nofun
      · intro buffer maxsize isSize opened obtained usable
        exact absurd ⟨isSize, opened, obtained, usable⟩ (noReads buffer maxsize)

/-- 50 bytes that come in two reads. -/
def smallFile : FileInput :=
  { size := some 0
    addr := none
    opened := true
    filesize := 50
    stream := fun _ => 0
    reads := [10, 40]
    memalign := fun _ => some 0x600000
    loaderEnd := 0x500000 }

/-- A kernel in a console with one and a half MByte left. -/
def kernelOf (length : Nat) (reads : List Int) : KernelInput :=
  { opened := true
    length := length
    stream := fun _ => 0
    reads := reads
    memalign := fun size => if size = 1572864 then some 0x600000 else none
    loaderEnd := 0x500000
    realloc := fun _ => 0x600000 }

theorem kernelOf_reads (length : Nat) (reads : List Int) :
    (kernelOf length reads).Reads true 0x600000 1572864 where
  hasSize := rfl
  opened := rfl
  obtained := by
    change obtainBuffer (fun size => if size = 1572864 then some 0x600000 else none) 254 =
      some (0x600000, 1572864)
    decide +kernel
  usable := by
    change 0x500000 ≤ 0x600000
    decide

end KernelReloaded.FileLoading

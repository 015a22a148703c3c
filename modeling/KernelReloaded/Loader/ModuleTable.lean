/-
The IOP module table: `loadModules` before the IOP reset, `startModules` after.

`loadModules` fills the buffers of the table, `startModules` hands them to
`SifExecModuleBuffer` once the IOP has been reset.  The two loops skip entries
by different conditions.  An attempt to boot fixes what the rest of the loader
answers; a table can have gone through any number of attempts before.  Log
output is not part of the model, queued error messages are.
-/

import KernelReloaded.Core.CLines
import KernelReloaded.Loader.BootLayout

namespace KernelReloaded.Modules

open CText Boot

/-! ### The table and the ROM files -/

/-- `moduleEntry_t`, without the fields only the default selection reads.  Flags
keep the `int` values of the source; `NULL` is `none`. -/
structure ModuleEntry where
  path : Text
  buffer : Option Nat
  size : Int
  buffered : Int
  argLen : Int
  args : Option Text
  load : Int
  allocated : Int
  ps2smap : Int
  dev9init : Int
  libsd : Int
  network : Int
  dev9 : Int
  eromdrv : Int
  optional : Int
  deriving DecidableEq

structure RomEntry where
  filename : Text
  start : Option Nat
  size : Int

/-- The list of ROM files ends at the first entry without a start address. -/
def romGetFile : List RomEntry → Text → Option (Nat × Int)
  | [], _ => none
  | entry :: rest, filename =>
      match entry.start with
      | none => none
      | some start =>
          if entry.filename = filename then some (start, entry.size)
          else romGetFile rest filename

structure BootInfo where
  pccardType : Int
  pcicType : Int
  deriving DecidableEq

/-- What one attempt to boot meets: the ROM files, the file system and heap at
each `load_file`, the console, the configuration and the answers of the IOP. -/
structure Attempt where
  romFiles : List RomEntry
  platform : Nat → Platform
  hasNetworkSupport : Bool
  isDVDVSupported : Bool
  isSlimPSTwo : Bool
  ps2dev9Probed : Int
  enableDev9 : Int
  patchLibsd : Int
  eromdrvPath : Text
  ps2smapParameter : Text × Int
  pcicType : Text
  sifExecModuleBuffer : Nat → Int × Int
  sifLoadModule : Nat → Int

/-! ### `loadModules` -/

/-- A buffer and size that `rom_getFile` or `load_file` delivered for a module. -/
structure Obtained where
  module : Nat
  address : Nat
  size : Int
  deriving DecidableEq

structure LoadStep where
  entry : ModuleEntry
  failed : Bool
  obtained : List Obtained
  patched : List Obtained
  errors : List Text

def hostPath : Text := ['h', 'o', 's', 't', ':']

def lookupRom (attempt : Attempt) (entry : ModuleEntry) :
    Option (Nat × Int) :=
  if hostPath.isPrefixOf entry.path then
    romGetFile attempt.romFiles (entry.path.drop 5)
  else none

def loadFromFile (attempt : Attempt) (module : Nat) (entry : ModuleEntry) :
    LoadResult :=
  loadFile (attempt.platform module) entry.path (some entry.size) none

def loadModule (attempt : Attempt) (module : Nat) (entry : ModuleEntry) :
    LoadStep :=
  let unchanged : LoadStep :=
    { entry := entry, failed := false, obtained := [], patched := []
      errors := [] }
  if entry.network ≠ 0 ∧ attempt.hasNetworkSupport = false then unchanged
  else if entry.buffered ≠ 0 ∧ entry.load ≠ 0 then
    match lookupRom attempt entry with
    | some (start, size) =>
        { unchanged with
          entry :=
            { entry with allocated := 0, buffer := some start, size := size }
          obtained := [{ module := module, address := start, size := size }] }
    | none =>
        let result := loadFromFile attempt module entry
        -- `load_file` stores the size through the pointer also when it fails
        -- after opening the file.
        let size := result.size.getD entry.size
        let loaded := { entry with buffer := result.buffer, size := size }
        match result.buffer with
        | none =>
            if entry.optional ≠ 0 then
              { unchanged with entry := loaded, errors := result.error.toList }
            else
              { unchanged with
                entry := loaded
                failed := true
                errors := result.error.toList ++
                  ["Failed to load module '".toList ++ entry.path ++
                    "'.".toList] }
        | some address =>
            let own : Obtained :=
              { module := module, address := address, size := size }
            { unchanged with
              entry := { loaded with allocated := 1 }
              obtained := [own]
              patched :=
                if entry.libsd ≠ 0 ∧ attempt.patchLibsd ≠ 0 then [own] else [] }
  else { unchanged with entry := { entry with buffer := none } }

/-- The clean-up of a failed load.  The source frees the local `buffer`, which
is `NULL` there, and clears the buffer of the failed entry, which is `NULL`
too; what remains of the loop is that the earlier entries lose their flag. -/
def releaseEarlier (done : List ModuleEntry) : List ModuleEntry :=
  done.map fun entry =>
    if entry.buffered ≠ 0 ∧ entry.load ≠ 0 ∧ entry.allocated ≠ 0 then
      { entry with allocated := 0 }
    else entry

structure LoadRun where
  code : Int
  modules : List ModuleEntry
  obtained : List Obtained
  patched : List Obtained
  errors : List Text

def loadLoop (attempt : Attempt) :
    (done rest : List ModuleEntry) → LoadRun
  | done, [] =>
      { code := 0, modules := done, obtained := [], patched := []
        errors := [] }
  | done, entry :: rest =>
      let step := loadModule attempt done.length entry
      if step.failed then
        { code := -1, modules := releaseEarlier done ++ step.entry :: rest
          obtained := step.obtained, patched := step.patched
          errors := step.errors }
      else
        let run := loadLoop attempt (done ++ [step.entry]) rest
        { run with
          obtained := step.obtained ++ run.obtained
          patched := step.patched ++ run.patched
          errors := step.errors ++ run.errors }

def loadModules (attempt : Attempt) (modules : List ModuleEntry) : LoadRun :=
  loadLoop attempt [] modules

/-! ### `startModules` -/

def dev9Matches (attempt : Attempt) (entry : ModuleEntry) : Bool :=
  if entry.dev9 = 0 then true
  else
    let available :=
      if attempt.isSlimPSTwo then attempt.enableDev9 != 0
      else attempt.enableDev9 != 0 && decide (0 < attempt.ps2dev9Probed)
    entry.dev9 == if available then 1 else -1

/-- The calls that start code on the IOP, with the entry they are made for. -/
inductive IopCall where
  | sifExecModuleBuffer (module : Nat) (buffer : Option Nat) (size : Int)
      (argLen : Int) (args : Option Text)
  | sifLoadModule (module : Nat) (path : Text) (argLen : Int)
      (args : Option Text)
  deriving DecidableEq

/-- The entry passes every test of the loop in front of its start. -/
def isStarted (attempt : Attempt) (entry : ModuleEntry) : Bool :=
  entry.load != 0 && (entry.eromdrv == 0 || attempt.isDVDVSupported) &&
    (entry.network == 0 || attempt.hasNetworkSupport) &&
    dev9Matches attempt entry

/-- The arguments the loop writes into the entry on its way. -/
def setArguments (attempt : Attempt) (entry : ModuleEntry) : ModuleEntry :=
  let entry :=
    if entry.load ≠ 0 ∧ entry.eromdrv ≠ 0 ∧ attempt.isDVDVSupported then
      { entry with
        args := some attempt.eromdrvPath
        argLen := attempt.eromdrvPath.length + 1 }
    else entry
  if isStarted attempt entry ∧ entry.ps2smap ≠ 0 then
    { entry with
      args := some attempt.ps2smapParameter.1
      argLen := attempt.ps2smapParameter.2 }
  else entry

def startCall (attempt : Attempt) (module : Nat) (entry : ModuleEntry) :
    Option IopCall :=
  let entry := setArguments attempt entry
  if isStarted attempt entry then
    if entry.buffered ≠ 0 then
      some (.sifExecModuleBuffer module entry.buffer entry.size entry.argLen
        entry.args)
    else some (.sifLoadModule module entry.path entry.argLen entry.args)
  else none

/-- What a started module does to the boot information and the code the loop
judges it by. -/
def startResult (attempt : Attempt) (module : Nat) (entry : ModuleEntry)
    (bootinfo : BootInfo) : BootInfo × Int :=
  if entry.buffered ≠ 0 then
    let (ret, rv) := attempt.sifExecModuleBuffer module
    if ret < 0 then (bootinfo, ret)
    else if entry.dev9init ≠ 0 then
      if rv < 0 then ({ bootinfo with pccardType := 0 }, 0)
      else if attempt.enableDev9 ≠ 0 ∧ attempt.hasNetworkSupport then
        ({ pccardType := 0x0100
           pcicType :=
            if 0 < attempt.pcicType.length then atoi attempt.pcicType
            else rv }, 0)
      else (bootinfo, 0)
    else (bootinfo, rv)
  else (bootinfo, attempt.sifLoadModule module)

def startError (entry : ModuleEntry) (rv : Int) : List Text :=
  if rv < 0 ∧ entry.optional = 0 then
    ["Failed to start module \"".toList ++
      (if entry.eromdrv ≠ 0 then entry.args.getD [] else entry.path) ++
      "\" (rv = ".toList ++ formatInt rv ++ ").".toList]
  else []

structure StartRun where
  modules : List ModuleEntry
  calls : List IopCall
  bootinfo : BootInfo
  errors : List Text

def startLoop (attempt : Attempt) :
    (module : Nat) → BootInfo → List ModuleEntry → StartRun
  | _, bootinfo, [] =>
      { modules := [], calls := [], bootinfo := bootinfo, errors := [] }
  | module, bootinfo, entry :: rest =>
      let started := isStarted attempt entry
      let set := setArguments attempt entry
      let result :=
        if started then startResult attempt module set bootinfo
        else (bootinfo, 0)
      let run := startLoop attempt (module + 1) result.1 rest
      { modules := set :: run.modules
        calls := (startCall attempt module entry).toList ++ run.calls
        bootinfo := run.bootinfo
        errors := startError set result.2 ++ run.errors }

def startModules (attempt : Attempt) (bootinfo : BootInfo)
    (modules : List ModuleEntry) : StartRun :=
  startLoop attempt 0 bootinfo modules

/-! ### Attempts to boot -/

/-- The menu and the configuration choose the modules to load. -/
def selectModules (loads : Nat → Int) (modules : List ModuleEntry) :
    List ModuleEntry :=
  modules.mapIdx fun module entry => { entry with load := loads module }

/-- An attempt that came back to the menu.  It can have failed in
`loadModules`, or later, before or after the modules were started. -/
structure EarlierAttempt where
  attempt : Attempt
  loads : Nat → Int
  reachedStart : Bool
  bootinfo : BootInfo

def afterAttempt (modules : List ModuleEntry) (earlier : EarlierAttempt) :
    List ModuleEntry :=
  let run := loadModules earlier.attempt (selectModules earlier.loads modules)
  if run.code = 0 ∧ earlier.reachedStart then
    (startModules earlier.attempt earlier.bootinfo run.modules).modules
  else run.modules

def afterAttempts (modules : List ModuleEntry)
    (earlier : List EarlierAttempt) : List ModuleEntry :=
  earlier.foldl afterAttempt modules

/-- Every module started from a buffer is started from the buffer and size
that `loadModules` obtained for it in the same attempt. -/
def StartsOwnBuffers (attempt : Attempt) (bootinfo : BootInfo)
    (modules : List ModuleEntry) : Prop :=
  let loaded := loadModules attempt modules
  ∀ module buffer size argLen args,
    IopCall.sifExecModuleBuffer module buffer size argLen args ∈
        (startModules attempt bootinfo loaded.modules).calls →
      ∃ address, buffer = some address ∧
        { module := module, address := address, size := size } ∈
          loaded.obtained

/-- An optional module that `startModules` would start from a buffer and that
neither the ROM files nor `load_file` deliver. -/
def MissingOptional (attempt : Attempt) (module : Nat)
    (entry : ModuleEntry) : Prop :=
  isStarted attempt entry = true ∧ entry.buffered ≠ 0 ∧
    entry.optional ≠ 0 ∧ lookupRom attempt entry = none ∧
    (loadFromFile attempt module entry).buffer = none

/-! ### One entry -/

/-- The entry passes the tests in front of a load. -/
def IsTried (attempt : Attempt) (entry : ModuleEntry) : Prop :=
  ¬ (entry.network ≠ 0 ∧ attempt.hasNetworkSupport = false) ∧
    entry.buffered ≠ 0 ∧ entry.load ≠ 0

instance (attempt : Attempt) (entry : ModuleEntry) :
    Decidable (IsTried attempt entry) :=
  inferInstanceAs (Decidable (_ ∧ _))

/-- What can happen to an entry: no load, a ROM file, a loaded file, no file. -/
theorem loadModule_cases (attempt : Attempt) (module : Nat)
    (entry : ModuleEntry) :
    let step := loadModule attempt module entry
    (¬ IsTried attempt entry ∧ step.failed = false ∧
      ∃ buffer, step.entry = { entry with buffer := buffer }) ∨
    (IsTried attempt entry ∧ step.failed = false ∧
      ∃ found, lookupRom attempt entry = some found ∧
        step.entry = { entry with
          allocated := 0, buffer := some found.1, size := found.2 } ∧
        step.obtained =
          [{ module := module, address := found.1, size := found.2 }]) ∨
    (IsTried attempt entry ∧ lookupRom attempt entry = none ∧
      step.failed = false ∧
      ∃ address size,
        (loadFromFile attempt module entry).buffer = some address ∧
        step.entry = { entry with
          buffer := some address, size := size, allocated := 1 } ∧
        step.obtained =
          [{ module := module, address := address, size := size }]) ∨
    (IsTried attempt entry ∧ lookupRom attempt entry = none ∧
      (loadFromFile attempt module entry).buffer = none ∧
      step.failed = decide (entry.optional = 0) ∧
      ∃ size, step.entry = { entry with buffer := none, size := size }) := by
  unfold loadModule
  by_cases tried : IsTried attempt entry
  · simp only [tried, not_true_eq_false, false_and, true_and, false_or]
    obtain ⟨online, loads⟩ := tried
    rw [if_neg online, if_pos loads]
    cases rom : lookupRom attempt entry with
    | some found =>
        exact Or.inl ⟨rfl, found, rfl, rfl, rfl⟩
    | none =>
        right
        dsimp only
        cases file : (loadFromFile attempt module entry).buffer with
        | some address =>
            exact Or.inl ⟨rfl, rfl, address, _, rfl, rfl, rfl⟩
        | none =>
            right
            refine ⟨rfl, rfl, ?_⟩
            by_cases required : entry.optional = 0
            · rw [if_neg (not_not.mpr required)]
              exact ⟨(decide_eq_true required).symm, _, rfl⟩
            · rw [if_pos required]
              exact ⟨(decide_eq_false required).symm, _, rfl⟩
  · refine Or.inl ⟨tried, ?_⟩
    by_cases offline : entry.network ≠ 0 ∧ attempt.hasNetworkSupport = false
    · rw [if_pos offline]
      exact ⟨rfl, entry.buffer, rfl⟩
    · rw [if_neg offline, if_neg fun loads => tried ⟨offline, loads⟩]
      exact ⟨rfl, none, rfl⟩

/-- `loadModules` writes the buffer, its size and the allocation flag only. -/
theorem loadModule_entry (attempt : Attempt) (module : Nat)
    (entry : ModuleEntry) :
    ∃ buffer size allocated, (loadModule attempt module entry).entry =
      { entry with buffer := buffer, size := size, allocated := allocated } := by
  rcases loadModule_cases attempt module entry with
    ⟨-, -, buffer, same⟩ | ⟨-, -, found, -, same, -⟩ |
      ⟨-, -, -, address, size, -, same, -⟩ | ⟨-, -, -, -, size, same⟩
  · exact ⟨buffer, entry.size, entry.allocated, same⟩
  · exact ⟨some found.1, found.2, 0, same⟩
  · exact ⟨some address, size, 1, same⟩
  · exact ⟨none, size, entry.allocated, same⟩

theorem setArguments_entry (attempt : Attempt) (entry : ModuleEntry) :
    ∃ argLen args, setArguments attempt entry =
      { entry with argLen := argLen, args := args } := by
  unfold setArguments
  simp only
  split <;> split <;> exact ⟨_, _, rfl⟩

/-- The tests in front of a start read none of the fields the loops write. -/
theorem isStarted_rewritten (attempt : Attempt) (entry : ModuleEntry)
    (buffer : Option Nat) (size allocated argLen : Int)
    (args : Option Text) :
    isStarted attempt
        { entry with
          buffer := buffer, size := size, allocated := allocated
          argLen := argLen, args := args } =
      isStarted attempt entry := rfl

theorem isStarted_loadModule (attempt : Attempt) (module : Nat)
    (entry : ModuleEntry) :
    isStarted attempt (loadModule attempt module entry).entry =
      isStarted attempt entry := by
  obtain ⟨buffer, size, allocated, written⟩ :=
    loadModule_entry attempt module entry
  rw [written]
  exact isStarted_rewritten attempt entry buffer size allocated _ _

theorem buffered_loadModule (attempt : Attempt) (module : Nat)
    (entry : ModuleEntry) :
    (loadModule attempt module entry).entry.buffered = entry.buffered := by
  obtain ⟨buffer, size, allocated, written⟩ :=
    loadModule_entry attempt module entry
  rw [written]

/-- A call on a buffer is made exactly for the started, buffered entries, with
the buffer and size that stand in the table. -/
theorem startCall_execBuffer (attempt : Attempt) (module called : Nat)
    (entry : ModuleEntry) (buffer : Option Nat) (size argLen : Int)
    (args : Option Text)
    (call : startCall attempt module entry =
      some (.sifExecModuleBuffer called buffer size argLen args)) :
    isStarted attempt entry = true ∧ entry.buffered ≠ 0 ∧
      called = module ∧ buffer = entry.buffer ∧ size = entry.size := by
  obtain ⟨setLen, setArgs, written⟩ := setArguments_entry attempt entry
  unfold startCall at call
  simp only [written] at call
  split at call
  case isFalse => cases call
  case isTrue started =>
    split at call
    case isFalse => cases call
    case isTrue buffered =>
      cases call
      exact ⟨started, buffered, rfl, rfl, rfl⟩

theorem startCall_of_started (attempt : Attempt) (module : Nat)
    (entry : ModuleEntry) (started : isStarted attempt entry = true)
    (buffered : entry.buffered ≠ 0) :
    ∃ argLen args, startCall attempt module entry =
      some (.sifExecModuleBuffer module entry.buffer entry.size argLen args) := by
  obtain ⟨argLen, args, written⟩ := setArguments_entry attempt entry
  refine ⟨argLen, args, ?_⟩
  have stillStarted : isStarted attempt (setArguments attempt entry) = true := by
    rw [written]
    exact started
  unfold startCall
  simp only [stillStarted, if_true]
  rw [written]
  exact if_pos buffered

/-- A started entry has passed the tests of `loadModules` as well. -/
theorem isStarted_iff (attempt : Attempt) (entry : ModuleEntry) :
    isStarted attempt entry = true ↔
      entry.load ≠ 0 ∧
        (entry.eromdrv = 0 ∨ attempt.isDVDVSupported = true) ∧
        (entry.network = 0 ∨ attempt.hasNetworkSupport = true) ∧
        dev9Matches attempt entry = true := by
  unfold isStarted
  simp only [Bool.and_eq_true, Bool.or_eq_true, bne_iff_ne, beq_iff_eq,
    and_assoc]

/-- What `loadModules` leaves for an entry that will be started from its
buffer: a delivered buffer, a failure, or the gap of an optional module. -/
theorem loadModule_of_started (attempt : Attempt) (module : Nat)
    (entry : ModuleEntry) (started : isStarted attempt entry = true)
    (buffered : entry.buffered ≠ 0) :
    (∃ address size,
        (loadModule attempt module entry).entry.buffer = some address ∧
        (loadModule attempt module entry).entry.size = size ∧
        (loadModule attempt module entry).obtained =
          [{ module := module, address := address, size := size }] ∧
        ¬ MissingOptional attempt module entry) ∨
      ((loadModule attempt module entry).failed = true ∧
        ¬ MissingOptional attempt module entry) ∨
      ((loadModule attempt module entry).entry.buffer = none ∧
        MissingOptional attempt module entry) := by
  obtain ⟨load, _erom, network, _dev9⟩ := (isStarted_iff attempt entry).mp started
  have tried : IsTried attempt entry := by
    refine ⟨?_, buffered, load⟩
    intro offline
    rcases network with unneeded | available
    · exact offline.1 unneeded
    · rw [available] at offline
      cases offline.2
  rcases loadModule_cases attempt module entry with
    ⟨notTried, -⟩ | ⟨-, -, found, rom, same, obtained⟩ |
      ⟨-, noRom, -, address, size, file, same, obtained⟩ |
      ⟨-, noRom, noFile, failed, size, same⟩
  · exact absurd tried notTried
  · refine Or.inl ⟨found.1, found.2, by rw [same], by rw [same], obtained, ?_⟩
    intro missing
    rw [MissingOptional, rom] at missing
    cases missing.2.2.2.1
  · refine Or.inl ⟨address, size, by rw [same], by rw [same], obtained, ?_⟩
    intro missing
    rw [MissingOptional, file] at missing
    cases missing.2.2.2.2
  · by_cases required : entry.optional = 0
    · refine Or.inr (Or.inl ⟨by rw [failed, decide_eq_true required], ?_⟩)
      intro missing
      exact missing.2.2.1 required
    · exact Or.inr (Or.inr ⟨by rw [same],
        started, buffered, required, noRom, noFile⟩)

/-! ### The two loops -/

/-- A load that returns zero has gone through every entry without a failure. -/
theorem loadLoop_success (attempt : Attempt)
    (done rest : List ModuleEntry)
    (succeeded : (loadLoop attempt done rest).code = 0) :
    (loadLoop attempt done rest).modules =
        done ++ rest.mapIdx fun offset entry =>
          (loadModule attempt (done.length + offset) entry).entry := by
  induction rest generalizing done with
  | nil =>
      rw [List.mapIdx_nil, List.append_nil]
      rfl
  | cons entry rest ih =>
      cases failed : (loadModule attempt done.length entry).failed with
      | true =>
          simp only [loadLoop, failed, if_true] at succeeded
          cases succeeded
      | false =>
          simp only [loadLoop, failed, Bool.false_eq_true, if_false]
            at succeeded ⊢
          rw [ih _ succeeded, List.mapIdx_cons, List.append_assoc,
            List.singleton_append, List.length_append, List.length_singleton]
          simp only [Nat.add_zero, Nat.add_assoc, Nat.add_comm 1]

theorem loadLoop_success_entry (attempt : Attempt)
    (done rest : List ModuleEntry)
    (succeeded : (loadLoop attempt done rest).code = 0)
    (offset : Nat) (entry : ModuleEntry)
    (found : rest[offset]? = some entry) :
    (loadModule attempt (done.length + offset) entry).failed = false ∧
      ∀ own ∈ (loadModule attempt (done.length + offset) entry).obtained,
        own ∈ (loadLoop attempt done rest).obtained := by
  induction rest generalizing done offset with
  | nil =>
      cases found
  | cons head rest ih =>
      cases failed : (loadModule attempt done.length head).failed with
      | true =>
          simp only [loadLoop, failed, if_true] at succeeded
          cases succeeded
      | false =>
          simp only [loadLoop, failed, Bool.false_eq_true, if_false]
            at succeeded ⊢
          cases offset with
          | zero =>
              cases found
              refine ⟨failed, ?_⟩
              intro own member
              exact List.mem_append_left _ member
          | succ offset =>
              have later := ih _ succeeded offset found
              rw [List.length_append, List.length_singleton, Nat.add_assoc,
                Nat.add_comm 1 offset] at later
              refine ⟨later.1, ?_⟩
              intro own member
              exact List.mem_append_right _ (later.2 own member)

theorem mem_startLoop_calls (attempt : Attempt) (first : Nat)
    (bootinfo : BootInfo) (modules : List ModuleEntry) (call : IopCall) :
    call ∈ (startLoop attempt first bootinfo modules).calls ↔
      ∃ offset entry, modules[offset]? = some entry ∧
        startCall attempt (first + offset) entry = some call := by
  induction modules generalizing first bootinfo with
  | nil =>
      simp [startLoop]
  | cons head rest ih =>
      simp only [startLoop, List.mem_append, Option.mem_toList, ih]
      constructor
      · intro made
        rcases made with atHead | ⟨offset, entry, found, called⟩
        · exact ⟨0, head, rfl, atHead⟩
        · refine ⟨offset + 1, entry, found, ?_⟩
          rw [Nat.add_comm offset 1, ← Nat.add_assoc]
          exact called
      · rintro ⟨offset, entry, found, called⟩
        cases offset with
        | zero =>
            cases found
            exact Or.inl called
        | succ offset =>
            refine Or.inr ⟨offset, entry, found, ?_⟩
            rw [Nat.add_assoc, Nat.add_comm 1 offset]
            exact called

/-! ### Which buffers are started -/

/-- The entries of the table after a successful load. -/
theorem loadModules_entry (attempt : Attempt) (modules : List ModuleEntry)
    (succeeded : (loadModules attempt modules).code = 0) (module : Nat) :
    (loadModules attempt modules).modules[module]? =
      (modules[module]?).map fun entry =>
        (loadModule attempt module entry).entry := by
  rw [loadModules, loadLoop_success attempt [] modules succeeded,
    List.nil_append, List.getElem?_mapIdx]
  simp only [List.length_nil, Nat.zero_add]

/-- A missing optional module is started all the same, without a buffer. -/
theorem startModules_of_missing (attempt : Attempt) (bootinfo : BootInfo)
    (modules : List ModuleEntry)
    (succeeded : (loadModules attempt modules).code = 0)
    {module : Nat} {entry : ModuleEntry} (found : modules[module]? = some entry)
    (missing : MissingOptional attempt module entry) :
    ∃ size argLen args, IopCall.sifExecModuleBuffer module none size argLen args ∈
      (startModules attempt bootinfo
        (loadModules attempt modules).modules).calls := by
  have started : isStarted attempt (loadModule attempt module entry).entry =
      true := by
    rw [isStarted_loadModule]
    exact missing.1
  have buffered :
      (loadModule attempt module entry).entry.buffered ≠ 0 := by
    rw [buffered_loadModule]
    exact missing.2.1
  have absent : (loadModule attempt module entry).entry.buffer = none := by
    rcases loadModule_of_started attempt module entry missing.1 missing.2.1
      with ⟨_, _, _, _, _, whole⟩ | ⟨_, whole⟩ | ⟨absent, _⟩
    · exact absurd missing whole
    · exact absurd missing whole
    · exact absent
  have loadedAt : (loadModules attempt modules).modules[module]? =
      some (loadModule attempt module entry).entry := by
    rw [loadModules_entry attempt modules succeeded, found, Option.map_some]
  obtain ⟨argLen, args, called⟩ := startCall_of_started attempt (0 + module)
    (loadModule attempt module entry).entry started buffered
  have made := (mem_startLoop_calls attempt 0 bootinfo
    (loadModules attempt modules).modules _).mpr ⟨module, _, loadedAt, called⟩
  rw [absent, Nat.zero_add] at made
  exact ⟨_, argLen, args, made⟩

/-- A module is started from a buffer obtained for it, or it is missing. -/
theorem startModules_cases (attempt : Attempt) (bootinfo : BootInfo)
    (modules : List ModuleEntry)
    (succeeded : (loadModules attempt modules).code = 0)
    {module : Nat} {buffer : Option Nat} {size argLen : Int}
    {args : Option Text}
    (made : IopCall.sifExecModuleBuffer module buffer size argLen args ∈
      (startModules attempt bootinfo
        (loadModules attempt modules).modules).calls) :
    (∃ address, buffer = some address ∧
        { module := module, address := address, size := size } ∈
          (loadModules attempt modules).obtained) ∨
      ∃ entry, modules[module]? = some entry ∧
        MissingOptional attempt module entry := by
  obtain ⟨offset, loaded, found, called⟩ :=
    (mem_startLoop_calls attempt 0 bootinfo _ _).mp made
  rw [Nat.zero_add] at called
  obtain ⟨started, buffered, same, isBuffer, isSize⟩ :=
    startCall_execBuffer attempt offset module loaded buffer size argLen
      args called
  subst same
  rw [loadModules_entry attempt modules succeeded] at found
  obtain ⟨entry, entryAt, isLoaded⟩ := Option.map_eq_some_iff.mp found
  subst isLoaded
  rw [isStarted_loadModule] at started
  rw [buffered_loadModule] at buffered
  have processed := loadLoop_success_entry attempt [] modules succeeded
    module entry entryAt
  rw [List.length_nil, Nat.zero_add] at processed
  rcases loadModule_of_started attempt module entry started buffered
    with ⟨address, _, present, sized, delivered, _⟩ | ⟨failed, _⟩ |
      ⟨_, missing⟩
  · refine Or.inl ⟨address, isBuffer.trans present, ?_⟩
    apply processed.2
    rw [delivered, isSize, sized]
    exact List.mem_singleton_self _
  · rw [processed.1] at failed
    cases failed
  · exact Or.inr ⟨entry, entryAt, missing⟩

theorem startsOwnBuffers_iff (attempt : Attempt) (bootinfo : BootInfo)
    (modules : List ModuleEntry)
    (succeeded : (loadModules attempt modules).code = 0) :
    StartsOwnBuffers attempt bootinfo modules ↔
      ∀ module entry, modules[module]? = some entry →
        ¬ MissingOptional attempt module entry := by
  constructor
  · intro own module entry found missing
    obtain ⟨size, argLen, args, made⟩ := startModules_of_missing attempt
      bootinfo modules succeeded found missing
    obtain ⟨address, present, _obtained⟩ := own _ _ _ _ _ made
    cases present
  · intro whole module buffer size argLen args made
    rcases startModules_cases attempt bootinfo modules succeeded made with
      own | ⟨entry, found, missing⟩
    · exact own
    · exact absurd missing (whole module entry found)

/-- After any earlier attempts, a successful load is followed by starts of its
own buffers exactly when no optional module to be started is missing. -/
theorem startModules_ownBuffers_iff (initial : List ModuleEntry)
    (earlier : List EarlierAttempt) (loads : Nat → Int) (attempt : Attempt)
    (bootinfo : BootInfo)
    (succeeded : (loadModules attempt
      (selectModules loads (afterAttempts initial earlier))).code = 0) :
    StartsOwnBuffers attempt bootinfo
        (selectModules loads (afterAttempts initial earlier)) ↔
      ∀ module entry,
        (selectModules loads (afterAttempts initial earlier))[module]? =
            some entry →
          ¬ MissingOptional attempt module entry :=
  startsOwnBuffers_iff attempt bootinfo _ succeeded

/-! ### A shipped entry: the network driver that may be missing -/

/-- The `host:smaprpc.irx` entry as an attempt finds it. -/
def smaprpcEntry : ModuleEntry :=
  { path := "host:smaprpc.irx".toList
    buffer := none, size := 0, buffered := -1, argLen := 0, args := none
    load := 1, allocated := 0, ps2smap := 0, dev9init := 0, libsd := 0
    network := -1, dev9 := 1, eromdrv := 0, optional := 1 }

/-- A slim console with network whose only ROM files are the given ones and
where no file can be opened. -/
def slimAttempt (romFiles : List RomEntry) : Attempt :=
  { romFiles := romFiles
    platform := fun _ =>
      { file := none, memalign := fun _ => none, loaderEnd := 0x500000 }
    hasNetworkSupport := true, isDVDVSupported := true, isSlimPSTwo := true
    ps2dev9Probed := -1, enableDev9 := 1, patchLibsd := 0
    eromdrvPath := [], ps2smapParameter := ([], 0), pcicType := []
    sifExecModuleBuffer := fun _ => (0, 0), sifLoadModule := fun _ => 0 }

def smaprpcRom : RomEntry :=
  { filename := "smaprpc.irx".toList, start := some 0x600000, size := 4096 }

def emptyBootInfo : BootInfo := { pccardType := 0, pcicType := 0 }

/-- An attempt that found no module file and came back to the menu. -/
def missedAttempt : EarlierAttempt :=
  { attempt := slimAttempt [], loads := fun _ => 1, reachedStart := false
    bootinfo := emptyBootInfo }

def smaprpcTable : List ModuleEntry :=
  selectModules (fun _ => 1) (afterAttempts [smaprpcEntry] [missedAttempt])

theorem smaprpc_embedded_ownBuffers :
    StartsOwnBuffers (slimAttempt [smaprpcRom]) emptyBootInfo
      smaprpcTable := by
  refine (startModules_ownBuffers_iff [smaprpcEntry] [missedAttempt]
    (fun _ => 1) (slimAttempt [smaprpcRom]) emptyBootInfo
    (by decide +kernel)).mpr ?_
  intro module entry found missing
  have table : smaprpcTable = [smaprpcEntry] := by decide +kernel
  have embedded : lookupRom (slimAttempt [smaprpcRom]) smaprpcEntry =
      some (0x600000, 4096) := by
    decide +kernel
  have member := List.mem_of_getElem? found
  change entry ∈ smaprpcTable at member
  rw [table, List.mem_singleton] at member
  subst member
  have absent := missing.2.2.2.1
  rw [embedded] at absent
  cases absent

/-- Without the file the load succeeds and the start is made with `NULL`. -/
theorem smaprpc_absent_startsNull :
    ¬ ∀ initial earlier loads attempt bootinfo,
      (loadModules attempt
        (selectModules loads (afterAttempts initial earlier))).code = 0 →
      StartsOwnBuffers attempt bootinfo
        (selectModules loads (afterAttempts initial earlier)) := by
  intro always
  have own := always [smaprpcEntry] [] (fun _ => 1) (slimAttempt [])
    emptyBootInfo (by decide +kernel)
  obtain ⟨address, present, _obtained⟩ :=
    own 0 none 0 0 none (by decide +kernel)
  cases present

end KernelReloaded.Modules

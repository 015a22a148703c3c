/-
What `loadModules` releases when it fails.

The clean-up is modelled with its calls of `free` and with the variables it
changes.  It was written to free the buffers of the earlier entries, but works
on the `buffer` of the failed entry, which is `NULL`.
-/

import KernelReloaded.Loader.ModuleTable

namespace KernelReloaded.Modules

open CText Boot

/-! ### The clean-up -/

/-- The variable `buffer`, the failed entry, the entries before it and the
arguments `free` was called with. -/
structure CleanUp where
  buffer : Option Nat
  failed : ModuleEntry
  earlier : List ModuleEntry
  freed : List (Option Nat)

/-- The loop body for the next of the earlier entries. -/
def cleanUpStep (state : CleanUp) (entry : ModuleEntry) : CleanUp :=
  if entry.buffered ≠ 0 ∧ entry.load ≠ 0 ∧ entry.allocated ≠ 0 then
    { buffer := none
      failed := { state.failed with buffer := none }
      earlier := state.earlier ++ [{ entry with allocated := 0 }]
      freed := state.freed ++ [state.buffer] }
  else
    { state with earlier := state.earlier ++ [entry] }

def cleanUp (done : List ModuleEntry) (failed : ModuleEntry) : CleanUp :=
  done.foldl cleanUpStep
    { buffer := failed.buffer, failed := failed, earlier := [], freed := [] }

/-- What `load_file` allocates for an entry, also when it then finds the buffer
unusable and returns `NULL`. -/
def fileBuffer (attempt : Attempt) (module : Nat) (entry : ModuleEntry) :
    Option Nat :=
  if IsTried attempt entry ∧ lookupRom attempt entry = none then
    (attempt.platform module).file.bind fun file =>
      (attempt.platform module).memalign file.ftell
  else none

/-- The table with the buffers `load_file` allocated and the calls of `free`. -/
structure ReleaseRun where
  code : Int
  modules : List ModuleEntry
  allocated : List Nat
  freed : List (Option Nat)

def releaseLoop (attempt : Attempt) :
    (done rest : List ModuleEntry) → ReleaseRun
  | done, [] => { code := 0, modules := done, allocated := [], freed := [] }
  | done, entry :: rest =>
      let step := loadModule attempt done.length entry
      let own := (fileBuffer attempt done.length entry).toList
      if step.failed then
        let released := cleanUp done step.entry
        { code := -1, modules := released.earlier ++ released.failed :: rest
          allocated := own, freed := released.freed }
      else
        let run := releaseLoop attempt (done ++ [step.entry]) rest
        { run with allocated := own ++ run.allocated }

/-- `loadModules` with its allocations. -/
def loadModulesReleasing (attempt : Attempt) (modules : List ModuleEntry) :
    ReleaseRun :=
  releaseLoop attempt [] modules

/-- The buffers of `load_file` are freed once and forgotten, and no entry is
marked. -/
structure Released (run : ReleaseRun) : Prop where
  freedOnce : ∀ address, address ∈ run.allocated →
    run.freed.count (some address) = 1
  forgotten : ∀ entry, entry ∈ run.modules → ∀ address,
    address ∈ run.allocated ∨ some address ∈ run.freed →
      entry.buffer ≠ some address
  unmarked : ∀ entry, entry ∈ run.modules → entry.allocated = 0

/-- The entry makes `loadModules` fail: neither the ROM files nor `load_file`
have it, and it is not optional. -/
def Fails (attempt : Attempt) (module : Nat) (entry : ModuleEntry) : Prop :=
  IsTried attempt entry ∧ lookupRom attempt entry = none ∧
    (loadFromFile attempt module entry).buffer = none ∧ entry.optional = 0

/-- The first entry that fails stands behind `before`. -/
structure FirstFailure (attempt : Attempt) (before : List ModuleEntry)
    (entry : ModuleEntry) : Prop where
  passed : ∀ module earlier, before[module]? = some earlier →
    ¬ Fails attempt module earlier
  fails : Fails attempt before.length entry

/-- Nothing was allocated, and marks of earlier calls are in entries that the
clean-up looks at. -/
structure NothingToRelease (attempt : Attempt)
    (before : List ModuleEntry) (entry : ModuleEntry)
    (after : List ModuleEntry) : Prop where
  notAllocated : ∀ module earlier, before[module]? = some earlier →
    fileBuffer attempt module earlier = none
  notAllocatedHere : fileBuffer attempt before.length entry = none
  unmarkedBefore : ∀ earlier, earlier ∈ before →
    ¬ (earlier.buffered ≠ 0 ∧ earlier.load ≠ 0) → earlier.allocated = 0
  unmarkedHere : entry.allocated = 0
  unmarkedAfter : ∀ later, later ∈ after → later.allocated = 0

/-! ### The clean-up frees nothing -/

theorem withoutBuffer {entry : ModuleEntry} (noBuffer : entry.buffer = none) :
    { entry with buffer := none } = entry := by
  cases entry
  cases noBuffer
  rfl

theorem cleanUpStep_null (state : CleanUp) (entry : ModuleEntry)
    (null : state.buffer = none) (noBuffer : state.failed.buffer = none) :
    ∃ nulls, cleanUpStep state entry =
        { buffer := none, failed := state.failed
          earlier := state.earlier ++ releaseEarlier [entry]
          freed := state.freed ++ nulls } ∧
      ∀ argument, argument ∈ nulls → argument = none := by
  unfold cleanUpStep releaseEarlier
  rw [List.map_singleton]
  by_cases marked : entry.buffered ≠ 0 ∧ entry.load ≠ 0 ∧ entry.allocated ≠ 0
  · refine ⟨[state.buffer], ?_, ?_⟩
    · rw [if_pos marked, if_pos marked, withoutBuffer noBuffer]
    · intro argument member
      rw [List.mem_singleton.mp member, null]
  · refine ⟨[], ?_, fun argument member => by cases member⟩
    rw [if_neg marked, if_neg marked, List.append_nil, ← null]

theorem cleanUp_loop (done : List ModuleEntry) (state : CleanUp)
    (null : state.buffer = none) (noBuffer : state.failed.buffer = none)
    (nulls : ∀ argument, argument ∈ state.freed → argument = none) :
    (done.foldl cleanUpStep state).failed = state.failed ∧
      (done.foldl cleanUpStep state).earlier =
        state.earlier ++ releaseEarlier done ∧
      ∀ argument, argument ∈ (done.foldl cleanUpStep state).freed →
        argument = none := by
  induction done generalizing state with
  | nil =>
      exact ⟨rfl, (List.append_nil _).symm, nulls⟩
  | cons entry rest ih =>
      obtain ⟨more, step, moreNull⟩ :=
        cleanUpStep_null state entry null noBuffer
      have allNull : ∀ argument, argument ∈ state.freed ++ more →
          argument = none := by
        intro argument member
        rcases List.mem_append.mp member with old | new
        · exact nulls argument old
        · exact moreNull argument new
      obtain ⟨sameFailed, earlier, freed⟩ := ih
        { buffer := none, failed := state.failed
          earlier := state.earlier ++ releaseEarlier [entry]
          freed := state.freed ++ more } rfl noBuffer allNull
      rw [List.foldl_cons, step]
      refine ⟨sameFailed, ?_, freed⟩
      rw [earlier, List.append_assoc]
      rfl

/-- The failed entry has no buffer, so that only `NULL` is freed. -/
theorem cleanUp_null (done : List ModuleEntry) {failed : ModuleEntry}
    (noBuffer : failed.buffer = none) :
    (cleanUp done failed).failed = failed ∧
      (cleanUp done failed).earlier = releaseEarlier done ∧
      ∀ argument, argument ∈ (cleanUp done failed).freed → argument = none :=
  cleanUp_loop done _ noBuffer noBuffer fun _argument member => by cases member

/-! ### One entry -/

theorem loadModule_of_fails {attempt : Attempt} {module : Nat}
    {entry : ModuleEntry} (fails : Fails attempt module entry) :
    (loadModule attempt module entry).failed = true ∧
      (loadModule attempt module entry).entry.buffer = none ∧
      (loadModule attempt module entry).entry.allocated = entry.allocated := by
  obtain ⟨tried, noRom, noFile, required⟩ := fails
  rcases loadModule_cases attempt module entry with
    ⟨notTried, -⟩ | ⟨-, -, found, rom, -⟩ | ⟨-, -, -, address, size, file, -⟩ |
      ⟨-, -, -, failed, size, same⟩
  · exact absurd tried notTried
  · rw [noRom] at rom
    cases rom
  · rw [noFile] at file
    cases file
  · rw [failed, same, decide_eq_true required]
    exact ⟨rfl, rfl, rfl⟩

theorem loadModule_failed_iff (attempt : Attempt) (module : Nat)
    (entry : ModuleEntry) :
    (loadModule attempt module entry).failed = true ↔
      Fails attempt module entry := by
  constructor
  · intro failed
    rcases loadModule_cases attempt module entry with
      ⟨-, passed, -⟩ | ⟨-, passed, -⟩ | ⟨-, -, passed, -⟩ |
        ⟨tried, noRom, noFile, required, -⟩
    · rw [passed] at failed
      cases failed
    · rw [passed] at failed
      cases failed
    · rw [passed] at failed
      cases failed
    · rw [required] at failed
      exact ⟨tried, noRom, noFile, of_decide_eq_true failed⟩
  · intro fails
    exact (loadModule_of_fails fails).1

theorem load_loadModule (attempt : Attempt) (module : Nat)
    (entry : ModuleEntry) :
    (loadModule attempt module entry).entry.load = entry.load := by
  obtain ⟨buffer, size, allocated, written⟩ :=
    loadModule_entry attempt module entry
  rw [written]

theorem allocated_loadModule {attempt : Attempt} {module : Nat}
    {entry : ModuleEntry} (notLoaded : ¬ (entry.buffered ≠ 0 ∧ entry.load ≠ 0)) :
    (loadModule attempt module entry).entry.allocated = entry.allocated := by
  rcases loadModule_cases attempt module entry with
    ⟨-, -, buffer, same⟩ | ⟨tried, -⟩ | ⟨tried, -⟩ | ⟨tried, -⟩
  · rw [same]
  · exact absurd tried.2 notLoaded
  · exact absurd tried.2 notLoaded
  · exact absurd tried.2 notLoaded

/-- The entry as the clean-up leaves it is marked only when it was before and is
not to be loaded from a buffer. -/
theorem unmarked_released (attempt : Attempt) (module : Nat)
    (entry : ModuleEntry) :
    (∀ released,
      released ∈ releaseEarlier [(loadModule attempt module entry).entry] →
        released.allocated = 0) ↔
      (¬ (entry.buffered ≠ 0 ∧ entry.load ≠ 0) → entry.allocated = 0) := by
  have sameBuffered := buffered_loadModule attempt module entry
  have sameLoad := load_loadModule attempt module entry
  have sameMark : ¬ (entry.buffered ≠ 0 ∧ entry.load ≠ 0) →
      (loadModule attempt module entry).entry.allocated = entry.allocated :=
    allocated_loadModule
  generalize (loadModule attempt module entry).entry = loaded at *
  rw [releaseEarlier, List.map_singleton, List.forall_mem_singleton]
  by_cases loads : entry.buffered ≠ 0 ∧ entry.load ≠ 0
  · have cleared : (if loaded.buffered ≠ 0 ∧ loaded.load ≠ 0 ∧
        loaded.allocated ≠ 0 then { loaded with allocated := 0 }
        else loaded).allocated = 0 := by
      rw [sameBuffered, sameLoad]
      by_cases marked : loaded.allocated = 0
      · rw [if_neg fun all => all.2.2 marked]
        exact marked
      · rw [if_pos ⟨loads.1, loads.2, marked⟩]
    exact ⟨fun _ notLoaded => absurd loads notLoaded, fun _ => cleared⟩
  · have notCleared : ¬ (loaded.buffered ≠ 0 ∧ loaded.load ≠ 0 ∧
        loaded.allocated ≠ 0) := by
      intro all
      rw [sameBuffered, sameLoad] at all
      exact loads ⟨all.1, all.2.1⟩
    rw [if_neg notCleared, sameMark loads]
    exact ⟨fun unmarked _ => unmarked, fun unmarked => unmarked loads⟩

/-! ### The loop -/

/-- Entries that do not fail are passed. -/
theorem releaseLoop_passed (attempt : Attempt)
    (before done rest : List ModuleEntry)
    (passed : ∀ module earlier, before[module]? = some earlier →
      ¬ Fails attempt (done.length + module) earlier) :
    let run := releaseLoop attempt
      (done ++ before.mapIdx fun module entry =>
        (loadModule attempt (done.length + module) entry).entry) rest
    releaseLoop attempt done (before ++ rest) =
      { run with
        allocated := (before.mapIdx fun module entry =>
          (fileBuffer attempt (done.length + module) entry).toList).flatten ++
            run.allocated } := by
  induction before generalizing done with
  | nil =>
      simp
  | cons entry before ih =>
      have first : ¬ Fails attempt done.length entry := passed 0 entry rfl
      have notFailed : ¬ (loadModule attempt done.length entry).failed = true :=
        fun failed => first ((loadModule_failed_iff _ _ _).mp failed)
      have later : ∀ module earlier, before[module]? = some earlier →
          ¬ Fails attempt
            ((done ++ [(loadModule attempt done.length entry).entry]).length +
              module) earlier := by
        intro module earlier found
        rw [List.length_append, List.length_singleton, Nat.add_assoc,
          Nat.add_comm 1 module]
        exact passed (module + 1) earlier found
      rw [List.cons_append, releaseLoop, if_neg notFailed]
      have run := ih (done ++ [(loadModule attempt done.length entry).entry]) later
      simp only [List.length_append, List.length_singleton, Nat.add_assoc,
        Nat.add_comm 1] at run
      simp only [run, List.mapIdx_cons, List.append_assoc, List.flatten_cons,
        List.singleton_append, Nat.add_zero]

theorem releaseLoop_fails {attempt : Attempt} {done : List ModuleEntry}
    {entry : ModuleEntry} (fails : Fails attempt done.length entry)
    (rest : List ModuleEntry) :
    (releaseLoop attempt done (entry :: rest)).modules =
        releaseEarlier done ++
          (loadModule attempt done.length entry).entry :: rest ∧
      (releaseLoop attempt done (entry :: rest)).allocated =
        (fileBuffer attempt done.length entry).toList ∧
      ∀ argument,
        argument ∈ (releaseLoop attempt done (entry :: rest)).freed →
          argument = none := by
  obtain ⟨failed, noBuffer, -⟩ := loadModule_of_fails fails
  obtain ⟨sameFailed, earlier, freed⟩ := cleanUp_null done noBuffer
  rw [releaseLoop, if_pos failed]
  refine ⟨?_, rfl, freed⟩
  simp only [sameFailed, earlier]

/-- A result of -1 comes from a first failure. -/
theorem releaseLoop_code (attempt : Attempt) (done rest : List ModuleEntry)
    (failed : (releaseLoop attempt done rest).code = -1) :
    ∃ before entry after, rest = before ++ entry :: after ∧
      (∀ module earlier, before[module]? = some earlier →
        ¬ Fails attempt (done.length + module) earlier) ∧
      Fails attempt (done.length + before.length) entry := by
  induction rest generalizing done with
  | nil => cases failed
  | cons entry rest ih =>
      by_cases fails : Fails attempt done.length entry
      · refine ⟨[], entry, rest, rfl, ?_, fails⟩
        intro module earlier found
        cases found
      · have notFailed : ¬ (loadModule attempt done.length entry).failed = true :=
          fun failed => fails ((loadModule_failed_iff _ _ _).mp failed)
        rw [releaseLoop, if_neg notFailed] at failed
        obtain ⟨before, later, after, rfl, passed, laterFails⟩ := ih _ failed
        rw [List.length_append, List.length_singleton] at passed laterFails
        refine ⟨entry :: before, later, after, rfl, ?_, ?_⟩
        · intro module earlier found
          cases module with
          | zero =>
              cases found
              exact fails
          | succ module =>
              have notLater := passed module earlier found
              rw [Nat.add_assoc, Nat.add_comm 1 module] at notLater
              exact notLater
        · rw [List.length_cons, Nat.add_comm before.length 1, ← Nat.add_assoc]
          exact laterFails

/-- The run has the result and the table of `loadModules`. -/
theorem releaseLoop_eq_loadLoop (attempt : Attempt)
    (done rest : List ModuleEntry) :
    (releaseLoop attempt done rest).code = (loadLoop attempt done rest).code ∧
      (releaseLoop attempt done rest).modules =
        (loadLoop attempt done rest).modules := by
  induction rest generalizing done with
  | nil => exact ⟨rfl, rfl⟩
  | cons entry rest ih =>
      by_cases failed : (loadModule attempt done.length entry).failed = true
      · have fails := (loadModule_failed_iff _ _ _).mp failed
        obtain ⟨table, -, -⟩ := releaseLoop_fails fails rest
        rw [table, releaseLoop, loadLoop, if_pos failed, if_pos failed]
        exact ⟨rfl, rfl⟩
      · rw [releaseLoop, loadLoop, if_neg failed, if_neg failed]
        exact ih _

/-! ### What is left after a failure -/

section

variable {attempt : Attempt} {before : List ModuleEntry} {entry : ModuleEntry}

theorem releasing_of_firstFailure (first : FirstFailure attempt before entry)
    (after : List ModuleEntry) :
    let run := loadModulesReleasing attempt (before ++ entry :: after)
    run.modules =
        releaseEarlier (before.mapIdx fun module earlier =>
          (loadModule attempt module earlier).entry) ++
            (loadModule attempt before.length entry).entry :: after ∧
      run.allocated = (before.mapIdx fun module earlier =>
        (fileBuffer attempt module earlier).toList).flatten ++
          (fileBuffer attempt before.length entry).toList ∧
      ∀ argument, argument ∈ run.freed → argument = none := by
  have passed : ∀ module earlier, before[module]? = some earlier →
      ¬ Fails attempt (([] : List ModuleEntry).length + module) earlier := by
    intro module earlier found
    rw [List.length_nil, Nat.zero_add]
    exact first.passed module earlier found
  have run := releaseLoop_passed attempt before [] (entry :: after) passed
  simp only [List.length_nil, Nat.zero_add, List.nil_append] at run
  have length : (before.mapIdx fun module earlier =>
      (loadModule attempt module earlier).entry).length = before.length :=
    List.length_mapIdx
  have fails := first.fails
  rw [← length] at fails
  obtain ⟨table, buffers, nulls⟩ := releaseLoop_fails fails after
  unfold loadModulesReleasing
  rw [run]
  refine ⟨?_, ?_, nulls⟩
  · rw [table, length]
  · simp only [buffers, length]

theorem allocated_eq_nil_iff :
    (before.mapIdx fun module earlier =>
        (fileBuffer attempt module earlier).toList).flatten = [] ↔
      ∀ module earlier, before[module]? = some earlier →
        fileBuffer attempt module earlier = none := by
  rw [List.flatten_eq_nil_iff]
  constructor
  · intro empty module earlier found
    obtain ⟨inside, rfl⟩ := List.getElem?_eq_some_iff.mp found
    exact Option.toList_eq_nil_iff.mp
      (empty _ (List.mem_mapIdx.mpr ⟨module, inside, rfl⟩))
  · intro none own member
    obtain ⟨module, inside, rfl⟩ := List.mem_mapIdx.mp member
    rw [none module before[module] (List.getElem?_eq_getElem inside)]
    rfl

theorem mem_releaseEarlier {done : List ModuleEntry} {released : ModuleEntry} :
    released ∈ releaseEarlier done ↔
      ∃ loaded, loaded ∈ done ∧ released ∈ releaseEarlier [loaded] := by
  simp [releaseEarlier, eq_comm]

theorem unmarked_earlier_iff :
    (∀ released,
      released ∈ releaseEarlier (before.mapIdx fun module earlier =>
        (loadModule attempt module earlier).entry) →
          released.allocated = 0) ↔
      ∀ earlier, earlier ∈ before →
        ¬ (earlier.buffered ≠ 0 ∧ earlier.load ≠ 0) →
          earlier.allocated = 0 := by
  constructor
  · intro unmarked earlier member
    obtain ⟨module, inside, rfl⟩ := List.mem_iff_getElem.mp member
    apply (unmarked_released attempt module before[module]).mp
    intro released isReleased
    apply unmarked released
    exact mem_releaseEarlier.mpr
      ⟨_, List.mem_mapIdx.mpr ⟨module, inside, rfl⟩, isReleased⟩
  · intro unmarked released member
    obtain ⟨loaded, isLoaded, isReleased⟩ := mem_releaseEarlier.mp member
    obtain ⟨module, inside, rfl⟩ := List.mem_mapIdx.mp isLoaded
    exact (unmarked_released attempt module before[module]).mpr
      (unmarked _ (List.getElem_mem inside)) released isReleased

theorem released_iff_nothingToRelease
    (first : FirstFailure attempt before entry) (after : List ModuleEntry) :
    Released (loadModulesReleasing attempt (before ++ entry :: after)) ↔
      NothingToRelease attempt before entry after := by
  obtain ⟨table, buffers, nulls⟩ := releasing_of_firstFailure first after
  obtain ⟨-, -, sameMark⟩ := loadModule_of_fails first.fails
  generalize loadModulesReleasing attempt (before ++ entry :: after) = run
    at table buffers nulls ⊢
  constructor
  · intro released
    have empty : run.allocated = [] := by
      apply List.eq_nil_iff_forall_not_mem.mpr
      intro address allocated
      have once := released.freedOnce address allocated
      have freed : some address ∈ run.freed :=
        List.count_pos_iff.mp (once ▸ Nat.one_pos)
      cases nulls _ freed
    have unmarked := released.unmarked
    rw [table, List.forall_mem_append, List.forall_mem_cons] at unmarked
    obtain ⟨earlier, here, later⟩ := unmarked
    rw [buffers, List.append_eq_nil_iff] at empty
    exact
      { notAllocated := allocated_eq_nil_iff.mp empty.1
        notAllocatedHere := Option.toList_eq_nil_iff.mp empty.2
        unmarkedBefore := unmarked_earlier_iff.mp earlier
        unmarkedHere := sameMark.symm.trans here
        unmarkedAfter := later }
  · intro nothing
    have empty : run.allocated = [] := by
      rw [buffers, allocated_eq_nil_iff.mpr nothing.notAllocated,
        nothing.notAllocatedHere]
      rfl
    constructor
    · intro address allocated
      rw [empty] at allocated
      cases allocated
    · intro kept _member address ownOrFreed
      rcases ownOrFreed with own | freed
      · rw [empty] at own
        cases own
      · cases nulls _ freed
    · rw [table, List.forall_mem_append, List.forall_mem_cons]
      exact ⟨unmarked_earlier_iff.mpr nothing.unmarkedBefore,
        sameMark.trans nothing.unmarkedHere, nothing.unmarkedAfter⟩

end

/-- A failed call has released its buffers and marks exactly when `load_file`
has allocated nothing in it and the clean-up sees every mark. -/
theorem loadModules_released_iff (attempt : Attempt)
    (modules : List ModuleEntry)
    (failed : (loadModules attempt modules).code = -1) :
    Released (loadModulesReleasing attempt modules) ↔
      ∀ before entry after, modules = before ++ entry :: after →
        FirstFailure attempt before entry →
          NothingToRelease attempt before entry after := by
  constructor
  · intro released before entry after split first
    rw [split] at released
    exact (released_iff_nothingToRelease first after).mp released
  · intro nothing
    obtain ⟨before, entry, after, split, passed, fails⟩ :=
      releaseLoop_code attempt [] modules
        ((releaseLoop_eq_loadLoop attempt [] modules).1.trans failed)
    simp only [List.length_nil, Nat.zero_add] at passed fails
    have first : FirstFailure attempt before entry := ⟨passed, fails⟩
    rw [split]
    exact (released_iff_nothingToRelease first after).mpr
      (nothing before entry after split first)

/-! ### A missing module -/

def requiredEntry : ModuleEntry :=
  { smaprpcEntry with path := "mc0:/a.irx".toList, optional := 0 }

def eedebugEntry : ModuleEntry :=
  { smaprpcEntry with path := "host:eedebug.irx".toList, optional := 0 }

def eedebugRom : RomEntry :=
  { filename := "eedebug.irx".toList, start := some 0x600000, size := 4096 }

/-- A module from the ROM and a missing optional one stand before the missing one.
The optional one is still marked by an earlier call. -/
def missingThird : List ModuleEntry :=
  [eedebugEntry, { smaprpcEntry with allocated := -1 }, requiredEntry, smaprpcEntry]

theorem missingModule_released :
    Released (loadModulesReleasing (slimAttempt [eedebugRom]) missingThird) := by
  apply (loadModules_released_iff (slimAttempt [eedebugRom]) missingThird
    (by decide +kernel)).mpr
  intro before entry after split first
  match before with
  | [] =>
      cases split
      exact absurd first.fails.2.1 (by decide +kernel)
  | [_] =>
      cases split
      exact absurd first.fails.2.2.2 (by decide)
  | [_, _] =>
      cases split
      refine ⟨?_, by decide +kernel, ?_, rfl, ?_⟩
      · intro module earlier found
        match module with
        | 0 | 1 =>
            cases found
            decide +kernel
        | _ + 2 => cases found
      · intro earlier member
        simp only [List.mem_cons, List.not_mem_nil, or_false] at member
        rcases member with rfl | rfl <;> decide
      · intro later member
        rw [List.mem_singleton] at member
        rw [member]
        rfl
  | _ :: _ :: _ :: _ =>
      simp only [missingThird, List.cons_append, List.cons.injEq] at split
      obtain ⟨-, -, rfl, -⟩ := split
      have fails : Fails (slimAttempt [eedebugRom]) 2 requiredEntry :=
        ⟨by decide, by decide +kernel, by decide +kernel, rfl⟩
      exact absurd fails (first.passed 2 requiredEntry rfl)

/-- The first module has a file, the second has none. -/
def secondMissing : Attempt :=
  { slimAttempt [] with
    platform := fun module =>
      { file :=
          if module = 0 then some { bytes := [1], ftell := 1, chunks := [1] }
          else none
        memalign := fun _ => some 0x600000
        loaderEnd := 0x500000 } }

theorem secondMissing_leaks :
    let run := loadModulesReleasing secondMissing [requiredEntry, requiredEntry]
    run.code = -1 ∧ run.allocated = [0x600000] ∧ run.freed = [none] ∧
      (run.modules.map ModuleEntry.buffer) = [some 0x600000, none] ∧
      ¬ Released run := by
  have allocated : (loadModulesReleasing secondMissing
      [requiredEntry, requiredEntry]).allocated = [0x600000] := by
    decide +kernel
  have freed : (loadModulesReleasing secondMissing
      [requiredEntry, requiredEntry]).freed = [none] := by
    decide +kernel
  refine ⟨by decide +kernel, allocated, freed, by decide +kernel, ?_⟩
  intro released
  have once := released.freedOnce 0x600000
    (by rw [allocated]; exact List.mem_singleton_self _)
  rw [freed] at once
  cases once

end KernelReloaded.Modules

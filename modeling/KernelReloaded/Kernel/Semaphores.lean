/-
The semaphores of the small kernel.

The entries are one array, and those that are free are linked from
`semaphoreListHead`.  `iSignalSema` takes a signed number and has no check for
a negative one, so the array is modelled for every integer: a negative index is
the memory before the array.  Results are the numbers the functions return.

The field `createdWith` is a record of the run and is never read by the code:
the `init_count` with which the semaphore was created last.
-/

import KernelReloaded.Core.LinkedList
import KernelReloaded.Core.Transition
import Mathlib.Data.Int.Interval

namespace KernelReloaded.Semaphores

def numberOfSemaphores : Nat := 32

/-! ### State -/

structure KernelSema where
  count : Int
  maxCount : Int
  waitThreads : Int
  attr : BitVec 32
  option : BitVec 32
  next : Option Int
  index : Int
  free : Bool
deriving DecidableEq

/-- The argument of `syscallCreateSema`; its numbers are those of a C `int`. -/
structure EeSema where
  maxCount : Int
  initCount : Int
  waitThreads : Int
  attr : BitVec 32
  option : BitVec 32
  maxCountFits : -2 ^ 31 ≤ maxCount ∧ maxCount < 2 ^ 31
  initCountFits : -2 ^ 31 ≤ initCount ∧ initCount < 2 ^ 31

structure SemaState where
  semaphoreArray : Int → KernelSema
  semaphoreListHead : Option Int
  createdWith : Int → Int

def SemaState.setEntry (state : SemaState) (index : Int) (entry : KernelSema) :
    SemaState :=
  { state with
    semaphoreArray := Function.update state.semaphoreArray index entry }

/-- The links of the entries. -/
def SemaState.next (state : SemaState) (index : Int) : Option Int :=
  (state.semaphoreArray index).next

/-! ### The functions -/

def syscallCreateSema (sema : EeSema) (state : SemaState) : Int × SemaState :=
  if sema.initCount < 0 then
    (-1, state)
  else
    match state.semaphoreListHead with
    | none => (-1, state)
    | some s =>
        let entry := state.semaphoreArray s
        (entry.index,
          { semaphoreArray := Function.update state.semaphoreArray s
              { entry with
                count := sema.initCount
                maxCount := sema.maxCount
                waitThreads := sema.waitThreads
                attr := sema.attr
                option := sema.option
                free := false
                next := none }
            semaphoreListHead := entry.next
            createdWith := Function.update state.createdWith s sema.initCount })

def iDeleteSema (semaId : Int) (state : SemaState) : Int × SemaState :=
  if semaId ≥ numberOfSemaphores then
    (-1, state)
  else if semaId < 0 then
    (-1, state)
  else if (state.semaphoreArray semaId).free then
    (-1, state)
  else
    (semaId,
      { state with
        semaphoreArray := Function.update state.semaphoreArray semaId
          { state.semaphoreArray semaId with
            next := state.semaphoreListHead
            free := true }
        semaphoreListHead := some semaId })

/-- The number is unsigned here. -/
def iWaitSema (sid : Nat) (state : SemaState) : Int × SemaState :=
  let entry := state.semaphoreArray sid
  if sid ≥ numberOfSemaphores ∨ entry.count < 0 then
    (-1, state)
  else if entry.count > 0 then
    (sid, state.setEntry sid { entry with count := entry.count - 1 })
  else
    (-2, state)

def iSignalSema (sid : Int) (state : SemaState) : Int × SemaState :=
  let entry := state.semaphoreArray sid
  if sid ≥ numberOfSemaphores ∨ entry.count < 0 then
    (-1, state)
  else
    (0, state.setEntry sid
      { entry with count := (entry.count + 1).bmod (2 ^ 32) })

/-- The setup of one entry, linked to `next`. -/
def initEntry (next : Option Int) (state : SemaState) (index : Nat) : SemaState :=
  state.setEntry index
    { state.semaphoreArray index with
      next := next
      index := index
      free := true }

def initSemaphores (state : SemaState) : SemaState :=
  let linked := (List.range (numberOfSemaphores - 1)).foldl
    (fun state (index : Nat) => initEntry (some ((index : Int) + 1)) state index)
    { state with semaphoreListHead := some 0 }
  initEntry none linked (numberOfSemaphores - 1)

/-- The array is in the zeroed data of the kernel. -/
def zeroEntry : KernelSema :=
  { count := 0
    maxCount := 0
    waitThreads := 0
    attr := 0
    option := 0
    next := none
    index := 0
    free := false }

def zeroState : SemaState :=
  { semaphoreArray := fun _ => zeroEntry
    semaphoreListHead := none
    createdWith := fun _ => 0 }

/-! ### Runs -/

inductive SemaCall where
  | create (sema : EeSema)
  | delete (semaId : Int)
  | wait (sid : Nat)
  | signal (sid : Int)

def SemaCall.run : SemaCall → SemaState → Int × SemaState
  | .create sema => syscallCreateSema sema
  | .delete semaId => iDeleteSema semaId
  | .wait sid => iWaitSema sid
  | .signal sid => iSignalSema sid

def semaMachine : Machine SemaState SemaCall where
  initial := initSemaphores zeroState
  step := fun state call => some (call.run state).2

def InArray (index : Int) : Prop :=
  0 ≤ index ∧ index < numberOfSemaphores

def SemaState.IsFree (state : SemaState) (index : Int) : Prop :=
  InArray index ∧ (state.semaphoreArray index).free = true

def SemaState.IsUsed (state : SemaState) (index : Int) : Prop :=
  InArray index ∧ (state.semaphoreArray index).free = false

instance (index : Int) : Decidable (InArray index) :=
  inferInstanceAs (Decidable (_ ∧ _))

instance (state : SemaState) (index : Int) : Decidable (state.IsFree index) :=
  inferInstanceAs (Decidable (_ ∧ _))

instance (state : SemaState) (index : Int) : Decidable (state.IsUsed index) :=
  inferInstanceAs (Decidable (_ ∧ _))

/-! ### What the calls are for -/

/-- The list holds exactly the free entries, each once. -/
def FreeListed (state : SemaState) : Prop :=
  ∃ list : List Int, Linked state.next state.semaphoreListHead list ∧
    list.Nodup ∧ ∀ index, index ∈ list ↔ state.IsFree index

/-- A used semaphore that was created with an `init_count` of at most its
`max_count` has a count between zero and `max_count`. -/
def CountsBounded (state : SemaState) : Prop :=
  ∀ index, state.IsUsed index →
    0 ≤ state.createdWith index →
    state.createdWith index ≤ (state.semaphoreArray index).maxCount →
      0 ≤ (state.semaphoreArray index).count ∧
        (state.semaphoreArray index).count ≤ (state.semaphoreArray index).maxCount

/-- The ids that delete, wait and signal have to refuse. -/
def SemaCall.BadId (state : SemaState) : SemaCall → Prop
  | .create _ => False
  | .delete semaId => ¬ state.IsUsed semaId
  | .wait sid => ¬ state.IsUsed sid
  | .signal sid => ¬ state.IsUsed sid

def CreateRight (sema : EeSema) (state : SemaState) : Prop :=
  let result := (syscallCreateSema sema state).1
  (result < 0 → sema.initCount < 0 ∨ ∀ index, InArray index → state.IsUsed index) ∧
    (0 ≤ result → state.IsFree result)

def CallRight (state : SemaState) (call : SemaCall) : Prop :=
  (∀ sema, call = .create sema → CreateRight sema state) ∧
    (call.BadId state → call.run state = (-1, state))

structure SemaRight (state : SemaState) : Prop where
  listed : FreeListed state
  counts : CountsBounded state

/-! ### The calls without a missing check -/

/-- `iWaitSema` is not given a free entry.  `iSignalSema` is not given a free
entry or a negative number, and it does not lift the count of a semaphore above
a `max_count` that bounded it so far. -/
def Checked (state : SemaState) : SemaCall → Prop
  | .create _ => True
  | .delete _ => True
  | .wait sid => ¬ state.IsFree sid
  | .signal sid =>
      0 ≤ sid ∧ ¬ state.IsFree sid ∧
        (state.IsUsed sid →
          state.createdWith sid ≤ (state.semaphoreArray sid).maxCount →
            (state.semaphoreArray sid).count < (state.semaphoreArray sid).maxCount)

instance (state : SemaState) : (call : SemaCall) → Decidable (Checked state call)
  | .create _ => inferInstanceAs (Decidable True)
  | .delete _ => inferInstanceAs (Decidable True)
  | .wait _ => inferInstanceAs (Decidable (¬ _))
  | .signal _ => inferInstanceAs (Decidable (_ ∧ _ ∧ (_ → _ → _)))

/-! ### The invariant -/

structure SemaInv (state : SemaState) : Prop extends SemaRight state where
  indexed : ∀ index, InArray index → (state.semaphoreArray index).index = index
  fits : ∀ index, InArray index → (state.semaphoreArray index).maxCount < 2 ^ 31

theorem initSemaphores_entry :
    ∀ index < numberOfSemaphores,
      ((initSemaphores zeroState).semaphoreArray index).free = true ∧
        ((initSemaphores zeroState).semaphoreArray index).index = index ∧
        ((initSemaphores zeroState).semaphoreArray index).maxCount = 0 := by
  decide +kernel

theorem inArray_iff (index : Int) :
    InArray index ↔ ∃ number : Nat, number < numberOfSemaphores ∧ (number : Int) = index := by
  constructor
  · intro inside
    obtain ⟨number, rfl⟩ := Int.eq_ofNat_of_zero_le inside.1
    exact ⟨number, Int.ofNat_lt.mp inside.2, rfl⟩
  · rintro ⟨number, small, rfl⟩
    exact ⟨Int.natCast_nonneg number, Int.ofNat_lt.mpr small⟩

theorem initSemaphores_listed : FreeListed (initSemaphores zeroState) := by
  refine ⟨(List.range numberOfSemaphores).map Int.ofNat, by decide +kernel,
    by decide +kernel, ?_⟩
  intro index
  rw [List.mem_map]
  constructor
  · rintro ⟨number, listed, rfl⟩
    have small := List.mem_range.mp listed
    exact ⟨(inArray_iff number).mpr ⟨number, small, rfl⟩,
      (initSemaphores_entry number small).1⟩
  · intro isFree
    obtain ⟨number, small, same⟩ := (inArray_iff index).mp isFree.1
    exact ⟨number, List.mem_range.mpr small, same⟩

theorem initSemaphores_inv : SemaInv (initSemaphores zeroState) where
  listed := initSemaphores_listed
  counts := by
    intro index used
    obtain ⟨number, small, rfl⟩ := (inArray_iff index).mp used.1
    have isFree := (initSemaphores_entry number small).1
    rw [used.2] at isFree
    cases isFree
  indexed := by
    intro index inside
    obtain ⟨number, small, rfl⟩ := (inArray_iff index).mp inside
    exact (initSemaphores_entry number small).2.1
  fits := by
    intro index inside
    obtain ⟨number, small, rfl⟩ := (inArray_iff index).mp inside
    rw [(initSemaphores_entry number small).2.2]
    decide

theorem next_update (state : SemaState) (s : Int) (entry : KernelSema)
    (head : Option Int) (createdWith : Int → Int) :
    SemaState.next
        { semaphoreArray := Function.update state.semaphoreArray s entry
          semaphoreListHead := head
          createdWith := createdWith } =
      Function.update state.next s entry.next := by
  funext index
  unfold SemaState.next
  exact Function.apply_update (fun _ (entry : KernelSema) => entry.next)
    state.semaphoreArray s entry index

/-- A change of one entry keeps what holds of each entry, when it keeps it for
the changed one. -/
theorem forall_entry_update (holds : Int → KernelSema → Prop) {state : SemaState}
    {s : Int} {entry : KernelSema}
    (before : ∀ index, InArray index → holds index (state.semaphoreArray index))
    (changed : InArray s → holds s entry) (index : Int) (inside : InArray index) :
    holds index (Function.update state.semaphoreArray s entry index) := by
  by_cases same : index = s
  · subst same
    rw [Function.update_self]
    exact changed inside
  · rw [Function.update_of_ne same]
    exact before index inside

theorem syscallCreateSema_inv (sema : EeSema) {state : SemaState}
    (inv : SemaInv state) : SemaInv (syscallCreateSema sema state).2 := by
  unfold syscallCreateSema
  split <;> rename_i negative
  · exact inv
  obtain ⟨list, linked, nodup, mem⟩ := inv.listed
  split <;> rename_i atHead
  · exact inv
  rename_i s
  rw [atHead] at linked
  obtain ⟨rest, rfl, later⟩ := linked.eq_cons
  obtain ⟨notLater, nodupRest⟩ := List.nodup_cons.mp nodup
  constructor
  · constructor
    · refine ⟨rest, ?_, nodupRest, ?_⟩
      · rw [next_update]
        exact later.update notLater
      · intro index
        unfold SemaState.IsFree
        dsimp only
        by_cases same : index = s
        · subst same
          rw [Function.update_self]
          constructor
          · intro listed
            exact absurd listed notLater
          · intro isFree
            cases isFree.2
        · rw [Function.update_of_ne same, ← SemaState.IsFree, ← mem, List.mem_cons]
          exact (or_iff_right same).symm
    · intro index used nonneg bounded
      unfold SemaState.IsUsed at used
      dsimp only at used nonneg bounded ⊢
      by_cases same : index = s
      · subst same
        rw [Function.update_self] at nonneg bounded ⊢
        rw [Function.update_self] at bounded
        exact ⟨nonneg, bounded⟩
      · rw [Function.update_of_ne same] at used nonneg bounded ⊢
        rw [Function.update_of_ne same] at bounded
        exact inv.counts index used nonneg bounded
  · exact forall_entry_update (fun index entry => entry.index = index)
      inv.indexed (inv.indexed s)
  · exact forall_entry_update (fun _ entry => entry.maxCount < 2 ^ 31)
      inv.fits fun _inside => sema.maxCountFits.2

theorem iDeleteSema_inv (semaId : Int) {state : SemaState}
    (inv : SemaInv state) : SemaInv (iDeleteSema semaId state).2 := by
  unfold iDeleteSema
  split <;> rename_i tooLarge
  · exact inv
  split <;> rename_i negative
  · exact inv
  split <;> rename_i isFree
  · exact inv
  have inside : InArray semaId := ⟨not_lt.mp negative, not_le.mp tooLarge⟩
  obtain ⟨list, linked, nodup, mem⟩ := inv.listed
  have notListed : semaId ∉ list := by
    intro listed
    exact isFree ((mem semaId).mp listed).2
  constructor
  · constructor
    · refine ⟨semaId :: list, ?_, List.nodup_cons.mpr ⟨notListed, nodup⟩, ?_⟩
      · rw [next_update]
        exact linked.push notListed
      · intro index
        unfold SemaState.IsFree
        dsimp only
        rw [List.mem_cons]
        by_cases same : index = semaId
        · subst same
          rw [Function.update_self]
          exact iff_of_true (Or.inl rfl) ⟨inside, rfl⟩
        · rw [Function.update_of_ne same, ← SemaState.IsFree, ← mem]
          exact or_iff_right same
    · intro index used
      unfold SemaState.IsUsed at used
      dsimp only at used ⊢
      by_cases same : index = semaId
      · subst same
        rw [Function.update_self] at used
        cases used.2
      · rw [Function.update_of_ne same] at used ⊢
        exact inv.counts index used
  · exact forall_entry_update (fun index entry => entry.index = index)
      inv.indexed (inv.indexed semaId)
  · exact forall_entry_update (fun _ entry => entry.maxCount < 2 ^ 31)
      inv.fits (inv.fits semaId)

/-- A new count for one entry, in its bounds where it has any. -/
theorem setCount_inv {state : SemaState} (inv : SemaInv state) {s count : Int}
    (bounded : state.IsUsed s → 0 ≤ state.createdWith s →
      state.createdWith s ≤ (state.semaphoreArray s).maxCount →
        0 ≤ count ∧ count ≤ (state.semaphoreArray s).maxCount) :
    SemaInv (state.setEntry s { state.semaphoreArray s with count := count }) := by
  obtain ⟨list, linked, nodup, mem⟩ := inv.listed
  unfold SemaState.setEntry
  constructor
  · constructor
    · refine ⟨list, ?_, nodup, ?_⟩
      · rw [next_update]
        change Linked (Function.update state.next s (state.next s)) _ _
        rw [Function.update_eq_self]
        exact linked
      · intro index
        rw [mem]
        unfold SemaState.IsFree
        dsimp only
        by_cases same : index = s
        · subst same
          rw [Function.update_self]
        · rw [Function.update_of_ne same]
    · intro index used nonneg below
      unfold SemaState.IsUsed at used
      dsimp only at used nonneg below ⊢
      by_cases same : index = s
      · subst same
        rw [Function.update_self] at used below ⊢
        exact bounded used nonneg below
      · rw [Function.update_of_ne same] at used below ⊢
        exact inv.counts index used nonneg below
  · exact forall_entry_update (fun index entry => entry.index = index)
      inv.indexed (inv.indexed s)
  · exact forall_entry_update (fun _ entry => entry.maxCount < 2 ^ 31)
      inv.fits (inv.fits s)

theorem iWaitSema_inv (sid : Nat) {state : SemaState} (inv : SemaInv state) :
    SemaInv (iWaitSema sid state).2 := by
  unfold iWaitSema
  dsimp only
  split <;> rename_i refused
  · exact inv
  split <;> rename_i positive
  · apply setCount_inv inv
    intro used nonneg below
    have counts := inv.counts sid used nonneg below
    omega
  · exact inv

theorem iSignalSema_inv {sid : Int} {state : SemaState} (inv : SemaInv state)
    (checked : Checked state (.signal sid)) :
    SemaInv (iSignalSema sid state).2 := by
  obtain ⟨_nonneg, _notFree, roomLeft⟩ := checked
  unfold iSignalSema
  dsimp only
  split <;> rename_i refused
  · exact inv
  · apply setCount_inv inv
    intro used nonneg below
    have counts := inv.counts sid used nonneg below
    have room := roomLeft used below
    have fits := inv.fits sid used.1
    have noWrap : ((state.semaphoreArray sid).count + 1).bmod (2 ^ 32) =
        (state.semaphoreArray sid).count + 1 := by
      apply Int.bmod_eq_of_le <;> omega
    rw [noWrap]
    omega

theorem run_inv (state : SemaState) (call : SemaCall) (inv : SemaInv state)
    (checked : Checked state call) : SemaInv (call.run state).2 := by
  cases call with
  | create sema => exact syscallCreateSema_inv sema inv
  | delete semaId => exact iDeleteSema_inv semaId inv
  | wait sid => exact iWaitSema_inv sid inv
  | signal sid => exact iSignalSema_inv inv checked

theorem reach_inv {state : SemaState} (reached : semaMachine.Reach Checked state) :
    SemaInv state := by
  apply reached.invariant initSemaphores_inv
  intro state call next inv checked stepped
  obtain rfl := Option.some.inj stepped
  exact run_inv state call inv checked

/-! ### The results of the calls -/

theorem SemaInv.createRight {state : SemaState} (inv : SemaInv state)
    (sema : EeSema) : CreateRight sema state := by
  obtain ⟨list, linked, _nodup, mem⟩ := inv.listed
  unfold CreateRight syscallCreateSema
  dsimp only
  split <;> rename_i negative
  · exact ⟨fun _failed => Or.inl negative, fun impossible => absurd impossible (by simp)⟩
  split <;> rename_i atHead
  · rw [atHead] at linked
    obtain rfl := linked.eq_nil
    refine ⟨fun _failed => Or.inr ?_, fun impossible => absurd impossible (by simp)⟩
    intro index inside
    refine ⟨inside, ?_⟩
    rw [← Bool.not_eq_true]
    intro isFree
    exact List.not_mem_nil ((mem index).mpr ⟨inside, isFree⟩)
  · rename_i s
    rw [atHead] at linked
    obtain ⟨rest, rfl, _later⟩ := linked.eq_cons
    have isFree := (mem s).mp List.mem_cons_self
    dsimp only
    rw [inv.indexed s isFree.1]
    refine ⟨fun failed => ?_, fun _ => isFree⟩
    exact absurd isFree.1.1 (not_le.mpr failed)

theorem SemaState.not_isUsed {state : SemaState} {index : Int}
    (notUsed : ¬ state.IsUsed index) (notFree : ¬ state.IsFree index) :
    ¬ InArray index := by
  intro inside
  cases flag : (state.semaphoreArray index).free with
  | false => exact notUsed ⟨inside, flag⟩
  | true => exact notFree ⟨inside, flag⟩

theorem badId_refused {state : SemaState} {call : SemaCall}
    (checked : Checked state call) (bad : call.BadId state) :
    call.run state = (-1, state) := by
  cases call with
  | create sema => cases bad
  | delete semaId =>
      change iDeleteSema semaId state = _
      unfold iDeleteSema
      split <;> rename_i tooLarge
      · rfl
      split <;> rename_i negative
      · rfl
      rw [if_pos]
      rw [← Bool.not_eq_false]
      intro used
      exact bad ⟨⟨not_lt.mp negative, not_le.mp tooLarge⟩, used⟩
  | wait sid =>
      have outside := SemaState.not_isUsed bad checked
      have tooLarge : sid ≥ numberOfSemaphores := by
        by_contra small
        exact outside ((inArray_iff sid).mpr ⟨sid, not_le.mp small, rfl⟩)
      change iWaitSema sid state = _
      unfold iWaitSema
      rw [if_pos (Or.inl tooLarge)]
  | signal sid =>
      obtain ⟨nonneg, notFree, _room⟩ := checked
      have outside := SemaState.not_isUsed bad notFree
      have tooLarge : sid ≥ numberOfSemaphores := by
        by_contra small
        exact outside ⟨nonneg, not_le.mp small⟩
      change iSignalSema sid state = _
      unfold iSignalSema
      rw [if_pos (Or.inl tooLarge)]

/-- In every run whose calls pass the missing checks, the free list, the counts
and the results are right. -/
theorem semaphores_right (state : SemaState)
    (reached : semaMachine.Reach Checked state) :
    SemaRight state ∧ ∀ call, Checked state call → CallRight state call := by
  have inv := reach_inv reached
  refine ⟨inv.toSemaRight, ?_⟩
  intro call checked
  refine ⟨?_, badId_refused checked⟩
  intro sema _isCreate
  exact inv.createRight sema

/-- A semaphore with one of two units. -/
def halfFull : EeSema :=
  { maxCount := 2
    initCount := 1
    waitThreads := 0
    attr := 0
    option := 0
    maxCountFits := by decide
    initCountFits := by decide }

theorem halfFull_right : ∃ state, semaMachine.Reach Checked state ∧
    (state.semaphoreArray 1).count = 2 ∧
    SemaRight state ∧ ∀ call, Checked state call → CallRight state call := by
  have followed : (semaMachine.follow Checked
      [.create halfFull, .create halfFull, .signal 1, .delete 0, .delete 0, .wait 77]
      semaMachine.initial).map
        (fun state => decide ((state.semaphoreArray 1).count = 2)) = some true := by
    decide +kernel
  obtain ⟨state, isState, seen⟩ := Option.map_eq_some_iff.mp followed
  have reached := Machine.Reach.initial.follow _ isState
  exact ⟨state, reached, of_decide_eq_true seen, semaphores_right state reached⟩

/-- Two signals lift the count above `max_count`, and a signal to an entry that
was never created succeeds. -/
theorem signal_unchecked :
    (∃ state, semaMachine.Reach (fun _ _ => True) state ∧ ¬ SemaRight state) ∧
      ¬ CallRight semaMachine.initial (.signal 0) := by
  constructor
  · have followed : (semaMachine.follow (fun _ _ => True)
        [.create halfFull, .signal 0, .signal 0] semaMachine.initial).map
          (fun state => decide (state.IsUsed 0 ∧ state.createdWith 0 = 1 ∧
            (state.semaphoreArray 0).maxCount = 2 ∧
            (state.semaphoreArray 0).count = 3)) = some true := by
      decide +kernel
    obtain ⟨state, isState, seen⟩ := Option.map_eq_some_iff.mp followed
    obtain ⟨used, created, maxCount, count⟩ := of_decide_eq_true seen
    refine ⟨state, Machine.Reach.initial.follow _ isState, fun right => ?_⟩
    have counts := right.counts 0 used
    rw [created, maxCount, count] at counts
    exact absurd (counts (by decide) (by decide)).2 (by decide)
  · intro right
    have neverCreated : ¬ semaMachine.initial.IsUsed 0 := by decide +kernel
    have refused := congrArg Prod.fst (right.2 neverCreated)
    have accepted : (SemaCall.run (.signal 0) semaMachine.initial).1 = 0 := by
      decide +kernel
    rw [accepted] at refused
    cases refused

end KernelReloaded.Semaphores

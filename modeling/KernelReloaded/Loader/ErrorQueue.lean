/-
The queue of error messages.

A slot that is `NULL` is free.  What `error_printf` formats lies in a second
array, in the row with the number of the slot, so that a message is written over
only when its slot has become free.  What is painted and printed on the way is
left out.
-/

import KernelReloaded.Core.CText
import KernelReloaded.Core.Ring
import KernelReloaded.Loader.InfoBuffer

namespace KernelReloaded.ErrorQueue

open CText
open InfoTexts (maxBuffer)

def maxMessages : Nat := 10

/-- A pointer to a row of the formatted texts, or to some other text. -/
inductive MessagePointer
  | row (slot : Nat)
  | other (address : Nat)
  deriving DecidableEq

structure ErrorState where
  errorMessage : Nat → Option MessagePointer
  readMsgPos : Nat
  writeMsgPos : Nat
  buffer : Nat → CharArray

def ErrorState.initial : ErrorState :=
  { errorMessage := fun _ => none
    readMsgPos := 0
    writeMsgPos := 0
    buffer := fun _ => List.replicate maxBuffer '\x00' }

def setErrorMessage (state : ErrorState) (text : MessagePointer) : ErrorState :=
  match state.errorMessage state.writeMsgPos with
  | none =>
      { state with
        errorMessage :=
          Function.update state.errorMessage state.writeMsgPos (some text)
        writeMsgPos := (state.writeMsgPos + 1) % maxMessages }
  | some _ => state

def goToNextErrorMessage (state : ErrorState) : ErrorState :=
  match state.errorMessage state.readMsgPos with
  | none => state
  | some _ =>
      { state with
        errorMessage := Function.update state.errorMessage state.readMsgPos none
        readMsgPos := (state.readMsgPos + 1) % maxMessages }

def getErrorMessage (state : ErrorState) : Option MessagePointer :=
  state.errorMessage state.readMsgPos

/-- The output is what the format and its arguments expand to.  The value to
return comes with the state; a store outside of a row is `none`. -/
def errorPrintf (state : ErrorState) (output : Text) :
    Option (Int × ErrorState) :=
  match state.errorMessage state.writeMsgPos with
  | none => do
      let row ← snprintf (state.buffer state.writeMsgPos) 0 maxBuffer output
      let state :=
        { state with
          buffer := Function.update state.buffer state.writeMsgPos row }
      return (output.length,
        setErrorMessage state (.row state.writeMsgPos))
  | some _ => some (-1, state)

inductive ErrorCall
  | errorPrintf (output : Text)
  | setErrorMessage (text : MessagePointer)
  | goToNextErrorMessage
  | getErrorMessage

def errorStep (state : ErrorState) : ErrorCall → Option ErrorState
  | .errorPrintf output => (errorPrintf state output).map Prod.snd
  | .setErrorMessage text => some (setErrorMessage state text)
  | .goToNextErrorMessage => some (goToNextErrorMessage state)
  | .getErrorMessage => some state

def errorCalls (state : ErrorState) (calls : List ErrorCall) :
    Option ErrorState :=
  calls.foldlM errorStep state

/-! ### What is wanted -/

/-- A message as it was queued: with its text at that time, or as a pointer. -/
inductive Message
  | printed (text : Text)
  | given (text : MessagePointer)

/-- What a row shows of an output. -/
def formatted (output : Text) : Text :=
  cstring (output.take (maxBuffer - 1))

def enqueue (queue : List Message) (message : Message) : List Message :=
  if queue.length < maxMessages then queue ++ [message] else queue

def queueStep (queue : List Message) : ErrorCall → List Message
  | .errorPrintf output => enqueue queue (.printed (formatted output))
  | .setErrorMessage text => enqueue queue (.given text)
  | .goToNextErrorMessage => queue.tail
  | .getErrorMessage => queue

/-- A pointer shows a message: the text it leads to is the one that was queued. -/
def Shows (state : ErrorState) (pointer : MessagePointer) : Message → Prop
  | .printed text =>
      ∃ slot, pointer = .row slot ∧ cstring (state.buffer slot) = text
  | .given text => pointer = text

/-! ### The slots and the queue -/

/-- A message in a slot; a formatted text is in the row of its own slot. -/
def InSlot (state : ErrorState) (slot : Nat) : Message → Prop
  | .printed text =>
      state.errorMessage slot = some (.row slot) ∧
        cstring (state.buffer slot) = text
  | .given text => state.errorMessage slot = some text

structure QueueInv (queue : List Message) (state : ErrorState) : Prop where
  read_lt : state.readMsgPos < maxMessages
  fits : queue.length ≤ maxMessages
  write : state.writeMsgPos = (state.readMsgPos + queue.length) % maxMessages
  held : ∀ index message, queue[index]? = some message →
    InSlot state ((state.readMsgPos + index) % maxMessages) message
  free : ∀ index, queue.length ≤ index → index < maxMessages →
    state.errorMessage ((state.readMsgPos + index) % maxMessages) = none
  rows : ∀ slot, (state.buffer slot).length = maxBuffer

theorem queueInv_initial : QueueInv [] ErrorState.initial := by
  refine ⟨by decide, Nat.zero_le _, rfl, nofun, fun _ _ _ => rfl, ?_⟩
  intro slot
  exact List.length_replicate

variable {queue : List Message} {state : ErrorState}

theorem InSlot.pointer {slot : Nat} {message : Message}
    (inSlot : InSlot state slot message) :
    ∃ pointer, state.errorMessage slot = some pointer ∧
      Shows state pointer message := by
  cases message with
  | printed text =>
      exact ⟨.row slot, inSlot.1, slot, rfl, inSlot.2⟩
  | given text =>
      exact ⟨text, inSlot, rfl⟩

/-- The slot to write to is free exactly when the queue is not full. -/
theorem QueueInv.write_free (inv : QueueInv queue state) :
    state.errorMessage state.writeMsgPos = none ↔
      queue.length < maxMessages := by
  have size : 0 < maxMessages := by decide
  rw [inv.write]
  constructor
  · intro free
    by_contra full
    have isFull : queue.length = maxMessages :=
      Nat.le_antisymm inv.fits (Nat.not_lt.mp full)
    have some : 0 < queue.length := by
      rw [isFull]
      exact size
    obtain ⟨pointer, found, -⟩ :=
      (inv.held 0 _ (List.getElem?_eq_getElem some)).pointer
    rw [isFull, Nat.add_mod_right] at free
    rw [Nat.add_zero, free] at found
    cases found
  · intro room
    exact inv.free queue.length (Nat.le_refl _) room

theorem InSlot.congr {next : ErrorState} {slot : Nat} {message : Message}
    (inSlot : InSlot state slot message)
    (sameSlot : next.errorMessage slot = state.errorMessage slot)
    (sameRow : next.buffer slot = state.buffer slot) :
    InSlot next slot message := by
  cases message with
  | printed text =>
      exact ⟨sameSlot.trans inSlot.1, (congrArg cstring sameRow).trans inSlot.2⟩
  | given text =>
      exact sameSlot.trans inSlot

/-- A message in the free slot joins the queue; the other slots and their rows
are kept. -/
theorem QueueInv.push (inv : QueueInv queue state) {next : ErrorState}
    {message : Message} (room : queue.length < maxMessages)
    (sameRead : next.readMsgPos = state.readMsgPos)
    (write : next.writeMsgPos = (state.writeMsgPos + 1) % maxMessages)
    (others : ∀ slot, slot ≠ state.writeMsgPos →
      next.errorMessage slot = state.errorMessage slot ∧
        next.buffer slot = state.buffer slot)
    (rows : ∀ slot, (next.buffer slot).length = maxBuffer)
    (inSlot : InSlot next state.writeMsgPos message) :
    QueueInv (queue ++ [message]) next := by
  have different {near far : Nat} (apart : near < far)
      (inside : far < maxMessages) :
      (state.readMsgPos + near) % maxMessages ≠
        (state.readMsgPos + far) % maxMessages :=
    Ring.mod_add_ne_mod_add apart (by omega)
  constructor
  · rw [sameRead]
    exact inv.read_lt
  · rw [List.length_append, List.length_singleton]
    exact room
  · rw [write, sameRead, inv.write, Nat.mod_add_mod, List.length_append,
      List.length_singleton, Nat.add_assoc]
  · intro index held found
    rw [sameRead]
    by_cases before : index < queue.length
    · rw [List.getElem?_append_left before] at found
      obtain ⟨sameSlot, sameRow⟩ := others
        ((state.readMsgPos + index) % maxMessages) (by
          rw [inv.write]
          exact different before room)
      exact (inv.held index held found).congr sameSlot sameRow
    · rw [List.getElem?_append_right (Nat.not_lt.mp before)] at found
      have last : index = queue.length := by
        have inside := (List.getElem?_eq_some_iff.mp found).1
        rw [List.length_singleton] at inside
        omega
      rw [last, Nat.sub_self] at found
      obtain rfl := Option.some.inj found
      rw [last, ← inv.write]
      exact inSlot
  · intro index behind inside
    rw [List.length_append, List.length_singleton] at behind
    rw [sameRead, (others _ (by
      rw [inv.write]
      exact (different behind inside).symm)).1]
    exact inv.free index (by omega) inside
  · exact rows

theorem setErrorMessage_of_free
    (free : state.errorMessage state.writeMsgPos = none)
    (text : MessagePointer) :
    setErrorMessage state text =
      { state with
        errorMessage :=
          Function.update state.errorMessage state.writeMsgPos (some text)
        writeMsgPos := (state.writeMsgPos + 1) % maxMessages } := by
  rw [setErrorMessage, free]

theorem QueueInv.setErrorMessage (inv : QueueInv queue state)
    (text : MessagePointer) :
    QueueInv (enqueue queue (.given text)) (setErrorMessage state text) := by
  cases found : state.errorMessage state.writeMsgPos with
  | none =>
      have room := inv.write_free.mp found
      rw [setErrorMessage_of_free found, enqueue, if_pos room]
      apply inv.push room
      · rfl
      · rfl
      · intro slot other
        exact ⟨Function.update_of_ne other _ _, rfl⟩
      · exact inv.rows
      · exact Function.update_self _ _ _
  | some pointer =>
      rw [ErrorQueue.setErrorMessage, found, enqueue, if_neg]
      · exact inv
      · intro room
        rw [inv.write_free.mpr room] at found
        cases found

theorem cstring_snprintf {row stored : CharArray} {output : Text}
    (done : snprintf row 0 maxBuffer output = some stored) :
    cstring stored = formatted output := by
  rw [snprintf, strcpy, storeChars] at done
  split at done
  · obtain rfl := Option.some.inj done
    rw [List.take_zero, List.nil_append, formatted, cstring, cstring,
      List.append_assoc, List.takeWhile_append]
    split
    · rename_i whole
      rw [List.singleton_append, List.takeWhile_cons_of_neg (by simp),
        List.append_nil]
      exact (List.IsPrefix.eq_of_length (List.takeWhile_prefix _) whole).symm
    · rfl
  · cases done

theorem QueueInv.errorPrintf (inv : QueueInv queue state) (output : Text) :
    ∃ returned next, errorPrintf state output = some (returned, next) ∧
      QueueInv (enqueue queue (.printed (formatted output))) next := by
  rw [ErrorQueue.errorPrintf, enqueue]
  cases found : state.errorMessage state.writeMsgPos with
  | none =>
      have room := inv.write_free.mp found
      have fits : 0 + (output.take (maxBuffer - 1) ++ ['\x00']).length ≤
          (state.buffer state.writeMsgPos).length := by
        have size : maxBuffer = 128 := rfl
        rw [inv.rows, List.length_append, List.length_take,
          List.length_singleton]
        omega
      have done : ∃ row, snprintf (state.buffer state.writeMsgPos) 0 maxBuffer
          output = some row := by
        rw [snprintf, strcpy, storeChars, if_pos fits]
        exact ⟨_, rfl⟩
      obtain ⟨row, done⟩ := done
      have length : row.length = maxBuffer := by
        rw [snprintf, strcpy] at done
        rw [storeChars_length done]
        exact inv.rows _
      rw [if_pos room, done]
      refine ⟨_, _, rfl, ?_⟩
      let written : ErrorState :=
        { state with
          buffer := Function.update state.buffer state.writeMsgPos row }
      have free : written.errorMessage written.writeMsgPos = none := found
      rw [setErrorMessage_of_free free]
      apply inv.push room
      · rfl
      · rfl
      · intro slot other
        exact ⟨Function.update_of_ne other _ _,
          Function.update_of_ne other _ _⟩
      · intro slot
        change (Function.update state.buffer state.writeMsgPos row slot).length =
          maxBuffer
        by_cases same : slot = state.writeMsgPos
        · rw [same, Function.update_self]
          exact length
        · rw [Function.update_of_ne same]
          exact inv.rows slot
      · refine ⟨Function.update_self _ _ _, ?_⟩
        change cstring (Function.update state.buffer state.writeMsgPos row
          state.writeMsgPos) = formatted output
        rw [Function.update_self]
        exact cstring_snprintf done
  | some pointer =>
      refine ⟨-1, state, rfl, ?_⟩
      rw [if_neg]
      · exact inv
      · intro room
        rw [inv.write_free.mpr room] at found
        cases found

theorem QueueInv.goToNextErrorMessage (inv : QueueInv queue state) :
    QueueInv queue.tail (goToNextErrorMessage state) := by
  have size : maxMessages = 10 := rfl
  have first : (state.readMsgPos + 0) % maxMessages = state.readMsgPos :=
    Nat.mod_eq_of_lt inv.read_lt
  have next (index : Nat) : ((state.readMsgPos + 1) % maxMessages + index) %
      maxMessages = (state.readMsgPos + (index + 1)) % maxMessages := by
    rw [Nat.mod_add_mod, Nat.add_assoc, Nat.add_comm 1]
  rw [ErrorQueue.goToNextErrorMessage]
  cases queue with
  | nil =>
      have free := inv.free 0 (Nat.le_refl 0) (by decide)
      rw [first] at free
      rw [free]
      exact inv
  | cons message rest =>
      obtain ⟨pointer, found, -⟩ := (inv.held 0 message rfl).pointer
      rw [first] at found
      rw [found]
      have fits := inv.fits
      rw [List.length_cons] at fits
      have others {index : Nat} (inside : index + 1 < maxMessages) :
          (state.readMsgPos + (index + 1)) % maxMessages ≠
            state.readMsgPos := by
        have apart : (state.readMsgPos + 0) % maxMessages ≠
            (state.readMsgPos + (index + 1)) % maxMessages :=
          Ring.mod_add_ne_mod_add (Nat.succ_pos index) (by omega)
        rw [first] at apart
        exact apart.symm
      constructor
      · exact Nat.mod_lt _ (by decide)
      · exact Nat.le_of_succ_le fits
      · change state.writeMsgPos = _
        rw [inv.write, List.length_cons, List.tail_cons]
        exact (next rest.length).symm
      · intro index held atIndex
        have inside := (List.getElem?_eq_some_iff.mp atIndex).1
        rw [List.tail_cons] at inside
        dsimp only
        rw [next]
        have before := inv.held (index + 1) held atIndex
        exact before.congr
          (Function.update_of_ne (others (by omega)) _ _) rfl
      · intro index behind inside
        rw [List.tail_cons] at behind
        dsimp only
        rw [next]
        by_cases last : index + 1 = maxMessages
        · rw [last, Nat.add_mod_right, Nat.mod_eq_of_lt inv.read_lt]
          exact Function.update_self _ _ _
        · rw [Function.update_of_ne (others (by omega))]
          exact inv.free (index + 1) (by rw [List.length_cons]; omega)
            (by omega)
      · exact inv.rows

theorem QueueInv.step (inv : QueueInv queue state) (call : ErrorCall) :
    ∃ next, errorStep state call = some next ∧
      QueueInv (queueStep queue call) next := by
  cases call with
  | errorPrintf output =>
      obtain ⟨returned, next, done, nextInv⟩ := inv.errorPrintf output
      refine ⟨next, ?_, nextInv⟩
      rw [errorStep, done]
      rfl
  | setErrorMessage text =>
      exact ⟨_, rfl, inv.setErrorMessage text⟩
  | goToNextErrorMessage =>
      exact ⟨_, rfl, inv.goToNextErrorMessage⟩
  | getErrorMessage =>
      exact ⟨state, rfl, inv⟩

theorem QueueInv.calls (inv : QueueInv queue state) (calls : List ErrorCall) :
    ∃ last, errorCalls state calls = some last ∧
      QueueInv (calls.foldl queueStep queue) last := by
  induction calls generalizing queue state with
  | nil =>
      exact ⟨state, rfl, inv⟩
  | cons call rest ih =>
      obtain ⟨next, stepped, nextInv⟩ := inv.step call
      obtain ⟨last, ran, lastInv⟩ := ih nextInv
      refine ⟨last, ?_, lastInv⟩
      rw [errorCalls, List.foldlM_cons, stepped]
      exact ran

theorem QueueInv.shows_first (inv : QueueInv queue state) :
    Option.Rel (Shows state) (getErrorMessage state) queue.head? := by
  have first : (state.readMsgPos + 0) % maxMessages = state.readMsgPos :=
    Nat.mod_eq_of_lt inv.read_lt
  cases queue with
  | nil =>
      have free := inv.free 0 (Nat.le_refl 0) (by decide)
      rw [first] at free
      rw [getErrorMessage, free]
      exact .none
  | cons message rest =>
      obtain ⟨pointer, found, shown⟩ := (inv.held 0 message rfl).pointer
      rw [first] at found
      rw [getErrorMessage, found]
      exact .some shown

/-- After any calls the pointer to show is that of the first message of a queue
that takes at most ten, and a formatted text is still the one that was queued. -/
theorem errorCalls_queue (calls : List ErrorCall) :
    ∃ state, errorCalls ErrorState.initial calls = some state ∧
      (calls.foldl queueStep []).length ≤ maxMessages ∧
      Option.Rel (Shows state) (getErrorMessage state)
        (calls.foldl queueStep []).head? := by
  obtain ⟨state, ran, inv⟩ := queueInv_initial.calls calls
  exact ⟨state, ran, inv.fits, inv.shows_first⟩

end KernelReloaded.ErrorQueue

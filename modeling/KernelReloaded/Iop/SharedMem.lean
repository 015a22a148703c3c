/-
Characters that the EE prints through the shared memory of the IOP.

`iop_putc` on the EE and `ioThread` on the IOP share a flag byte and a data
byte.  Every access to one of the two bytes is a step of its own, and the
processors take their steps in any order.  So are the printing of a character
and the return of `iop_putc`, which come after an access and before the next.

The fields `called`, `sent`, `printed` and `completed` are records of the run
and are never read by the code.
-/

import KernelReloaded.Core.Memory
import KernelReloaded.Core.Transition
import Mathlib.Data.List.Infix

namespace KernelReloaded.SharedMem

open Memory

/-! ### The two sides -/

/-- The next thing the EE does, with the character of the call. -/
inductive EePhase where
  | idle
  | readFlag (c : Byte)
  | writeData (c : Byte)
  | writeFlag (c : Byte)
  | leave
deriving DecidableEq

inductive IopPhase where
  | readFlag
  | readData
  | print (c : Byte)
  | clearFlag
deriving DecidableEq

structure SharedState where
  /-- `shared[0]` -/
  flag : Byte
  /-- `shared[1]` -/
  data : Byte
  ee : EePhase
  iop : IopPhase
  /-- Characters of all calls made so far. -/
  called : List Byte
  /-- Characters whose call has set the flag. -/
  sent : List Byte
  printed : List Byte
  completed : Nat
deriving DecidableEq

/-- `initialized` is what the EE's search for the interface has left behind.
Without it a call returns at once. -/
def callPutc (initialized : Bool) (c : Byte) (state : SharedState) :
    Option SharedState :=
  match state.ee with
  | .idle =>
      some { state with
        ee := if initialized then .readFlag c else .leave
        called := state.called ++ [c] }
  | _ => none

def iopPutc (state : SharedState) : Option SharedState :=
  match state.ee with
  | .idle => none
  | .readFlag c =>
      if state.flag ≠ 0 then
        some state
      else
        some { state with ee := .writeData c }
  | .writeData c => some { state with data := c, ee := .writeFlag c }
  | .writeFlag c =>
      some { state with
        flag := 0xFF
        ee := .leave
        sent := state.sent ++ [c] }
  | .leave =>
      some { state with ee := .idle, completed := state.completed + 1 }

def ioThread (state : SharedState) : SharedState :=
  match state.iop with
  | .readFlag =>
      if state.flag = 0 then
        state
      else
        { state with iop := .readData }
  | .readData => { state with iop := .print state.data }
  | .print c =>
      { state with printed := state.printed ++ [c], iop := .clearFlag }
  | .clearFlag => { state with flag := 0, iop := .readFlag }

/-! ### Runs -/

inductive SharedEvent where
  | call (c : Byte)
  | ee
  | iop

def sharedStep (initialized : Bool) (state : SharedState) :
    SharedEvent → Option SharedState
  | .call c => callPutc initialized c state
  | .ee => iopPutc state
  | .iop => some (ioThread state)

/-- The flag is clear at the start, the data byte is anything. -/
def sharedMachine (initialized : Bool) (data : Byte) :
    Machine SharedState SharedEvent where
  initial :=
    { flag := 0
      data := data
      ee := .idle
      iop := .readFlag
      called := []
      sent := []
      printed := []
      completed := 0 }
  step := sharedStep initialized

/-! ### The invariant -/

/-- What the sender knows.  Between its reading of a clear flag and its setting
of the flag nobody else can have set it. -/
def SenderHolds (state : SharedState) : Prop :=
  match state.ee with
  | .idle =>
      state.called = state.sent ∧ state.completed = state.sent.length
  | .readFlag c =>
      state.called = state.sent ++ [c] ∧ state.completed = state.sent.length
  | .writeData c =>
      state.flag = 0 ∧ state.called = state.sent ++ [c] ∧
        state.completed = state.sent.length
  | .writeFlag c =>
      state.flag = 0 ∧ state.data = c ∧ state.called = state.sent ++ [c] ∧
        state.completed = state.sent.length
  | .leave =>
      state.called = state.sent ∧ state.completed + 1 = state.sent.length

/-- What the receiver knows: with the flag set, exactly the character in the
data byte is still to be printed, until it has been. -/
def ReceiverHolds (state : SharedState) : Prop :=
  match state.iop with
  | .readFlag =>
      (state.flag = 0 → state.sent = state.printed) ∧
        (state.flag ≠ 0 → state.sent = state.printed ++ [state.data])
  | .readData => state.flag ≠ 0 ∧ state.sent = state.printed ++ [state.data]
  | .print c => state.flag ≠ 0 ∧ state.sent = state.printed ++ [c]
  | .clearFlag => state.flag ≠ 0 ∧ state.sent = state.printed

structure SharedInv (state : SharedState) : Prop where
  sender : SenderHolds state
  receiver : ReceiverHolds state

theorem initial_inv (data : Byte) :
    SharedInv (sharedMachine true data).initial := by
  constructor
  · exact ⟨rfl, rfl⟩
  · exact ⟨fun _clear => rfl, fun isSet => absurd rfl isSet⟩

theorem SharedInv.waiting {state : SharedState} (inv : SharedInv state)
    (clear : state.flag = 0) :
    state.iop = .readFlag ∧ state.sent = state.printed := by
  have receiver := inv.receiver
  unfold ReceiverHolds at receiver
  cases atIop : state.iop with
  | readFlag =>
      rw [atIop] at receiver
      exact ⟨rfl, receiver.1 clear⟩
  | readData =>
      rw [atIop] at receiver
      exact absurd clear receiver.1
  | print c =>
      rw [atIop] at receiver
      exact absurd clear receiver.1
  | clearFlag =>
      rw [atIop] at receiver
      exact absurd clear receiver.1

theorem callPutc_inv {c : Byte} {state next : SharedState}
    (inv : SharedInv state) (stepped : callPutc true c state = some next) :
    SharedInv next := by
  obtain ⟨sender, receiver⟩ := inv
  unfold callPutc at stepped
  split at stepped <;> rename_i atEe
  · obtain rfl := Option.some.inj stepped
    unfold SenderHolds at sender
    rw [atEe] at sender
    obtain ⟨called, completed⟩ := sender
    constructor
    · change state.called ++ [c] = state.sent ++ [c] ∧ _
      rw [called]
      exact ⟨rfl, completed⟩
    · exact receiver
  · cases stepped

theorem iopPutc_inv {state next : SharedState}
    (inv : SharedInv state) (stepped : iopPutc state = some next) :
    SharedInv next := by
  have sender := inv.sender
  unfold SenderHolds at sender
  unfold iopPutc at stepped
  split at stepped <;> rename_i atEe <;> rw [atEe] at sender
  · cases stepped
  · rename_i c
    split at stepped <;> rename_i busy
    · obtain rfl := Option.some.inj stepped
      exact inv
    · obtain rfl := Option.some.inj stepped
      exact ⟨⟨not_not.mp busy, sender⟩, inv.receiver⟩
  · rename_i c
    obtain ⟨clear, called, completed⟩ := sender
    obtain ⟨atIop, allPrinted⟩ := inv.waiting clear
    obtain rfl := Option.some.inj stepped
    constructor
    · exact ⟨clear, rfl, called, completed⟩
    · unfold ReceiverHolds
      dsimp only
      rw [atIop]
      exact ⟨fun _clear => allPrinted, fun isSet => absurd clear isSet⟩
  · rename_i c
    obtain ⟨clear, data, called, completed⟩ := sender
    obtain ⟨atIop, allPrinted⟩ := inv.waiting clear
    obtain rfl := Option.some.inj stepped
    constructor
    · refine ⟨called, ?_⟩
      rw [List.length_append, completed]
      rfl
    · unfold ReceiverHolds
      dsimp only
      rw [atIop, allPrinted, data]
      refine ⟨fun clear => absurd clear (by decide), fun _isSet => rfl⟩
  · obtain rfl := Option.some.inj stepped
    exact ⟨sender, inv.receiver⟩

/-- Only the clearing of the flag is a step of the receiver that the sender can
see, and the flag was set before. -/
theorem ioThread_inv {state : SharedState} (inv : SharedInv state) :
    SharedInv (ioThread state) := by
  obtain ⟨sender, receiver⟩ := inv
  unfold ReceiverHolds at receiver
  unfold ioThread
  split <;> rename_i atIop <;> rw [atIop] at receiver
  · split <;> rename_i clear
    · refine ⟨sender, ?_⟩
      unfold ReceiverHolds
      rw [atIop]
      exact receiver
    · exact ⟨sender, clear, receiver.2 clear⟩
  · exact ⟨sender, receiver⟩
  · exact ⟨sender, receiver⟩
  · refine ⟨?_, ?_⟩
    · unfold SenderHolds at sender ⊢
      dsimp only
      split <;> rename_i atEe <;> rw [atEe] at sender
      · exact sender
      · exact sender
      · exact absurd sender.1 receiver.1
      · exact absurd sender.1 receiver.1
      · exact sender
    · exact ⟨fun _clear => receiver.2, fun isSet => absurd rfl isSet⟩

theorem sharedStep_inv (state : SharedState) (event : SharedEvent)
    (next : SharedState) (inv : SharedInv state)
    (stepped : sharedStep true state event = some next) : SharedInv next := by
  cases event with
  | call c => exact callPutc_inv inv stepped
  | ee => exact iopPutc_inv inv stepped
  | iop =>
      obtain rfl := Option.some.inj stepped
      exact ioThread_inv inv

theorem reach_inv {data : Byte} {state : SharedState}
    (reached : (sharedMachine true data).Reach (fun _ _ => True) state) :
    SharedInv state :=
  reached.invariant (initial_inv data)
    (fun state event next inv _any stepped =>
      sharedStep_inv state event next inv stepped)

/-! ### What is printed -/

theorem SharedInv.printed_sent {state : SharedState} (inv : SharedInv state) :
    state.sent = state.printed ∨ ∃ c, state.sent = state.printed ++ [c] := by
  have receiver := inv.receiver
  unfold ReceiverHolds at receiver
  split at receiver
  · by_cases clear : state.flag = 0
    · exact Or.inl (receiver.1 clear)
    · exact Or.inr ⟨state.data, receiver.2 clear⟩
  · exact Or.inr ⟨state.data, receiver.2⟩
  · exact Or.inr ⟨_, receiver.2⟩
  · exact Or.inl receiver.2

theorem SharedInv.sent_called {state : SharedState} (inv : SharedInv state) :
    state.sent <+: state.called ∧ state.completed ≤ state.sent.length := by
  have sender := inv.sender
  unfold SenderHolds at sender
  split at sender
  · exact ⟨sender.1 ▸ List.prefix_rfl, sender.2.le⟩
  · exact ⟨sender.1 ▸ List.prefix_append _ _, sender.2.le⟩
  · exact ⟨sender.2.1 ▸ List.prefix_append _ _, sender.2.2.le⟩
  · exact ⟨sender.2.2.1 ▸ List.prefix_append _ _, sender.2.2.2.le⟩
  · exact ⟨sender.1 ▸ List.prefix_rfl, by omega⟩

/-- In every interleaving the IOP has printed what the EE has sent, in order
and with nothing lost, doubled or changed, up to the last character. -/
theorem printed_follows_calls (data : Byte) (state : SharedState)
    (reached : (sharedMachine true data).Reach (fun _ _ => True) state) :
    state.printed <+: state.sent ∧ state.sent <+: state.called ∧
      state.completed ≤ state.printed.length + 1 := by
  have inv := reach_inv reached
  obtain ⟨sentCalled, completed⟩ := inv.sent_called
  rcases inv.printed_sent with allPrinted | ⟨c, oneLeft⟩
  · refine ⟨allPrinted ▸ List.prefix_rfl, sentCalled, ?_⟩
    rw [allPrinted] at completed
    omega
  · refine ⟨oneLeft ▸ List.prefix_append _ _, sentCalled, ?_⟩
    rw [oneLeft, List.length_append] at completed
    exact completed

/-- Two calls: the first character is printed while the second is waiting for
the flag, which is still set. -/
def twoCalls : List SharedEvent :=
  [.call 0x48, .iop, .ee, .ee, .ee, .iop, .iop, .ee, .call 0x69, .ee, .iop]

def afterTwoCalls : SharedState :=
  { flag := 0xFF
    data := 0x48
    ee := .readFlag 0x69
    iop := .clearFlag
    called := [0x48, 0x69]
    sent := [0x48]
    printed := [0x48]
    completed := 1 }

theorem twoCalls_printed :
    (sharedMachine true 0).Reach (fun _ _ => True) afterTwoCalls ∧
      [0x48] <+: afterTwoCalls.sent ∧
      afterTwoCalls.sent <+: afterTwoCalls.called ∧
      afterTwoCalls.completed ≤ afterTwoCalls.printed.length + 1 := by
  have followed : (sharedMachine true 0).follow (fun _ _ => True) twoCalls
      (sharedMachine true 0).initial = some afterTwoCalls := by
    decide
  have reached := Machine.Reach.follow twoCalls Machine.Reach.initial followed
  exact ⟨reached, printed_follows_calls 0 afterTwoCalls reached⟩

end KernelReloaded.SharedMem

/-
The transmit queue of the IOP network module and its pool of frame buffers.

One RPC thread sends; interrupts and the timer serve the queue.  Everything the
source does with interrupts disabled or in interrupt context is one step here,
and so is an allocation in the thread.  `Send` retries a full queue at any time,
which covers the semaphores it waits on.  Messages and the copying of a received
frame to the EE are left out, except for the transfer id that the copy leaves in
the buffer.

The fields `accepted`, `passed` and `owner` are records of the run and are never
read by the code.
-/

import KernelReloaded.Core.Memory
import KernelReloaded.Core.Ring
import KernelReloaded.Core.Transition
import Mathlib.Data.List.Infix
import Mathlib.Data.List.Nodup

namespace KernelReloaded.Smap

open Memory

def numberOfBuffers : Nat := 20

def frameSize : Nat := 1536

def maxReqCnt : Nat := 8

def timerInterval : Int := 100 * 1000

def timeoutLimit : Int := 300 * 1000

def rxMinSize : Nat := 14

def rxMaxSize : Nat := 6 + 6 + 2 + 1500 + 4

/-! ### State -/

inductive SmapStatus where
  | ok
  | err
  | con
  | tx
deriving DecidableEq

/-- The fields of `struct pbuf` besides the payload, which is fixed for each
buffer. -/
structure Pbuf where
  len : Nat
  ref : Nat
  id : Int

inductive Owner where
  | nobody
  | sender
  | receiver
deriving DecidableEq

structure SmapState where
  buffers : Nat → Pbuf
  payload : Image
  queue : Ring Nat maxReqCnt
  timeoutCnt : Int
  /-- The buffer of the `smap_send` in progress. -/
  sending : Option Nat
  accepted : List (List Byte)
  passed : List (List Byte)
  owner : Nat → Owner

/-- The bytes `SMap_Send` reads from a buffer. -/
def SmapState.frame (state : SmapState) (index : Nat) : List Byte :=
  (List.range (state.buffers index).len).map fun offset =>
    state.payload (frameSize * index + offset)

/-! ### The pool -/

def SmapState.setBuffer (state : SmapState) (index : Nat) (buffer : Pbuf) :
    SmapState :=
  { state with buffers := Function.update state.buffers index buffer }

def pbufFree (state : SmapState) (index : Nat) : SmapState :=
  state.setBuffer index { state.buffers index with id := 0, ref := 0 }

/-- `dmaDone id` is `SifDmaStat(id) < 0`. -/
def pbufCheckTransfers (dmaDone : Int → Bool) (state : SmapState) : SmapState :=
  { state with
    buffers := fun index =>
      let buffer := state.buffers index
      if index < numberOfBuffers ∧ buffer.ref ≠ 0 ∧ buffer.id ≠ 0 ∧
          dmaDone buffer.id = true then
        { buffer with id := 0, ref := 0 }
      else
        buffer }

def freeBuffer (state : SmapState) : Option Nat :=
  (List.range numberOfBuffers).find? fun index =>
    (state.buffers index).ref == 0

def copyBytes (payload : Image) (dest : Nat) (bytes : List Byte) : Image :=
  fun address =>
    if dest ≤ address ∧ address < dest + bytes.length then
      bytes.getD (address - dest) 0
    else
      payload address

/-- `pbuf_alloc` for the frame and the copy into it: `memcpy` in `smap_send`,
`CopyFromFIFO` for a received one. -/
def allocFrame (dmaDone : Int → Bool) (bytes : List Byte) (owner : Owner)
    (state : SmapState) : Option Nat × SmapState :=
  let state := pbufCheckTransfers dmaDone state
  match freeBuffer state with
  | none => (none, state)
  | some index =>
      let state := state.setBuffer index
        { len := bytes.length % 65536
          ref := (state.buffers index).ref + 1
          id := 0 }
      (some index,
        { state with
          payload := copyBytes state.payload (frameSize * index) bytes
          owner := Function.update state.owner index owner })

/-! ### The queue -/

def storeLast (state : SmapState) (index : Nat) : SmapState :=
  let buffer := state.buffers index
  { state.setBuffer index { buffer with ref := buffer.ref + 1 } with
    queue := state.queue.storeLast index }

def accept (state : SmapState) (index : Nat) : SmapState :=
  { state with accepted := state.accepted ++ [state.frame index] }

def pass (state : SmapState) (index : Nat) : SmapState :=
  { state with passed := state.passed ++ [state.frame index] }

/-- `AddToQueue`, with the answer of `SMap_Send` should it be called. -/
def addToQueue (answer : SmapStatus) (state : SmapState) (index : Nat) :
    SmapStatus × SmapState :=
  if state.queue.count = 0 then
    match answer with
    | .tx =>
        (.ok, pbufFree { storeLast (accept state index) index with
          timeoutCnt := 0 } index)
    | .ok => (.ok, pbufFree (pass (accept state index) index) index)
    | .err => (.err, state)
    | .con => (.con, state)
  else if state.queue.count < maxReqCnt then
    (.ok, storeLast (accept state index) index)
  else
    (.tx, state)

/-- The loop of `SendRequests`, with the number of requests left; `answers`
gives the answer of `SMap_Send` to each call in turn. -/
def sendRequests (answers : Nat → SmapStatus) :
    (requests calls : Nat) → SmapState → SmapState
  | 0, _, state => state
  | requests + 1, calls, state =>
      let request := state.queue.slots state.queue.first
      let state := { state with timeoutCnt := 0 }
      if answers calls = .tx then
        state
      else
        let state := pbufFree (pass state request) request
        sendRequests answers requests (calls + 1)
          { state with queue := state.queue.dropFirst }

def queueHandler (answers : Nat → SmapStatus) (state : SmapState) : SmapState :=
  sendRequests answers state.queue.count 0 state

def addInt (left right : Int) : Int :=
  (left + right + 2147483648) % 4294967296 - 2147483648

def timer (answers : Nat → SmapStatus) (state : SmapState) : SmapState :=
  if state.queue.count = 0 then
    state
  else
    let state := { state with
      timeoutCnt := addInt state.timeoutCnt timerInterval }
    if timeoutLimit ≤ state.timeoutCnt ∧
        state.timeoutCnt < timeoutLimit + timerInterval then
      queueHandler answers state
    else
      state

/-! ### Steps -/

inductive Event where
  /-- `smap_send` up to the call of `SMapLowLevelOutput`. -/
  | request (bytes : List Byte) (dmaDone : Int → Bool)
  /-- One round of the loop in `Send`. -/
  | attempt (answer : SmapStatus)
  | txInterrupt (answers : Nat → SmapStatus)
  | tick (answers : Nat → SmapStatus)
  /-- A frame in the receive buffers; `id` is the result of `sceSifSendCmd`, or
  0 when there is no EE buffer. -/
  | receive (bytes : List Byte) (dmaDone : Int → Bool) (id : Int)

def receiveFrame (bytes : List Byte) (dmaDone : Int → Bool) (id : Int)
    (state : SmapState) : SmapState :=
  if rxMinSize ≤ bytes.length ∧ bytes.length ≤ rxMaxSize then
    match allocFrame dmaDone bytes .receiver state with
    | (none, state) => state
    | (some index, state) =>
        state.setBuffer index { state.buffers index with id := id }
  else
    state

def smapStep (state : SmapState) : Event → Option SmapState
  | .request bytes dmaDone =>
      match state.sending with
      | some _ => none
      | none =>
          let (index, state) := allocFrame dmaDone bytes .sender state
          some { state with sending := index }
  | .attempt answer =>
      match state.sending with
      | none => none
      | some index =>
          let (result, state) := addToQueue answer state index
          some { state with
            sending := if result = .tx then some index else none }
  | .txInterrupt answers => some (queueHandler answers state)
  | .tick answers => some (timer answers state)
  | .receive bytes dmaDone id => some (receiveFrame bytes dmaDone id state)

def smapMachine : Machine SmapState Event :=
  { initial :=
      { buffers := fun _ => { len := 0, ref := 0, id := 0 }
        payload := fun _ => 0
        queue := { slots := fun _ => 0, first := 0, count := 0
                   first_lt := by decide }
        timeoutCnt := 0
        sending := none
        accepted := []
        passed := []
        owner := fun _ => .nobody }
    step := smapStep }

end KernelReloaded.Smap

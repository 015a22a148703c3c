/-
The transmit ring of the Ethernet controller: its buffer descriptors and its memory.

The driver puts a frame in the memory behind the last one, fills in the next
descriptor and hands it to the controller by its ready bit.  The controller works
through the descriptors in turn, reads a frame from the memory where its descriptor
points to, clears the ready bit and leaves its status.  `HandleTXInt` takes the
descriptors back.  It and `SMap_Send` run with interrupts off; what the controller
does meanwhile can as well happen before or after them.  A frame is written from
the place of the write pointer on, and the memory is a circle for the driver and
for the controller.

The fields `accepted`, `sent` and `reclaimed` are records of the run and are never
read by the code.
-/

import KernelReloaded.Core.Circular
import KernelReloaded.Iop.SmapQueue
import Mathlib.Algebra.Ring.Nat

namespace KernelReloaded.SmapTransmit

open Memory Smap Circular

def txBufBase : Nat := 0x1000

def txBufSize : Nat := 4 * 1024

def txMaxSize : Nat := 6 + 6 + 2 + 1500

def bdMaxEntry : Nat := 64

def bdTxReady : BitVec 16 := 1 <<< 15

def bdTxGenFcs : BitVec 16 := 1 <<< 9

def bdTxGenPad : BitVec 16 := 1 <<< 8

def bdTxErrMask : BitVec 16 := 0x3FF

/-! ### State -/

structure SMapBD where
  ctrlStat : BitVec 16
  length : Nat
  pointer : Nat

structure TxState where
  linkValid : Bool
  bds : Nat → SMapBD
  ptrStart : Nat
  ptrEnd : Nat
  indexStart : Nat
  indexEnd : Nat
  /-- `au32TXBuf`. -/
  txBuf : Image
  txMem : Nat → Byte
  /-- The descriptor the controller is to take next. -/
  next : Nat
  accepted : List (List Byte)
  sent : List (List Byte)
  /-- How many descriptors the driver has taken back. -/
  reclaimed : Nat

/-- A chain of buffers with the bytes of a frame. -/
structure Packet where
  payload : List Byte
  rest : List (List Byte)
  /-- What is in memory behind the payload of the first buffer. -/
  behind : Image
  /-- The payload of the first buffer is at a multiple of 4. -/
  aligned : Bool

def Packet.bytes (packet : Packet) : List Byte := packet.payload ++ packet.rest.flatten

def Packet.totLen (packet : Packet) : Nat := packet.bytes.length

def SMapBD.ready (bd : SMapBD) : Bool := bd.ctrlStat &&& bdTxReady != 0

def SMapBD.failed (bd : SMapBD) : Bool := bd.ctrlStat &&& bdTxErrMask != 0

def bdNext (index : Nat) : Nat := if index < bdMaxEntry - 1 then index + 1 else 0

def txLen (length : Nat) : Nat := (length + 3) / 4 * 4

def txBDInit (state : TxState) : TxState :=
  { state with
    ptrStart := 0
    ptrEnd := 0
    indexStart := 0
    indexEnd := 0
    bds := fun index =>
      if index < bdMaxEntry then { ctrlStat := 0, length := 0, pointer := 0 }
      else state.bds index }

/-! ### Sending -/

def computeFreeSize (state : TxState) : Nat :=
  if state.ptrStart > state.ptrEnd then txBufSize + state.ptrEnd - state.ptrStart
  else txBufSize - (state.ptrEnd - state.ptrStart)

def copyToTXBuffer : (parts : List (List Byte)) → (dest : Nat) → Image → Image
  | [], _, buffer => buffer
  | part :: rest, dest, buffer =>
      copyToTXBuffer rest (dest + part.length) (copyBytes buffer dest part)

/-- The loop of `CopyToFIFO`; the controller advances its write pointer with each
word. -/
def copyToFIFO (source : Image) : (words offset pointer : Nat) → (Nat → Byte) →
    Nat → Byte
  | 0, _, _, memory => memory
  | words + 1, offset, pointer, memory =>
      copyToFIFO source words (offset + 4) ((pointer + 4) % txBufSize)
        (put txBufSize pointer
          [source offset, source (offset + 1), source (offset + 2),
            source (offset + 3)] memory)

/-- `gnp` gives the answers of `TxMODE0`. -/
def isEMACReady (gnp : Nat → Bool) : Bool :=
  (List.range 1000).any fun round => !gnp round

/-- What `CopyToFIFO` reads, and the buffer it may be in. -/
def frameSource (packet : Packet) (state : TxState) : Image × Image :=
  if packet.totLen = packet.payload.length ∧ packet.aligned = true then
    (fun offset => packet.payload.getD offset (packet.behind offset), state.txBuf)
  else
    let buffer := copyToTXBuffer (packet.payload :: packet.rest) 0 state.txBuf
    (buffer, buffer)

/-- The end of `SMap_Send`, which sends the frame. -/
def sendFrame (packet : Packet) (state : TxState) : TxState :=
  let source := frameSource packet state
  { state with
    txBuf := source.2
    txMem := copyToFIFO source.1 (txLen packet.totLen / 4) 0 state.ptrEnd state.txMem
    bds := Function.update state.bds state.indexEnd
      { ctrlStat := bdTxReady ||| bdTxGenFcs ||| bdTxGenPad
        length := packet.totLen
        pointer := state.ptrEnd + txBufBase }
    ptrEnd := (state.ptrEnd + txLen packet.totLen) % txBufSize
    indexEnd := bdNext state.indexEnd
    accepted := state.accepted ++ [packet.bytes] }

def smapSend (packet : Packet) (gnp : Nat → Bool) (state : TxState) :
    SmapStatus × TxState :=
  if state.linkValid = false then
    (.con, state)
  else if packet.totLen > txMaxSize then
    (.err, state)
  else if txLen packet.totLen > computeFreeSize state then
    (.tx, state)
  else if isEMACReady gnp = false then
    (.err, state)
  else
    (.ok, sendFrame packet state)

/-! ### Descriptors come back -/

def retire (state : TxState) : TxState :=
  let bd := state.bds state.indexStart
  { state with
    ptrStart := (state.ptrStart + txLen bd.length) % txBufSize
    indexStart := bdNext state.indexStart
    bds := Function.update state.bds state.indexStart
      { ctrlStat := 0, length := 0, pointer := 0 }
    reclaimed := state.reclaimed + 1 }

/-- The loop of `HandleTXInt`, which meets no descriptor twice. -/
def reclaim : (rounds : Nat) → (noError : Bool) → TxState → Bool × TxState
  | 0, noError, state => (noError, state)
  | rounds + 1, noError, state =>
      if state.indexStart = state.indexEnd then
        (noError, { state with ptrStart := state.ptrEnd })
      else
        let bd := state.bds state.indexStart
        let noError := noError && !bd.failed
        if bd.ready then
          (noError, state)
        else
          reclaim rounds noError (retire state)

def handleTXInt (state : TxState) : Bool × TxState := reclaim bdMaxEntry true state

/-! ### The controller -/

def frameAt (state : TxState) (index : Nat) : List Byte :=
  let bd := state.bds index
  get txBufSize (bd.pointer - txBufBase) bd.length state.txMem

/-- The controller sends the frame of a ready descriptor; otherwise it waits. -/
def transmit (status : BitVec 16) (state : TxState) : TxState :=
  let bd := state.bds state.next
  if bd.ready then
    { state with
      bds := Function.update state.bds state.next
        { bd with ctrlStat := status &&& ~~~bdTxReady }
      next := bdNext state.next
      sent := state.sent ++ [frameAt state state.next] }
  else
    state

/-! ### Runs -/

inductive Event where
  | send (packet : Packet) (gnp : Nat → Bool)
  | transmit (status : BitVec 16)
  | txInterrupt

def txStep (state : TxState) : Event → TxState
  | .send packet gnp => (smapSend packet gnp state).2
  | .transmit status => transmit status state
  | .txInterrupt => (handleTXInt state).2

/-- After `SMap_Init`, with the ring empty. -/
def started (linkValid : Bool) (txBuf : Image) (txMem : Nat → Byte) : TxState :=
  txBDInit
    { linkValid := linkValid
      bds := fun _ => { ctrlStat := 0, length := 0, pointer := 0 }
      ptrStart := 0
      ptrEnd := 0
      indexStart := 0
      indexEnd := 0
      txBuf := txBuf
      txMem := txMem
      next := 0
      accepted := []
      sent := []
      reclaimed := 0 }

/-! ### What is wanted -/

/-- The place of a frame in the memory, counted without end. -/
def place (frames : List (List Byte)) (count : Nat) : Nat :=
  ((frames.take count).map fun frame => txLen frame.length).sum

def TxState.waiting (state : TxState) : Nat :=
  state.accepted.length - state.reclaimed

def TxState.occupied (state : TxState) : Nat :=
  place state.accepted state.accepted.length - place state.accepted state.reclaimed

/-- The frames that the ready descriptors from the controller's on stand for. -/
def TxState.pending (state : TxState) : List (List Byte) :=
  (List.range (state.accepted.length - state.sent.length)).map fun index =>
    frameAt state ((state.next + index) % bdMaxEntry)

/-- Every frame accepted was sent or still will be, in order, once and with its
bytes. -/
def InOrder (state : TxState) : Prop :=
  state.accepted = state.sent ++ state.pending

/-- A frame that is accepted fits behind the ones not taken back, and leaves a
descriptor. -/
def Met (state : TxState) : Event → Prop
  | .send packet gnp =>
      (smapSend packet gnp state).1 = .ok →
        state.occupied + txLen packet.totLen ≤ txBufSize ∧
          state.waiting + 1 < bdMaxEntry
  | .transmit _ | .txInterrupt => True

end KernelReloaded.SmapTransmit

/-
The memory card calls of the SBIOS.

All of them share one RPC client, the argument structures, the three addresses
of `sbcall_mcgetinfo` and the result word `rdata`.  A call sets `lastCmd` with
interrupts disabled, stores its arguments and sends its RPC; its completion
handler copies what came back, clears `lastCmd`, and only then reads `rdata` and
reports the end.  Between these steps other calls and completions may run.

The RPC layer decides whether a send succeeds and when the reply of a sent RPC
comes.  The fields `found`, `left`, `reply` and `stores` of a call are records
of the run and are never read by the code.  The cache is left out.
-/

import KernelReloaded.Core.AsyncCalls
import KernelReloaded.Core.CText
import KernelReloaded.Core.Memory
import KernelReloaded.Core.Transition

namespace KernelReloaded.Mc

open KernelReloaded.CText
open KernelReloaded.Memory

/-! ### Shared data -/

inductive McType where
  | mc
  | xmc
deriving DecidableEq

/-- The modules found on the IOP, and the addresses of the two buffers that are
passed by address. -/
structure McSetup where
  mcType : McType
  endParameter : Int
  buffFileInfo : Int

structure McCmd where
  port : Int
  slot : Int
  flags : Int
  maxent : Int
  table : Int
  /-- `strncpy` fills the rest of the array with zeros. -/
  name : Text

structure McFileCmd where
  fd : Int
  size : Int
  offset : Int
  origin : Int
  buffer : Int
  param : Int
  data : Nat → Byte

/-- What the calls store for the IOP and for their completion handlers. -/
structure Shared where
  mcCmd : McCmd
  mcFileCmd : McFileCmd
  mcInfoCmd : Nat → Int
  typeAddr : Nat
  freeAddr : Nat
  formatAddr : Nat
  buffFileInfo : Nat → Byte

def Shared.zero : Shared where
  mcCmd :=
    { port := 0, slot := 0, flags := 0, maxent := 0, table := 0, name := [] }
  mcFileCmd :=
    { fd := 0, size := 0, offset := 0, origin := 0, buffer := 0, param := 0
      data := fun _ => 0 }
  mcInfoCmd := fun _ => 0
  typeAddr := 0
  freeAddr := 0
  formatAddr := 0
  buffFileInfo := fun _ => 0

/-! ### Calls and their arguments -/

inductive McCall where
  | mcgetinfo (port slot : Int) (type free format : Nat)
  | mcopen (port slot : Int) (name : Text) (mode : Int)
  | mcclose (fd : Int)
  | mcseek (fd offset whence : Int)
  | mcread (fd : Int) (buf size : Nat)
  | mcwrite (fd : Int) (buf size : Nat) (bytes : Nat → Byte)
  | mcflush (fd : Int)
  | mcmkdir (port slot : Int) (name : Text)
  | mcgetdir (port slot : Int) (name : Text) (mode maxEntries : Int)
      (dirents : Nat)
  | mcsetfileinfo (port slot : Int) (name : Text) (dirent : Nat → Byte)
      (modes : Int)
  | mcdelete (port slot : Int) (name : Text)
  | mcformat (port slot : Int)
  | mcunformat (port slot : Int)
  | mcgetentspace (port slot : Int) (name : Text)
  | mcrename (port slot : Int) (origname newname : Text)

def McCall.func : McCall → Nat
  | .mcgetinfo .. => 0x01
  | .mcopen .. => 0x02
  | .mcclose .. => 0x03
  | .mcseek .. => 0x04
  | .mcread .. => 0x05
  | .mcwrite .. => 0x06
  | .mcflush .. => 0x0a
  | .mcmkdir .. => 0x0b
  | .mcgetdir .. => 0x0d
  | .mcsetfileinfo .. => 0x0e
  | .mcdelete .. => 0x0f
  | .mcformat .. => 0x10
  | .mcunformat .. => 0x11
  | .mcgetentspace .. => 0x12
  | .mcrename .. => 0x13

def flag (address : Nat) : Int := if address = 0 then 0 else 1

def infoWords (setup : McSetup) (port slot : Int) (type free format : Nat)
    (words : Nat → Int) : Nat → Int :=
  fun index =>
    -- The two kinds of modules expect the flags in opposite orders.
    if index = 1 then port
    else if index = 2 then slot
    else if index = 3 then flag (if setup.mcType = .mc then type else format)
    else if index = 4 then flag free
    else if index = 5 then flag (if setup.mcType = .mc then format else type)
    else if index = 7 then setup.endParameter
    else words index

/-- The bytes up to the next multiple of 16. -/
def unaligned (buf : Nat) : Int := ((buf : Int) - 1) / 16 * 16 - (buf - 16)

def storeBytes (count : Int) (bytes data : Nat → Byte) : Nat → Byte :=
  fun index => if (index : Int) < count then bytes index else data index

def storeWrite (fd : Int) (buf size : Nat) (bytes : Nat → Byte)
    (fileCmd : McFileCmd) : McFileCmd :=
  -- A short block and the unaligned start of a long one lie in the command itself.
  if size < 17 then
    { fileCmd with
      fd := fd, size := 0, origin := size, buffer := 0
      data := storeBytes size bytes fileCmd.data }
  else
    { fileCmd with
      fd := fd, size := size - unaligned buf, origin := unaligned buf
      buffer := buf + unaligned buf
      data := storeBytes (unaligned buf) bytes fileCmd.data }

def storeNewname (newname : Text) (info : Nat → Byte) : Nat → Byte :=
  fun index =>
    if 32 ≤ index ∧ index < 64 then
      ((newname.take 31).map fun char => BitVec.ofNat 8 char.toNat).getD
        (index - 32) 0
    else info index

def storeName (name : Text) : Text := name.take 1023

def McCall.store (setup : McSetup) (shared : Shared) : McCall → Shared
  | .mcgetinfo port slot type free format =>
      { shared with
        mcInfoCmd :=
          infoWords setup port slot type free format shared.mcInfoCmd
        typeAddr := type
        freeAddr := free
        formatAddr := format }
  | .mcopen port slot name mode =>
      { shared with
        mcCmd :=
          { shared.mcCmd with
            port := port, slot := slot, flags := mode, name := storeName name } }
  | .mcclose fd =>
      { shared with mcFileCmd := { shared.mcFileCmd with fd := fd } }
  | .mcseek fd offset whence =>
      { shared with
        mcFileCmd :=
          { shared.mcFileCmd with fd := fd, offset := offset, origin := whence } }
  | .mcread fd buf size =>
      { shared with
        mcFileCmd :=
          { shared.mcFileCmd with
            fd := fd, size := size, buffer := buf
            param := setup.endParameter } }
  | .mcwrite fd buf size bytes =>
      { shared with
        mcFileCmd := storeWrite fd buf size bytes shared.mcFileCmd }
  | .mcflush fd =>
      { shared with mcFileCmd := { shared.mcFileCmd with fd := fd } }
  | .mcmkdir port slot name =>
      { shared with
        mcCmd :=
          { shared.mcCmd with
            port := port, slot := slot, flags := 0x40, name := storeName name } }
  | .mcgetdir port slot name mode maxEntries dirents =>
      { shared with
        mcCmd :=
          { port := port, slot := slot, flags := mode, maxent := maxEntries
            table := dirents, name := storeName name } }
  | .mcsetfileinfo port slot name dirent modes =>
      { shared with
        mcCmd :=
          { shared.mcCmd with
            port := port, slot := slot, flags := modes
            table := setup.buffFileInfo, name := storeName name }
        buffFileInfo := storeBytes 64 dirent shared.buffFileInfo }
  | .mcdelete port slot name =>
      { shared with
        mcCmd :=
          { shared.mcCmd with
            port := port, slot := slot, flags := 0, name := storeName name } }
  | .mcformat port slot =>
      { shared with mcCmd := { shared.mcCmd with port := port, slot := slot } }
  | .mcunformat port slot =>
      { shared with mcCmd := { shared.mcCmd with port := port, slot := slot } }
  | .mcgetentspace port slot name =>
      { shared with
        mcCmd :=
          { shared.mcCmd with port := port, slot := slot, name := storeName name } }
  | .mcrename port slot origname newname =>
      { shared with
        mcCmd :=
          { shared.mcCmd with
            port := port, slot := slot, flags := 0x10
            table := setup.buffFileInfo, name := storeName origname }
        buffFileInfo := storeNewname newname shared.buffFileInfo }

/-! ### Completion handlers -/

def endWord (endParameter : Image) (index : Nat) : Int :=
  toInt32 (le32 endParameter (4 * index))

def storeWord (address : Nat) (byte : Nat → Byte) : List Store :=
  if address = 0 then [] else [{ dest := address, size := 4, byte := byte }]

def infoStores (mcType : McType) (typeAddr freeAddr formatAddr : Nat)
    (endParameter : Image) : List Store :=
  storeWord typeAddr endParameter ++
    storeWord freeAddr (fun index => endParameter (4 + index)) ++
    storeWord formatAddr
      (match mcType with
        | .mc =>
            -- Old modules report every card as formatted.
            if endWord endParameter 0 = 0 then fun _ => 0
            else fun index => if index = 0 then 1 else 0
        | .xmc => fun index => endParameter (4 * 36 + index))

def readStores (mcType : McType) (endParameter : Image) : List Store :=
  let copy (sizeWord destWord source : Nat) : List Store :=
    let dest := le32 endParameter (4 * destWord)
    if dest = 0 then []
    else
      [{ dest := dest, size := (endWord endParameter sizeWord).toNat
         byte := fun index => endParameter (source + index) }]
  copy 0 2 (4 * 4) ++
    copy 1 3 (match mcType with
      | .mc => 4 * 8
      | .xmc => 4 * 20)

/-- What the completion handler of a call stores for its caller before the end
of the transaction. -/
def McCall.handlerStores (setup : McSetup) (shared : Shared)
    (endParameter : Image) : McCall → List Store
  | .mcgetinfo .. =>
      infoStores setup.mcType shared.typeAddr shared.freeAddr shared.formatAddr
        endParameter
  | .mcread .. => readStores setup.mcType endParameter
  | _ => []

/-! ### State -/

inductive Phase where
  | idle
  | entered
  | taken
  | stored
  | sent
  | replied
  | copied
  /-- `lastCmd` is cleared and `rdata` not yet read. -/
  | cleared
  | finished
deriving DecidableEq

def Phase.outstanding : Phase → Bool
  | .taken => true
  | .stored => true
  | .sent => true
  | .replied => true
  | .copied => true
  | _ => false

structure Reply where
  result : Int
  endParameter : Image

structure CallState where
  phase : Phase
  call : McCall
  answer : Answer Int
  /-- `lastCmd` when the call looked at it, and when it returned an error. -/
  found : Nat
  left : Nat
  reply : Option Reply
  stores : List Store

def CallState.Outstanding (call : CallState) : Prop :=
  call.phase.outstanding = true

structure McState where
  mcInitializeCounter : Nat
  lastCmd : Nat
  shared : Shared
  rdata : Int
  endParameter : Image
  made : Nat
  calls : Nat → CallState

def McState.setCall (state : McState) (id : Nat) (call : CallState) : McState :=
  { state with calls := Function.update state.calls id call }

def sifRpceSendp : Int := 2

def mcInitialized : Nat := 2

/-! ### The steps of a call -/

def enter (call : McCall) (state : McState) : McState :=
  let initialized := state.mcInitializeCounter = mcInitialized
  { state with made := state.made + 1 }.setCall state.made
    { phase := if initialized then .entered else .finished
      call := call
      answer := if initialized then .open_ else .refuse (-1)
      found := state.lastCmd
      left := state.lastCmd
      reply := none
      stores := [] }

def take (id : Nat) (state : McState) : McState :=
  let call := state.calls id
  if state.lastCmd ≠ 0 then
    state.setCall id
      { call with
        phase := .finished
        answer := .refuse (-sifRpceSendp)
        found := state.lastCmd
        left := state.lastCmd }
  else
    { state with lastCmd := call.call.func }.setCall id
      { call with phase := .taken, found := state.lastCmd }

def store (setup : McSetup) (id : Nat) (state : McState) : McState :=
  let call := state.calls id
  { state with shared := call.call.store setup state.shared }.setCall id
    { call with phase := .stored }

def send (id : Nat) (success : Bool) (state : McState) : McState :=
  let call := state.calls id
  if success then
    state.setCall id { call with phase := .sent, answer := .promise }
  else
    { state with lastCmd := 0 }.setCall id
      { call with
        phase := .finished, answer := .refuse (-sifRpceSendp), left := 0 }

/-! ### Completions -/

def reply (id : Nat) (answer : Reply) (state : McState) : McState :=
  let call := state.calls id
  { state with
    rdata := answer.result
    endParameter := answer.endParameter }.setCall id
    { call with phase := .replied, reply := some answer }

def copy (setup : McSetup) (id : Nat) (state : McState) : McState :=
  let call := state.calls id
  state.setCall id
    { call with
      phase := .copied
      stores :=
        call.call.handlerStores setup state.shared state.endParameter }

def clear (id : Nat) (state : McState) : McState :=
  { state with lastCmd := 0 }.setCall id
    { state.calls id with phase := .cleared }

def endfunc (id : Nat) (state : McState) : McState :=
  let call := state.calls id
  state.setCall id
    { call with phase := .finished, answer := call.answer.report state.rdata }

/-! ### Runs -/

inductive Event where
  | enter (call : McCall)
  | take (id : Nat)
  | store (id : Nat)
  | send (id : Nat) (success : Bool)
  | reply (id : Nat) (answer : Reply)
  | copy (id : Nat)
  | clear (id : Nat)
  | endfunc (id : Nat)

/-- The call a step belongs to; one that is entered has no number yet. -/
def Event.id : Event → Option Nat
  | .enter _ => none
  | .take id => some id
  | .store id => some id
  | .send id _ => some id
  | .reply id _ => some id
  | .copy id => some id
  | .clear id => some id
  | .endfunc id => some id

def McState.inPhase (state : McState) (id : Nat) (phase : Phase)
    (next : McState) : Option McState :=
  if (state.calls id).phase = phase then some next else none

def mcStep (setup : McSetup) (state : McState) : Event → Option McState
  | .enter call => some (enter call state)
  | .take id => state.inPhase id .entered (take id state)
  | .store id => state.inPhase id .taken (store setup id state)
  | .send id success => state.inPhase id .stored (send id success state)
  | .reply id answer => state.inPhase id .sent (reply id answer state)
  | .copy id => state.inPhase id .replied (copy setup id state)
  | .clear id => state.inPhase id .copied (clear id state)
  | .endfunc id => state.inPhase id .cleared (endfunc id state)

def mcMachine (setup : McSetup) : Machine McState Event :=
  { initial :=
      { mcInitializeCounter := mcInitialized
        lastCmd := 0
        shared := Shared.zero
        rdata := 0
        endParameter := fun _ => 0
        made := 0
        calls := fun _ =>
          { phase := .idle, call := .mcclose 0, answer := .open_, found := 0
            left := 0, reply := none, stores := [] } }
    step := mcStep setup }

end KernelReloaded.Mc

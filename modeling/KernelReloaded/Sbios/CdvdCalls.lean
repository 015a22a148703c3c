/-
The CDVD calls of the SBIOS and their two locks.

A call runs in steps that other calls and completions may interrupt: it is
entered, takes its lock with `sbios_tryLock`, looks with `SifCheckStatRpc`
whether the client is busy, prepares its buffers and sends its RPC.  The RPC
layer decides whether a client is busy, whether a send succeeds, and when the
one completion of a sent RPC comes.  A completion handles the reply, gives back
a lock and reports the end; interrupts may be enabled between these.

Shared buffers are names here; the data of the commands is left out, besides
the first word a completion reads from its receive buffer.  The fields
`releases` and `writes` are records of the run and are never read by the code.
-/

import KernelReloaded.Core.AsyncCalls
import KernelReloaded.Core.Transition

namespace KernelReloaded.Cdvd

/-! ### Locks, clients and buffers -/

/-- `cdvdMutexN` and `cdvdMutexS`. -/
inductive Lock where
  | n
  | s
deriving DecidableEq

inductive Client where
  | init
  | searchFile
  | diskReady
  | nCmd
  | sCmd
deriving DecidableEq

inductive Buffer where
  | initMode
  | diskReadyMode
  | sCmdSendBuff
  | sCmdRecvBuff
  | sCmdCfgRecvBuff
  | readData
  | curReadPos
  | rdIntrData
  | getTocSendBuff
  | tocBuff
  | nCmdRecvBuff
deriving DecidableEq

/-- The class a buffer belongs to; `initMode` is used with and without a
lock. -/
def Buffer.lock : Buffer → Option Lock
  | .initMode => none
  | .diskReadyMode => some .s
  | .sCmdSendBuff => some .s
  | .sCmdRecvBuff => some .s
  | .sCmdCfgRecvBuff => some .s
  | .readData => some .n
  | .curReadPos => some .n
  | .rdIntrData => some .n
  | .getTocSendBuff => some .n
  | .tocBuff => some .n
  | .nCmdRecvBuff => some .n

def sifRpceGetp : Int := 1

def sifRpceSendp : Int := 2

def cdvdReadyNotready : Int := 6

/-! ### Commands -/

/-- A command behind `cdCheckNCmd` or `cdCheckSCmd`: the buffers it sends or
receives with, and what it reports for the first word received. -/
structure Command where
  lock : Lock
  buffers : List Buffer
  result : Int → Int
  guarded : ∀ buffer ∈ buffers, buffer.lock = some lock

def cdvdread : Command where
  lock := .n
  buffers := [.readData, .curReadPos, .rdIntrData]
  result := fun _ => 0
  guarded := by decide

def cdvdreadVideo : Command where
  lock := .n
  buffers := [.readData, .rdIntrData]
  result := fun _ => 0
  guarded := by decide

def cdvdgettoc : Command where
  lock := .n
  buffers := [.getTocSendBuff, .tocBuff, .nCmdRecvBuff]
  result := fun reply => if reply = 0 then 1 else 0
  guarded := by decide

def cdvdstop : Command where
  lock := .n
  buffers := []
  result := fun _ => 0
  guarded := by decide

/-- An S-command that receives into `sCmdRecvBuff`. -/
def sCommand (sends : Bool) (result : Int → Int) : Command where
  lock := .s
  buffers := if sends then [.sCmdSendBuff, .sCmdRecvBuff] else [.sCmdRecvBuff]
  result := result
  guarded := by cases sends <;> decide

def cdvdreadrtc : Command := sCommand false id

def cdvdwritertc : Command := sCommand true id

def cdvdgettype : Command := sCommand false id

def cdvdgeterror : Command := sCommand false id

def cdvdtrayrequest : Command :=
  sCommand true fun reply => if reply = 0 then 1 else 0

def cdvdopenconfig : Command := sCommand true id

def cdvdcloseconfig : Command := sCommand false id

def cdvdreadconfig : Command where
  lock := .s
  buffers := [.sCmdCfgRecvBuff]
  result := id
  guarded := by decide

def cdvdmmode : Command := sCommand true fun _ => 1

/-- With old modules the media mode is only simulated. -/
def cdvdmmodeSimulated : Command := sCommand false fun _ => 1

/-! ### Calls -/

inductive CommandName where
  | cdvdread
  | cdvdreadVideo
  | cdvdgettoc
  | cdvdstop
  | cdvdreadrtc
  | cdvdwritertc
  | cdvdgettype
  | cdvdgeterror
  | cdvdtrayrequest
  | cdvdopenconfig
  | cdvdcloseconfig
  | cdvdreadconfig

def CommandName.command : CommandName → Command
  | .cdvdread => Cdvd.cdvdread
  | .cdvdreadVideo => Cdvd.cdvdreadVideo
  | .cdvdgettoc => Cdvd.cdvdgettoc
  | .cdvdstop => Cdvd.cdvdstop
  | .cdvdreadrtc => Cdvd.cdvdreadrtc
  | .cdvdwritertc => Cdvd.cdvdwritertc
  | .cdvdgettype => Cdvd.cdvdgettype
  | .cdvdgeterror => Cdvd.cdvdgeterror
  | .cdvdtrayrequest => Cdvd.cdvdtrayrequest
  | .cdvdopenconfig => Cdvd.cdvdopenconfig
  | .cdvdcloseconfig => Cdvd.cdvdcloseconfig
  | .cdvdreadconfig => Cdvd.cdvdreadconfig

inductive Call where
  | cdvdinit
  | cdvdreset
  | cdvdready
  /-- Depends on the modules the SBIOS is built for. -/
  | cdvdmmode
  | command (name : CommandName)

/-- What a call does after it was entered; `sbcall_cdvdinit` has chosen a
stage. -/
inductive Work where
  | immediate
  | init (stage : Nat)
  | reset
  | ready
  | command (command : Command)

/-- The lock of a stage of the initialisation. -/
def stageLock (stage : Nat) : Option Lock :=
  if stage < 6 then some (if stage = 4 then .n else .s) else none

def Work.lock : Work → Option Lock
  | .immediate => none
  | .init stage => stageLock stage
  | .reset => none
  | .ready => some .s
  | .command cmd => some cmd.lock

def Work.buffers : Work → List Buffer
  | .immediate => []
  | .init stage => if stage = 3 then [.initMode] else []
  | .reset => [.initMode]
  | .ready => [.diskReadyMode, .sCmdRecvBuff]
  | .command cmd => cmd.buffers

/-- The client a stage of the initialisation binds. -/
def stageClient : Nat → Option Client
  | 0 => some .init
  | 1 => some .searchFile
  | 2 => some .diskReady
  | 4 => some .nCmd
  | 5 => some .sCmd
  | _ => none

def Work.binds : Work → Option Client
  | .init stage => stageClient stage
  | _ => none

/-- `NCMD_EAGAIN` and `SCMD_EAGAIN`. -/
def eagain (inInterrupt : Bool) : Int :=
  if inInterrupt then -sifRpceGetp else -sifRpceSendp

/-- What is returned while the lock is held or the client is busy. -/
def Work.busy (inInterrupt : Bool) : Work → Int
  | .ready => cdvdReadyNotready
  | .command _ => eagain inInterrupt
  | _ => -sifRpceSendp

inductive Phase where
  | idle
  | entered
  | locked
  | free
  | prepared
  | sent
  /-- The completion has handled the reply; it is going to release a lock and to
  report a result. -/
  | handled (lock : Option Lock) (result : Option Int)
  | released (result : Option Int)
  | finished
deriving DecidableEq

/-- Between taking the lock and giving it back. -/
def Phase.inside : Phase → Bool
  | .locked => true
  | .free => true
  | .prepared => true
  | .sent => true
  | .handled _ _ => true
  | _ => false

/-- The RPC is sent and its reply is not handled and given back. -/
def Phase.underWay : Phase → Bool
  | .sent => true
  | .handled _ _ => true
  | _ => false

structure CallState where
  phase : Phase
  work : Work
  inInterrupt : Bool
  answer : Answer (Option Int)

/-- The call has taken the lock and has not given it back. -/
def CallState.Holding (lock : Lock) (call : CallState) : Prop :=
  call.phase.inside = true ∧ call.work.lock = some lock

/-! ### State -/

structure Release where
  lock : Lock
  /-- The mutex was held. -/
  held : Bool
  /-- The call that releases it is one that took it. -/
  own : Bool

structure BufferWrite where
  writer : Nat
  /-- Other calls whose RPC is under way and uses one of the buffers. -/
  users : List Nat

structure CdvdState where
  cdvdInitCounter : Nat
  /-- Clients whose bind variable is not -1. -/
  bound : Client → Bool
  /-- Clients with a server. -/
  server : Client → Bool
  mutex : Lock → Bool
  made : Nat
  calls : Nat → CallState
  releases : List Release
  writes : List BufferWrite

def CdvdState.setCall (state : CdvdState) (id : Nat) (call : CallState) :
    CdvdState :=
  { state with calls := Function.update state.calls id call }

/-- `sbios_unlock` by a call. -/
def CdvdState.unlock (state : CdvdState) (work : Work) (lock : Lock) :
    CdvdState :=
  { state with
    mutex := Function.update state.mutex lock false
    releases :=
      { lock := lock
        held := state.mutex lock
        own := work.lock = some lock } :: state.releases }

def CdvdState.unlockAny (state : CdvdState) (work : Work) :
    Option Lock → CdvdState
  | none => state
  | some lock => state.unlock work lock

/-- The call gives back its lock and returns an error. -/
def CdvdState.fail (state : CdvdState) (id : Nat) (value : Int) : CdvdState :=
  let call := state.calls id
  (state.unlockAny call.work call.work.lock).setCall id
    { call with phase := .finished, answer := .refuse value }

/-! ### The steps of a call -/

def enter (newRom : Bool) (call : Call) (inInterrupt : Bool)
    (state : CdvdState) : CdvdState :=
  let id := state.made
  let state := { state with made := id + 1 }
  let begins (work : Work) : CdvdState :=
    state.setCall id
      { phase := .entered, work := work, inInterrupt := inInterrupt
        answer := .open_ }
  let endsNow (result : Int) : CdvdState :=
    state.setCall id
      { phase := .finished, work := .immediate, inInterrupt := inInterrupt
        answer := Answer.report (some result) .promise }
  match call with
  | .cdvdinit =>
      if state.cdvdInitCounter < 6 then begins (.init state.cdvdInitCounter)
      else endsNow 0
  | .cdvdreset => begins .reset
  | .cdvdready => begins .ready
  | .cdvdmmode =>
      if newRom then begins (.command cdvdmmode)
      else if inInterrupt then begins (.command cdvdmmodeSimulated)
      else endsNow 1
  | .command name => begins (.command name.command)

/-- `sbios_tryLock` of the call's mutex. -/
def tryLock (id : Nat) (lock : Lock) (state : CdvdState) : CdvdState :=
  let call := state.calls id
  if state.mutex lock then
    state.setCall id
      { call with
        phase := .finished
        answer := .refuse (call.work.busy call.inInterrupt) }
  else
    { state with mutex := Function.update state.mutex lock true }.setCall id
      { call with phase := .locked }

/-- `SifCheckStatRpc` behind the lock. -/
def checkStat (id : Nat) (busy : Bool) (state : CdvdState) : CdvdState :=
  let call := state.calls id
  if busy then state.fail id (call.work.busy call.inInterrupt)
  else state.setCall id { call with phase := .free }

/-- Other calls whose RPC is under way and that share a buffer. -/
def CdvdState.users (state : CdvdState) (id : Nat) : List Nat :=
  (List.range state.made).filter fun other =>
    other ≠ id ∧ (state.calls other).phase.underWay = true ∧
      ∃ buffer ∈ (state.calls id).work.buffers,
        buffer ∈ (state.calls other).work.buffers

def CdvdState.write (state : CdvdState) (id : Nat) : CdvdState :=
  { state with
    writes := { writer := id, users := state.users id } :: state.writes }

def lockClient : Lock → Client
  | .n => .nCmd
  | .s => .sCmd

/-- The test of the bind variable and the stores into the shared buffers. -/
def prepare (id : Nat) (state : CdvdState) : CdvdState :=
  let call := state.calls id
  let goesOn (state : CdvdState) : CdvdState :=
    state.setCall id { call with phase := .prepared }
  match call.work with
  | .immediate => goesOn state
  | .init stage =>
      if stage = 0 then
        goesOn { state with bound := fun _ => false }
      else if stage = 3 then goesOn (state.write id)
      else goesOn state
  | .reset => goesOn (state.write id)
  | .ready =>
      -- the mode is stored before the bind variable is tested
      let state := state.write id
      if state.bound .diskReady then goesOn state else state.fail id (-1)
  | .command cmd =>
      if state.bound (lockClient cmd.lock) then goesOn (state.write id)
      else state.fail id (eagain call.inInterrupt)

/-- What the RPC layer does with a bind or a call. -/
inductive SendOutcome where
  | noPacket
  | notSent
  | sent
deriving DecidableEq

def CdvdState.setServer (state : CdvdState) (client : Option Client)
    (found : Bool) : CdvdState :=
  match client with
  | none => state
  | some client =>
      { state with server := Function.update state.server client found }

def send (id : Nat) (outcome : SendOutcome) (state : CdvdState) : CdvdState :=
  let call := state.calls id
  match outcome with
  | .noPacket => state.fail id (-sifRpceSendp)
  | .notSent =>
      (state.setServer call.work.binds false).fail id (-sifRpceSendp)
  | .sent =>
      (state.setServer call.work.binds false).setCall id
        { call with phase := .sent, answer := .promise }

/-! ### Completions -/

/-- The counter and the bind variables after `cdvdInitCallback`, and the
result when it is set. -/
def initStage (state : CdvdState) : CdvdState × Option Int :=
  let advance (state : CdvdState) : CdvdState :=
    { state with cdvdInitCounter := state.cdvdInitCounter + 1 }
  let binds (client : Client) : CdvdState :=
    if state.server client then
      advance { state with bound := Function.update state.bound client true }
    else state
  match state.cdvdInitCounter with
  | 0 => (binds .init, some (-1))
  | 1 => (binds .searchFile, some (-1))
  | 2 => (binds .diskReady, some (-1))
  | 3 => (advance state, some (-1))
  | 4 => (binds .nCmd, some (-1))
  | 5 => (binds .sCmd, some (if state.server .sCmd then 0 else -1))
  | _ => (state, none)

/-- The completion of a call up to the release of its lock. -/
def handle (id : Nat) (found : Bool) (reply : Int) (state : CdvdState) :
    CdvdState :=
  let call := state.calls id
  let handled (state : CdvdState) (lock : Option Lock) (result : Option Int) :
      CdvdState :=
    state.setCall id { call with phase := .handled lock result }
  match call.work with
  | .immediate => handled state none none
  | .init stage =>
      let state := state.setServer (stageClient stage) found
      let result := initStage state
      -- the lock is chosen by the counter, not by the stage of the call
      handled result.1 (stageLock state.cdvdInitCounter) result.2
  | .reset => handled state none (some 0)
  | .ready => handled state (some .s) (some reply)
  | .command cmd => handled state (some cmd.lock) (some (cmd.result reply))

def release (id : Nat) (lock : Option Lock) (result : Option Int)
    (state : CdvdState) : CdvdState :=
  let call := state.calls id
  (state.unlockAny call.work lock).setCall id
    { call with phase := .released result }

/-- The call's end is reported. -/
def endfunc (id : Nat) (result : Option Int) (state : CdvdState) : CdvdState :=
  let call := state.calls id
  state.setCall id
    { call with phase := .finished, answer := call.answer.report result }

/-! ### Runs -/

inductive Event where
  | enter (call : Call) (inInterrupt : Bool)
  | tryLock (id : Nat)
  | checkStat (id : Nat) (busy : Bool)
  | prepare (id : Nat)
  | send (id : Nat) (outcome : SendOutcome)
  | handle (id : Nat) (found : Bool) (reply : Int)
  | release (id : Nat)
  | endfunc (id : Nat)

def cdvdStep (newRom : Bool) (state : CdvdState) : Event → Option CdvdState
  | .enter call inInterrupt => some (enter newRom call inInterrupt state)
  | .tryLock id =>
      match (state.calls id).phase, (state.calls id).work.lock with
      | .entered, some lock => some (tryLock id lock state)
      | _, _ => none
  | .checkStat id busy =>
      if (state.calls id).phase = .locked then some (checkStat id busy state)
      else none
  | .prepare id =>
      -- a reset takes no lock
      if (state.calls id).phase = .free ∨
          (state.calls id).phase = .entered ∧
            (state.calls id).work.lock = none then
        some (prepare id state)
      else none
  | .send id outcome =>
      if (state.calls id).phase = .prepared then some (send id outcome state)
      else none
  | .handle id found reply =>
      if (state.calls id).phase = .sent then some (handle id found reply state)
      else none
  | .release id =>
      match (state.calls id).phase with
      | .handled lock result => some (release id lock result state)
      | _ => none
  | .endfunc id =>
      match (state.calls id).phase with
      | .released result => some (endfunc id result state)
      | _ => none

def cdvdMachine (newRom : Bool) : Machine CdvdState Event :=
  { initial :=
      { cdvdInitCounter := 0
        bound := fun _ => false
        server := fun _ => false
        mutex := fun _ => false
        made := 0
        calls := fun _ =>
          { phase := .idle, work := .immediate, inInterrupt := false
            answer := .open_ }
        releases := []
        writes := [] }
    step := cdvdStep newRom }

end KernelReloaded.Cdvd

/-
The SIF command layer: handler tables, software registers and the dispatch of
received packets.

The handler tables are buffers of the callers that can be replaced at any time,
with a size the caller states.  A buffer is an object of its own under its
address; a table is a buffer and its size.  The machine takes the calls of the
layer and received packets in any order and records every access to a table,
the registers, `pktbuf` and the copy of a packet, and what each packet called.

An interrupt during a transfer returns at once and is no event.

The fields `history`, `accesses` and `dispatches` are records of the run and
are never read by the code.
-/

import KernelReloaded.Core.Transition
import Mathlib.Logic.Function.Basic

namespace KernelReloaded.SifCmd

/-! ### Data -/

/-- `sifCmdHandler_t`.  Functions and arguments are addresses. -/
structure CmdHandler where
  handler : Option Nat
  harg : Nat
deriving DecidableEq

/-- An installed table: its buffer, `NULL` when there is none, and its size. -/
structure HandlerTable where
  buffer : Option Nat
  size : Nat
deriving DecidableEq

structure CmdData where
  sys : HandlerTable
  usr : HandlerTable
  iopbuf : BitVec 32
  sregs : Nat → BitVec 32

def pktbufSize : Nat := 128

/-- `u128 packetbuf[8 + 1]`, the stack area of the copy. -/
def packetbufSize : Nat := 144

def nrSregs : Nat := 32

def cmdHandlerMax : Nat := 32

/-- The addresses of the layer's own buffer, handlers and data. -/
def sifCmdSysBuffer : Nat := 0x80009578

def changeAddr : Nat := 0x80002970

def setSreg : Nat := 0x80002950

def sifCmdData : Nat := 0x80009554

/-! ### Records -/

inductive CmdAccess where
  /-- An entry of a handler table of the given size. -/
  | entry (size index : Nat)
  | sreg (index : Nat)
  | pktbuf (first count : Nat)
  /-- The copy begins `pad` bytes behind the start of `packetbuf`. -/
  | copy (pad first count : Nat)
deriving DecidableEq

def CmdAccess.InBounds : CmdAccess → Prop
  | .entry size index => index < size
  | .sreg index => index < nrSregs
  | .pktbuf first count => first + count ≤ pktbufSize
  | .copy pad first count => pad + first + count ≤ packetbufSize

inductive Change where
  | added (handler : CmdHandler)
  | deleted
deriving DecidableEq

structure TableWrite where
  buffer : Nat
  index : Nat
  change : Change
deriving DecidableEq

/-- The last change of an entry; the history has the newest change first. -/
def latest (history : List TableWrite) (buffer index : Nat) : Option Change :=
  (history.find? fun write =>
    write.buffer = buffer ∧ write.index = index).map TableWrite.change

structure Dispatch where
  fid : BitVec 32
  called : Option (Nat × Nat)
  expected : Option (Nat × Nat)
deriving DecidableEq

structure CmdState where
  data : CmdData
  buffers : Nat → Nat → CmdHandler
  history : List TableWrite
  accesses : List CmdAccess
  dispatches : List Dispatch

/-! ### Choosing a table and an entry -/

def isSystem (fid : BitVec 32) : Bool := fid.msb

def commandId (fid : BitVec 32) : Nat := (fid &&& 0x7fffffff#32).toNat

def chooseTable (data : CmdData) (fid : BitVec 32) : HandlerTable :=
  if isSystem fid then data.sys else data.usr

/-- The handler that counts as added for a command: the last change of its
entry in the installed table. -/
def expectedHandler (state : CmdState) (fid : BitVec 32) :
    Option (Nat × Nat) :=
  let table := chooseTable state.data fid
  if commandId fid < table.size then
    match table.buffer with
    | none => none
    | some buffer =>
        match latest state.history buffer (commandId fid) with
        | some (.added entry) =>
            entry.handler.map fun handler => (handler, entry.harg)
        | _ => none
  else none

/-! ### The calls of the layer -/

/-- A store into an entry, wherever the index leads. -/
def CmdState.writeEntry (state : CmdState) (fid : BitVec 32) (buffer : Nat)
    (change : Change) (entry : CmdHandler) : CmdState :=
  let index := commandId fid
  { state with
    buffers := Function.update state.buffers buffer
      (Function.update (state.buffers buffer) index entry)
    history :=
      { buffer := buffer, index := index, change := change } :: state.history
    accesses := state.accesses ++
      [.entry (chooseTable state.data fid).size index] }

def sifAddCmdHandler (fid : BitVec 32) (handler : CmdHandler)
    (state : CmdState) : CmdState :=
  match (chooseTable state.data fid).buffer with
  | none => state
  | some buffer => state.writeEntry fid buffer (.added handler) handler

def sifCmdDelHandler (fid : BitVec 32) (state : CmdState) : CmdState :=
  match (chooseTable state.data fid).buffer with
  | none => state
  | some buffer =>
      state.writeEntry fid buffer .deleted
        { state.buffers buffer (commandId fid) with handler := none }

def sifSetSreg (reg val : BitVec 32) (state : CmdState) : CmdState :=
  { state with
    data :=
      { state.data with
        sregs := Function.update state.data.sregs reg.toNat val }
    accesses := state.accesses ++ [.sreg reg.toNat] }

def sifGetSreg (reg : BitVec 32) (state : CmdState) : CmdState :=
  { state with accesses := state.accesses ++ [.sreg reg.toNat] }

/-! ### Received packets -/

/-- What a packet interrupt finds: the words of `pktbuf` and behind it, what the
stack held before, and where the stack lies. -/
structure Received where
  pktbuf : Nat → BitVec 32
  stack : Nat → BitVec 32
  pad : Fin 16

def Received.size (received : Received) : Nat :=
  (received.pktbuf 0 &&& 0xff#32).toNat

def Received.quads (received : Received) : Nat := (received.size + 30) / 16

/-- A word of the copy; behind the copied quadwords the stack shows. -/
def Received.word (received : Received) (index : Nat) : BitVec 32 :=
  -- `header->size` is cleared before the copy.
  if index = 0 then 0
  else if index < 4 * received.quads then received.pktbuf index
  else received.stack index

def Received.fid (received : Received) : BitVec 32 := received.word 2

def Received.copyAccesses (received : Received) : List CmdAccess :=
  (List.range received.quads).flatMap fun index =>
    [.pktbuf (16 * index) 16, .copy received.pad (16 * index) 16]

/-- The entry the dispatcher reads, if any. -/
def dispatchEntry (state : CmdState) (fid : BitVec 32) :
    Option CmdHandler :=
  let table := chooseTable state.data fid
  if commandId fid < table.size then
    table.buffer.map fun buffer => state.buffers buffer (commandId fid)
  else none

def calledHandler (state : CmdState) (fid : BitVec 32) :
    Option (Nat × Nat) :=
  (dispatchEntry state fid).bind fun entry =>
    entry.handler.map fun handler => (handler, entry.harg)

/-- What the layer's own handlers do; other handlers are outside of it. -/
def runHandler (received : Received) (handler : Nat) (state : CmdState) :
    CmdState :=
  if handler = setSreg then
    let index := (received.word 4).toNat
    { state with
      data :=
        { state.data with
          sregs := Function.update state.data.sregs index (received.word 5) }
      accesses := state.accesses ++
        [.copy received.pad 16 4, .copy received.pad 20 4, .sreg index] }
  else if handler = changeAddr then
    { state with
      data := { state.data with iopbuf := received.word 4 }
      accesses := state.accesses ++ [.copy received.pad 16 4] }
  else state

def dispatch (received : Received) (state : CmdState) : CmdState :=
  let fid := received.fid
  let called := calledHandler state fid
  let entryAccess : List CmdAccess :=
    if (dispatchEntry state fid).isSome then
      [.entry (chooseTable state.data fid).size (commandId fid)]
    else []
  let state :=
    { state with
      accesses := state.accesses ++ entryAccess
      dispatches := state.dispatches ++
        [{ fid := fid, called := called
           expected := expectedHandler state fid }] }
  match called with
  | none => state
  | some (handler, _) => runHandler received handler state

def sifCmdInterrupt (received : Received) (state : CmdState) : CmdState :=
  if received.size = 0 then
    { state with accesses := state.accesses ++ [.pktbuf 0 4] }
  else
    dispatch received
      { state with
        accesses := state.accesses ++
          ([.pktbuf 0 4, .pktbuf 0 4] ++ received.copyAccesses ++
            [.copy received.pad 8 4]) }

/-! ### The machine -/

inductive CmdEvent where
  | addCmdHandler (fid : BitVec 32) (handler : CmdHandler)
  | delHandler (fid : BitVec 32)
  | setBuffer (buffer : Option Nat) (size : BitVec 32)
  | setSysBuffer (buffer : Option Nat) (size : BitVec 32)
  | setSreg (reg val : BitVec 32)
  | getSreg (reg : BitVec 32)
  | interrupt (received : Received)

def cmdStep (state : CmdState) : CmdEvent → Option CmdState
  | .addCmdHandler fid handler => some (sifAddCmdHandler fid handler state)
  | .delHandler fid => some (sifCmdDelHandler fid state)
  | .setBuffer buffer size =>
      some { state with
        data := { state.data with
          usr := { buffer := buffer, size := size.toNat } } }
  | .setSysBuffer buffer size =>
      some { state with
        data := { state.data with
          sys := { buffer := buffer, size := size.toNat } } }
  | .setSreg reg val => some (sifSetSreg reg val state)
  | .getSreg reg => some (sifGetSreg reg state)
  | .interrupt received => some (sifCmdInterrupt received state)

/-- `SifInitCmd` has run; the other buffers hold anything. -/
def initialCmdState (buffers : Nat → Nat → CmdHandler) : CmdState :=
  let own : Nat → CmdHandler := fun index =>
    if index = 0 then { handler := some changeAddr, harg := sifCmdData }
    else if index = 1 then { handler := some setSreg, harg := sifCmdData }
    else { handler := none, harg := 0 }
  { data :=
      { sys := { buffer := some sifCmdSysBuffer, size := cmdHandlerMax }
        usr := { buffer := none, size := 0 }
        iopbuf := 0
        sregs := fun _ => 0 }
    buffers := Function.update buffers sifCmdSysBuffer own
    history :=
      [{ buffer := sifCmdSysBuffer, index := 1, change := .added (own 1) },
        { buffer := sifCmdSysBuffer, index := 0, change := .added (own 0) }]
    accesses := []
    dispatches := [] }

def cmdMachine (buffers : Nat → Nat → CmdHandler) :
    Machine CmdState CmdEvent :=
  { initial := initialCmdState buffers, step := cmdStep }

/-- Every access is inside its object, and every packet has called the handler
that was added for it. -/
structure CmdSafe (state : CmdState) : Prop where
  inBounds : ∀ access ∈ state.accesses, access.InBounds
  expected : ∀ dispatch ∈ state.dispatches,
    dispatch.called = dispatch.expected

/-- The command has an entry in the table, if there is a table. -/
def HasEntry (state : CmdState) (fid : BitVec 32) : Prop :=
  (chooseTable state.data fid).buffer ≠ none →
    commandId fid < (chooseTable state.data fid).size

/-- A buffer without other handlers than those that were added to it. -/
def Clean (state : CmdState) (buffer : Option Nat) (size : Nat) : Prop :=
  ∀ address ∈ buffer, ∀ index < size,
    latest state.history address index = none →
      (state.buffers address index).handler = none

def CmdMet (state : CmdState) : CmdEvent → Prop
  | .addCmdHandler fid _ => HasEntry state fid
  | .delHandler fid => HasEntry state fid
  | .setBuffer buffer size => Clean state buffer size.toNat
  | .setSysBuffer buffer size => Clean state buffer size.toNat
  | .setSreg reg _ => reg.toNat < nrSregs
  | .getSreg reg => reg.toNat < nrSregs
  | .interrupt received =>
      received.size ≤ 113 ∧
        (received.size ≠ 0 →
          (∃ harg, expectedHandler state received.fid = some (setSreg, harg)) →
            (received.word 4).toNat < nrSregs)

/-! ### The history of an entry -/

theorem latest_cons (write : TableWrite) (history : List TableWrite)
    (buffer index : Nat) :
    latest (write :: history) buffer index =
      if write.buffer = buffer ∧ write.index = index then some write.change
      else latest history buffer index := by
  rw [latest, List.find?_cons]
  by_cases same : write.buffer = buffer ∧ write.index = index
  · rw [if_pos same, decide_eq_true same, Option.map_some]
  · rw [if_neg same, decide_eq_false same, latest]

/-- An entry as its last change has left it. -/
def Change.Matches : Change → CmdHandler → Prop
  | .added handler, entry => entry = handler
  | .deleted, entry => entry.handler = none

/-! ### The invariant -/

structure CmdInv (state : CmdState) : Prop where
  safe : CmdSafe state
  written : ∀ buffer index change,
    latest state.history buffer index = some change →
      change.Matches (state.buffers buffer index)
  sysClean : Clean state state.data.sys.buffer state.data.sys.size
  usrClean : Clean state state.data.usr.buffer state.data.usr.size

theorem CmdInv.clean {state : CmdState} (inv : CmdInv state)
    (fid : BitVec 32) :
    Clean state (chooseTable state.data fid).buffer
      (chooseTable state.data fid).size := by
  rw [chooseTable]
  split
  · exact inv.sysClean
  · exact inv.usrClean

/-- The dispatcher calls what the history says. -/
theorem CmdInv.called {state : CmdState} (inv : CmdInv state)
    (fid : BitVec 32) : calledHandler state fid = expectedHandler state fid := by
  have clean := inv.clean fid
  simp only [calledHandler, dispatchEntry, expectedHandler]
  by_cases inside : commandId fid < (chooseTable state.data fid).size
  · rw [if_pos inside, if_pos inside]
    cases table : (chooseTable state.data fid).buffer with
    | none => rfl
    | some buffer =>
        rw [table] at clean
        simp only [Option.map_some, Option.bind_some]
        cases change : latest state.history buffer (commandId fid) with
        | none =>
            rw [clean buffer rfl (commandId fid) inside change]
            rfl
        | some change' =>
            have matching := inv.written buffer (commandId fid) change' change
            cases change' with
            | added handler =>
                rw [matching]
            | deleted =>
                rw [matching]
                rfl
  · rw [if_neg inside, if_neg inside]
    rfl

theorem cmdInv_initial (buffers : Nat → Nat → CmdHandler) :
    CmdInv (initialCmdState buffers) where
  safe :=
    { inBounds := by
        intro access impossible
        cases impossible
      expected := by
        intro dispatch impossible
        cases impossible }
  written := by
    intro buffer index change found
    simp only [initialCmdState, latest_cons] at found
    split at found
    · rename_i atSetSreg
      obtain ⟨rfl, rfl⟩ := atSetSreg
      obtain rfl := Option.some.inj found
      simp only [initialCmdState, Function.update_self, Change.Matches]
    · split at found
      · rename_i atChangeAddr
        obtain ⟨rfl, rfl⟩ := atChangeAddr
        obtain rfl := Option.some.inj found
        simp only [initialCmdState, Function.update_self, Change.Matches]
      · cases found
  sysClean := by
    intro buffer own index _inside unwritten
    obtain rfl := Option.some.inj own
    simp only [initialCmdState, latest_cons, true_and] at unwritten
    simp only [initialCmdState, Function.update_self]
    by_cases first : index = 0
    · subst first
      simp at unwritten
    · by_cases second : index = 1
      · subst second
        simp at unwritten
      · rw [if_neg first, if_neg second]
  usrClean := by
    intro buffer impossible
    cases impossible

/-! ### The steps -/

/-- The store into an entry leaves every other entry alone. -/
theorem CmdState.writeEntry_of_ne (state : CmdState) {fid : BitVec 32}
    {buffer : Nat} (change : Change) (entry : CmdHandler) {other index : Nat}
    (different : ¬ (buffer = other ∧ commandId fid = index)) :
    (state.writeEntry fid buffer change entry).buffers other index =
      state.buffers other index := by
  rw [CmdState.writeEntry]
  dsimp only
  by_cases sameBuffer : other = buffer
  · subst sameBuffer
    have otherIndex : index ≠ commandId fid :=
      fun same => different ⟨rfl, same.symm⟩
    rw [Function.update_self, Function.update_of_ne otherIndex]
  · rw [Function.update_of_ne sameBuffer]

theorem Clean.writeEntry {state : CmdState} {table : Option Nat} {size : Nat}
    (clean : Clean state table size) (fid : BitVec 32) (buffer : Nat)
    (change : Change) (entry : CmdHandler) :
    Clean (state.writeEntry fid buffer change entry) table size := by
  intro other member index bounded unwritten
  rw [CmdState.writeEntry, latest_cons] at unwritten
  split at unwritten
  · cases unwritten
  · rename_i different
    rw [state.writeEntry_of_ne change entry different]
    exact clean other member index bounded unwritten

theorem CmdState.writeEntry_inv {state : CmdState} (inv : CmdInv state)
    (fid : BitVec 32) (buffer : Nat) (change : Change) (entry : CmdHandler)
    (matching : change.Matches entry)
    (inside : commandId fid < (chooseTable state.data fid).size) :
    CmdInv (state.writeEntry fid buffer change entry) := by
  refine
    { safe :=
        { inBounds := ?_
          expected := inv.safe.expected }
      written := ?_
      sysClean := inv.sysClean.writeEntry fid buffer change entry
      usrClean := inv.usrClean.writeEntry fid buffer change entry }
  · intro access member
    rcases List.mem_append.mp member with before | now
    · exact inv.safe.inBounds access before
    · obtain rfl := List.mem_singleton.mp now
      exact inside
  · intro other index last found
    rw [CmdState.writeEntry, latest_cons] at found
    split at found
    · rename_i same
      obtain ⟨rfl, rfl⟩ := same
      obtain rfl := Option.some.inj found
      rw [CmdState.writeEntry]
      dsimp only
      rw [Function.update_self, Function.update_self]
      exact matching
    · rename_i different
      rw [state.writeEntry_of_ne change entry different]
      exact inv.written other index last found

/-- Steps that leave the tables alone and add accesses inside the objects. -/
theorem CmdInv.accessed {state next : CmdState} (inv : CmdInv state)
    (sameBuffers : next.buffers = state.buffers)
    (sameHistory : next.history = state.history)
    (sameSys : next.data.sys = state.data.sys)
    (sameUsr : next.data.usr = state.data.usr)
    (inBounds : ∀ access ∈ next.accesses,
      access ∈ state.accesses ∨ access.InBounds)
    (expected : ∀ dispatch ∈ next.dispatches,
      dispatch ∈ state.dispatches ∨ dispatch.called = dispatch.expected) :
    CmdInv next where
  safe :=
    { inBounds := by
        intro access member
        rcases inBounds access member with before | inside
        · exact inv.safe.inBounds access before
        · exact inside
      expected := by
        intro dispatch member
        rcases expected dispatch member with before | now
        · exact inv.safe.expected dispatch before
        · exact now }
  written := by
    rw [sameBuffers, sameHistory]
    exact inv.written
  sysClean := by
    rw [Clean, sameBuffers, sameHistory, sameSys]
    exact inv.sysClean
  usrClean := by
    rw [Clean, sameBuffers, sameHistory, sameUsr]
    exact inv.usrClean

theorem Received.quads_le {received : Received} (short : received.size ≤ 113) :
    received.quads ≤ 8 := by
  rw [Received.quads]
  omega

theorem Received.copyAccesses_inBounds {received : Received}
    (short : received.size ≤ 113) :
    ∀ access ∈ received.copyAccesses, access.InBounds := by
  intro access member
  have few := received.quads_le short
  have pad := received.pad.isLt
  obtain ⟨index, inRange, isQuad⟩ := List.mem_flatMap.mp member
  have bounded := List.mem_range.mp inRange
  simp only [List.mem_cons, List.not_mem_nil, or_false] at isQuad
  rcases isQuad with rfl | rfl
  · change 16 * index + 16 ≤ 128
    omega
  · change received.pad.val + 16 * index + 16 ≤ 144
    omega

/-- The words behind the header lie in the copy, wherever the stack begins. -/
theorem Received.copy_inBounds (received : Received) {first : Nat}
    (behind : first ≤ 112) :
    (CmdAccess.copy received.pad first 4).InBounds := by
  have pad := received.pad.isLt
  change received.pad.val + first + 4 ≤ 144
  omega

theorem sifAddCmdHandler_inv {state : CmdState} (inv : CmdInv state)
    {fid : BitVec 32} (hasEntry : HasEntry state fid) (handler : CmdHandler) :
    CmdInv (sifAddCmdHandler fid handler state) := by
  rw [sifAddCmdHandler]
  cases table : (chooseTable state.data fid).buffer with
  | none => exact inv
  | some buffer =>
      have inside := hasEntry (by rw [table]; exact Option.some_ne_none buffer)
      exact CmdState.writeEntry_inv inv fid buffer _ _ rfl inside

theorem sifCmdDelHandler_inv {state : CmdState} (inv : CmdInv state)
    {fid : BitVec 32} (hasEntry : HasEntry state fid) :
    CmdInv (sifCmdDelHandler fid state) := by
  rw [sifCmdDelHandler]
  cases table : (chooseTable state.data fid).buffer with
  | none => exact inv
  | some buffer =>
      have inside := hasEntry (by rw [table]; exact Option.some_ne_none buffer)
      exact CmdState.writeEntry_inv inv fid buffer _ _ rfl inside

theorem sregAccess_inv {state next : CmdState} (inv : CmdInv state)
    {reg : Nat} (exists_reg : reg < nrSregs)
    (isNext : next = { state with
      data := { state.data with sregs := next.data.sregs }
      accesses := state.accesses ++ [.sreg reg] }) :
    CmdInv next := by
  rw [isNext]
  refine inv.accessed rfl rfl rfl rfl ?_ (fun _ member => .inl member)
  intro access member
  rcases List.mem_append.mp member with before | now
  · exact .inl before
  · obtain rfl := List.mem_singleton.mp now
    exact .inr exists_reg

/-- A handler of the layer itself keeps inside the copy and the registers. -/
theorem runHandler_inv {state : CmdState} (inv : CmdInv state)
    (received : Received) (handler : Nat)
    (existsReg : handler = setSreg → (received.word 4).toNat < nrSregs) :
    CmdInv (runHandler received handler state) := by
  rw [runHandler]
  split
  · rename_i isSetSreg
    refine inv.accessed rfl rfl rfl rfl ?_ (fun _ member => .inl member)
    intro access member
    rcases List.mem_append.mp member with before | now
    · exact .inl before
    · right
      simp only [List.mem_cons, List.not_mem_nil, or_false] at now
      rcases now with rfl | rfl | rfl
      · exact received.copy_inBounds (by omega)
      · exact received.copy_inBounds (by omega)
      · exact existsReg isSetSreg
  · split
    · refine inv.accessed rfl rfl rfl rfl ?_ (fun _ member => .inl member)
      intro access member
      rcases List.mem_append.mp member with before | now
      · exact .inl before
      · obtain rfl := List.mem_singleton.mp now
        exact .inr (received.copy_inBounds (by omega))
    · exact inv

/-- The entry the dispatcher reads lies in its table. -/
theorem dispatchEntry_inside {state : CmdState} {fid : BitVec 32}
    (reads : (dispatchEntry state fid).isSome) :
    commandId fid < (chooseTable state.data fid).size := by
  rw [dispatchEntry] at reads
  split at reads
  · assumption
  · cases reads

theorem dispatch_inv {state : CmdState} (inv : CmdInv state)
    (received : Received)
    (existsReg : (∃ harg,
        expectedHandler state received.fid = some (setSreg, harg)) →
      (received.word 4).toNat < nrSregs) :
    CmdInv (dispatch received state) := by
  have calledExpected := inv.called received.fid
  have recorded : CmdInv
      { state with
        accesses := state.accesses ++
          (if (dispatchEntry state received.fid).isSome then
            [.entry (chooseTable state.data received.fid).size
              (commandId received.fid)]
          else [])
        dispatches := state.dispatches ++
          [{ fid := received.fid
             called := calledHandler state received.fid
             expected := expectedHandler state received.fid }] } := by
    refine inv.accessed rfl rfl rfl rfl ?_ ?_
    · intro access member
      rcases List.mem_append.mp member with before | now
      · exact .inl before
      · right
        split at now
        · rename_i reads
          obtain rfl := List.mem_singleton.mp now
          exact dispatchEntry_inside reads
        · cases now
    · intro entry member
      rcases List.mem_append.mp member with before | now
      · exact .inl before
      · obtain rfl := List.mem_singleton.mp now
        exact .inr calledExpected
  simp only [dispatch]
  cases called : calledHandler state received.fid with
  | none =>
      rw [called] at recorded
      exact recorded
  | some target =>
      obtain ⟨handler, harg⟩ := target
      rw [called] at recorded calledExpected
      refine runHandler_inv recorded received handler fun isSetSreg => ?_
      rw [isSetSreg] at calledExpected
      exact existsReg ⟨harg, calledExpected.symm⟩

theorem sifCmdInterrupt_inv {state : CmdState} (inv : CmdInv state)
    (received : Received) (met : CmdMet state (.interrupt received)) :
    CmdInv (sifCmdInterrupt received state) := by
  obtain ⟨short, existsReg⟩ := met
  have sizeRead : (CmdAccess.pktbuf 0 4).InBounds := by
    change 0 + 4 ≤ 128
    omega
  rw [sifCmdInterrupt]
  split
  · refine inv.accessed rfl rfl rfl rfl ?_ (fun _ member => .inl member)
    intro access member
    rcases List.mem_append.mp member with before | now
    · exact .inl before
    · obtain rfl := List.mem_singleton.mp now
      exact .inr sizeRead
  · rename_i hasSize
    have copied : CmdInv
        { state with
          accesses := state.accesses ++
            ([.pktbuf 0 4, .pktbuf 0 4] ++ received.copyAccesses ++
              [.copy received.pad 8 4]) } := by
      refine inv.accessed rfl rfl rfl rfl ?_ (fun _ member => .inl member)
      intro access member
      simp only [List.mem_append, List.mem_cons, List.not_mem_nil, or_false,
        or_self] at member
      rcases member with before | ((rfl | quad) | rfl)
      · exact .inl before
      · exact .inr sizeRead
      · exact .inr (received.copyAccesses_inBounds short access quad)
      · exact .inr (received.copy_inBounds (by omega))
    exact dispatch_inv copied received (existsReg hasSize)

theorem cmdStep_inv {state next : CmdState} (event : CmdEvent)
    (inv : CmdInv state) (met : CmdMet state event)
    (stepped : cmdStep state event = some next) : CmdInv next := by
  cases event with
  | addCmdHandler fid handler =>
      obtain rfl := Option.some.inj stepped
      exact sifAddCmdHandler_inv inv met handler
  | delHandler fid =>
      obtain rfl := Option.some.inj stepped
      exact sifCmdDelHandler_inv inv met
  | setBuffer buffer size =>
      obtain rfl := Option.some.inj stepped
      exact
        { safe := ⟨inv.safe.inBounds, inv.safe.expected⟩
          written := inv.written
          sysClean := inv.sysClean
          usrClean := met }
  | setSysBuffer buffer size =>
      obtain rfl := Option.some.inj stepped
      exact
        { safe := ⟨inv.safe.inBounds, inv.safe.expected⟩
          written := inv.written
          sysClean := met
          usrClean := inv.usrClean }
  | setSreg reg val =>
      obtain rfl := Option.some.inj stepped
      exact sregAccess_inv inv met rfl
  | getSreg reg =>
      obtain rfl := Option.some.inj stepped
      exact sregAccess_inv inv met rfl
  | interrupt received =>
      obtain rfl := Option.some.inj stepped
      exact sifCmdInterrupt_inv inv received met

/-! ### Runs -/

/-- Runs whose calls and packets stay inside the tables and registers are safe:
no access leaves its object and each packet calls the handler added for it. -/
theorem cmd_safe (buffers : Nat → Nat → CmdHandler) {state : CmdState}
    (reached : (cmdMachine buffers).Reach CmdMet state) : CmdSafe state := by
  have inv : CmdInv state :=
    reached.invariant (cmdInv_initial buffers)
      (fun _ event _ inv met stepped => cmdStep_inv event inv met stepped)
  exact inv.safe

def emptyBuffers : Nat → Nat → CmdHandler :=
  fun _ _ => { handler := none, harg := 0 }

def userTable : Nat := 0x80100000

def userHandler : CmdHandler := { handler := some 0x80101000, harg := 5 }

/-- A packet of sixteen bytes for the user command 2. -/
def userPacket : Received where
  pktbuf := fun index => if index = 0 then 16 else if index = 2 then 2 else 0
  stack := fun _ => 0
  pad := 0

/-- A user table of four entries, a handler for command 2 and a packet. -/
theorem userPacket_safe :
    ∃ state, (cmdMachine emptyBuffers).Reach CmdMet state ∧
      state.dispatches =
        [{ fid := 2
           called := some (0x80101000, 5)
           expected := some (0x80101000, 5) }] ∧
      CmdSafe state := by
  let start := initialCmdState emptyBuffers
  let withTable : CmdState :=
    { start with
      data :=
        { start.data with usr := { buffer := some userTable, size := 4 } } }
  have begun : (cmdMachine emptyBuffers).Reach CmdMet start := .initial
  have emptyTable : Clean start (some userTable) 4 := by
    intro address isTable index _inside _unwritten
    obtain rfl := Option.some.inj isTable
    rfl
  have installed : (cmdMachine emptyBuffers).Reach CmdMet withTable :=
    begun.step (CmdEvent.setBuffer (some userTable) 4) emptyTable rfl
  have hasEntry : HasEntry withTable 2 := fun _ => by decide
  have added := installed.step (CmdEvent.addCmdHandler 2 userHandler)
    hasEntry rfl
  have isUser : expectedHandler (sifAddCmdHandler 2 userHandler withTable)
      userPacket.fid = some (0x80101000, 5) := by decide
  have answered : CmdMet (sifAddCmdHandler 2 userHandler withTable)
      (.interrupt userPacket) := by
    refine ⟨by decide, fun _ isSetSreg => ?_⟩
    obtain ⟨harg, same⟩ := isSetSreg
    rw [isUser] at same
    cases same
  have received := added.step (CmdEvent.interrupt userPacket) answered rfl
  exact ⟨_, received, by rfl, cmd_safe emptyBuffers received⟩

/-- A system command with the number 32 is stored behind the table. -/
theorem sysCommand32_outside :
    ¬ ∀ (buffers : Nat → Nat → CmdHandler) (state : CmdState),
      (cmdMachine buffers).Reach (fun _ _ => True) state → CmdSafe state := by
  intro always
  have begun : (cmdMachine emptyBuffers).Reach (fun _ _ => True)
      (initialCmdState emptyBuffers) := .initial
  have added := begun.step (CmdEvent.addCmdHandler 0x80000020 userHandler)
    trivial rfl
  have safe := always emptyBuffers _ added
  have inside : (CmdAccess.entry 32 32).InBounds :=
    safe.inBounds _ (List.mem_singleton.mpr rfl)
  exact Nat.lt_irrefl 32 inside

end KernelReloaded.SifCmd

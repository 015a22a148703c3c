/-
The search for the SBIOS call table, in the loader and in the older RTE tool.

Both follow the first instructions of the SBIOS with a value for each register
and the address of the last load into it, and take the load behind the register
jump for the call table.  The loader's search also follows `sll` and takes `jr`
for a register jump.

The second half compares the two.  A register is marked when the `sll` of the
newer search may have given it another value than the older one knows.
-/

import KernelReloaded.Core.Memory
import Mathlib.Logic.Function.Basic

namespace KernelReloaded.SbiosScan

open Memory

def numberOfInstructionsChecked : Nat := 128

def sbiosStartAddress : BitVec 32 := 0x80001000

/-- `"PS2b"` -/
def magicCheck : Nat := 0x62325350

/-! ### Instructions -/

/-- What the searches tell apart.  `other` is an instruction without effect for
both, also `lui` with a source, `sll` into register 0 and `jalr` with a target
register. -/
inductive Instr where
  | addiu (rs rt : Nat) (immidiate : BitVec 32)
  | lui (rt : Nat) (immidiate : BitVec 32)
  | subu (rs rt rd : Nat)
  | addu (rs rt rd : Nat)
  | sll (rt rd sa : Nat)
  | jr (rs : Nat)
  | jalr (rs : Nat)
  | lw (rs rt : Nat) (immidiate : BitVec 32)
  | other
deriving DecidableEq

def field (value : BitVec 32) (shift : Nat) : Nat :=
  ((value >>> shift) &&& 0x1f).toNat

def immidiate (value : BitVec 32) : BitVec 32 :=
  (value.setWidth 16).signExtend 32

def decodeSpecial (value : BitVec 32) : Instr :=
  let rs := field value 21
  let rt := field value 16
  let rd := field value 11
  let sa := field value 6
  if value &&& 0x3f = 35 then
    .subu rs rt rd
  else if value &&& 0x3f = 33 then
    .addu rs rt rd
  else if value &&& 0x3f = 0 then
    if rd ≠ 0 then .sll rt rd sa else .other
  else if value &&& 0x3f = 8 then
    .jr rs
  else if value &&& 0x3f = 9 then
    if rt = 0 then .jalr rs else .other
  else
    .other

def decode (value : BitVec 32) : Instr :=
  let rs := field value 21
  let rt := field value 16
  if value >>> 26 = 9 then
    .addiu rs rt (immidiate value)
  else if value >>> 26 = 15 then
    if rs = 0 then .lui rt (immidiate value) else .other
  else if value >>> 26 = 0 then
    decodeSpecial value
  else if value >>> 26 = 35 then
    .lw rs rt (immidiate value)
  else
    .other

/-! ### The searches -/

structure ScanState where
  regs : Nat → BitVec 32
  load : Nat → BitVec 32
  jumpBase : BitVec 32

def ScanState.setReg (state : ScanState) (register : Nat) (value : BitVec 32) :
    ScanState :=
  { state with regs := Function.update state.regs register value }

def ScanState.initial : ScanState :=
  { regs := fun _ => 0
    load := fun _ => 0
    jumpBase := 0 }

/-- The instructions that both searches follow. -/
def track (state : ScanState) : Instr → ScanState
  | .addiu rs rt immidiate => state.setReg rt (state.regs rs + immidiate)
  | .lui rt immidiate => state.setReg rt (immidiate <<< 16)
  | .subu rs rt rd => state.setReg rd (state.regs rs - state.regs rt)
  | .addu rs rt rd => state.setReg rd (state.regs rs + state.regs rt)
  | .lw rs rt immidiate =>
      { state with
        load := Function.update state.load rt (state.regs rs + immidiate) }
  | _ => state

def takeJump (state : ScanState) (rs : Nat) : ScanState :=
  if state.load rs ≠ 0 then
    { state with jumpBase := state.load rs }
  else
    state

/-- The state after an instruction, and whether the loop is left. -/
inductive ScanStep where
  | next (state : ScanState)
  | leave (state : ScanState)

/-- The loop body of the RTE tool. -/
def rteStep (state : ScanState) : Instr → ScanStep
  | .jalr rs => .leave (takeJump state rs)
  | instr => .next (track state instr)

/-- The loop body of the loader. -/
def loaderStep (state : ScanState) : Instr → ScanStep
  | .sll rt rd sa => .next (state.setReg rd (state.regs rt <<< sa))
  | .jr rs =>
      if state.load rs ≠ 0 then
        .leave { state with jumpBase := state.load rs }
      else
        .next state
  | .jalr rs => .leave (takeJump state rs)
  | instr => .next (track state instr)

def scan (step : ScanState → Instr → ScanStep) : List Instr → ScanState → BitVec 32
  | [], state => state.jumpBase
  | instr :: rest, state =>
      match step state instr with
      | .next state => scan step rest state
      | .leave state => state.jumpBase

def readWord (memory : Image) (address : BitVec 32) : BitVec 32 :=
  BitVec.ofNat 32 (le32 memory address.toNat)

/-- The loop stops before its first round when the end of the code is behind
the end of the address space. -/
def code (memory : Image) (entrypoint : BitVec 32) : List Instr :=
  if entrypoint.toNat + 4 * numberOfInstructionsChecked < 4294967296 then
    (List.range numberOfInstructionsChecked).map fun index =>
      decode (readWord memory (entrypoint + BitVec.ofNat 32 (4 * index)))
  else
    []

def entrypoint (memory : Image) (addr : BitVec 32) : BitVec 32 :=
  readWord memory addr - sbiosStartAddress + addr

def callTable (step : ScanState → Instr → ScanStep) (memory : Image)
    (addr : BitVec 32) : BitVec 32 :=
  if readWord memory (addr + 4) ≠ BitVec.ofNat 32 magicCheck then
    0
  else
    let jumpBase := scan step (code memory (entrypoint memory addr)) ScanState.initial
    if jumpBase ≠ 0 then
      jumpBase - sbiosStartAddress + addr
    else
      jumpBase

/-- `getSBIOSCallTable` of the RTE tool. -/
def rteGetSBIOSCallTable (memory : Image) (addr : BitVec 32) : BitVec 32 :=
  callTable rteStep memory addr

/-- `getSBIOSCallTable` of the loader. -/
def getSBIOSCallTable (memory : Image) (addr : BitVec 32) : BitVec 32 :=
  callTable loaderStep memory addr

/-! ### Where the searches may differ -/

/-- Registers, and loads, that may have different values in the two searches. -/
structure Marks where
  regs : Nat → Bool
  load : Nat → Bool

def Marks.none : Marks :=
  { regs := fun _ => false
    load := fun _ => false }

def Marks.setReg (marks : Marks) (register : Nat) (mark : Bool) : Marks :=
  { marks with regs := Function.update marks.regs register mark }

/-- The marks after an instruction, from the state of the older search.  A
shift marks its target unless it gives the value the older search has there. -/
def mark (state : ScanState) (marks : Marks) : Instr → Marks
  | .addiu rs rt _ => marks.setReg rt (marks.regs rs)
  | .lui rt _ => marks.setReg rt false
  | .subu rs rt rd => marks.setReg rd (marks.regs rs || marks.regs rt)
  | .addu rs rt rd => marks.setReg rd (marks.regs rs || marks.regs rt)
  | .sll rt rd sa =>
      marks.setReg rd (marks.regs rt || decide (state.regs rt <<< sa ≠ state.regs rd))
  | .lw rs rt _ =>
      { marks with load := Function.update marks.load rt (marks.regs rs) }
  | _ => marks

/-- An instruction at which the newer search decides as the older one: a `jr`
goes through a register without a load, a `jalr` through one with the same load
in both. -/
def Harmless (state : ScanState) (marks : Marks) : Instr → Prop
  | .jr rs => marks.load rs = false ∧ state.load rs = 0
  | .jalr rs => marks.load rs = false
  | _ => True

/-- Every instruction that the older search looks at is harmless. -/
def AllHarmless : List Instr → ScanState → Marks → Prop
  | [], _, _ => True
  | instr :: rest, state, marks =>
      Harmless state marks instr ∧
        match rteStep state instr with
        | .next next => AllHarmless rest next (mark state marks instr)
        | .leave _ => True

instance (state : ScanState) (marks : Marks) :
    (instr : Instr) → Decidable (Harmless state marks instr)
  | .jr _ => inferInstanceAs (Decidable (_ ∧ _))
  | .jalr _ => inferInstanceAs (Decidable (_ = _))
  | .addiu _ _ _ => inferInstanceAs (Decidable True)
  | .lui _ _ => inferInstanceAs (Decidable True)
  | .subu _ _ _ => inferInstanceAs (Decidable True)
  | .addu _ _ _ => inferInstanceAs (Decidable True)
  | .sll _ _ _ => inferInstanceAs (Decidable True)
  | .lw _ _ _ => inferInstanceAs (Decidable True)
  | .other => inferInstanceAs (Decidable True)

instance AllHarmless.decidable : (instrs : List Instr) → (state : ScanState) →
    (marks : Marks) → Decidable (AllHarmless instrs state marks)
  | [], _, _ => inferInstanceAs (Decidable True)
  | instr :: rest, state, marks =>
      have : Decidable (match rteStep state instr with
          | .next next => AllHarmless rest next (mark state marks instr)
          | .leave _ => True) :=
        match rteStep state instr with
        | .next next => AllHarmless.decidable rest next (mark state marks instr)
        | .leave _ => inferInstanceAs (Decidable True)
      inferInstanceAs (Decidable (_ ∧ _))

/-- The image has no instruction before the jump to the call table that only
the newer search follows and that makes a difference. -/
def KnownCode (memory : Image) (addr : BitVec 32) : Prop :=
  ∃ instrs, code memory (entrypoint memory addr) = instrs ∧
    AllHarmless instrs ScanState.initial Marks.none

/-- The two searches agree on everything that is not marked. -/
structure Agree (old new : ScanState) (marks : Marks) : Prop where
  regs : ∀ register, marks.regs register = false → new.regs register = old.regs register
  load : ∀ register, marks.load register = false → new.load register = old.load register
  jumpBase : new.jumpBase = old.jumpBase

/-- Registers that agree where nothing is marked still do when one is set in
both. -/
theorem update_agree {Value : Type} {old new : Nat → Value} {marked : Nat → Bool}
    (agree : ∀ register, marked register = false → new register = old register)
    {register : Nat} {value value' : Value} {flag : Bool}
    (same : flag = false → value' = value) (other : Nat)
    (unmarked : Function.update marked register flag other = false) :
    Function.update new register value' other =
      Function.update old register value other := by
  by_cases isSet : other = register
  · subst isSet
    rw [Function.update_self] at unmarked
    rw [Function.update_self, Function.update_self]
    exact same unmarked
  · rw [Function.update_of_ne isSet] at unmarked
    rw [Function.update_of_ne isSet, Function.update_of_ne isSet]
    exact agree other unmarked

theorem Agree.setReg {old new : ScanState} {marks : Marks} (agree : Agree old new marks)
    {register : Nat} {value value' : BitVec 32} {flag : Bool}
    (same : flag = false → value' = value) :
    Agree (old.setReg register value) (new.setReg register value')
      (marks.setReg register flag) :=
  ⟨update_agree agree.regs same, agree.load, agree.jumpBase⟩

theorem setReg_self (state : ScanState) (register : Nat) :
    state.setReg register (state.regs register) = state := by
  unfold ScanState.setReg
  rw [Function.update_eq_self]

theorem Agree.setLoad {old new : ScanState} {marks : Marks} (agree : Agree old new marks)
    {register : Nat} {value value' : BitVec 32} {flag : Bool}
    (same : flag = false → value' = value) :
    Agree { old with load := Function.update old.load register value }
      { new with load := Function.update new.load register value' }
      { marks with load := Function.update marks.load register flag } :=
  ⟨agree.regs, update_agree agree.load same, agree.jumpBase⟩

theorem Agree.takeJump {old new : ScanState} {marks : Marks} (agree : Agree old new marks)
    {rs : Nat} (unmarked : marks.load rs = false) :
    (takeJump new rs).jumpBase = (takeJump old rs).jumpBase := by
  unfold SbiosScan.takeJump
  rw [agree.load rs unmarked]
  split
  · rfl
  · exact agree.jumpBase

/-- At a harmless instruction the searches go on together or stop together. -/
theorem step_agree {old new : ScanState} {marks : Marks} (agree : Agree old new marks)
    (instr : Instr) (harmless : Harmless old marks instr) :
    (∃ old' new', rteStep old instr = .next old' ∧ loaderStep new instr = .next new' ∧
      Agree old' new' (mark old marks instr)) ∨
    ∃ old' new', rteStep old instr = .leave old' ∧ loaderStep new instr = .leave new' ∧
      new'.jumpBase = old'.jumpBase := by
  cases instr with
  | addiu rs rt immidiate =>
      refine Or.inl ⟨_, _, rfl, rfl, agree.setReg fun unmarked => ?_⟩
      rw [agree.regs rs unmarked]
  | lui rt immidiate =>
      exact Or.inl ⟨_, _, rfl, rfl, agree.setReg fun _unmarked => rfl⟩
  | subu rs rt rd =>
      refine Or.inl ⟨_, _, rfl, rfl, agree.setReg fun unmarked => ?_⟩
      obtain ⟨first, second⟩ := Bool.or_eq_false_iff.mp unmarked
      rw [agree.regs rs first, agree.regs rt second]
  | addu rs rt rd =>
      refine Or.inl ⟨_, _, rfl, rfl, agree.setReg fun unmarked => ?_⟩
      obtain ⟨first, second⟩ := Bool.or_eq_false_iff.mp unmarked
      rw [agree.regs rs first, agree.regs rt second]
  | sll rt rd sa =>
      refine Or.inl ⟨_, _, rfl, rfl, ?_⟩
      -- the older search leaves the target as it is
      have shifted : Agree (old.setReg rd (old.regs rd)) (new.setReg rd (new.regs rt <<< sa))
          (mark old marks (.sll rt rd sa)) := by
        apply agree.setReg
        intro unmarked
        obtain ⟨source, unchanged⟩ := Bool.or_eq_false_iff.mp unmarked
        rw [agree.regs rt source]
        exact not_not.mp (of_decide_eq_false unchanged)
      rwa [setReg_self] at shifted
  | jr rs =>
      obtain ⟨unmarked, noLoad⟩ := harmless
      refine Or.inl ⟨old, new, rfl, ?_, agree⟩
      change (if new.load rs ≠ 0 then _ else _) = _
      rw [agree.load rs unmarked, noLoad, if_neg (not_not.mpr rfl)]
  | jalr rs =>
      exact Or.inr ⟨_, _, rfl, rfl, agree.takeJump harmless⟩
  | lw rs rt immidiate =>
      refine Or.inl ⟨_, _, rfl, rfl, agree.setLoad fun unmarked => ?_⟩
      rw [agree.regs rs unmarked]
  | other => exact Or.inl ⟨old, new, rfl, rfl, agree⟩

theorem scan_agree (instrs : List Instr) {old new : ScanState} {marks : Marks}
    (agree : Agree old new marks) (harmless : AllHarmless instrs old marks) :
    scan loaderStep instrs new = scan rteStep instrs old := by
  induction instrs generalizing old new marks with
  | nil => exact agree.jumpBase
  | cons instr rest ih =>
      obtain ⟨here, later⟩ := harmless
      rw [scan, scan]
      rcases step_agree agree instr here with
        ⟨old', new', oldStep, newStep, agree'⟩ | ⟨old', new', oldStep, newStep, same⟩
      · rw [oldStep] at later
        rw [oldStep, newStep]
        exact ih agree' later
      · rw [oldStep, newStep]
        exact same

/-- On code without instructions that only the newer search follows to another
result, both find the same call table. -/
theorem getSBIOSCallTable_eq (memory : Image) (addr : BitVec 32)
    (known : KnownCode memory addr) :
    getSBIOSCallTable memory addr = rteGetSBIOSCallTable memory addr := by
  obtain ⟨instrs, isCode, harmless⟩ := known
  have start : Agree ScanState.initial ScanState.initial Marks.none :=
    ⟨fun _register _unmarked => rfl, fun _register _unmarked => rfl, rfl⟩
  unfold getSBIOSCallTable rteGetSBIOSCallTable callTable
  rw [isCode, scan_agree instrs start harmless]

/-- An image at address 0 whose code follows the two words of the header. -/
def imageOfCode (words : List Nat) : Image :=
  imageOfList (([0x80001008, magicCheck] ++ words).flatMap (bytesLe 4))

/-- A table at 0x800083c8 called with `jalr`, and a shift that does not reach
the call. -/
def calledTable : Image :=
  imageOfCode
    [0x3C038001, -- lui v1, 0x8001
      0x246383C8, -- addiu v1, v1, -31800
      0x24040001, -- addiu a0, zero, 1
      0x00042880, -- sll a1, a0, 2
      0x00021080, -- sll v0, v0, 2
      0x00431021, -- addu v0, v0, v1
      0x8C420000, -- lw v0, 0(v0)
      0x0040F809] -- jalr v0

theorem calledTable_same :
    getSBIOSCallTable calledTable 0 = rteGetSBIOSCallTable calledTable 0 ∧
      rteGetSBIOSCallTable calledTable 0 = 0x73C8 := by
  have known : KnownCode calledTable 0 :=
    ⟨code calledTable (entrypoint calledTable 0), rfl, by decide +kernel⟩
  exact ⟨getSBIOSCallTable_eq calledTable 0 known, by decide +kernel⟩

/-- A tail jump through one entry before the call of the next one. -/
def jumpedTable : Image :=
  imageOfCode
    [0x3C038001, -- lui v1, 0x8001
      0x246383C8, -- addiu v1, v1, -31800
      0x8C790000, -- lw t9, 0(v1)
      0x03200008, -- jr t9
      0x8C780004, -- lw t8, 4(v1)
      0x0300F809] -- jalr t8

theorem jumpedTable_differs :
    rteGetSBIOSCallTable jumpedTable 0 = 0x73CC ∧
      getSBIOSCallTable jumpedTable 0 = 0x73C8 := by
  decide +kernel

end KernelReloaded.SbiosScan

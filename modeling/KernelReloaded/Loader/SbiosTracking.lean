/-
What the loader's search takes for the call table, told without its state.

The values that the search has for the registers are those of the arithmetic
instructions alone: a load leaves its target as it is, and register 0 can be
written.  The call table is the last load into the register of the first jump
that the search accepts.

The second half runs the same instructions on a MIPS processor.
-/

import KernelReloaded.Core.LastOccurrence
import KernelReloaded.Loader.SbiosScan

namespace KernelReloaded.SbiosScan

open Memory LastOccurrence

/-! ### What the search follows -/

/-- The value of an arithmetic instruction, with its register. -/
def arithmetic (regs : Nat → BitVec 32) : Instr → Option (Nat × BitVec 32)
  | .addiu rs rt immidiate => some (rt, regs rs + immidiate)
  | .lui rt immidiate => some (rt, immidiate <<< 16)
  | .subu rs rt rd => some (rd, regs rs - regs rt)
  | .addu rs rt rd => some (rd, regs rs + regs rt)
  | .sll rt rd sa => some (rd, regs rt <<< sa)
  | _ => none

def followOne (regs : Nat → BitVec 32) (instr : Instr) : Nat → BitVec 32 :=
  match arithmetic regs instr with
  | some (register, value) => Function.update regs register value
  | none => regs

/-- The registers after the arithmetic instructions alone. -/
def follow (instrs : List Instr) : Nat → BitVec 32 :=
  instrs.foldl followOne fun _ => 0

def Instr.loadTarget : Instr → Option Nat
  | .lw _ rt _ => some rt
  | _ => none

/-- The address of the last load into a register, as the search sees it. -/
def LastLoad (instrs : List Instr) (register : Nat) (address : BitVec 32) :
    Prop :=
  ∃ front rs immidiate,
    IsLast (fun instr => instr.loadTarget = some register) front
      (.lw rs register immidiate) instrs ∧
    address = follow front rs + immidiate

/-- A jump behind some instructions that ends the search: any `jalr`, and a
`jr` through a register that was loaded. -/
def Ends (before : List Instr) (jump : Instr) (register : Nat) : Prop :=
  jump = .jalr register ∨
    jump = .jr register ∧
      ∃ address, address ≠ 0 ∧ LastLoad before register address

/-- The search goes on behind all of the instructions. -/
def Passed (instrs : List Instr) : Prop :=
  ∀ front jump, front ++ [jump] <+: instrs → ∀ register, ¬ Ends front jump register

/-- The search ends at the jump through the register behind `before`. -/
def EndsAt (instrs before : List Instr) (register : Nat) : Prop :=
  Passed before ∧
    ∃ jump, before ++ [jump] <+: instrs ∧ Ends before jump register

theorem passed_nil : Passed [] := by
  intro front jump isPrefix
  cases front <;> simp at isPrefix

theorem passed_concat (before : List Instr) (instr : Instr) :
    Passed (before ++ [instr]) ↔
      Passed before ∧ ∀ register, ¬ Ends before instr register := by
  constructor
  · intro passed
    constructor
    · intro front jump isPrefix
      exact passed front jump (isPrefix.trans (List.prefix_append _ _))
    · exact passed before instr (List.prefix_refl _)
  · intro passed front jump isPrefix
    obtain ⟨earlier, here⟩ := passed
    rcases List.prefix_concat_iff.mp isPrefix with same | inside
    · obtain ⟨rfl, sameJump⟩ := List.append_inj' same rfl
      cases sameJump
      exact here
    · exact earlier front jump inside

/-- The search passes all of the instructions or ends at one of them. -/
theorem passed_or_endsAt (instrs : List Instr) :
    Passed instrs ∨ ∃ before register, EndsAt instrs before register := by
  induction instrs using List.reverseRecOn with
  | nil => exact Or.inl passed_nil
  | append_singleton before instr ih =>
      rcases ih with passed | ⟨front, register, passed, jump, isPrefix, ends⟩
      · by_cases ends : ∃ register, Ends before instr register
        · obtain ⟨register, ends⟩ := ends
          exact Or.inr ⟨before, register, passed, instr, List.prefix_refl _, ends⟩
        · exact Or.inl ((passed_concat before instr).mpr
            ⟨passed, fun register found => ends ⟨register, found⟩⟩)
      · exact Or.inr ⟨front, register, passed, jump,
          isPrefix.trans (List.prefix_append _ _), ends⟩

def Instr.isJump : Instr → Bool
  | .jr _ => true
  | .jalr _ => true
  | _ => false

theorem passed_of_no_jump {instrs : List Instr}
    (none : ∀ instr, instr ∈ instrs → instr.isJump = false) : Passed instrs := by
  intro front jump isPrefix register ends
  have member : jump ∈ instrs := isPrefix.subset (by simp)
  have noJump := none jump member
  rcases ends with rfl | ⟨rfl, -⟩ <;> cases noJump

/-! ### The state of the search -/

def advance (state : ScanState) : Instr → ScanState
  | .sll rt rd sa => state.setReg rd (state.regs rt <<< sa)
  | instr => track state instr

def scanned (instrs : List Instr) : ScanState :=
  instrs.foldl advance ScanState.initial

theorem scanned_concat (before : List Instr) (instr : Instr) :
    scanned (before ++ [instr]) = advance (scanned before) instr := by
  unfold scanned
  rw [List.foldl_append]
  rfl

theorem follow_concat (before : List Instr) (instr : Instr) :
    follow (before ++ [instr]) = followOne (follow before) instr := by
  unfold follow
  rw [List.foldl_append]
  rfl

theorem advance_regs (state : ScanState) (instr : Instr) :
    (advance state instr).regs = followOne state.regs instr := by
  cases instr <;> rfl

theorem advance_jumpBase (state : ScanState) (instr : Instr) :
    (advance state instr).jumpBase = state.jumpBase := by
  cases instr <;> rfl

theorem scanned_regs (instrs : List Instr) :
    (scanned instrs).regs = follow instrs := by
  induction instrs using List.reverseRecOn with
  | nil => rfl
  | append_singleton before instr ih =>
      rw [scanned_concat, follow_concat, advance_regs, ih]

theorem scanned_jumpBase (instrs : List Instr) :
    (scanned instrs).jumpBase = 0 := by
  induction instrs using List.reverseRecOn with
  | nil => rfl
  | append_singleton before instr ih =>
      rw [scanned_concat, advance_jumpBase, ih]

theorem advance_load_of_ne {state : ScanState} {instr : Instr} {register : Nat}
    (other : instr.loadTarget ≠ some register) :
    (advance state instr).load register = state.load register := by
  cases instr with
  | lw rs rt immidiate =>
      have different : register ≠ rt := by
        intro same
        exact other (congrArg some same.symm)
      exact Function.update_of_ne different _ _
  | _ => rfl

theorem lastLoad_concat (before : List Instr) (instr : Instr) (register : Nat)
    (address : BitVec 32) :
    LastLoad (before ++ [instr]) register address ↔
      (∃ rs immidiate, instr = .lw rs register immidiate ∧
        address = follow before rs + immidiate) ∨
      (instr.loadTarget ≠ some register ∧ LastLoad before register address) := by
  unfold LastLoad
  constructor
  · intro last
    obtain ⟨front, rs, immidiate, isLast, same⟩ := last
    rcases (isLast_concat instr).mp isLast with ⟨-, rfl, rfl⟩ | ⟨other, earlier⟩
    · exact Or.inl ⟨rs, immidiate, rfl, same⟩
    · exact Or.inr ⟨other, front, rs, immidiate, earlier, same⟩
  · intro cases
    rcases cases with
      ⟨rs, immidiate, rfl, same⟩ | ⟨other, front, rs, immidiate, earlier, same⟩
    · exact ⟨before, rs, immidiate,
        (isLast_concat _).mpr (Or.inl ⟨rfl, rfl, rfl⟩), same⟩
    · exact ⟨front, rs, immidiate,
        (isLast_concat _).mpr (Or.inr ⟨other, earlier⟩), same⟩

/-- Apart from 0, the search has the address of the last load. -/
theorem lastLoad_iff (instrs : List Instr) (register : Nat)
    {address : BitVec 32} (present : address ≠ 0) :
    LastLoad instrs register address ↔
      (scanned instrs).load register = address := by
  induction instrs using List.reverseRecOn with
  | nil =>
      constructor
      · intro last
        obtain ⟨front, rs, immidiate, isLast, -⟩ := last
        exact absurd isLast IsLast.not_nil
      · intro same
        exact absurd same.symm present
  | append_singleton before instr ih =>
      rw [lastLoad_concat, scanned_concat, ih]
      by_cases loads : instr.loadTarget = some register
      · cases instr with
        | lw rs rt immidiate =>
            cases loads
            have loaded : (advance (scanned before)
                (.lw rs register immidiate)).load register =
                follow before rs + immidiate := by
              rw [← scanned_regs]
              exact Function.update_self _ _ _
            rw [loaded]
            constructor
            · intro cases
              rcases cases with ⟨_, _, same, rfl⟩ | ⟨other, -⟩
              · cases same
                rfl
              · exact absurd rfl other
            · intro same
              exact Or.inl ⟨rs, immidiate, rfl, same.symm⟩
        | _ => cases loads
      · rw [advance_load_of_ne loads]
        constructor
        · intro cases
          rcases cases with ⟨rs, immidiate, rfl, -⟩ | ⟨-, same⟩
          · exact absurd rfl loads
          · exact same
        · intro same
          exact Or.inr ⟨loads, same⟩

/-! ### Where the search ends -/

theorem loaderStep_passed {before : List Instr} {instr : Instr}
    (goesOn : ∀ register, ¬ Ends before instr register) :
    loaderStep (scanned before) instr = .next (scanned (before ++ [instr])) := by
  rw [scanned_concat]
  cases instr with
  | jr rs =>
      have empty : (scanned before).load rs = 0 := by
        by_contra loaded
        exact goesOn rs (Or.inr
          ⟨rfl, _, loaded, (lastLoad_iff before rs loaded).mpr rfl⟩)
      change (if (scanned before).load rs ≠ 0 then _ else _) = _
      rw [empty, if_neg (not_not.mpr rfl)]
      rfl
  | jalr rs => exact absurd (Or.inl rfl) (goesOn rs)
  | _ => rfl

theorem takeJump_scanned (before : List Instr) (register : Nat) :
    (takeJump (scanned before) register).jumpBase =
      (scanned before).load register := by
  unfold takeJump
  split
  · rfl
  · rename_i empty
    rw [scanned_jumpBase]
    exact (not_not.mp empty).symm

theorem loaderStep_ends {before : List Instr} {jump : Instr} {register : Nat}
    (ends : Ends before jump register) :
    loaderStep (scanned before) jump =
      .leave (takeJump (scanned before) register) := by
  rcases ends with rfl | ⟨rfl, address, present, last⟩
  · rfl
  · have loaded := (lastLoad_iff before register present).mp last
    have nonzero : (scanned before).load register ≠ 0 := by
      rw [loaded]
      exact present
    unfold takeJump
    change (if (scanned before).load register ≠ 0 then _ else _) = _
    rw [if_pos nonzero, if_pos nonzero]

theorem scan_passed {before : List Instr} (passed : Passed before)
    (rest : List Instr) :
    scan loaderStep (before ++ rest) ScanState.initial =
      scan loaderStep rest (scanned before) := by
  induction before using List.reverseRecOn generalizing rest with
  | nil => rfl
  | append_singleton before instr ih =>
      obtain ⟨earlier, here⟩ := (passed_concat before instr).mp passed
      rw [List.append_assoc, ih earlier, List.cons_append, scan,
        loaderStep_passed here]
      rfl

/-- Where the search ends, its result is the load of the register. -/
theorem scan_endsAt {instrs before : List Instr} {register : Nat}
    (ends : EndsAt instrs before register) :
    scan loaderStep instrs ScanState.initial =
      (scanned before).load register := by
  obtain ⟨passed, jump, ⟨rest, rfl⟩, ends⟩ := ends
  rw [List.append_assoc, scan_passed passed, List.cons_append, scan,
    loaderStep_ends ends]
  exact takeJump_scanned before register

/-- The result of the search, from the instructions alone. -/
theorem scan_eq_iff (instrs : List Instr) {address : BitVec 32}
    (present : address ≠ 0) :
    scan loaderStep instrs ScanState.initial = address ↔
      ∃ before register, EndsAt instrs before register ∧
        LastLoad before register address := by
  constructor
  · intro found
    rcases passed_or_endsAt instrs with passed | ⟨before, register, ends⟩
    · have none := scan_passed passed []
      rw [List.append_nil, found] at none
      exact absurd (none.trans (scanned_jumpBase instrs)) present
    · refine ⟨before, register, ends, ?_⟩
      rw [lastLoad_iff before register present, ← scan_endsAt ends]
      exact found
  · intro found
    obtain ⟨before, register, ends, last⟩ := found
    rw [scan_endsAt ends]
    exact (lastLoad_iff before register present).mp last

/-- The call table of a header, from the instructions alone. -/
def TableAt (memory : Image) (addr table : BitVec 32) : Prop :=
  table ≠ 0 ∧ readWord memory (addr + 4) = BitVec.ofNat 32 magicCheck ∧
    ∃ before register load,
      EndsAt (code memory (entrypoint memory addr)) before register ∧
      LastLoad before register load ∧ load ≠ 0 ∧
      table = load - sbiosStartAddress + addr

theorem getSBIOSCallTable_iff (memory : Image) (addr table : BitVec 32) :
    (getSBIOSCallTable memory addr = table ∧ table ≠ 0) ↔
      TableAt memory addr table := by
  unfold getSBIOSCallTable callTable TableAt
  dsimp only
  constructor
  · intro found
    obtain ⟨same, present⟩ := found
    by_cases magic : readWord memory (addr + 4) = BitVec.ofNat 32 magicCheck
    · rw [if_neg (not_not.mpr magic)] at same
      split at same
      · rename_i nonzero
        obtain ⟨before, register, ends, last⟩ :=
          (scan_eq_iff _ nonzero).mp rfl
        exact ⟨present, magic, before, register, _, ends, last, nonzero,
          same.symm⟩
      · rename_i zero
        rw [not_not.mp zero] at same
        exact absurd same.symm present
    · rw [if_pos magic] at same
      exact absurd same.symm present
  · intro found
    obtain ⟨present, magic, before, register, load, ends, last, nonzero, same⟩ :=
      found
    have result := (scan_eq_iff _ nonzero).mpr ⟨before, register, ends, last⟩
    rw [if_neg (not_not.mpr magic), result, if_pos nonzero]
    exact ⟨same.symm, present⟩

/-! ### The instructions on a processor -/

/-- What wrote a register: an arithmetic instruction or a load. -/
inductive Writer where
  | arithmetic
  | load (address : BitVec 32)
deriving DecidableEq

structure Processor where
  pc : Nat
  regs : Nat → BitVec 32
  writer : Nat → Option Writer

def Processor.initial : Processor :=
  { pc := 0
    regs := fun _ => 0
    writer := fun _ => none }

/-- Register 0 stays zero. -/
def Processor.write (processor : Processor) (register : Nat)
    (value : BitVec 32) (writer : Writer) : Processor :=
  if register = 0 then processor
  else
    { processor with
      regs := Function.update processor.regs register value
      writer := Function.update processor.writer register (some writer) }

/-- `ram` is the memory at each instruction, so that stores may change it. -/
def Processor.execute (ram : Nat → BitVec 32 → BitVec 32)
    (processor : Processor) (instr : Instr) : Processor :=
  let next := { processor with pc := processor.pc + 1 }
  match instr with
  | .lw rs rt immidiate =>
      let address := processor.regs rs + immidiate
      next.write rt (ram processor.pc address) (.load address)
  | instr =>
      match arithmetic processor.regs instr with
      | some (register, value) => next.write register value .arithmetic
      | none => next

def run (ram : Nat → BitVec 32 → BitVec 32) (instrs : List Instr) : Processor :=
  instrs.foldl (Processor.execute ram) Processor.initial

def Instr.target : Instr → Option Nat
  | .addiu _ rt _ => some rt
  | .lui rt _ => some rt
  | .subu _ _ rd => some rd
  | .addu _ _ rd => some rd
  | .sll _ rd _ => some rd
  | .lw _ rt _ => some rt
  | _ => none

theorem target_of_loadTarget {instr : Instr} {register : Nat}
    (loads : instr.loadTarget = some register) :
    instr.target = some register := by
  cases instr <;> cases loads
  rfl

section

variable {ram : Nat → BitVec 32 → BitVec 32}

theorem run_concat (before : List Instr) (instr : Instr) :
    run ram (before ++ [instr]) = (run ram before).execute ram instr := by
  unfold run
  rw [List.foldl_append]
  rfl

theorem write_writer_self {processor : Processor} {register : Nat}
    {value : BitVec 32} {writer : Writer} (nonzero : register ≠ 0) :
    (processor.write register value writer).writer register = some writer := by
  unfold Processor.write
  rw [if_neg nonzero]
  exact Function.update_self _ _ _

theorem write_writer_of_ne {processor : Processor} {register other : Nat}
    {value : BitVec 32} {writer : Writer} (different : other ≠ register) :
    (processor.write register value writer).writer other =
      processor.writer other := by
  unfold Processor.write
  split
  · rfl
  · exact Function.update_of_ne different _ _

theorem write_writer_zero {processor : Processor} {register : Nat}
    {value : BitVec 32} {writer : Writer} :
    (processor.write register value writer).writer 0 = processor.writer 0 := by
  unfold Processor.write
  split
  · rfl
  · rename_i nonzero
    exact Function.update_of_ne (Ne.symm nonzero) _ _

theorem execute_writer_zero (processor : Processor) (instr : Instr) :
    (processor.execute ram instr).writer 0 = processor.writer 0 := by
  cases instr with
  | jr rs => rfl
  | jalr rs => rfl
  | other => rfl
  | _ => exact write_writer_zero

theorem execute_writer_of_ne (processor : Processor) {instr : Instr}
    {register : Nat} (other : instr.target ≠ some register) :
    (processor.execute ram instr).writer register =
      processor.writer register := by
  cases instr with
  | jr rs => rfl
  | jalr rs => rfl
  | other => rfl
  | _ =>
      apply write_writer_of_ne
      intro same
      exact other (congrArg some same.symm)

theorem execute_writer_lw (processor : Processor) (rs : Nat) {register : Nat}
    (immidiate : BitVec 32) (nonzero : register ≠ 0) :
    (processor.execute ram (.lw rs register immidiate)).writer register =
      some (.load (processor.regs rs + immidiate)) :=
  write_writer_self nonzero

theorem execute_writer_arithmetic (processor : Processor) {instr : Instr}
    {register : Nat} (nonzero : register ≠ 0)
    (writes : instr.target = some register) (loads : instr.loadTarget = none) :
    (processor.execute ram instr).writer register = some .arithmetic := by
  cases instr <;> cases writes <;> cases loads <;>
    exact write_writer_self nonzero

theorem run_writer_zero (instrs : List Instr) :
    (run ram instrs).writer 0 = none := by
  induction instrs using List.reverseRecOn with
  | nil => rfl
  | append_singleton before instr ih =>
      rw [run_concat, execute_writer_zero, ih]

/-- The last instruction that wrote a register is a load exactly when the last
one with that target is. -/
theorem run_writer_load_iff (instrs : List Instr) {register : Nat}
    (nonzero : register ≠ 0) (address : BitVec 32) :
    (run ram instrs).writer register = some (.load address) ↔
      ∃ front rs immidiate,
        IsLast (fun instr => instr.target = some register) front
          (.lw rs register immidiate) instrs ∧
        address = (run ram front).regs rs + immidiate := by
  induction instrs using List.reverseRecOn with
  | nil =>
      constructor
      · intro written
        cases written
      · intro last
        obtain ⟨front, rs, immidiate, isLast, -⟩ := last
        exact absurd isLast IsLast.not_nil
  | append_singleton before instr ih =>
      rw [run_concat]
      simp only [isLast_concat]
      by_cases writes : instr.target = some register
      · cases loads : instr.loadTarget with
        | none =>
            rw [execute_writer_arithmetic _ nonzero writes loads]
            constructor
            · intro written
              cases written
            · intro last
              obtain ⟨front, rs, immidiate, ⟨-, -, same⟩ | ⟨other, -⟩, -⟩ := last
              · rw [← same] at loads
                cases loads
              · exact absurd writes other
        | some target =>
            cases instr with
            | lw rs rt immidiate =>
                cases writes
                rw [execute_writer_lw _ _ _ nonzero]
                constructor
                · intro written
                  cases written
                  exact ⟨before, rs, immidiate, Or.inl ⟨rfl, rfl, rfl⟩, rfl⟩
                · intro last
                  obtain ⟨front, _, _, ⟨-, rfl, same⟩ | ⟨other, -⟩, rfl⟩ := last
                  · cases same
                    rfl
                  · exact absurd rfl other
            | _ => cases loads
      · rw [execute_writer_of_ne _ writes, ih]
        simp only [writes, false_and, not_false_eq_true, true_and, false_or]

end

theorem getSBIOSCallTable_endsAt {memory : Image} {addr : BitVec 32}
    {before : List Instr} {register : Nat}
    (jump : EndsAt (code memory (entrypoint memory addr)) before register)
    (found : getSBIOSCallTable memory addr ≠ 0) :
    ∃ load, LastLoad before register load ∧
      getSBIOSCallTable memory addr = load - sbiosStartAddress + addr := by
  have result := scan_endsAt jump
  unfold getSBIOSCallTable callTable at *
  dsimp only at *
  rw [result] at found ⊢
  by_cases magic : readWord memory (addr + 4) = BitVec.ofNat 32 magicCheck
  · rw [if_neg (not_not.mpr magic)] at found ⊢
    by_cases zero : (scanned before).load register = 0
    · rw [if_neg (not_not.mpr zero)] at found
      exact absurd zero found
    · rw [if_pos zero]
      exact ⟨_, (lastLoad_iff before register zero).mpr rfl, rfl⟩
  · rw [if_pos magic] at found
    exact absurd rfl found

/-- The table that is returned at a jump is the address of the load that last
wrote the register of the jump exactly when no later instruction writes that
register, it is not register 0, and the load was through a register with the
value of the arithmetic instructions alone. -/
theorem getSBIOSCallTable_load_iff (ram : Nat → BitVec 32 → BitVec 32)
    (memory : Image) (addr : BitVec 32) (before : List Instr) (register : Nat)
    (jump : EndsAt (code memory (entrypoint memory addr)) before register)
    (found : getSBIOSCallTable memory addr ≠ 0) :
    (∃ address, (run ram before).writer register = some (.load address) ∧
      getSBIOSCallTable memory addr = address - sbiosStartAddress + addr) ↔
      register ≠ 0 ∧ ∃ front rs immidiate,
        IsLast (fun instr => instr.target = some register) front
          (.lw rs register immidiate) before ∧
        (run ram front).regs rs = follow front rs := by
  obtain ⟨load, ⟨front, rs, immidiate, isLoad, tracked⟩, result⟩ :=
    getSBIOSCallTable_endsAt jump found
  have loadWrites : ∀ instr : Instr, instr.loadTarget = some register →
      instr.target = some register :=
    fun _instr loads => target_of_loadTarget loads
  constructor
  · intro right
    obtain ⟨address, written, relocated⟩ := right
    have nonzero : register ≠ 0 := by
      intro zero
      rw [zero, run_writer_zero] at written
      cases written
    refine ⟨nonzero, ?_⟩
    obtain ⟨front', rs', immidiate', isLast, effective⟩ :=
      (run_writer_load_iff before nonzero address).mp written
    obtain ⟨rfl, sameLoad⟩ := isLoad.unique (isLast.mono rfl loadWrites)
    cases sameLoad
    refine ⟨front, rs, immidiate, isLast, ?_⟩
    have same : load = address := by
      rw [result] at relocated
      exact (BitVec.sub_left_inj _).mp ((BitVec.add_left_inj _).mp relocated)
    rw [tracked, effective] at same
    exact ((BitVec.add_left_inj _).mp same).symm
  · intro condition
    obtain ⟨nonzero, front', rs', immidiate', isLast, same⟩ := condition
    obtain ⟨rfl, sameLoad⟩ := isLoad.unique (isLast.mono rfl loadWrites)
    cases sameLoad
    refine ⟨load, ?_, result⟩
    rw [run_writer_load_iff before nonzero]
    exact ⟨front, rs, immidiate, isLast, by rw [tracked, same]⟩

/-- What `calledTable` runs before its jump. -/
def calledBefore : List Instr :=
  [.lui 3 0xFFFF8001, .addiu 3 3 0xFFFF83C8, .addiu 0 4 1, .sll 4 5 2,
    .sll 2 2 2, .addu 2 3 2, .lw 2 2 0]

theorem calledTable_loaded :
    ∃ address, (run (fun _ _ => 0) calledBefore).writer 2 =
        some (.load address) ∧
      getSBIOSCallTable calledTable 0 = address - sbiosStartAddress + 0 := by
  have passed : Passed calledBefore := passed_of_no_jump (by decide)
  have isPrefix : calledBefore ++ [.jalr 2] <+:
      code calledTable (entrypoint calledTable 0) := by
    decide +kernel
  have jump : EndsAt (code calledTable (entrypoint calledTable 0))
      calledBefore 2 :=
    ⟨passed, .jalr 2, isPrefix, Or.inl rfl⟩
  have found : getSBIOSCallTable calledTable 0 ≠ 0 := by
    decide +kernel
  apply (getSBIOSCallTable_load_iff (fun _ _ => 0) calledTable 0 calledBefore 2
    jump found).mpr
  refine ⟨by decide, calledBefore.take 6, 2, 0, ⟨rfl, [], rfl, ?_⟩, by decide⟩
  intro later member
  cases member

/-- A load into `t9`, which gets another value before the jump. -/
def staleLoad : Image :=
  imageOfCode
    [0x3C038001, -- lui v1, 0x8001
      0x8C790000, -- lw t9, 0(v1)
      0x24790004, -- addiu t9, v1, 4
      0x03200008] -- jr t9

def staleBefore : List Instr :=
  [.lui 3 0xFFFF8001, .lw 3 25 0, .addiu 3 25 4]

theorem staleLoad_taken :
    EndsAt (code staleLoad (entrypoint staleLoad 0)) staleBefore 25 ∧
      getSBIOSCallTable staleLoad 0 = 0xF000 ∧
      (run (fun _ _ => 0) staleBefore).writer 25 = some .arithmetic ∧
      ¬ ∃ address, (run (fun _ _ => 0) staleBefore).writer 25 =
          some (.load address) ∧
        getSBIOSCallTable staleLoad 0 = address - sbiosStartAddress + 0 := by
  have passed : Passed staleBefore := passed_of_no_jump (by decide)
  have isPrefix : staleBefore ++ [.jr 25] <+:
      code staleLoad (entrypoint staleLoad 0) := by
    decide +kernel
  have loaded : LastLoad staleBefore 25 0x80010000 := by
    rw [lastLoad_iff _ _ (by decide)]
    decide
  have written : (run (fun _ _ => 0) staleBefore).writer 25 =
      some .arithmetic := by
    decide
  refine ⟨⟨passed, .jr 25, isPrefix, Or.inr ⟨rfl, _, by decide, loaded⟩⟩,
    by decide +kernel, written, ?_⟩
  intro right
  obtain ⟨address, isLoad, -⟩ := right
  rw [written] at isLoad
  cases isLoad

end KernelReloaded.SbiosScan

/-
Code of an R5900 with its 128-bit registers and branch delay slots.

Most instructions know the low half of a register only and leave the high half
alone; a 32-bit result is extended by its sign.  A load or store of a doubleword at
an address that is not aligned ends the run.
-/

import KernelReloaded.Core.ByteWords
import KernelReloaded.Core.DelaySlots
import KernelReloaded.Core.Rounding

namespace KernelReloaded.R5900

open ByteWords

/-- Register 0 always reads as 0. -/
abbrev Reg := Fin 32

instance regs_neZero : NeZero 32 := ⟨by decide⟩

structure Gpr where
  low : BitVec 64
  high : BitVec 64

inductive Op where
  | move (rd rs : Reg)
  | li (rt : Reg) (immediate : BitVec 16)
  | addiu (rt rs : Reg) (immediate : BitVec 16)
  | sltiu (rt rs : Reg) (immediate : BitVec 16)
  | or (rd rs rt : Reg)
  | andi (rt rs : Reg) (immediate : BitVec 16)
  | lbu (rt : Reg) (offset : BitVec 16) (base : Reg)
  | sb (rt : Reg) (offset : BitVec 16) (base : Reg)
  | ld (rt : Reg) (offset : BitVec 16) (base : Reg)
  | sd (rt : Reg) (offset : BitVec 16) (base : Reg)
  | lq (rt : Reg) (offset : BitVec 16) (base : Reg)
  | sq (rt : Reg) (offset : BitVec 16) (base : Reg)
  | nop

inductive Test where
  | eq
  | ne

/-- A branch compares two registers. -/
abbrev Instr := DelaySlots.Instr Op (Test × Reg × Reg)

/-- What operations work on. -/
structure Data where
  regs : Reg → Gpr
  memory : Bytes

abbrev State := DelaySlots.State Data

/-! ### Registers -/

def sext (word : Word) : BitVec 64 := word.signExtend 64

def Data.low (data : Data) (reg : Reg) : BitVec 64 :=
  if reg = 0 then 0 else (data.regs reg).low

def Data.high (data : Data) (reg : Reg) : BitVec 64 :=
  if reg = 0 then 0 else (data.regs reg).high

def Data.word (data : Data) (reg : Reg) : Word := (data.low reg).setWidth 32

def Data.setLow (data : Data) (reg : Reg) (low : BitVec 64) : Data :=
  { data with
    regs := Function.update data.regs reg { data.regs reg with low := low } }

def Data.set (data : Data) (reg : Reg) (low high : BitVec 64) : Data :=
  { data with regs := Function.update data.regs reg { low := low, high := high } }

def Data.address (data : Data) (offset : BitVec 16) (base : Reg) : Word :=
  data.word base + offset.signExtend 32

/-! ### Operations -/

def Data.store (data : Data) (address : Word) (count : Nat)
    (word : BitVec (8 * count)) : Data :=
  { data with memory := ByteWords.store data.memory address count word }

def aligned (count : Nat) (address : Word) : Bool := address.toNat % count == 0

/-- Quadwords are accessed at an address with its four low bits ignored. -/
def quadAddress (address : Word) : Word := address &&& ~~~15

def Op.exec (data : Data) : Op → Option Data
  | .move rd rs => some (data.setLow rd (data.low rs))
  | .li rt immediate => some (data.setLow rt (sext (immediate.signExtend 32)))
  | .addiu rt rs immediate =>
      some (data.setLow rt (sext (data.word rs + immediate.signExtend 32)))
  | .sltiu rt rs immediate =>
      some (data.setLow rt
        (if (data.low rs).ult (immediate.signExtend 64) then 1 else 0))
  | .or rd rs rt => some (data.setLow rd (data.low rs ||| data.low rt))
  | .andi rt rs immediate =>
      some (data.setLow rt (data.low rs &&& immediate.zeroExtend 64))
  | .lbu rt offset base =>
      some (data.setLow rt
        ((data.memory (data.address offset base)).zeroExtend 64))
  | .sb rt offset base =>
      some (data.store (data.address offset base) 1 ((data.low rt).setWidth 8))
  | .ld rt offset base =>
      if aligned 8 (data.address offset base) then
        some (data.setLow rt (load data.memory (data.address offset base) 8))
      else none
  | .sd rt offset base =>
      if aligned 8 (data.address offset base) then
        some (data.store (data.address offset base) 8 (data.low rt))
      else none
  | .lq rt offset base =>
      let address := quadAddress (data.address offset base)
      some (data.set rt (load data.memory address 8)
        (load data.memory (address + 8) 8))
  | .sq rt offset base =>
      let address := quadAddress (data.address offset base)
      some ((data.store address 8 (data.low rt)).store (address + 8) 8
        (data.high rt))
  | .nop => some data

def Test.holds (left right : BitVec 64) : Test → Bool
  | .eq => left == right
  | .ne => left != right

/-! ### Steps -/

def cpu : DelaySlots.Processor Op (Test × Reg × Reg) Data where
  exec data op := op.exec data
  taken data := fun (test, rs, rt) => test.holds (data.low rs) (data.low rt)

abbrev Reaches (code : List Instr) : State → State → Prop :=
  DelaySlots.Reaches cpu code

abbrev Ends (code : List Instr) (state : State) (ends : Data → Prop) : Prop :=
  DelaySlots.Ends cpu code state ends

/-- The register an operation sets. -/
def Op.target : Op → Option Reg
  | .move rd _ | .or rd _ _ => some rd
  | .li rt _ | .addiu rt _ _ | .sltiu rt _ _ | .andi rt _ _ | .lbu rt _ _
  | .ld rt _ _ | .lq rt _ _ => some rt
  | .sb _ _ _ | .sd _ _ _ | .sq _ _ _ | .nop => none

def target : Instr → Option Reg
  | .op operation => operation.target
  | .branch _ _ | .likely _ _ | .jRa => none

/-- No instruction sets the register. -/
def Spares (code : List Instr) (reg : Reg) : Prop :=
  ∀ instr ∈ code, target instr ≠ some reg

instance decidableSpares (code : List Instr) (reg : Reg) :
    Decidable (Spares code reg) :=
  inferInstanceAs (Decidable (∀ instr ∈ code, target instr ≠ some reg))

/-- With three arguments of a call. -/
def Data.called (memory : Bytes) (first second third : Word) : Data where
  regs reg :=
    if reg = 4 then { low := sext first, high := 0 }
    else if reg = 5 then { low := sext second, high := 0 }
    else if reg = 6 then { low := sext third, high := 0 }
    else { low := 0, high := 0 }
  memory := memory

/-! ### Reading what was set -/

variable (data : Data) (reg other : Reg) (low high : BitVec 64)

@[simp] theorem low_zero : data.low 0 = 0 := rfl

@[simp] theorem low_setLow :
    (data.setLow reg low).low other =
      if other = 0 then 0 else if other = reg then low else data.low other := by
  by_cases zero : other = 0
  · simp [Data.low, zero]
  · by_cases same : other = reg <;> simp [Data.low, Data.setLow, zero, same]

@[simp] theorem high_setLow :
    (data.setLow reg low).high other = data.high other := by
  by_cases same : other = reg <;> simp [Data.high, Data.setLow, same]

@[simp] theorem low_set :
    (data.set reg low high).low other =
      if other = 0 then 0 else if other = reg then low else data.low other := by
  by_cases zero : other = 0
  · simp [Data.low, zero]
  · by_cases same : other = reg <;> simp [Data.low, Data.set, zero, same]

@[simp] theorem high_set :
    (data.set reg low high).high other =
      if other = 0 then 0 else if other = reg then high else data.high other := by
  by_cases zero : other = 0
  · simp [Data.high, zero]
  · by_cases same : other = reg <;> simp [Data.high, Data.set, zero, same]

@[simp] theorem memory_setLow : (data.setLow reg low).memory = data.memory := rfl

@[simp] theorem memory_set : (data.set reg low high).memory = data.memory := rfl

@[simp] theorem low_store (address : Word) (count : Nat)
    (word : BitVec (8 * count)) :
    (data.store address count word).low reg = data.low reg := rfl

@[simp] theorem high_store (address : Word) (count : Nat)
    (word : BitVec (8 * count)) :
    (data.store address count word).high reg = data.high reg := rfl

@[simp] theorem memory_store (address : Word) (count : Nat)
    (word : BitVec (8 * count)) :
    (data.store address count word).memory =
      ByteWords.store data.memory address count word := rfl

theorem regs_setLow_of_ne {data : Data} {reg other : Reg} {low : BitVec 64}
    (isOther : reg ≠ other) :
    (data.setLow reg low).regs other = data.regs other :=
  Function.update_of_ne isOther.symm _ _

theorem regs_set_of_ne {data : Data} {reg other : Reg} {low high : BitVec 64}
    (isOther : reg ≠ other) :
    (data.set reg low high).regs other = data.regs other :=
  Function.update_of_ne isOther.symm _ _

theorem regs_store (address : Word) (count : Nat) (word : BitVec (8 * count)) :
    (data.store address count word).regs = data.regs := rfl

@[simp] theorem word_zero : data.word 0 = 0 := rfl

@[simp] theorem word_setLow :
    (data.setLow reg low).word other =
      if other = 0 then 0 else if other = reg then low.setWidth 32
      else data.word other := by
  rw [Data.word, low_setLow]
  split
  · rfl
  · split <;> rfl

@[simp] theorem word_set :
    (data.set reg low high).word other =
      if other = 0 then 0 else if other = reg then low.setWidth 32
      else data.word other := by
  rw [Data.word, low_set]
  split
  · rfl
  · split <;> rfl

@[simp] theorem word_store (address : Word) (count : Nat)
    (word : BitVec (8 * count)) :
    (data.store address count word).word reg = data.word reg := rfl

@[simp] theorem address_zero : data.address 0#16 reg = data.word reg :=
  BitVec.add_zero _

/-! ### Runs -/

variable {code : List Instr} {state : State} {next : Data} {place target : Nat}
  {test : Test} {rs rt : Reg} {data}

@[simp] theorem cpu_exec (op : Op) : cpu.exec data op = op.exec data := rfl

theorem reaches_branch {slot : Op}
    (fetched : code[place]? = some (.branch (test, rs, rt) target))
    (delayed : code[place + 1]? = some (.op slot))
    (done : slot.exec data = some next) :
    Reaches code (.at data place)
      (.at next (if test.holds (data.low rs) (data.low rt) then target
        else place + 2)) :=
  DelaySlots.reaches_branch fetched delayed done

variable {ends : Data → Prop}

theorem Op.exec_spares {op : Op} {reg : Reg} (done : op.exec data = some next)
    (spared : op.target ≠ some reg) : next.regs reg = data.regs reg := by
  cases op
  case ld | sd =>
      simp only [Op.exec, Option.ite_none_right_eq_some, Option.some.injEq] at done
      obtain ⟨-, rfl⟩ := done
      grind [Op.target, regs_setLow_of_ne, regs_store]
  all_goals
    simp only [Op.exec, Option.some.injEq] at done
    subst done
    grind [Op.target, regs_setLow_of_ne, regs_set_of_ne, regs_store]

theorem Reaches.spares {first last : State} {reg : Reg}
    (reached : Reaches code first last)
    (spared : Spares code reg) : last.data.regs reg = first.data.regs reg :=
  DelaySlots.Reaches.keeps reached fun op _ _ inCode done =>
    op.exec_spares done (spared (.op op) inCode)

theorem Ends.spares {uses : List Reg} (ended : Ends code state ends)
    (spared : ∀ reg ∉ uses, Spares code reg) :
    Ends code state fun data =>
      ends data ∧ ∀ reg ∉ uses, data.regs reg = state.data.regs reg := by
  obtain ⟨final, reached, left, isEnd⟩ := ended
  exact ⟨final, reached, left, isEnd, fun reg unused =>
    Reaches.spares reached (spared reg unused)⟩

/-! ### Words in registers -/

@[simp] theorem setWidth_sext (word : Word) : (sext word).setWidth 32 = word := by
  apply BitVec.eq_of_getLsbD_eq
  intro bit inside
  have low : bit < 64 := by omega
  rw [BitVec.getLsbD_setWidth, sext, BitVec.getLsbD_signExtend]
  simp only [inside, low, decide_true, Bool.true_and, if_true]

theorem word_of_low {word : Word} (isWord : data.low reg = sext word) :
    data.word reg = word := by
  rw [Data.word, isWord, setWidth_sext]

theorem sext_inj {left right : Word} : sext left = sext right ↔ left = right := by
  constructor
  · intro same
    rw [← setWidth_sext left, same, setWidth_sext]
  · intro same
    rw [same]

theorem toNat_sext (word : Word) :
    (sext word).toNat =
      if word.toNat < 2147483648 then word.toNat
      else word.toNat + 18446744069414584320 := by
  have bound := word.isLt
  rw [sext, BitVec.toNat_signExtend, BitVec.msb_eq_decide, BitVec.toNat_setWidth]
  simp only [decide_eq_true_eq]
  split <;> split <;> omega

/-- Extended words are ordered as the words are. -/
theorem ult_sext (left right : Word) :
    (sext left).ult (sext right) = decide (left.toNat < right.toNat) := by
  have leftBound := left.isLt
  have rightBound := right.isLt
  rw [BitVec.ult, toNat_sext, toNat_sext, decide_eq_decide]
  split <;> split <;> omega

@[simp] theorem holds_eq_sext (left right : Word) :
    Test.eq.holds (sext left) (sext right) = decide (left = right) := by
  rw [Test.holds, Bool.eq_iff_iff, beq_iff_eq, sext_inj, decide_eq_true_iff]

@[simp] theorem holds_ne_sext (left right : Word) :
    Test.ne.holds (sext left) (sext right) = decide (left ≠ right) := by
  rw [Test.holds, Bool.eq_iff_iff, bne_iff_ne, ne_eq, sext_inj, decide_eq_true_iff]

@[simp] theorem holds_eq_flag (flag : Bool) :
    Test.eq.holds (if flag then 1 else 0) 0 = !flag := by
  cases flag <;> rfl

@[simp] theorem holds_ne_flag (flag : Bool) :
    Test.ne.holds (if flag then 1 else 0) 0 = flag := by
  cases flag <;> rfl

theorem exec_sltiu {rt rs : Reg} {word limit : Word} {immediate : BitVec 16}
    (isWord : data.low rs = sext word) (isLimit : immediate.signExtend 64 = sext limit) :
    Op.exec data (.sltiu rt rs immediate) =
      some (data.setLow rt (if decide (word.toNat < limit.toNat) then 1 else 0)) := by
  rw [Op.exec, isWord, isLimit, ult_sext]

/-- A branch on the flag that a comparison has set. -/
theorem holds_ne_set {reg : Reg} (data : Data) (flag : Bool) (isReg : reg ≠ 0) :
    Test.ne.holds ((data.setLow reg (if flag then 1 else 0)).low reg)
      ((data.setLow reg (if flag then 1 else 0)).low 0) = flag := by
  rw [low_setLow, if_neg isReg, if_pos rfl, low_zero, holds_ne_flag]

/-! ### Aligned addresses -/

theorem quadAddress_of_aligned {address : Word} (isAligned : address.toNat % 16 = 0) :
    quadAddress address = address := by
  have mask : (15 : Word) = Rounding.lowBits 32 4 := by decide
  apply BitVec.eq_of_toNat_eq
  rw [quadAddress, mask, Rounding.toNat_and_not_lowBits]
  omega

theorem toNat_sext_mod (word : Word) {bits : Nat} (small : bits ≤ 32) :
    (sext word).toNat % 2 ^ bits = word.toNat % 2 ^ bits := by
  have whole := congrArg BitVec.toNat (setWidth_sext word)
  rw [BitVec.toNat_setWidth] at whole
  rw [← whole, Nat.mod_mod_of_dvd _ (Nat.pow_dvd_pow 2 small)]

/-- Two addresses are tested at once. -/
theorem mod_of_or_and_lowBits {left right : Word} {bits : Nat} (small : bits ≤ 32)
    (clear : (sext left ||| sext right) &&& Rounding.lowBits 64 bits = 0#64) :
    left.toNat % 2 ^ bits = 0 ∧ right.toNat % 2 ^ bits = 0 := by
  rw [BitVec.and_or_distrib_right, BitVec.or_eq_zero_iff] at clear
  constructor
  · rw [← toNat_sext_mod left small, ← Rounding.toNat_and_lowBits _ (by omega), clear.1]
    rfl
  · rw [← toNat_sext_mod right small, ← Rounding.toNat_and_lowBits _ (by omega), clear.2]
    rfl

theorem aligned_eight {address : Word} (isAligned : address.toNat % 8 = 0) :
    aligned 8 address = true := by
  rw [aligned, beq_iff_eq]
  exact isAligned

end KernelReloaded.R5900

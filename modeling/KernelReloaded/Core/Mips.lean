/-
Code of a MIPS with branch delay slots.

A delay slot may itself be the first instruction of a loop.  Registers are 32 bits
wide, and of the caches it is only known which operations they were given.
-/

import KernelReloaded.Core.DelaySlots

namespace KernelReloaded.Mips

abbrev Word := BitVec 32

inductive Op (Reg : Type) where
  | lui (rt : Reg) (immediate : BitVec 16)
  | ori (rt rs : Reg) (immediate : BitVec 16)
  | andi (rt rs : Reg) (immediate : BitVec 16)
  | addiu (rt rs : Reg) (immediate : BitVec 16)
  | addu (rd rs rt : Reg)
  | subu (rd rs rt : Reg)
  | and (rd rs rt : Reg)
  | srl (rd rt : Reg) (shift : Nat)
  | cache (operation : Nat) (offset : BitVec 16) (base : Reg)
  | sync
  | nop

inductive Test where
  | eqz
  | lez
  | gtz

/-- A branch looks at one register. -/
abbrev Instr (Reg : Type) := DelaySlots.Instr (Op Reg) (Test × Reg)

/-- What operations work on. -/
structure Data (Reg : Type) where
  regs : Reg → Word
  /-- The cache operations with their addresses. -/
  cached : List (Nat × Word)

abbrev State (Reg : Type) := DelaySlots.State (Data Reg)

def Test.holds (word : Word) : Test → Bool
  | .eqz => word == 0
  | .lez => word.sle 0
  | .gtz => (0 : Word).slt word

variable {Reg : Type} [DecidableEq Reg]

def Data.set (data : Data Reg) (reg : Reg) (word : Word) : Data Reg :=
  { data with regs := Function.update data.regs reg word }

def Op.exec (data : Data Reg) : Op Reg → Data Reg
  | .lui rt immediate => data.set rt (immediate.zeroExtend 32 <<< 16)
  | .ori rt rs immediate =>
      data.set rt (data.regs rs ||| immediate.zeroExtend 32)
  | .andi rt rs immediate =>
      data.set rt (data.regs rs &&& immediate.zeroExtend 32)
  | .addiu rt rs immediate =>
      data.set rt (data.regs rs + immediate.signExtend 32)
  | .addu rd rs rt => data.set rd (data.regs rs + data.regs rt)
  | .subu rd rs rt => data.set rd (data.regs rs - data.regs rt)
  | .and rd rs rt => data.set rd (data.regs rs &&& data.regs rt)
  | .srl rd rt shift => data.set rd (data.regs rt >>> shift)
  | .cache operation offset base =>
      { data with
        cached := data.cached ++
          [(operation, data.regs base + offset.signExtend 32)] }
  | .sync => data
  | .nop => data

def cpu : DelaySlots.Processor (Op Reg) (Test × Reg) (Data Reg) where
  exec data op := some (op.exec data)
  taken data := fun (test, rs) => test.holds (data.regs rs)

abbrev Reaches (code : List (Instr Reg)) : State Reg → State Reg → Prop :=
  DelaySlots.Reaches cpu code

def execAll (ops : List (Op Reg)) (data : Data Reg) : Data Reg :=
  ops.foldl Op.exec data

/-! ### Runs -/

variable {code : List (Instr Reg)} {place target : Nat}

@[simp] theorem Data.set_cached (data : Data Reg) (reg : Reg) (word : Word) :
    (data.set reg word).cached = data.cached := rfl

@[simp] theorem Data.set_self (data : Data Reg) (reg : Reg) (word : Word) :
    (data.set reg word).regs reg = word := Function.update_self ..

theorem Data.set_of_ne {reg other : Reg} (isOther : other ≠ reg)
    (data : Data Reg) (word : Word) :
    (data.set reg word).regs other = data.regs other :=
  Function.update_of_ne isOther ..

theorem cpu_execAll (ops : List (Op Reg)) (data : Data Reg) :
    DelaySlots.execAll cpu ops data = some (execAll ops data) := by
  induction ops generalizing data with
  | nil => rfl
  | cons op ops ih => exact ih (op.exec data)

theorem reaches_ops {ops : List (Op Reg)} {rest : List (Instr Reg)}
    (found : code.drop place = ops.map .op ++ rest) (data : Data Reg) :
    Reaches code (.at data place) (.at (execAll ops data) (place + ops.length)) :=
  DelaySlots.reaches_ops found (cpu_execAll ops data)

theorem reaches_branch {test : Test} {rs : Reg} (slot : Op Reg)
    (fetched : code[place]? = some (.branch (test, rs) target))
    (delayed : code[place + 1]? = some (.op slot)) (data : Data Reg) :
    Reaches code (.at data place)
      (.at (slot.exec data)
        (if test.holds (data.regs rs) then target else place + 2)) :=
  DelaySlots.reaches_branch fetched delayed rfl

/-! ### Counters -/

theorem countDown (left : Nat) :
    BitVec.ofNat 32 (left + 1) + (-1 : BitVec 16).signExtend 32 =
      BitVec.ofNat 32 left := by
  have minusOne : (-1 : BitVec 16).signExtend 32 = BitVec.ofNat 32 4294967295 := by
    decide
  rw [minusOne]
  apply BitVec.eq_of_toNat_eq
  rw [BitVec.toNat_add, BitVec.toNat_ofNat, BitVec.toNat_ofNat,
    BitVec.toNat_ofNat]
  omega

theorem gtz_ofNat {count : Nat} (small : count < 2147483648) :
    Test.gtz.holds (BitVec.ofNat 32 count) = decide (0 < count) := by
  have word : (BitVec.ofNat 32 count).toNat = count := by
    rw [BitVec.toNat_ofNat, Nat.mod_eq_of_lt (by omega)]
  have value : (BitVec.ofNat 32 count).toInt = count := by
    rw [BitVec.toInt_eq_toNat_of_lt (by rw [word]; omega), word]
  have zero : (0 : Word).toInt = 0 := rfl
  rw [Test.holds, BitVec.slt, value, zero]
  exact decide_eq_decide.mpr Int.natCast_pos

theorem eqz_ofNat {count : Nat} (small : count < 4294967296) :
    Test.eqz.holds (BitVec.ofNat 32 count) = decide (count = 0) := by
  have word : (BitVec.ofNat 32 count).toNat = count := by
    rw [BitVec.toNat_ofNat, Nat.mod_eq_of_lt small]
  rw [Test.holds, Bool.eq_iff_iff, beq_iff_eq, decide_eq_true_iff,
    ← BitVec.toNat_inj, word]
  rfl

end KernelReloaded.Mips

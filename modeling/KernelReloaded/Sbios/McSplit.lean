/-
How `sbcall_mcwrite` splits a block.

The start of a long block up to a multiple of 16 is passed inside of `mcFileCmd`,
as a short block is as a whole.  Here addresses and sizes are the words of the
machine, and `mcFileCmd` is apart from the memory.
-/

import KernelReloaded.Core.Rounding
import KernelReloaded.Sbios.McCalls

namespace KernelReloaded.McSplit

open Memory Rounding

abbrev Word := BitVec 32

/-! ### The code -/

/-- The fields that are stored for a write. -/
@[ext] structure WriteCmd where
  size : Word
  origin : Word
  buffer : Word
  data : Nat → Byte

/-- The difference that is written three times. -/
def unalignedWord (buf : Word) : Word :=
  ((buf - 1) &&& 0xFFFFFFF0) - (buf - 16)

def splitWords (buf size : Word) (cmd : WriteCmd) : WriteCmd :=
  if size.ult 17 then { cmd with size := 0, origin := size, buffer := 0 }
  else
    { cmd with
      size := size - unalignedWord buf, origin := unalignedWord buf
      buffer := buf + unalignedWord buf }

def copyByte (memory : Word → Byte) (buf : Word) (data : Nat → Byte) (i : Nat) :
    Nat → Byte :=
  Function.update data i (memory (buf + BitVec.ofNat 32 i))

/-- The loop counts with a signed number. -/
def writeWords (memory : Word → Byte) (buf size : Word) (cmd : WriteCmd) :
    WriteCmd :=
  let split := splitWords buf size cmd
  { split with
    data := (List.range split.origin.toInt.toNat).foldl (copyByte memory buf)
      split.data }

/-! ### What is wanted -/

def blockAt (memory : Word → Byte) (address : Word) (count : Nat) : List Byte :=
  (List.range count).map fun index => memory (address + BitVec.ofNat 32 index)

/-- What the IOP writes: the bytes in the command and the ones at the buffer. -/
def WriteCmd.written (cmd : WriteCmd) (memory : Word → Byte) : List Byte :=
  (List.range cmd.origin.toNat).map cmd.data ++
    blockAt memory cmd.buffer cmd.size.toNat

structure Splits (memory : Word → Byte) (buf size : Word) (cmd : WriteCmd) :
    Prop where
  lower : 0 ≤ cmd.origin.toInt
  upper : cmd.origin.toInt ≤ 16
  bytes : cmd.written memory = blockAt memory buf size.toNat
  aligned : cmd.size ≠ 0 → cmd.buffer.toNat % 16 = 0

/-! ### The words -/

theorem toNat_unalignedWord (buf : Word) :
    (unalignedWord buf).toNat = 15 - (buf - 1).toNat % 16 := by
  have isMask : (0xFFFFFFF0 : Word) = ~~~lowBits 32 4 := by decide
  have below : buf - 16 = buf - 1 - 15 := by
    rw [BitVec.sub_sub]
    rfl
  have bound := (buf - 1).isLt
  rw [unalignedWord, isMask, below, BitVec.toNat_sub, toNat_and_not_lowBits,
    BitVec.toNat_sub (buf - 1)]
  have fifteen : (15 : Word).toNat = 15 := rfl
  rw [fifteen]
  omega

theorem blockAt_add (memory : Word → Byte) (address : Word) (first count : Nat) :
    blockAt memory address (first + count) =
      blockAt memory address first ++
        blockAt memory (address + BitVec.ofNat 32 first) count := by
  rw [blockAt, List.range_add, List.map_append, List.map_map]
  congr 1
  apply List.map_congr_left
  intro index _inside
  rw [Function.comp_apply, BitVec.ofNat_add, BitVec.add_assoc]

theorem splitWords_origin (buf size : Word) (cmd : WriteCmd) :
    (splitWords buf size cmd).origin.toNat ≤ 16 := by
  rw [splitWords]
  split
  case isTrue short =>
    have seventeen : (17 : Word).toNat = 17 := rfl
    have below := of_decide_eq_true short
    rw [seventeen] at below
    exact Nat.le_of_lt_succ below
  case isFalse long =>
    have residue := toNat_unalignedWord buf
    dsimp only
    omega

theorem foldl_copyByte (memory : Word → Byte) (buf : Word) (data : Nat → Byte)
    (count : Nat) :
    (List.range count).foldl (copyByte memory buf) data =
      fun index =>
        if index < count then memory (buf + BitVec.ofNat 32 index)
        else data index := by
  induction count with
  | zero => rfl
  | succ count ih =>
      rw [List.range_succ, List.foldl_append, ih]
      funext index
      rw [List.foldl_cons, List.foldl_nil, copyByte, Function.update_apply]
      by_cases last : index = count
      · rw [if_pos last, if_pos (by omega), last]
      · rw [if_neg last]
        by_cases inside : index < count
        · rw [if_pos inside, if_pos (by omega)]
        · rw [if_neg inside, if_neg (by omega)]

/-! ### The split -/

theorem splitWords_bytes (memory : Word → Byte) (buf size : Word)
    (cmd : WriteCmd) :
    blockAt memory buf (splitWords buf size cmd).origin.toNat ++
        blockAt memory (splitWords buf size cmd).buffer
          (splitWords buf size cmd).size.toNat =
      blockAt memory buf size.toNat := by
  rw [splitWords]
  split
  case isTrue short => exact List.append_nil _
  case isFalse long =>
    have residue := toNat_unalignedWord buf
    have seventeen : (17 : Word).toNat = 17 := rfl
    have enough : 17 ≤ size.toNat := by
      rw [BitVec.ult, seventeen] at long
      simpa using long
    have sum : (unalignedWord buf).toNat + (size - unalignedWord buf).toNat =
        size.toNat := by
      rw [BitVec.toNat_sub]
      have bound := size.isLt
      omega
    dsimp only
    rw [← sum, blockAt_add, BitVec.ofNat_toNat, BitVec.setWidth_eq]

theorem splitWords_aligned (buf size : Word) (cmd : WriteCmd)
    (some : (splitWords buf size cmd).size ≠ 0) :
    (splitWords buf size cmd).buffer.toNat % 16 = 0 := by
  rw [splitWords] at some ⊢
  split at some
  case isTrue short => exact absurd rfl some
  case isFalse long =>
    have residue := toNat_unalignedWord buf
    rw [if_neg long]
    dsimp only
    have one : (1 : Word).toNat = 1 := rfl
    rw [BitVec.toNat_sub, one] at residue
    have bound := buf.isLt
    rw [BitVec.toNat_add, residue]
    omega

theorem splitWords_data (buf size : Word) (cmd : WriteCmd) :
    (splitWords buf size cmd).data = cmd.data := by
  rw [splitWords]
  split <;> rfl

theorem splitWords_toInt (buf size : Word) (cmd : WriteCmd) :
    (splitWords buf size cmd).origin.toInt =
      (splitWords buf size cmd).origin.toNat := by
  have small := splitWords_origin buf size cmd
  exact BitVec.toInt_eq_toNat_of_lt (by omega)

theorem writeWords_eq (memory : Word → Byte) (buf size : Word) (cmd : WriteCmd) :
    writeWords memory buf size cmd =
      { splitWords buf size cmd with
        data := fun index =>
          if index < (splitWords buf size cmd).origin.toNat then
            memory (buf + BitVec.ofNat 32 index)
          else cmd.data index } := by
  rw [writeWords, splitWords_toInt, Int.toNat_natCast, foldl_copyByte,
    splitWords_data]

theorem writeWords_splits (memory : Word → Byte) (buf size : Word)
    (cmd : WriteCmd) : Splits memory buf size (writeWords memory buf size cmd) := by
  have small := splitWords_origin buf size cmd
  have value := splitWords_toInt buf size cmd
  rw [writeWords_eq]
  constructor
  · dsimp only
    omega
  · dsimp only
    omega
  · rw [← splitWords_bytes memory buf size cmd, WriteCmd.written]
    congr 1
    rw [blockAt]
    apply List.map_congr_left
    intro index inside
    exact if_pos (List.mem_range.mp inside)
  · exact splitWords_aligned buf size cmd

/-! ### The calls -/

/-- The fields as words. -/
def toWords (fileCmd : Mc.McFileCmd) : WriteCmd where
  size := BitVec.ofInt 32 fileCmd.size
  origin := BitVec.ofInt 32 fileCmd.origin
  buffer := BitVec.ofInt 32 fileCmd.buffer
  data := fileCmd.data

theorem unaligned_toNat (buf : Word) :
    Mc.unaligned buf.toNat = (unalignedWord buf).toNat := by
  have one : (1 : Word).toNat = 1 := rfl
  have bound := buf.isLt
  rw [toNat_unalignedWord, BitVec.toNat_sub, one, Mc.unaligned]
  omega

theorem ofInt_toNat (word : Word) : BitVec.ofInt 32 word.toNat = word := by
  rw [BitVec.ofInt_natCast, BitVec.ofNat_toNat, BitVec.setWidth_eq]

theorem storeBytes_natCast (count : Nat) (bytes data : Nat → Byte) :
    Mc.storeBytes count bytes data =
      fun index => if index < count then bytes index else data index := by
  funext index
  rw [Mc.storeBytes]
  simp only [Int.ofNat_lt]

/-- The calls with numbers that are not bounded make the same split. -/
theorem toWords_storeWrite (memory : Word → Byte) (fd : Int) (buf size : Word)
    (fileCmd : Mc.McFileCmd) :
    toWords (Mc.storeWrite fd buf.toNat size.toNat
        (fun index => memory (buf + BitVec.ofNat 32 index)) fileCmd) =
      writeWords memory buf size (toWords fileCmd) := by
  rw [writeWords_eq, splitWords, Mc.storeWrite]
  by_cases short : size.toNat < 17
  · have isShort : size.ult 17 := decide_eq_true short
    rw [if_pos short, if_pos isShort, toWords, storeBytes_natCast, ofInt_toNat]
    rfl
  · have isLong : ¬size.ult 17 := fun isShort => short (of_decide_eq_true isShort)
    have residue := toNat_unalignedWord buf
    have bound := size.isLt
    rw [if_neg short, if_neg isLong, toWords, unaligned_toNat, storeBytes_natCast,
      ofInt_toNat]
    ext1
    · rw [← Int.ofNat_sub (by omega), BitVec.ofInt_natCast]
      apply BitVec.eq_of_toNat_eq
      rw [BitVec.toNat_ofNat, BitVec.toNat_sub]
      omega
    · rfl
    · rw [BitVec.ofInt_add, ofInt_toNat, ofInt_toNat]
    · rfl

end KernelReloaded.McSplit

/-
Words rounded to a multiple of a power of two by a mask.

The low bits are the remainder, and without them the word is shifted down and up
again.  Rounding up adds one less than the divisor first, which may wrap.
-/

import Mathlib.Data.Nat.Bitwise

namespace KernelReloaded.Rounding

variable {width bits : Nat}

def lowBits (width bits : Nat) : BitVec width :=
  BitVec.ofNat width (2 ^ bits - 1)

theorem toNat_lowBits (small : bits ≤ width) :
    (lowBits width bits).toNat = 2 ^ bits - 1 := by
  rw [lowBits, BitVec.toNat_ofNat]
  apply Nat.mod_eq_of_lt
  have bound : 2 ^ bits ≤ 2 ^ width := Nat.pow_le_pow_right Nat.two_pos small
  have positive : 0 < 2 ^ bits := Nat.two_pow_pos bits
  omega

theorem toNat_and_lowBits (word : BitVec width) (small : bits ≤ width) :
    (word &&& lowBits width bits).toNat = word.toNat % 2 ^ bits := by
  rw [BitVec.toNat_and, toNat_lowBits small, Nat.and_two_pow_sub_one_eq_mod]

theorem and_not_lowBits (word : BitVec width) :
    word &&& ~~~lowBits width bits = (word >>> bits) <<< bits := by
  ext index inside
  have low : (lowBits width bits)[index] = decide (index < bits) := by
    rw [← BitVec.getLsbD_eq_getElem inside, lowBits, BitVec.getLsbD_ofNat,
      Nat.testBit_two_pow_sub_one, decide_eq_true inside, Bool.true_and]
  rw [BitVec.getElem_and, BitVec.getElem_not, low, BitVec.getElem_shiftLeft,
    Bool.and_comm]
  by_cases below : index < bits
  · rw [decide_eq_true below]
    rfl
  · have place : bits + (index - bits) = index :=
      Nat.add_sub_of_le (Nat.not_lt.mp below)
    simp only [BitVec.getElem_ushiftRight, place,
      BitVec.getLsbD_eq_getElem inside, decide_eq_false below]

theorem toNat_and_not_lowBits (word : BitVec width) :
    (word &&& ~~~lowBits width bits).toNat =
      word.toNat / 2 ^ bits * 2 ^ bits := by
  rw [and_not_lowBits, BitVec.toNat_shiftLeft, BitVec.toNat_ushiftRight,
    Nat.shiftRight_eq_div_pow, Nat.shiftLeft_eq]
  exact Nat.mod_eq_of_lt (Nat.lt_of_le_of_lt (Nat.div_mul_le_self _ _) word.isLt)

theorem toNat_add_lowBits_and_not (word : BitVec width) (small : bits ≤ width) :
    (word + lowBits width bits &&& ~~~lowBits width bits).toNat =
      (word.toNat + (2 ^ bits - 1)) % 2 ^ width / 2 ^ bits * 2 ^ bits := by
  rw [toNat_and_not_lowBits, BitVec.toNat_add, toNat_lowBits small]

theorem toNat_roundUp {size : BitVec width} (isMask : size - 1 = lowBits width bits)
    (small : bits ≤ width) (word : BitVec width) :
    (word + size - 1 &&& ~~~(size - 1)).toNat =
      (word.toNat + (2 ^ bits - 1)) % 2 ^ width / 2 ^ bits * 2 ^ bits := by
  have isSum : word + size - 1 = word + lowBits width bits := by
    rw [← isMask, BitVec.sub_eq_add_neg, BitVec.add_assoc, ← BitVec.sub_eq_add_neg]
  rw [isSum, isMask, toNat_add_lowBits_and_not word small]

end KernelReloaded.Rounding

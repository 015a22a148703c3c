/-
Left-shifting linear feedback registers of any width.

The register leaves its top bit, and a set top bit adds the feedback mask.
Data may be fed one bit at a time or collected into one word first; both give
the same register, because a shift is linear and a cleared top is a plain
shift.  With an odd mask nothing is lost, so two streams that differ only in a
window of the register's width leave different registers.  Nothing here fixes a
width, a mask or a number of steps.
-/

import Mathlib.Data.BitVec
import Mathlib.Logic.Function.Iterate

namespace KernelReloaded.ShiftRegister

variable {width : Nat}

/-- One step of the register: shift left, and add the mask when the bit that
left the register was set. -/
def shift (mask register : BitVec width) : BitVec width :=
  if register.msb then (register <<< 1) ^^^ mask else register <<< 1

theorem shift_xor (mask left right : BitVec width) :
    shift mask (left ^^^ right) = shift mask left ^^^ shift mask right := by
  unfold shift
  rw [BitVec.msb_xor, BitVec.shiftLeft_xor_distrib]
  cases left.msb <;> cases right.msb
  · rfl
  · simp only [Bool.false_xor, if_true, Bool.false_eq_true, if_false,
      BitVec.xor_assoc]
  · simp only [Bool.true_xor, Bool.not_false, if_true, Bool.false_eq_true,
      if_false]
    rw [BitVec.xor_assoc, BitVec.xor_comm (right <<< 1) mask, BitVec.xor_assoc]
  · simp only [bne_self_eq_false, Bool.false_eq_true, if_false, if_true]
    rw [BitVec.xor_assoc, BitVec.xor_comm (right <<< 1) mask,
      ← BitVec.xor_assoc mask mask, BitVec.xor_self, BitVec.zero_xor]

theorem iterate_shift_xor (mask left right : BitVec width) (steps : Nat) :
    (shift mask)^[steps] (left ^^^ right) =
      (shift mask)^[steps] left ^^^ (shift mask)^[steps] right := by
  induction steps generalizing left right with
  | zero =>
      rfl
  | succ steps ih =>
      simp only [Function.iterate_succ, Function.comp_apply, shift_xor]
      exact ih _ _

/-- Steps that only move zero bits out are one plain shift. -/
theorem iterate_shift_of_clear_top (mask register : BitVec width) (steps : Nat)
    (clear : ∀ index, width - steps ≤ index → register.getLsbD index = false) :
    (shift mask)^[steps] register = register <<< steps := by
  induction steps generalizing register with
  | zero =>
      simp
  | succ steps ih =>
      rcases Nat.eq_zero_or_pos width with empty | positive
      · subst width
        exact Subsingleton.elim _ _
      · have topClear : register.msb = false := by
          rw [BitVec.msb_eq_getLsbD_last]
          exact clear _ (by omega)
        have firstStep : shift mask register = register <<< 1 := by
          simp [shift, topClear]
        rw [Function.iterate_succ, Function.comp_apply, firstStep,
          ih (register <<< 1)]
        · rw [← BitVec.shiftLeft_add, Nat.add_comm 1 steps]
        · intro index bound
          rw [BitVec.getLsbD_shiftLeft]
          by_cases first : index < 1
          · simp [first]
          · rw [clear (index - 1) (by omega), Bool.and_false]

/-- A data bit placed in the position that leaves the register next. -/
def topBit (width : Nat) (bit : Bool) : BitVec width :=
  if bit then BitVec.twoPow width (width - 1) else (0 : BitVec width)

/-- Collect data bits into one word, the first bit uppermost. -/
def gather (width : Nat) : List Bool → BitVec width
  | [] => (0 : BitVec width)
  | bit :: rest => topBit width bit ^^^ (gather width rest >>> 1)

/-- Feed data bits one at a time: each is added to the top bit before the
register shifts. -/
def feed (mask : BitVec width) (register : BitVec width)
    (bits : List Bool) : BitVec width :=
  bits.foldl (fun current bit => shift mask (current ^^^ topBit width bit))
    register

theorem topBit_getLsbD (bit : Bool) (index : Nat) (below : index + 1 < width) :
    (topBit width bit).getLsbD index = false := by
  unfold topBit
  cases bit with
  | false =>
      simp
  | true =>
      simp only [if_true, BitVec.getLsbD_twoPow]
      simp
      omega

theorem gather_getLsbD_of_low (bits : List Bool) (index : Nat)
    (low : index + bits.length < width) :
    (gather width bits).getLsbD index = false := by
  induction bits generalizing index with
  | nil =>
      simp [gather]
  | cons bit rest ih =>
      rw [List.length_cons] at low
      rw [gather, BitVec.getLsbD_xor, topBit_getLsbD bit index (by omega),
        BitVec.getLsbD_ushiftRight, ih (1 + index) (by omega)]
      rfl

theorem shift_ushiftRight_one (mask word : BitVec width)
    (even : word.getLsbD 0 = false) :
    shift mask (word >>> 1) = word := by
  have topClear : (word >>> 1).msb = false := by
    rw [BitVec.msb_eq_getLsbD_last, BitVec.getLsbD_ushiftRight]
    rcases Nat.eq_zero_or_pos width with empty | positive
    · subst width
      exact BitVec.getLsbD_of_ge _ _ (by omega)
    · exact BitVec.getLsbD_of_ge _ _ (by omega)
  unfold shift
  rw [topClear]
  apply BitVec.eq_of_getLsbD_eq
  intro index inside
  rw [if_neg (by decide), BitVec.getLsbD_shiftLeft, BitVec.getLsbD_ushiftRight]
  cases index with
  | zero =>
      simp [even]
  | succ index =>
      simp [inside, Nat.add_comm 1 index]

/-- Feeding at most `width` bits one at a time is adding the gathered word and
stepping once for each bit. -/
theorem feed_eq_iterate_shift (mask register : BitVec width) (bits : List Bool)
    (fits : bits.length ≤ width) :
    feed mask register bits =
      (shift mask)^[bits.length] (register ^^^ gather width bits) := by
  induction bits generalizing register with
  | nil =>
      simp [feed, gather]
  | cons bit rest ih =>
      rw [List.length_cons] at fits
      have restEven : (gather width rest).getLsbD 0 = false :=
        gather_getLsbD_of_low rest 0 (by omega)
      calc
        feed mask register (bit :: rest) =
            feed mask (shift mask (register ^^^ topBit width bit)) rest := rfl
        _ = (shift mask)^[rest.length]
              (shift mask (register ^^^ topBit width bit) ^^^
                gather width rest) := ih _ (by omega)
        _ = (shift mask)^[rest.length]
              (shift mask (register ^^^ topBit width bit ^^^
                (gather width rest >>> 1))) := by
              rw [shift_xor mask (register ^^^ topBit width bit),
                shift_ushiftRight_one mask _ restEven]
        _ = (shift mask)^[(bit :: rest).length]
              (register ^^^ gather width (bit :: rest)) := by
              rw [List.length_cons, Function.iterate_succ,
                Function.comp_apply, gather, BitVec.xor_assoc]

/-! ### Odd masks lose nothing -/

theorem shift_eq_zero {mask : BitVec width} (odd : mask.getLsbD 0 = true)
    {register : BitVec width} (zero : shift mask register = 0) :
    register = 0 := by
  have lowest : (register <<< 1).getLsbD 0 = false := by
    simp
  have topClear : register.msb = false := by
    by_contra set
    have same : (register <<< 1) ^^^ mask = 0 := by
      rwa [shift, if_pos (Bool.eq_true_of_not_eq_false set)] at zero
    have bit := congrArg (fun word => word.getLsbD 0) same
    simp [lowest, odd] at bit
  have moved : register <<< 1 = 0 := by
    rwa [shift, topClear, if_neg (by decide)] at zero
  apply BitVec.eq_of_getLsbD_eq
  intro index inside
  rw [BitVec.msb_eq_getLsbD_last] at topClear
  by_cases last : index = width - 1
  · rw [last, topClear]
    simp
  · have bit := congrArg (fun word => word.getLsbD (index + 1)) moved
    have next : index + 1 < width := by omega
    rw [BitVec.getLsbD_eq_getElem inside]
    simpa [next] using bit

theorem shift_injective {mask : BitVec width} (odd : mask.getLsbD 0 = true) :
    Function.Injective (shift mask) := by
  intro left right same
  have zero : shift mask (left ^^^ right) = 0 := by
    rw [shift_xor, same, BitVec.xor_self]
    rfl
  exact BitVec.xor_eq_zero_iff.mp (shift_eq_zero odd zero)

theorem feed_append (mask register : BitVec width) (first second : List Bool) :
    feed mask register (first ++ second) =
      feed mask (feed mask register first) second :=
  List.foldl_append

/-- From different registers the same data leads to different registers. -/
theorem feed_injective {mask : BitVec width} (odd : mask.getLsbD 0 = true)
    (bits : List Bool) : Function.Injective (feed mask · bits) := by
  induction bits with
  | nil =>
      exact fun _left _right same => same
  | cons bit rest ih =>
      intro left right same
      have added := shift_injective odd (ih same)
      exact (BitVec.xor_left_inj _).mp added

theorem topBit_getLsbD_last (bit : Bool) (positive : 0 < width) :
    (topBit width bit).getLsbD (width - 1) = bit := by
  unfold topBit
  cases bit with
  | false =>
      simp
  | true =>
      simp [BitVec.getLsbD_twoPow]
      omega

theorem gather_cons_getLsbD_last (bit : Bool) (rest : List Bool)
    (positive : 0 < width) :
    (gather width (bit :: rest)).getLsbD (width - 1) = bit := by
  have outside : (gather width rest).getLsbD (1 + (width - 1)) = false :=
    BitVec.getLsbD_of_ge _ _ (by omega)
  rw [gather, BitVec.getLsbD_xor, topBit_getLsbD_last bit positive,
    BitVec.getLsbD_ushiftRight, outside, Bool.xor_false]

theorem gather_injective {left right : List Bool}
    (sameLength : left.length = right.length) (fits : left.length ≤ width)
    (same : gather width left = gather width right) : left = right := by
  induction left generalizing right with
  | nil =>
      exact (List.length_eq_zero_iff.mp sameLength.symm).symm
  | cons bit rest ih =>
      cases right with
      | nil => cases sameLength
      | cons bit' rest' =>
          rw [List.length_cons] at fits
          have restLength : rest.length = rest'.length := Nat.succ.inj sameLength
          have positive : 0 < width := by omega
          have sameBit : bit = bit' := by
            rw [← gather_cons_getLsbD_last bit rest positive, same,
              gather_cons_getLsbD_last bit' rest' positive]
          rw [gather, gather, sameBit] at same
          have lower : gather width rest >>> 1 = gather width rest' >>> 1 :=
            (BitVec.xor_right_inj _).mp same
          have restSame : gather width rest = gather width rest' := by
            rw [← shift_ushiftRight_one 0 (gather width rest)
                (gather_getLsbD_of_low rest 0 (by omega)), lower,
              shift_ushiftRight_one 0 (gather width rest')
                (gather_getLsbD_of_low rest' 0 (by omega))]
          rw [sameBit, ih restLength (by omega) restSame]

/-- Two streams that differ in a window only, not wider than the register, leave
different registers. -/
theorem feed_window {mask : BitVec width} (odd : mask.getLsbD 0 = true)
    (register : BitVec width) {before left right after : List Bool}
    (sameLength : left.length = right.length) (fits : left.length ≤ width)
    (same : feed mask register (before ++ left ++ after) =
      feed mask register (before ++ right ++ after)) : left = right := by
  simp only [feed_append] at same
  have behind := feed_injective odd after same
  rw [feed_eq_iterate_shift mask _ left fits,
    feed_eq_iterate_shift mask _ right (sameLength ▸ fits), ← sameLength]
    at behind
  have gathered := ((shift_injective odd).iterate _) behind
  exact gather_injective sameLength fits ((BitVec.xor_right_inj _).mp gathered)

end KernelReloaded.ShiftRegister

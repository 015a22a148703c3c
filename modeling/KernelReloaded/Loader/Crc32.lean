/-
The two CRC implementations that guard the loader's own image.

`tools/crc32gen/crc32gen.c` writes a reference value into the `.crc32` section
one data bit at a time.  `loader/crc32check.c` recomputes it at run time with a
byte table and a bit-reversal table built on first use.  The register shifts
left while data bits enter from the least significant end, so the byte table
only works over reversed bytes.

Sizes are list lengths; both loop counters are exact below `2 ^ 31` bytes.
-/

import KernelReloaded.Core.ShiftRegister

namespace KernelReloaded

def crc32Mask : BitVec 32 := 0x04C11DB7#32

namespace Crc32Gen

/-- One pass of the inner loop of `calc_crc` in `crc32gen.c`. -/
def calcCrcBit (byte : BitVec 8) (crc32 : BitVec 32) (n : Nat) : BitVec 32 :=
  let bit : BitVec 8 := (crc32 >>> 31).setWidth 8
  let databit : BitVec 8 := (byte >>> n) &&& 1#8
  if bit ≠ databit then (crc32 <<< 1) ^^^ crc32Mask else crc32 <<< 1

def calcCrcByte (crc32 : BitVec 32) (byte : BitVec 8) : BitVec 32 :=
  (List.range 8).foldl (calcCrcBit byte) crc32

def calcCrc (data : List (BitVec 8)) : BitVec 32 :=
  data.foldl calcCrcByte 0#32

end Crc32Gen

namespace Crc32Check

/-- One pass of the inner loop of `build_crc_table`: the register and the
reversed byte advance together. -/
def buildCrcBit (i : BitVec 8) (entry : BitVec 32 × BitVec 8) (n : Nat) :
    BitVec 32 × BitVec 8 :=
  (if entry.1 &&& 0x80000000#32 ≠ 0#32 then
      (entry.1 <<< 1) ^^^ crc32Mask
    else entry.1 <<< 1,
   if i &&& (1#8 <<< n) ≠ 0#8 then
      entry.2 ||| (1#8 <<< (7 - n))
    else entry.2)

def buildCrcEntry (i : BitVec 8) : BitVec 32 × BitVec 8 :=
  (List.range 8).foldl (buildCrcBit i) (i.setWidth 32 <<< 24, 0#8)

structure CrcTables where
  crcTable : BitVec 8 → BitVec 32
  crcReverse : BitVec 8 → BitVec 8

def buildCrcTable : CrcTables :=
  { crcTable := fun i => (buildCrcEntry i).1
    crcReverse := fun i => (buildCrcEntry i).2 }

/-- The file's statics.  `crc_table_ready` is only ever set by
`build_crc_table`, so a ready flag comes with the built tables. -/
structure CrcStatics where
  tables : CrcTables
  crcTableReady : Bool
  built : crcTableReady = true → tables = buildCrcTable

def CrcStatics.zero : CrcStatics :=
  { tables := { crcTable := fun _ => 0#32, crcReverse := fun _ => 0#8 }
    crcTableReady := false
    built := by intro impossible; cases impossible }

def CrcStatics.ensure (statics : CrcStatics) : CrcStatics :=
  if statics.crcTableReady then statics
  else { tables := buildCrcTable, crcTableReady := true, built := fun _ => rfl }

def calcCrcByte (tables : CrcTables) (crc32 : BitVec 32) (byte : BitVec 8) :
    BitVec 32 :=
  let idx : BitVec 8 := (crc32 >>> 24).setWidth 8 ^^^ tables.crcReverse byte
  (crc32 <<< 8) ^^^ tables.crcTable idx

/-- `calc_crc` of `crc32check.c`, with the statics it leaves behind. -/
def calcCrc (statics : CrcStatics) (data : List (BitVec 8)) :
    BitVec 32 × CrcStatics :=
  let statics := statics.ensure
  (data.foldl (calcCrcByte statics.tables) 0#32, statics)

theorem CrcStatics.ensure_tables (statics : CrcStatics) :
    statics.ensure.tables = buildCrcTable := by
  unfold CrcStatics.ensure
  by_cases ready : statics.crcTableReady = true
  · rw [if_pos ready]
    exact statics.built ready
  · rw [if_neg ready]

end Crc32Check

/-! ### Both files drive the same shift register -/

open ShiftRegister

/-- The data bits of one byte in the order the bit loop reads them. -/
def dataBits (byte : BitVec 8) : List Bool :=
  (List.range 8).map byte.getLsbD

private theorem databit_eq (byte : BitVec 8) (n : Nat) :
    (byte >>> n) &&& 1#8 = if byte.getLsbD n then 1#8 else 0#8 := by
  apply BitVec.eq_of_getLsbD_eq
  intro index inside
  rw [BitVec.getLsbD_and, BitVec.getLsbD_ushiftRight]
  cases index with
  | zero =>
      cases byte.getLsbD n <;> simp
  | succ index =>
      cases byte.getLsbD n <;> simp

private theorem outgoingBit_eq (crc32 : BitVec 32) :
    (crc32 >>> 31).setWidth 8 = if crc32.msb then 1#8 else 0#8 := by
  apply BitVec.eq_of_getLsbD_eq
  intro index inside
  rw [BitVec.getLsbD_setWidth, BitVec.getLsbD_ushiftRight,
    BitVec.msb_eq_getLsbD_last]
  cases index with
  | zero =>
      cases crc32.getLsbD 31 <;> simp
  | succ index =>
      have outside : crc32.getLsbD (31 + (index + 1)) = false :=
        BitVec.getLsbD_of_ge _ _ (by omega)
      rw [outside]
      cases crc32.getLsbD (32 - 1) <;> simp

theorem Crc32Gen.calcCrcBit_eq_shift (byte : BitVec 8) (crc32 : BitVec 32)
    (n : Nat) :
    Crc32Gen.calcCrcBit byte crc32 n =
      shift crc32Mask (crc32 ^^^ topBit 32 (byte.getLsbD n)) := by
  have topShifted : BitVec.twoPow 32 (32 - 1) <<< 1 = 0#32 := by decide
  have topSet : (BitVec.twoPow 32 (32 - 1)).msb = true := by decide
  unfold Crc32Gen.calcCrcBit shift
  simp only [databit_eq, outgoingBit_eq, topBit]
  cases outgoing : crc32.msb <;> cases byte.getLsbD n <;>
    simp [BitVec.msb_xor, BitVec.shiftLeft_xor_distrib, outgoing]
  all_goals simp_all

theorem Crc32Gen.calcCrcByte_eq_feed (crc32 : BitVec 32) (byte : BitVec 8) :
    Crc32Gen.calcCrcByte crc32 byte =
      feed crc32Mask crc32 (dataBits byte) := by
  unfold Crc32Gen.calcCrcByte feed dataBits
  rw [List.foldl_map]
  congr 1
  funext current n
  exact Crc32Gen.calcCrcBit_eq_shift byte current n

private theorem buildCrcBit_fst (i : BitVec 8) (entry : BitVec 32 × BitVec 8)
    (n : Nat) :
    (Crc32Check.buildCrcBit i entry n).1 = shift crc32Mask entry.1 := by
  have topMask : (entry.1 &&& 0x80000000#32 ≠ 0#32) ↔ entry.1.msb = true := by
    rw [show (0x80000000#32) = BitVec.twoPow 32 31 by decide,
      BitVec.and_twoPow, BitVec.msb_eq_getLsbD_last]
    cases entry.1.getLsbD 31 <;> decide
  unfold Crc32Check.buildCrcBit shift
  simp only [topMask]

private theorem foldl_buildCrcBit_fst (i : BitVec 8) (steps : List Nat)
    (entry : BitVec 32 × BitVec 8) :
    (steps.foldl (Crc32Check.buildCrcBit i) entry).1 =
      (shift crc32Mask)^[steps.length] entry.1 := by
  induction steps generalizing entry with
  | nil =>
      rfl
  | cons n rest ih =>
      rw [List.foldl_cons, ih, buildCrcBit_fst, List.length_cons,
        Function.iterate_succ, Function.comp_apply]

theorem Crc32Check.buildCrcTable_crcTable (i : BitVec 8) :
    Crc32Check.buildCrcTable.crcTable i =
      (shift crc32Mask)^[8] (i.setWidth 32 <<< 24) := by
  exact foldl_buildCrcBit_fst i (List.range 8) _

theorem Crc32Check.buildCrcTable_crcReverse (byte : BitVec 8) :
    (Crc32Check.buildCrcTable.crcReverse byte).setWidth 32 <<< 24 =
      gather 32 (dataBits byte) := by
  revert byte
  decide

theorem iterate_shift_eight (register : BitVec 32) :
    (shift crc32Mask)^[8] register =
      (register <<< 8) ^^^
        Crc32Check.buildCrcTable.crcTable ((register >>> 24).setWidth 8) := by
  have split : register =
      ((register <<< 8) >>> 8) ^^^
        (((register >>> 24).setWidth 8).setWidth 32 <<< 24) := by
    apply BitVec.eq_of_getLsbD_eq
    intro index inside
    rw [BitVec.getLsbD_xor, BitVec.getLsbD_ushiftRight,
      BitVec.getLsbD_shiftLeft, BitVec.getLsbD_shiftLeft,
      BitVec.getLsbD_setWidth, BitVec.getLsbD_setWidth,
      BitVec.getLsbD_ushiftRight]
    by_cases high : index < 24
    · have low : 8 + index < 32 := by omega
      simp [high, low]
    · have atTop : 24 + (index - 24) = index := by omega
      have width : index - 24 < 8 := by omega
      have wide : index - 24 < 32 := by omega
      have outside : ¬ 8 + index < 32 := by omega
      simp [high, atTop, width, wide, outside, inside]
  have lowSteps : (shift crc32Mask)^[8] ((register <<< 8) >>> 8) =
      register <<< 8 := by
    rw [iterate_shift_of_clear_top]
    · apply BitVec.eq_of_getLsbD_eq
      intro index inside
      simp only [BitVec.getLsbD_shiftLeft, BitVec.getLsbD_ushiftRight]
      by_cases low : index < 8
      · simp [low]
      · have same : 8 + (index - 8) = index := by omega
        simp [low, same, inside]
    · intro index bound
      rw [BitVec.getLsbD_ushiftRight]
      exact BitVec.getLsbD_of_ge _ _ (by omega)
  rw [Crc32Check.buildCrcTable_crcTable]
  nth_rewrite 1 [split]
  rw [iterate_shift_xor, lowSteps]

theorem calcCrcByte_agree (crc32 : BitVec 32) (byte : BitVec 8) :
    Crc32Check.calcCrcByte Crc32Check.buildCrcTable crc32 byte =
      Crc32Gen.calcCrcByte crc32 byte := by
  have bitLoop : Crc32Gen.calcCrcByte crc32 byte =
      (shift crc32Mask)^[8] (crc32 ^^^ gather 32 (dataBits byte)) := by
    rw [Crc32Gen.calcCrcByte_eq_feed]
    exact feed_eq_iterate_shift crc32Mask crc32 (dataBits byte)
      (by simp [dataBits])
  have reversedShift (reversed : BitVec 8) :
      (crc32 ^^^ (reversed.setWidth 32 <<< 24)) <<< 8 = crc32 <<< 8 := by
    rw [BitVec.shiftLeft_xor_distrib, ← BitVec.shiftLeft_add]
    simp
  have reversedTop (reversed : BitVec 8) :
      ((crc32 ^^^ (reversed.setWidth 32 <<< 24)) >>> 24).setWidth 8 =
        (crc32 >>> 24).setWidth 8 ^^^ reversed := by
    apply BitVec.eq_of_getLsbD_eq
    intro index inside
    simp only [BitVec.getLsbD_setWidth, BitVec.getLsbD_ushiftRight,
      BitVec.getLsbD_xor, BitVec.getLsbD_shiftLeft]
    have back : 24 + index - 24 = index := by omega
    have below : 24 + index < 32 := by omega
    have wide : index < 32 := by omega
    simp [back, below, wide, inside]
  rw [bitLoop, ← Crc32Check.buildCrcTable_crcReverse, iterate_shift_eight,
    reversedShift, reversedTop]
  rfl

theorem Crc32Check.calcCrc_fst (statics : Crc32Check.CrcStatics)
    (data : List (BitVec 8)) :
    (Crc32Check.calcCrc statics data).1 =
      data.foldl Crc32Gen.calcCrcByte 0#32 := by
  unfold Crc32Check.calcCrc
  simp only [Crc32Check.CrcStatics.ensure_tables]
  congr 1
  funext crc32 byte
  exact calcCrcByte_agree crc32 byte

/-- Whatever state the tables are in, the loader's table-driven `calc_crc`
returns the value the bit-at-a-time `calc_crc` of `crc32gen` wrote, for every
byte sequence. -/
theorem calcCrc_table_eq_bitwise (statics : Crc32Check.CrcStatics)
    (data : List (BitVec 8)) :
    (Crc32Check.calcCrc statics data).1 = Crc32Gen.calcCrc data := by
  unfold Crc32Gen.calcCrc
  exact Crc32Check.calcCrc_fst statics data

end KernelReloaded

/-
`SifWriteBackDCache`: which cache lines the routine writes back.

The number of lines is split into a remainder and groups of eight, and there is
one loop for each.  The delay slot of the branch over the second loop is the
first instruction of that loop.
-/

import KernelReloaded.Core.Mips
import KernelReloaded.Core.Rounding

namespace KernelReloaded.DCache

open Mips Rounding
open DelaySlots (Ends reaches_loop ends_return)

inductive Reg where
  | a0
  | a1
  | t0
  | t1
  | t2
  | t3
  | t9
deriving DecidableEq

open Reg

/-! ### The code -/

def loop1 : Nat := 13

def eight : Nat := 20

def loop8 : Nat := 21

def last : Nat := 41

/-- Write back and invalidate. -/
def writeBack : Nat := 0x18

def sifWriteBackDCache : List (Instr Reg) :=
  [.op (.lui t9 0xffff),
    .op (.ori t9 t9 0xffc0),
    .branch (.lez, a1) last,
    .op (.addu t2 a0 a1),
    .op (.and t0 a0 t9),
    .op (.addiu t2 t2 (-1)),
    .op (.and t1 t2 t9),
    .op (.subu t2 t1 t0),
    .op (.srl t3 t2 0x6),
    .op (.addiu t3 t3 1),
    .op (.andi t1 t3 0x7),
    .branch (.eqz, t1) eight,
    .op (.srl t2 t3 0x3),
    -- loop1
    .op .sync,
    .op (.cache writeBack 0 t0),
    .op .sync,
    .op (.addiu t1 t1 (-1)),
    .op .nop,
    .branch (.gtz, t1) loop1,
    .op (.addiu t0 t0 64),
    -- eight
    .branch (.eqz, t2) last,
    -- loop8
    .op (.addiu t2 t2 (-1)),
    .op .sync,
    .op (.cache writeBack 0 t0),
    .op .sync,
    .op (.cache writeBack 64 t0),
    .op .sync,
    .op (.cache writeBack 128 t0),
    .op .sync,
    .op (.cache writeBack 192 t0),
    .op .sync,
    .op (.cache writeBack 256 t0),
    .op .sync,
    .op (.cache writeBack 320 t0),
    .op .sync,
    .op (.cache writeBack 384 t0),
    .op .sync,
    .op (.cache writeBack 448 t0),
    .op .sync,
    .branch (.gtz, t2) loop8,
    .op (.addiu t0 t0 512),
    -- last
    .jRa,
    .op .nop]

/-- The routine is called with an address and a size. -/
def start (regs : Reg → Word) : State Reg :=
  .at { regs := regs, cached := [] } 0

/-! ### What is wanted -/

/-- The size is a signed number. -/
def Overlaps (address size : Word) (line : Nat) : Prop :=
  ∃ offset < size.toInt.toNat, (address.toNat + offset) / 64 = line

def lineOf (cache : Nat × Word) : Nat := cache.2.toNat / 64

structure WritesBack (address size : Word) (final : State Reg) : Prop where
  left : final.Left
  operation : ∀ cache ∈ final.data.cached, cache.1 = writeBack
  once : (final.data.cached.map lineOf).Nodup
  lines : ∀ line, line ∈ final.data.cached.map lineOf ↔
    Overlaps address size line

/-! ### The words -/

/-- The operations on consecutive lines. -/
def writtenBack (first count : Nat) : List (Nat × Word) :=
  (List.range count).map fun line =>
    (writeBack, BitVec.ofNat 32 (64 * (first + line)))

theorem writtenBack_add (first count more : Nat) :
    writtenBack first (count + more) =
      writtenBack first count ++ writtenBack (first + count) more := by
  rw [writtenBack, List.range_add, List.map_append, List.map_map]
  congr 1
  apply List.map_congr_left
  intro line _inside
  rw [Function.comp_apply, Nat.add_assoc]

def mask : Word :=
  (0xffff : BitVec 16).zeroExtend 32 <<< 16 |||
    (0xffc0 : BitVec 16).zeroExtend 32

theorem and_mask (word : Word) :
    word &&& mask = BitVec.ofNat 32 (64 * (word.toNat / 64)) := by
  have isMask : mask = ~~~lowBits 32 6 := by decide
  have bound := word.isLt
  apply BitVec.eq_of_toNat_eq
  rw [isMask, toNat_and_not_lowBits, BitVec.toNat_ofNat]
  omega

/-- The number of lines from the one with `address` to the one with the last
byte. -/
def lineCount (address size : Nat) : Nat :=
  (address + size - 1) / 64 - address / 64 + 1

/-- The number of lines, as the code has it in `t3`. -/
def countWord (address size : Word) : Word :=
  ((address + size + (-1 : BitVec 16).signExtend 32 &&& mask) -
    (address &&& mask)) >>> 6 + (1 : BitVec 16).signExtend 32

theorem toNat_countWord {address size : Word} (positive : 0 < size.toNat)
    (fits : address.toNat + size.toNat ≤ 4294967296) :
    (countWord address size).toNat = lineCount address.toNat size.toNat := by
  have one : (1 : BitVec 16).signExtend 32 = BitVec.ofNat 32 1 := by decide
  have minusOne : (-1 : BitVec 16).signExtend 32 = BitVec.ofNat 32 4294967295 := by
    decide
  have lastByte : (address + size + (-1 : BitVec 16).signExtend 32).toNat =
      address.toNat + size.toNat - 1 := by
    rw [minusOne, BitVec.toNat_add, BitVec.toNat_add, BitVec.toNat_ofNat]
    omega
  rw [countWord, and_mask, and_mask, lastByte, one, BitVec.toNat_add,
    BitVec.toNat_ushiftRight, BitVec.toNat_sub, BitVec.toNat_ofNat,
    BitVec.toNat_ofNat, BitVec.toNat_ofNat, Nat.shiftRight_eq_div_pow, lineCount]
  omega

/-! ### The blocks -/

def maskOps : List (Op Reg) := [.lui t9 0xffff, .ori t9 t9 0xffc0]

def countOps : List (Op Reg) :=
  [.and t0 a0 t9, .addiu t2 t2 (-1), .and t1 t2 t9, .subu t2 t1 t0,
    .srl t3 t2 0x6, .addiu t3 t3 1, .andi t1 t3 0x7]

def lineOps : List (Op Reg) :=
  [.sync, .cache writeBack 0 t0, .sync, .addiu t1 t1 (-1), .nop]

/-- Without the decrement, which is also the delay slot in front of the loop. -/
def groupOps : List (Op Reg) :=
  [.sync, .cache writeBack 0 t0, .sync, .cache writeBack 64 t0,
    .sync, .cache writeBack 128 t0, .sync, .cache writeBack 192 t0,
    .sync, .cache writeBack 256 t0, .sync, .cache writeBack 320 t0,
    .sync, .cache writeBack 384 t0, .sync, .cache writeBack 448 t0, .sync]

theorem maskOps_found : sifWriteBackDCache.drop 0 =
    maskOps.map .op ++ sifWriteBackDCache.drop 2 := rfl

theorem countOps_found : sifWriteBackDCache.drop 4 =
    countOps.map .op ++ sifWriteBackDCache.drop 11 := rfl

theorem lineOps_found : sifWriteBackDCache.drop loop1 =
    lineOps.map .op ++ sifWriteBackDCache.drop 18 := rfl

theorem groupOps_found : sifWriteBackDCache.drop (loop8 + 1) =
    groupOps.map .op ++ sifWriteBackDCache.drop 39 := rfl

theorem size_found : sifWriteBackDCache[2]? = some (.branch (.lez, a1) last) :=
  rfl

theorem count_found : sifWriteBackDCache[11]? = some (.branch (.eqz, t1) eight) :=
  rfl

theorem reaches_size (regs : Reg → Word) :
    ∃ data, Reaches sifWriteBackDCache (start regs)
        (.at data (if Test.lez.holds (regs a1) then last else 4)) ∧
      data.cached = [] ∧ data.regs a0 = regs a0 ∧
      data.regs t2 = regs a0 + regs a1 ∧ data.regs t9 = mask := by
  have masked := reaches_ops maskOps_found { regs := regs, cached := [] }
  have tested := masked.trans (reaches_branch (.addu t2 a0 a1) size_found rfl _)
  exact ⟨_, tested, rfl, rfl, rfl, rfl⟩

/-- What the operations between the two first branches compute. -/
structure Counted (data counted : Data Reg) : Prop where
  cached : counted.cached = data.cached
  first : counted.regs t0 = data.regs a0 &&& data.regs t9
  lines : counted.regs t3 =
    ((data.regs t2 + (-1 : BitVec 16).signExtend 32 &&& data.regs t9) -
      (data.regs a0 &&& data.regs t9)) >>> 6 + (1 : BitVec 16).signExtend 32
  rest : counted.regs t1 = counted.regs t3 &&& (7 : BitVec 16).zeroExtend 32

theorem counted_execAll (data : Data Reg) :
    Counted data (execAll countOps data) := by
  constructor <;>
    simp only [countOps, execAll, List.foldl_cons, List.foldl_nil, Op.exec,
      Data.set, Function.update_apply, reduceCtorEq, if_true, if_false]

theorem reaches_count (data : Data Reg) :
    ∃ counted, Reaches sifWriteBackDCache (.at data 4) (.at counted 11) ∧
      Counted data counted :=
  ⟨_, reaches_ops countOps_found data, counted_execAll data⟩

theorem reaches_split (data : Data Reg) :
    Reaches sifWriteBackDCache (.at data 11)
      (.at (data.set t2 (data.regs t3 >>> 3))
        (if Test.eqz.holds (data.regs t1) then eight else loop1)) :=
  reaches_branch (.srl t2 t3 0x3) count_found rfl data

/-! ### The remainder -/

/-- The lines that are done, and the address of the next one. -/
structure Progress (first done : Nat) (data : Data Reg) : Prop where
  cached : data.cached = writtenBack first done
  next : data.regs t0 = BitVec.ofNat 32 (64 * (first + done))

theorem rest_found : sifWriteBackDCache[18]? = some (.branch (.gtz, t1) loop1) :=
  rfl

theorem line_add {offset : BitVec 16} (line more : Nat)
    (isMore : offset.signExtend 32 = BitVec.ofNat 32 (64 * more)) :
    BitVec.ofNat 32 (64 * line) + offset.signExtend 32 =
      BitVec.ofNat 32 (64 * (line + more)) := by
  rw [isMore, ← BitVec.ofNat_add, Nat.mul_add]

theorem execAll_lineOps (data : Data Reg) :
    execAll lineOps data =
      Data.set { data with
          cached := data.cached ++
            [(writeBack, data.regs t0 + (0 : BitVec 16).signExtend 32)] }
        t1 (data.regs t1 + (-1 : BitVec 16).signExtend 32) := rfl

theorem reaches_restTest (data : Data Reg) :
    Reaches sifWriteBackDCache (.at data 18)
      (.at (data.set t0 (data.regs t0 + (64 : BitVec 16).signExtend 32))
        (if Test.gtz.holds (data.regs t1) then loop1 else eight)) :=
  reaches_branch (.addiu t0 t0 64) rest_found rfl data

/-- In front of a round of the first loop, or behind the last one. -/
structure RestLeft (first rest groups left : Nat) (data : Data Reg) : Prop where
  progress : ∃ done, done + left = rest ∧ Progress first done data
  counter : data.regs t1 = BitVec.ofNat 32 left
  groups : data.regs t2 = BitVec.ofNat 32 groups

theorem reaches_line {first rest groups left : Nat} {data : Data Reg}
    (small : left < 8) (held : RestLeft first rest groups (left + 1) data) :
    ∃ next, Reaches sifWriteBackDCache (.at data loop1)
        (.at next (if left = 0 then eight else loop1)) ∧
      RestLeft first rest groups left next := by
  obtain ⟨⟨done, total, progress⟩, counter, groups⟩ := held
  have written := reaches_ops lineOps_found data
  rw [execAll_lineOps, progress.next, counter, countDown,
    line_add (first + done) 0 rfl] at written
  have tested := written.trans (reaches_restTest _)
  rw [Data.set_self, Data.set_of_ne (by decide), progress.next,
    line_add (first + done) 1 rfl, gtz_ofNat (by omega)] at tested
  have place : (if decide (0 < left) then loop1 else eight) =
      if left = 0 then eight else loop1 := by
    cases left <;> rfl
  rw [place] at tested
  refine ⟨_, tested, ⟨done + 1, by omega, ?_, Data.set_self ..⟩, ?_, ?_⟩
  · rw [Data.set_cached, Data.set_cached, progress.cached, writtenBack_add]
    rfl
  · rw [Data.set_of_ne (by decide), Data.set_self]
  · rw [Data.set_of_ne (by decide), Data.set_of_ne (by decide)]
    exact groups

/-! ### The groups of eight -/

theorem return_found : sifWriteBackDCache[last]? = some .jRa := rfl

theorem decrement_found : sifWriteBackDCache.drop loop8 =
    [Op.addiu t2 t2 (-1)].map .op ++ sifWriteBackDCache.drop (loop8 + 1) := rfl

theorem groups_found : sifWriteBackDCache[20]? = some (.branch (.eqz, t2) last) :=
  rfl

theorem group_found : sifWriteBackDCache[39]? = some (.branch (.gtz, t2) loop8) :=
  rfl

theorem execAll_groupOps {line : Nat} {data : Data Reg}
    (next : data.regs t0 = BitVec.ofNat 32 (64 * line)) :
    execAll groupOps data =
      { data with cached := data.cached ++ writtenBack line 8 } := by
  have written : execAll groupOps data =
      { data with
        cached := data.cached ++ [0, 64, 128, 192, 256, 320, 384, 448].map
          fun offset : BitVec 16 =>
            (writeBack, data.regs t0 + offset.signExtend 32) } := by
    simp only [groupOps, execAll, List.foldl_cons, List.foldl_nil, Op.exec,
      List.append_assoc, List.cons_append, List.nil_append, List.map_cons,
      List.map_nil]
  have offsets : [0, 64, 128, 192, 256, 320, 384, 448] =
      (List.range 8).map fun more => BitVec.ofNat 16 (64 * more) := by
    decide
  rw [written, next, offsets, List.map_map, writtenBack]
  congr 2
  apply List.map_congr_left
  intro more inside
  have isMore : (BitVec.ofNat 16 (64 * more)).signExtend 32 =
      BitVec.ofNat 32 (64 * more) := by
    have small := List.mem_range.mp inside
    revert small
    revert more
    decide
  rw [Function.comp_apply, line_add line more isMore]

theorem reaches_groups (data : Data Reg) :
    Reaches sifWriteBackDCache (.at data eight)
      (.at (data.set t2 (data.regs t2 + (-1 : BitVec 16).signExtend 32))
        (if Test.eqz.holds (data.regs t2) then last else loop8 + 1)) :=
  reaches_branch (.addiu t2 t2 (-1)) groups_found rfl data

theorem reaches_groupTest (data : Data Reg) :
    Reaches sifWriteBackDCache (.at data 39)
      (.at (data.set t0 (data.regs t0 + (512 : BitVec 16).signExtend 32))
        (if Test.gtz.holds (data.regs t2) then loop8 else last)) :=
  reaches_branch (.addiu t0 t0 512) group_found rfl data

theorem reaches_decrement (data : Data Reg) :
    Reaches sifWriteBackDCache (.at data loop8)
      (.at (data.set t2 (data.regs t2 + (-1 : BitVec 16).signExtend 32))
        (loop8 + 1)) :=
  reaches_ops decrement_found data

/-- Behind the decrement of a round of the second loop, or behind the last
round. -/
structure GroupsLeft (first lines left : Nat) (data : Data Reg) : Prop where
  progress : ∃ done, done + 8 * left = lines ∧ Progress first done data
  counter : left ≠ 0 → data.regs t2 = BitVec.ofNat 32 (left - 1)

theorem reaches_group {first lines left : Nat} {data : Data Reg}
    (small : left < 2147483648) (held : GroupsLeft first lines (left + 1) data) :
    ∃ next, Reaches sifWriteBackDCache (.at data (loop8 + 1))
        (.at next (if left = 0 then last else loop8 + 1)) ∧
      GroupsLeft first lines left next := by
  obtain ⟨⟨done, total, progress⟩, counter⟩ := held
  have groups : data.regs t2 = BitVec.ofNat 32 left := counter left.succ_ne_zero
  have written := reaches_ops groupOps_found data
  rw [execAll_groupOps progress.next, progress.cached, ← writtenBack_add]
    at written
  have tested := written.trans (reaches_groupTest _)
  rw [progress.next, line_add (first + done) 8 rfl, groups, gtz_ofNat small]
    at tested
  cases left with
  | zero =>
      refine ⟨_, tested, ⟨done + 8, by omega, rfl, Data.set_self ..⟩, ?_⟩
      intro more
      exact absurd rfl more
  | succ left =>
      have counted := tested.trans (reaches_decrement _)
      rw [Data.set_of_ne (by decide), groups, countDown] at counted
      refine ⟨_, counted, ⟨done + 8, by omega, rfl, ?_⟩, ?_⟩
      · rw [Data.set_of_ne (by decide), Data.set_self]
        rfl
      · intro _more
        exact Data.set_self ..

/-- Both loops. -/
theorem ends_loops {first lines : Nat} {data : Data Reg}
    (small : lines < 4294967296) (cached : data.cached = [])
    (next : data.regs t0 = BitVec.ofNat 32 (64 * first))
    (rest : data.regs t1 = BitVec.ofNat 32 (lines % 8))
    (groups : data.regs t2 = BitVec.ofNat 32 (lines / 8)) :
    Ends cpu sifWriteBackDCache (.at data (if lines % 8 = 0 then eight else loop1))
      fun final => final.cached = writtenBack first lines := by
  have held : RestLeft first (lines % 8) (lines / 8) (lines % 8) data :=
    ⟨⟨0, Nat.zero_add _, cached, next⟩, rest, groups⟩
  obtain ⟨middle, remainder, ⟨done, total, progress⟩, _, groups⟩ :=
    reaches_loop _ (fun _ below _ => reaches_line (by omega)) held
  have tested := remainder.trans (reaches_groups middle)
  rw [groups, eqz_ofNat (by omega)] at tested
  simp only [decide_eq_true_iff] at tested
  have grouped : GroupsLeft first lines (lines / 8)
      (middle.set t2
        (BitVec.ofNat 32 (lines / 8) + (-1 : BitVec 16).signExtend 32)) := by
    constructor
    · refine ⟨done, by omega, progress.cached, ?_⟩
      rw [Data.set_of_ne (by decide), progress.next]
    · intro more
      obtain ⟨left, isLeft⟩ := Nat.exists_eq_succ_of_ne_zero more
      rw [Data.set_self, isLeft, countDown, Nat.succ_sub_one]
  obtain ⟨next, finished, ⟨all, isAll, progress⟩, _⟩ :=
    reaches_loop _ (fun _ below _ => reaches_group (by omega)) grouped
  refine Ends.after (ends_return return_found rfl rfl ?_) (tested.trans finished)
  rw [← isAll, Nat.mul_zero, Nat.add_zero]
  exact progress.cached

/-! ### The lines -/

theorem lineOf_writtenBack {first count : Nat}
    (fits : first + count ≤ 67108864) :
    (writtenBack first count).map lineOf = List.range' first count := by
  rw [writtenBack, List.map_map, List.range'_eq_map_range]
  apply List.map_congr_left
  intro line inside
  have below := List.mem_range.mp inside
  rw [Function.comp_apply, lineOf, BitVec.toNat_ofNat]
  omega

theorem toNat_of_toInt_pos {size : Word} (positive : 0 < size.toInt) :
    size.toInt = size.toNat := by
  rw [BitVec.toInt_eq_toNat_cond] at positive ⊢
  split at positive <;> omega

theorem overlaps_iff {address size : Word} (positive : 0 < size.toInt)
    (line : Nat) :
    Overlaps address size line ↔
      address.toNat / 64 ≤ line ∧
        line < address.toNat / 64 + lineCount address.toNat size.toNat := by
  have value : size.toInt.toNat = size.toNat := by
    rw [toNat_of_toInt_pos positive, Int.toNat_natCast]
  rw [Overlaps, value, lineCount]
  constructor
  · rintro ⟨offset, inside, rfl⟩
    omega
  · rintro ⟨fromFirst, toLast⟩
    refine ⟨64 * line - address.toNat, ?_, ?_⟩ <;> omega

theorem writesBack_of_cached {address size : Word} {final : State Reg}
    (positive : 0 < size.toInt)
    (fits : address.toNat + size.toNat ≤ 4294967296) (left : final.Left)
    (cached : final.data.cached = writtenBack (address.toNat / 64)
      (lineCount address.toNat size.toNat)) :
    WritesBack address size final := by
  have some : 0 < size.toNat := by
    rw [toNat_of_toInt_pos positive] at positive
    omega
  have inside : address.toNat / 64 + lineCount address.toNat size.toNat ≤
      67108864 := by
    rw [lineCount]
    omega
  have all : final.data.cached.map lineOf =
      List.range' (address.toNat / 64)
        (lineCount address.toNat size.toNat) := by
    rw [cached, lineOf_writtenBack inside]
  constructor
  · exact left
  · intro cache inside
    rw [cached, writtenBack] at inside
    obtain ⟨line, _, rfl⟩ := List.mem_map.mp inside
    rfl
  · rw [all]
    exact List.nodup_range'
  · intro line
    rw [all, List.mem_range'_1, overlaps_iff positive]

theorem writesBack_of_empty {address size : Word} {final : State Reg}
    (empty : size.toInt ≤ 0) (left : final.Left)
    (cached : final.data.cached = []) : WritesBack address size final := by
  have none : size.toInt.toNat = 0 := Int.toNat_of_nonpos empty
  constructor
  · exact left
  · intro cache inside
    rw [cached] at inside
    exact absurd inside List.not_mem_nil
  · rw [cached]
    exact List.nodup_nil
  · intro line
    rw [cached, Overlaps, none]
    simp only [List.map_nil, List.not_mem_nil, Nat.not_lt_zero, false_and,
      exists_false]

/-! ### The routine -/

theorem ends_lines {address size : Word} {data : Data Reg}
    (positive : 0 < size.toNat)
    (fits : address.toNat + size.toNat ≤ 4294967296) (empty : data.cached = [])
    (isAddress : data.regs a0 = address) (behind : data.regs t2 = address + size)
    (isMask : data.regs t9 = mask) :
    Ends cpu sifWriteBackDCache (.at data 4) fun final =>
      final.cached = writtenBack (address.toNat / 64)
        (lineCount address.toNat size.toNat) := by
  obtain ⟨counted, reached, facts⟩ := reaches_count data
  have word : counted.regs t3 = countWord address size := by
    rw [facts.lines, behind, isAddress, isMask]
    rfl
  have lines := toNat_countWord positive fits
  rw [← word] at lines
  have small := (counted.regs t3).isLt
  have first : counted.regs t0 = BitVec.ofNat 32 (64 * (address.toNat / 64)) := by
    rw [facts.first, isAddress, isMask, and_mask]
  have rest : counted.regs t1 =
      BitVec.ofNat 32 (lineCount address.toNat size.toNat % 8) := by
    have seven : (7 : BitVec 16).zeroExtend 32 = lowBits 32 3 := by decide
    apply BitVec.eq_of_toNat_eq
    rw [facts.rest, seven, toNat_and_lowBits _ (by decide), lines,
      BitVec.toNat_ofNat]
    omega
  have groups : counted.regs t3 >>> 3 =
      BitVec.ofNat 32 (lineCount address.toNat size.toNat / 8) := by
    apply BitVec.eq_of_toNat_eq
    rw [BitVec.toNat_ushiftRight, lines, BitVec.toNat_ofNat,
      Nat.shiftRight_eq_div_pow]
    omega
  have split := reached.trans (reaches_split counted)
  rw [rest, eqz_ofNat (by omega)] at split
  simp only [decide_eq_true_iff] at split
  rw [lines] at small
  have written := ends_loops small
    ((Data.set_cached ..).trans (facts.cached.trans empty))
    ((Data.set_of_ne (by decide) ..).trans first)
    ((Data.set_of_ne (by decide) ..).trans rest)
    ((Data.set_self ..).trans groups)
  exact written.after split

theorem lez_holds (word : Word) :
    Test.lez.holds word = decide (word.toInt ≤ 0) := by
  rw [Test.holds, BitVec.sle]
  rfl

theorem sifWriteBackDCache_lines (regs : Reg → Word)
    (fits : 0 < (regs a1).toInt →
      (regs a0).toNat + (regs a1).toNat ≤ 4294967296) :
    ∃ final, Reaches sifWriteBackDCache (start regs) final ∧
      WritesBack (regs a0) (regs a1) final := by
  obtain ⟨data, tested, empty, isAddress, behind, isMask⟩ := reaches_size regs
  rw [lez_holds] at tested
  by_cases positive : 0 < (regs a1).toInt
  · rw [decide_eq_false (Int.not_le.mpr positive)] at tested
    have some : 0 < (regs a1).toNat := by
      rw [toNat_of_toInt_pos positive] at positive
      omega
    obtain ⟨final, finished, left, written⟩ :=
      ends_lines some (fits positive) empty isAddress
        behind isMask
    exact ⟨final, tested.trans finished,
      writesBack_of_cached positive (fits positive) left written⟩
  · have nothing := Int.not_lt.mp positive
    rw [decide_eq_true nothing] at tested
    obtain ⟨final, returned, left, nothingCached⟩ : Ends cpu sifWriteBackDCache
        (.at data last) fun final => final.cached = [] :=
      ends_return return_found rfl rfl empty
    exact ⟨final, tested.trans returned,
      writesBack_of_empty nothing left nothingCached⟩

theorem sifWriteBackDCache_lines_page :
    ∃ final, Reaches sifWriteBackDCache
        (start (Function.update (fun _ => 4095) a0 0xfffff001)) final ∧
      WritesBack 0xfffff001 4095 final :=
  sifWriteBackDCache_lines (Function.update (fun _ => 4095) a0 0xfffff001)
    (by decide)

end KernelReloaded.DCache

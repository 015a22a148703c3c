/-
`memcpy` of the SBIOS, in both of its variants.

The one for speed copies quadwords while both addresses are aligned and there are
32 bytes left, then doublewords, and the rest one byte at a time; the one for size
only has the last loop.  A `bnel` jumps over the first instruction of the byte
loop, and its delay slot is the same instruction.
-/

import KernelReloaded.Core.R5900

namespace KernelReloaded.MemCopy

open ByteWords R5900
open DelaySlots (execAll execAll_append reaches_op reaches_ops reaches_likely
  reaches_unlikely ends_return ends_rounds getElem?_of_drop drop_of_drop)

/-! ### The code -/

/-- From `$L2` on, at the place it has in the routine. -/
def byteCode (l2 : Nat) : List Instr :=
  [.op (.addiu 6 6 (-1)),
    -- L20
    .op (.li 2 (-1)),
    .branch (.eq, 6, 2) (l2 + 12),
    .op (.move 4 2),
    -- L13
    .op (.lbu 2 0 5),
    .op (.addiu 6 6 (-1)),
    .op (.addiu 5 5 1),
    .op (.sb 2 0 3),
    .op .nop,
    .op .nop,
    .branch (.ne, 6, 4) (l2 + 4),
    .op (.addiu 3 3 1),
    -- L12
    .jRa,
    .op (.move 2 8)]

def l5 : Nat := 9

def l9 : Nat := 23

def l2 : Nat := 31

def memcpy : List Instr :=
  [.op (.move 8 4),
    .op (.sltiu 2 6 32),
    .branch (.ne, 2, 0) l2,
    .op (.move 3 8),
    .op (.or 2 5 8),
    .op (.andi 2 2 0xF),
    .likely (.ne, 2, 0) (l2 + 1),
    .op (.addiu 6 6 (-1)),
    .op (.move 7 8),
    -- L5
    .op (.lq 3 0 5),
    .op (.addiu 6 6 (-32)),
    .op (.addiu 5 5 16),
    .op (.sltiu 4 6 32),
    .op (.sq 3 0 7),
    .op (.addiu 7 7 16),
    .op (.lq 2 0 5),
    .op (.addiu 5 5 16),
    .op (.sq 2 0 7),
    .branch (.eq, 4, 0) l5,
    .op (.addiu 7 7 16),
    .op (.sltiu 2 6 8),
    .branch (.ne, 2, 0) l2,
    .op (.move 3 7),
    -- L9
    .op (.ld 3 0 5),
    .op (.addiu 6 6 (-8)),
    .op (.addiu 5 5 8),
    .op (.sltiu 2 6 8),
    .op (.sd 3 0 7),
    .branch (.eq, 2, 0) l9,
    .op (.addiu 7 7 8),
    .op (.move 3 7)] ++ byteCode l2

/-- With `__OPTIMIZE_SIZE__`. -/
def memcpySize : List Instr :=
  [.op (.move 8 4),
    .op (.move 3 8)] ++ byteCode 2

/-! ### Bytes -/

variable {code : List Instr} {base : Nat} {memory : Bytes} {dest source : Word}
  {total done left : Nat} {data : Data}

/-- `done` of `total` bytes are copied; register `into` holds the place of the next
one. -/
structure Progress (memory : Bytes) (dest source : Word) (total done : Nat)
    (into : Reg) (data : Data) : Prop where
  before : done ≤ total
  memory : data.memory = moved memory dest source done
  sourceAt : data.low 5 = sext (source + BitVec.ofNat 32 done)
  destAt : data.low into = sext (dest + BitVec.ofNat 32 done)
  result : data.low 8 = sext dest

theorem Progress.congr {into other : Reg} {next : Data}
    (progress : Progress memory dest source total done into data)
    (sameMemory : next.memory = data.memory) (sameSource : next.low 5 = data.low 5)
    (isOther : next.low other = data.low into)
    (sameResult : next.low 8 = data.low 8) :
    Progress memory dest source total done other next where
  before := progress.before
  memory := sameMemory.trans progress.memory
  sourceAt := sameSource.trans progress.sourceAt
  destAt := isOther.trans progress.destAt
  result := sameResult.trans progress.result

def byteOps : List Op :=
  [.lbu 2 0 5, .addiu 6 6 (-1), .addiu 5 5 1, .sb 2 0 3, .nop, .nop]

theorem execAll_byteOps (data : Data) :
    ∃ next, execAll cpu byteOps data = some next ∧
      next.memory = store data.memory (data.word 3) 1
        (load data.memory (data.word 5) 1) ∧
      next.low 5 = sext (data.word 5 + 1) ∧
      next.low 3 = data.low 3 ∧ next.low 4 = data.low 4 ∧
      next.low 6 = sext (data.word 6 - 1) ∧ next.low 8 = data.low 8 := by
  refine ⟨_, rfl, ?_, ?_, ?_, ?_, ?_, ?_⟩
  · simp [Data.address, Data.word, load_one]
  · simp [Data.word]
  · simp
  · simp
  · simp [Data.word, BitVec.sub_eq_add_neg]
  · simp

theorem Progress.copy {into : Reg} {count : Nat} {next : Data}
    (apart : Disjoint dest source total) (small : total < 4294967296)
    (progress : Progress memory dest source total done into data)
    (fits : done + count ≤ total)
    (stored : next.memory = store data.memory (data.word into) count
      (load data.memory (data.word 5) count))
    (sourceOn : next.low 5 = sext (data.word 5 + BitVec.ofNat 32 count))
    (destOn : next.low into = sext (data.word into + BitVec.ofNat 32 count))
    (sameResult : next.low 8 = data.low 8) :
    Progress memory dest source total (done + count) into next where
  before := fits
  memory := by
    rw [stored, word_of_low _ progress.sourceAt, word_of_low _ progress.destAt,
      progress.memory, load_moved apart progress.before fits,
      store_moved memory source (by omega)]
  sourceAt := by
    rw [sourceOn, word_of_low _ progress.sourceAt, add_ofNat_add]
  destAt := by
    rw [destOn, word_of_low _ progress.destAt, add_ofNat_add]
  result := sameResult.trans progress.result

/-- In front of a round of the last loop. -/
structure ByteRound (memory : Bytes) (dest source : Word) (total left : Nat)
    (data : Data) : Prop where
  some : 0 < left
  inside : left ≤ total
  progress : Progress memory dest source total (total - left) 3 data
  counter : data.low 6 = sext (BitVec.ofNat 32 left - 1)
  last : data.low 4 = sext (-1)

/-- What is wanted of the routine. -/
structure Copies (memory : Bytes) (dest source : Word) (total : Nat)
    (data : Data) : Prop where
  memory : data.memory = moved memory dest source total
  result : data.low 2 = sext dest

/-- From `$L12` on. -/
theorem ends_l12 (found : code.drop base = byteCode base)
    (progress : Progress memory dest source total total 3 data) :
    Ends code (.at data (base + 12)) (Copies memory dest source total) := by
  apply ends_return (getElem?_of_drop found 12) (getElem?_of_drop found 13) rfl
  constructor
  · exact progress.memory
  · simpa using progress.result

theorem sub_one_eq_minusOne (word : Word) : word - 1 = -1 ↔ word = 0 := by
  rw [BitVec.sub_eq_iff_eq_add]
  rfl

theorem ofNat_eq_zero {count : Nat} (small : count < 4294967296) :
    BitVec.ofNat 32 count = 0 ↔ count = 0 := by
  rw [← BitVec.toNat_inj, BitVec.toNat_ofNat, Nat.mod_eq_of_lt small]
  rfl

theorem byteRound_next (found : code.drop base = byteCode base)
    (apart : Disjoint dest source total) (small : total < 4294967296)
    (round : ByteRound memory dest source total left data) :
    (∃ next less, less < left ∧
        ByteRound memory dest source total less next ∧
        Reaches code (.at data (base + 4)) (.at next (base + 4))) ∨
      Ends code (.at data (base + 4)) (Copies memory dest source total) := by
  obtain ⟨some, inside, progress, counter, last⟩ := round
  obtain ⟨middle, executed, stored, sourceOn, same, minusOne, count, result⟩ :=
    execAll_byteOps data
  have body : code.drop (base + 4) = byteOps.map .op ++ (byteCode base).drop 10 :=
    drop_of_drop found 4
  have moved := reaches_ops body executed
  have onward := moved.trans
    (reaches_branch (getElem?_of_drop found 10) (getElem?_of_drop found 11) rfl)
  have less : BitVec.ofNat 32 left - 1 = BitVec.ofNat 32 (left - 1) :=
    ofNat_sub_ofNat some
  have test : Test.ne.holds (middle.low 6) (middle.low 4) = decide (left ≠ 1) := by
    rw [minusOne, last, count, word_of_low _ counter, less, holds_ne_sext,
      decide_eq_decide, ne_eq, sub_one_eq_minusOne, ofNat_eq_zero (by omega)]
    omega
  rw [test] at onward
  have copied : Progress memory dest source total (total - left + 1) 3
      (middle.setLow 3 (sext (middle.word 3 + 1))) := by
    apply progress.copy apart small (by omega)
    · exact stored
    · simpa using sourceOn
    · simp [Data.word, same]
    · simpa using result
  by_cases isLast : left = 1
  · right
    subst isLast
    rw [Nat.sub_add_cancel inside] at copied
    exact (ends_l12 found copied).after onward
  · left
    have done : total - left + 1 = total - (left - 1) := by omega
    rw [done] at copied
    refine ⟨_, left - 1, by omega, ⟨by omega, by omega, copied, ?_, ?_⟩, ?_⟩
    · rw [← less]
      simpa [word_of_low _ counter] using count
    · simpa [minusOne] using last
    · simpa [isLast] using onward

/-- From `$L20` on. -/
theorem ends_l20 (found : code.drop base = byteCode base)
    (apart : Disjoint dest source total) (small : total < 4294967296)
    (progress : Progress memory dest source total done 3 data)
    (counter : data.low 6 = sext (BitVec.ofNat 32 (total - done) - 1)) :
    Ends code (.at data (base + 1)) (Copies memory dest source total) := by
  have before := progress.before
  have loaded : Reaches code (.at data (base + 1))
      (.at (data.setLow 2 (sext (-1))) (base + 2)) :=
    reaches_op (getElem?_of_drop found 1) rfl
  have tested := loaded.trans
    (reaches_branch (getElem?_of_drop found 2) (getElem?_of_drop found 3) rfl)
  have test : Test.eq.holds ((data.setLow 2 (sext (-1))).low 6)
      ((data.setLow 2 (sext (-1))).low 2) = decide (total = done) := by
    simp only [low_setLow, Fin.reduceEq, if_false, if_true]
    rw [counter, holds_eq_sext, decide_eq_decide, sub_one_eq_minusOne,
      ofNat_eq_zero (by omega)]
    omega
  rw [test] at tested
  have same : Progress memory dest source total done 3
      ((data.setLow 2 (sext (-1))).setLow 4 (sext (-1))) :=
    progress.congr rfl (by simp) (by simp) (by simp)
  by_cases nothing : total = done
  · subst nothing
    apply (ends_l12 found same).after
    simpa using tested
  · have round : ByteRound memory dest source total (total - done)
        ((data.setLow 2 (sext (-1))).setLow 4 (sext (-1))) := by
      refine ⟨by omega, by omega, ?_, by simpa using counter, by simp⟩
      rw [Nat.sub_sub_self before]
      exact same
    apply (ends_rounds (fun _ _ => byteRound_next found apart small) round).after
    simpa [nothing] using tested

/-- From `$L2` on. -/
theorem ends_l2 (found : code.drop base = byteCode base)
    (apart : Disjoint dest source total) (small : total < 4294967296)
    (progress : Progress memory dest source total done 3 data)
    (counter : data.low 6 = sext (BitVec.ofNat 32 (total - done))) :
    Ends code (.at data base) (Copies memory dest source total) := by
  have less : data.word 6 + (-1 : BitVec 16).signExtend 32 =
      BitVec.ofNat 32 (total - done) - 1 := by
    rw [word_of_low _ counter, BitVec.sub_eq_add_neg]
    rfl
  have counted : Reaches code (.at data base)
      (.at (data.setLow 6 (sext (BitVec.ofNat 32 (total - done) - 1))) (base + 1)) := by
    apply reaches_op (getElem?_of_drop found 0)
    rw [cpu_exec, Op.exec, less]
  have same : Progress memory dest source total done 3
      (data.setLow 6 (sext (BitVec.ofNat 32 (total - done) - 1))) :=
    progress.congr rfl (by simp) (by simp) (by simp)
  exact (ends_l20 found apart small same (by simp)).after counted

/-! ### Doublewords and quadwords -/

/-- With `left` bytes to go in steps of `unit`. -/
structure Wide (memory : Bytes) (dest source : Word) (total unit left : Nat)
    (data : Data) : Prop where
  inside : left ≤ total
  steps : unit ∣ total - left
  progress : Progress memory dest source total (total - left) 7 data
  counter : data.low 6 = sext (BitVec.ofNat 32 left)

def WideRound (memory : Bytes) (dest source : Word) (total unit left : Nat)
    (data : Data) : Prop :=
  unit ≤ left ∧ Wide memory dest source total unit left data

/-- Registers of the wide loops are left, and register 3 is ready for the last
one. -/
structure Handed (data next : Data) : Prop where
  memory : next.memory = data.memory
  source : next.low 5 = data.low 5
  counter : next.low 6 = data.low 6
  dest : next.low 7 = data.low 7
  result : next.low 8 = data.low 8
  ready : next.low 3 = data.low 7

theorem Wide.handed {unit other : Nat} {next : Data}
    (wide : Wide memory dest source total unit left data) (divides : other ∣ unit)
    (handed : Handed data next) :
    Wide memory dest source total other left next where
  inside := wide.inside
  steps := Nat.dvd_trans divides wide.steps
  progress :=
    wide.progress.congr handed.memory handed.source handed.dest handed.result
  counter := handed.counter.trans wide.counter

theorem Wide.ends_l2 {unit : Nat} {next : Data}
    (apart : Disjoint dest source total) (small : total < 4294967296)
    (wide : Wide memory dest source total unit left data)
    (handed : Handed data next) :
    Ends memcpy (.at next l2) (Copies memory dest source total) := by
  have found : memcpy.drop l2 = byteCode l2 := rfl
  have counter := handed.counter.trans wide.counter
  rw [← Nat.sub_sub_self wide.inside] at counter
  exact MemCopy.ends_l2 found apart small
    (wide.progress.congr handed.memory handed.source handed.ready handed.result)
    counter

theorem wideRound_next {unit place length : Nat} {test : Reg} {advance : BitVec 16}
    {middle : Data} (small : total < 4294967296) (unitSome : 0 < unit)
    (unitSmall : unit < 4294967296)
    (round : WideRound memory dest source total unit left data)
    (body : Reaches code (.at data place) (.at middle (place + length)))
    (fetched : code[place + length]? = some (.branch (.eq, test, 0) place))
    (delayed : code[place + length + 1]? = some (.op (.addiu 7 7 advance)))
    (isTest : middle.low test =
      if (sext (data.word 6 - BitVec.ofNat 32 unit)).ult
        (sext (BitVec.ofNat 32 unit)) then 1 else 0)
    (counted : middle.low 6 = sext (data.word 6 - BitVec.ofNat 32 unit))
    (copied : Progress memory dest source total (total - left + unit) 7
      (middle.setLow 7 (sext (middle.word 7 + advance.signExtend 32))))
    (exit : ∀ next less, less < unit →
      Wide memory dest source total unit less next →
      Ends code (.at next (place + length + 2)) (Copies memory dest source total)) :
    (∃ next less, less < left ∧
        WideRound memory dest source total unit less next ∧
        Reaches code (.at data place) (.at next place)) ∨
      Ends code (.at data place) (Copies memory dest source total) := by
  obtain ⟨enough, inside, steps, -, counter⟩ := round
  have less : BitVec.ofNat 32 left - BitVec.ofNat 32 unit =
      BitVec.ofNat 32 (left - unit) := ofNat_sub_ofNat enough
  rw [word_of_low _ counter, less] at counted isTest
  rw [ult_sext, BitVec.toNat_ofNat, BitVec.toNat_ofNat,
    Nat.mod_eq_of_lt (by omega), Nat.mod_eq_of_lt (by omega)] at isTest
  have tested := body.trans (reaches_branch fetched delayed rfl)
  rw [isTest, low_zero, holds_eq_flag] at tested
  have done : total - (left - unit) = total - left + unit := by omega
  have wide : Wide memory dest source total unit (left - unit)
      (middle.setLow 7 (sext (middle.word 7 + advance.signExtend 32))) := by
    refine ⟨by omega, ?_, ?_, by simpa using counted⟩
    · rw [done]
      exact Nat.dvd_add steps (Nat.dvd_refl unit)
    · rw [done]
      exact copied
  by_cases isLast : left - unit < unit
  · right
    simp only [isLast, decide_true, Bool.not_true, Bool.false_eq_true, if_false] at tested
    exact (exit _ _ isLast wide).after tested
  · left
    simp only [isLast, decide_false, Bool.not_false, if_true] at tested
    exact ⟨_, left - unit, by omega, ⟨by omega, wide⟩, tested⟩

def doubleOps : List Op :=
  [.ld 3 0 5, .addiu 6 6 (-8), .addiu 5 5 8, .sltiu 2 6 8, .sd 3 0 7]

theorem execAll_doubleOps (sourceAligned : (data.word 5).toNat % 8 = 0)
    (destAligned : (data.word 7).toNat % 8 = 0) :
    ∃ next, execAll cpu doubleOps data = some next ∧
      next.memory = store data.memory (data.word 7) 8
        (load data.memory (data.word 5) 8) ∧
      next.low 5 = sext (data.word 5 + 8) ∧ next.low 7 = data.low 7 ∧
      next.low 6 = sext (data.word 6 - 8) ∧ next.low 8 = data.low 8 ∧
      next.low 2 = if (sext (data.word 6 - 8)).ult (sext 8) then 1 else 0 := by
  have eight : sext 8#32 = 8#64 := by decide
  have executed : execAll cpu doubleOps data =
      some (((((data.setLow 3 (load data.memory (data.word 5) 8)).setLow 6
        (sext (data.word 6 - 8))).setLow 5 (sext (data.word 5 + 8))).setLow 2
        (if (sext (data.word 6 - 8)).ult (sext 8) then 1 else 0)).store (data.word 7) 8
        (load data.memory (data.word 5) 8)) := by
    simp [doubleOps, execAll, Op.exec, aligned_eight sourceAligned,
      aligned_eight destAligned, BitVec.sub_eq_add_neg, eight]
  refine ⟨_, executed, ?_, ?_, ?_, ?_, ?_, ?_⟩ <;> simp

theorem doubleRound_next (apart : Disjoint dest source total)
    (small : total < 4294967296) (sourceAligned : source.toNat % 8 = 0)
    (destAligned : dest.toNat % 8 = 0)
    (round : WideRound memory dest source total 8 left data) :
    (∃ next less, less < left ∧ WideRound memory dest source total 8 less next ∧
        Reaches memcpy (.at data l9) (.at next l9)) ∨
      Ends memcpy (.at data l9) (Copies memory dest source total) := by
  obtain ⟨enough, wide⟩ := round
  have eight : 8 ∣ 4294967296 := by decide
  have sourceOn : (data.word 5).toNat % 8 = 0 := by
    rw [word_of_low _ wide.progress.sourceAt]
    exact mod_add_ofNat eight sourceAligned wide.steps
  have destOn : (data.word 7).toNat % 8 = 0 := by
    rw [word_of_low _ wide.progress.destAt]
    exact mod_add_ofNat eight destAligned wide.steps
  obtain ⟨middle, executed, stored, onward, same, count, result, test⟩ :=
    execAll_doubleOps sourceOn destOn
  have found : memcpy.drop l9 = doubleOps.map .op ++ memcpy.drop (l9 + 5) := rfl
  have fits := wide.inside
  apply wideRound_next small (by decide) (by decide) ⟨enough, wide⟩
    (reaches_ops found executed) rfl rfl test count
  · apply wide.progress.copy apart small (by omega)
    · exact stored
    · simpa using onward
    · simp [Data.word, same]
    · simpa using result
  · intro next less _ wideNext
    have handed : Handed next (next.setLow 3 (next.low 7)) := by
      constructor <;> simp
    exact (wideNext.ends_l2 apart small handed).after (reaches_op rfl rfl)

theorem ends_l9 (apart : Disjoint dest source total)
    (small : total < 4294967296) (sourceAligned : source.toNat % 8 = 0)
    (destAligned : dest.toNat % 8 = 0)
    (round : WideRound memory dest source total 8 left data) :
    Ends memcpy (.at data l9) (Copies memory dest source total) :=
  ends_rounds
    (fun _ _ => doubleRound_next apart small sourceAligned destAligned) round

/-- The test behind the loop of `$L5`. -/
theorem reaches_wideTest (data : Data) {left : Nat} (small : left < 4294967296)
    (counter : data.low 6 = sext (BitVec.ofNat 32 left)) :
    ∃ next, Handed data next ∧
      Reaches memcpy (.at data (l5 + 11))
        (.at next (if left < 8 then l2 else l9)) := by
  have isLimit : (8 : BitVec 16).signExtend 64 = sext 8 := by decide
  have compared : Reaches memcpy (.at data (l5 + 11))
      (.at (data.setLow 2 (if decide (left < 8) then 1 else 0)) (l5 + 12)) := by
    apply reaches_op rfl
    rw [cpu_exec, exec_sltiu counter isLimit, BitVec.toNat_ofNat, Nat.mod_eq_of_lt small]
    rfl
  have tested := compared.trans (reaches_branch rfl rfl rfl)
  rw [holds_ne_set data _ (by decide)] at tested
  simp only [decide_eq_true_eq] at tested
  refine ⟨_, ?_, tested⟩
  constructor <;> simp

/-- Behind the loop of `$L5`. -/
theorem Wide.ends_l9 (apart : Disjoint dest source total)
    (small : total < 4294967296) (sourceAligned : source.toNat % 8 = 0)
    (destAligned : dest.toNat % 8 = 0)
    (wide : Wide memory dest source total 32 left data) :
    Ends memcpy (.at data (l5 + 11)) (Copies memory dest source total) := by
  have inside := wide.inside
  obtain ⟨next, handed, tested⟩ := reaches_wideTest data (by omega) wide.counter
  by_cases short : left < 8
  · rw [if_pos short] at tested
    exact (wide.ends_l2 apart small handed).after tested
  · rw [if_neg short] at tested
    have wideNext : Wide memory dest source total 8 left next :=
      wide.handed (by decide) handed
    exact (MemCopy.ends_l9 apart small sourceAligned destAligned
      ⟨by omega, wideNext⟩).after tested

/-- Both halves of a quadword from `source` to `dest`. -/
def quadMoved (memory : Bytes) (dest source : Word) : Bytes :=
  store (store memory dest 8 (load memory source 8)) (dest + 8) 8
    (load memory (source + 8) 8)

theorem quadMoved_moved (apart : Disjoint dest source total)
    (small : total < 4294967296) (fits : done + 16 ≤ total) :
    quadMoved (moved memory dest source done) (dest + BitVec.ofNat 32 done)
        (source + BitVec.ofNat 32 done) =
      moved memory dest source (done + 16) := by
  have behind (place : Word) : place + BitVec.ofNat 32 done + 8 =
      place + BitVec.ofNat 32 (done + 8) := add_ofNat_add place done 8
  rw [quadMoved, behind, behind, load_moved apart (by omega) (by omega),
    load_moved apart (by omega) (by omega), store_moved memory source (by omega),
    store_moved memory source (by omega)]

def firstQuad : List Op :=
  [.lq 3 0 5, .addiu 6 6 (-32), .addiu 5 5 16, .sltiu 4 6 32, .sq 3 0 7,
    .addiu 7 7 16]

def secondQuad : List Op :=
  [.lq 2 0 5, .addiu 5 5 16, .sq 2 0 7]

theorem execAll_firstQuad (sourceAligned : (data.word 5).toNat % 16 = 0)
    (destAligned : (data.word 7).toNat % 16 = 0) :
    ∃ next, execAll cpu firstQuad data = some next ∧
      next.memory = quadMoved data.memory (data.word 7) (data.word 5) ∧
      next.low 5 = sext (data.word 5 + 16) ∧ next.low 7 = sext (data.word 7 + 16) ∧
      next.low 6 = sext (data.word 6 - 32) ∧ next.low 8 = data.low 8 ∧
      next.low 4 = if (sext (data.word 6 - 32)).ult (sext 32) then 1 else 0 := by
  have isSize : sext 32#32 = 32#64 := by decide
  obtain ⟨next, executed⟩ : ∃ next, execAll cpu firstQuad data = some next := by
    simp [firstQuad, execAll, Op.exec]
  refine ⟨next, executed, ?_⟩
  simp [firstQuad, execAll, Op.exec, quadAddress_of_aligned, sourceAligned,
    destAligned] at executed
  subst executed
  simp [quadMoved, BitVec.sub_eq_add_neg, isSize]

theorem execAll_secondQuad (sourceAligned : (data.word 5).toNat % 16 = 0)
    (destAligned : (data.word 7).toNat % 16 = 0) :
    ∃ next, execAll cpu secondQuad data = some next ∧
      next.memory = quadMoved data.memory (data.word 7) (data.word 5) ∧
      next.low 5 = sext (data.word 5 + 16) ∧
      ∀ reg ∈ [4, 6, 7, 8], next.low reg = data.low reg := by
  obtain ⟨next, executed⟩ : ∃ next, execAll cpu secondQuad data = some next := by
    simp [secondQuad, execAll, Op.exec]
  refine ⟨next, executed, ?_⟩
  simp [secondQuad, execAll, Op.exec, quadAddress_of_aligned, sourceAligned,
    destAligned] at executed
  subst executed
  simp [quadMoved]

theorem execAll_quadOps (sourceAligned : (data.word 5).toNat % 16 = 0)
    (destAligned : (data.word 7).toNat % 16 = 0) :
    ∃ next, execAll cpu (firstQuad ++ secondQuad) data = some next ∧
      next.memory = quadMoved (quadMoved data.memory (data.word 7) (data.word 5))
        (data.word 7 + 16) (data.word 5 + 16) ∧
      next.low 5 = sext (data.word 5 + 16 + 16) ∧
      next.low 7 = sext (data.word 7 + 16) ∧
      next.low 6 = sext (data.word 6 - 32) ∧ next.low 8 = data.low 8 ∧
      next.low 4 = if (sext (data.word 6 - 32)).ult (sext 32) then 1 else 0 := by
  obtain ⟨middle, first, stored, sourceAt, destAt, count, result, test⟩ :=
    execAll_firstQuad sourceAligned destAligned
  have sourceNext : (middle.word 5).toNat % 16 = 0 := by
    rw [word_of_low _ sourceAt]
    exact mod_add_ofNat (by decide) sourceAligned (Nat.dvd_refl 16)
  have destNext : (middle.word 7).toNat % 16 = 0 := by
    rw [word_of_low _ destAt]
    exact mod_add_ofNat (by decide) destAligned (Nat.dvd_refl 16)
  obtain ⟨next, second, storedNext, sourceOn, same⟩ :=
    execAll_secondQuad sourceNext destNext
  rw [word_of_low _ sourceAt, word_of_low _ destAt, stored] at storedNext
  rw [word_of_low _ sourceAt] at sourceOn
  refine ⟨next, ?_, storedNext, sourceOn, ?_, ?_, ?_, ?_⟩
  · rw [execAll_append, first, Option.bind_some, second]
  · rw [same 7 (by simp), destAt]
  · rw [same 6 (by simp), count]
  · rw [same 8 (by simp), result]
  · rw [same 4 (by simp), test]

theorem quadRound_next (apart : Disjoint dest source total)
    (small : total < 4294967296) (sourceAligned : source.toNat % 16 = 0)
    (destAligned : dest.toNat % 16 = 0)
    (round : WideRound memory dest source total 32 left data) :
    (∃ next less, less < left ∧ WideRound memory dest source total 32 less next ∧
        Reaches memcpy (.at data l5) (.at next l5)) ∨
      Ends memcpy (.at data l5) (Copies memory dest source total) := by
  obtain ⟨enough, wide⟩ := round
  have sixteen : 16 ∣ 4294967296 := by decide
  have steps : 16 ∣ total - left := Nat.dvd_trans (by decide) wide.steps
  have sourceOn : (data.word 5).toNat % 16 = 0 := by
    rw [word_of_low _ wide.progress.sourceAt]
    exact mod_add_ofNat sixteen sourceAligned steps
  have destOn : (data.word 7).toNat % 16 = 0 := by
    rw [word_of_low _ wide.progress.destAt]
    exact mod_add_ofNat sixteen destAligned steps
  obtain ⟨middle, executed, stored, onward, advanced, count, result, test⟩ :=
    execAll_quadOps sourceOn destOn
  have found : memcpy.drop l5 =
      (firstQuad ++ secondQuad).map .op ++ memcpy.drop (l5 + 9) := rfl
  have fits := wide.inside
  have behind (place : Word) : place + BitVec.ofNat 32 (total - left) + 16 =
      place + BitVec.ofNat 32 (total - left + 16) := add_ofNat_add place _ 16
  have further (place : Word) : place + BitVec.ofNat 32 (total - left + 16) + 16 =
      place + BitVec.ofNat 32 (total - left + 32) := add_ofNat_add place _ 16
  apply wideRound_next small (by decide) (by decide) ⟨enough, wide⟩
    (reaches_ops found executed) rfl rfl test count
  · constructor
    · omega
    · rw [memory_setLow, stored, wide.progress.memory,
        word_of_low _ wide.progress.sourceAt, word_of_low _ wide.progress.destAt,
        quadMoved_moved apart small (by omega), behind, behind,
        quadMoved_moved apart small (by omega)]
    · rw [word_of_low _ wide.progress.sourceAt, behind, further] at onward
      simpa using onward
    · rw [word_of_low _ advanced, word_of_low _ wide.progress.destAt, behind]
      simpa using congrArg sext (further dest)
    · simpa [result] using wide.progress.result
  · intro next less _ wideNext
    exact wideNext.ends_l9 apart small (by omega) (by omega)

theorem ends_l5 (apart : Disjoint dest source total)
    (small : total < 4294967296) (sourceAligned : source.toNat % 16 = 0)
    (destAligned : dest.toNat % 16 = 0)
    (round : WideRound memory dest source total 32 left data) :
    Ends memcpy (.at data l5) (Copies memory dest source total) :=
  ends_rounds
    (fun _ _ => quadRound_next apart small sourceAligned destAligned) round

/-! ### From the start -/

/-- What the caller hands over. -/
structure Call (dest source size : Word) (data : Data) : Prop where
  dest : data.low 4 = sext dest
  source : data.low 5 = sext source
  size : data.low 6 = sext size

/-- Before the first byte. -/
theorem Call.progress {size : Word} {next : Data} {into : Reg}
    (call : Call dest source size data) (sameMemory : next.memory = data.memory)
    (sameSource : next.low 5 = data.low 5) (isInto : next.low into = data.low 4)
    (result : next.low 8 = data.low 4) :
    Progress data.memory dest source size.toNat 0 into next where
  before := Nat.zero_le _
  memory := by
    rw [sameMemory, moved_zero]
  sourceAt := by
    rw [sameSource, call.source, BitVec.add_zero]
  destAt := by
    rw [isInto, call.dest, BitVec.add_zero]
  result := by
    rw [result, call.dest]

theorem ends_memcpySize {size : Word} (call : Call dest source size data)
    (apart : Disjoint dest source size.toNat) :
    Ends memcpySize (.at data 0) (Copies data.memory dest source size.toNat) := by
  have found : memcpySize.drop 2 = byteCode 2 := rfl
  have ops : execAll cpu [.move 8 4, .move 3 8] data =
      some ((data.setLow 8 (data.low 4)).setLow 3 (data.low 4)) := by
    simp [execAll, Op.exec]
  have started : Reaches memcpySize (.at data 0)
      (.at ((data.setLow 8 (data.low 4)).setLow 3 (data.low 4)) 2) :=
    reaches_ops rfl ops
  have progress : Progress data.memory dest source size.toNat 0 3
      ((data.setLow 8 (data.low 4)).setLow 3 (data.low 4)) :=
    call.progress rfl (by simp) (by simp) (by simp)
  exact (ends_l2 found apart size.isLt progress (by simp [call.size])).after started

/-- Registers before the alignment is tested. -/
structure Started (data next : Data) : Prop where
  memory : next.memory = data.memory
  source : next.low 5 = data.low 5
  size : next.low 6 = data.low 6
  result : next.low 8 = data.low 4
  dest : next.low 3 = data.low 4

theorem Call.reaches_start {size : Word} (call : Call dest source size data) :
    ∃ next, Started data next ∧
      Reaches memcpy (.at data 0) (.at next (if size.toNat < 32 then l2 else 4)) := by
  have isLimit : (32 : BitVec 16).signExtend 64 = sext 32 := by decide
  have kept : Reaches memcpy (.at data 0) (.at (data.setLow 8 (data.low 4)) 1) :=
    reaches_op rfl rfl
  have count : (data.setLow 8 (data.low 4)).low 6 = sext size := by
    simpa using call.size
  have compared := kept.trans (reaches_op rfl (exec_sltiu count isLimit))
  have tested := compared.trans (reaches_branch rfl rfl rfl)
  rw [holds_ne_set _ _ (by decide)] at tested
  simp only [decide_eq_true_eq] at tested
  refine ⟨_, ?_, tested⟩
  constructor <;> simp

theorem Started.ends_l2 {size : Word} {next : Data}
    (call : Call dest source size data) (apart : Disjoint dest source size.toNat)
    (started : Started data next) :
    Ends memcpy (.at next l2) (Copies data.memory dest source size.toNat) := by
  have found : memcpy.drop l2 = byteCode l2 := rfl
  have progress : Progress data.memory dest source size.toNat 0 3 next :=
    call.progress started.memory started.source started.dest started.result
  apply MemCopy.ends_l2 found apart size.isLt progress
  simpa [call.size] using started.size

/-- The jump over the first instruction of `$L2`. -/
theorem Started.ends_l20 {size : Word} {next : Data}
    (call : Call dest source size data) (apart : Disjoint dest source size.toNat)
    (started : Started data next) :
    Ends memcpy (.at (next.setLow 6 (sext (size - 1))) (l2 + 1))
      (Copies data.memory dest source size.toNat) := by
  have found : memcpy.drop l2 = byteCode l2 := rfl
  have progress : Progress data.memory dest source size.toNat 0 3 next :=
    call.progress started.memory started.source started.dest started.result
  have same : Progress data.memory dest source size.toNat 0 3
      (next.setLow 6 (sext (size - 1))) :=
    progress.congr rfl (by simp) (by simp) (by simp)
  exact MemCopy.ends_l20 found apart size.isLt same (by simp)

theorem Started.ends_l5 {size : Word} {next : Data}
    (call : Call dest source size data) (apart : Disjoint dest source size.toNat)
    (started : Started data next) (long : 32 ≤ size.toNat)
    (sourceAligned : source.toNat % 16 = 0) (destAligned : dest.toNat % 16 = 0) :
    Ends memcpy (.at (next.setLow 7 (next.low 8)) l5)
      (Copies data.memory dest source size.toNat) := by
  have progress : Progress data.memory dest source size.toNat 0 3 next :=
    call.progress started.memory started.source started.dest started.result
  have wide : Wide data.memory dest source size.toNat 32 size.toNat
      (next.setLow 7 (next.low 8)) := by
    constructor
    · exact Nat.le_refl _
    · simp
    · rw [Nat.sub_self]
      exact progress.congr rfl (by simp) (by simp [started.result, started.dest])
        (by simp)
    · simpa [call.size] using started.size
  exact MemCopy.ends_l5 apart size.isLt sourceAligned destAligned ⟨long, wide⟩

theorem Started.congr {next other : Data} (started : Started data next)
    (memory : other.memory = next.memory)
    (same : ∀ reg ∈ [3, 5, 6, 8], other.low reg = next.low reg) :
    Started data other where
  memory := memory.trans started.memory
  source := (same 5 (by simp)).trans started.source
  size := (same 6 (by simp)).trans started.size
  result := (same 8 (by simp)).trans started.result
  dest := (same 3 (by simp)).trans started.dest

theorem Started.ends_test {size : Word} {next : Data}
    (call : Call dest source size data) (apart : Disjoint dest source size.toNat)
    (started : Started data next) (long : 32 ≤ size.toNat) :
    Ends memcpy (.at next 4) (Copies data.memory dest source size.toNat) := by
  have mask : (0xF : BitVec 16).zeroExtend 64 = Rounding.lowBits 64 4 := by decide
  have count : next.word 6 = size :=
    word_of_low _ (started.size.trans call.size)
  let low := (sext source ||| sext dest) &&& Rounding.lowBits 64 4
  let masked := (next.setLow 2 (sext source ||| sext dest)).setLow 2 low
  have ops : execAll cpu [.or 2 5 8, .andi 2 2 0xF] next = some masked := by
    rw [execAll, cpu_exec, Op.exec, Option.bind_some, execAll, cpu_exec, Op.exec,
      Option.bind_some, mask, started.source, started.result, call.source, call.dest]
    simp [execAll, masked, low]
  have tested : Reaches memcpy (.at next 4) (.at masked 6) := reaches_ops rfl ops
  have same : Started data masked := started.congr rfl (by simp [masked])
  by_cases clear : low = 0
  · have passed : Test.ne.holds (masked.low 2) (masked.low 0) = false := by
      simp [masked, clear, Test.holds]
    have kept : Reaches memcpy (.at masked 6)
        (.at (masked.setLow 7 (masked.low 8)) l5) :=
      (reaches_unlikely rfl passed).trans (reaches_op rfl rfl)
    obtain ⟨sourceAligned, destAligned⟩ := mod_of_or_and_lowBits (by decide) clear
    exact (same.ends_l5 call apart long sourceAligned destAligned).after
      (tested.trans kept)
  · have taken : Test.ne.holds (masked.low 2) (masked.low 0) = true := by
      simpa [masked, Test.holds] using clear
    have counted : Op.exec masked (.addiu 6 6 (-1)) =
        some (masked.setLow 6 (sext (size - 1))) := by
      simp [Op.exec, masked, count, BitVec.sub_eq_add_neg]
    have jumped : Reaches memcpy (.at masked 6)
        (.at (masked.setLow 6 (sext (size - 1))) (l2 + 1)) :=
      reaches_likely rfl rfl taken counted
    exact (same.ends_l20 call apart).after (tested.trans jumped)

theorem ends_memcpy {size : Word} (call : Call dest source size data)
    (apart : Disjoint dest source size.toNat) :
    Ends memcpy (.at data 0) (Copies data.memory dest source size.toNat) := by
  obtain ⟨next, started, begun⟩ := call.reaches_start
  by_cases short : size.toNat < 32
  · rw [if_pos short] at begun
    exact (started.ends_l2 call apart).after begun
  · rw [if_neg short] at begun
    exact (started.ends_test call apart (by omega)).after begun

def uses : List Reg := [2, 3, 4, 5, 6, 7, 8]

/-- Both variants move the block, have its place as the result, and leave all other
registers. -/
theorem memcpy_moves {size : Word} (call : Call dest source size data)
    (apart : Disjoint dest source size.toNat) :
    Ends memcpy (.at data 0) (fun final =>
        Copies data.memory dest source size.toNat final ∧
          ∀ reg ∉ uses, final.regs reg = data.regs reg) ∧
      Ends memcpySize (.at data 0) (fun final =>
        Copies data.memory dest source size.toNat final ∧
          ∀ reg ∉ uses, final.regs reg = data.regs reg) :=
  ⟨(ends_memcpy call apart).spares (by decide),
    (ends_memcpySize call apart).spares (by decide)⟩

theorem memcpy_moves_page :
    Ends memcpy (.at (.called (fun cell => cell.setWidth 8) 0x1000 0x2000 40) 0)
        (fun final =>
          Copies (fun cell => cell.setWidth 8) 0x1000 0x2000 40 final ∧
            ∀ reg ∉ uses, final.regs reg =
              (Data.called (fun cell => cell.setWidth 8) 0x1000 0x2000 40).regs reg) ∧
      Ends memcpySize (.at (.called (fun cell => cell.setWidth 8) 0x1000 0x2000 40) 0)
        (fun final =>
          Copies (fun cell => cell.setWidth 8) 0x1000 0x2000 40 final ∧
            ∀ reg ∉ uses, final.regs reg =
              (Data.called (fun cell => cell.setWidth 8) 0x1000 0x2000 40).regs reg) := by
  have call : Call 0x1000 0x2000 40
      (.called (fun cell => cell.setWidth 8) 0x1000 0x2000 40) := ⟨rfl, rfl, rfl⟩
  have apart : Disjoint 0x1000 0x2000 (40 : Word).toNat :=
    disjoint_of_le (by decide) (by decide)
  exact memcpy_moves call apart

end KernelReloaded.MemCopy

/-
The loader's `calc_crc` tells two byte sequences of equal length apart when they
differ in four consecutive bytes only, so `crc32check` finds a section that was
damaged in one such place.

Four bytes are the width of the register, and its mask is odd: the register
behind the damage is another one, and stays another one to the end.
-/

import KernelReloaded.Loader.CrcPatch

namespace KernelReloaded.CrcPatch

open Memory ShiftRegister

/-! ### The register over bytes -/

theorem foldl_calcCrcByte_eq_feed (crc32 : BitVec 32) (data : List Byte) :
    data.foldl Crc32Gen.calcCrcByte crc32 =
      feed crc32Mask crc32 (data.flatMap dataBits) := by
  induction data generalizing crc32 with
  | nil => rfl
  | cons byte rest ih =>
      rw [List.foldl_cons, ih, Crc32Gen.calcCrcByte_eq_feed, List.flatMap_cons,
        feed_append]

theorem dataBits_length (byte : Byte) : (dataBits byte).length = 8 := by
  simp [dataBits]

theorem dataBits_injective {byte other : Byte}
    (same : dataBits byte = dataBits other) : byte = other := by
  apply BitVec.eq_of_getLsbD_eq
  intro index inside
  exact List.map_inj_left.mp same index (List.mem_range.mpr inside)

theorem flatMap_dataBits_length (data : List Byte) :
    (data.flatMap dataBits).length = 8 * data.length := by
  induction data with
  | nil => rfl
  | cons byte rest ih =>
      rw [List.flatMap_cons, List.length_append, dataBits_length, ih,
        List.length_cons, Nat.mul_succ, Nat.add_comm]

theorem flatMap_dataBits_injective {left right : List Byte}
    (sameLength : left.length = right.length)
    (same : left.flatMap dataBits = right.flatMap dataBits) : left = right := by
  induction left generalizing right with
  | nil => exact (List.length_eq_zero_iff.mp sameLength.symm).symm
  | cons byte rest ih =>
      cases right with
      | nil => cases sameLength
      | cons other rest' =>
          rw [List.flatMap_cons, List.flatMap_cons] at same
          obtain ⟨first, later⟩ := List.append_inj same
            (by rw [dataBits_length, dataBits_length])
          rw [dataBits_injective first, ih (Nat.succ.inj sameLength) later]

/-- A window of four bytes between equal bytes is decided by the CRC. -/
theorem calcCrc_window {before left right after : List Byte}
    (sameLength : left.length = right.length) (few : left.length ≤ 4)
    (same : Crc32Gen.calcCrc (before ++ left ++ after) =
      Crc32Gen.calcCrc (before ++ right ++ after)) : left = right := by
  unfold Crc32Gen.calcCrc at same
  simp only [foldl_calcCrcByte_eq_feed, List.flatMap_append] at same
  have odd : crc32Mask.getLsbD 0 = true := by decide
  apply flatMap_dataBits_injective sameLength
  apply feed_window odd 0#32 _ _ same
  · rw [flatMap_dataBits_length, flatMap_dataBits_length, sameLength]
  · rw [flatMap_dataBits_length]
    omega

/-! ### Damage of four bytes -/

/-- Different sequences of equal length that have the same bytes outside of four
consecutive places. -/
structure Burst (left right : List Byte) : Prop where
  sameLength : left.length = right.length
  different : left ≠ right
  confined : ∃ position, ∀ index, index < position ∨ position + 4 ≤ index →
    left[index]? = right[index]?

theorem split_window (data : List Byte) (position : Nat) :
    data = data.take position ++ (data.drop position).take 4 ++
      data.drop (position + 4) := by
  rw [List.append_assoc, ← List.drop_drop, List.take_append_drop,
    List.take_append_drop]

theorem Burst.calcCrc_ne {left right : List Byte} (burst : Burst left right) :
    Crc32Gen.calcCrc left ≠ Crc32Gen.calcCrc right := by
  obtain ⟨position, confined⟩ := burst.confined
  have before : left.take position = right.take position := by
    apply List.ext_getElem?
    intro index
    rw [List.getElem?_take, List.getElem?_take]
    split
    · exact confined index (Or.inl ‹_›)
    · rfl
  have after : left.drop (position + 4) = right.drop (position + 4) := by
    apply List.ext_getElem?
    intro index
    rw [List.getElem?_drop, List.getElem?_drop]
    exact confined _ (Or.inr (by omega))
  have sameLength : ((left.drop position).take 4).length =
      ((right.drop position).take 4).length := by
    simp [burst.sameLength]
  have few : ((left.drop position).take 4).length ≤ 4 :=
    List.length_take_le _ _
  intro same
  rw [split_window left position, split_window right position, before, after]
    at same
  have window := calcCrc_window sameLength few same
  apply burst.different
  rw [split_window left position, split_window right position, before, after,
    window]

/-! ### Damaged sections -/

def sectionStart (memory : Image) (table index : Nat) : Nat :=
  le32 memory (table + entrySize * index + 8)

/-- The difference of the two pointers of an entry. -/
def sectionSize (memory : Image) (table index : Nat) : Nat :=
  (toInt32 (le32 memory (table + entrySize * index + 12) + 4294967296 -
    sectionStart memory table index)).toNat

/-- The section of an entry was damaged, in four consecutive bytes, and lies
apart from the table. -/
structure Damaged (memory damaged : Image) (table sections index : Nat) :
    Prop where
  inTable : index < sections
  apart : sectionStart memory table index + sectionSize memory table index ≤
      table ∨
    table + entrySize * sections ≤ sectionStart memory table index
  different : damaged ≠ memory
  confined : ∃ position, ∀ address, damaged address ≠ memory address →
    position ≤ address ∧ address < position + 4 ∧
      sectionStart memory table index ≤ address ∧
      address <
        sectionStart memory table index + sectionSize memory table index

theorem Damaged.table_kept {memory damaged : Image} {table sections index : Nat}
    (damage : Damaged memory damaged table sections index) {address : Nat}
    (behind : table ≤ address) (before : address < table + entrySize * sections) :
    damaged address = memory address := by
  obtain ⟨position, confined⟩ := damage.confined
  by_contra changed
  obtain ⟨-, -, fromStart, beforeEnd⟩ := confined address changed
  rcases damage.apart with below | above <;> omega

theorem Damaged.word_kept {memory damaged : Image} {table sections index : Nat}
    (damage : Damaged memory damaged table sections index) {field : Nat}
    (short : field ≤ 44) :
    le32 damaged (table + entrySize * index + field) =
      le32 memory (table + entrySize * index + field) := by
  have inTable := damage.inTable
  apply le32_congr
  intro offset few
  apply damage.table_kept
  · omega
  · unfold entrySize
    omega

/-- What `crc32check` reads of the damaged section differs in a burst. -/
theorem Damaged.burst {memory damaged : Image} {table sections index : Nat}
    (damage : Damaged memory damaged table sections index) :
    Burst
      (readBytes damaged (sectionStart memory table index)
        (sectionSize memory table index))
      (readBytes memory (sectionStart memory table index)
        (sectionSize memory table index)) := by
  obtain ⟨position, confined⟩ := damage.confined
  obtain ⟨changed, differs⟩ := Function.ne_iff.mp damage.different
  generalize sectionStart memory table index = start at *
  generalize sectionSize memory table index = size at *
  obtain ⟨-, -, fromStart, beforeEnd⟩ := confined changed differs
  constructor
  · unfold readBytes
    rw [List.length_map, List.length_map]
  · intro same
    have sameByte := List.map_inj_left.mp same (changed - start)
      (List.mem_range.mpr (by omega))
    rw [Nat.add_sub_of_le fromStart] at sameByte
    exact differs sameByte
  · refine ⟨position - start, ?_⟩
    intro offset outside
    have kept : damaged (start + offset) = memory (start + offset) := by
      by_contra differs
      obtain ⟨behind, before, -⟩ := confined (start + offset) differs
      omega
    unfold readBytes
    by_cases inside : offset < size
    · simp [inside, kept]
    · simp [inside]

theorem checkEntries_cases (memory : Image) (table : Nat)
    (statics : Crc32Check.CrcStatics) (indices : List Nat) :
    checkEntries memory table statics indices = 0 ∨
      checkEntries memory table statics indices = -1 := by
  induction indices generalizing statics with
  | nil => exact Or.inl rfl
  | cons index rest ih =>
      rw [checkEntries]
      split
      · exact Or.inr rfl
      · exact ih _

theorem Damaged.detected {memory damaged : Image} {table sections index : Nat}
    (damage : Damaged memory damaged table sections index)
    (statics statics' : Crc32Check.CrcStatics)
    (passed : crc32check memory table sections statics = 0) :
    crc32check damaged table sections statics' = -1 := by
  have member : index ∈ List.range sections := List.mem_range.mpr damage.inTable
  rcases checkEntries_cases damaged table statics' (List.range sections)
    with missed | found
  · have before := (CrcFile.checkEntries_eq_zero_iff memory table statics _).mp passed
      index member
    have after := (CrcFile.checkEntries_eq_zero_iff damaged table statics' _).mp missed
      index member
    have crc := damage.word_kept (Nat.zero_le 44)
    rw [Nat.add_zero] at crc
    rw [crc, damage.word_kept (by omega), damage.word_kept (by omega), before]
      at after
    exact absurd after.symm damage.burst.calcCrc_ne
  · exact found

/-- Sequences that differ in a burst have different CRCs, and a section damaged
in a burst does not pass. -/
theorem crc32check_detects_bursts :
    (∀ (statics statics' : Crc32Check.CrcStatics) (left right : List Byte),
      Burst left right →
        (Crc32Check.calcCrc statics left).1 ≠
          (Crc32Check.calcCrc statics' right).1) ∧
      ∀ (memory damaged : Image) (table sections index : Nat)
        (statics statics' : Crc32Check.CrcStatics),
        Damaged memory damaged table sections index →
        crc32check memory table sections statics = 0 →
          crc32check damaged table sections statics' = -1 := by
  constructor
  · intro statics statics' left right burst
    rw [Crc32Check.calcCrc_fst, Crc32Check.calcCrc_fst]
    exact burst.calcCrc_ne
  · intro memory damaged table sections index statics statics' damage passed
    exact damage.detected statics statics' passed

/-- A table with one entry for the 16 zeros behind it. -/
def zeroSection : Image :=
  storeWord (storeWord (fun _ => 0) 0x108 0x130) 0x10c 0x140

/-- Four bytes across two words are changed. -/
def damagedSection : Image :=
  storeWord zeroSection 0x136 0x10000080

theorem damagedSection_detected :
    (Crc32Check.calcCrc .zero [1, 2, 3, 4, 5, 6]).1 ≠
        (Crc32Check.calcCrc .zero [1, 2, 0, 4, 5, 7]).1 ∧
      crc32check damagedSection 0x100 1 .zero = -1 := by
  have burst : Burst [1, 2, 3, 4, 5, 6] [1, 2, 0, 4, 5, 7] := by
    refine ⟨rfl, by decide, 2, ?_⟩
    intro index outside
    rcases outside with before | behind
    · have cases : index = 0 ∨ index = 1 := by omega
      rcases cases with rfl | rfl <;> rfl
    · rw [List.getElem?_eq_none behind, List.getElem?_eq_none behind]
  have start : sectionStart zeroSection 0x100 0 = 0x130 := by decide +kernel
  have size : sectionSize zeroSection 0x100 0 = 0x10 := by decide +kernel
  have damage : Damaged zeroSection damagedSection 0x100 1 0 := by
    refine ⟨by decide, ?_, ?_, 0x136, ?_⟩
    · rw [start]
      decide
    · intro same
      have byte := congrFun same 0x136
      revert byte
      decide +kernel
    · intro address differs
      rw [start, size]
      have inside : 0x136 ≤ address ∧ address < 0x136 + 4 := by
        by_contra outside
        exact differs (storeWord_outside (by omega))
      omega
  exact ⟨crc32check_detects_bursts.1 .zero .zero _ _ burst,
    crc32check_detects_bursts.2 zeroSection damagedSection 0x100 1 0 .zero .zero
      damage (by decide +kernel)⟩

end KernelReloaded.CrcPatch

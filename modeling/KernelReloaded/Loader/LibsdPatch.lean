/-
`patchLibsd`: the code in libsd that keeps USB from working is replaced.

The buffer is told by offsets from its beginning, so that an offset from `size`
on is memory behind it.
-/

import KernelReloaded.Core.PatternPatch
import KernelReloaded.Loader.ElfSections

namespace KernelReloaded.LibsdPatch

open Memory Elf PatternPatch

def libsdOrig : List Byte :=
  [0x80, 0xbf, 0x09, 0x3c, 0x04, 0x14, 0x29, 0x35,
    0x80, 0xbf, 0x08, 0x3c, 0x0c, 0x14, 0x08, 0x35,
    0x90, 0xbf, 0x03, 0x3c, 0x00, 0x08, 0x63, 0x34,
    0x80, 0xbf, 0x04, 0x3c, 0xf0, 0x10, 0x84, 0x34,
    0x80, 0xbf, 0x06, 0x3c, 0x70, 0x15, 0xc6, 0x34,
    0x80, 0xbf, 0x0a, 0x3c, 0x14, 0x10, 0x4a, 0x35,
    0x0b, 0x20, 0x05, 0x3c, 0xe1, 0x31, 0xa5, 0x34,
    0x80, 0xbf, 0x07, 0x3c, 0x90, 0xbf, 0x02, 0x3c,
    0x00, 0x00, 0x22, 0xad, 0x00, 0x00, 0x03, 0xad,
    0x00, 0x00, 0x82, 0x8c, 0x08, 0x00, 0x03, 0x3c,
    0x25, 0x10, 0x43, 0x00, 0x00, 0x00, 0x82, 0xac,
    0x00, 0x00, 0xc2, 0x8c, 0x14, 0x14, 0xe7, 0x34,
    0x08, 0x00, 0x42, 0x34, 0x00, 0x00, 0xc2, 0xac,
    0x00, 0x00, 0x45, 0xad, 0x08, 0x00, 0xe0, 0x03,
    0x00, 0x00, 0xe5, 0xac, 0x90, 0xbf, 0x02, 0x3c,
    0xc6, 0x07, 0x42, 0x34, 0x90, 0xbf, 0x05, 0x3c]

def libsdPatched : List Byte :=
  [0x80, 0xbf, 0x0a, 0x3c, 0x04, 0x14, 0x49, 0x35,
    0x00, 0x08, 0x0b, 0x3c, 0x0c, 0x14, 0x48, 0x35,
    0x90, 0xbf, 0x03, 0x3c, 0x00, 0x08, 0x63, 0x34,
    0x08, 0x00, 0x6b, 0x35, 0xf0, 0x10, 0x44, 0x35,
    0x80, 0xbf, 0x06, 0x3c, 0x70, 0x15, 0xc6, 0x34,
    0x80, 0xbf, 0x0a, 0x3c, 0x14, 0x10, 0x4a, 0x35,
    0x0b, 0x20, 0x05, 0x3c, 0xe1, 0x31, 0xa5, 0x34,
    0x80, 0xbf, 0x07, 0x3c, 0x90, 0xbf, 0x02, 0x3c,
    0x00, 0x00, 0x22, 0xad, 0x00, 0x00, 0x03, 0xad,
    0x00, 0x00, 0x82, 0x8c, 0x08, 0x00, 0x03, 0x3c,
    0x25, 0x10, 0x43, 0x00, 0x00, 0x00, 0x82, 0xac,
    0x00, 0x00, 0xc2, 0x8c, 0x14, 0x14, 0xe7, 0x34,
    0x25, 0x10, 0x4b, 0x00, 0x00, 0x00, 0xc2, 0xac,
    0x00, 0x00, 0x45, 0xad, 0x08, 0x00, 0xe0, 0x03,
    0x00, 0x00, 0xe5, 0xac, 0x90, 0xbf, 0x02, 0x3c,
    0xc6, 0x07, 0x42, 0x34, 0x90, 0xbf, 0x05, 0x3c]

/-- The buffer, with the offsets `memcmp` compares and the bytes `kmemcpy`
writes. -/
structure LibsdRun where
  buffer : Image
  reads : List Nat
  writes : List (Nat × Byte)

def patchCells (i : Nat) : List (Nat × Byte) :=
  (kmemcpy i (imageOfList libsdPatched) libsdPatched.length).flatMap
    (Store.cells id)

def patchLibsdStep (run : LibsdRun) (i : Nat) : LibsdRun :=
  let reads := run.reads ++ List.range' i libsdOrig.length
  if Occurs libsdOrig run.buffer i then
    { buffer := writeCells run.buffer (patchCells i)
      reads := reads
      writes := run.writes ++ patchCells i }
  else
    { run with reads := reads }

def patchLibsd (buffer : Image) (size : BitVec 32) : LibsdRun :=
  -- The difference is unsigned and wraps for a short buffer.
  (List.range (size - BitVec.ofNat 32 libsdOrig.length).toNat).foldl
    patchLibsdStep { buffer := buffer, reads := [], writes := [] }

/-- Only the first `size` bytes are used, every occurrence of the original code
in them is replaced, and all other bytes are kept. -/
structure AllPatched (buffer : Image) (size : BitVec 32) (run : LibsdRun) :
    Prop where
  reads : ∀ offset, offset ∈ run.reads → offset < size.toNat
  writes : ∀ cell, cell ∈ run.writes → cell.1 < size.toNat
  patched : ∀ i, i + libsdOrig.length ≤ size.toNat →
    Occurs libsdOrig buffer i → Occurs libsdPatched run.buffer i
  kept : ∀ offset,
    (∀ i, i + libsdOrig.length ≤ size.toNat → Occurs libsdOrig buffer i →
      offset < i ∨ i + libsdOrig.length ≤ offset) →
    run.buffer offset = buffer offset

/-! ### The scan -/

/-- Neither code ends as the original code begins. -/
def libsdPatch : Patch Byte where
  pattern := libsdOrig
  replacement := libsdPatched
  sameLength := by decide +kernel
  pattern_unlinked := by decide +kernel
  replacement_unlinked := by decide +kernel

theorem length_libsdOrig : libsdOrig.length = 128 := by
  decide +kernel

theorem length_libsdPatched : libsdPatched.length = 128 := by
  decide +kernel

theorem mem_patchCells {i : Nat} {cell : Nat × Byte} :
    cell ∈ patchCells i ↔
      ∃ index, index < 128 ∧
        cell = (i + index, imageOfList libsdPatched index) := by
  have positive : 0 < toInt32 libsdPatched.length := by
    decide +kernel
  have size : (toInt32 libsdPatched.length).toNat = 128 := by
    decide +kernel
  unfold patchCells kmemcpy
  rw [if_pos positive, List.flatMap_singleton, Store.mem_cells, size]
  rfl

theorem writeCells_patchCells (buffer : Image) (i : Nat) :
    writeCells buffer (patchCells i) = overwrite libsdPatched buffer i := by
  funext offset
  by_cases inside : i ≤ offset ∧ offset < i + 128
  · obtain ⟨index, rfl⟩ := Nat.exists_eq_add_of_le inside.1
    have few : index < libsdPatched.length := by
      rw [length_libsdPatched]
      omega
    have written : (i + index, imageOfList libsdPatched index) ∈ patchCells i :=
      mem_patchCells.mpr ⟨index, by omega, rfl⟩
    rw [overwrite_occurs libsdPatched buffer i index few]
    rw [writeCells_of_mem buffer written]
    · simp [imageOfList, few]
    · intro cell member same
      obtain ⟨other, -, rfl⟩ := mem_patchCells.mp member
      have sameIndex : other = index := Nat.add_left_cancel same
      rw [sameIndex]
  · rw [overwrite_outside (by rw [length_libsdPatched]; omega)]
    apply writeCells_untouched
    intro cell member
    obtain ⟨index, few, rfl⟩ := mem_patchCells.mp member
    change i + index ≠ offset
    omega

structure Progress (buffer : Image) (bound : Nat) (run : LibsdRun) : Prop where
  buffer : run.buffer = scan libsdPatch buffer bound
  reads : ∀ offset, offset ∈ run.reads ↔
    ∃ i, i < bound ∧ i ≤ offset ∧ offset < i + 128
  writes : ∀ cell, cell ∈ run.writes →
    ∃ i, i < bound ∧ i ≤ cell.1 ∧ cell.1 < i + 128

theorem Progress.step {buffer : Image} {bound : Nat} {run : LibsdRun}
    (progress : Progress buffer bound run) :
    Progress buffer (bound + 1) (patchLibsdStep run bound) := by
  have reads (offset : Nat) :
      offset ∈ run.reads ++ List.range' bound libsdOrig.length ↔
        ∃ i, i < bound + 1 ∧ i ≤ offset ∧ offset < i + 128 := by
    rw [List.mem_append, progress.reads, List.mem_range'_1, length_libsdOrig]
    constructor
    · intro cases
      rcases cases with ⟨i, before, within⟩ | within
      · exact ⟨i, Nat.lt_succ_of_lt before, within⟩
      · exact ⟨bound, Nat.lt_succ_self _, within⟩
    · intro covered
      obtain ⟨i, before, within⟩ := covered
      by_cases last : i = bound
      · exact Or.inr (last ▸ within)
      · exact Or.inl ⟨i, by omega, within⟩
  have earlier (cell : Nat × Byte) (member : cell ∈ run.writes) :
      ∃ i, i < bound + 1 ∧ i ≤ cell.1 ∧ cell.1 < i + 128 := by
    obtain ⟨i, before, within⟩ := progress.writes cell member
    exact ⟨i, Nat.lt_succ_of_lt before, within⟩
  unfold patchLibsdStep
  rw [progress.buffer]
  by_cases occurs : Occurs libsdOrig (scan libsdPatch buffer bound) bound
  · rw [if_pos occurs]
    refine ⟨?_, reads, ?_⟩
    · have found : Occurs libsdPatch.pattern (scan libsdPatch buffer bound)
          bound := occurs
      rw [scan_succ, scanStep, if_pos found, writeCells_patchCells]
      rfl
    · intro cell member
      rcases List.mem_append.mp member with old | new
      · exact earlier cell old
      · obtain ⟨index, few, rfl⟩ := mem_patchCells.mp new
        exact ⟨bound, Nat.lt_succ_self _, Nat.le_add_right _ _,
          Nat.add_lt_add_left few bound⟩
  · rw [if_neg occurs]
    refine ⟨?_, reads, earlier⟩
    have notFound : ¬ Occurs libsdPatch.pattern (scan libsdPatch buffer bound)
        bound := occurs
    rw [scan_succ, scanStep, if_neg notFound]

theorem progress (buffer : Image) (bound : Nat) :
    Progress buffer bound
      ((List.range bound).foldl patchLibsdStep
        { buffer := buffer, reads := [], writes := [] }) := by
  induction bound with
  | zero =>
      refine ⟨rfl, ?_, ?_⟩
      · simp
      · intro cell member
        cases member
  | succ bound ih =>
      rw [List.range_succ, List.foldl_append, List.foldl_cons, List.foldl_nil]
      exact ih.step

/-! ### Which occurrences are replaced -/

theorem bound_toNat (size : BitVec 32) :
    (size - BitVec.ofNat 32 libsdOrig.length).toNat =
      if 128 ≤ size.toNat then size.toNat - 128
      else size.toNat + 4294967168 := by
  have bounded := size.isLt
  have length : (BitVec.ofNat 32 128).toNat = 128 := by decide
  rw [length_libsdOrig, BitVec.toNat_sub, length]
  split <;> omega

theorem Progress.replaced {buffer : Image} {bound : Nat} {run : LibsdRun}
    (progress : Progress buffer bound run) :
    Replaced libsdPatch buffer bound run.buffer := by
  rw [progress.buffer]
  exact scan_replaced libsdPatch buffer bound

theorem Progress.not_patched {buffer : Image} {bound : Nat} {run : LibsdRun}
    (progress : Progress buffer bound run)
    (occurs : Occurs libsdOrig buffer bound) :
    ¬ Occurs libsdPatched run.buffer bound := by
  intro patched
  have kept : Occurs libsdOrig run.buffer bound :=
    progress.replaced.occurs_iff.mpr occurs
  -- The two codes differ in their third byte.
  have third := patched 2 (by decide +kernel)
  rw [kept 2 (by decide +kernel)] at third
  revert third
  decide +kernel

theorem Progress.allPatched {buffer : Image} {size : BitVec 32} {last : Nat}
    {run : LibsdRun} (progress : Progress buffer last run)
    (bound : last + 128 = size.toNat)
    (noLast : ¬ Occurs libsdOrig buffer last) :
    AllPatched buffer size run := by
  constructor
  · intro offset read
    obtain ⟨i, before, -, within⟩ := (progress.reads offset).mp read
    omega
  · intro cell written
    obtain ⟨i, before, -, within⟩ := progress.writes cell written
    omega
  · intro i inside occurs
    rw [length_libsdOrig] at inside
    have notLast : i ≠ last := by
      intro same
      exact noLast (same ▸ occurs)
    exact progress.replaced.patched i (by omega) occurs
  · intro offset outside
    apply progress.replaced.kept
    intro covered
    obtain ⟨i, before, occurs, first, within⟩ := covered
    change offset < i + libsdOrig.length at within
    have away := outside i (by rw [length_libsdOrig]; omega) occurs
    omega

/-- The buffer is patched as it should be exactly when it is not shorter than
the original code and does not end with it. -/
theorem patchLibsd_allPatched_iff (buffer : Image) (size : BitVec 32) :
    AllPatched buffer size (patchLibsd buffer size) ↔
      libsdOrig.length ≤ size.toNat ∧
        ¬ Occurs libsdOrig buffer (size.toNat - libsdOrig.length) := by
  have run : Progress buffer _ (patchLibsd buffer size) := progress buffer _
  rw [bound_toNat] at run
  rw [length_libsdOrig]
  by_cases long : 128 ≤ size.toNat
  · rw [if_pos long] at run
    have bound : size.toNat - 128 + 128 = size.toNat :=
      Nat.sub_add_cancel long
    constructor
    · intro met
      refine ⟨long, ?_⟩
      intro occurs
      have patched := met.patched _ (le_of_eq bound) occurs
      exact run.not_patched occurs patched
    · intro condition
      exact run.allPatched bound condition.2
  · rw [if_neg long] at run
    -- The difference is below 2^32, and the first turn reads 128 bytes.
    have read : size.toNat ∈ (patchLibsd buffer size).reads :=
      (run.reads _).mpr ⟨0, by omega, Nat.zero_le _, by omega⟩
    constructor
    · intro met
      exact absurd (met.reads _ read) (Nat.lt_irrefl _)
    · intro condition
      exact absurd condition.1 long

theorem codeAlone_not_patched :
    ¬ AllPatched (imageOfList libsdOrig) 128
        (patchLibsd (imageOfList libsdOrig) 128) ∧
      ¬ AllPatched (fun _ => 0) 0 (patchLibsd (fun _ => 0) 0) := by
  constructor
  · intro met
    have patched := met.patched 0 (by decide +kernel) (by decide +kernel) 2
      (by decide +kernel)
    revert patched
    decide +kernel
  · intro met
    have run := progress (fun _ => 0) ((0 : BitVec 32) -
      BitVec.ofNat 32 libsdOrig.length).toNat
    have read := (run.reads 0).mpr ⟨0, by decide +kernel, by decide, by decide⟩
    exact absurd (met.reads 0 read) (Nat.not_lt_zero 0)

end KernelReloaded.LibsdPatch

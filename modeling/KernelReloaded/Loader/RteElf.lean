/-
`real_copyRTEELF`: the n-th ELF file of an RTE image is copied to a file.

An occurrence of the magic is a word of the image that holds it.  `atoi` of the
configured number is a parameter.
-/

import KernelReloaded.Loader.RteImage

namespace KernelReloaded.RteElf

open Memory WordScan RteImage

/-- `"\177ELF"` -/
def magicString : List Byte := [0x7f, 0x45, 0x4c, 0x46]

abbrev isElf (buffer : Buffer) (addr : Nat) : Bool :=
  isMagic magicString buffer addr

/-! ### The code -/

/-- Counts the occurrences down. -/
def searchStep (buffer : Buffer) (elfNumber : BitVec 32) (addr : Nat) :
    BitVec 32 × Bool :=
  if isElf buffer addr then
    (elfNumber - 1, elfNumber - 1 == 0)
  else
    (elfNumber, false)

/-- Takes the size from the next occurrence. -/
def sizeStep (buffer : Buffer) (addr : Nat) (elfSize : BitVec 32) (code : Nat) :
    BitVec 32 × Bool :=
  if isElf buffer code then
    (BitVec.ofNat 32 (code - addr), true)
  else
    (elfSize, false)

def copyElf (devices : Devices) (outputfilename : String) (buffer : Buffer)
    (size elfNumber : BitVec 32) : Copied :=
  let search := scan (searchStep buffer) (wordsBelow 0 size.toNat) elfNumber
  let addr := search.stoppedAt.getD (behindWords 0 size.toNat)
  -- The test reads the word at `addr` once more, also behind the image.
  let reads := wordReads (search.reads ++ [addr])
  if isElf buffer addr then
    let next := scan (sizeStep buffer addr) (wordsBelow (addr + 4) size.toNat) 0
    let elfSize :=
      if next.state = 0 then size - BitVec.ofNat 32 addr else next.state
    writeOutput devices ("Failed to open \"" ++ outputfilename ++ "\"")
      ("Failed to write \"" ++ outputfilename ++ "\"") buffer addr elfSize
      (reads ++ wordReads next.reads)
  else
    failed (-6) "Can't find ELF." reads

def realCopyRteElf (devices : Devices) (filename outputfilename : String)
    (buffer : Buffer) (size elfNumber : BitVec 32) : Copied :=
  withImage devices filename size
    (copyElf devices outputfilename buffer size elfNumber)

/-! ### What is wanted -/

/-- The aligned occurrences that lie in the image. -/
def occurrences (buffer : Buffer) (size : Nat) : List Nat :=
  (wordsBelow 0 (size - 3)).filter (isElf buffer)

structure CopiesElf (buffer : Buffer) (size n : Nat) (copied : Copied) :
    Prop where
  found : ∀ addr, (occurrences buffer size)[n - 1]? = some addr →
    copied.written = some (slice buffer addr
      (((occurrences buffer size)[n]?).getD size - addr))
  absent : (occurrences buffer size)[n - 1]? = none →
    copied.returned = -6 ∧ copied.written = none
  inside : Inside size copied.reads

/-! ### The search -/

theorem mem_occurrences {buffer : Buffer} {size addr : Nat} :
    addr ∈ occurrences buffer size ↔
      addr + 4 ≤ size ∧ addr % 4 = 0 ∧ isElf buffer addr = true := by
  rw [occurrences, List.mem_filter, mem_wordsBelow]
  constructor
  · rintro ⟨⟨-, high, aligned⟩, isHit⟩
    exact ⟨by omega, aligned, isHit⟩
  · rintro ⟨high, aligned, isHit⟩
    exact ⟨⟨Nat.zero_le _, by omega, aligned⟩, isHit⟩

/-- The countdown stops at the occurrence with the given number. -/
theorem search_stoppedAt (buffer : Buffer) (words : List Nat)
    {elfNumber : BitVec 32} (positive : 1 ≤ elfNumber.toNat) :
    (scan (searchStep buffer) words elfNumber).stoppedAt =
      (words.filter (isElf buffer))[elfNumber.toNat - 1]? := by
  induction words generalizing elfNumber with
  | nil =>
      rfl
  | cons addr rest ih =>
      have down : (elfNumber - 1).toNat = elfNumber.toNat - 1 := by
        have small := elfNumber.isLt
        rw [BitVec.toNat_sub]
        change (4294967296 - 1 + elfNumber.toNat) % 4294967296 = _
        omega
      cases isHit : isElf buffer addr with
      | false =>
          have step : searchStep buffer elfNumber addr = (elfNumber, false) := by
            rw [searchStep, isHit]
            rfl
          rw [scan_cons_of_goesOn (congrArg Prod.snd step), step,
            List.filter_cons_of_neg (by rw [isHit]; exact Bool.false_ne_true)]
          exact ih positive
      | true =>
          have step : searchStep buffer elfNumber addr =
              (elfNumber - 1, elfNumber - 1 == 0) := by
            rw [searchStep, isHit]
            rfl
          rw [List.filter_cons_of_pos isHit]
          by_cases last : elfNumber - 1 = 0
          · have number : elfNumber.toNat - 1 = 0 := by
              rw [← down, last]
              rfl
            rw [scan_cons_of_stops (by rw [step, last]; rfl), number,
              List.getElem?_cons_zero]
          · have notZero : (elfNumber - 1).toNat ≠ 0 := by
              intro zero
              exact last (BitVec.eq_of_toNat_eq zero)
            have number : elfNumber.toNat - 1 =
                (elfNumber - 1).toNat - 1 + 1 := by
              rw [Nat.sub_add_cancel (Nat.pos_of_ne_zero notZero), down]
            have goesOn : (searchStep buffer elfNumber addr).2 = false := by
              rw [step]
              exact beq_false_of_ne last
            rw [scan_cons_of_goesOn goesOn, step, number,
              List.getElem?_cons_succ]
            exact ih (Nat.one_le_iff_ne_zero.mpr notZero)

/-- The words of which a byte lies in the image: those inside of it and then
the one that reaches behind it, if the size is no multiple of four. -/
theorem wordsBelow_eq_inside {start size : Nat} (aligned : start % 4 = 0)
    (inside : start ≤ size) :
    wordsBelow start size =
      wordsBelow start (size - 3) ++ wordsBelow (size / 4 * 4) size := by
  have sameFront : wordsBelow start (size - 3) =
      wordsBelow start (size / 4 * 4) := by
    rw [wordsBelow, wordsBelow]
    congr 2
    omega
  rw [sameFront]
  exact wordsBelow_split (by omega) (by omega) (by omega)

theorem filter_wordsBelow (buffer : Buffer) (size : Nat) :
    (wordsBelow 0 size).filter (isElf buffer) = occurrences buffer size ++
      (wordsBelow (size / 4 * 4) size).filter (isElf buffer) := by
  rw [wordsBelow_eq_inside (Nat.zero_mod 4) (Nat.zero_le size),
    List.filter_append, occurrences]

variable {buffer : Buffer} {size addr index : Nat}

theorem search_of_occurrence
    (found : (occurrences buffer size)[index]? = some addr) :
    ((wordsBelow 0 size).filter (isElf buffer))[index]? = some addr := by
  have short := (List.getElem?_eq_some_iff.mp found).1
  rw [filter_wordsBelow, List.getElem?_append_left short]
  exact found

theorem occurrence_of_search
    (found : ((wordsBelow 0 size).filter (isElf buffer))[index]? = some addr)
    (inside : addr + 4 ≤ size) :
    (occurrences buffer size)[index]? = some addr := by
  rw [filter_wordsBelow] at found
  rcases Nat.lt_or_ge index (occurrences buffer size).length with
    short | long
  · rw [List.getElem?_append_left short] at found
    exact found
  · rw [List.getElem?_append_right long] at found
    have member := (List.mem_filter.mp (List.mem_of_getElem? found)).1
    have between := mem_wordsBelow.mp member
    omega

/-- The occurrence behind another one, as the second loop looks for it. -/
theorem next_occurrence
    (found : (occurrences buffer size)[index]? = some addr) :
    (occurrences buffer size)[index + 1]? =
      (wordsBelow (addr + 4) (size - 3)).find? (isElf buffer) := by
  obtain ⟨inside, aligned, -⟩ :=
    mem_occurrences.mp (List.mem_of_getElem? found)
  have split : wordsBelow 0 (size - 3) =
      wordsBelow 0 addr ++ addr :: wordsBelow (addr + 4) (size - 3) := by
    rw [wordsBelow_split (Nat.zero_le addr) (by omega)
      (show addr ≤ size - 3 by omega),
      wordsBelow_of_lt (show addr < size - 3 by omega)]
  have increasing := wordsBelow_increasing 0 (size - 3)
  rw [occurrences, split] at found ⊢
  rw [split] at increasing
  exact getElem?_filter_succ increasing found

/-! ### The size -/

theorem sizeScan_stoppedAt (buffer : Buffer) (addr : Nat) (words : List Nat)
    (elfSize : BitVec 32) :
    (scan (sizeStep buffer addr) words elfSize).stoppedAt =
      words.find? (isElf buffer) := by
  apply scan_stoppedAt_eq_find
  intro elfSize code
  rw [sizeStep]
  cases isElf buffer code with
  | true => rfl
  | false => rfl

theorem sizeScan_state (buffer : Buffer) (addr : Nat) (words : List Nat) :
    (scan (sizeStep buffer addr) words 0).state =
      match words.find? (isElf buffer) with
      | some code => BitVec.ofNat 32 (code - addr)
      | none => 0 := by
  have learnsNothing (code : Nat)
      (goesOn : (sizeStep buffer addr 0 code).2 = false) :
      (sizeStep buffer addr 0 code).1 = 0 := by
    rw [sizeStep] at goesOn ⊢
    split at goesOn
    · cases goesOn
    next absent => rw [if_neg absent]
  rw [scan_state_eq learnsNothing, sizeScan_stoppedAt]
  cases found : words.find? (isElf buffer) with
  | none => rfl
  | some code =>
      dsimp only
      rw [sizeStep, if_pos (List.find?_some found)]

theorem ofNat_ne_zero {count : Nat} (positive : 0 < count)
    (small : count < 4294967296) : BitVec.ofNat 32 count ≠ 0 := by
  intro zero
  have same := congrArg BitVec.toNat zero
  rw [BitVec.toNat_ofNat, Nat.mod_eq_of_lt small] at same
  exact Nat.ne_of_gt positive same

/-- The size that the code takes, up to the next word with the magic or to the
end. -/
theorem elfSize_eq {size : BitVec 32} {limit : Nat} (addr : Nat)
    (inside : addr < size.toNat)
    (isLimit : limit =
      ((wordsBelow (addr + 4) size.toNat).find? (isElf buffer)).getD
        size.toNat) :
    (if (scan (sizeStep buffer addr) (wordsBelow (addr + 4) size.toNat)
          0).state = 0 then
        size - BitVec.ofNat 32 addr
      else
        (scan (sizeStep buffer addr) (wordsBelow (addr + 4) size.toNat)
          0).state) = BitVec.ofNat 32 (limit - addr) := by
  have small := size.isLt
  rw [sizeScan_state]
  cases found : (wordsBelow (addr + 4) size.toNat).find? (isElf buffer) with
  | none =>
      rw [found, Option.getD_none] at isLimit
      dsimp only
      rw [if_pos rfl, isLimit]
      apply BitVec.eq_of_toNat_eq
      rw [BitVec.toNat_sub_of_le, BitVec.toNat_ofNat, BitVec.toNat_ofNat,
        Nat.mod_eq_of_lt (by omega), Nat.mod_eq_of_lt (by omega)]
      rw [BitVec.le_def, BitVec.toNat_ofNat, Nat.mod_eq_of_lt (by omega)]
      omega
  | some code =>
      have between := mem_wordsBelow.mp (List.mem_of_find?_eq_some found)
      have notZero :=
        ofNat_ne_zero (show 0 < code - addr by omega) (by omega)
      rw [found, Option.getD_some] at isLimit
      dsimp only
      rw [if_neg notZero, isLimit]

/-! ### The copy -/

section

variable {devices : Devices} {outputfilename : String}
  {size elfNumber : BitVec 32}

theorem copyElf_of_found
    (stopped : (scan (searchStep buffer) (wordsBelow 0 size.toNat)
      elfNumber).stoppedAt = some addr)
    (isHit : isElf buffer addr = true) (inside : addr < size.toNat) :
    copyElf devices outputfilename buffer size elfNumber =
      writeOutput devices ("Failed to open \"" ++ outputfilename ++ "\"")
        ("Failed to write \"" ++ outputfilename ++ "\"") buffer addr
        (BitVec.ofNat 32
          (((wordsBelow (addr + 4) size.toNat).find? (isElf buffer)).getD
            size.toNat - addr))
        (wordReads ((scan (searchStep buffer) (wordsBelow 0 size.toNat)
            elfNumber).reads ++ [addr]) ++
          wordReads (scan (sizeStep buffer addr)
            (wordsBelow (addr + 4) size.toNat) 0).reads) := by
  rw [copyElf, stopped, Option.getD_some]
  dsimp only
  rw [if_pos isHit, elfSize_eq addr inside rfl]

/-- The search and the test behind it stay in the image only if they end at an
occurrence. -/
theorem occurrence_of_inside (positive : 1 ≤ elfNumber.toNat)
    (inside : Inside size.toNat
      (copyElf devices outputfilename buffer size elfNumber).reads) :
    ∃ addr, (scan (searchStep buffer) (wordsBelow 0 size.toNat)
        elfNumber).stoppedAt = some addr ∧
      (occurrences buffer size.toNat)[elfNumber.toNat - 1]? = some addr := by
  have searched : Inside size.toNat
      (wordReads ((scan (searchStep buffer) (wordsBelow 0 size.toNat)
        elfNumber).reads ++
          [(scan (searchStep buffer) (wordsBelow 0 size.toNat)
            elfNumber).stoppedAt.getD (behindWords 0 size.toNat)])) := by
    intro read member
    apply inside
    rw [copyElf]
    dsimp only
    split
    · exact writeOutput_reads (List.mem_append_left _ member)
    · exact member
  have tested := inside_wordReads.mp searched _
    (List.mem_append_right _ (List.mem_singleton_self _))
  cases stopped : (scan (searchStep buffer) (wordsBelow 0 size.toNat)
      elfNumber).stoppedAt with
  | none =>
      rw [stopped, Option.getD_none] at tested
      have behind := le_behindWords 0 size.toNat
      omega
  | some addr =>
      rw [stopped, Option.getD_some] at tested
      rw [search_stoppedAt buffer _ positive] at stopped
      exact ⟨addr, rfl, occurrence_of_search stopped tested⟩

/-- Behind the occurrence the loop for the size finds the next one, unless it
reads a word that reaches behind the image. -/
theorem sizeScan_inside_iff {size : Nat}
    (found : (occurrences buffer size)[index]? = some addr) :
    Inside size (wordReads (scan (sizeStep buffer addr)
        (wordsBelow (addr + 4) size) 0).reads) ↔
      index + 1 < (occurrences buffer size).length ∨ size % 4 = 0 := by
  obtain ⟨high, aligned, -⟩ := mem_occurrences.mp (List.mem_of_getElem? found)
  have words := wordsBelow_eq_inside (show (addr + 4) % 4 = 0 by omega) high
  have next := next_occurrence found
  have stops := sizeScan_stoppedAt buffer addr (wordsBelow (addr + 4) size) 0
  rw [inside_wordReads]
  constructor
  · intro inside
    by_contra neither
    obtain ⟨isLast, uneven⟩ := not_or.mp neither
    rw [List.getElem?_eq_none (Nat.not_lt.mp isLast)] at next
    cases stopped : (scan (sizeStep buffer addr) (wordsBelow (addr + 4) size)
        0).stoppedAt with
    | none =>
        have all := scan_reads_of_ended stopped
        have reached : size / 4 * 4 ∈ wordsBelow (addr + 4) size :=
          mem_wordsBelow.mpr ⟨by omega, by omega, by omega⟩
        rw [← all] at reached
        have bound := inside _ reached
        omega
    | some code =>
        have bound := inside code (mem_scan_reads_of_stopped stopped)
        rw [stops] at stopped
        have between := mem_wordsBelow.mp (List.mem_of_find?_eq_some stopped)
        have absent := List.find?_eq_none.mp next.symm code
          (mem_wordsBelow.mpr ⟨between.1, by omega, between.2.2⟩)
        exact absent (List.find?_some stopped)
  · intro either place isRead
    have between := mem_wordsBelow.mp (scan_reads_subset isRead)
    rcases either with another | even
    · rw [List.getElem?_eq_getElem another] at next
      have stopped : (scan (sizeStep buffer addr)
          (wordsBelow (addr + 4) size) 0).stoppedAt =
            some (occurrences buffer size)[index + 1] := by
        rw [stops, words, List.find?_append, ← next, Option.some_or]
      have before := scan_reads_le (wordsBelow_increasing _ _) stopped isRead
      have member := mem_occurrences.mp (List.getElem_mem another)
      omega
    · omega

/-- The end that the code takes for the n-th ELF. -/
theorem limit_eq {size : Nat}
    (found : (occurrences buffer size)[index]? = some addr)
    (either : index + 1 < (occurrences buffer size).length ∨ size % 4 = 0) :
    ((wordsBelow (addr + 4) size).find? (isElf buffer)).getD size =
      ((occurrences buffer size)[index + 1]?).getD size := by
  obtain ⟨high, aligned, -⟩ := mem_occurrences.mp (List.mem_of_getElem? found)
  rw [wordsBelow_eq_inside (show (addr + 4) % 4 = 0 by omega) high,
    List.find?_append, ← next_occurrence found]
  rcases either with another | even
  · rw [List.getElem?_eq_getElem another, Option.some_or]
  · rw [wordsBelow_of_le (show size ≤ size / 4 * 4 by omega), List.find?_nil,
      Option.or_none]

theorem limit_between (buffer : Buffer) {size : Nat}
    (inside : addr + 4 ≤ size) :
    addr + 4 ≤ ((wordsBelow (addr + 4) size).find? (isElf buffer)).getD size ∧
      ((wordsBelow (addr + 4) size).find? (isElf buffer)).getD size ≤ size := by
  cases found : (wordsBelow (addr + 4) size).find? (isElf buffer) with
  | none =>
      exact ⟨inside, Nat.le_refl size⟩
  | some code =>
      have between := mem_wordsBelow.mp (List.mem_of_find?_eq_some found)
      exact ⟨between.1, Nat.le_of_lt between.2.1⟩

theorem conditions_of_copies (positive : 1 ≤ elfNumber.toNat)
    (copies : CopiesElf buffer size.toNat elfNumber.toNat
      (copyElf devices outputfilename buffer size elfNumber)) :
    devices.WriteWork ∧
      elfNumber.toNat ≤ (occurrences buffer size.toNat).length ∧
      (elfNumber.toNat < (occurrences buffer size.toNat).length ∨
        size.toNat % 4 = 0) := by
  obtain ⟨addr, stopped, found⟩ := occurrence_of_inside positive copies.inside
  obtain ⟨high, aligned, isHit⟩ :=
    mem_occurrences.mp (List.mem_of_getElem? found)
  have short := (List.getElem?_eq_some_iff.mp found).1
  have written := copies.found addr found
  have inside := copies.inside
  rw [copyElf_of_found stopped isHit (by omega)] at written inside
  refine ⟨?_, by omega, ?_⟩
  · by_contra broken
    rw [writeOutput_of_fails fun works => broken works.1] at written
    cases written
  · have scanned := (sizeScan_inside_iff found).mp
      (fun read member => inside read
        (writeOutput_reads (List.mem_append_right _ member)))
    rw [Nat.sub_add_cancel positive] at scanned
    exact scanned

/-- The search and the test behind it read up to the occurrence. -/
theorem search_inside {size : Nat}
    (stopped : (scan (searchStep buffer) (wordsBelow 0 size)
      elfNumber).stoppedAt = some addr) (high : addr + 4 ≤ size) :
    Inside size (wordReads ((scan (searchStep buffer) (wordsBelow 0 size)
      elfNumber).reads ++ [addr])) := by
  rw [inside_wordReads]
  intro place member
  rcases List.mem_append.mp member with isRead | isTest
  · have before := scan_reads_le (wordsBelow_increasing _ _) stopped isRead
    omega
  · rw [List.mem_singleton.mp isTest]
    exact high

theorem copyElf_copies (positive : 1 ≤ elfNumber.toNat)
    (works : devices.WriteWork)
    (enough : elfNumber.toNat ≤ (occurrences buffer size.toNat).length)
    (either : elfNumber.toNat < (occurrences buffer size.toNat).length ∨
      size.toNat % 4 = 0) :
    CopiesElf buffer size.toNat elfNumber.toNat
      (copyElf devices outputfilename buffer size elfNumber) := by
  have number : elfNumber.toNat - 1 + 1 = elfNumber.toNat :=
    Nat.sub_add_cancel positive
  have short : elfNumber.toNat - 1 <
      (occurrences buffer size.toNat).length := by
    omega
  have found := List.getElem?_eq_getElem short
  generalize (occurrences buffer size.toNat)[elfNumber.toNat - 1] = addr
    at found
  obtain ⟨high, aligned, isHit⟩ :=
    mem_occurrences.mp (List.mem_of_getElem? found)
  have stopped : (scan (searchStep buffer) (wordsBelow 0 size.toNat)
      elfNumber).stoppedAt = some addr := by
    rw [search_stoppedAt buffer _ positive]
    exact search_of_occurrence found
  rw [← number] at either
  have sameLimit := limit_eq found either
  have scanned := (sizeScan_inside_iff found).mpr either
  rw [number] at sameLimit
  obtain ⟨low, below⟩ :=
    limit_between buffer (show addr + 4 ≤ size.toNat from high)
  rw [copyElf_of_found stopped isHit (by omega)]
  rw [sameLimit] at low below ⊢
  generalize isLimit : ((occurrences buffer size.toNat)[elfNumber.toNat]?).getD
    size.toNat = limit at low below ⊢
  have small : limit - addr < 4294967296 := by
    have sizeSmall := size.isLt
    omega
  have nonempty := ofNat_ne_zero (show 0 < limit - addr by omega) small
  rw [writeOutput_of_works works nonempty, BitVec.toNat_ofNat,
    Nat.mod_eq_of_lt small]
  refine ⟨?_, ?_, ?_⟩
  · intro other isFound
    obtain rfl := Option.some.inj (found.symm.trans isFound)
    rw [isLimit]
  · intro absent
    rw [found] at absent
    cases absent
  · refine inside_append.mpr
      ⟨inside_append.mpr ⟨search_inside stopped high, scanned⟩, ?_⟩
    intro read member
    rw [List.mem_singleton.mp member]
    dsimp only
    omega

theorem copyElf_copies_iff (positive : 1 ≤ elfNumber.toNat) :
    CopiesElf buffer size.toNat elfNumber.toNat
        (copyElf devices outputfilename buffer size elfNumber) ↔
      devices.WriteWork ∧
        elfNumber.toNat ≤ (occurrences buffer size.toNat).length ∧
        (elfNumber.toNat < (occurrences buffer size.toNat).length ∨
          size.toNat % 4 = 0) :=
  ⟨conditions_of_copies positive, fun ⟨works, enough, either⟩ =>
    copyElf_copies positive works enough either⟩

/-- The n-th ELF of the image is copied exactly when the calls for files and
memory succeed, the image has as many occurrences, and another one follows or
the size is a multiple of four. -/
theorem realCopyRteElf_copies_iff (devices : Devices)
    (filename outputfilename : String) (buffer : Buffer)
    (size elfNumber : BitVec 32) (positive : 1 ≤ elfNumber.toNat) :
    CopiesElf buffer size.toNat elfNumber.toNat
        (realCopyRteElf devices filename outputfilename buffer size elfNumber) ↔
      (devices.ReadWork ∧ devices.WriteWork) ∧
        elfNumber.toNat ≤ (occurrences buffer size.toNat).length ∧
        (elfNumber.toNat < (occurrences buffer size.toNat).length ∨
          size.toNat % 4 = 0) := by
  by_cases works : devices.ReadWork ∧ size ≠ 0
  · rw [realCopyRteElf, withImage_of_works works.1 works.2,
      copyElf_copies_iff positive]
    constructor
    · rintro ⟨writes, others⟩
      exact ⟨⟨works.1, writes⟩, others⟩
    · rintro ⟨⟨-, writes⟩, others⟩
      exact ⟨writes, others⟩
  · have fails : (realCopyRteElf devices filename outputfilename buffer size
          elfNumber).written = none ∧
        (realCopyRteElf devices filename outputfilename buffer size
          elfNumber).returned ≠ -6 :=
      withImage_of_fails works
    obtain ⟨notWritten, other⟩ := fails
    constructor
    · intro copies
      cases found : (occurrences buffer size.toNat)[elfNumber.toNat - 1]? with
      | none =>
          exact absurd (copies.absent found).1 other
      | some addr =>
          have written := copies.found addr found
          rw [notWritten] at written
          cases written
    · rintro ⟨⟨reads, -⟩, enough, -⟩
      refine absurd ⟨reads, ?_⟩ works
      rintro rfl
      have none : occurrences buffer (0 : BitVec 32).toNat = [] := rfl
      rw [none, List.length_nil] at enough
      omega

end

/-- The magic at offset 0 and zeros behind it. -/
def oneElf : Buffer := fun offset =>
  if offset < 0 then 0 else magicString.getD offset.toNat 0

theorem oneElf_copied :
    CopiesElf oneElf 8 1
      (realCopyRteElf workingDevices "cdfs:/modules/modrt.img" "kernel.elf"
        oneElf 8 1) :=
  (realCopyRteElf_copies_iff workingDevices _ _ oneElf 8 1 (by decide)).mpr
    ⟨⟨readWork_workingDevices, writeWork_workingDevices⟩, by decide,
      Or.inr (by decide)⟩

/-- Without a second ELF the word behind the image is tested. -/
theorem oneElf_overread :
    ¬ ∀ (filename outputfilename : String) (buffer : Buffer)
        (size elfNumber : BitVec 32), 1 ≤ elfNumber.toNat →
      CopiesElf buffer size.toNat elfNumber.toNat
        (realCopyRteElf workingDevices filename outputfilename buffer size
          elfNumber) := by
  intro copies
  have second := copies "cdfs:/modules/modrt.img" "kernel.elf" oneElf 8 2
    (by decide)
  have behind := (second.inside (8, 4) (by decide)).2
  exact absurd behind (by decide)

end KernelReloaded.RteElf

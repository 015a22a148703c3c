/-
Which words `load_sbios` reads and writes while it looks for the call table.

The entry point and the address of the call table come from the file and are
not compared with the size of `sbiosbin`.  The accesses stay inside when every
header that is tried leads into code that ends in time, and the call table has
room for the disabled calls.
-/

import KernelReloaded.Loader.SbiosLoading
import KernelReloaded.Loader.SbiosTracking
import Mathlib.Data.Nat.Find

namespace KernelReloaded.SbiosLoading

open Memory CText Elf Boot SbiosScan

/-! ### What stays inside -/

def Sbiosbin.Holds (bin : Sbiosbin) (address : BitVec 32) : Prop :=
  bin.address ≤ address.toNat ∧
    address.toNat + 4 ≤ bin.address + maxSbiosSize

/-- All words read and written lie in `sbiosbin`, and a loaded SBIOS is
announced where the header of its call table is. -/
structure AccessSafe (bin : Sbiosbin) (filled : Image) (run : SbiosRun) :
    Prop where
  reads : ∀ address, address ∈ run.search.reads → bin.Holds address
  writes : ∀ address, address ∈ run.writes → bin.Holds address
  base : run.loaded ≠ none → ∃ header : Nat,
    4 * header + 8 ≤ maxSbiosSize ∧
      run.search.sbiosBase =
        sbiosStartAddress + BitVec.ofNat 32 (4 * header) ∧
      run.search.callTable = getSBIOSCallTable filled (bin.word header)

/-- The whole words from an address up to the end of `sbiosbin`. -/
def Sbiosbin.room (bin : Sbiosbin) (address : BitVec 32) : Nat :=
  (bin.address + maxSbiosSize - address.toNat) / 4

/-- The entry point of a header lies in `sbiosbin`, and so does the code behind
it up to the jump that ends the search.  Code up to the end of the address
space is not searched. -/
def CodeInside (memory : Image) (bin : Sbiosbin) (header : BitVec 32) : Prop :=
  let entry := entrypoint memory header
  entry.toNat + 4 * numberOfInstructionsChecked < 4294967296 →
    bin.address ≤ entry.toNat ∧ 1 ≤ bin.room entry ∧
      (numberOfInstructionsChecked ≤ bin.room entry ∨
        ∃ before register, EndsAt (code memory entry) before register ∧
          before.length < bin.room entry)

def IsDisabled (sbiosCallEnabled : Nat → Int) (index : Nat) : Prop :=
  index < numberOfSbiosCalls ∧ sbiosCallEnabled index = 0

instance (sbiosCallEnabled : Nat → Int) :
    DecidablePred (IsDisabled sbiosCallEnabled) :=
  fun _ => inferInstanceAs (Decidable (_ ∧ _))

def TableInside (bin : Sbiosbin) (sbiosCallEnabled : Nat → Int)
    (callTable : BitVec 32) : Prop :=
  ∀ index, IsDisabled sbiosCallEnabled index →
    ((∀ other, IsDisabled sbiosCallEnabled other → index ≤ other) ∨
      ∀ other, IsDisabled sbiosCallEnabled other → other ≤ index) →
    bin.Holds (callTable + BitVec.ofNat 32 (4 * index))

/-- A magic word that the search comes to: no header before it has a call
table. -/
def Tried (memory : Image) (bin : Sbiosbin) (indices : List Nat) (index : Nat) :
    Prop :=
  isMagic memory bin index = true ∧ ∃ earlier later,
    indices = earlier ++ index :: later ∧
      ∀ before, before ∈ earlier → isMagic memory bin before = true →
        ∀ table, ¬ TableAt memory (bin.word (before - 1)) table

/-- The code of every header that is tried is inside, and its call table
too. -/
def SearchInside (memory : Image) (bin : Sbiosbin) (size : Int)
    (sbiosCallEnabled : Nat → Int) : Prop :=
  ∀ index, Tried memory bin (searchIndices size) index →
    CodeInside memory bin (bin.word (index - 1)) ∧
      ∀ table, TableAt memory (bin.word (index - 1)) table →
        TableInside bin sbiosCallEnabled table

/-! ### The instructions that are read -/

theorem wordsRead_passed {before : List Instr} (passed : Passed before)
    (rest : List Instr) :
    wordsRead (before ++ rest) ScanState.initial =
      wordsRead rest (scanned before) + before.length := by
  induction before using List.reverseRecOn generalizing rest with
  | nil => rfl
  | append_singleton before instr ih =>
      obtain ⟨earlier, here⟩ := (passed_concat before instr).mp passed
      rw [List.append_assoc, ih earlier, List.cons_append, wordsRead,
        loaderStep_passed here, List.nil_append, List.length_append,
        List.length_singleton]
      dsimp only
      omega

theorem wordsRead_endsAt {instrs before : List Instr} {register : Nat}
    (ends : EndsAt instrs before register) :
    wordsRead instrs ScanState.initial = before.length + 1 := by
  obtain ⟨passed, jump, ⟨rest, rfl⟩, ends⟩ := ends
  rw [List.append_assoc, wordsRead_passed passed, List.cons_append, wordsRead,
    loaderStep_ends ends, Nat.add_comm]

/-- The instructions that are read fit when all do, or when the search ends
early enough. -/
theorem wordsRead_le_iff (instrs : List Instr) (room : Nat) :
    wordsRead instrs ScanState.initial ≤ room ↔
      instrs.length ≤ room ∨
        ∃ before register, EndsAt instrs before register ∧
          before.length < room := by
  rcases passed_or_endsAt instrs with passed | ⟨before, register, ends⟩
  · have all := wordsRead_passed passed []
    rw [List.append_nil, wordsRead, Nat.zero_add] at all
    rw [all]
    constructor
    · exact Or.inl
    · intro fits
      rcases fits with whole | ⟨before, register, ends, early⟩
      · exact whole
      · rw [← all, wordsRead_endsAt ends]
        exact early
  · constructor
    · intro fits
      rw [wordsRead_endsAt ends] at fits
      exact Or.inr ⟨before, register, ends, fits⟩
    · intro fits
      rcases fits with whole | ⟨before', register', ends', early⟩
      · have count := wordsRead_endsAt ends
        obtain ⟨-, jump, isPrefix, -⟩ := ends
        have shorter := isPrefix.length_le
        rw [List.length_append, List.length_singleton] at shorter
        omega
      · rw [wordsRead_endsAt ends']
        exact early

theorem wordsRead_le_length (instrs : List Instr) :
    wordsRead instrs ScanState.initial ≤ instrs.length :=
  (wordsRead_le_iff instrs instrs.length).mpr (Or.inl (Nat.le_refl _))

theorem wordsRead_pos {instrs : List Instr} (nonempty : instrs ≠ [])
    (state : ScanState) : 1 ≤ wordsRead instrs state := by
  cases instrs with
  | nil => exact absurd rfl nonempty
  | cons instr rest =>
      rw [wordsRead]
      cases loaderStep state instr with
      | next next => exact Nat.le_add_left 1 _
      | leave next => exact Nat.le_refl 1

theorem code_length (memory : Image) {entry : BitVec 32}
    (fits : entry.toNat + 4 * numberOfInstructionsChecked < 4294967296) :
    (code memory entry).length = numberOfInstructionsChecked := by
  rw [code, if_pos fits, List.length_map, List.length_range]

/-- The words of the code are inside exactly when the entry point is and the
scan does not go on behind the end. -/
theorem codeInside_iff (memory : Image) (bin : Sbiosbin) (header : BitVec 32) :
    (∀ index, index < wordsRead (code memory (entrypoint memory header))
        ScanState.initial →
      bin.Holds (entrypoint memory header + BitVec.ofNat 32 (4 * index))) ↔
      CodeInside memory bin header := by
  unfold CodeInside
  dsimp only
  generalize entrypoint memory header = entry
  by_cases fits : entry.toNat + 4 * numberOfInstructionsChecked < 4294967296
  · have length := code_length memory fits
    have positive : 1 ≤ wordsRead (code memory entry) ScanState.initial := by
      apply wordsRead_pos
      intro empty
      rw [empty] at length
      cases length
    have few := wordsRead_le_length (code memory entry)
    have ends := wordsRead_le_iff (code memory entry) (bin.room entry)
    rw [length] at few ends
    rw [← ends]
    generalize wordsRead (code memory entry) ScanState.initial = count
      at positive few
    unfold numberOfInstructionsChecked at fits few ⊢
    have place (index : Nat) (inside : index < count) :
        (entry + BitVec.ofNat 32 (4 * index)).toNat =
          entry.toNat + 4 * index := by
      rw [BitVec.toNat_add, BitVec.toNat_ofNat]
      omega
    simp only [fits, true_implies]
    unfold Sbiosbin.Holds Sbiosbin.room
    constructor
    · intro inside
      have first := inside 0 (by omega)
      have last := inside (count - 1) (by omega)
      rw [place _ (by omega)] at first last
      omega
    · intro bounds index before
      rw [place index before]
      omega
  · have none : code memory entry = [] := by
      rw [code, if_neg fits]
    simp [none, wordsRead, fits]

/-! ### The entries that are cleared -/

theorem mem_disabledEntries {sbiosCallEnabled : Nat → Int}
    {callTable address : BitVec 32} :
    address ∈ disabledEntries sbiosCallEnabled callTable ↔
      ∃ index, IsDisabled sbiosCallEnabled index ∧
        address = callTable + BitVec.ofNat 32 (4 * index) := by
  unfold disabledEntries IsDisabled
  simp only [List.mem_map, List.mem_filter, List.mem_range, decide_eq_true_eq]
  constructor
  · intro entry
    obtain ⟨index, isDisabled, same⟩ := entry
    exact ⟨index, isDisabled, same.symm⟩
  · intro entry
    obtain ⟨index, isDisabled, same⟩ := entry
    exact ⟨index, isDisabled, same.symm⟩

theorem Sbiosbin.Holds.between {bin : Sbiosbin} {callTable : BitVec 32}
    {first index last : Nat}
    (holdsFirst : bin.Holds (callTable + BitVec.ofNat 32 (4 * first)))
    (holdsLast : bin.Holds (callTable + BitVec.ofNat 32 (4 * last)))
    (behind : first ≤ index) (before : index ≤ last)
    (few : last < numberOfSbiosCalls) :
    bin.Holds (callTable + BitVec.ofNat 32 (4 * index)) := by
  have fits := bin.fits
  have small := callTable.isLt
  unfold Sbiosbin.Holds at *
  unfold numberOfSbiosCalls at few
  unfold maxSbiosSize at *
  simp only [BitVec.toNat_add, BitVec.toNat_ofNat] at *
  omega

theorem tableInside_iff (bin : Sbiosbin) (sbiosCallEnabled : Nat → Int)
    (callTable : BitVec 32) :
    (∀ address, address ∈ disabledEntries sbiosCallEnabled callTable →
      bin.Holds address) ↔
      TableInside bin sbiosCallEnabled callTable := by
  constructor
  · intro inside index isDisabled _outermost
    exact inside _ (mem_disabledEntries.mpr ⟨index, isDisabled, rfl⟩)
  · intro outermost address member
    obtain ⟨index, isDisabled, rfl⟩ := mem_disabledEntries.mp member
    have someDisabled : ∃ other, IsDisabled sbiosCallEnabled other :=
      ⟨index, isDisabled⟩
    have few : index ≤ numberOfSbiosCalls := Nat.le_of_lt isDisabled.1
    have first : IsDisabled sbiosCallEnabled (Nat.find someDisabled) :=
      Nat.find_spec someDisabled
    have last : IsDisabled sbiosCallEnabled
        (Nat.findGreatest (IsDisabled sbiosCallEnabled) numberOfSbiosCalls) :=
      Nat.findGreatest_spec few isDisabled
    have holdsFirst := outermost _ first
      (Or.inl fun other found => Nat.find_min' someDisabled found)
    have holdsLast := outermost _ last
      (Or.inr fun other found =>
        Nat.le_findGreatest (Nat.le_of_lt found.1) found)
    exact holdsFirst.between holdsLast (Nat.find_min' someDisabled isDisabled)
      (Nat.le_findGreatest few isDisabled) last.1

/-! ### The search -/

section

variable {memory : Image} {bin : Sbiosbin} {index : Nat}

theorem Sbiosbin.word_toNat (inside : 4 * index + 4 ≤ maxSbiosSize) :
    (bin.word index).toNat = bin.address + 4 * index := by
  have fits := bin.fits
  unfold Sbiosbin.word
  rw [BitVec.toNat_ofNat]
  exact Nat.mod_eq_of_lt (by omega)

theorem Sbiosbin.holds_word (inside : 4 * index + 4 ≤ maxSbiosSize) :
    bin.Holds (bin.word index) := by
  unfold Sbiosbin.Holds
  rw [Sbiosbin.word_toNat inside]
  omega

theorem Sbiosbin.word_pred_add (positive : 1 ≤ index) :
    bin.word (index - 1) + 4 = bin.word index := by
  apply BitVec.eq_of_toNat_eq
  unfold Sbiosbin.word
  have four : (4 : BitVec 32).toNat = 4 := by decide
  simp only [BitVec.toNat_add, BitVec.toNat_ofNat, four]
  omega

theorem isMagic_iff (positive : 1 ≤ index) :
    isMagic memory bin index = true ↔
      readWord memory (bin.word (index - 1) + 4) =
        BitVec.ofNat 32 magicCheck := by
  rw [Sbiosbin.word_pred_add positive]
  exact decide_eq_true_iff

/-- Of the words that are read for a header, those of the code decide. -/
theorem callTableReads_iff (positive : 1 ≤ index)
    (inside : 4 * index + 4 ≤ maxSbiosSize)
    (magic : isMagic memory bin index = true) :
    (∀ address, address ∈ callTableReads memory (bin.word (index - 1)) →
      bin.Holds address) ↔ CodeInside memory bin (bin.word (index - 1)) := by
  have holdsHeader : bin.Holds (bin.word (index - 1)) :=
    Sbiosbin.holds_word (by omega)
  have holdsMagic : bin.Holds (bin.word (index - 1) + 4) := by
    rw [Sbiosbin.word_pred_add positive]
    exact Sbiosbin.holds_word inside
  rw [← codeInside_iff]
  unfold callTableReads
  rw [if_neg (not_not.mpr ((isMagic_iff positive).mp magic))]
  constructor
  · intro holds position before
    apply holds
    apply List.mem_append_right
    exact List.mem_map.mpr ⟨position, List.mem_range.mpr before, rfl⟩
  · intro holds address member
    rcases List.mem_append.mp member with inHeader | inCode
    · rcases List.mem_pair.mp inHeader with rfl | rfl
      · exact holdsHeader
      · exact holdsMagic
    · obtain ⟨position, before, rfl⟩ := List.mem_map.mp inCode
      exact holds position (List.mem_range.mp before)

theorem tried_cons (first : Nat) (rest : List Nat) (index : Nat) :
    Tried memory bin (first :: rest) index ↔
      (isMagic memory bin index = true ∧ index = first) ∨
      ((isMagic memory bin first = true →
          ∀ table, ¬ TableAt memory (bin.word (first - 1)) table) ∧
        Tried memory bin rest index) := by
  constructor
  · intro tried
    obtain ⟨magic, earlier, later, same, none⟩ := tried
    cases earlier with
    | nil =>
        cases same
        exact Or.inl ⟨magic, rfl⟩
    | cons head earlier =>
        cases same
        refine Or.inr ⟨none first List.mem_cons_self, magic, earlier, later,
          rfl, ?_⟩
        intro before member
        exact none before (List.mem_cons_of_mem _ member)
  · intro cases
    rcases cases with ⟨magic, rfl⟩ | ⟨noTable, magic, earlier, later, rfl, none⟩
    · exact ⟨magic, [], rest, rfl, fun before member => by cases member⟩
    · refine ⟨magic, first :: earlier, later, rfl, ?_⟩
      intro before member
      rcases List.mem_cons.mp member with rfl | behind
      · exact noTable
      · exact none before behind

theorem not_tried_nil : ¬ Tried memory bin [] index := by
  intro tried
  obtain ⟨-, earlier, later, same, -⟩ := tried
  cases earlier <;> cases same

/-- What holds of the headers tried: the first one is tried when it is a
header, the others unless it has a call table. -/
theorem forall_tried_cons (P : Nat → Prop) (first : Nat) (rest : List Nat) :
    (∀ index, Tried memory bin (first :: rest) index → P index) ↔
      (isMagic memory bin first = true → P first) ∧
      ((isMagic memory bin first = true →
          ∀ table, ¬ TableAt memory (bin.word (first - 1)) table) →
        ∀ index, Tried memory bin rest index → P index) := by
  constructor
  · intro holds
    constructor
    · intro magic
      exact holds first ((tried_cons first rest first).mpr (Or.inl ⟨magic, rfl⟩))
    · intro noTable index tried
      exact holds index
        ((tried_cons first rest index).mpr (Or.inr ⟨noTable, tried⟩))
  · intro holds index tried
    rcases (tried_cons first rest index).mp tried with
      ⟨magic, rfl⟩ | ⟨noTable, later⟩
    · exact holds.1 magic
    · exact holds.2 noTable index later

theorem no_table_iff (header : BitVec 32) :
    (∀ table, ¬ TableAt memory header table) ↔
      getSBIOSCallTable memory header = 0 := by
  constructor
  · intro none
    by_contra present
    exact none _ ((getSBIOSCallTable_iff memory header _).mp ⟨rfl, present⟩)
  · intro zero table found
    obtain ⟨same, present⟩ := (getSBIOSCallTable_iff memory header table).mpr found
    exact present (same.symm.trans zero)

/-- The loop stops at a header, goes on behind it, or passes no header. -/
theorem searchLoop_cons (first : Nat) (rest : List Nat) (search : Search) :
    (isMagic memory bin first = true ∧
      getSBIOSCallTable memory (bin.word (first - 1)) ≠ 0 ∧
      searchLoop memory bin (first :: rest) search =
        searchHeader memory bin search first) ∨
    (isMagic memory bin first = true ∧
      getSBIOSCallTable memory (bin.word (first - 1)) = 0 ∧
      searchLoop memory bin (first :: rest) search =
        searchLoop memory bin rest (searchHeader memory bin search first)) ∨
    (isMagic memory bin first ≠ true ∧
      searchLoop memory bin (first :: rest) search =
        searchLoop memory bin rest search) := by
  rw [searchLoop]
  by_cases magic : isMagic memory bin first = true
  · rw [if_pos magic]
    by_cases zero : getSBIOSCallTable memory (bin.word (first - 1)) = 0
    · exact Or.inr (Or.inl ⟨magic, zero, if_neg (not_not.mpr zero)⟩)
    · exact Or.inl ⟨magic, zero, if_pos zero⟩
  · exact Or.inr (Or.inr ⟨magic, if_neg magic⟩)

theorem searchLoop_reads (memory : Image) (bin : Sbiosbin)
    (indices : List Nat) (search : Search)
    (inside : ∀ index, index ∈ indices →
      1 ≤ index ∧ 4 * index + 4 ≤ maxSbiosSize) :
    (∀ address, address ∈ (searchLoop memory bin indices search).reads →
      bin.Holds address) ↔
      (∀ address, address ∈ search.reads → bin.Holds address) ∧
        ∀ index, Tried memory bin indices index →
          CodeInside memory bin (bin.word (index - 1)) := by
  induction indices generalizing search with
  | nil => simp [searchLoop, not_tried_nil]
  | cons first rest ih =>
      obtain ⟨positive, fits⟩ := inside first List.mem_cons_self
      have insideRest : ∀ index, index ∈ rest →
          1 ≤ index ∧ 4 * index + 4 ≤ maxSbiosSize :=
        fun index member => inside index (List.mem_cons_of_mem _ member)
      have headerReads (magic : isMagic memory bin first = true) :
          (∀ address,
            address ∈ (searchHeader memory bin search first).reads →
              bin.Holds address) ↔
            (∀ address, address ∈ search.reads → bin.Holds address) ∧
              CodeInside memory bin (bin.word (first - 1)) := by
        rw [← callTableReads_iff positive fits magic]
        exact List.forall_mem_append
      rw [forall_tried_cons]
      simp only [no_table_iff]
      rcases searchLoop_cons first rest search with
        ⟨magic, found, loop⟩ | ⟨magic, none, loop⟩ | ⟨noMagic, loop⟩
      · rw [loop, headerReads magic]
        simp only [magic, found, true_implies, false_implies, and_true]
      · rw [loop, ih _ insideRest, headerReads magic]
        simp [magic, none, and_assoc]
      · rw [loop, ih _ insideRest]
        simp [noMagic]

theorem searchLoop_callTable (memory : Image) (bin : Sbiosbin)
    (Q : BitVec 32 → Prop) (indices : List Nat) (search : Search) (start : search.callTable = 0) :
    ((searchLoop memory bin indices search).callTable ≠ 0 →
      Q (searchLoop memory bin indices search).callTable) ↔
      ∀ index, Tried memory bin indices index →
        ∀ table, TableAt memory (bin.word (index - 1)) table → Q table := by
  induction indices generalizing search with
  | nil => simp [searchLoop, not_tried_nil, start]
  | cons first rest ih =>
      rw [forall_tried_cons]
      simp only [no_table_iff]
      have ofHeader : (∀ table,
            TableAt memory (bin.word (first - 1)) table → Q table) ↔
          (getSBIOSCallTable memory (bin.word (first - 1)) ≠ 0 →
            Q (getSBIOSCallTable memory (bin.word (first - 1)))) := by
        simp only [← getSBIOSCallTable_iff]
        constructor
        · intro holds present
          exact holds _ ⟨rfl, present⟩
        · intro holds table found
          obtain ⟨rfl, present⟩ := found
          exact holds present
      rw [ofHeader]
      rcases searchLoop_cons first rest search with
        ⟨magic, found, loop⟩ | ⟨magic, none, loop⟩ | ⟨noMagic, loop⟩
      · rw [loop]
        have same : (searchHeader memory bin search first).callTable =
            getSBIOSCallTable memory (bin.word (first - 1)) := rfl
        simp only [same, magic, found, true_implies, false_implies, and_true]
      · rw [loop, ih _ none]
        simp [magic, none]
      · rw [loop, ih _ start]
        simp [noMagic]

theorem searchLoop_base (memory : Image) (bin : Sbiosbin)
    (indices : List Nat) (search : Search)
    (start : search.callTable = 0)
    (found : (searchLoop memory bin indices search).callTable ≠ 0) :
    ∃ index, index ∈ indices ∧
      (searchLoop memory bin indices search).sbiosBase =
        sbiosStartAddress + BitVec.ofNat 32 ((index - 1) * 4) ∧
      (searchLoop memory bin indices search).callTable =
        getSBIOSCallTable memory (bin.word (index - 1)) := by
  induction indices generalizing search with
  | nil => exact absurd start found
  | cons first rest ih =>
      rcases searchLoop_cons first rest search with
        ⟨magic, present, loop⟩ | ⟨magic, none, loop⟩ | ⟨noMagic, loop⟩
      · rw [loop]
        exact ⟨first, List.mem_cons_self, rfl, rfl⟩
      · rw [loop] at found ⊢
        obtain ⟨index, member, same⟩ := ih _ none found
        exact ⟨index, List.mem_cons_of_mem _ member, same⟩
      · rw [loop] at found ⊢
        obtain ⟨index, member, same⟩ := ih _ start found
        exact ⟨index, List.mem_cons_of_mem _ member, same⟩

end

/-! ### `load_sbios` -/

/-- A file that is searched leaves the last word of `sbiosbin` unused. -/
theorem fillSbiosbin_size {memory filled : Image} {bin : Sbiosbin}
    {file : SbiosFile} {size : Int}
    (accepted : fillSbiosbin memory bin file = .ok (filled, size)) :
    size < maxSbiosSize := by
  unfold fillSbiosbin at accepted
  dsimp only at accepted
  split at accepted
  · split at accepted
    · cases accepted
    · rename_i passed
      cases accepted
      have bounded : (checkSbios bin file).1.highest <
          sbiosStart + maxSbiosSize := by
        apply highest_lt
        unfold returnCode
        rw [passed]
      have start : physaddr startAddress = sbiosStart := by decide
      unfold sbiosSize toInt32
      rw [start]
      unfold sbiosStart maxSbiosSize at *
      split <;> omega
  · split at accepted
    · cases accepted
    · rename_i small
      cases accepted
      exact Int.not_le.mp small

theorem searchIndices_inside {size : Int} (small : size < maxSbiosSize)
    (index : Nat) (member : index ∈ searchIndices size) :
    1 ≤ index ∧ 4 * index + 4 ≤ maxSbiosSize := by
  unfold searchIndices at member
  rw [List.mem_range'_1] at member
  unfold maxSbiosSize at *
  omega

section

variable {memory filled : Image} {bin : Sbiosbin} {file : SbiosFile}
  {sbiosCallEnabled : Nat → Int} {sbiosBase : BitVec 32} {size : Int}

def Search.initial (sbiosBase : BitVec 32) : Search :=
  { found := false, sbiosBase := sbiosBase, callTable := 0, reads := []
    errors := [] }

theorem loadSbios_search
    (accepted : fillSbiosbin memory bin file = .ok (filled, size)) :
    (loadSbios memory bin (some file) sbiosCallEnabled sbiosBase).search =
      searchLoop filled bin (searchIndices size) (Search.initial sbiosBase) := by
  unfold loadSbios
  simp only [accepted]
  split <;> rfl

theorem loadSbios_writes
    (accepted : fillSbiosbin memory bin file = .ok (filled, size)) :
    let run := loadSbios memory bin (some file) sbiosCallEnabled sbiosBase
    (run.search.callTable = 0 ∧ run.loaded = none ∧ run.writes = []) ∨
      (run.search.callTable ≠ 0 ∧
        run.writes = disabledEntries sbiosCallEnabled run.search.callTable) := by
  unfold loadSbios
  simp only [accepted]
  split
  · rename_i none
    exact Or.inl ⟨none, rfl, rfl⟩
  · rename_i found
    exact Or.inr ⟨found, rfl⟩

theorem loadSbios_reads_iff
    (accepted : fillSbiosbin memory bin file = .ok (filled, size)) :
    (∀ address,
      address ∈ (loadSbios memory bin (some file) sbiosCallEnabled
        sbiosBase).search.reads → bin.Holds address) ↔
      ∀ index, Tried filled bin (searchIndices size) index →
        CodeInside filled bin (bin.word (index - 1)) := by
  rw [loadSbios_search accepted, searchLoop_reads filled bin _ _
    (searchIndices_inside (fillSbiosbin_size accepted))]
  simp [Search.initial]

theorem loadSbios_writes_iff
    (accepted : fillSbiosbin memory bin file = .ok (filled, size)) :
    (∀ address,
      address ∈ (loadSbios memory bin (some file) sbiosCallEnabled
        sbiosBase).writes → bin.Holds address) ↔
      ∀ index, Tried filled bin (searchIndices size) index →
        ∀ table, TableAt filled (bin.word (index - 1)) table →
          TableInside bin sbiosCallEnabled table := by
  rw [← searchLoop_callTable filled bin (TableInside bin sbiosCallEnabled)
    (searchIndices size) (Search.initial sbiosBase) rfl]
  have search : (loadSbios memory bin (some file) sbiosCallEnabled
      sbiosBase).search = _ := loadSbios_search accepted
  rw [← search]
  rcases loadSbios_writes accepted with ⟨none, -, empty⟩ | ⟨found, entries⟩
  · rw [empty]
    constructor
    · intro _holds present
      exact absurd none present
    · intro _holds address member
      cases member
  · rw [entries, tableInside_iff]
    constructor
    · intro holds _found
      exact holds
    · intro holds
      exact holds found

theorem loadSbios_base
    (accepted : fillSbiosbin memory bin file = .ok (filled, size)) :
    let run := loadSbios memory bin (some file) sbiosCallEnabled sbiosBase
    run.loaded ≠ none → ∃ header : Nat,
      4 * header + 8 ≤ maxSbiosSize ∧
        run.search.sbiosBase =
          sbiosStartAddress + BitVec.ofNat 32 (4 * header) ∧
        run.search.callTable = getSBIOSCallTable filled (bin.word header) := by
  intro run isLoaded
  have found : run.search.callTable ≠ 0 := by
    rcases loadSbios_writes accepted with ⟨-, notLoaded, -⟩ | ⟨found, -⟩
    · exact absurd notLoaded isLoaded
    · exact found
  have search : run.search = _ := loadSbios_search accepted
  rw [search] at found ⊢
  obtain ⟨index, member, sameBase, sameTable⟩ :=
    searchLoop_base filled bin (searchIndices size) (Search.initial sbiosBase)
      rfl found
  have bounds := searchIndices_inside (fillSbiosbin_size accepted) index member
  refine ⟨index - 1, by omega, ?_, sameTable⟩
  rw [sameBase, Nat.mul_comm]

end

/-- The search and the changes of the call table stay in `sbiosbin` exactly
when the code of every header that is tried and the entries of its call table
do. -/
theorem loadSbios_access_iff (memory : Image) (bin : Sbiosbin)
    (file : SbiosFile) (sbiosCallEnabled : Nat → Int) (sbiosBase : BitVec 32)
    (filled : Image) (size : Int)
    (accepted : fillSbiosbin memory bin file = .ok (filled, size)) :
    AccessSafe bin filled
        (loadSbios memory bin (some file) sbiosCallEnabled sbiosBase) ↔
      SearchInside filled bin size sbiosCallEnabled := by
  constructor
  · intro safe index tried
    exact ⟨(loadSbios_reads_iff accepted).mp safe.reads index tried,
      (loadSbios_writes_iff accepted).mp safe.writes index tried⟩
  · intro inside
    exact
      { reads := (loadSbios_reads_iff accepted).mpr fun index tried =>
          (inside index tried).1
        writes := (loadSbios_writes_iff accepted).mpr fun index tried =>
          (inside index tried).2
        base := loadSbios_base accepted }

def filledWith (file : SbiosFile) : Image :=
  writeCells (clearSbiosbin (fun _ => 0) loaderSbiosbin)
    ((kmemcpy loaderSbiosbin.address file.bytes (u32OfInt file.size)).flatMap
      (Store.cells u32))

def calledSbios : SbiosFile where
  bytes := calledTable
  size := 64

def withoutCall (disabled index : Nat) : Int :=
  if index = disabled then 0 else 1

theorem calledSbios_inside :
    AccessSafe loaderSbiosbin (filledWith calledSbios)
      (loadSbios (fun _ => 0) loaderSbiosbin (some calledSbios)
        (withoutCall 5) 0) := by
  have accepted : fillSbiosbin (fun _ => 0) loaderSbiosbin calledSbios =
      .ok (filledWith calledSbios, 64) := rfl
  have table : getSBIOSCallTable (filledWith calledSbios)
      (loaderSbiosbin.word 0) = 0x18073C8 := by
    decide +kernel
  apply (loadSbios_access_iff (fun _ => 0) loaderSbiosbin calledSbios
    (withoutCall 5) 0 (filledWith calledSbios) 64 accepted).mpr
  intro index tried
  have first : index = 1 := by
    rcases (tried_cons 1 (List.range' 2 14) index).mp tried with
      ⟨-, same⟩ | ⟨noTable, -⟩
    · exact same
    · have none := (no_table_iff _).mp (noTable (by decide +kernel))
      rw [Nat.sub_self, table] at none
      cases none
  rw [first]
  constructor
  · intro _fits
    have whole : numberOfInstructionsChecked ≤ loaderSbiosbin.room
        (entrypoint (filledWith calledSbios) (loaderSbiosbin.word 0)) := by
      decide +kernel
    exact ⟨by decide +kernel, Nat.le_trans (by decide) whole, Or.inl whole⟩
  · intro found isTable disabled isDisabled _outermost
    obtain ⟨same, -⟩ := (getSBIOSCallTable_iff _ _ found).mpr isTable
    have isFive : disabled = 5 := by
      by_contra other
      have enabled := isDisabled.2
      rw [withoutCall, if_neg other] at enabled
      cases enabled
    rw [Nat.sub_self, table] at same
    rw [isFive, ← same]
    unfold Sbiosbin.Holds
    decide

def strayEntry : SbiosFile where
  bytes := imageOfList ([0x80000000, magicCheck].flatMap (bytesLe 4))
  size := 8

theorem strayEntry_outside :
    fillSbiosbin (fun _ => 0) loaderSbiosbin strayEntry =
        .ok (filledWith strayEntry, 8) ∧
      ¬ AccessSafe loaderSbiosbin (filledWith strayEntry)
        (loadSbios (fun _ => 0) loaderSbiosbin (some strayEntry)
          (fun _ => 1) 0) := by
  have accepted : fillSbiosbin (fun _ => 0) loaderSbiosbin strayEntry =
      .ok (filledWith strayEntry, 8) := rfl
  refine ⟨accepted, ?_⟩
  intro safe
  have tried : Tried (filledWith strayEntry) loaderSbiosbin (searchIndices 8) 1 :=
    ⟨by decide +kernel, [], [], rfl, fun before member => by cases member⟩
  have inside := (loadSbios_reads_iff accepted).mp safe.reads 1 tried
  have entry : entrypoint (filledWith strayEntry) (loaderSbiosbin.word 0) =
      0x17FF000 := by
    decide +kernel
  unfold CodeInside at inside
  rw [Nat.sub_self, entry] at inside
  exact absurd (inside (by decide)).1 (by decide)

end KernelReloaded.SbiosLoading

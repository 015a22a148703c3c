/-
The table of the files in the ROM.

A table is recognized by its first entry: it lies behind the file RESET, and so
the padded size in the entry is the offset of the entry itself.  The address of a
file is the sum of the padded sizes before it.
-/

import KernelReloaded.Core.Rounding
import KernelReloaded.Sbios.StrNCmp
import Mathlib.Data.List.GetD
import Mathlib.Tactic.Common

namespace KernelReloaded.RomDir

open Rounding StrNCmp

abbrev Word := BitVec 32

abbrev Memory := Word → Char8

/-! ### The code -/

/-- The size of a `romentry_t`. -/
def entrySize : Word := 16

def entryName (memory : Memory) (romdir : Word) (index : Nat) : Char8 :=
  memory (romdir + BitVec.ofNat 32 index)

/-- Behind ten characters and the size of the information in EXTINFO. -/
def entryFileSize (memory : Memory) (romdir : Word) : Word :=
  memory (romdir + 15) ++ memory (romdir + 14) ++ memory (romdir + 13) ++
    memory (romdir + 12)

def paddedSize (size : Word) : Word :=
  size + entrySize - 1 &&& ~~~(entrySize - 1)

/-- `RESET`. -/
def resetName : List Char8 := [0x52, 0x45, 0x53, 0x45, 0x54]

/-- `ROMGSCRT`. -/
def romgscrtName : List Char8 :=
  [0x52, 0x4f, 0x4d, 0x47, 0x53, 0x43, 0x52, 0x54]

/-- Nothing is returned as long as the rounds do not suffice; a result that is
`none` is the null pointer. -/
def getRomdirFrom (memory : Memory) :
    Nat → (offset romdir : Word) → Option (Option Word)
  | 0, _, _ => none
  | rounds + 1, offset, romdir =>
      if offset.ult 0x10000 then
        if strncmp (entryName memory romdir) (CString.ofList resetName).char 6 = 0 ∧
            paddedSize (entryFileSize memory romdir) = offset then
          some (some romdir)
        else
          getRomdirFrom memory rounds (offset + entrySize) (romdir + entrySize)
      else some none

def getRomdir (memory : Memory) (rounds : Nat) (romAddr : Word) :
    Option (Option Word) :=
  getRomdirFrom memory rounds 0 romAddr

def getRomgscrtFrom (memory : Memory) :
    Nat → (addr romdir : Word) → Option (Option Word)
  | 0, _, _ => none
  | rounds + 1, addr, romdir =>
      if entryName memory romdir 0 ≠ 0 then
        if strncmp (entryName memory romdir)
            (CString.ofList romgscrtName).char 9 = 0 then
          some (some addr)
        else
          getRomgscrtFrom memory rounds
            (addr + paddedSize (entryFileSize memory romdir)) (romdir + entrySize)
      else some none

/-- The first ROM. -/
def romAddr : Word := 0xBFC00000

def getRomgscrt (memory : Memory) (rounds : Nat) : Option (Option Word) :=
  match getRomdir memory rounds romAddr with
  | none => none
  | some none => some none
  | some (some romdir) => getRomgscrtFrom memory rounds romAddr romdir

/-! ### Images -/

def Holds (memory : Memory) (address : Word) (bytes : List Char8) : Prop :=
  ∀ index (inside : index < bytes.length),
    memory (address + BitVec.ofNat 32 index) = bytes[index]

instance (memory : Memory) (address : Word) (bytes : List Char8) :
    Decidable (Holds memory address bytes) :=
  inferInstanceAs (Decidable (∀ index (inside : index < bytes.length),
    memory (address + BitVec.ofNat 32 index) = bytes[index]))

structure RomFile where
  name : List Char8
  content : List Char8
  named : name ≠ []
  noNul : 0 ∉ name
  short : name.length ≤ 10
  sized : content.length < 4294967296

/-- With the padding. -/
def RomFile.stored (file : RomFile) : Nat := (file.content.length + 15) / 16 * 16

/-- The offset of a file behind the ones before it. -/
def start : List RomFile → Nat → Nat
  | file :: files, index + 1 => file.stored + start files index
  | _, _ => 0

/-- A name of ten characters fills its field. -/
structure Describes (memory : Memory) (romdir : Word) (file : RomFile) : Prop where
  name : Holds memory romdir ((file.name ++ [0]).take 10)
  size : entryFileSize memory romdir = BitVec.ofNat 32 file.content.length

/-- A table of the files, up to an entry with an empty name. -/
def DescribesAll (memory : Memory) : Word → List RomFile → Prop
  | romdir, [] => entryName memory romdir 0 = 0
  | romdir, file :: files =>
      Describes memory romdir file ∧
        DescribesAll memory (romdir + entrySize) files

structure RomImage (base : Word) where
  memory : Memory
  reset : RomFile
  files : List RomFile
  isReset : reset.name = resetName
  stored : ∀ index file, (reset :: files)[index]? = some file →
    Holds memory (base + BitVec.ofNat 32 (start (reset :: files) index))
      file.content
  table : DescribesAll memory (base + BitVec.ofNat 32 reset.stored)
    (reset :: files)
  inFirst : reset.stored < 0x10000
  /-- No earlier record is taken for the table. -/
  noEarlier : ∀ offset < reset.stored, offset % 16 = 0 →
    Holds memory (base + BitVec.ofNat 32 offset) (resetName ++ [0]) →
    paddedSize (entryFileSize memory (base + BitVec.ofNat 32 offset)) ≠
      BitVec.ofNat 32 offset

/-- Right behind the first file. -/
def RomImage.tableAddress {base : Word} (image : RomImage base) : Word :=
  base + BitVec.ofNat 32 image.reset.stored

/-- The address of the first file with a name. -/
def RomImage.find {base : Word} (image : RomImage base) (name : List Char8) :
    Option Word :=
  ((image.reset :: image.files).findIdx? fun file => file.name = name).map
    fun index => base + BitVec.ofNat 32 (start (image.reset :: image.files) index)

/-! ### Names and sizes -/

theorem toNat_paddedSize (size : Word) :
    (paddedSize size).toNat = (size.toNat + 15) / 16 * 16 % 4294967296 := by
  have isMask : entrySize - 1 = lowBits 32 4 := by decide
  rw [paddedSize, toNat_roundUp isMask (by decide)]
  omega

theorem paddedSize_stored (file : RomFile) :
    paddedSize (BitVec.ofNat 32 file.content.length) =
      BitVec.ofNat 32 file.stored := by
  have sized := file.sized
  apply BitVec.eq_of_toNat_eq
  rw [toNat_paddedSize, BitVec.toNat_ofNat, BitVec.toNat_ofNat, RomFile.stored]
  omega

theorem getElem_ended (text : List Char8) (index : Nat)
    (inside : index < (text ++ [0]).length) :
    (text ++ [0])[index] = (CString.ofList text).char index := by
  rw [List.getElem_append]
  split
  case isTrue within => exact (List.getD_eq_getElem text 0 within).symm
  case isFalse behind =>
    rw [List.getElem_singleton]
    exact (List.getD_eq_default text 0 (Nat.not_lt.mp behind)).symm

theorem strncmp_name_iff {memory : Memory} {romdir : Word} {text : List Char8}
    {len : Nat} (noNul : 0 ∉ text) (beyond : text.length < len) :
    strncmp (entryName memory romdir) (CString.ofList text).char len = 0 ↔
      Holds memory romdir (text ++ [0]) := by
  rw [strncmp_literal noNul beyond]
  constructor
  · intro same index inside
    rw [getElem_ended]
    exact same index (by simpa using Nat.le_of_lt_succ (by simpa using inside))
  · intro holds index within
    have inside : index < (text ++ [0]).length := by
      simpa using Nat.lt_succ_of_le within
    rw [← getElem_ended text index inside]
    exact holds index inside

theorem char_of_holds {memory : Memory} {romdir : Word} {text : List Char8}
    (holds : Holds memory romdir (text ++ [0])) {index : Nat}
    (inside : index < text.length) :
    memory (romdir + BitVec.ofNat 32 index) = text[index] := by
  rw [holds index (by rw [List.length_append]; omega),
    List.getElem_append_left inside]

theorem nul_of_holds {memory : Memory} {romdir : Word} {text : List Char8}
    (holds : Holds memory romdir (text ++ [0])) :
    memory (romdir + BitVec.ofNat 32 text.length) = 0 := by
  rw [holds text.length (by rw [List.length_append]; exact Nat.lt_succ_self _),
    List.getElem_concat_length rfl]

theorem char_of_describes {memory : Memory} {romdir : Word} {file : RomFile}
    (described : Describes memory romdir file) {index : Nat}
    (inside : index < file.name.length) :
    memory (romdir + BitVec.ofNat 32 index) = file.name[index] := by
  have short := file.short
  have within : index < ((file.name ++ [0]).take 10).length := by
    rw [List.length_take, List.length_append]
    omega
  rw [described.name index within, List.getElem_take,
    List.getElem_append_left inside]

/-- Behind the name there is a NUL if the field has room for it. -/
theorem describes_nul {memory : Memory} {romdir : Word} {file : RomFile}
    (described : Describes memory romdir file) (small : file.name.length < 10) :
    Holds memory romdir (file.name ++ [0]) := by
  have whole : (file.name ++ [0]).take 10 = file.name ++ [0] := by
    apply List.take_of_length_le
    rw [List.length_append, List.length_singleton]
    exact small
  rw [← whole]
  exact described.name

theorem holds_name_iff {memory : Memory} {romdir : Word} {file : RomFile}
    {text : List Char8} (described : Describes memory romdir file)
    (noNul : 0 ∉ text) (small : text.length < 10) :
    Holds memory romdir (text ++ [0]) ↔ file.name = text := by
  constructor
  · intro holds
    have sameLength : file.name.length = text.length := by
      rcases Nat.lt_trichotomy file.name.length text.length
        with shorter | same | longer
      · have ended := nul_of_holds (describes_nul described (by omega))
        rw [char_of_holds holds shorter] at ended
        exact absurd (ended ▸ List.getElem_mem shorter) noNul
      · exact same
      · have ended := nul_of_holds holds
        rw [char_of_describes described longer] at ended
        exact absurd (ended ▸ List.getElem_mem longer) file.noNul
    apply List.ext_getElem sameLength
    intro index inside within
    rw [← char_of_describes described inside, char_of_holds holds within]
  · rintro rfl
    exact describes_nul described small

/-! ### The table -/

theorem reset_noNul : 0 ∉ resetName := by decide

theorem romgscrt_noNul : 0 ∉ romgscrtName := by decide

theorem word_add (base : Word) (first second : Nat) :
    base + BitVec.ofNat 32 first + BitVec.ofNat 32 second =
      base + BitVec.ofNat 32 (first + second) := by
  rw [BitVec.add_assoc, BitVec.ofNat_add]

theorem ult_limit {offset : Nat} (below : offset < 0x10000) :
    (BitVec.ofNat 32 offset).ult 0x10000 := by
  have limit : (0x10000 : Word).toNat = 65536 := rfl
  rw [BitVec.ult, BitVec.toNat_ofNat, limit]
  exact decide_eq_true (by omega)

theorem getRomdirFrom_image {base : Word} (image : RomImage base)
    (left rounds offset : Nat) (enough : left < rounds)
    (behind : offset + 16 * left = image.reset.stored) :
    getRomdirFrom image.memory rounds (BitVec.ofNat 32 offset)
        (base + BitVec.ofNat 32 offset) =
      some (some (base + BitVec.ofNat 32 image.reset.stored)) := by
  have inFirst := image.inFirst
  induction left generalizing rounds offset with
  | zero =>
      obtain ⟨rounds, rfl⟩ :=
        Nat.exists_eq_succ_of_ne_zero (Nat.ne_zero_of_lt enough)
      have isTable : offset = image.reset.stored := behind
      have described := image.table.1
      rw [← isTable] at described
      have named := (holds_name_iff described reset_noNul (by decide)).mpr
        image.isReset
      rw [getRomdirFrom, if_pos (ult_limit (by omega)), if_pos, isTable]
      refine ⟨(strncmp_name_iff reset_noNul (by decide)).mpr named, ?_⟩
      rw [described.size, paddedSize_stored, isTable]
  | succ left ih =>
      obtain ⟨rounds, rfl⟩ :=
        Nat.exists_eq_succ_of_ne_zero (Nat.ne_zero_of_lt enough)
      have aligned : image.reset.stored % 16 = 0 := Nat.mul_mod_left _ 16
      rw [getRomdirFrom, if_pos (ult_limit (by omega)), if_neg]
      · have onward := ih rounds (offset + 16) (by omega) (by omega)
        rw [← word_add, BitVec.ofNat_add] at onward
        exact onward
      · rintro ⟨named, padded⟩
        rw [strncmp_name_iff reset_noNul (by decide)] at named
        exact image.noEarlier offset (by omega) (by omega) named padded

theorem getRomdir_image {base : Word} (image : RomImage base) {rounds : Nat}
    (enough : 0x1000 ≤ rounds) :
    getRomdir image.memory rounds base =
      some (some (base + BitVec.ofNat 32 image.reset.stored)) := by
  have inFirst := image.inFirst
  have aligned : image.reset.stored % 16 = 0 := Nat.mul_mod_left _ 16
  have found := getRomdirFrom_image image (image.reset.stored / 16) rounds 0
    (by omega) (by omega)
  rw [BitVec.add_zero] at found
  exact found

/-! ### The file -/

theorem describes_named {memory : Memory} {romdir : Word} {file : RomFile}
    (described : Describes memory romdir file) :
    entryName memory romdir 0 ≠ 0 := by
  have some : 0 < file.name.length := List.length_pos_iff.mpr file.named
  rw [entryName, char_of_describes described some]
  intro ended
  exact file.noNul (ended ▸ List.getElem_mem some)

theorem getRomgscrtFrom_described {memory : Memory} {files : List RomFile}
    {addr romdir : Word} (described : DescribesAll memory romdir files)
    {rounds : Nat} (enough : files.length < rounds) :
    getRomgscrtFrom memory rounds addr romdir =
      some ((files.findIdx? fun file => file.name = romgscrtName).map
        fun index => addr + BitVec.ofNat 32 (start files index)) := by
  induction files generalizing addr romdir rounds with
  | nil =>
      obtain ⟨rounds, rfl⟩ :=
        Nat.exists_eq_succ_of_ne_zero (Nat.ne_zero_of_lt enough)
      have last : entryName memory romdir 0 = 0 := described
      rw [getRomgscrtFrom, if_neg (not_not.mpr last)]
      rfl
  | cons file files ih =>
      obtain ⟨rounds, rfl⟩ :=
        Nat.exists_eq_succ_of_ne_zero (Nat.ne_zero_of_lt enough)
      obtain ⟨first, rest⟩ := described
      have compared : strncmp (entryName memory romdir)
          (CString.ofList romgscrtName).char 9 = 0 ↔ file.name = romgscrtName :=
        (strncmp_name_iff romgscrt_noNul (by decide)).trans
          (holds_name_iff first romgscrt_noNul (by decide))
      rw [getRomgscrtFrom, if_pos (describes_named first), List.findIdx?_cons]
      by_cases named : file.name = romgscrtName
      · rw [if_pos (compared.mpr named), if_pos (decide_eq_true named)]
        exact congrArg some (congrArg some (BitVec.add_zero addr).symm)
      · rw [if_neg (mt compared.mp named), if_neg (by simpa using named),
          first.size, paddedSize_stored,
          ih rest (Nat.lt_of_succ_lt_succ enough), Option.map_map]
        congr 2
        funext index
        rw [word_add]
        rfl

theorem getRomgscrt_find (image : RomImage romAddr) {rounds : Nat}
    (enough : 0x1000 ≤ rounds) (all : image.files.length + 1 < rounds) :
    getRomgscrt image.memory rounds = some (image.find romgscrtName) := by
  rw [getRomgscrt, getRomdir_image image enough]
  exact getRomgscrtFrom_described image.table all

theorem getRomdir_getRomgscrt_image :
    (∀ (base : Word) (image : RomImage base), ∃ enough, ∀ rounds ≥ enough,
      getRomdir image.memory rounds base = some (some image.tableAddress)) ∧
    ∀ image : RomImage romAddr, ∃ enough, ∀ rounds ≥ enough,
      getRomgscrt image.memory rounds = some (image.find romgscrtName) := by
  constructor
  · intro base image
    exact ⟨0x1000, fun rounds enough => getRomdir_image image enough⟩
  · intro image
    refine ⟨0x1000 + image.files.length + 2, ?_⟩
    intro rounds enough
    exact getRomgscrt_find image (by omega) (by omega)

/-- `ROMDIR`. -/
def romdirName : List Char8 := [0x52, 0x4f, 0x4d, 0x44, 0x49, 0x52]

/-- The table of three files, the second of them the table itself. -/
def smallTable : List Char8 :=
  resetName ++ [0, 0, 0, 0, 0, 0, 0, 1, 0, 0, 0] ++
    romdirName ++ [0, 0, 0, 0, 0, 0, 64, 0, 0, 0] ++
    romgscrtName ++ [0, 0, 0, 0, 2, 0, 0, 0] ++ List.replicate 16 0

def smallBytes : List Char8 := 7 :: List.replicate 15 0 ++ smallTable ++ [0x52, 0x45]

def smallImage : RomImage romAddr where
  memory address := smallBytes.getD (address - romAddr).toNat 0
  reset := ⟨resetName, [7], by decide, by decide, by decide, by decide⟩
  files :=
    [⟨romdirName, smallTable, by decide, by decide, by decide, by decide⟩,
      ⟨romgscrtName, [0x52, 0x45], by decide, by decide, by decide, by decide⟩]
  isReset := rfl
  stored := by
    intro index file found
    match index, found with
    | 0, found =>
        cases found
        decide
    | 1, found =>
        cases found
        decide +kernel
    | 2, found =>
        cases found
        decide
  table := by
    refine ⟨⟨?_, ?_⟩, ⟨?_, ?_⟩, ⟨?_, ?_⟩, rfl⟩ <;> decide
  inFirst := by decide
  noEarlier := by
    intro offset below aligned named
    obtain rfl : offset = 0 := by
      have stored : offset < 16 := below
      omega
    exact absurd (named 0 (by decide)) (by decide)

example : getRomgscrt smallImage.memory 4 = some (some (romAddr + 80)) := by
  decide

end KernelReloaded.RomDir

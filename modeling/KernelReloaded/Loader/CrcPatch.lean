/-
The patcher `tools/crc32gen` and the loader's check of its own sections.

`fix_segments` maps an ELF file and stores into each entry of the `.crc32`
section the CRC and the file offset of the section the entry names;
`crc32check` recomputes the CRCs over the running image.  Words of the file are
little-endian, as on the host.  The C string at a place of the file ends with a
NUL or with the file.

The ELF format keeps the file header, the header table, the strings and the
sections apart from each other; this is part of what is called a file here.
-/

import KernelReloaded.Core.Memory
import KernelReloaded.Loader.Crc32
import Mathlib.Data.List.Find

namespace KernelReloaded.CrcPatch

open Memory

/-! ### Reading a file -/

def cstringAt (image : Image) : (fuel pos : Nat) → List Byte
  | 0, _ => []
  | fuel + 1, pos =>
      if image pos = 0 then []
      else image pos :: cstringAt image fuel (pos + 1)

def readBytes (image : Image) (pos size : Nat) : List Byte :=
  (List.range size).map fun index => image (pos + index)

/-- A store into a `uint32_t`. -/
def storeWord (image : Image) (pos word : Nat) : Image := fun address =>
  if pos ≤ address ∧ address < pos + 4 then
    BitVec.ofNat 8 (word >>> (8 * (address - pos)))
  else image address

/-- The fields of `Elf32_Shdr` that are used. -/
structure SectionHeader where
  name : Nat
  offset : Nat
  size : Nat
deriving DecidableEq

def sectionHeader (image : Image) (index : Nat) : SectionHeader :=
  let pos := le32 image 32 + 40 * index
  { name := le32 image pos
    offset := le32 image (pos + 16)
    size := le32 image (pos + 20) }

def shnum (image : Image) : Nat := le16 image 48

def stringTable (image : Image) : SectionHeader :=
  sectionHeader image (le16 image 50)

def sectionName (fileSize : Nat) (image : Image) (index : Nat) : List Byte :=
  let pos := (stringTable image).offset + (sectionHeader image index).name
  cstringAt image (fileSize - pos) pos

/-- The first section of a name. -/
def findSection (fileSize : Nat) (image : Image) (segment : List Byte) :
    Option SectionHeader :=
  ((List.range (shnum image)).find? fun index =>
    sectionName fileSize image index = segment).map (sectionHeader image)

/-! ### `crc32gen` -/

def hasElfMagic (image : Image) : Bool :=
  image 0 = 0x7f ∧ image 1 = 0x45 ∧ image 2 = 0x4c ∧ image 3 = 0x46

/-- The size goes through an `int`; `none` is the result -1 with `addr` left
alone. -/
def findSegment (fileSize : Nat) (image : Image) (segment : List Byte) :
    Option (Int × Nat) :=
  if hasElfMagic image then
    (findSection fileSize image segment).map fun header =>
      (toInt32 header.size, header.offset)
  else none

/-- The bytes of ".crc32". -/
def crc32Name : List Byte := [0x2e, 0x63, 0x72, 0x63, 0x33, 0x32]

/-- The size of `crc32_section_t`. -/
def entrySize : Nat := 48

def entryName (fileSize : Nat) (image : Image) (entry : Nat) : List Byte :=
  cstringAt image (fileSize - (entry + 16)) (entry + 16)

def storeEntry (image : Image) (entry : Nat) (crc : BitVec 32)
    (fileoffset : Nat) : Image :=
  storeWord (storeWord image entry crc.toNat) (entry + 4) fileoffset

/-- One pass of the loop in `fix_segments`. -/
def fixEntry (fileSize patchaddr : Nat) (image : Image) (index : Nat) : Image :=
  let entry := patchaddr + entrySize * index
  match findSegment fileSize image (entryName fileSize image entry) with
  | some (size, addr) =>
      if 0 < size then
        storeEntry image entry
          (Crc32Gen.calcCrc (readBytes image addr size.toNat)) addr
      else image
  | none => image

def fixSegments (fileSize : Nat) (image : Image) : Image :=
  match findSegment fileSize image crc32Name with
  | some (size, patchaddr) =>
      if (entrySize : Int) ≤ size then
        (List.range (size.toNat / entrySize)).foldl
          (fixEntry fileSize patchaddr) image
      else image
  | none => image

/-! ### `crc32check` -/

/-- The loop over the entries of the table; the difference of two pointers is a
signed word. -/
def checkEntries (memory : Image) (table : Nat) :
    Crc32Check.CrcStatics → List Nat → Int
  | _, [] => 0
  | statics, index :: rest =>
      let entry := table + entrySize * index
      let start := le32 memory (entry + 8)
      let stop := le32 memory (entry + 12)
      let size := toInt32 (stop + 4294967296 - start)
      let result := Crc32Check.calcCrc statics
        (readBytes memory start size.toNat)
      if BitVec.ofNat 32 (le32 memory entry) ≠ result.1 then -1
      else checkEntries memory table result.2 rest

def crc32check (memory : Image) (table sections : Nat)
    (statics : Crc32Check.CrcStatics) : Int :=
  checkEntries memory table statics (List.range sections)

/-! ### Files with a `.crc32` section -/

/-- A range of the file that shares no byte with a section. -/
def Apart (offset size : Nat) (section' : SectionHeader) : Prop :=
  offset + size ≤ section'.offset ∨ section'.offset + section'.size ≤ offset

instance (offset size : Nat) (header : SectionHeader) :
    Decidable (Apart offset size header) :=
  inferInstanceAs (Decidable (_ ∨ _))

/-- An ELF32 file with a `.crc32` section of complete entries, and the sections
they name. -/
structure CrcFile where
  image : Image
  fileSize : Nat
  crc : SectionHeader
  named : Nat → SectionHeader
  magic : hasElfMagic image = true
  strings : le16 image 50 < shnum image
  stringsEnd : 0 < (stringTable image).size ∧
    image ((stringTable image).offset + (stringTable image).size - 1) = 0
  stringsInside : (stringTable image).offset + (stringTable image).size ≤
    fileSize
  names : ∀ index < shnum image,
    (sectionHeader image index).name < (stringTable image).size
  headerApart : Apart 0 52 crc
  tableApart : Apart (le32 image 32) (40 * shnum image) crc
  stringsApart : Apart (stringTable image).offset (stringTable image).size crc
  crcFound : findSection fileSize image crc32Name = some crc
  crcInside : crc.offset + crc.size ≤ fileSize
  terminated : ∀ index < crc.size / entrySize, ∃ length < 32,
    image (crc.offset + entrySize * index + 16 + length) = 0
  found : ∀ index < crc.size / entrySize,
    findSection fileSize image
      (entryName fileSize image (crc.offset + entrySize * index)) =
        some (named index)
  nonempty : ∀ index < crc.size / entrySize, 0 < (named index).size
  inside : ∀ index < crc.size / entrySize,
    (named index).offset + (named index).size ≤ fileSize
  apart : ∀ index < crc.size / entrySize,
    Apart (named index).offset (named index).size crc

namespace CrcFile

variable (file : CrcFile)

def entries : Nat := file.crc.size / entrySize

def entry (index : Nat) : Nat := file.crc.offset + entrySize * index

def fixed : Image := fixSegments file.fileSize file.image

def sectionBytes (image : Image) (index : Nat) : List Byte :=
  readBytes image (file.named index).offset (file.named index).size

def entryCrc (image : Image) (index : Nat) : BitVec 32 :=
  BitVec.ofNat 32 (le32 image (file.entry index))

/-- The `crc` or `fileoffset` field of an entry. -/
def Patched (address : Nat) : Prop :=
  ∃ index < file.entries,
    file.entry index ≤ address ∧ address < file.entry index + 8

/-- The table and the sections of the fixed file lie in memory, each section
from `start` to `end` of its entry. -/
structure Loaded (memory : Image) (table : Nat) : Prop where
  table : ∀ offset < entrySize * file.entries,
    memory (table + offset) = file.fixed (file.crc.offset + offset)
  bounds : ∀ index < file.entries,
    le32 file.fixed (file.entry index + 8) + (file.named index).size =
      le32 file.fixed (file.entry index + 12)
  sections : ∀ index < file.entries, ∀ offset < (file.named index).size,
    memory (le32 file.fixed (file.entry index + 8) + offset) =
      file.fixed ((file.named index).offset + offset)

/-- What the two programs promise together. -/
structure Fixed : Prop where
  crcs : ∀ index < file.entries,
    findSection file.fileSize file.fixed
        (entryName file.fileSize file.fixed (file.entry index)) =
      some (file.named index) ∧
    file.entryCrc file.fixed index =
      Crc32Gen.calcCrc (file.sectionBytes file.fixed index)
  frame : ∀ address, ¬ file.Patched address →
    file.fixed address = file.image address
  again : fixSegments file.fileSize file.fixed = file.fixed
  checked : ∀ memory table statics, file.Loaded memory table →
    crc32check memory table file.entries statics = 0

/-- The size of the entry's section, or of the table itself, is negative as an
`int`. -/
def Skipped (index : Nat) : Prop :=
  2147483648 ≤ file.crc.size ∨ 2147483648 ≤ (file.named index).size

/-- Skipped entries must have been right before, and a section whose size is
negative is checked like an empty one. -/
structure FixMet : Prop where
  kept : ∀ index < file.entries, file.Skipped index →
    file.entryCrc file.image index =
      Crc32Gen.calcCrc (file.sectionBytes file.image index)
  unread : (∃ memory table, file.Loaded memory table) →
    ∀ index < file.entries, 2147483648 ≤ (file.named index).size →
      Crc32Gen.calcCrc (file.sectionBytes file.image index) = 0#32

end CrcFile

/-! ### What reads depend on -/

/-- A string is decided by the bytes up to a NUL. -/
theorem cstringAt_congr {left right : Image} (fuel : Nat) {pos stop : Nat}
    (before : pos ≤ stop) (ends : left stop = 0)
    (same : ∀ address, pos ≤ address → address ≤ stop →
      left address = right address) :
    cstringAt left fuel pos = cstringAt right fuel pos := by
  induction fuel generalizing pos with
  | zero => rfl
  | succ fuel ih =>
      rw [cstringAt, cstringAt, ← same pos (Nat.le_refl pos) before]
      by_cases nul : left pos = 0
      · rw [if_pos nul, if_pos nul]
      · have notStop : pos ≠ stop := by
          rintro rfl
          exact nul ends
        rw [if_neg nul, if_neg nul, ih (by omega) fun address behind =>
          same address (by omega)]

theorem readBytes_congr {left right : Image} {leftPos rightPos size : Nat}
    (same : ∀ offset < size,
      left (leftPos + offset) = right (rightPos + offset)) :
    readBytes left leftPos size = readBytes right rightPos size := by
  apply List.map_congr_left
  intro offset member
  exact same offset (List.mem_range.mp member)

/-! ### Stores -/

theorem storeWord_outside {image : Image} {pos word address : Nat}
    (outside : address < pos ∨ pos + 4 ≤ address) :
    storeWord image pos word address = image address := by
  rw [storeWord, if_neg (by omega)]

theorem storeWord_inside {image : Image} {pos word offset : Nat}
    (inside : offset < 4) :
    storeWord image pos word (pos + offset) =
      BitVec.ofNat 8 (word >>> (8 * offset)) := by
  rw [storeWord, if_pos (by omega), Nat.add_sub_cancel_left]

theorem le32_storeWord {image : Image} {pos word : Nat}
    (fits : word < 4294967296) : le32 (storeWord image pos word) pos = word := by
  have byte (offset : Nat) (inside : offset < 4) :
      (storeWord image pos word (pos + offset)).toNat =
        word / 2 ^ (8 * offset) % 256 := by
    rw [storeWord_inside inside, BitVec.toNat_ofNat, Nat.shiftRight_eq_div_pow]
  have first := byte 0 (by omega)
  rw [Nat.add_zero] at first
  rw [le32, le16, le16, Nat.add_assoc, first, byte 1 (by omega),
    byte 2 (by omega), byte 3 (by omega)]
  omega

theorem le32_storeWord_apart {image : Image} {pos other word : Nat}
    (apart : other + 4 ≤ pos ∨ pos + 4 ≤ other) :
    le32 (storeWord image pos word) other = le32 image other := by
  apply le32_congr
  intro offset inside
  exact storeWord_outside (by omega)

/-- Storing the word that is there changes nothing. -/
theorem storeWord_self {image : Image} {pos word : Nat}
    (there : le32 image pos = word) : storeWord image pos word = image := by
  funext address
  by_cases inside : pos ≤ address ∧ address < pos + 4
  · obtain ⟨offset, rfl⟩ := Nat.exists_eq_add_of_le inside.1
    have low := (image pos).isLt
    have second := (image (pos + 1)).isLt
    have third := (image (pos + 2)).isLt
    have high := (image (pos + 2 + 1)).isLt
    rw [storeWord_inside (by omega)]
    apply BitVec.eq_of_toNat_eq
    rw [BitVec.toNat_ofNat, Nat.shiftRight_eq_div_pow, ← there, le32, le16, le16]
    have cases : offset = 0 ∨ offset = 1 ∨ offset = 2 ∨ offset = 3 := by omega
    rcases cases with rfl | rfl | rfl | rfl
    · change _ = (image pos).toNat
      omega
    · omega
    · omega
    · change _ = (image (pos + 2 + 1)).toNat
      omega
  · exact storeWord_outside (by omega)

namespace CrcFile

variable {file : CrcFile}

/-! ### Patches leave everything else as it is -/

/-- An image that differs from the file in patched fields only. -/
def Agrees (file : CrcFile) (image : Image) : Prop :=
  ∀ address, ¬ file.Patched address → image address = file.image address

theorem entry_inside {index : Nat} (inside : index < file.entries) :
    file.crc.offset ≤ file.entry index ∧
      file.entry index + 48 ≤ file.crc.offset + file.crc.size := by
  change index < file.crc.size / 48 at inside
  change _ ≤ file.crc.offset + 48 * index ∧
    file.crc.offset + 48 * index + 48 ≤ _
  omega

theorem not_patched_of_apart {offset size address : Nat}
    (apart : Apart offset size file.crc) (behind : offset ≤ address)
    (upTo : address < offset + size) : ¬ file.Patched address := by
  rintro ⟨index, inside, first, last⟩
  have bounds := file.entry_inside inside
  rcases apart with before | after <;> omega

/-- The fields behind `crc` and `fileoffset` are not patched. -/
theorem not_patched_behind {index offset : Nat} (behind : 8 ≤ offset)
    (inside : offset < 48) : ¬ file.Patched (file.entry index + offset) := by
  rintro ⟨other, -, first, last⟩
  change file.crc.offset + 48 * other ≤ file.crc.offset + 48 * index + offset
    at first
  change file.crc.offset + 48 * index + offset <
    file.crc.offset + 48 * other + 8 at last
  omega

section Agreement

variable {image : Image} (agrees : file.Agrees image)

include agrees

theorem Agrees.apart {offset size : Nat} (apart : Apart offset size file.crc)
    {address : Nat} (behind : offset ≤ address) (upTo : address < offset + size) :
    image address = file.image address :=
  agrees address (not_patched_of_apart apart behind upTo)

theorem Agrees.header {address : Nat} (inside : address < 52) :
    image address = file.image address :=
  agrees.apart file.headerApart (Nat.zero_le _) (by omega)

theorem Agrees.hasElfMagic : hasElfMagic image = true := by
  have magic := file.magic
  rw [CrcPatch.hasElfMagic] at magic ⊢
  rw [agrees.header (by omega), agrees.header (by omega),
    agrees.header (by omega), agrees.header (by omega)]
  exact magic

theorem Agrees.shnum : shnum image = shnum file.image := by
  apply le16_congr
  intro offset inside
  exact agrees.header (by omega)

theorem Agrees.sectionHeader {index : Nat} (inside : index < CrcPatch.shnum file.image) :
    sectionHeader image index = sectionHeader file.image index := by
  have table : le32 image 32 = le32 file.image 32 := by
    apply le32_congr
    intro offset few
    exact agrees.header (by omega)
  have word (field : Nat) (short : field ≤ 36) :
      le32 image (le32 file.image 32 + 40 * index + field) =
        le32 file.image (le32 file.image 32 + 40 * index + field) := by
    apply le32_congr
    intro offset few
    exact agrees.apart file.tableApart (by omega) (by omega)
  have name := word 0 (by omega)
  rw [Nat.add_zero] at name
  simp only [CrcPatch.sectionHeader, table, name, word 16 (by omega),
    word 20 (by omega)]

theorem Agrees.stringTable : stringTable image = stringTable file.image := by
  have index : le16 image 50 = le16 file.image 50 := by
    apply le16_congr
    intro offset few
    exact agrees.header (by omega)
  rw [CrcPatch.stringTable, index, agrees.sectionHeader file.strings]
  rfl

theorem Agrees.sectionName {index : Nat}
    (inside : index < CrcPatch.shnum file.image) :
    sectionName file.fileSize image index =
      sectionName file.fileSize file.image index := by
  have name := file.names index inside
  obtain ⟨nonempty, ends⟩ := file.stringsEnd
  simp only [CrcPatch.sectionName, agrees.stringTable,
    agrees.sectionHeader inside]
  symm
  apply cstringAt_congr _ _ ends
  · intro address behind upTo
    exact (agrees.apart file.stringsApart (by omega) (by omega)).symm
  · omega

theorem Agrees.findSection (segment : List Byte) :
    findSection file.fileSize image segment =
      findSection file.fileSize file.image segment := by
  rw [CrcPatch.findSection, CrcPatch.findSection, agrees.shnum]
  have sameFind : (List.range (CrcPatch.shnum file.image)).find? (fun index =>
        CrcPatch.sectionName file.fileSize image index = segment) =
      (List.range (CrcPatch.shnum file.image)).find? fun index =>
        CrcPatch.sectionName file.fileSize file.image index = segment := by
    apply List.find?_congr
    intro index member
    rw [agrees.sectionName (List.mem_range.mp member)]
  rw [sameFind]
  apply Option.map_congr
  intro index found
  exact agrees.sectionHeader
    (List.mem_range.mp (List.mem_of_find?_eq_some found))

theorem Agrees.entryName {index : Nat} (inside : index < file.entries) :
    entryName file.fileSize image (file.entry index) =
      entryName file.fileSize file.image (file.entry index) := by
  obtain ⟨length, short, ends⟩ := file.terminated index inside
  rw [CrcPatch.entryName, CrcPatch.entryName]
  symm
  apply cstringAt_congr _ _ ends
  · intro address behind upTo
    obtain ⟨offset, rfl⟩ := Nat.exists_eq_add_of_le behind
    rw [Nat.add_assoc]
    refine (agrees _ (not_patched_behind ?_ ?_)).symm
    · omega
    · change _ ≤ file.entry index + 16 + length at upTo
      omega
  · exact Nat.le_add_right _ _

theorem Agrees.sectionBytes {index : Nat} (inside : index < file.entries) :
    file.sectionBytes image index = file.sectionBytes file.image index := by
  apply readBytes_congr
  intro offset short
  exact agrees.apart (file.apart index inside) (by omega) (by omega)

end Agreement

/-! ### One entry -/

theorem findSection_size_lt {fileSize : Nat} {image : Image}
    {segment : List Byte} {header : SectionHeader}
    (found : findSection fileSize image segment = some header) :
    header.size < 4294967296 ∧ header.offset < 4294967296 := by
  obtain ⟨index, -, rfl⟩ := Option.map_eq_some_iff.mp found
  exact ⟨le32_lt _ _, le32_lt _ _⟩

theorem named_lt {index : Nat} (inside : index < file.entries) :
    (file.named index).size < 4294967296 ∧
      (file.named index).offset < 4294967296 :=
  findSection_size_lt (file.found index inside)

/-- The CRC of an entry's section. -/
def sectionCrc (file : CrcFile) (index : Nat) : BitVec 32 :=
  Crc32Gen.calcCrc (file.sectionBytes file.image index)

theorem Agrees.findSegment_entry {image : Image} (agrees : file.Agrees image)
    {index : Nat} (inside : index < file.entries) :
    findSegment file.fileSize image
        (CrcPatch.entryName file.fileSize image
          (file.crc.offset + entrySize * index)) =
      some (toInt32 (file.named index).size, (file.named index).offset) := by
  have name := agrees.entryName inside
  rw [CrcFile.entry] at name
  rw [findSegment, if_pos agrees.hasElfMagic, name, agrees.findSection,
    file.found index inside]
  rfl

theorem fixEntry_of_small {image : Image} (agrees : file.Agrees image)
    {index : Nat} (inside : index < file.entries)
    (small : (file.named index).size < 2147483648) :
    fixEntry file.fileSize file.crc.offset image index =
      storeEntry image (file.entry index) (file.sectionCrc index)
        (file.named index).offset := by
  have nonempty := file.nonempty index inside
  have bytes := agrees.sectionBytes inside
  rw [CrcFile.sectionBytes] at bytes
  rw [fixEntry]
  simp only [agrees.findSegment_entry inside, toInt32_of_small _ small]
  rw [if_pos (Int.natCast_pos.mpr nonempty), Int.toNat_natCast, bytes]
  rfl

theorem fixEntry_of_large {image : Image} (agrees : file.Agrees image)
    {index : Nat} (inside : index < file.entries)
    (large : 2147483648 ≤ (file.named index).size) :
    fixEntry file.fileSize file.crc.offset image index = image := by
  have negative := toInt32_of_large large (file.named_lt inside).1
  rw [fixEntry]
  simp only [agrees.findSegment_entry inside]
  rw [if_neg (by omega)]

theorem storeEntry_outside {image : Image} {entry fileoffset address : Nat}
    {crc : BitVec 32} (outside : address < entry ∨ entry + 8 ≤ address) :
    storeEntry image entry crc fileoffset address = image address := by
  rw [storeEntry, storeWord_outside (by omega), storeWord_outside (by omega)]

/-! ### The loop over the entries -/

/-- The entries before `done` are patched, the others are as in the file. -/
structure Progress (file : CrcFile) (done : Nat) (image : Image) : Prop where
  agrees : file.Agrees image
  patched : ∀ index < done, (file.named index).size < 2147483648 →
    le32 image (file.entry index) = (file.sectionCrc index).toNat ∧
      le32 image (file.entry index + 4) = (file.named index).offset
  left : ∀ index, done ≤ index ∨ 2147483648 ≤ (file.named index).size →
    le32 image (file.entry index) = le32 file.image (file.entry index)

theorem Progress.start : file.Progress 0 file.image where
  agrees := fun _ _ => rfl
  patched := by
    intro index impossible
    cases impossible
  left := fun _ _ => rfl

theorem Progress.step {done : Nat} {image : Image}
    (progress : file.Progress done image) (inside : done < file.entries) :
    file.Progress (done + 1)
      (fixEntry file.fileSize file.crc.offset image done) := by
  by_cases small : (file.named done).size < 2147483648
  · have stored := fixEntry_of_small progress.agrees inside small
    have spaced (index : Nat) (other : index ≠ done) :
        file.entry index + 8 ≤ file.entry done ∨
          file.entry done + 8 ≤ file.entry index := by
      simp only [CrcFile.entry, entrySize]
      omega
    have kept (index field : Nat) (short : field ≤ 4) (other : index ≠ done) :
        le32 (fixEntry file.fileSize file.crc.offset image done)
            (file.entry index + field) =
          le32 image (file.entry index + field) := by
      have apart := spaced index other
      rw [stored, storeEntry, le32_storeWord_apart (by omega),
        le32_storeWord_apart (by omega)]
    refine ⟨?_, ?_, ?_⟩
    · intro address notPatched
      rw [stored, storeEntry_outside, progress.agrees address notPatched]
      by_contra within
      exact notPatched ⟨done, inside, by omega, by omega⟩
    · intro index before indexSmall
      by_cases last : index = done
      · subst last
        rw [stored, storeEntry, le32_storeWord_apart (by omega),
          le32_storeWord (BitVec.isLt _),
          le32_storeWord (file.named_lt inside).2]
        exact ⟨rfl, rfl⟩
      · have crc := kept index 0 (by omega) last
        rw [Nat.add_zero] at crc
        rw [crc, kept index 4 (by omega) last]
        exact progress.patched index (by omega) indexSmall
    · intro index later
      have other : index ≠ done := by
        rintro rfl
        omega
      have crc := kept index 0 (by omega) other
      rw [Nat.add_zero] at crc
      rw [crc]
      exact progress.left index (by omega)
  · rw [fixEntry_of_large progress.agrees inside (by omega)]
    refine ⟨progress.agrees, ?_, ?_⟩
    · intro index before indexSmall
      have other : index ≠ done := by
        rintro rfl
        exact small indexSmall
      exact progress.patched index (by omega) indexSmall
    · intro index later
      by_cases last : index = done
      · subst last
        exact progress.left index (.inr (by omega))
      · exact progress.left index (by omega)

theorem Progress.run {done : Nat} (inside : done ≤ file.entries) :
    file.Progress done
      ((List.range done).foldl (fixEntry file.fileSize file.crc.offset)
        file.image) := by
  induction done with
  | zero => exact Progress.start
  | succ done ih =>
      rw [List.range_succ, List.foldl_append]
      exact (ih (by omega)).step (by omega)

/-! ### The fixed file -/

theorem Agrees.fixSegments_eq {image : Image} (agrees : file.Agrees image) :
    fixSegments file.fileSize image =
      if file.crc.size < 2147483648 then
        (List.range file.entries).foldl
          (fixEntry file.fileSize file.crc.offset) image
      else image := by
  have found : findSegment file.fileSize image crc32Name =
      some (toInt32 file.crc.size, file.crc.offset) := by
    rw [findSegment, if_pos agrees.hasElfMagic, agrees.findSection,
      file.crcFound]
    rfl
  rw [fixSegments, found]
  dsimp only
  by_cases small : file.crc.size < 2147483648
  · rw [if_pos small, toInt32_of_small _ small, Int.toNat_natCast]
    by_cases some : entrySize ≤ file.crc.size
    · rw [if_pos (Int.ofNat_le.mpr some)]
      rfl
    · have none : file.entries = 0 := Nat.div_eq_of_lt (by omega)
      rw [if_neg (fun le => some (Int.ofNat_le.mp le)), none]
      rfl
  · have negative := toInt32_of_large (Nat.le_of_not_lt small)
      (findSection_size_lt file.crcFound).1
    rw [if_neg small, if_neg]
    change ¬ (48 : Int) ≤ _
    omega

theorem fixed_progress (small : file.crc.size < 2147483648) :
    file.Progress file.entries file.fixed := by
  have same : file.Agrees file.image := fun _ _ => rfl
  rw [fixed, same.fixSegments_eq, if_pos small]
  exact Progress.run (Nat.le_refl _)

theorem fixed_of_large (large : 2147483648 ≤ file.crc.size) :
    file.fixed = file.image := by
  have same : file.Agrees file.image := fun _ _ => rfl
  rw [fixed, same.fixSegments_eq, if_neg (by omega)]

theorem fixed_agrees : file.Agrees file.fixed := by
  rcases Nat.lt_or_ge file.crc.size 2147483648 with small | large
  · exact (file.fixed_progress small).agrees
  · rw [file.fixed_of_large large]
    exact fun _ _ => rfl

theorem fixed_patched {index : Nat} (inside : index < file.entries)
    (patched : ¬ file.Skipped index) :
    le32 file.fixed (file.entry index) = (file.sectionCrc index).toNat ∧
      le32 file.fixed (file.entry index + 4) = (file.named index).offset := by
  rw [Skipped, not_or] at patched
  exact (file.fixed_progress (by omega)).patched index inside (by omega)

theorem fixed_left {index : Nat} (skipped : file.Skipped index) :
    le32 file.fixed (file.entry index) = le32 file.image (file.entry index) := by
  rcases Nat.lt_or_ge file.crc.size 2147483648 with small | large
  · have largeSection := skipped.resolve_left (by omega)
    exact (file.fixed_progress small).left index (.inr largeSection)
  · rw [file.fixed_of_large large]

theorem entryCrc_fixed {index : Nat} (inside : index < file.entries) :
    file.entryCrc file.fixed index = file.sectionCrc index ↔
      (file.Skipped index →
        file.entryCrc file.image index = file.sectionCrc index) := by
  by_cases skipped : file.Skipped index
  · rw [entryCrc, fixed_left skipped]
    exact ⟨fun kept _ => kept, fun kept => kept skipped⟩
  · have patched : file.entryCrc file.fixed index = file.sectionCrc index := by
      rw [entryCrc, (fixed_patched inside skipped).1, BitVec.ofNat_toNat,
        BitVec.setWidth_eq]
    exact ⟨fun _ isSkipped => (skipped isSkipped).elim, fun _ => patched⟩

/-- The values of a second run are already there. -/
theorem fixSegments_fixed : fixSegments file.fileSize file.fixed = file.fixed := by
  have agrees := file.fixed_agrees
  rw [agrees.fixSegments_eq]
  split <;> rename_i small
  · have still (index : Nat) (inside : index < file.entries) :
        fixEntry file.fileSize file.crc.offset file.fixed index = file.fixed := by
      rcases Nat.lt_or_ge (file.named index).size 2147483648 with fits | large
      · obtain ⟨crc, offset⟩ :=
          (file.fixed_progress small).patched index inside fits
        rw [fixEntry_of_small agrees inside fits, storeEntry,
          storeWord_self crc, storeWord_self offset]
      · exact fixEntry_of_large agrees inside large
    have run (done : Nat) (inside : done ≤ file.entries) :
        (List.range done).foldl (fixEntry file.fileSize file.crc.offset)
          file.fixed = file.fixed := by
      induction done with
      | zero => rfl
      | succ done ih =>
          rw [List.range_succ, List.foldl_append, ih (by omega)]
          exact still done (by omega)
    exact run file.entries (Nat.le_refl _)
  · rfl

/-! ### The check -/

theorem checkEntries_eq_zero_iff (memory : Image) (table : Nat)
    (statics : Crc32Check.CrcStatics) (indices : List Nat) :
    checkEntries memory table statics indices = 0 ↔
      ∀ index ∈ indices,
        BitVec.ofNat 32 (le32 memory (table + entrySize * index)) =
          Crc32Gen.calcCrc (readBytes memory
            (le32 memory (table + entrySize * index + 8))
            (toInt32 (le32 memory (table + entrySize * index + 12) +
              4294967296 -
                le32 memory (table + entrySize * index + 8))).toNat) := by
  induction indices generalizing statics with
  | nil =>
      rw [checkEntries]
      exact ⟨fun _ index impossible => (List.not_mem_nil impossible).elim,
        fun _ => rfl⟩
  | cons index rest ih =>
      rw [checkEntries, List.forall_mem_cons, Crc32Check.calcCrc_fst]
      split <;> rename_i wrong
      · constructor
        · intro impossible
          cases impossible
        · intro both
          exact (wrong both.1).elim
      · rw [ih]
        exact ⟨fun later => ⟨not_not.mp wrong, later⟩, And.right⟩

/-- The bytes `crc32check` reads for an entry. -/
def checkedBytes (file : CrcFile) (index : Nat) : List Byte :=
  if (file.named index).size < 2147483648 then
    file.sectionBytes file.image index
  else []

theorem Loaded.word {memory : Image} {table : Nat}
    (loaded : file.Loaded memory table) {index field : Nat}
    (inside : index < file.entries) (short : field ≤ 44) :
    le32 memory (table + entrySize * index + field) =
      le32 file.fixed (file.entry index + field) := by
  apply le32_congr
  intro offset few
  have byte := loaded.table (entrySize * index + field + offset) (by
    simp only [entrySize]
    omega)
  simp only [CrcFile.entry, Nat.add_assoc] at byte ⊢
  exact byte

/-- The table in memory passes when each patched CRC is the one of the bytes
that are read. -/
theorem Loaded.check_iff {memory : Image} {table : Nat}
    (loaded : file.Loaded memory table) (statics : Crc32Check.CrcStatics) :
    crc32check memory table file.entries statics = 0 ↔
      ∀ index < file.entries, file.entryCrc file.fixed index =
        Crc32Gen.calcCrc (file.checkedBytes index) := by
  rw [crc32check, checkEntries_eq_zero_iff]
  have reads (index : Nat) (inside : index < file.entries) :
      readBytes memory (le32 memory (table + entrySize * index + 8))
          (toInt32 (le32 memory (table + entrySize * index + 12) + 4294967296 -
            le32 memory (table + entrySize * index + 8))).toNat =
        file.checkedBytes index := by
    have bounds := loaded.bounds index inside
    have fits := (file.named_lt inside).1
    rw [loaded.word inside (by omega), loaded.word inside (by omega), ← bounds,
      checkedBytes]
    have size : toInt32 (le32 file.fixed (file.entry index + 8) +
        (file.named index).size + 4294967296 -
          le32 file.fixed (file.entry index + 8)) =
        toInt32 (file.named index).size := by
      simp only [toInt32]
      rw [Nat.add_assoc, Nat.add_sub_cancel_left, Nat.add_mod_right]
    rw [size]
    split <;> rename_i small
    · rw [toInt32_of_small _ small, Int.toNat_natCast,
        ← file.fixed_agrees.sectionBytes inside]
      exact readBytes_congr (loaded.sections index inside)
    · have negative := toInt32_of_large (Nat.le_of_not_lt small) fits
      rw [Int.toNat_of_nonpos (by omega)]
      rfl
  have crc (index : Nat) (inside : index < file.entries) :
      BitVec.ofNat 32 (le32 memory (table + entrySize * index)) =
        file.entryCrc file.fixed index := by
    have word := loaded.word inside (Nat.zero_le 44)
    rw [Nat.add_zero, Nat.add_zero] at word
    rw [word, entryCrc]
  constructor
  · intro all index inside
    have here := all index (List.mem_range.mpr inside)
    rw [reads index inside, crc index inside] at here
    exact here
  · intro all index member
    have inside := List.mem_range.mp member
    rw [reads index inside, crc index inside]
    exact all index inside

/-- For every file, the patcher and the check keep their promise if and only if
no entry is skipped that was wrong before, and no section whose size is negative
as an `int` has a CRC other than zero. -/
theorem fixed_iff_fixMet (file : CrcFile) : file.Fixed ↔ file.FixMet := by
  have agrees := file.fixed_agrees
  constructor
  · intro holds
    have right (index : Nat) (inside : index < file.entries) :
        file.entryCrc file.fixed index = file.sectionCrc index := by
      rw [(holds.crcs index inside).2, agrees.sectionBytes inside]
      rfl
    refine ⟨fun index inside => (entryCrc_fixed inside).mp
      (right index inside), ?_⟩
    rintro ⟨memory, table, loaded⟩ index inside large
    have passes := (loaded.check_iff .zero).mp
      (holds.checked memory table .zero loaded) index inside
    rw [right index inside, checkedBytes, if_neg (by omega)] at passes
    exact passes
  · intro met
    have right (index : Nat) (inside : index < file.entries) :
        file.entryCrc file.fixed index = file.sectionCrc index :=
      (entryCrc_fixed inside).mpr (met.kept index inside)
    refine ⟨?_, fun address => agrees address, fixSegments_fixed, ?_⟩
    · intro index inside
      rw [agrees.entryName inside, agrees.findSection,
        agrees.sectionBytes inside]
      exact ⟨file.found index inside, right index inside⟩
    · intro memory table statics loaded
      rw [loaded.check_iff]
      intro index inside
      rw [right index inside, checkedBytes]
      split <;> rename_i small
      · rfl
      · exact met.unread ⟨memory, table, loaded⟩ index inside (by omega)

end CrcFile

/-! ### Two files -/

/-- A file of three sections: `.text`, `.crc32` with one entry for it and the
strings. -/
def sampleWords (textSize : Nat) : List (Nat × Nat) :=
  [(0, 0x464c457f), (32, 52), (48, 0x20003),
    (52, 1), (68, 256), (72, textSize),
    (92, 7), (108, 208), (112, 48),
    (148, 172), (152, 14),
    (172, 0x65742e00), (176, 0x2e007478), (180, 0x33637263), (184, 0x32),
    (208, 1), (216, 0x1000000), (220, 0x1000000 + textSize),
    (224, 0x7865742e), (228, 0x74)]

def sampleImage (textSize : Nat) : Image :=
  (sampleWords textSize).foldl
    (fun image word => storeWord image word.1 word.2) fun _ => 0

def sampleCrc : SectionHeader := { name := 7, offset := 208, size := 48 }

def smallFile : CrcFile where
  image := sampleImage 4
  fileSize := 260
  crc := sampleCrc
  named := fun _ => { name := 1, offset := 256, size := 4 }
  magic := by decide +kernel
  strings := by decide +kernel
  stringsEnd := by decide +kernel
  stringsInside := by decide +kernel
  names := by decide +kernel
  headerApart := by decide +kernel
  tableApart := by decide +kernel
  stringsApart := by decide +kernel
  crcFound := by decide +kernel
  crcInside := by decide +kernel
  terminated := by decide +kernel
  found := by decide +kernel
  nonempty := by decide +kernel
  inside := by decide +kernel
  apart := by decide +kernel

/-- A file of usual sections is fixed. -/
theorem smallFile_fixed : smallFile.Fixed := by
  have few (index : Nat) : ¬ smallFile.Skipped index := by
    rintro (impossible | impossible)
    · change 2147483648 ≤ 48 at impossible
      omega
    · change 2147483648 ≤ 4 at impossible
      omega
  apply smallFile.fixed_iff_fixMet.mpr
  refine ⟨fun index _ skipped => (few index skipped).elim, ?_⟩
  intro _ index _ large
  exact (few index (.inr large)).elim

/-- The bytes of `.text` are zero and the CRC in its entry is one. -/
def largeFile : CrcFile where
  image := sampleImage 0x80000000
  fileSize := 0x80000100
  crc := sampleCrc
  named := fun _ => { name := 1, offset := 256, size := 0x80000000 }
  magic := by decide +kernel
  strings := by decide +kernel
  stringsEnd := by decide +kernel
  stringsInside := by decide +kernel
  names := by decide +kernel
  headerApart := by decide +kernel
  tableApart := by decide +kernel
  stringsApart := by decide +kernel
  crcFound := by decide +kernel
  crcInside := by decide +kernel
  terminated := by decide +kernel
  found := by decide +kernel
  nonempty := by decide +kernel
  inside := by decide +kernel
  apart := by decide +kernel
theorem foldl_storeWord_outside (words : List (Nat × Nat)) (image : Image)
    {address : Nat} (behind : ∀ word ∈ words, word.1 + 4 ≤ address) :
    words.foldl (fun image word => storeWord image word.1 word.2) image address =
      image address := by
  induction words generalizing image with
  | nil => rfl
  | cons word rest ih =>
      rw [List.foldl_cons, ih _ fun other member =>
        behind other (List.mem_cons_of_mem word member)]
      exact storeWord_outside (.inr (behind word List.mem_cons_self))

theorem calcCrc_of_zeros (data : List Byte) (zeros : ∀ byte ∈ data, byte = 0) :
    Crc32Gen.calcCrc data = 0#32 := by
  have zeroByte : Crc32Gen.calcCrcByte 0#32 0 = 0#32 := by decide
  rw [Crc32Gen.calcCrc]
  induction data with
  | nil => rfl
  | cons byte rest ih =>
      rw [List.foldl_cons, zeros byte List.mem_cons_self, zeroByte]
      exact ih fun other member => zeros other (List.mem_cons_of_mem byte member)

/-- The CRC of a section of two gigabytes is not stored. -/
theorem largeFile_not_fixed : ¬ ∀ file : CrcFile, file.Fixed := by
  intro always
  have skipped : largeFile.Skipped 0 := .inr (Nat.le_refl _)
  have only : 0 < largeFile.entries := by decide +kernel
  have zeros : Crc32Gen.calcCrc (largeFile.sectionBytes largeFile.image 0) =
      0#32 := by
    apply calcCrc_of_zeros
    intro byte member
    obtain ⟨offset, -, rfl⟩ := List.mem_map.mp member
    apply foldl_storeWord_outside
    intro word isWord
    have bound : ∀ word ∈ sampleWords 0x80000000, word.1 + 4 ≤ 256 := by decide
    exact Nat.le_trans (bound word isWord) (Nat.le_add_right _ _)
  have stored : largeFile.entryCrc largeFile.image 0 = 1#32 := by decide +kernel
  have right := ((always largeFile).crcs 0 only).2
  rw [CrcFile.fixed_agrees.sectionBytes only, zeros, CrcFile.entryCrc,
    CrcFile.fixed_left skipped] at right
  rw [CrcFile.entryCrc, right] at stored
  cases stored

end KernelReloaded.CrcPatch

/-
The ELF checker, copier and verifier of `loader/loader.c`.

`check_sections` decides whether a kernel may be copied, `copy_sections` copies
it and `verify_sections` compares memory with the file afterwards.  Each exists
once for 32-bit and once for 64-bit headers.  The three pairs read the headers
straight from the file buffer, so the model reads them from a byte image that
is defined past the end of the file as well.

Words are naturals.  Every assignment to a `uint32_t` is reduced explicitly;
64-bit fields keep their full value until the code truncates them.
-/

import KernelReloaded.Core.Memory
import KernelReloaded.Core.CText

namespace KernelReloaded.Elf

open Memory CText

/-! ### Addresses and header layout -/

def u32 (value : Nat) : Nat := value % 4294967296

def physaddr (address : Nat) : Nat := u32 address &&& 0x0FFFFFFF

theorem physaddr_eq_mod (address : Nat) :
    physaddr address = address % 268435456 := by
  have masked : physaddr address = u32 address % 2 ^ 28 :=
    Nat.and_two_pow_sub_one_eq_mod (u32 address) 28
  rw [masked, u32]
  omega

theorem physaddr_lt (address : Nat) : physaddr address < 268435456 := by
  rw [physaddr_eq_mod]
  omega

def elfMagic : Nat := 0x464c457f

def ptLoad : Nat := 1

/-- The fields of `Elf32_Ehdr_t` and `Elf64_Ehdr_t` the loader reads. -/
structure FileHeader where
  magic : Nat
  entry : Nat
  phnum : Nat
deriving DecidableEq, Repr

/-- The fields of `Elf32_Phdr_t` and `Elf64_Phdr_t` the loader reads. -/
structure ProgramHeader where
  type : Nat
  offset : Nat
  paddr : Nat
  filesz : Nat
  memsz : Nat
deriving DecidableEq, Repr

structure HeaderLayout where
  fileHeader : Image → FileHeader
  fileHeaderSize : Nat
  programHeader : Image → Nat → ProgramHeader
  programHeaderSize : Nat

def elf32 : HeaderLayout :=
  { fileHeader := fun buffer =>
      { magic := le32 buffer 0
        entry := le32 buffer 24
        phnum := le16 buffer 44 }
    fileHeaderSize := 52
    programHeader := fun buffer pos =>
      { type := le32 buffer pos
        offset := le32 buffer (pos + 4)
        paddr := le32 buffer (pos + 12)
        filesz := le32 buffer (pos + 16)
        memsz := le32 buffer (pos + 20) }
    programHeaderSize := 32 }

def elf64 : HeaderLayout :=
  { fileHeader := fun buffer =>
      { magic := le32 buffer 0
        entry := le64 buffer 24
        phnum := le16 buffer 56 }
    fileHeaderSize := 64
    programHeader := fun buffer pos =>
      { type := le32 buffer pos
        offset := le64 buffer (pos + 8)
        paddr := le64 buffer (pos + 24)
        filesz := le64 buffer (pos + 32)
        memsz := le64 buffer (pos + 40) }
    programHeaderSize := 56 }

/-- The headers the loops visit: `phnum` of them directly behind the file
header, whatever `phoff` says. -/
def HeaderLayout.programHeaders (layout : HeaderLayout) (buffer : Image) :
    List ProgramHeader :=
  (List.range (layout.fileHeader buffer).phnum).map fun index =>
    layout.programHeader buffer
      (layout.fileHeaderSize + index * layout.programHeaderSize)

def elfClass (buffer : Image) : Nat := (buffer 4).toNat

def layoutOf (buffer : Image) : HeaderLayout :=
  if elfClass buffer = 2 then elf64 else elf32

/-- A 32-bit file header and its program headers as file bytes.  Fields the
loader does not read are zero. -/
def encodeHeaders32 (fileHeader : FileHeader)
    (headers : List ProgramHeader) : List Byte :=
  bytesLe 4 fileHeader.magic ++ bytesLe 4 1 ++ bytesLe 16 0 ++
    bytesLe 4 fileHeader.entry ++ bytesLe 16 0 ++
    bytesLe 2 fileHeader.phnum ++ bytesLe 6 0 ++
    headers.flatMap fun header =>
      bytesLe 4 header.type ++ bytesLe 4 header.offset ++ bytesLe 4 0 ++
        bytesLe 4 header.paddr ++ bytesLe 4 header.filesz ++
        bytesLe 4 header.memsz ++ bytesLe 8 0

def encodeHeaders64 (fileHeader : FileHeader)
    (headers : List ProgramHeader) : List Byte :=
  bytesLe 4 fileHeader.magic ++ bytesLe 4 2 ++ bytesLe 16 0 ++
    bytesLe 8 fileHeader.entry ++ bytesLe 24 0 ++
    bytesLe 2 fileHeader.phnum ++ bytesLe 6 0 ++
    headers.flatMap fun header =>
      bytesLe 4 header.type ++ bytesLe 4 0 ++ bytesLe 8 header.offset ++
        bytesLe 8 0 ++ bytesLe 8 header.paddr ++ bytesLe 8 header.filesz ++
        bytesLe 8 header.memsz ++ bytesLe 8 0

def ProgramHeader.Loaded (header : ProgramHeader) : Prop :=
  header.type = ptLoad ∧ header.memsz ≠ 0

instance (header : ProgramHeader) : Decidable header.Loaded :=
  inferInstanceAs (Decidable (_ ∧ _))

/-! ### `check_sections` -/

inductive SectionError where
  | badMagic (magic : Nat)
  | entryNotAccessible (entry : Nat)
  | entryBefore (entry start : Nat)
  | entryAfter (entry finish : Nat)
  | badFileSize
  | badOffset
  | fileTooShort (filesize endoffset : Nat)
  | addressNotAccessible (dest : Nat)
  | regionBefore (dest start : Nat)
  | regionAfter (last finish : Nat)
  | noEntryCode
deriving DecidableEq, Repr

def SectionError.code : SectionError → Int
  | .badMagic _ => -1
  | .entryNotAccessible _ => -20
  | .entryBefore _ _ => -21
  | .entryAfter _ _ => -21
  | .badFileSize => -31
  | .badOffset => -31
  | .fileTooShort _ _ => -30
  | .addressNotAccessible _ => -2
  | .regionBefore _ _ => -3
  | .regionAfter _ _ => -4
  | .noEntryCode => -5

def SectionError.message (name : Text) : SectionError → Text
  | .badMagic magic =>
      "Magic 0x".toList ++ formatHex8 magic ++ " is wrong.\n".toList
  | .entryNotAccessible entry =>
      "Bad entry address 0x".toList ++ formatHex8 entry ++ " of ".toList ++
        name ++ " is not accessible by loader.".toList
  | .entryBefore entry start =>
      "Entry point 0x".toList ++ formatHex8 entry ++ " of ".toList ++ name ++
        " is before 0x".toList ++ formatHex8 start ++ ".".toList
  | .entryAfter entry finish =>
      "Entry point 0x".toList ++ formatHex8 entry ++ " of ".toList ++ name ++
        " is after  0x".toList ++ formatHex8 finish ++ ".".toList
  | .badFileSize =>
      "The ".toList ++ name ++ " file has a section with a bad file size.".toList
  | .badOffset =>
      "The ".toList ++ name ++ " file has a section with a bad offset.".toList
  | .fileTooShort filesize endoffset =>
      "The ".toList ++ name ++ " file with ".toList ++
        formatUnsigned filesize ++ " Bytes must be at least ".toList ++
        formatInt (toInt32 endoffset) ++
        " Bytes. Please redownload this file.".toList
  | .addressNotAccessible dest =>
      "Bad memory address 0x".toList ++ formatHex8 dest ++ " of ".toList ++
        name ++ " is not accessable by loader.".toList
  | .regionBefore dest start =>
      "The memory region start address 0x".toList ++ formatHex8 dest ++
        " of ".toList ++ name ++ " is before 0x".toList ++ formatHex8 start ++
        ".".toList
  | .regionAfter last finish =>
      "The memory region end address 0x".toList ++ formatHex8 last ++
        " of ".toList ++ name ++ " is after 0x".toList ++ formatHex8 finish ++
        ".".toList
  | .noEntryCode =>
      "The ELF doesn't contain code at the entry point.\n".toList

/-- Upper four address bits the loader can reach: KSEG0 and KSEG1. -/
def accessibleArea (address : Nat) : Bool :=
  address / 268435456 = 0x8 || address / 268435456 = 0xa

/-- `size` of the checker: the larger of the two sizes, in 32 bits.  The
comparison is made against the untruncated `filesz`. -/
def ProgramHeader.size (header : ProgramHeader) : Nat :=
  if u32 header.memsz < header.filesz then u32 header.filesz
  else u32 header.memsz

def ProgramHeader.last (header : ProgramHeader) : Nat :=
  u32 (physaddr (u32 header.paddr) + header.size)

def ProgramHeader.fillSize (header : ProgramHeader) : Nat :=
  u32 (u32 header.memsz + 4294967296 - u32 header.filesz)

/-- The arguments that stay fixed during a check.  `destaddr` is the address
of the copy buffer, `none` for `NULL`. -/
structure CheckContext where
  buffer : Image
  filesize : Nat
  start : Nat
  finish : Nat
  entry : Nat
  destaddr : Option Nat

structure CheckState where
  highest : Nat
  copiedEntry : Bool
  stores : List Store

/-- `kmemcpy`: the size is an `int`, so a negative one copies nothing. -/
def kmemcpy (dest : Nat) (source : Nat → Byte) (size : Nat) : List Store :=
  if 0 < toInt32 size then
    [{ dest := dest, size := (toInt32 size).toNat, byte := source }]
  else []

/-- The guarded `memset` that clears the part behind the file contents. -/
def zeroFill (dest : Nat) (size : Nat) : List Store :=
  if 0 < toInt32 size then
    [{ dest := dest, size := (toInt32 size).toNat, byte := fun _ => 0 }]
  else []

/-- The copy of one segment to `dest`: its file contents and its zero fill.
The difference of the sizes is assigned to an `int`. -/
def segmentStores (buffer : Image) (dest : Nat) (header : ProgramHeader) :
    List Store :=
  (if header.filesz ≠ 0 then
      kmemcpy dest (fun index => buffer (u32 (header.offset + index)))
        header.filesz
    else []) ++
  zeroFill (dest + header.filesz) header.fillSize

/-- The file contents of a segment must lie inside the loaded file. -/
def checkFileRange (filesize : Nat) (header : ProgramHeader) :
    Option SectionError :=
  if header.filesz = 0 then none
  else if header.filesz > 128 * 1024 * 1024 then some .badFileSize
  else if header.offset > 128 * 1024 * 1024 then some .badOffset
  else if u32 (header.offset + header.filesz) ≥ filesize then
    some (.fileTooShort filesize (u32 (header.offset + header.filesz)))
  else none

/-- One pass of the loop in `check_sections32` and `check_sections64`. -/
def checkSegment (context : CheckContext) (header : ProgramHeader)
    (state : CheckState) : CheckState × Option SectionError :=
  if ¬ header.Loaded then (state, none)
  else if header.size = 0 then (state, none)
  else
    match checkFileRange context.filesize header with
    | some error => (state, some error)
    | none =>
      if accessibleArea (u32 header.paddr) = false then
        (state, some (.addressNotAccessible (u32 header.paddr)))
      else
        let dest := physaddr (u32 header.paddr)
        if dest < context.start then
          (state, some (.regionBefore dest context.start))
        else
          -- `highest` is raised before the end of the region is tested.
          let raised := { state with highest := max state.highest header.last }
          if header.last ≥ context.finish then
            (raised, some (.regionAfter header.last context.finish))
          else
            ({ raised with
                copiedEntry := state.copiedEntry ||
                  (dest ≤ context.entry && context.entry < header.last)
                stores := state.stores ++
                  match context.destaddr with
                  | none => []
                  | some destaddr =>
                      segmentStores context.buffer
                        (destaddr + (dest - context.start)) header },
              none)

def checkLoop (context : CheckContext) :
    List ProgramHeader → CheckState → CheckState × Option SectionError
  | [], state =>
      (state, if state.copiedEntry then none else some .noEntryCode)
  | header :: rest, state =>
      match checkSegment context header state with
      | (next, none) => checkLoop context rest next
      | (next, some error) => (next, some error)

/-- The common text of `check_sections32` and `check_sections64`; they differ
in the header layout only. -/
def checkSectionsWith (layout : HeaderLayout) (buffer : Image)
    (filesize start finish : Nat) (destaddr : Option Nat) :
    CheckState × Option SectionError :=
  let fileHeader := layout.fileHeader buffer
  let initial : CheckState :=
    { highest := 0, copiedEntry := false, stores := [] }
  if fileHeader.magic ≠ elfMagic then
    (initial, some (.badMagic fileHeader.magic))
  else
    let entry := u32 fileHeader.entry
    if accessibleArea entry = false then
      (initial, some (.entryNotAccessible entry))
    else
      let entry := physaddr entry
      if entry < start then (initial, some (.entryBefore entry start))
      else if entry ≥ finish then (initial, some (.entryAfter entry finish))
      else
        checkLoop
          { buffer := buffer, filesize := filesize, start := start,
            finish := finish, entry := entry, destaddr := destaddr }
          (layout.programHeaders buffer) initial

def checkSections32 := checkSectionsWith elf32

def checkSections64 := checkSectionsWith elf64

def checkSections (buffer : Image) (filesize start finish : Nat)
    (destaddr : Option Nat) : CheckState × Option SectionError :=
  let start := physaddr start
  let finish := physaddr finish
  if elfClass buffer = 2 then
    checkSections64 buffer filesize start finish destaddr
  else checkSections32 buffer filesize start finish destaddr

def returnCode (result : CheckState × Option SectionError) : Int :=
  match result.2 with
  | none => 0
  | some error => error.code

/-! ### `copy_sections`

The file is kept apart from the memory that is written, so that its headers and
contents stay as they are.  `copySectionsAt` is the copier for a file that lies in
this memory. -/

/-- The loop shared by `copy_sections32` and `copy_sections64`: the 64-bit one
truncates `paddr`, which a 32-bit field does not notice. -/
def copyLoop (buffer : Image) (headers : List ProgramHeader) : List Store :=
  headers.flatMap fun header =>
    if header.Loaded then segmentStores buffer (u32 header.paddr) header else []

/-- The entry address (`none` for `NULL`) and the stores made on the way. -/
structure CopyResult where
  entry : Option Nat
  stores : List Store

def copySections32 (buffer : Image) : CopyResult :=
  if (elf32.fileHeader buffer).magic ≠ elfMagic then
    { entry := none, stores := [] }
  else
    { entry := some (elf32.fileHeader buffer).entry
      stores := copyLoop buffer (elf32.programHeaders buffer) }

/-- Unlike the 32-bit copier this one strips the segment from the entry
address. -/
def copySections64 (buffer : Image) : CopyResult :=
  if (elf64.fileHeader buffer).magic ≠ elfMagic then
    { entry := none, stores := [] }
  else
    { entry := some (physaddr (elf64.fileHeader buffer).entry)
      stores := copyLoop buffer (elf64.programHeaders buffer) }

def copySections (buffer : Image) : CopyResult :=
  if elfClass buffer = 2 then copySections64 buffer else copySections32 buffer

/-! ### `verify_sections` -/

/-- The comparison of one segment with physical memory.  The second loop of
the source reads the first byte behind the file contents on every pass. -/
def verifySegment (memory buffer : Image) (dest : Nat)
    (header : ProgramHeader) : Bool :=
  (header.filesz = 0 ||
    (List.range (u32 header.filesz)).all fun index =>
      memory (physaddr (dest + index)) =
        buffer (u32 (header.offset + index))) &&
  (header.fillSize = 0 ||
    memory (physaddr (dest + header.filesz)) = 0)

/-- `true` when the function returns, `false` when it panics. -/
def verifySections32 (memory buffer : Image) : Bool :=
  (elf32.fileHeader buffer).magic = elfMagic &&
    (elf32.programHeaders buffer).all fun header =>
      !decide header.Loaded ||
        verifySegment memory buffer header.paddr header

def verifySections64 (memory buffer : Image) : Bool :=
  (elf64.fileHeader buffer).magic = elfMagic &&
    (elf64.programHeaders buffer).all fun header =>
      !decide header.Loaded ||
        verifySegment memory buffer (physaddr header.paddr) header

def verifySections (memory buffer : Image) : Bool :=
  if elfClass buffer = 2 then verifySections64 memory buffer
  else verifySections32 memory buffer

end KernelReloaded.Elf

/-
Memory layout of a boot: `load_file` and the initrd placement of `real_loader`.

The kernel file sits in a buffer in high memory.  `real_loader` checks it
against everything below the loader, puts the initrd into the page behind the
kernel's highest byte, and copies the kernel last.  The model starts when the
kernel file has been read and ends when the copy phase begins; progress
reports, IOP set-up and module loading are not part of it, except that their
failures return early.
-/

import KernelReloaded.Loader.SectionSafety
import Mathlib.Data.Set.Lattice
import Mathlib.Order.CompletePartialOrder

namespace KernelReloaded.Boot

open Memory CText Elf

/-! ### `load_file` -/

/-- An open file: its bytes, what `ftell` reports at its end, and how much
each `fread` delivers at most.  When the list is used up `fread` returns zero. -/
structure File where
  bytes : List Byte
  ftell : Int
  chunks : List Nat

/-- `file` is `none` when `fopen` fails; `memalign` may return `NULL`. -/
structure Platform where
  file : Option File
  memalign : Int → Option Nat
  loaderEnd : Nat

/-- `ftell` reports the number of bytes `fread` can deliver. -/
def Platform.Truthful (platform : Platform) : Prop :=
  ∀ file, platform.file = some file → file.ftell = file.bytes.length

structure LoadResult where
  buffer : Option Nat
  size : Option Int
  stores : List Store
  error : Option Text

/-- The reading loop.  `next` shrinks to the rest of the file. -/
def readLoop (buffer : Nat) (bytes : List Byte) :
    List Nat → Nat → Int → Int → List Store
  | [], _, _, _ => []
  | chunk :: rest, pos, s, next =>
      let n := min chunk (min next.toNat (bytes.length - pos))
      if n = 0 then []
      else
        let s := s - n
        let next := if s < next then s else next
        { dest := buffer + pos, size := n,
          byte := fun index => bytes.getD (pos + index) 0 } ::
          if next ≤ 0 then [] else readLoop buffer bytes rest (pos + n) s next

def loadFile (platform : Platform) (filename : Text) (size : Option Int)
    (addr : Option Nat) : LoadResult :=
  -- Without a size pointer the address is ignored.
  let addr := if size = none then none else addr
  match platform.file with
  | none =>
      { buffer := none, size := size, stores := []
        error := some ("Error cannot open file ".toList ++ filename ++
          ".".toList) }
  | some file =>
      let filesize := file.ftell
      let buffer :=
        match addr, size with
        | some addr, some size => if filesize ≤ size then some addr else none
        | _, _ => platform.memalign filesize
      let newSize := size.map fun _ => filesize
      match buffer with
      | none => { buffer := none, size := newSize, stores := [], error := none }
      | some buffer =>
          if addr = none ∧ buffer < platform.loaderEnd then
            { buffer := none, size := newSize, stores := []
              error := some "memalign() is unusable!".toList }
          else
            { buffer := some buffer, size := newSize
              stores := readLoop buffer file.bytes file.chunks 0 filesize
                (256 * 1024)
              error := none }

theorem readLoop_stores (buffer : Nat) (bytes : List Byte)
    (chunks : List Nat) (pos : Nat) (s next : Int) (store : Store)
    (member : store ∈ readLoop buffer bytes chunks pos s next) :
    buffer + pos ≤ store.dest ∧
      store.dest + store.size ≤ buffer + bytes.length := by
  induction chunks generalizing pos s next with
  | nil =>
      cases member
  | cons chunk rest ih =>
      unfold readLoop at member
      simp only at member
      have within : min chunk (min next.toNat (bytes.length - pos)) ≤
          bytes.length - pos := by
        omega
      generalize min chunk (min next.toNat (bytes.length - pos)) = n
        at member within
      generalize (if s - (n : Int) < next then s - (n : Int) else next) = shrunk
        at member
      split at member
      · cases member
      · rename_i progress
        rcases List.mem_cons.mp member with first | later
        · subst store
          simp only
          omega
        · split at later
          · cases later
          · have bounds := ih _ _ _ later
            omega

/-- Loading into a given area writes that area only, at most as far as the
size that was passed, when the reported file size is true. -/
theorem loadFile_stores (platform : Platform) (filename : Text) (size : Int)
    (addr : Nat) (truthful : platform.Truthful)
    (store : Store)
    (member : store ∈
      (loadFile platform filename (some size) (some addr)).stores) :
    addr ≤ store.dest ∧ (store.dest + store.size : Int) ≤ addr + size := by
  unfold loadFile at member
  simp only [reduceCtorEq, if_false] at member
  cases opened : platform.file with
  | none =>
      rw [opened] at member
      cases member
  | some file =>
      rw [opened] at member
      simp only at member
      have reported := truthful file opened
      by_cases fits : file.ftell ≤ size
      · simp only [if_pos fits, false_and, if_false] at member
        have bounds := readLoop_stores _ _ _ _ _ _ store member
        omega
      · simp only [if_neg fits] at member
        cases member

theorem loadFile_success (platform : Platform) (filename : Text) (size : Int)
    (addr buffer : Nat)
    (loaded : (loadFile platform filename (some size) (some addr)).buffer =
      some buffer) :
    buffer = addr ∧ ∃ file, platform.file = some file ∧ file.ftell ≤ size ∧
      (loadFile platform filename (some size) (some addr)).size =
        some file.ftell := by
  unfold loadFile at loaded ⊢
  simp only [reduceCtorEq, if_false] at loaded ⊢
  cases opened : platform.file with
  | none =>
      rw [opened] at loaded
      cases loaded
  | some file =>
      rw [opened] at loaded
      simp only at loaded ⊢
      by_cases fits : file.ftell ≤ size
      · simp only [if_pos fits, false_and, if_false] at loaded ⊢
        exact ⟨(Option.some.inj loaded).symm, file, rfl, fits, rfl⟩
      · simp only [if_neg fits] at loaded
        cases loaded

/-! ### `real_loader`, from the loaded kernel file to the copy phase -/

def ftext : Nat := 0x1000000

def normalMemoryStart : Nat := 0x80000

def sbiosStart : Nat := 0x1000

def maxSbiosSize : Nat := 0xf000

def pageSize : Nat := 4096

def kseg0Mask : Nat := 0x80000000

structure BootInput where
  buffer : Nat
  image : Image
  kernelSize : Nat
  loadModules : Int
  initrdFilename : Option Text
  platform : Platform
  crc32check : Int

structure Initrd where
  start : Nat
  size : Nat
deriving DecidableEq, Repr

inductive BootOutcome where
  | failed (code : Int)
  | copyPhase (initrd : Option Initrd)
deriving DecidableEq, Repr

/-- What happened up to the copy phase: `base`, the stores `load_file` made for
the initrd, the stores of the initrd header, and how it ended. -/
structure BootRun where
  base : Nat
  loadStores : List Store
  headerStores : List Store
  outcome : BootOutcome

def BootInput.lowestAddress (input : BootInput) : Nat :=
  if ftext > input.buffer then input.buffer else ftext

def BootInput.highest (input : BootInput) : Nat :=
  (checkSections input.image input.kernelSize 0x10000 input.lowestAddress
    none).1.highest

def initrdBase (highest : Nat) : Nat :=
  let rounded := u32 (highest + pageSize - 1)
  u32 (rounded - rounded % pageSize + 4294967296 - 8)

/-- `base`, and whether `initrd_header` points there. -/
def placeInitrd (highest lowestAddress : Nat) : Nat × Bool :=
  if highest < lowestAddress ∧ normalMemoryStart ≤ highest then
    (initrdBase highest, decide (initrdBase highest > highest))
  else (0, false)

def initrdHeader (base size : Nat) : List Store :=
  [{ dest := base, size := 4,
     byte := fun index => (bytesLe 4 0x494E5244).getD index 0 },
   { dest := base + 4, size := 4,
     byte := fun index => (bytesLe 4 size).getD index 0 }]

def u32OfInt (value : Int) : Nat := (value % 4294967296).toNat

def finishBoot (input : BootInput) (base : Nat) (loadStores : List Store)
    (headerStores : List Store) (initrd : Option Initrd) : BootRun :=
  { base := base
    loadStores := loadStores
    headerStores := headerStores
    outcome :=
      if input.crc32check ≠ 0 then .failed (-13) else .copyPhase initrd }

def loadInitrd (input : BootInput) (filename : Text) (base : Nat) : BootRun :=
  let available := u32 (input.lowestAddress + 4294967296 - (base + 8))
  let loaded := loadFile input.platform filename
    (some (toInt32 available)) (some (base + 8))
  let failed (code : Int) : BootRun :=
    { base := base, loadStores := loaded.stores, headerStores := []
      outcome := .failed code }
  match loaded.buffer with
  | none => failed (-10)
  | some start =>
      let size := u32OfInt (loaded.size.getD 0)
      if size = 0 then failed (-9)
      else if u32 (base + 8 + size) ≥ input.lowestAddress then failed (-11)
      else
        finishBoot input base loaded.stores (initrdHeader base size)
          (some { start := start ||| kseg0Mask, size := size })

def realLoader (input : BootInput) : BootRun :=
  let failed (base : Nat) (code : Int) : BootRun :=
    { base := base, loadStores := [], headerStores := []
      outcome := .failed code }
  if returnCode (checkSections input.image input.kernelSize 0x10000
      input.lowestAddress none) ≠ 0 then failed 0 (-2)
  else
    let (base, headerPlaced) := placeInitrd input.highest input.lowestAddress
    if input.loadModules ≠ 0 then failed base (-2)
    else
      match input.initrdFilename with
      | none => finishBoot input base [] [] none
      | some filename =>
          -- The end of the kernel must not be in the last 8 bytes of a page.
          if headerPlaced = false then failed base (-12)
          else loadInitrd input filename base

/-! ### The layout -/

theorem BootInput.lowestAddress_le (input : BootInput) :
    input.lowestAddress ≤ ftext := by
  unfold BootInput.lowestAddress
  split <;> omega

theorem BootInput.physaddr_lowestAddress (input : BootInput) :
    physaddr input.lowestAddress = input.lowestAddress := by
  have bound := input.lowestAddress_le
  unfold ftext at bound
  rw [physaddr_eq_mod]
  omega

/-- No `PT_LOAD` end leaves 32 bits, and no size does. -/
def EndsFit (image : Image) : Prop :=
  ∀ header, header ∈ (layoutOf image).programHeaders image → header.Loaded →
    physaddr (u32 header.paddr) + max header.memsz header.filesz < 4294967296

theorem EndsFit.uncheckedCovered {image : Image} (fit : EndsFit image)
    (start : Nat) :
    UncheckedCovered ((layoutOf image).programHeaders image) start := by
  intro header member loaded present
  exfalso
  have bound := fit header member loaded
  have nonzero := loaded.2
  have sizes := header.size_cases
  apply present
  unfold ProgramHeader.uncheckedBytes
  have nonempty : header.size ≠ 0 := by
    unfold u32 at *
    omega
  have direct : ¬ header.Wraps := by
    unfold ProgramHeader.Wraps u32 at *
    omega
  rw [if_neg nonempty, if_neg direct]

theorem initrdBase_add_eight {highest : Nat} (small : highest < ftext)
    (positive : 0 < highest) :
    initrdBase highest + 8 = (highest + 4095) / 4096 * 4096 := by
  simp only [initrdBase, u32, pageSize]
  unfold ftext at small
  omega

theorem placeInitrd_spec {highest lowestAddress base : Nat}
    (small : lowestAddress ≤ ftext)
    (placed : placeInitrd highest lowestAddress = (base, true)) :
    normalMemoryStart ≤ highest ∧ highest < base ∧
      base + 8 < lowestAddress + pageSize := by
  unfold placeInitrd at placed
  split at placed
  · rename_i inside
    have baseEq := congrArg Prod.fst placed
    have aboveEq := congrArg Prod.snd placed
    simp only [decide_eq_true_eq] at baseEq aboveEq
    have rounded := initrdBase_add_eight (by omega : highest < ftext)
      (by unfold normalMemoryStart at inside; omega)
    subst base
    refine ⟨inside.2, aboveEq, ?_⟩
    unfold pageSize
    omega
  · cases placed

theorem available_spec {lowestAddress base : Nat}
    (small : lowestAddress ≤ ftext)
    (near : base + 8 < lowestAddress + pageSize) :
    toInt32 (u32 (lowestAddress + 4294967296 - (base + 8))) =
      (lowestAddress : Int) - (base + 8) := by
  unfold toInt32 u32
  unfold ftext pageSize at *
  split <;> omega

def sbiosRegion : Set Nat :=
  { address | sbiosStart ≤ address ∧ address < sbiosStart + maxSbiosSize }

def kernelRegion (input : BootInput) : Set Nat :=
  { address | ∃ cell, cell ∈ copiedCells input.image ∧ cell.1 = address }

/-- Header and data of a loaded initrd; empty without one. -/
def initrdRegion (base : Nat) : Option Initrd → Set Nat
  | none => ∅
  | some initrd =>
      { address | base ≤ address ∧ address < base + 8 + initrd.size }

/-- The loader and the kernel file buffer, and whatever is above them. -/
def loaderRegion (input : BootInput) : Set Nat :=
  { address | input.lowestAddress ≤ address }

/-- What a boot has to keep apart, whichever way it ends. -/
structure LayoutSafe (input : BootInput) : Prop where
  loads : ∀ store, store ∈ (realLoader input).loadStores →
    (realLoader input).base + 8 ≤ store.dest ∧
      store.dest + store.size ≤ input.lowestAddress
  separate : ∀ initrd, (realLoader input).outcome = .copyPhase initrd →
    [sbiosRegion, kernelRegion input,
      initrdRegion (realLoader input).base initrd,
      loaderRegion input].Pairwise Disjoint
  preserved : ∀ initrd, (realLoader input).outcome = .copyPhase initrd →
    ∀ memory address,
      address ∈ initrdRegion (realLoader input).base initrd ∪
        loaderRegion input →
      writeCells memory (copiedCells input.image) address = memory address

/-- Every way through `real_loader` up to the copy phase: an early failure, no
initrd, or an initrd at a base behind the kernel. -/
theorem realLoader_cases (input : BootInput) :
    ((realLoader input).loadStores = [] ∧
      ∃ code, (realLoader input).outcome = .failed code) ∨
    (returnCode (checkSections input.image input.kernelSize 0x10000
        input.lowestAddress none) = 0 ∧
      ((∃ base, realLoader input = finishBoot input base [] [] none) ∨
        ∃ base filename,
          placeInitrd input.highest input.lowestAddress = (base, true) ∧
            realLoader input = loadInitrd input filename base)) := by
  unfold realLoader
  simp only
  split
  · exact Or.inl ⟨rfl, -2, rfl⟩
  · rename_i accepted
    have acceptedZero : returnCode (checkSections input.image
        input.kernelSize 0x10000 input.lowestAddress none) = 0 := by
      simpa using accepted
    cases placed : placeInitrd input.highest input.lowestAddress with
    | mk base headerPlaced =>
        simp only
        split
        · exact Or.inl ⟨rfl, -2, rfl⟩
        · cases input.initrdFilename with
          | none =>
              exact Or.inr ⟨acceptedZero, Or.inl ⟨base, rfl⟩⟩
          | some filename =>
              cases headerPlaced with
              | false =>
                  exact Or.inl ⟨rfl, -12, rfl⟩
              | true =>
                  exact Or.inr ⟨acceptedZero,
                    Or.inr ⟨base, filename, rfl, rfl⟩⟩

theorem loadInitrd_base (input : BootInput) (filename : Text) (base : Nat) :
    (loadInitrd input filename base).base = base := by
  unfold loadInitrd
  simp only
  split
  · rfl
  · split
    · rfl
    · split <;> rfl

theorem loadInitrd_loadStores (input : BootInput) (filename : Text)
    (base : Nat) :
    (loadInitrd input filename base).loadStores =
      (loadFile input.platform filename
        (some (toInt32
          (u32 (input.lowestAddress + 4294967296 - (base + 8)))))
        (some (base + 8))).stores := by
  unfold loadInitrd
  simp only
  split
  · rfl
  · split
    · rfl
    · split <;> rfl

theorem loadInitrd_copyPhase (input : BootInput) (filename : Text)
    (base : Nat)
    (truthful : input.platform.Truthful)
    (near : base + 8 < input.lowestAddress + pageSize)
    (initrd : Option Initrd)
    (reached : (loadInitrd input filename base).outcome =
      .copyPhase initrd) :
    ∃ loaded, initrd = some loaded ∧
      base + 8 + loaded.size < input.lowestAddress := by
  have small := input.lowestAddress_le
  unfold loadInitrd at reached
  simp only at reached
  split at reached
  · cases reached
  · rename_i start loaded
    obtain ⟨-, file, opened, fits, sizeEq⟩ := loadFile_success _ _ _ _ _ loaded
    have reported := truthful file opened
    rw [available_spec small near] at fits
    rw [sizeEq] at reached
    split at reached
    · cases reached
    · split at reached
      · cases reached
      · rename_i below
        unfold finishBoot at reached
        simp only at reached
        split at reached
        · cases reached
        · injection reached with initrdEq
          refine ⟨_, initrdEq.symm, ?_⟩
          simp only [Option.getD_some] at below ⊢
          unfold u32 u32OfInt at *
          unfold ftext at small
          unfold pageSize at near
          omega

theorem finishBoot_copyPhase {input : BootInput} {base : Nat}
    {loadStores headerStores : List Store} {placed initrd : Option Initrd}
    (reached : (finishBoot input base loadStores headerStores placed).outcome =
      .copyPhase initrd) : initrd = placed := by
  unfold finishBoot at reached
  simp only at reached
  split at reached
  · cases reached
  · injection reached with same
    exact same.symm

theorem disjoint_of_bound {left right : Set Nat} (bound : Nat)
    (below : ∀ address ∈ left, address < bound)
    (above : ∀ address ∈ right, bound ≤ address) : Disjoint left right :=
  Set.disjoint_left.mpr fun address inLeft inRight =>
    absurd (below address inLeft) (Nat.not_lt.mpr (above address inRight))

/-- The SBIOS lies below the kernel, the initial RAM disk behind it, and the
loader behind all of them. -/
theorem regions_disjoint (input : BootInput) (base : Nat)
    (initrd : Option Initrd) (room : 0x10000 < input.lowestAddress)
    (confined : CopyConfined input.image 0x10000 input.lowestAddress
      input.highest)
    (behind : ∀ loaded, initrd = some loaded →
      normalMemoryStart ≤ input.highest ∧ input.highest < base ∧
        base + 8 + loaded.size < input.lowestAddress) :
    [sbiosRegion, kernelRegion input, initrdRegion base initrd,
      loaderRegion input].Pairwise Disjoint := by
  have startEq : physaddr 0x10000 = 0x10000 := by decide
  have sbiosBelow : ∀ address ∈ sbiosRegion, address < 0x10000 := by
    intro address inside
    have upper := inside.2
    unfold sbiosStart maxSbiosSize at upper
    omega
  have kernelBounds : ∀ address ∈ kernelRegion input,
      0x10000 ≤ address ∧ address < input.lowestAddress ∧
        address < input.highest := by
    rintro address ⟨cell, written, rfl⟩
    have bounds := confined cell written
    rw [startEq, input.physaddr_lowestAddress] at bounds
    exact bounds
  have initrdBounds : ∀ address ∈ initrdRegion base initrd,
      0x80000 ≤ address ∧ input.highest < address ∧
        address < input.lowestAddress := by
    intro address inside
    cases initrd with
    | none =>
        cases inside
    | some loaded =>
        obtain ⟨lower, upper⟩ := inside
        have placed := behind loaded rfl
        unfold normalMemoryStart at placed
        omega
  have loaderAbove : ∀ address ∈ loaderRegion input,
      input.lowestAddress ≤ address := fun _address inside => inside
  have sbiosKernel := disjoint_of_bound 0x10000 sbiosBelow
    fun address inside => (kernelBounds address inside).1
  have sbiosInitrd := disjoint_of_bound 0x10000 sbiosBelow
    fun address inside =>
      Nat.le_trans (by decide) (initrdBounds address inside).1
  have sbiosLoader := disjoint_of_bound 0x10000 sbiosBelow
    fun address inside =>
      Nat.le_trans (Nat.le_of_lt room) (loaderAbove address inside)
  have kernelInitrd := disjoint_of_bound input.highest
    (fun address inside => (kernelBounds address inside).2.2)
    fun address inside => Nat.le_of_lt (initrdBounds address inside).2.1
  have kernelLoader := disjoint_of_bound input.lowestAddress
    (fun address inside => (kernelBounds address inside).2.1) loaderAbove
  have initrdLoader := disjoint_of_bound input.lowestAddress
    (fun address inside => (initrdBounds address inside).2.2) loaderAbove
  simp only [List.pairwise_cons, List.mem_cons, List.not_mem_nil, or_false,
    forall_eq_or_imp, forall_eq, List.Pairwise.nil, and_true, false_imp_iff,
    implies_true]
  exact ⟨⟨sbiosKernel, sbiosInitrd, sbiosLoader⟩,
    ⟨kernelInitrd, kernelLoader⟩, initrdLoader⟩

theorem copy_preserves (input : BootInput) (region : Set Nat)
    (apart : Disjoint (kernelRegion input) region) (memory : Image)
    (address : Nat) (inside : address ∈ region) :
    writeCells memory (copiedCells input.image) address = memory address := by
  apply writeCells_untouched
  intro cell written same
  exact Set.disjoint_left.mp apart ⟨cell, written, same⟩ inside

theorem realLoader_initrd_behind (input : BootInput)
    (truthful : input.platform.Truthful)
    (initrd : Option Initrd)
    (reached : (realLoader input).outcome = .copyPhase initrd)
    (loaded : Initrd) (present : initrd = some loaded) :
    normalMemoryStart ≤ input.highest ∧
      input.highest < (realLoader input).base ∧
      (realLoader input).base + 8 + loaded.size < input.lowestAddress := by
  rcases realLoader_cases input with
    ⟨-, code, failed⟩ | ⟨-, ⟨base, run⟩ | ⟨base, filename, placed, run⟩⟩
  · rw [failed] at reached
    cases reached
  · rw [run] at reached
    rw [finishBoot_copyPhase reached] at present
    cases present
  · have placement := placeInitrd_spec input.lowestAddress_le placed
    rw [run] at reached ⊢
    rw [loadInitrd_base]
    obtain ⟨other, same, ends⟩ := loadInitrd_copyPhase input filename base
      truthful placement.2.2 initrd reached
    rw [present, Option.some.injEq] at same
    subst other
    exact ⟨placement.1, placement.2.1, ends⟩

theorem realLoader_loads (input : BootInput)
    (truthful : input.platform.Truthful)
    (store : Store) (member : store ∈ (realLoader input).loadStores) :
    (realLoader input).base + 8 ≤ store.dest ∧
      store.dest + store.size ≤ input.lowestAddress := by
  rcases realLoader_cases input with
    ⟨empty, -⟩ | ⟨-, ⟨base, run⟩ | ⟨base, filename, placed, run⟩⟩
  · rw [empty] at member
    cases member
  · rw [run] at member
    cases member
  · have placement := placeInitrd_spec input.lowestAddress_le placed
    rw [run, loadInitrd_loadStores] at member
    have bounds := loadFile_stores input.platform filename _ (base + 8)
      truthful store member
    rw [available_spec input.lowestAddress_le placement.2.2] at bounds
    rw [run, loadInitrd_base]
    omega

/-- For every kernel whose `PT_LOAD` ends fit 32 bits and every initrd file of
truly reported size: whatever `load_file` writes for the initrd lies between
the initrd header and the loader, and in the copy phase the SBIOS, the kernel,
the initrd and the loader with the kernel file are pairwise disjoint, so the
copy destroys neither the initrd nor the file it copies from. -/
theorem realLoader_layoutSafe (input : BootInput)
    (fit : EndsFit input.image)
    (truthful : input.platform.Truthful) :
    LayoutSafe input := by
  have separate (initrd : Option Initrd)
      (reached : (realLoader input).outcome = .copyPhase initrd) :
      [sbiosRegion, kernelRegion input,
        initrdRegion (realLoader input).base initrd,
        loaderRegion input].Pairwise Disjoint := by
    have accepted : returnCode (checkSections input.image input.kernelSize
        0x10000 input.lowestAddress none) = 0 := by
      rcases realLoader_cases input with ⟨-, code, failed⟩ | ⟨accepted, -⟩
      · rw [failed] at reached
        cases reached
      · exact accepted
    have confined := copyConfined_of_covered input.image input.kernelSize
      0x10000 input.lowestAddress accepted (fit.uncheckedCovered 0x10000)
    have entry := (checkSections_accepted _ _ _ _ _ accepted).entry
    rw [input.physaddr_lowestAddress,
      show physaddr 0x10000 = 0x10000 by decide] at entry
    exact regions_disjoint input _ initrd (by omega) confined
      (realLoader_initrd_behind input truthful initrd reached)
  refine
    { loads := realLoader_loads input truthful
      separate := separate
      preserved := ?_ }
  intro initrd reached memory address inside
  have apart := separate initrd reached
  simp only [List.pairwise_cons, List.mem_cons, List.not_mem_nil, or_false,
    forall_eq_or_imp, forall_eq] at apart
  rcases inside with inInitrd | inLoader
  · exact copy_preserves input _ apart.2.1.1 memory address inInitrd
  · exact copy_preserves input _ apart.2.1.2 memory address inLoader

def smallBoot : BootInput :=
  { buffer := 0x1800000
    image := imageOfList (encodeHeaders32
      { magic := elfMagic, entry := 0x80010000, phnum := 1 }
      [{ type := ptLoad, offset := 0x1000, paddr := 0x80010000,
         filesz := 0x100, memsz := 0x80100 }])
    kernelSize := 0x2000
    loadModules := 0
    initrdFilename := some "host:initrd.gz".toList
    platform :=
      { file := some
          { bytes := (List.range 100).map (BitVec.ofNat 8), ftell := 100, chunks := [60, 40] }
        memalign := fun _ => none
        loaderEnd := 0x1200000 }
    crc32check := 0 }

theorem smallBoot_layoutSafe :
    (realLoader smallBoot).outcome =
        .copyPhase (some { start := 0x80091000, size := 100 }) ∧
      LayoutSafe smallBoot := by
  refine ⟨by decide, realLoader_layoutSafe smallBoot ?_ ?_⟩
  · intro header member loaded
    have only : (layoutOf smallBoot.image).programHeaders smallBoot.image =
        [{ type := ptLoad, offset := 0x1000, paddr := 0x80010000,
           filesz := 0x100, memsz := 0x80100 }] := by
      decide
    rw [only, List.mem_singleton] at member
    subst header
    decide
  · intro file opened
    rw [← Option.some.inj opened]
    rfl

end KernelReloaded.Boot

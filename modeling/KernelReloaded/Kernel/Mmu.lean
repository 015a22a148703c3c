/-
The translation buffer as `mmu_init_module` leaves it.

`mapMemory` computes the registers of an entry with the masks of the source and
`tlbwi` stores them.  What the processor makes of the registers is the pair of
pages in `Registers.entry`: all mapped entries are global, so the address space
identifier plays no part.
-/

import KernelReloaded.Core.PairTlb

namespace KernelReloaded.Mmu

open PairTlb

/-! ### Constants -/

def kseg0 : BitVec 32 := 0x80000000

def zeroRegAddress : BitVec 32 := 0x78000

def pageCacheable : BitVec 32 := 3 <<< 3

def pageUncacheable : BitVec 32 := 2 <<< 3

def pageUncacheableAccelerated : BitVec 32 := 7 <<< 3

def pageDirty : BitVec 32 := 1 <<< 2

def pageValid : BitVec 32 := 1 <<< 1

def pageGlobal : BitVec 32 := 1 <<< 0

def pageSpram : BitVec 32 := 1 <<< 31

def page4K : BitVec 32 := 0 <<< 13

def page16K : BitVec 32 := 0x03 <<< 13

def page64K : BitVec 32 := 0x0f <<< 13

def page256K : BitVec 32 := 0x3f <<< 13

def page1M : BitVec 32 := 0xff <<< 13

def page4M : BitVec 32 := 0x3ff <<< 13

def page16M : BitVec 32 := 0xfff <<< 13

/-! ### The registers of an entry -/

def tlbEntries : Nat := 48

structure Registers where
  pageMask : BitVec 32
  entryLo0 : BitVec 32
  entryLo1 : BitVec 32
  entryHi : BitVec 32
deriving DecidableEq

abbrev Tlb := Nat → Registers

/-- The frame number is in the bits 6 to 25. -/
def pageOf (entryLo : BitVec 32) : Page :=
  { valid := entryLo &&& pageValid ≠ 0
    frame := ((entryLo >>> 6) &&& 0xFFFFF).toNat * 4096 }

/-- The processor's reading of the registers. -/
def Registers.entry (registers : Registers) : Entry :=
  let pageSize := ((registers.pageMask ||| 0x1FFF) >>> 1).toNat + 1
  { pageSize := pageSize
    pairNumber := registers.entryHi.toNat / (2 * pageSize)
    even := pageOf registers.entryLo0
    odd := pageOf registers.entryLo1
    positive := Nat.succ_pos _ }

def Tlb.entries (tlb : Tlb) : List Entry :=
  (List.range tlbEntries).map fun index => (tlb index).entry

/-! ### The functions -/

/-- The arguments of a call of `mapMemory`. -/
structure Mapping where
  index : Nat
  vaddr : BitVec 32
  paddr1 : BitVec 32
  flags1 : BitVec 32
  paddr2 : BitVec 32
  flags2 : BitVec 32
  pagesize : BitVec 32

def mapMemory (tlb : Tlb) (mapping : Mapping) : Tlb :=
  let pagemask := ~~~ ((mapping.pagesize ||| 0x1FFF) >>> 1)
  let asid := 0
  Function.update tlb mapping.index
    { pageMask := mapping.pagesize
      entryLo0 := (mapping.paddr1 &&& pagemask) >>> (12 - 6) ||| mapping.flags1
      entryLo1 := (mapping.paddr2 &&& pagemask) >>> (12 - 6) ||| mapping.flags2
      entryHi := (mapping.vaddr &&& (pagemask <<< 1)) ||| asid }

/-- An entry without a valid page. -/
def flushedEntry (entry : Nat) : Registers :=
  let pagesize := (page16M ||| 0x1FFF) + 1
  { pageMask := page16M
    entryLo0 := 0
    entryLo1 := 0
    entryHi := kseg0 + BitVec.ofNat 32 entry * pagesize }

def flushTlbs (tlb : Tlb) : Tlb :=
  (List.range tlbEntries).foldl
    (fun tlb entry => Function.update tlb entry (flushedEntry entry)) tlb

def cached : BitVec 32 :=
  pageCacheable ||| pageDirty ||| pageValid ||| pageGlobal

def uncached : BitVec 32 :=
  pageUncacheable ||| pageDirty ||| pageValid ||| pageGlobal

def accelerated : BitVec 32 :=
  pageUncacheableAccelerated ||| pageDirty ||| pageValid ||| pageGlobal

def spram : BitVec 32 := uncached ||| pageSpram

def readOnly : BitVec 32 := pageUncacheable ||| pageValid ||| pageGlobal

def invalid : BitVec 32 := pageUncacheable ||| pageDirty ||| pageGlobal

def spramMapping : Mapping :=
  ⟨0, 0x70000000, 0x00000000, spram, 0x00000000, uncached, page4K⟩

/-- The calls after the check of the kernel's size: the zero register page, the
hardware registers, and the memory cached, uncached and accelerated. -/
def mappings : List Mapping :=
  [⟨1, 0xffff8000, zeroRegAddress, cached, zeroRegAddress + 0x4000, cached, page16K⟩,
    ⟨2, 0x10000000, 0x10000000, uncached, 0x10001000, readOnly, page4K⟩,
    ⟨3, 0x10002000, 0x10002000, uncached, 0x10003000, uncached, page4K⟩,
    ⟨4, 0x10004000, 0x10004000, uncached, 0x10005000, uncached, page4K⟩,
    ⟨5, 0x10006000, 0x10006000, uncached, 0x10007000, uncached, page4K⟩,
    ⟨6, 0x10008000, 0x10008000, uncached, 0x10009000, uncached, page4K⟩,
    ⟨7, 0x1000a000, 0x1000a000, uncached, 0x1000b000, uncached, page4K⟩,
    ⟨8, 0x1000c000, 0x1000c000, readOnly, 0x1000d000, uncached, page4K⟩,
    ⟨9, 0x1000e000, 0x1000e000, uncached, 0x1000f000, uncached, page4K⟩,
    ⟨10, 0x11000000, 0x11000000, uncached, 0x11010000, invalid, page64K⟩,
    ⟨11, 0x12000000, 0x12000000, uncached, 0x12010000, invalid, page64K⟩,
    ⟨12, 0x1e000000, 0x1e000000, uncached, 0x1f000000, uncached, page16M⟩,
    ⟨13, 0x80000, 0x80000, cached, 0xc0000, cached, page256K⟩,
    ⟨14, 0x100000, 0x100000, cached, 0x140000, cached, page256K⟩,
    ⟨15, 0x180000, 0x180000, cached, 0x180000, cached, page256K⟩,
    ⟨16, 0x200000, 0x200000, cached, 0x300000, cached, page1M⟩,
    ⟨17, 0x400000, 0x400000, cached, 0x500000, cached, page1M⟩,
    ⟨18, 0x600000, 0x600000, cached, 0x700000, cached, page1M⟩,
    ⟨19, 0x800000, 0x800000, cached, 0xc00000, cached, page4M⟩,
    ⟨20, 0x1000000, 0x1000000, cached, 0x1400000, cached, page4M⟩,
    ⟨21, 0x1800000, 0x1800000, cached, 0x1c00000, cached, page4M⟩,
    ⟨22, 0x20080000, 0x80000, uncached, 0xc0000, uncached, page256K⟩,
    ⟨23, 0x20100000, 0x100000, uncached, 0x140000, uncached, page256K⟩,
    ⟨24, 0x20180000, 0x180000, uncached, 0x180000, uncached, page256K⟩,
    ⟨25, 0x20200000, 0x200000, uncached, 0x300000, uncached, page1M⟩,
    ⟨26, 0x20400000, 0x400000, uncached, 0x500000, uncached, page1M⟩,
    ⟨27, 0x20600000, 0x600000, uncached, 0x700000, uncached, page1M⟩,
    ⟨28, 0x20800000, 0x800000, uncached, 0xc00000, uncached, page4M⟩,
    ⟨29, 0x21000000, 0x1000000, uncached, 0x1400000, uncached, page4M⟩,
    ⟨30, 0x21800000, 0x1800000, uncached, 0x1c00000, uncached, page4M⟩,
    ⟨31, 0x30100000, 0x100000, accelerated, 0x140000, accelerated, page256K⟩,
    ⟨32, 0x30180000, 0x180000, accelerated, 0x1c0000, accelerated, page256K⟩,
    ⟨33, 0x30200000, 0x200000, accelerated, 0x300000, accelerated, page1M⟩,
    ⟨34, 0x30400000, 0x400000, accelerated, 0x500000, accelerated, page1M⟩,
    ⟨35, 0x30600000, 0x600000, accelerated, 0x700000, accelerated, page1M⟩,
    ⟨36, 0x30800000, 0x800000, accelerated, 0xc00000, accelerated, page4M⟩,
    ⟨37, 0x31000000, 0x1000000, accelerated, 0x1400000, accelerated, page4M⟩,
    ⟨38, 0x31800000, 0x1800000, accelerated, 0x1c00000, accelerated, page4M⟩]

/-- `none` when the kernel reaches into the zero register page: then the
function panics. -/
def mmuInitModule (kernelEnd : BitVec 32) (tlb : Tlb) : Option Tlb :=
  let tlb := mapMemory (flushTlbs tlb) spramMapping
  if kseg0 + zeroRegAddress < kernelEnd then
    none
  else
    some (mappings.foldl mapMemory tlb)

/-! ### The entries do not depend on what was there before -/

theorem flushTlbs_at (tlb : Tlb) (rounds index : Nat) (reached : index < rounds) :
    (List.range rounds).foldl
        (fun tlb entry => Function.update tlb entry (flushedEntry entry)) tlb index =
      flushedEntry index := by
  induction rounds with
  | zero => omega
  | succ rounds ih =>
      rw [List.range_succ, List.foldl_append, List.foldl_cons, List.foldl_nil]
      by_cases last : index = rounds
      · rw [last, Function.update_self]
      · rw [Function.update_of_ne last]
        exact ih (by omega)

theorem mapMemory_congr {tlb tlb' : Tlb} {index : Nat} (mapping : Mapping)
    (same : tlb index = tlb' index) :
    mapMemory tlb mapping index = mapMemory tlb' mapping index := by
  unfold mapMemory
  by_cases written : index = mapping.index
  · rw [written, Function.update_self, Function.update_self]
  · rw [Function.update_of_ne written, Function.update_of_ne written, same]

theorem foldl_mapMemory_congr (mappings : List Mapping) {tlb tlb' : Tlb}
    {index : Nat} (same : tlb index = tlb' index) :
    mappings.foldl mapMemory tlb index = mappings.foldl mapMemory tlb' index := by
  induction mappings generalizing tlb tlb' with
  | nil => exact same
  | cons mapping rest ih =>
      rw [List.foldl_cons, List.foldl_cons]
      exact ih (mapMemory_congr mapping same)

def initTlb : Tlb :=
  mappings.foldl mapMemory (mapMemory flushedEntry spramMapping)

theorem mmuInitModule_entries {kernelEnd : BitVec 32} {tlb after : Tlb}
    (returned : mmuInitModule kernelEnd tlb = some after) :
    after.entries = Tlb.entries initTlb := by
  unfold mmuInitModule at returned
  split at returned
  · cases returned
  · obtain rfl := Option.some.inj returned
    apply List.map_congr_left
    intro index listed
    have flushed := flushTlbs_at tlb tlbEntries index (List.mem_range.mp listed)
    exact congrArg Registers.entry
      (foldl_mapMemory_congr mappings (mapMemory_congr spramMapping flushed))

/-! ### The windows -/

theorem initTlb_apart : (Tlb.entries initTlb).Pairwise Entry.Apart := by
  decide +kernel

/-- The entries of a window: `count` of them from `first` on. -/
def windowEntries (first count : Nat) : List Entry :=
  ((Tlb.entries initTlb).drop first).take count

def windowPages (first count : Nat) : List Mapped :=
  (windowEntries first count).flatMap Entry.mapped

theorem windowEntries_subset (first count : Nat) :
    windowEntries first count ⊆ Tlb.entries initTlb :=
  List.Subset.trans (List.take_subset _ _) (List.drop_subset _ _)

theorem translate_window (first count : Nat) {start stop : Nat}
    (tiles : Tiles start (windowPages first count) stop)
    (valid : ∀ mapped ∈ windowPages first count, mapped.page.valid = true)
    {address : Nat} (fromStart : start ≤ address) (inside : address < stop) :
    ∃ mapped ∈ windowPages first count,
      mapped.start ≤ address ∧ address < mapped.start + mapped.size ∧
        PairTlb.translate (Tlb.entries initTlb) address =
          some (mapped.page.frame + (address - mapped.start)) :=
  translate_of_tiles initTlb_apart (windowEntries_subset first count) tiles valid
    fromStart inside

/-- The second page of the entries 15 and 24, which has the frame of the first. -/
def WrongPage (address : Nat) : Prop :=
  0x1c0000 ≤ address ∧ address < 0x200000

/-- Every page of a window at `offset` is mapped to its own address, except for
the wrong one. -/
def PagesRight (offset : Nat) (pages : List Mapped) : Prop :=
  ∀ mapped ∈ pages, mapped.page.valid = true ∧
    ((mapped.page.frame + offset = mapped.start ∧
        (mapped.start + mapped.size ≤ offset + 0x1c0000 ∨
          offset + 0x200000 ≤ mapped.start)) ∨
      (mapped.page.frame = 0x180000 ∧ mapped.start = offset + 0x1c0000 ∧
        mapped.size = 0x40000))

instance (offset : Nat) (pages : List Mapped) : Decidable (PagesRight offset pages) :=
  inferInstanceAs (Decidable (∀ mapped ∈ pages, _))

theorem translate_window_iff (first count offset : Nat) {start stop : Nat}
    (tiles : Tiles (offset + start) (windowPages first count) (offset + stop))
    (right : PagesRight offset (windowPages first count))
    {address : Nat} (fromStart : start ≤ address) (inside : address < stop) :
    PairTlb.translate (Tlb.entries initTlb) (offset + address) = some address ↔
      ¬ WrongPage address := by
  obtain ⟨mapped, member, low, high, translated⟩ :=
    translate_window first count tiles (fun mapped member => (right mapped member).1)
      (Nat.add_le_add_left fromStart offset) (Nat.add_lt_add_left inside offset)
  rw [translated, Option.some.injEq]
  unfold WrongPage
  rcases (right mapped member).2 with ⟨frame, elsewhere⟩ | ⟨frame, atStart, size⟩
  · omega
  · omega

/-- Memory reaches its own physical address through the cached and the uncached
window outside the wrong page, and through the accelerated window everywhere.
No address matches two entries. -/
theorem mmuInitModule_windows {kernelEnd : BitVec 32} {tlb after : Tlb}
    (returned : mmuInitModule kernelEnd tlb = some after) :
    (∀ address, 0x80000 ≤ address → address < 0x2000000 →
      (PairTlb.translate after.entries address = some address ∧
          PairTlb.translate after.entries (0x20000000 + address) = some address ↔
        ¬ WrongPage address)) ∧
    (∀ address, 0x100000 ≤ address → address < 0x2000000 →
      PairTlb.translate after.entries (0x30000000 + address) = some address) ∧
    ∀ (address left right : Nat) (entry entry' : Entry),
      after.entries[left]? = some entry → after.entries[right]? = some entry' →
        entry.Matches address → entry'.Matches address → left = right := by
  rw [mmuInitModule_entries returned]
  refine ⟨?_, ?_, ?_⟩
  · intro address fromStart inside
    have cachedIff := translate_window_iff 13 9 0
      (by decide +kernel) (by decide +kernel) fromStart inside
    have uncachedIff := translate_window_iff 22 9 0x20000000
      (by decide +kernel) (by decide +kernel) fromStart inside
    rw [Nat.zero_add] at cachedIff
    rw [cachedIff, uncachedIff, and_self]
  · intro address fromStart inside
    obtain ⟨mapped, member, low, _high, translated⟩ :=
      translate_window 31 8 (by decide +kernel) (by decide +kernel)
        (Nat.add_le_add_left fromStart 0x30000000)
        (Nat.add_lt_add_left inside 0x30000000)
    have ownFrames : ∀ mapped ∈ windowPages 31 8,
        mapped.page.frame + 0x30000000 = mapped.start := by
      decide +kernel
    have ownFrame := ownFrames mapped member
    rw [translated, Option.some.injEq]
    omega
  · intro address left right entry entry' atLeft atRight found found'
    exact matches_unique initTlb_apart atLeft atRight found found'

/-- The registers at reset, in a kernel of 64 KByte. -/
def resetTlb : Tlb := fun _ => ⟨0, 0, 0, 0⟩

theorem resetTlb_windows : ∃ after,
    mmuInitModule 0x80010000 resetTlb = some after ∧
      PairTlb.translate after.entries 0x123456 = some 0x123456 ∧
      PairTlb.translate after.entries 0x20123456 = some 0x123456 ∧
      PairTlb.translate after.entries 0x31234567 = some 0x1234567 := by
  have returned : (mmuInitModule 0x80010000 resetTlb).isSome = true := by
    decide +kernel
  obtain ⟨after, returned⟩ := Option.isSome_iff_exists.mp returned
  obtain ⟨windows, acceleratedWindow, _unique⟩ := mmuInitModule_windows returned
  have ownAddress := (windows 0x123456 (by decide) (by decide)).mpr (by
    unfold WrongPage
    decide)
  exact ⟨after, returned, ownAddress.1, ownAddress.2,
    acceleratedWindow 0x1234567 (by decide) (by decide)⟩

/-- The page at 0x1c0000 is an alias of the one before. -/
theorem mmuInitModule_alias : ∃ after,
    mmuInitModule 0x80010000 resetTlb = some after ∧
      PairTlb.translate after.entries 0x1c0000 = some 0x180000 ∧
      PairTlb.translate after.entries 0x201c0000 = some 0x180000 := by
  have found : (mmuInitModule 0x80010000 resetTlb).map (fun after =>
      decide (PairTlb.translate after.entries 0x1c0000 = some 0x180000 ∧
        PairTlb.translate after.entries 0x201c0000 = some 0x180000)) = some true := by
    decide +kernel
  obtain ⟨after, returned, seen⟩ := Option.map_eq_some_iff.mp found
  exact ⟨after, returned, of_decide_eq_true seen⟩

end KernelReloaded.Mmu

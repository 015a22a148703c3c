/-
Byte memories, little-endian reads and block stores.

A store is a block of bytes at a machine address.  The addresses it reaches
are given by a placement function, so that several machine addresses may name
one cell.  Stores are applied cell by cell, in ascending order.
-/

import Mathlib.Logic.Function.Basic
import Mathlib.Data.List.Basic

namespace KernelReloaded.Memory

abbrev Byte := BitVec 8

/-- A byte for every index.  Indices past the end of an object name whatever
lies behind it in memory. -/
abbrev Image := Nat → Byte

def imageOfList (bytes : List Byte) : Image :=
  fun index => bytes.getD index 0

def le16 (image : Image) (pos : Nat) : Nat :=
  (image pos).toNat + 256 * (image (pos + 1)).toNat

def le32 (image : Image) (pos : Nat) : Nat :=
  le16 image pos + 65536 * le16 image (pos + 2)

def le64 (image : Image) (pos : Nat) : Nat :=
  le32 image pos + 4294967296 * le32 image (pos + 4)

theorem le16_congr {left right : Image} {leftPos rightPos : Nat}
    (same : ∀ offset < 2,
      left (leftPos + offset) = right (rightPos + offset)) :
    le16 left leftPos = le16 right rightPos := by
  have first : left leftPos = right rightPos := same 0 (by omega)
  rw [le16, le16, first, same 1 (by omega)]

theorem le32_congr {left right : Image} {leftPos rightPos : Nat}
    (same : ∀ offset < 4,
      left (leftPos + offset) = right (rightPos + offset)) :
    le32 left leftPos = le32 right rightPos := by
  have low : le16 left leftPos = le16 right rightPos :=
    le16_congr fun offset few => same offset (by omega)
  have high : le16 left (leftPos + 2) = le16 right (rightPos + 2) := by
    apply le16_congr
    intro offset few
    rw [Nat.add_assoc, Nat.add_assoc]
    exact same (2 + offset) (by omega)
  rw [le32, le32, low, high]

theorem le64_congr {left right : Image} {leftPos rightPos : Nat}
    (same : ∀ offset < 8,
      left (leftPos + offset) = right (rightPos + offset)) :
    le64 left leftPos = le64 right rightPos := by
  have low : le32 left leftPos = le32 right rightPos :=
    le32_congr fun offset few => same offset (by omega)
  have high : le32 left (leftPos + 4) = le32 right (rightPos + 4) := by
    apply le32_congr
    intro offset few
    rw [Nat.add_assoc, Nat.add_assoc]
    exact same (4 + offset) (by omega)
  rw [le64, le64, low, high]

theorem le16_lt (image : Image) (pos : Nat) : le16 image pos < 65536 := by
  have low := (image pos).isLt
  have high := (image (pos + 1)).isLt
  rw [le16]
  omega

theorem le32_lt (image : Image) (pos : Nat) : le32 image pos < 4294967296 := by
  have low := le16_lt image pos
  have high := le16_lt image (pos + 2)
  rw [le32]
  omega

/-- The `count` low bytes of a word, least significant first. -/
def bytesLe : Nat → Nat → List Byte
  | 0, _ => []
  | count + 1, word => BitVec.ofNat 8 word :: bytesLe count (word / 256)

def toInt32 (word : Nat) : Int :=
  if word % 4294967296 < 2147483648 then (word % 4294967296 : Nat)
  else ((word % 4294967296 : Nat) : Int) - 4294967296

theorem toInt32_of_small (word : Nat) (small : word < 2147483648) :
    toInt32 word = word := by
  unfold toInt32
  have reduced : word % 4294967296 = word := by omega
  rw [reduced, if_pos small]

theorem toInt32_of_large {word : Nat} (large : 2147483648 ≤ word)
    (fits : word < 4294967296) : toInt32 word < 0 := by
  rw [toInt32, Nat.mod_eq_of_lt fits, if_neg (by omega)]
  omega

/-- A block of `size` bytes stored from machine address `dest` upwards. -/
structure Store where
  dest : Nat
  size : Nat
  byte : Nat → Byte

/-- The cells a store writes, in the order it writes them. -/
def Store.cells (place : Nat → Nat) (store : Store) : List (Nat × Byte) :=
  (List.range store.size).map fun index =>
    (place (store.dest + index), store.byte index)

theorem Store.mem_cells {place : Nat → Nat} {store : Store}
    {cell : Nat × Byte} :
    cell ∈ store.cells place ↔
      ∃ index, index < store.size ∧
        cell = (place (store.dest + index), store.byte index) := by
  unfold Store.cells
  rw [List.mem_map]
  constructor
  · rintro ⟨index, member, rfl⟩
    exact ⟨index, List.mem_range.mp member, rfl⟩
  · rintro ⟨index, inside, rfl⟩
    exact ⟨index, List.mem_range.mpr inside, rfl⟩

theorem Store.cells_congr {place : Nat → Nat} {left right : Store}
    (sameSize : left.size = right.size)
    (sameCell : ∀ index, index < left.size →
      place (left.dest + index) = place (right.dest + index) ∧
        left.byte index = right.byte index) :
    left.cells place = right.cells place := by
  unfold Store.cells
  rw [sameSize]
  apply List.map_congr_left
  intro index member
  have inside : index < left.size := by
    rw [sameSize]
    exact List.mem_range.mp member
  obtain ⟨sameAddress, sameByte⟩ := sameCell index inside
  rw [sameAddress, sameByte]

def writeCells (memory : Image) (cells : List (Nat × Byte)) : Image :=
  cells.foldl (fun current cell => Function.update current cell.1 cell.2) memory

/-- A cell no write names keeps its byte. -/
theorem writeCells_untouched (memory : Image) (cells : List (Nat × Byte))
    (address : Nat) (untouched : ∀ cell, cell ∈ cells → cell.1 ≠ address) :
    writeCells memory cells address = memory address := by
  unfold writeCells
  induction cells generalizing memory with
  | nil =>
      rfl
  | cons cell rest ih =>
      rw [List.foldl_cons, ih _ (fun other member =>
        untouched other (List.mem_cons_of_mem _ member))]
      exact Function.update_of_ne
        (fun same => untouched cell (List.mem_cons_self ..) same.symm) _ _

theorem writeCells_append (memory : Image) (first second : List (Nat × Byte)) :
    writeCells memory (first ++ second) =
      writeCells (writeCells memory first) second :=
  List.foldl_append

/-- When all writes to a cell agree, it ends with their byte. -/
theorem writeCells_of_mem {cells : List (Nat × Byte)} {address : Nat}
    {byte : Byte} (memory : Image) (written : (address, byte) ∈ cells)
    (only : ∀ cell, cell ∈ cells → cell.1 = address → cell.2 = byte) :
    writeCells memory cells address = byte := by
  induction cells generalizing memory with
  | nil =>
      cases written
  | cons cell rest ih =>
      have onlyRest : ∀ other, other ∈ rest → other.1 = address →
          other.2 = byte :=
        fun other member => only other (List.mem_cons_of_mem _ member)
      by_cases again : (address, byte) ∈ rest
      · exact ih (Function.update memory cell.1 cell.2) again onlyRest
      · have here : cell = (address, byte) :=
          ((List.mem_cons.mp written).resolve_right again).symm
        have untouched : ∀ other, other ∈ rest → other.1 ≠ address := by
          intro other member same
          apply again
          rw [← same, ← onlyRest other member same]
          exact member
        have later := writeCells_untouched
          (Function.update memory cell.1 cell.2) rest address untouched
        change writeCells (Function.update memory cell.1 cell.2) rest address =
          byte
        rw [later, here, Function.update_self]

/-- Writes under other addresses: a cell fares the same when no other written
cell takes its address. -/
theorem writeCells_relabel (place : Nat → Nat) {cells : List (Nat × Byte)}
    {left right : Image} {address : Nat}
    (same : left (place address) = right address)
    (own : ∀ cell, cell ∈ cells → place cell.1 = place address →
      cell.1 = address) :
    writeCells left (cells.map fun cell => (place cell.1, cell.2))
        (place address) =
      writeCells right cells address := by
  induction cells generalizing left right with
  | nil =>
      exact same
  | cons cell rest ih =>
      apply ih
      · dsimp only
        by_cases here : cell.1 = address
        · rw [here, Function.update_self, Function.update_self]
        · have elsewhere : place cell.1 ≠ place address := fun equal =>
            here (own cell (List.mem_cons_self ..) equal)
          rw [Function.update_of_ne elsewhere.symm,
            Function.update_of_ne (Ne.symm here)]
          exact same
      · intro other member
        exact own other (List.mem_cons_of_mem _ member)

/-! ### Copies within one memory -/

/-- Copies bytes, the lowest first. -/
def copyBytes (place : Nat → Nat) (dest source size : Nat) (memory : Image) :
    Image :=
  (List.range size).foldl
    (fun current index =>
      Function.update current (place (dest + index))
        (current (place (source + index))))
    memory

/-- The writes of such a copy; a byte is read when its turn comes. -/
def copyCells (place : Nat → Nat) (dest source : Nat) :
    List Nat → Image → List (Nat × Byte)
  | [], _ => []
  | index :: rest, memory =>
      let byte := memory (place (source + index))
      (place (dest + index), byte) ::
        copyCells place dest source rest
          (Function.update memory (place (dest + index)) byte)

theorem foldl_copy_eq_writeCells (place : Nat → Nat) (dest source : Nat)
    (indices : List Nat) (memory : Image) :
    indices.foldl
        (fun current index =>
          Function.update current (place (dest + index))
            (current (place (source + index))))
        memory =
      writeCells memory (copyCells place dest source indices memory) := by
  induction indices generalizing memory with
  | nil =>
      rfl
  | cons first rest ih =>
      rw [List.foldl_cons, ih]
      rfl

theorem copyCells_places (place : Nat → Nat) (dest source : Nat)
    (indices : List Nat) (memory : Image) :
    (copyCells place dest source indices memory).map Prod.fst =
      indices.map fun index => place (dest + index) := by
  induction indices generalizing memory with
  | nil =>
      rfl
  | cons first rest ih =>
      rw [copyCells, List.map_cons, List.map_cons, ih]

theorem copyCells_apart (place : Nat → Nat) (dest source : Nat)
    (indices : List Nat) (memory : Image)
    (apart : ∀ index, index ∈ indices → ∀ other, other ∈ indices →
      place (dest + index) ≠ place (source + other)) :
    copyCells place dest source indices memory =
      indices.map fun index =>
        (place (dest + index), memory (place (source + index))) := by
  induction indices generalizing memory with
  | nil =>
      rfl
  | cons first rest ih =>
      have apartRest : ∀ index, index ∈ rest → ∀ other, other ∈ rest →
          place (dest + index) ≠ place (source + other) :=
        fun index isIndex other isOther =>
          apart index (List.mem_cons_of_mem _ isIndex) other
            (List.mem_cons_of_mem _ isOther)
      rw [copyCells, ih _ apartRest, List.map_cons]
      congr 1
      apply List.map_congr_left
      intro other member
      rw [Function.update_of_ne]
      exact (apart first (List.mem_cons_self ..) other
        (List.mem_cons_of_mem _ member)).symm

/-- A copy between areas apart from each other moves the bytes as they were. -/
theorem copyBytes_eq_writeCells {place : Nat → Nat} {dest source size : Nat}
    (memory : Image)
    (apart : ∀ index, index < size → ∀ other, other < size →
      place (dest + index) ≠ place (source + other)) :
    copyBytes place dest source size memory =
      writeCells memory ((List.range size).map fun index =>
        (place (dest + index), memory (place (source + index)))) := by
  rw [copyBytes, foldl_copy_eq_writeCells, copyCells_apart]
  intro index isIndex other isOther
  exact apart index (List.mem_range.mp isIndex) other (List.mem_range.mp isOther)

end KernelReloaded.Memory

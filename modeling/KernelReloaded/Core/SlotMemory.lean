/-
A memory cut into units of one size, some of which hold numbered units of a
source.
-/

import Mathlib.Logic.Function.Basic
import Mathlib.Data.List.Basic

namespace KernelReloaded.SlotMemory

variable {Item : Type*} {size start count dest slot unit low : Nat}
  {source : Nat → Nat → Item} {memory : Nat → Item}

def filled (item : Item) (dest count : Nat) (memory : Nat → Item) : Nat → Item :=
  fun place =>
    if dest ≤ place ∧ place < dest + count then item else memory place

/-- A block copied within the memory, to where it does not overlap itself. -/
def copied (dest src count : Nat) (memory : Nat → Item) : Nat → Item :=
  fun place =>
    if dest ≤ place ∧ place < dest + count then memory (src + (place - dest))
    else memory place

/-- `count` units of the source, one behind the other. -/
def loaded (size : Nat) (source : Nat → Nat → Item) (first count dest : Nat)
    (memory : Nat → Item) : Nat → Item :=
  fun place =>
    if dest ≤ place ∧ place < dest + size * count then
      source (first + (place - dest) / size) ((place - dest) % size)
    else memory place

def slice (memory : Nat → Item) (start count : Nat) : List Item :=
  (List.range count).map fun offset => memory (start + offset)

/-- The unit at a slot of the memory is this unit of the source. -/
def Holds (size : Nat) (source : Nat → Nat → Item) (memory : Nat → Item)
    (slot unit : Nat) : Prop :=
  ∀ offset, offset < size → memory (size * slot + offset) = source unit offset

@[simp] theorem length_slice (memory : Nat → Item) (start count : Nat) :
    (slice memory start count).length = count := by
  simp [slice]

theorem slice_add (memory : Nat → Item) (start near far : Nat) :
    slice memory start (near + far) =
      slice memory start near ++ slice memory (start + near) far := by
  rw [slice, slice, slice, List.range_add, List.map_append, List.map_map]
  congr 1
  apply List.map_congr_left
  intro offset _member
  exact congrArg memory (Nat.add_assoc start near offset).symm

theorem slice_congr {left right : Nat → Item} {leftStart rightStart count : Nat}
    (same : ∀ offset, offset < count →
      left (leftStart + offset) = right (rightStart + offset)) :
    slice left leftStart count = slice right rightStart count := by
  apply List.map_congr_left
  intro offset member
  exact same offset (List.mem_range.mp member)

theorem slice_mul (memory : Nat → Item) (start size count : Nat) :
    slice memory start (size * count) =
      (List.range count).flatMap fun slot =>
        slice memory (start + size * slot) size := by
  induction count with
  | zero => rfl
  | succ count ih =>
      rw [Nat.mul_succ, slice_add, ih, List.range_succ, List.flatMap_append,
        List.flatMap_singleton]

theorem holds_loaded (above : low ≤ slot) (below : slot < low + count) :
    Holds size source (loaded size source start count (size * low) memory) slot
      (start + (slot - low)) := by
  intro offset inside
  obtain ⟨more, rfl⟩ := Nat.exists_eq_add_of_le above
  have fits : size * more + size ≤ size * count := by
    rw [← Nat.mul_succ]
    exact Nat.mul_le_mul_left size (by omega)
  rw [loaded, Nat.mul_add, if_pos (by omega)]
  have distance : size * low + size * more + offset - size * low =
      offset + size * more := by
    omega
  rw [distance, Nat.add_mul_div_left _ _ (by omega), Nat.add_mul_mod_self_left,
    Nat.div_eq_of_lt inside, Nat.mod_eq_of_lt inside]
  congr 1
  omega

theorem Holds.loaded_behind (holds : Holds size source memory slot unit)
    (below : slot < low) :
    Holds size source (loaded size source start count (size * low) memory) slot
      unit := by
  intro offset inside
  have fits : size * slot + size ≤ size * low := by
    rw [← Nat.mul_succ]
    exact Nat.mul_le_mul_left size below
  rw [loaded, if_neg (by omega)]
  exact holds offset inside

theorem Holds.copied_first (holds : Holds size source memory slot unit) :
    Holds size source (copied 0 (size * slot) size memory) 0 unit := by
  intro offset inside
  rw [copied, if_pos (by omega)]
  simpa using holds offset inside

/-- What stands at a place of units that follow one another. -/
theorem read_of_holds {place : Nat}
    (holds : ∀ slot, slot < count → Holds size source memory slot (start + slot))
    (inside : place < size * count) :
    memory place = source (start + place / size) (place % size) := by
  have some : 0 < size := Nat.pos_of_mul_pos_right (Nat.zero_lt_of_lt inside)
  have slotLt : place / size < count := Nat.div_lt_of_lt_mul inside
  have found := holds (place / size) slotLt (place % size) (Nat.mod_lt _ some)
  rwa [Nat.div_add_mod] at found

end KernelReloaded.SlotMemory

/-
A ring of slots with the index of its first entry and the number of entries.

The entries are read off in their order as a list; storing behind the last and
dropping the first are the list's append and tail.  In a full ring a new entry
takes the slot of the first.
-/

import Mathlib.Data.List.Basic
import Mathlib.Logic.Function.Basic

namespace KernelReloaded

structure Ring (Entry : Type*) (size : Nat) where
  slots : Nat → Entry
  first : Nat
  count : Nat
  first_lt : first < size

namespace Ring

variable {Entry : Type*} {size : Nat} (ring : Ring Entry size)

def toList : List Entry :=
  (List.range ring.count).map fun index =>
    ring.slots ((ring.first + index) % size)

def storeLast (entry : Entry) : Ring Entry size :=
  { ring with
    slots := Function.update ring.slots ((ring.first + ring.count) % size) entry
    count := ring.count + 1 }

def dropFirst : Ring Entry size :=
  { ring with
    first := (ring.first + 1) % size
    count := ring.count - 1
    first_lt := Nat.mod_lt _ (Nat.zero_lt_of_lt ring.first_lt) }

def dropLast : Ring Entry size :=
  { ring with count := ring.count - 1 }

/-- The slot of the first entry is written, and the ring begins behind it. -/
def replaceFirst (entry : Entry) : Ring Entry size :=
  { ring with
    slots := Function.update ring.slots ring.first entry
    first := (ring.first + 1) % size
    first_lt := Nat.mod_lt _ (Nat.zero_lt_of_lt ring.first_lt) }

def replaceLast (entry : Entry) : Ring Entry size :=
  { ring with
    slots := Function.update ring.slots
      ((ring.first + (ring.count - 1)) % size) entry }

@[simp] theorem length_toList : ring.toList.length = ring.count := by
  simp [toList]

/-- Positions less than one turn apart are different slots. -/
theorem mod_add_ne_mod_add {first near far : Nat} (apart : near < far)
    (turn : far - near < size) : (first + near) % size ≠ (first + far) % size := by
  intro same
  have divides : size ∣ (first + far) - (first + near) :=
    Nat.dvd_iff_mod_eq_zero.mpr (Nat.sub_mod_eq_zero_of_mod_eq same.symm)
  have short := Nat.le_of_dvd (by omega) divides
  omega

theorem toList_storeLast (room : ring.count < size) (entry : Entry) :
    (ring.storeLast entry).toList = ring.toList ++ [entry] := by
  rw [toList, toList, storeLast, List.range_succ, List.map_append,
    List.map_singleton]
  dsimp only
  rw [Function.update_self]
  congr 1
  apply List.map_congr_left
  intro index member
  have before := List.mem_range.mp member
  exact Function.update_of_ne (mod_add_ne_mod_add before (by omega)) _ _

theorem toList_of_count_pos (nonempty : 0 < ring.count) :
    ring.toList = ring.slots ring.first :: ring.dropFirst.toList := by
  obtain ⟨rest, counted⟩ := Nat.exists_eq_add_one.mpr nonempty
  rw [toList, toList, counted, List.range_succ_eq_map, List.map_cons,
    Nat.add_zero, Nat.mod_eq_of_lt ring.first_lt, List.map_map, dropFirst,
    counted, Nat.add_sub_cancel]
  congr 1
  apply List.map_congr_left
  intro index _
  dsimp only [Function.comp]
  rw [Nat.mod_add_mod, Nat.add_assoc, Nat.add_comm 1 index]

theorem toList_dropLast (nonempty : 0 < ring.count) :
    ring.toList = ring.dropLast.toList ++
      [ring.slots ((ring.first + (ring.count - 1)) % size)] := by
  obtain ⟨rest, counted⟩ := Nat.exists_eq_add_one.mpr nonempty
  rw [toList, toList, dropLast, counted, List.range_succ, List.map_append,
    List.map_singleton, Nat.add_sub_cancel]

theorem toList_replaceFirst (full : ring.count = size) (entry : Entry) :
    (ring.replaceFirst entry).toList = ring.dropFirst.toList ++ [entry] := by
  have inside := ring.first_lt
  have slot : ((ring.first + 1) % size + (size - 1)) % size = ring.first := by
    rw [Nat.mod_add_mod, Nat.add_assoc, Nat.add_sub_cancel' (by omega),
      Nat.add_mod_right, Nat.mod_eq_of_lt inside]
  have same : ring.replaceFirst entry = ring.dropFirst.storeLast entry := by
    rw [replaceFirst, storeLast, dropFirst, full, slot,
      Nat.sub_add_cancel (by omega)]
  rw [same]
  apply toList_storeLast
  rw [dropFirst, full]
  exact Nat.sub_lt (Nat.zero_lt_of_lt inside) Nat.one_pos

theorem toList_replaceLast (nonempty : 0 < ring.count)
    (fits : ring.count ≤ size) (entry : Entry) :
    (ring.replaceLast entry).toList = ring.dropLast.toList ++ [entry] := by
  have same : ring.replaceLast entry = ring.dropLast.storeLast entry := by
    rw [replaceLast, storeLast, dropLast, Nat.sub_add_cancel nonempty]
  rw [same]
  apply toList_storeLast
  exact Nat.lt_of_lt_of_le (Nat.sub_lt nonempty Nat.one_pos) fits

theorem getElem?_toList {index : Nat} (inside : index < ring.count) :
    ring.toList[index]? = some (ring.slots ((ring.first + index) % size)) := by
  rw [toList, List.getElem?_map, List.getElem?_range inside, Option.map_some]

theorem toList_eq_nil_iff : ring.toList = [] ↔ ring.count = 0 := by
  rw [← List.length_eq_zero_iff, length_toList]

end Ring

end KernelReloaded

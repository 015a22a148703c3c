/-
A memory that is written and read around its end.

Places are counted on without end and taken modulo the size.  What was put is read
back from there as long as it is not overtaken by a whole turn.
-/

import KernelReloaded.Core.Ring

namespace KernelReloaded.Circular

variable {Item : Type*} {size start : Nat}

def put (size : Nat) : (start : Nat) → List Item → (Nat → Item) → Nat → Item
  | _, [], memory => memory
  | start, item :: rest, memory =>
      put size (start + 1) rest (Function.update memory (start % size) item)

def get (size start length : Nat) (memory : Nat → Item) : List Item :=
  (List.range length).map fun index => memory ((start + index) % size)

@[simp] theorem length_get (length : Nat) (memory : Nat → Item) :
    (get size start length memory).length = length := by
  simp [get]

theorem get_mod (size start length : Nat) (memory : Nat → Item) :
    get size (start % size) length memory = get size start length memory := by
  simp only [get, Nat.mod_add_mod]

theorem get_add (size start near far : Nat) (memory : Nat → Item) :
    get size start (near + far) memory =
      get size start near memory ++ get size (start + near) far memory := by
  rw [get, get, get, List.range_add, List.map_append, List.map_map]
  congr 1
  apply List.map_congr_left
  intro index _
  dsimp only [Function.comp]
  rw [Nat.add_assoc]

theorem take_get {near far : Nat} (short : near ≤ far) (memory : Nat → Item) :
    (get size start far memory).take near = get size start near memory := by
  obtain ⟨more, rfl⟩ := Nat.exists_eq_add_of_le short
  rw [get_add, List.take_left' (length_get near memory)]

theorem put_mod (size start : Nat) (items : List Item) (memory : Nat → Item) :
    put size (start % size) items memory = put size start items memory := by
  induction items generalizing start memory with
  | nil => rfl
  | cons item rest ih =>
      rw [put, put, Nat.mod_mod, ← ih (start % size + 1), Nat.mod_add_mod, ih]

theorem put_append (first second : List Item) (memory : Nat → Item) :
    put size start (first ++ second) memory =
      put size (start + first.length) second (put size start first memory) := by
  induction first generalizing start memory with
  | nil => rfl
  | cons item rest ih =>
      rw [List.cons_append, put, ih, put, List.length_cons, Nat.add_assoc,
        Nat.add_comm 1]

theorem put_apart {items : List Item} {cell : Nat} (memory : Nat → Item)
    (apart : ∀ index < items.length, (start + index) % size ≠ cell) :
    put size start items memory cell = memory cell := by
  induction items generalizing start memory with
  | nil => rfl
  | cons item rest ih =>
      have first : start % size ≠ cell := apart 0 (Nat.zero_lt_succ _)
      rw [put, ih, Function.update_of_ne first.symm]
      intro index inside
      have later := apart (index + 1) (Nat.succ_lt_succ inside)
      rwa [Nat.add_comm index, ← Nat.add_assoc] at later

theorem put_at {items : List Item} (memory : Nat → Item) (fits : items.length ≤ size)
    {index : Nat} (inside : index < items.length) :
    put size start items memory ((start + index) % size) = items[index] := by
  induction items generalizing start index memory with
  | nil => cases inside
  | cons item rest ih =>
      rw [List.length_cons] at fits inside
      cases index with
      | zero =>
          rw [put, put_apart, Nat.add_zero, Function.update_self]
          · rfl
          · intro index below
            rw [Nat.add_assoc]
            exact (Ring.mod_add_ne_mod_add (by omega) (by omega)).symm
      | succ index =>
          have next : start + (index + 1) = start + 1 + index := by omega
          rw [put, next, List.getElem_cons_succ]
          exact ih _ (by omega) (by omega)

theorem get_put_apart {items : List Item} {near far length : Nat}
    (memory : Nat → Item)
    (apart : ∀ index < items.length, ∀ place < length,
      (far + index) % size ≠ (near + place) % size) :
    get size near length (put size far items memory) = get size near length memory := by
  apply List.map_congr_left
  intro place member
  apply put_apart
  intro index below
  exact apart index below place (List.mem_range.mp member)

/-- Putting at a place does not disturb what lies less than a turn before it. -/
theorem get_put_before {items : List Item} {near far length : Nat}
    (memory : Nat → Item) (before : near + length ≤ far)
    (turn : far + items.length ≤ near + size) :
    get size near length (put size far items memory) = get size near length memory := by
  apply get_put_apart
  intro index below place inside
  have split : far + index = near + (far - near + index) := by omega
  rw [split]
  exact (Ring.mod_add_ne_mod_add (by omega) (by omega)).symm

theorem get_put {items : List Item} {length : Nat} (memory : Nat → Item)
    (fits : items.length ≤ size) (short : length ≤ items.length) :
    get size start length (put size start items memory) = items.take length := by
  apply List.ext_getElem
  · simp [short]
  · intro index inside _
    rw [length_get] at inside
    have below : index < items.length := by omega
    simp only [get, List.getElem_map, List.getElem_range, List.getElem_take]
    exact put_at memory fits below

/-- Less than a turn further on: still before the end, or around it. -/
theorem add_mod_cases {more : Nat} (turn : more < size) :
    (start + more) % size = start % size + more ∨
      (start + more) % size + size = start % size + more := by
  have below := Nat.mod_lt start (Nat.zero_lt_of_lt turn)
  rw [Nat.add_mod, Nat.mod_eq_of_lt turn]
  by_cases wrapped : start % size + more < size
  · exact .inl (Nat.mod_eq_of_lt wrapped)
  · right
    rw [Nat.mod_eq_sub_mod (by omega), Nat.mod_eq_of_lt (by omega)]
    omega

end KernelReloaded.Circular

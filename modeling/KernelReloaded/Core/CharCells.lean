/-
Characters in memory around a char buffer.

A cell is named by its offset from the first byte of the buffer, so that a byte
before the buffer or behind it has an offset as well.  Loops that move text by
some cells are given with the order in which they move it.
-/

import KernelReloaded.Core.CText
import Mathlib.Logic.Function.Basic

namespace KernelReloaded.CharCells

open CText

abbrev Cells := Int → Char

/-! ### Text in the cells -/

def textAt (cells : Cells) : (start : Int) → (count : Nat) → Text
  | _, 0 => []
  | start, count + 1 => cells start :: textAt cells (start + 1) count

@[simp] theorem length_textAt (cells : Cells) (start : Int) (count : Nat) :
    (textAt cells start count).length = count := by
  induction count generalizing start with
  | zero =>
      rfl
  | succ count ih =>
      rw [textAt, List.length_cons, ih]

theorem textAt_add (cells : Cells) (start : Int) (first second : Nat) :
    textAt cells start (first + second) =
      textAt cells start first ++ textAt cells (start + first) second := by
  induction first generalizing start with
  | zero =>
      rw [Nat.zero_add, textAt, List.nil_append, Int.natCast_zero, Int.add_zero]
  | succ first ih =>
      have next : start + 1 + (first : Int) = start + ((first + 1 : Nat) : Int) := by
        omega
      rw [Nat.succ_add, textAt, ih, textAt, List.cons_append, next]

theorem take_textAt (cells : Cells) (start : Int) {first count : Nat}
    (inside : first ≤ count) :
    (textAt cells start count).take first = textAt cells start first := by
  obtain ⟨rest, rfl⟩ := Nat.exists_eq_add_of_le inside
  rw [textAt_add, List.take_left' (length_textAt cells start first)]

theorem textAt_congr {left right : Cells} {leftStart rightStart : Int}
    {count : Nat}
    (same : ∀ index : Nat, index < count →
      left (leftStart + index) = right (rightStart + index)) :
    textAt left leftStart count = textAt right rightStart count := by
  induction count generalizing leftStart rightStart with
  | zero =>
      rfl
  | succ count ih =>
      have first := same 0 (Nat.succ_pos count)
      rw [Int.natCast_zero, Int.add_zero, Int.add_zero] at first
      rw [textAt, textAt, first]
      congr 1
      apply ih
      intro index inside
      have later := same (index + 1) (Nat.succ_lt_succ inside)
      rw [Int.natCast_add, Int.natCast_one, Int.add_comm (index : Int) 1,
        ← Int.add_assoc, ← Int.add_assoc] at later
      exact later

theorem getElem?_textAt (cells : Cells) (start : Int) {index count : Nat}
    (inside : index < count) :
    (textAt cells start count)[index]? = some (cells (start + index)) := by
  obtain ⟨rest, rfl⟩ := Nat.exists_eq_add_of_lt inside
  rw [Nat.add_assoc, textAt_add, List.getElem?_append_right
    (by rw [length_textAt]), length_textAt, Nat.sub_self, textAt]
  rfl

theorem cells_eq_of_textAt_eq {left right : Cells} {leftStart rightStart : Int}
    {count index : Nat}
    (same : textAt left leftStart count = textAt right rightStart count)
    (inside : index < count) :
    left (leftStart + index) = right (rightStart + index) := by
  have here := getElem?_textAt left leftStart inside
  rw [same, getElem?_textAt right rightStart inside] at here
  exact (Option.some.inj here).symm

theorem mem_textAt {cells : Cells} {start : Int} {count : Nat} {char : Char} :
    char ∈ textAt cells start count ↔
      ∃ index : Nat, index < count ∧ cells (start + index) = char := by
  rw [List.mem_iff_getElem?]
  constructor
  · rintro ⟨index, here⟩
    have inside : index < count := by
      by_contra beyond
      rw [List.getElem?_eq_none (by rw [length_textAt]; omega)] at here
      cases here
    rw [getElem?_textAt cells start inside] at here
    exact ⟨index, inside, Option.some.inj here⟩
  · rintro ⟨index, inside, rfl⟩
    exact ⟨index, getElem?_textAt cells start inside⟩

/-! ### Offsets of a block of cells -/

def offsets (start : Int) (count : Nat) : List Int :=
  (List.range count).map fun index : Nat => start + index

theorem mem_offsets {start offset : Int} {count : Nat} :
    offset ∈ offsets start count ↔ start ≤ offset ∧ offset < start + count := by
  rw [offsets, List.mem_map]
  constructor
  · rintro ⟨index, member, rfl⟩
    have inside := List.mem_range.mp member
    omega
  · rintro ⟨low, high⟩
    refine ⟨(offset - start).toNat, List.mem_range.mpr (by omega), ?_⟩
    omega

/-! ### Stores -/

def storeText (cells : Cells) : (start : Int) → Text → Cells
  | _, [] => cells
  | start, char :: rest =>
      storeText (Function.update cells start char) (start + 1) rest

theorem storeText_outside (cells : Cells) {start offset : Int} {text : Text}
    (outside : offset < start ∨ start + text.length ≤ offset) :
    storeText cells start text offset = cells offset := by
  induction text generalizing cells start with
  | nil =>
      rfl
  | cons char rest ih =>
      rw [List.length_cons] at outside
      have apart : offset ≠ start := by omega
      rw [storeText, ih _ (by omega), Function.update_of_ne apart]

theorem textAt_storeText (cells : Cells) (start : Int) (text : Text) :
    textAt (storeText cells start text) start text.length = text := by
  induction text generalizing cells start with
  | nil =>
      rfl
  | cons char rest ih =>
      have first : storeText cells start (char :: rest) start = char := by
        rw [storeText, storeText_outside _ (Or.inl (by omega)),
          Function.update_self]
      rw [List.length_cons, textAt, first]
      congr 1
      exact ih _ _

theorem storeText_append (cells : Cells) (start : Int) (first second : Text) :
    storeText cells start (first ++ second) =
      storeText (storeText cells start first) (start + first.length) second := by
  induction first generalizing cells start with
  | nil =>
      rw [List.nil_append, List.length_nil, Int.natCast_zero, Int.add_zero,
        storeText]
  | cons char rest ih =>
      have next : start + 1 + (rest.length : Int) =
          start + (char :: rest).length := by
        rw [List.length_cons]
        omega
      rw [List.cons_append, storeText, ih, next, storeText]

/-- The text in front of what is stored last. -/
theorem textAt_storeText_append (cells : Cells) (start : Int)
    (first second : Text) :
    textAt (storeText cells start (first ++ second)) start first.length =
      first := by
  have kept : textAt (storeText cells start (first ++ second)) start
        first.length =
      textAt (storeText cells start first) start first.length := by
    apply textAt_congr
    intro index inside
    rw [storeText_append, storeText_outside _ (Or.inl (by omega))]
  rw [kept, textAt_storeText]

/-! ### Moves -/

/-- Moves `count` cells to a place before them, the first one first. -/
def moveDown (cells : Cells) (dest source : Int) : (count : Nat) → Cells
  | 0 => cells
  | count + 1 =>
      let moved := moveDown cells dest source count
      Function.update moved (dest + count) (moved (source + count))

theorem moveDown_outside (cells : Cells) (dest source : Int) {offset : Int}
    {count : Nat} (outside : offset < dest ∨ dest + count ≤ offset) :
    moveDown cells dest source count offset = cells offset := by
  induction count with
  | zero =>
      rfl
  | succ count ih =>
      have apart : offset ≠ dest + count := by omega
      rw [moveDown, Function.update_of_ne apart, ih (by omega)]

theorem moveDown_inside (cells : Cells) {dest source : Int} {index count : Nat}
    (lower : dest ≤ source) (inside : index < count) :
    moveDown cells dest source count (dest + index) =
      cells (source + index) := by
  induction count with
  | zero =>
      cases inside
  | succ count ih =>
      rw [moveDown]
      rcases Nat.eq_or_lt_of_le (Nat.le_of_lt_succ inside) with rfl | earlier
      · rw [Function.update_self, moveDown_outside cells dest source
          (Or.inr (by omega))]
      · have apart : dest + (index : Int) ≠ dest + count := by omega
        rw [Function.update_of_ne apart, ih earlier]

/-- Moves `count` cells up by one, the last one first. -/
def moveUp (cells : Cells) (start : Int) : (count : Nat) → Cells
  | 0 => cells
  | count + 1 =>
      moveUp (Function.update cells (start + count + 1) (cells (start + count)))
        start count

theorem moveUp_outside (cells : Cells) {start offset : Int} {count : Nat}
    (outside : offset ≤ start ∨ start + count < offset) :
    moveUp cells start count offset = cells offset := by
  induction count generalizing cells with
  | zero =>
      rfl
  | succ count ih =>
      have apart : offset ≠ start + count + 1 := by omega
      rw [moveUp, ih _ (by omega), Function.update_of_ne apart]

theorem moveUp_inside (cells : Cells) {start offset : Int} {count : Nat}
    (low : start ≤ offset) (high : offset < start + count) :
    moveUp cells start count (offset + 1) = cells offset := by
  induction count generalizing cells with
  | zero =>
      omega
  | succ count ih =>
      rw [moveUp]
      by_cases last : offset = start + count
      · rw [moveUp_outside _ (Or.inr (by omega)), last, Function.update_self]
      · have apart : offset ≠ start + count + 1 := by omega
        rw [ih _ (by omega), Function.update_of_ne apart]

/-! ### Terminated text -/

/-- The text and its NUL stand at `start`. -/
def HoldsText (cells : Cells) : (start : Int) → Text → Prop
  | start, [] => cells start = '\x00'
  | start, char :: rest =>
      cells start = char ∧ char ≠ '\x00' ∧ HoldsText cells (start + 1) rest

namespace HoldsText

variable {cells moved : Cells} {start : Int} {text front behind : Text}

theorem drop (holds : HoldsText cells start (front ++ behind)) :
    HoldsText cells (start + front.length) behind := by
  induction front generalizing start with
  | nil =>
      rw [List.length_nil, Int.natCast_zero, Int.add_zero]
      exact holds
  | cons char rest ih =>
      have next : start + 1 + (rest.length : Int) =
          start + (char :: rest).length := by
        rw [List.length_cons]
        omega
      rw [← next]
      exact ih holds.2.2

/-- Another text behind the same front. -/
theorem replace {other : Text}
    (holds : HoldsText cells start (front ++ behind))
    (same : ∀ offset, start ≤ offset → offset < start + front.length →
      moved offset = cells offset)
    (holdsOther : HoldsText moved (start + front.length) other) :
    HoldsText moved start (front ++ other) := by
  induction front generalizing start with
  | nil =>
      rw [List.length_nil, Int.natCast_zero, Int.add_zero] at holdsOther
      exact holdsOther
  | cons char rest ih =>
      rw [List.length_cons] at same holdsOther
      obtain ⟨first, notNul, later⟩ := holds
      refine ⟨?_, notNul, ?_⟩
      · rw [same start (Int.le_refl _) (by omega)]
        exact first
      · apply ih later
        · intro offset low high
          exact same offset (by omega) (by omega)
        · have next : start + 1 + (rest.length : Int) =
              start + ((rest.length + 1 : Nat) : Int) := by
            omega
          rw [next]
          exact holdsOther

/-- The same text in cells some way off. -/
theorem shift (distance : Int) (holds : HoldsText cells start text)
    (same : ∀ offset, start ≤ offset → offset ≤ start + text.length →
      moved (offset + distance) = cells offset) :
    HoldsText moved (start + distance) text := by
  induction text generalizing start with
  | nil =>
      rw [HoldsText, same start (Int.le_refl _) (by omega)]
      exact holds
  | cons char rest ih =>
      rw [List.length_cons] at same
      obtain ⟨first, notNul, later⟩ := holds
      refine ⟨?_, notNul, ?_⟩
      · rw [same start (Int.le_refl _) (by omega)]
        exact first
      · rw [Int.add_right_comm]
        apply ih later
        intro offset low high
        exact same offset (by omega) (by omega)

theorem congr (holds : HoldsText cells start text)
    (same : ∀ offset, start ≤ offset → offset ≤ start + text.length →
      moved offset = cells offset) :
    HoldsText moved start text := by
  have kept : HoldsText moved (start + 0) text :=
    holds.shift 0 (by simpa using same)
  rw [Int.add_zero] at kept
  exact kept

theorem textAt_eq (holds : HoldsText cells start text) :
    textAt cells start text.length = text := by
  induction text generalizing start with
  | nil =>
      rfl
  | cons char rest ih =>
      rw [List.length_cons, textAt, holds.1, ih holds.2.2]

/-- A character between, with the text behind it and its NUL moved up. -/
theorem insert (holds : HoldsText cells start (front ++ behind)) {char : Char}
    (notNul : char ≠ '\x00') (count : Nat) (enough : behind.length < count) :
    HoldsText
      (Function.update (moveUp cells (start + front.length) count)
        (start + front.length) char)
      start (front ++ char :: behind) := by
  apply holds.replace
  · intro offset _low high
    rw [Function.update_of_ne (by omega), moveUp_outside _ (Or.inl (by omega))]
  · refine ⟨Function.update_self _ _ _, notNul, ?_⟩
    apply holds.drop.shift 1
    intro offset low high
    rw [Function.update_of_ne (by omega), moveUp_inside _ low (by omega)]

end HoldsText

theorem holdsText_of_textAt {cells : Cells} {start : Int} {text : Text}
    (same : textAt cells start text.length = text) (nulFree : '\x00' ∉ text)
    (terminated : cells (start + text.length) = '\x00') :
    HoldsText cells start text := by
  induction text generalizing start with
  | nil =>
      rw [List.length_nil, Int.natCast_zero, Int.add_zero] at terminated
      exact terminated
  | cons char rest ih =>
      rw [List.length_cons, textAt] at same
      obtain ⟨first, later⟩ := List.cons_eq_cons.mp same
      have next : start + 1 + (rest.length : Int) =
          start + (char :: rest).length := by
        rw [List.length_cons]
        omega
      refine ⟨first, List.ne_of_not_mem_cons nulFree |>.symm, ?_⟩
      apply ih later (List.not_mem_of_not_mem_cons nulFree)
      rw [next]
      exact terminated

/-- The offset of the next NUL; `none` when it does not come within `rounds`
characters. -/
def findNul (cells : Cells) : (rounds : Nat) → (c : Int) → Option Int
  | 0, _ => none
  | rounds + 1, c =>
      if cells c = '\x00' then some c else findNul cells rounds (c + 1)

theorem findNul_of_holds {cells : Cells} {start : Int} {text : Text}
    {rounds : Nat} (holds : HoldsText cells start text)
    (enough : text.length < rounds) :
    findNul cells rounds start = some (start + text.length) := by
  induction text generalizing start rounds with
  | nil =>
      cases rounds with
      | zero =>
          cases enough
      | succ rounds =>
          have isNul : cells start = '\x00' := holds
          rw [findNul, if_pos isNul, List.length_nil, Int.natCast_zero,
            Int.add_zero]
  | cons char rest ih =>
      cases rounds with
      | zero =>
          cases enough
      | succ rounds =>
          rw [List.length_cons] at enough
          obtain ⟨first, notNul, later⟩ := holds
          rw [findNul, first, if_neg notNul, ih later (by omega),
            List.length_cons]
          congr 1
          omega

/-- Moves the cells behind `c` down by one up to the next NUL; with the offset
where the loop ends. -/
def closeGap : (rounds : Nat) → (c : Int) → Cells → Option (Cells × Int)
  | 0, _, _ => none
  | rounds + 1, c, cells =>
      if cells c = '\x00' then some (cells, c)
      else closeGap rounds (c + 1) (Function.update cells c (cells (c + 1)))

theorem closeGap_of_holds {cells : Cells} {start : Int} {text : Text}
    {rounds : Nat} (holds : HoldsText cells start text)
    (enough : text.length < rounds) :
    ∃ closed, closeGap rounds start cells =
        some (closed, start + text.length) ∧
      HoldsText closed start text.tail ∧
      ∀ offset, offset < start → closed offset = cells offset := by
  induction text generalizing cells start rounds with
  | nil =>
      cases rounds with
      | zero =>
          cases enough
      | succ rounds =>
          have isNul : cells start = '\x00' := holds
          refine ⟨cells, ?_, holds, fun _offset _before => rfl⟩
          rw [closeGap, if_pos isNul, List.length_nil, Int.natCast_zero,
            Int.add_zero]
  | cons char rest ih =>
      cases rounds with
      | zero =>
          cases enough
      | succ rounds =>
          rw [List.length_cons] at enough
          have enoughBehind : rest.length < rounds := by omega
          obtain ⟨first, notNul, later⟩ := holds
          have behind : HoldsText
              (Function.update cells start (cells (start + 1))) (start + 1)
              rest := by
            apply later.congr
            intro offset low high
            exact Function.update_of_ne (by omega) _ _
          obtain ⟨closed, done, holdsRest, same⟩ := ih behind enoughBehind
          have here : closed start = cells (start + 1) := by
            rw [same start (by omega), Function.update_self]
          refine ⟨closed, ?_, ?_, ?_⟩
          · rw [closeGap, first, if_neg notNul, done, List.length_cons]
            congr 2
            omega
          · cases rest with
            | nil =>
                exact here.trans later
            | cons next rest =>
                exact ⟨here.trans later.1, later.2.1, holdsRest⟩
          · intro offset before
            rw [same offset (by omega), Function.update_of_ne (by omega)]

end KernelReloaded.CharCells

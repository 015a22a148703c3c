/-
Replacing a pattern in place, in one scan from left to right.

The scan compares the pattern with what its own replacements have left.  It
replaces the occurrences of the cells it began with, and nothing else, when no
end of the pattern or of its replacement is a beginning of the pattern.
-/

import Mathlib.Data.List.Basic

namespace KernelReloaded.PatternPatch

section

variable {α : Type}

def Occurs (pattern : List α) (cells : Nat → α) (start : Nat) : Prop :=
  ∀ index (inside : index < pattern.length),
    cells (start + index) = pattern.get ⟨index, inside⟩

instance [DecidableEq α] (pattern : List α) (cells : Nat → α) (start : Nat) :
    Decidable (Occurs pattern cells start) :=
  inferInstanceAs (Decidable (∀ index (_ : index < pattern.length), _))

def overwrite (patch : List α) (cells : Nat → α) (start : Nat) : Nat → α :=
  fun place =>
    if start ≤ place then (patch[place - start]?).getD (cells place)
    else cells place

/-- No proper end of the first list is a beginning of the second. -/
def Unlinked (first second : List α) : Prop :=
  ∀ shift, 0 < shift → shift < second.length →
    first.drop shift ≠ second.take (second.length - shift)

instance [DecidableEq α] (first second : List α) :
    Decidable (Unlinked first second) :=
  decidable_of_iff
    (∀ shift, shift < second.length → 0 < shift →
      first.drop shift ≠ second.take (second.length - shift))
    ⟨fun unlinked shift behind inside => unlinked shift inside behind,
      fun unlinked shift inside behind => unlinked shift behind inside⟩

/-- A pattern and its replacement that do not run into the pattern again. -/
structure Patch (α : Type) where
  pattern : List α
  replacement : List α
  sameLength : replacement.length = pattern.length
  pattern_unlinked : Unlinked pattern pattern
  replacement_unlinked : Unlinked replacement pattern

variable {first second : List α} {cells : Nat → α} {start : Nat}

theorem Occurs.congr {other : Nat → α} (occurs : Occurs first cells start)
    (same : ∀ index, index < first.length →
      other (start + index) = cells (start + index)) :
    Occurs first other start := by
  intro index inside
  rw [same index inside]
  exact occurs index inside

theorem overwrite_occurs (patch : List α) (cells : Nat → α) (start : Nat) :
    Occurs patch (overwrite patch cells start) start := by
  intro index inside
  unfold overwrite
  rw [if_pos (Nat.le_add_right _ _), Nat.add_sub_cancel_left,
    List.getElem?_eq_getElem inside]
  rfl

theorem overwrite_outside {patch : List α} {place : Nat}
    (outside : place < start ∨ start + patch.length ≤ place) :
    overwrite patch cells start place = cells place := by
  unfold overwrite
  by_cases before : start ≤ place
  · rw [if_pos before, List.getElem?_eq_none (by omega)]
    rfl
  · rw [if_neg before]

/-- Two lists that occur shifted against each other agree where they overlap. -/
theorem Occurs.overlap {shift : Nat} (sameLength : first.length = second.length)
    (occurs : Occurs first cells start)
    (shifted : Occurs second cells (start + shift)) :
    first.drop shift = second.take (second.length - shift) := by
  apply List.ext_getElem
  · simp [sameLength]
  · intro index inFirst inSecond
    rw [List.length_drop] at inFirst
    rw [List.length_take] at inSecond
    rw [List.getElem_drop, List.getElem_take]
    have left := occurs (shift + index) (by omega)
    have right := shifted index (by omega)
    rw [← Nat.add_assoc, right] at left
    exact left.symm

theorem Occurs.apart {other : Nat} (sameLength : first.length = second.length)
    (unlinked : Unlinked first second) (occurs : Occurs first cells start)
    (later : Occurs second cells other) (behind : start < other) :
    start + second.length ≤ other := by
  obtain ⟨shift, rfl⟩ := Nat.exists_eq_add_of_le (Nat.le_of_lt behind)
  by_contra overlapping
  exact unlinked shift (by omega) (by omega) (occurs.overlap sameLength later)

end

/-! ### Replaced occurrences -/

section

variable {α : Type} (patch : Patch α)

/-- An occurrence that begins before the bound covers the place. -/
def Covered (cells : Nat → α) (bound place : Nat) : Prop :=
  ∃ start, start < bound ∧ Occurs patch.pattern cells start ∧
    start ≤ place ∧ place < start + patch.pattern.length

/-- The occurrences before the bound are replaced, and all other cells kept. -/
structure Replaced (cells : Nat → α) (bound : Nat) (result : Nat → α) :
    Prop where
  patched : ∀ start, start < bound → Occurs patch.pattern cells start →
    Occurs patch.replacement result start
  kept : ∀ place, ¬ Covered patch cells bound place →
    result place = cells place

variable {patch} {cells result : Nat → α} {bound : Nat}

/-- Where no replaced occurrence reaches in, the cells are those of the
beginning. -/
theorem Replaced.ahead (replaced : Replaced patch cells bound result)
    (clear : ¬ Covered patch cells bound bound) (index : Nat) :
    result (bound + index) = cells (bound + index) := by
  apply replaced.kept
  intro covered
  obtain ⟨start, before, occurs, first, last⟩ := covered
  exact clear ⟨start, before, occurs, Nat.le_of_lt before, by omega⟩

theorem not_covered_of_occurs (occurs : Occurs patch.pattern cells bound) :
    ¬ Covered patch cells bound bound := by
  intro covered
  obtain ⟨start, before, earlier, -, last⟩ := covered
  have apart := earlier.apart rfl patch.pattern_unlinked occurs before
  omega

theorem Replaced.not_covered (replaced : Replaced patch cells bound result)
    (occurs : Occurs patch.pattern result bound) :
    ¬ Covered patch cells bound bound := by
  intro covered
  obtain ⟨start, before, earlier, -, last⟩ := covered
  have there := replaced.patched start before earlier
  have apart := there.apart patch.sameLength patch.replacement_unlinked occurs
    before
  omega

/-- The occurrences ahead are those of the beginning. -/
theorem Replaced.occurs_iff (replaced : Replaced patch cells bound result) :
    Occurs patch.pattern result bound ↔ Occurs patch.pattern cells bound := by
  constructor
  · intro occurs
    have clear := replaced.not_covered occurs
    exact occurs.congr fun index _inside => (replaced.ahead clear index).symm
  · intro occurs
    have clear := not_covered_of_occurs occurs
    exact occurs.congr fun index _inside => replaced.ahead clear index

end

/-! ### The scan -/

section

variable {α : Type} [DecidableEq α] (patch : Patch α)

def scanStep (cells : Nat → α) (start : Nat) : Nat → α :=
  if Occurs patch.pattern cells start then
    overwrite patch.replacement cells start
  else cells

def scan (cells : Nat → α) (bound : Nat) : Nat → α :=
  (List.range bound).foldl (scanStep patch) cells

theorem scan_succ (cells : Nat → α) (bound : Nat) :
    scan patch cells (bound + 1) =
      scanStep patch (scan patch cells bound) bound := by
  unfold scan
  rw [List.range_succ, List.foldl_append]
  rfl

variable {patch} {cells result : Nat → α} {bound : Nat}

theorem Replaced.step (replaced : Replaced patch cells bound result) :
    Replaced patch cells (bound + 1) (scanStep patch result bound) := by
  unfold scanStep
  by_cases here : Occurs patch.pattern cells bound
  · rw [if_pos (replaced.occurs_iff.mpr here)]
    have clear := not_covered_of_occurs here
    constructor
    · intro start before occurs
      by_cases last : start = bound
      · rw [last]
        exact overwrite_occurs _ _ _
      · have earlier : start < bound := by omega
        apply (replaced.patched start earlier occurs).congr
        intro index inside
        apply overwrite_outside
        left
        by_contra reaches
        rw [patch.sameLength] at inside
        exact clear ⟨start, earlier, occurs, Nat.le_of_lt earlier, by omega⟩
    · intro place outside
      rw [overwrite_outside]
      · apply replaced.kept
        intro covered
        obtain ⟨start, before, occurs, within⟩ := covered
        exact outside ⟨start, Nat.lt_succ_of_lt before, occurs, within⟩
      · by_contra inside
        rw [patch.sameLength] at inside
        exact outside ⟨bound, Nat.lt_succ_self _, here, by omega⟩
  · rw [if_neg fun occurs => here (replaced.occurs_iff.mp occurs)]
    constructor
    · intro start before occurs
      have notHere : start ≠ bound := by
        intro same
        exact here (same ▸ occurs)
      exact replaced.patched start (by omega) occurs
    · intro place outside
      apply replaced.kept
      intro covered
      obtain ⟨start, before, occurs, within⟩ := covered
      exact outside ⟨start, Nat.lt_succ_of_lt before, occurs, within⟩

theorem scan_replaced (patch : Patch α) (cells : Nat → α) (bound : Nat) :
    Replaced patch cells bound (scan patch cells bound) := by
  induction bound with
  | zero =>
      constructor
      · intro start before
        cases before
      · intro place _outside
        rfl
  | succ bound ih =>
      rw [scan_succ]
      exact ih.step

end

end KernelReloaded.PatternPatch

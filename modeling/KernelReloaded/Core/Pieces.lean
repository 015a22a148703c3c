/-
Cutting a list into pieces from its front, as a loop does that moves on by what
it has used.

A cutter tells how many items the next piece takes: at least one, and no more
than there are.
-/

import Mathlib.Algebra.Group.Nat.Defs
import Mathlib.Data.List.Basic

namespace KernelReloaded

structure Cutter (α : Type*) where
  cut : List α → Nat
  cut_pos : ∀ items, items ≠ [] → 0 < cut items
  cut_le : ∀ items, items ≠ [] → cut items ≤ items.length

namespace Cutter

variable {α : Type*} (cutter : Cutter α)

def pieces (items : List α) : List (List α) :=
  if _nonempty : items ≠ [] then
    items.take (cutter.cut items) :: pieces (items.drop (cutter.cut items))
  else
    []
  termination_by items.length
  decreasing_by
    rw [List.length_drop]
    exact Nat.sub_lt (List.length_pos_iff.mpr _nonempty)
      (cutter.cut_pos items _nonempty)

@[simp] theorem pieces_nil : cutter.pieces [] = [] := by
  rw [pieces, dif_neg (not_not.mpr rfl)]

theorem pieces_of_ne_nil {items : List α} (nonempty : items ≠ []) :
    cutter.pieces items = items.take (cutter.cut items) ::
      cutter.pieces (items.drop (cutter.cut items)) := by
  rw [pieces, dif_pos nonempty]

/-- What holds of no items, and of some items when it holds of those behind the
first piece. -/
theorem induction {motive : List α → Prop} (nil : motive [])
    (next : ∀ items, items ≠ [] → motive (items.drop (cutter.cut items)) →
      motive items) (items : List α) : motive items := by
  induction length : items.length using Nat.strongRecOn generalizing items with
  | _ count ih =>
      by_cases empty : items = []
      · rw [empty]
        exact nil
      · have shorter : (items.drop (cutter.cut items)).length < count := by
          have positive := cutter.cut_pos items empty
          have some := List.length_pos_iff.mpr empty
          rw [List.length_drop]
          omega
        exact next items empty (ih _ shorter _ rfl)

theorem flatten_pieces (items : List α) :
    (cutter.pieces items).flatten = items := by
  induction items using cutter.induction with
  | nil =>
      rw [pieces_nil]
      rfl
  | next items nonempty ih =>
      rw [cutter.pieces_of_ne_nil nonempty, List.flatten_cons, ih,
        List.take_append_drop]

/-- What holds of every first piece holds of all pieces. -/
theorem forall_mem_pieces {holds : List α → Prop}
    (first : ∀ items, items ≠ [] → holds (items.take (cutter.cut items)))
    (items : List α) : ∀ piece ∈ cutter.pieces items, holds piece := by
  induction items using cutter.induction with
  | nil =>
      rw [pieces_nil]
      intro piece member
      cases member
  | next items nonempty ih =>
      rw [cutter.pieces_of_ne_nil nonempty]
      intro piece member
      rcases List.mem_cons.mp member with rfl | later
      · exact first items nonempty
      · exact ih piece later

theorem length_le_of_mem_pieces {items piece : List α}
    (member : piece ∈ cutter.pieces items) : piece.length ≤ items.length := by
  have sublist := List.sublist_flatten_of_mem member
  rw [cutter.flatten_pieces] at sublist
  exact sublist.length_le

end Cutter

end KernelReloaded

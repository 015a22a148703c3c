/-
The last element of a list that has a property, with what stands before it.

Lists grow at their end here, as a run does: an element that is added is the
last one of its kind, or leaves the last one as it was.
-/

import Mathlib.Data.List.Basic
import Mathlib.Data.List.Induction

namespace KernelReloaded.LastOccurrence

variable {α : Type} {p q : α → Prop} {front list : List α} {last : α}

/-- `last` is in the list behind `front`, and no other one is behind it. -/
def IsLast (p : α → Prop) (front : List α) (last : α) (list : List α) : Prop :=
  p last ∧ ∃ back, list = front ++ last :: back ∧ ∀ other, other ∈ back → ¬ p other

theorem IsLast.not_nil : ¬ IsLast p front last [] := by
  intro isLast
  obtain ⟨-, back, same, -⟩ := isLast
  cases front <;> cases same

theorem isLast_concat (x : α) :
    IsLast p front last (list ++ [x]) ↔
      (p x ∧ front = list ∧ last = x) ∨ (¬ p x ∧ IsLast p front last list) := by
  constructor
  · intro isLast
    obtain ⟨holds, back, same, others⟩ := isLast
    rcases List.eq_nil_or_concat' back with rfl | ⟨back, y, rfl⟩
    · obtain ⟨rfl, sameLast⟩ := List.append_inj' same rfl
      cases sameLast
      exact Or.inl ⟨holds, rfl, rfl⟩
    · rw [← List.cons_append, ← List.append_assoc] at same
      obtain ⟨rfl, sameLast⟩ := List.append_inj' same rfl
      cases sameLast
      refine Or.inr ⟨others x (by simp), holds, back, rfl, ?_⟩
      intro other member
      exact others other (List.mem_append_left _ member)
  · intro cases
    rcases cases with ⟨holds, rfl, rfl⟩ | ⟨fails, holds, back, rfl, others⟩
    · exact ⟨holds, [], rfl, fun _other member => by cases member⟩
    · refine ⟨holds, back ++ [x], by simp, ?_⟩
      intro other member
      rcases List.mem_append.mp member with inBack | isNew
      · exact others other inBack
      · rw [List.mem_singleton.mp isNew]
        exact fails

theorem IsLast.unique {front' : List α} {last' : α}
    (isLast : IsLast p front last list) (isLast' : IsLast p front' last' list) :
    front = front' ∧ last = last' := by
  induction list using List.reverseRecOn with
  | nil => exact absurd isLast IsLast.not_nil
  | append_singleton list x ih =>
      rcases (isLast_concat x).mp isLast with ⟨holds, rfl, rfl⟩ | ⟨fails, earlier⟩
      · rcases (isLast_concat _).mp isLast' with ⟨-, rfl, rfl⟩ | ⟨fails, -⟩
        · exact ⟨rfl, rfl⟩
        · exact absurd holds fails
      · rcases (isLast_concat x).mp isLast' with ⟨holds, -⟩ | ⟨-, earlier'⟩
        · exact absurd holds fails
        · exact ih earlier earlier'

theorem IsLast.mono (isLast : IsLast p front last list) (holds : q last)
    (weaker : ∀ x, q x → p x) : IsLast q front last list := by
  obtain ⟨-, back, same, others⟩ := isLast
  exact ⟨holds, back, same, fun other member found =>
    others other member (weaker other found)⟩

end KernelReloaded.LastOccurrence

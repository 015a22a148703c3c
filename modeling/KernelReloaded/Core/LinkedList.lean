/-
Singly linked lists in a table of cells.

A link is the key of a cell or nothing.  The table is any function from keys to
the link of the cell; changing one cell is `Function.update`.
-/

import Mathlib.Data.List.Nodup
import Mathlib.Logic.Function.Basic

namespace KernelReloaded

variable {Key : Type*}

/-- Following the links from `head` passes exactly the cells of the list, in
this order. -/
def Linked (next : Key → Option Key) : Option Key → List Key → Prop
  | head, [] => head = none
  | head, key :: rest => head = some key ∧ Linked next (next key) rest

instance Linked.decidable [DecidableEq Key] (next : Key → Option Key) :
    (head : Option Key) → (list : List Key) → Decidable (Linked next head list)
  | head, [] => inferInstanceAs (Decidable (head = none))
  | head, key :: rest =>
      have := Linked.decidable next (next key) rest
      inferInstanceAs (Decidable (head = some key ∧ Linked next (next key) rest))

namespace Linked

variable {next : Key → Option Key} {head : Option Key} {list : List Key}

theorem eq_nil (linked : Linked next none list) : list = [] := by
  cases list with
  | nil => rfl
  | cons key rest => cases linked.1

theorem eq_cons {key : Key} (linked : Linked next (some key) list) :
    ∃ rest, list = key :: rest ∧ Linked next (next key) rest := by
  cases list with
  | nil => cases linked
  | cons first rest =>
      obtain ⟨same, later⟩ := linked
      obtain rfl := Option.some.inj same
      exact ⟨rest, rfl, later⟩

/-- Two tables that agree on the cells of a list hold the same list. -/
theorem congr {next' : Key → Option Key} (linked : Linked next head list)
    (same : ∀ key ∈ list, next' key = next key) : Linked next' head list := by
  induction list generalizing head with
  | nil => exact linked
  | cons key rest ih =>
      obtain ⟨atHead, later⟩ := linked
      refine ⟨atHead, ?_⟩
      rw [same key List.mem_cons_self]
      exact ih later fun other inRest => same other (List.mem_cons_of_mem key inRest)

variable [DecidableEq Key]

theorem update {key : Key} {link : Option Key} (linked : Linked next head list)
    (notListed : key ∉ list) :
    Linked (Function.update next key link) head list := by
  apply linked.congr
  intro other listed
  exact Function.update_of_ne (ne_of_mem_of_not_mem listed notListed) link next

/-- A cell put in front of a list. -/
theorem push {key : Key} (linked : Linked next head list)
    (notListed : key ∉ list) :
    Linked (Function.update next key head) (some key) (key :: list) := by
  refine ⟨rfl, ?_⟩
  rw [Function.update_self]
  exact linked.update notListed

end Linked

end KernelReloaded

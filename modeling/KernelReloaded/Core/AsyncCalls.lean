/-
Calls that are answered later.

A call returns a number.  With 0 it promises to report its end once, with any
other number it never does.  While calls are under way they take a flag that at
most one of them may hold; the calls are a table, and a step replaces one
entry of it.
-/

import Mathlib.Logic.Function.Basic

namespace KernelReloaded

/-! ### A flag and its holder -/

/-- The flag is set while there is a holder, and there is never a second one. -/
structure Exclusive {Id : Type*} (flag : Prop) (holds : Id → Prop) : Prop where
  held : flag ↔ ∃ id, holds id
  unique : ∀ first second, holds first → holds second → first = second

namespace Exclusive

variable {Id Entry : Type*} {flag : Prop}

theorem empty {holds : Id → Prop} (clear : ¬ flag)
    (nobody : ∀ id, ¬ holds id) : Exclusive flag holds where
  held := by
    constructor
    · intro isSet
      exact (clear isSet).elim
    · rintro ⟨id, holding⟩
      exact (nobody id holding).elim
  unique := by
    intro first second holding _
    exact (nobody first holding).elim

theorem nobody {holds : Id → Prop} (exclusive : Exclusive flag holds)
    (clear : ¬ flag) (id : Id) : ¬ holds id :=
  fun holding => clear (exclusive.held.mpr ⟨id, holding⟩)

variable [DecidableEq Id] {table : Id → Entry} {holding : Entry → Prop}
  {id : Id} {entry : Entry} {after : Prop}

/-- An entry changes without taking or giving back the flag. -/
theorem keep (exclusive : Exclusive flag fun other => holding (table other))
    (same : holding entry ↔ holding (table id)) (sameFlag : after ↔ flag) :
    Exclusive after fun other => holding (Function.update table id entry other) := by
  have unchanged (other : Id) :
      holding (Function.update table id entry other) ↔ holding (table other) := by
    by_cases isId : other = id
    · subst isId
      rw [Function.update_self]
      exact same
    · rw [Function.update_of_ne isId]
  constructor
  · rw [sameFlag, exclusive.held]
    exact exists_congr fun other => (unchanged other).symm
  · intro first second firstHolds secondHolds
    exact exclusive.unique first second ((unchanged first).mp firstHolds)
      ((unchanged second).mp secondHolds)

theorem acquire (exclusive : Exclusive flag fun other => holding (table other))
    (clear : ¬ flag) (takes : holding entry) (isSet : after) :
    Exclusive after fun other => holding (Function.update table id entry other) := by
  have only (other : Id)
      (holds : holding (Function.update table id entry other)) : other = id := by
    by_contra different
    rw [Function.update_of_ne different] at holds
    exact exclusive.nobody clear other holds
  constructor
  · refine ⟨fun _ => ⟨id, ?_⟩, fun _ => isSet⟩
    rw [Function.update_self]
    exact takes
  · intro first second firstHolds secondHolds
    rw [only first firstHolds, only second secondHolds]

theorem release (exclusive : Exclusive flag fun other => holding (table other))
    (holds : holding (table id)) (gives : ¬ holding entry) (clear : ¬ after) :
    Exclusive after fun other => holding (Function.update table id entry other) := by
  apply empty clear
  intro other otherHolds
  by_cases isId : other = id
  · subst isId
    rw [Function.update_self] at otherHolds
    exact gives otherHolds
  · rw [Function.update_of_ne isId] at otherHolds
    exact isId (exclusive.unique other id otherHolds holds)

end Exclusive

/-! ### Answers -/

/-- What a caller has seen of a call: the number it returned, and the results
its end was reported with. -/
structure Answer (Result : Type*) where
  returned : Option Int
  ended : List Result
deriving DecidableEq

namespace Answer

variable {Result : Type*}

def open_ : Answer Result := { returned := none, ended := [] }

def refuse (value : Int) : Answer Result :=
  { returned := some value, ended := [] }

/-- The call has returned 0 and is still under way. -/
def promise : Answer Result := { returned := some 0, ended := [] }

def report (result : Result) (answer : Answer Result) : Answer Result :=
  { answer with ended := answer.ended ++ [result] }

/-- A call that is over: it returned 0 and reported its end once, or it returned
another number and reported nothing. -/
inductive Settled : Answer Result → Prop
  | kept (result : Result) : Settled { returned := some 0, ended := [result] }
  | refused (value : Int) : value ≠ 0 → Settled (refuse value)

theorem settled_report (result : Result) :
    (report result promise).Settled := .kept result

end Answer

end KernelReloaded

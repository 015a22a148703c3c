/-
Machines that take events one at a time.

A step may be impossible in a state, then it is `none`.  A condition on the
state and the event restricts the runs: a state is reached under the condition
when every step on the way met it.
-/

import Mathlib.Data.List.Induction
import Mathlib.Logic.Basic

namespace KernelReloaded

structure Machine (State Event : Type*) where
  initial : State
  step : State → Event → Option State

namespace Machine

variable {State Event : Type*} (machine : Machine State Event)

/-- The states of the runs whose steps all meet a condition. -/
inductive Reach (meets : State → Event → Prop) : State → Prop
  | initial : Reach meets machine.initial
  | step {state next : State} (event : Event) :
      Reach meets state → meets state event →
        machine.step state event = some next → Reach meets next

variable {machine} {meets : State → Event → Prop}

/-- What holds at the start and survives every step that meets the condition
holds in every state reached under it. -/
theorem Reach.invariant {holds : State → Prop}
    (atStart : holds machine.initial)
    (kept : ∀ state event next, holds state → meets state event →
      machine.step state event = some next → holds next)
    {state : State} (reached : machine.Reach meets state) : holds state := by
  induction reached with
  | initial => exact atStart
  | step event _ met stepped ih => exact kept _ event _ ih met stepped

/-- The state after some events, when all of them meet the condition. -/
def follow (machine : Machine State Event) (meets : State → Event → Prop)
    [∀ state event, Decidable (meets state event)] :
    List Event → State → Option State
  | [], state => some state
  | event :: rest, state =>
      if meets state event then
        (machine.step state event).bind (follow machine meets rest)
      else
        none

theorem Reach.follow [∀ state event, Decidable (meets state event)]
    (events : List Event) {state next : State}
    (reached : machine.Reach meets state)
    (followed : machine.follow meets events state = some next) :
    machine.Reach meets next := by
  induction events generalizing state with
  | nil =>
      obtain rfl := Option.some.inj followed
      exact reached
  | cons event rest ih =>
      rw [Machine.follow] at followed
      split at followed <;> rename_i met
      · obtain ⟨middle, stepped, later⟩ := Option.bind_eq_some_iff.mp followed
        exact ih (reached.step event met stepped) later
      · cases followed

end Machine

theorem foldl_pair {First Second Event : Type*} (first : First → Event → First)
    (second : Second → Event → Second) (events : List Event) (left : First)
    (right : Second) :
    (events.foldl first left, events.foldl second right) =
      events.foldl
        (fun state event => (first state.1 event, second state.2 event))
        (left, right) := by
  induction events generalizing left right with
  | nil =>
      rfl
  | cons event rest ih =>
      exact ih _ _

/-! ### Runs that are right throughout -/

section

variable {State Event : Type*} {step : State → Event → State} {start : State}
  {inv right : State → Prop} {met : State → Event → Prop}

theorem foldl_invariant (atStart : inv start)
    (kept : ∀ state event, inv state → met state event →
      inv (step state event))
    {events : List Event}
    (meets : ∀ before event after, events = before ++ event :: after →
      inv (before.foldl step start) → met (before.foldl step start) event)
    (done : List Event) (reached : done <+: events) :
    inv (done.foldl step start) := by
  induction done using List.reverseRecOn with
  | nil =>
      exact atStart
  | append_singleton before event ih =>
      obtain ⟨after, split⟩ := reached
      rw [List.append_assoc, List.singleton_append] at split
      have earlier := ih ⟨event :: after, split⟩
      rw [List.foldl_append]
      exact kept _ event earlier (meets before event after split.symm earlier)

/-- Every event meets the condition in the state it finds. -/
def RunMeets (step : State → Event → State) (met : State → Event → Prop) :
    List Event → State → Prop
  | [], _ => True
  | event :: rest, state => met state event ∧ RunMeets step met rest (step state event)

theorem RunMeets.split {events : List Event} (meets : RunMeets step met events start)
    (before : List Event) (event : Event) (after : List Event)
    (split : events = before ++ event :: after) :
    met (before.foldl step start) event := by
  induction before generalizing events start with
  | nil =>
      subst split
      exact meets.1
  | cons first rest ih =>
      subst split
      exact ih meets.2 rfl

/-- An invariant that survives the steps that meet a condition, and that no
other step leaves right: a run is right throughout exactly when all of its steps
meet the condition. -/
theorem foldl_right_iff (atStart : inv start)
    (isRight : ∀ state, inv state → right state)
    (kept : ∀ state event, inv state → met state event →
      inv (step state event))
    (needed : ∀ state event, inv state → right (step state event) →
      met state event)
    (events : List Event) :
    (∀ done, done <+: events → right (done.foldl step start)) ↔
      ∀ before event after, events = before ++ event :: after →
        met (before.foldl step start) event := by
  constructor
  · intro throughout before event after split
    have meets : ∀ before event after, events = before ++ event :: after →
        inv (before.foldl step start) →
          met (before.foldl step start) event := by
      intro before event after split earlier
      apply needed _ event earlier
      have reached : before ++ [event] <+: events :=
        ⟨after, by rw [split, List.append_assoc, List.singleton_append]⟩
      have rightAfter := throughout _ reached
      rw [List.foldl_append] at rightAfter
      exact rightAfter
    exact meets before event after split
      (foldl_invariant atStart kept meets before ⟨_, split.symm⟩)
  · intro meets done reached
    exact isRight _ (foldl_invariant atStart kept
      (fun before event after split _earlier =>
        meets before event after split) done reached)

end

end KernelReloaded

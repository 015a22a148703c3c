/-
Two machines that answer every event, one of them the meaning of the other.

Their answers agree along a run when a relation between their states survives
every event that meets a condition on the second machine.
-/

import Mathlib.Logic.Basic

namespace KernelReloaded.Simulation

variable {Impl Spec Event Answer : Type*}

def final (step : Spec → Event → Answer × Spec) : List Event → Spec → Spec
  | [], state => state
  | event :: rest, state => final step rest (step state event).2

def answers (step : Spec → Event → Answer × Spec) : List Event → Spec → List Answer
  | [], _ => []
  | event :: rest, state =>
      (step state event).1 :: answers step rest (step state event).2

/-- Every event of the run meets the condition in the state it finds. -/
def AllMet (step : Spec → Event → Answer × Spec) (met : Spec → Event → Prop) :
    List Event → Spec → Prop
  | [], _ => True
  | event :: rest, state =>
      met state event ∧ AllMet step met rest (step state event).2

def decidableAllMet (step : Spec → Event → Answer × Spec)
    (met : Spec → Event → Prop)
    (decideMet : ∀ state event, Decidable (met state event)) :
    (events : List Event) → (state : Spec) → Decidable (AllMet step met events state)
  | [], _ => isTrue trivial
  | event :: rest, state =>
      have := decideMet state event
      have := decidableAllMet step met decideMet rest (step state event).2
      inferInstanceAs (Decidable (_ ∧ _))

instance allMetDecidable (step : Spec → Event → Answer × Spec)
    (met : Spec → Event → Prop)
    [decideMet : ∀ state event, Decidable (met state event)]
    (events : List Event) (state : Spec) : Decidable (AllMet step met events state) :=
  decidableAllMet step met decideMet events state

variable {implStep : Impl → Event → Answer × Impl}
  {specStep : Spec → Event → Answer × Spec} {met : Spec → Event → Prop}
  {rel : Impl → Spec → Prop} {impl : Impl} {spec : Spec}

theorem final_append (step : Spec → Event → Answer × Spec)
    (first second : List Event) (state : Spec) :
    final step (first ++ second) state = final step second (final step first state) := by
  induction first generalizing state with
  | nil => rfl
  | cons event rest ih => exact ih _

theorem allMet_append (first second : List Event) (state : Spec) :
    AllMet specStep met (first ++ second) state ↔
      AllMet specStep met first state ∧
        AllMet specStep met second (final specStep first state) := by
  induction first generalizing state with
  | nil => simp [AllMet, final]
  | cons event rest ih =>
      rw [List.cons_append, AllMet, AllMet, ih, final, and_assoc]

theorem allMet_of_forall {events : List Event}
    (meets : ∀ event ∈ events, ∀ state, met state event) (state : Spec) :
    AllMet specStep met events state := by
  induction events generalizing state with
  | nil => exact trivial
  | cons event rest ih =>
      exact ⟨meets event List.mem_cons_self state,
        ih (fun later member => meets later (List.mem_cons_of_mem _ member)) _⟩

theorem simulates
    (kept : ∀ impl spec event, rel impl spec → met spec event →
      (implStep impl event).1 = (specStep spec event).1 ∧
        rel (implStep impl event).2 (specStep spec event).2)
    (events : List Event) (related : rel impl spec)
    (meets : AllMet specStep met events spec) :
    answers implStep events impl = answers specStep events spec ∧
      rel (final implStep events impl) (final specStep events spec) := by
  induction events generalizing impl spec with
  | nil => exact ⟨rfl, related⟩
  | cons event rest ih =>
      obtain ⟨same, later⟩ := kept impl spec event related meets.1
      obtain ⟨sameRest, ends⟩ := ih later meets.2
      refine ⟨?_, ends⟩
      rw [answers, answers, same, sameRest]

end KernelReloaded.Simulation

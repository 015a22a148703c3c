/-
Sequences of keyed writes, as a parser of `key=value` lines produces them.

A write of a key hides every earlier write of the same key, so a sequence is
determined by the last write of each key, in the order of these last writes.
Writes that commute may change places.
The state stays abstract: it is enough to say when two states agree except
where a key writes.
-/

import Mathlib.Data.List.Pairwise

namespace KernelReloaded.KeyedWrites

variable {Key Value State : Type} [DecidableEq Key]

/-- The last write of each key, in the order in which they stand. -/
def lastWrites (writes : List (Key × Value)) : List (Key × Value) :=
  writes.pwFilter fun first second => first.1 ≠ second.1

def DistinctKeys (writes : List (Key × Value)) : Prop :=
  writes.Pairwise fun first second => first.1 ≠ second.1

theorem distinctKeys_lastWrites (writes : List (Key × Value)) :
    DistinctKeys (lastWrites writes) :=
  List.pairwise_pwFilter writes

/-- Whether the first write survives depends on the keys behind it. -/
theorem lastWrites_cons (head : Key × Value) (rest : List (Key × Value)) :
    lastWrites (head :: rest) =
      if head.1 ∈ (lastWrites rest).map Prod.fst then lastWrites rest
      else head :: lastWrites rest := by
  by_cases hidden : head.1 ∈ (lastWrites rest).map Prod.fst
  · rw [if_pos hidden]
    apply List.pwFilter_cons_of_neg
    intro apart
    obtain ⟨later, member, same⟩ := List.mem_map.mp hidden
    exact apart later member same.symm
  · rw [if_neg hidden]
    apply List.pwFilter_cons_of_pos
    intro later member same
    exact hidden (List.mem_map.mpr ⟨later, member, same.symm⟩)

theorem keys_lastWrites (writes : List (Key × Value)) (key : Key) :
    key ∈ (lastWrites writes).map Prod.fst ↔
      key ∈ writes.map Prod.fst := by
  induction writes with
  | nil =>
      rfl
  | cons head rest ih =>
      rw [lastWrites_cons, List.map_cons, List.mem_cons, ← ih]
      split
      · rename_i hidden
        constructor
        · exact Or.inr
        · intro written
          rcases written with rfl | inRest
          · exact hidden
          · exact inRest
      · rw [List.map_cons, List.mem_cons]

/-- What makes a write hide earlier ones: `agree key` says that two states are
equal except where writes of `key` go. -/
structure Hides (write : Key → Value → State → State)
    (agree : Key → State → State → Prop) : Prop where
  frame : ∀ key value state, agree key (write key value state) state
  keep : ∀ key other value state state', agree key state state' →
    agree key (write other value state) (write other value state')
  settle : ∀ key value state state', agree key state state' →
    write key value state = write key value state'

def runWrites (write : Key → Value → State → State)
    (writes : List (Key × Value)) (state : State) : State :=
  writes.foldl (fun state entry => write entry.1 entry.2 state) state

theorem Hides.run_eq {write : Key → Value → State → State}
    {agree : Key → State → State → Prop} (hides : Hides write agree)
    (key : Key) (writes : List (Key × Value))
    (written : key ∈ writes.map Prod.fst) (state state' : State)
    (agreed : agree key state state') :
    runWrites write writes state = runWrites write writes state' := by
  induction writes generalizing state state' with
  | nil =>
      cases written
  | cons head rest ih =>
      change runWrites write rest (write head.1 head.2 state) =
        runWrites write rest (write head.1 head.2 state')
      by_cases same : key = head.1
      · subst same
        rw [hides.settle head.1 head.2 state state' agreed]
      · rw [List.map_cons, List.mem_cons] at written
        exact ih (written.resolve_left same) _ _
          (hides.keep key head.1 head.2 state state' agreed)

theorem Hides.run_lastWrites {write : Key → Value → State → State}
    {agree : Key → State → State → Prop} (hides : Hides write agree)
    (writes : List (Key × Value)) (state : State) :
    runWrites write (lastWrites writes) state =
      runWrites write writes state := by
  induction writes generalizing state with
  | nil =>
      rfl
  | cons head rest ih =>
      change _ = runWrites write rest (write head.1 head.2 state)
      rw [lastWrites_cons]
      split
      · rename_i hidden
        rw [ih]
        exact (hides.run_eq head.1 rest ((keys_lastWrites rest head.1).mp hidden)
          _ _ (hides.frame head.1 head.2 state)).symm
      · exact ih (write head.1 head.2 state)

omit [DecidableEq Key] in
/-- Writes of keys without effect can be left out. -/
theorem runWrites_filter (write : Key → Value → State → State)
    (effective : Key → Bool)
    (idle : ∀ key value state, effective key = false →
      write key value state = state)
    (writes : List (Key × Value)) (state : State) :
    runWrites write (writes.filter fun entry => effective entry.1) state =
      runWrites write writes state := by
  induction writes generalizing state with
  | nil =>
      rfl
  | cons head rest ih =>
      change _ = runWrites write rest (write head.1 head.2 state)
      rw [List.filter_cons]
      cases effect : effective head.1 with
      | true =>
          exact ih (write head.1 head.2 state)
      | false =>
          rw [idle head.1 head.2 state effect]
          exact ih state

/-! ### Lists without repeated keys -/

theorem DistinctKeys.filter_key {writes : List (Key × Value)}
    (distinct : DistinctKeys writes) {entry : Key × Value}
    (member : entry ∈ writes) :
    (writes.filter fun other => other.1 = entry.1) = [entry] := by
  induction writes with
  | nil =>
      cases member
  | cons head rest ih =>
      obtain ⟨apart, restDistinct⟩ := List.pairwise_cons.mp distinct
      rcases List.mem_cons.mp member with rfl | inRest
      · rw [List.filter_cons_of_pos (by simp)]
        have none : (rest.filter fun other => other.1 = entry.1) = [] := by
          rw [List.filter_eq_nil_iff]
          intro other otherIn
          simpa using (apart other otherIn).symm
        rw [none]
      · rw [List.filter_cons_of_neg (by simpa using apart entry inRest)]
        exact ih restDistinct inRest

/-- Two keys of the sequence, in their order. -/
theorem DistinctKeys.filter_pair {writes : List (Key × Value)}
    (distinct : DistinctKeys writes) {first second : Key × Value}
    (ordered : [first, second].Sublist writes) :
    (writes.filter fun other => other.1 = first.1 ∨ other.1 = second.1) =
      [first, second] := by
  induction writes with
  | nil =>
      cases ordered
  | cons head rest ih =>
      obtain ⟨apart, restDistinct⟩ := List.pairwise_cons.mp distinct
      cases ordered with
      | cons _ later =>
          have firstIn := later.subset List.mem_cons_self
          have secondIn := later.subset
            (List.mem_cons_of_mem first List.mem_cons_self)
          have outside : ¬ (head.1 = first.1 ∨ head.1 = second.1) := by
            rw [not_or]
            exact ⟨apart first firstIn, apart second secondIn⟩
          rw [List.filter_cons_of_neg (by simpa using outside)]
          exact ih restDistinct later
      | cons_cons _ later =>
          have secondIn := later.subset List.mem_cons_self
          rw [List.filter_cons_of_pos (by simp)]
          have only : (rest.filter fun other =>
              other.1 = first.1 ∨ other.1 = second.1) =
              rest.filter fun other => other.1 = second.1 := by
            apply List.filter_congr
            intro other otherIn
            have different := (apart other otherIn).symm
            simp [different]
          rw [only, DistinctKeys.filter_key restDistinct secondIn]

omit [DecidableEq Key] in
/-- Sequences without repeated keys are equal when they have the same writes
and no two writes stand in opposite order. -/
theorem DistinctKeys.eq_of_order {writes writes' : List (Key × Value)}
    (distinct : DistinctKeys writes) (distinct' : DistinctKeys writes')
    (same : ∀ entry, entry ∈ writes ↔ entry ∈ writes')
    (order : ∀ first second, [first, second].Sublist writes →
      ¬ [second, first].Sublist writes') :
    writes = writes' := by
  induction writes generalizing writes' with
  | nil =>
      cases writes' with
      | nil => rfl
      | cons head rest => cases (same head).mpr List.mem_cons_self
  | cons head rest ih =>
      cases writes' with
      | nil => cases (same head).mp List.mem_cons_self
      | cons head' rest' =>
          obtain ⟨apart, restDistinct⟩ := List.pairwise_cons.mp distinct
          obtain ⟨apart', restDistinct'⟩ := List.pairwise_cons.mp distinct'
          have sameHead : head = head' := by
            by_contra different
            have headIn : head ∈ rest' :=
              (List.mem_cons.mp ((same head).mp List.mem_cons_self)).resolve_left
                different
            have headIn' : head' ∈ rest :=
              (List.mem_cons.mp ((same head').mpr List.mem_cons_self)).resolve_left
                (fun equal => different equal.symm)
            exact order head head'
              ((List.singleton_sublist.mpr headIn').cons_cons head)
              ((List.singleton_sublist.mpr headIn).cons_cons head')
          subst sameHead
          have sameRest : ∀ entry, entry ∈ rest ↔ entry ∈ rest' := by
            intro entry
            constructor
            · intro inRest
              refine (List.mem_cons.mp ((same entry).mp
                (List.mem_cons_of_mem head inRest))).resolve_left ?_
              intro equal
              exact apart entry inRest (congrArg Prod.fst equal.symm)
            · intro inRest
              refine (List.mem_cons.mp ((same entry).mpr
                (List.mem_cons_of_mem head inRest))).resolve_left ?_
              intro equal
              exact apart' entry inRest (congrArg Prod.fst equal.symm)
          rw [ih restDistinct restDistinct' sameRest]
          intro first second ordered ordered'
          exact order first second (ordered.cons head) (ordered'.cons head)

/-! ### Writes in another order -/

section Reordered

variable {Entry : Type}

theorem foldl_write_behind (write : State → Entry → State) (entry : Entry)
    (entries : List Entry)
    (commute : ∀ other ∈ entries, ∀ state,
      write (write state entry) other = write (write state other) entry)
    (state : State) :
    entries.foldl write (write state entry) =
      write (entries.foldl write state) entry := by
  induction entries generalizing state with
  | nil =>
      rfl
  | cons other rest ih =>
      rw [List.foldl_cons, List.foldl_cons,
        commute other List.mem_cons_self state]
      exact ih (fun next member => commute next
        (List.mem_cons_of_mem other member)) (write state other)

/-- Writes that commute with all others can wait for the kept ones. -/
theorem foldl_kept_first (write : State → Entry → State)
    (kept : Entry → Bool) (entries : List Entry)
    (commute : ∀ first ∈ entries, ∀ second ∈ entries,
      ¬ (kept first = true ∧ kept second = true) → ∀ state,
        write (write state first) second = write (write state second) first)
    (state : State) :
    entries.foldl write state =
      (entries.filter fun entry => !kept entry).foldl write
        ((entries.filter kept).foldl write state) := by
  induction entries generalizing state with
  | nil =>
      rfl
  | cons entry rest ih =>
      have restCommute := fun first firstIn second secondIn =>
        commute first (List.mem_cons_of_mem entry firstIn) second
          (List.mem_cons_of_mem entry secondIn)
      rw [List.foldl_cons, ih restCommute]
      cases held : kept entry with
      | true =>
          rw [List.filter_cons_of_pos held,
            List.filter_cons_of_neg (by simp [held]), List.foldl_cons]
      | false =>
          have behind := foldl_write_behind write entry (rest.filter kept)
            (fun other member => commute entry List.mem_cons_self other
              (List.mem_cons_of_mem entry (List.mem_filter.mp member).1)
              (by simp [held])) state
          rw [List.filter_cons_of_neg (by simp [held]),
            List.filter_cons_of_pos (by simp [held]), List.foldl_cons, behind]

/-- Two orders of the same writes that agree on the order of the kept ones. -/
theorem foldl_eq_of_perm (write : State → Entry → State)
    (kept : Entry → Bool) {entries entries' : List Entry}
    (perm : entries.Perm entries')
    (order : entries.filter kept = entries'.filter kept)
    (commute : ∀ first ∈ entries, ∀ second ∈ entries,
      ¬ (kept first = true ∧ kept second = true) → ∀ state,
        write (write state first) second = write (write state second) first)
    (state : State) :
    entries.foldl write state = entries'.foldl write state := by
  have commute' := fun first firstIn second secondIn =>
    commute first (perm.mem_iff.mpr firstIn) second
      (perm.mem_iff.mpr secondIn)
  rw [foldl_kept_first write kept entries commute,
    foldl_kept_first write kept entries' commute', order]
  apply (perm.filter fun entry => !kept entry).foldl_eq'
  intro first firstIn second secondIn current
  have loose : kept first = false := by
    simpa using (List.mem_filter.mp firstIn).2
  exact commute first (List.mem_filter.mp firstIn).1 second
    (List.mem_filter.mp secondIn).1 (by simp [loose]) current

end Reordered

end KernelReloaded.KeyedWrites

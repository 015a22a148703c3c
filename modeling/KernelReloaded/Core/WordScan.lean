/-
Loops over the aligned words of a buffer.

`for (addr = start; addr < limit; addr += 4)` looks at one word after another
and may stop at one of them.  The last word begins below the limit but need not
end there.
-/

import Mathlib.Data.List.Basic
import Mathlib.Data.List.Pairwise

namespace KernelReloaded.WordScan

/-! ### The places of the words -/

def wordsBelow (start limit : Nat) : List Nat :=
  (List.range ((limit - start + 3) / 4)).map fun index => start + 4 * index

theorem mem_wordsBelow {start limit addr : Nat} :
    addr ∈ wordsBelow start limit ↔
      start ≤ addr ∧ addr < limit ∧ (addr - start) % 4 = 0 := by
  rw [wordsBelow, List.mem_map]
  constructor
  · rintro ⟨index, member, rfl⟩
    have few := List.mem_range.mp member
    omega
  · rintro ⟨low, high, aligned⟩
    exact ⟨(addr - start) / 4, List.mem_range.mpr (by omega), by omega⟩

theorem wordsBelow_of_le {start limit : Nat} (empty : limit ≤ start) :
    wordsBelow start limit = [] := by
  rw [List.eq_nil_iff_forall_not_mem]
  intro addr member
  have between := mem_wordsBelow.mp member
  omega

theorem wordsBelow_of_lt {start limit : Nat} (room : start < limit) :
    wordsBelow start limit = start :: wordsBelow (start + 4) limit := by
  have count : (limit - start + 3) / 4 = (limit - (start + 4) + 3) / 4 + 1 := by
    omega
  rw [wordsBelow, count, List.range_succ_eq_map, List.map_cons, List.map_map,
    wordsBelow, Nat.mul_zero, Nat.add_zero]
  congr 1
  apply List.map_congr_left
  intro index _member
  simp only [Function.comp_apply]
  omega

theorem wordsBelow_split {start addr limit : Nat} (low : start ≤ addr)
    (aligned : (addr - start) % 4 = 0) (high : addr ≤ limit) :
    wordsBelow start limit = wordsBelow start addr ++ wordsBelow addr limit := by
  obtain ⟨count, distance⟩ : ∃ count, addr = start + 4 * count :=
    ⟨(addr - start) / 4, by omega⟩
  induction count generalizing start with
  | zero =>
      obtain rfl : addr = start := by omega
      rw [wordsBelow_of_le (Nat.le_refl addr), List.nil_append]
  | succ count ih =>
      rw [wordsBelow_of_lt (show start < limit by omega),
        wordsBelow_of_lt (show start < addr by omega), List.cons_append,
        ih (by omega) (by omega) (by omega)]

theorem wordsBelow_increasing (start limit : Nat) :
    (wordsBelow start limit).Pairwise (· < ·) := by
  rw [wordsBelow, List.pairwise_map]
  apply List.pairwise_lt_range.imp
  intro left right before
  omega

/-- Where the loop ends if it does not stop. -/
def behindWords (start limit : Nat) : Nat :=
  start + 4 * ((limit - start + 3) / 4)

theorem le_behindWords (start limit : Nat) : limit ≤ behindWords start limit := by
  rw [behindWords]
  omega

/-! ### Loops -/

structure Scan (State : Type*) where
  stoppedAt : Option Nat
  state : State
  /-- The places of the words that were read. -/
  reads : List Nat

variable {State : Type*}

/-- A step looks at the word at a place; with `true` the loop stops there. -/
def scan (step : State → Nat → State × Bool) : List Nat → State → Scan State
  | [], state =>
      { stoppedAt := none
        state := state
        reads := [] }
  | addr :: rest, state =>
      let next := step state addr
      if next.2 then
        { stoppedAt := some addr
          state := next.1
          reads := [addr] }
      else
        let later := scan step rest next.1
        { later with reads := addr :: later.reads }

variable {step : State → Nat → State × Bool} {words : List Nat} {state : State}

theorem scan_cons_of_stops {addr : Nat} (stops : (step state addr).2 = true) :
    scan step (addr :: words) state =
      { stoppedAt := some addr
        state := (step state addr).1
        reads := [addr] } := by
  rw [scan]
  exact if_pos stops

theorem scan_cons_of_goesOn {addr : Nat} (goesOn : (step state addr).2 = false) :
    scan step (addr :: words) state =
      { scan step words (step state addr).1 with
        reads := addr :: (scan step words (step state addr).1).reads } := by
  rw [scan]
  exact if_neg (by rw [goesOn]; exact Bool.false_ne_true)

theorem scan_reads_of_ended (ended : (scan step words state).stoppedAt = none) :
    (scan step words state).reads = words := by
  induction words generalizing state with
  | nil =>
      rfl
  | cons addr rest ih =>
      cases stops : (step state addr).2 with
      | true =>
          rw [scan_cons_of_stops stops] at ended
          cases ended
      | false =>
          rw [scan_cons_of_goesOn stops] at ended ⊢
          exact congrArg (addr :: ·) (ih ended)

theorem mem_scan_reads_of_stopped {addr : Nat}
    (stopped : (scan step words state).stoppedAt = some addr) :
    addr ∈ (scan step words state).reads := by
  induction words generalizing state with
  | nil =>
      cases stopped
  | cons first rest ih =>
      cases stops : (step state first).2 with
      | true =>
          rw [scan_cons_of_stops stops] at stopped ⊢
          cases stopped
          exact List.mem_singleton_self _
      | false =>
          rw [scan_cons_of_goesOn stops] at stopped ⊢
          exact List.mem_cons_of_mem _ (ih stopped)

theorem scan_reads_subset {addr : Nat}
    (read : addr ∈ (scan step words state).reads) : addr ∈ words := by
  induction words generalizing state with
  | nil =>
      cases read
  | cons first rest ih =>
      cases stops : (step state first).2 with
      | true =>
          rw [scan_cons_of_stops stops] at read
          rw [List.mem_singleton.mp read]
          exact List.mem_cons_self
      | false =>
          rw [scan_cons_of_goesOn stops] at read
          rcases List.mem_cons.mp read with rfl | later
          · exact List.mem_cons_self
          · exact List.mem_cons_of_mem _ (ih later)

/-- Nothing behind the place where the loop stops is read. -/
theorem scan_reads_le {addr read : Nat} (increasing : words.Pairwise (· < ·))
    (stopped : (scan step words state).stoppedAt = some addr)
    (isRead : read ∈ (scan step words state).reads) : read ≤ addr := by
  induction words generalizing state with
  | nil =>
      cases isRead
  | cons first rest ih =>
      obtain ⟨before, increasingRest⟩ := List.pairwise_cons.mp increasing
      cases stops : (step state first).2 with
      | true =>
          rw [scan_cons_of_stops stops] at stopped isRead
          cases stopped
          exact Nat.le_of_eq (List.mem_singleton.mp isRead)
      | false =>
          rw [scan_cons_of_goesOn stops] at stopped isRead
          rcases List.mem_cons.mp isRead with rfl | later
          · have member := scan_reads_subset (mem_scan_reads_of_stopped stopped)
            exact Nat.le_of_lt (before addr member)
          · exact ih increasingRest stopped later

/-! ### Searches -/

/-- A loop that stops at the first hit, whatever it knows. -/
theorem scan_stoppedAt_eq_find {hit : Nat → Bool}
    (stops : ∀ state addr, (step state addr).2 = hit addr) :
    (scan step words state).stoppedAt = words.find? hit := by
  induction words generalizing state with
  | nil =>
      rfl
  | cons addr rest ih =>
      cases isHit : hit addr with
      | true =>
          rw [scan_cons_of_stops ((stops state addr).trans isHit),
            List.find?_cons_of_pos isHit]
      | false =>
          rw [scan_cons_of_goesOn ((stops state addr).trans isHit),
            List.find?_cons_of_neg (by rw [isHit]; exact Bool.false_ne_true)]
          exact ih

/-- What a loop knows that learns nothing before it stops. -/
theorem scan_state_eq
    (learnsNothing : ∀ addr, (step state addr).2 = false →
      (step state addr).1 = state) :
    (scan step words state).state =
      match (scan step words state).stoppedAt with
      | some addr => (step state addr).1
      | none => state := by
  induction words with
  | nil =>
      rfl
  | cons addr rest ih =>
      cases stops : (step state addr).2 with
      | true =>
          rw [scan_cons_of_stops stops]
      | false =>
          rw [scan_cons_of_goesOn stops, learnsNothing addr stops]
          exact ih

/-- The hit behind another one is the first behind it. -/
theorem getElem?_filter_succ {hit : Nat → Bool} {front behind : List Nat}
    {addr index : Nat} (increasing : (front ++ addr :: behind).Pairwise (· < ·))
    (here : ((front ++ addr :: behind).filter hit)[index]? = some addr) :
    ((front ++ addr :: behind).filter hit)[index + 1]? = behind.find? hit := by
  induction front generalizing index with
  | nil =>
      obtain ⟨before, -⟩ := List.pairwise_cons.mp increasing
      rw [List.nil_append] at here ⊢
      have isHit : hit addr = true :=
        (List.mem_filter.mp (List.mem_of_getElem? here)).2
      rw [List.filter_cons_of_pos isHit] at here ⊢
      cases index with
      | zero =>
          rw [List.getElem?_cons_succ, ← List.head?_eq_getElem?,
            List.head?_filter]
      | succ index =>
          rw [List.getElem?_cons_succ] at here
          have member := List.mem_of_getElem? here
          have later := before addr (List.mem_filter.mp member).1
          exact absurd later (Nat.lt_irrefl addr)
  | cons first rest ih =>
      rw [List.cons_append] at increasing here ⊢
      obtain ⟨before, increasingRest⟩ := List.pairwise_cons.mp increasing
      have later : first < addr :=
        before addr (List.mem_append_right _ List.mem_cons_self)
      by_cases isHit : hit first
      · rw [List.filter_cons_of_pos isHit] at here ⊢
        cases index with
        | zero =>
            rw [List.getElem?_cons_zero] at here
            exact absurd (Option.some.inj here) (Nat.ne_of_lt later)
        | succ index =>
            rw [List.getElem?_cons_succ] at here ⊢
            exact ih increasingRest here
      · rw [List.filter_cons_of_neg isHit] at here ⊢
        exact ih increasingRest here

end KernelReloaded.WordScan

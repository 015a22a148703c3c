/-
`strncmp` of the SBIOS: where it stops, and what it says about the strings.

The strings are read before the length is looked at, and the result is computed
from wherever the loop has stopped.  So a prefix that is equal is not enough: the
character behind it is read, and it decides.
-/

import Mathlib.Data.List.GetD
import Mathlib.Tactic.Common

namespace KernelReloaded.StrNCmp

abbrev Char8 := BitVec 8

inductive Arg where
  | str1
  | str2
deriving DecidableEq

/-! ### The code -/

/-- The counter `n`, and every character read with the argument it is from. -/
structure Scan where
  n : Nat
  reads : List (Arg × Nat)

def Scan.read (scan : Scan) (arg : Arg) : Scan :=
  { scan with reads := scan.reads ++ [(arg, scan.n)] }

/-- The condition of the loop reads the second string only when the first one has
not come to its end. -/
def Scan.test (str1 : Nat → Char8) (scan : Scan) : Scan :=
  if str1 scan.n ≠ 0 then (scan.read .str1).read .str2 else scan.read .str1

def Scan.next (scan : Scan) : Scan := { scan with n := scan.n + 1 }

/-- With the count of characters that are left below the length. -/
def strncmpLoop (str1 str2 : Nat → Char8) : Nat → Scan → Scan
  | 0, scan => scan.test str1
  | left + 1, scan =>
      if str1 scan.n ≠ 0 ∧ str2 scan.n ≠ 0 then
        let compared := ((scan.test str1).read .str1).read .str2
        if str1 scan.n ≠ str2 scan.n then compared
        else strncmpLoop str1 str2 left compared.next
      else scan.test str1

/-- The state at the end of the function. -/
def strncmpScan (str1 str2 : Nat → Char8) (len : Nat) : Scan :=
  ((strncmpLoop str1 str2 len { n := 0, reads := [] }).read .str2).read .str1

/-- Characters are signed. -/
def strncmp (str1 str2 : Nat → Char8) (len : Nat) : Int :=
  let last := (strncmpScan str1 str2 len).n
  (str2 last).toInt - (str1 last).toInt

/-! ### Where it stops -/

def Stops (str1 str2 : Nat → Char8) (index : Nat) : Prop :=
  str1 index ≠ str2 index ∨ str1 index = 0

/-- The loop has gone on from `first` to `last`. -/
structure StopsAt (str1 str2 : Nat → Char8) (first left last : Nat) : Prop where
  fromFirst : first ≤ last
  below : last ≤ first + left
  before : ∀ index, first ≤ index → index < last → ¬Stops str1 str2 index
  stopped : last < first + left → Stops str1 str2 last

variable {str1 str2 : Nat → Char8}

@[simp] theorem test_n (scan : Scan) : (scan.test str1).n = scan.n := by
  rw [Scan.test]
  split <;> rfl

@[simp] theorem read_n (scan : Scan) (arg : Arg) :
    (scan.read arg).n = scan.n := rfl

@[simp] theorem next_n (scan : Scan) : scan.next.n = scan.n + 1 := rfl

theorem stops_of_not_goesOn {index : Nat}
    (stopped : ¬(str1 index ≠ 0 ∧ str2 index ≠ 0)) : Stops str1 str2 index := by
  by_cases ended : str1 index = 0
  · exact .inr ended
  · have second : str2 index = 0 := by
      by_contra other
      exact stopped ⟨ended, other⟩
    left
    rw [second]
    exact ended

theorem strncmpLoop_stopsAt (left : Nat) (scan : Scan) :
    StopsAt str1 str2 scan.n left (strncmpLoop str1 str2 left scan).n := by
  induction left generalizing scan with
  | zero =>
      rw [strncmpLoop, test_n]
      exact ⟨Nat.le_refl _, Nat.le_refl _, by omega, by omega⟩
  | succ left ih =>
      have here (stopped : Stops str1 str2 scan.n) :
          StopsAt str1 str2 scan.n (left + 1) scan.n :=
        ⟨Nat.le_refl _, by omega, by omega, fun _ => stopped⟩
      rw [strncmpLoop]
      split
      case isTrue goesOn =>
        dsimp only
        split
        case isTrue differ =>
          rw [read_n, read_n, test_n]
          exact here (.inl differ)
        case isFalse equal =>
          obtain ⟨fromFirst, below, before, stopped⟩ :=
            ih (((scan.test str1).read .str1).read .str2).next
          rw [next_n, read_n, read_n, test_n] at fromFirst below before stopped
          refine ⟨Nat.le_of_succ_le fromFirst, by omega, ?_, ?_⟩
          · intro index isFrom inside
            rcases Nat.eq_or_lt_of_le isFrom with first | later
            · subst first
              rintro (differ | ended)
              · exact equal differ
              · exact goesOn.1 ended
            · exact before index later inside
          · intro inside
            exact stopped (by omega)
      case isFalse stopped =>
        rw [test_n]
        exact here (stops_of_not_goesOn stopped)

theorem strncmpScan_stopsAt (str1 str2 : Nat → Char8) (len : Nat) :
    StopsAt str1 str2 0 len (strncmpScan str1 str2 len).n :=
  strncmpLoop_stopsAt len { n := 0, reads := [] }

theorem strncmpScan_lt_iff (len : Nat) :
    (strncmpScan str1 str2 len).n < len ↔ ∃ index < len, Stops str1 str2 index := by
  obtain ⟨_, below, before, stopped⟩ :=
    strncmpScan_stopsAt str1 str2 len
  rw [Nat.zero_add] at below stopped
  constructor
  · intro inside
    exact ⟨_, inside, stopped inside⟩
  · rintro ⟨index, inside, stops⟩
    by_contra outside
    exact before index (Nat.zero_le _) (by omega) stops

/-! ### What is read -/

def Behind (scan : Scan) : Prop := ∀ read ∈ scan.reads, read.2 ≤ scan.n

theorem behind_read {scan : Scan} (behind : Behind scan) (arg : Arg) :
    Behind (scan.read arg) := by
  intro read inside
  rcases List.mem_append.mp inside with earlier | last
  · exact behind read earlier
  · rw [List.mem_singleton.mp last]
    exact Nat.le_refl _

theorem behind_test {scan : Scan} (behind : Behind scan) :
    Behind (scan.test str1) := by
  rw [Scan.test]
  split
  · exact behind_read (behind_read behind _) _
  · exact behind_read behind _

theorem behind_next {scan : Scan} (behind : Behind scan) : Behind scan.next :=
  fun read inside => Nat.le_succ_of_le (behind read inside)

theorem behind_strncmpLoop (left : Nat) {scan : Scan} (behind : Behind scan) :
    Behind (strncmpLoop str1 str2 left scan) := by
  induction left generalizing scan with
  | zero => exact behind_test behind
  | succ left ih =>
      have compared : Behind (((scan.test str1).read .str1).read .str2) :=
        behind_read (behind_read (behind_test behind) _) _
      rw [strncmpLoop]
      split
      · dsimp only
        split
        · exact compared
        · exact ih (behind_next compared)
      · exact behind_test behind

/-- The last two characters read are the ones at the counter. -/
theorem reads_lt_iff (len : Nat) :
    (∀ read ∈ (strncmpScan str1 str2 len).reads, read.2 < len) ↔
      (strncmpScan str1 str2 len).n < len := by
  have empty : Behind { n := 0, reads := [] } :=
    fun _ inside => absurd inside List.not_mem_nil
  have behind : Behind (strncmpScan str1 str2 len) :=
    behind_read (behind_read (behind_strncmpLoop len empty) _) _
  constructor
  · intro inside
    exact inside (.str1, (strncmpScan str1 str2 len).n)
      (List.mem_append_right _ (List.mem_singleton.mpr rfl))
  · intro below read inside
    exact Nat.lt_of_le_of_lt (behind read inside) below

/-! ### The result -/

theorem strncmp_eq_zero_iff (len : Nat) :
    strncmp str1 str2 len = 0 ↔
      str1 (strncmpScan str1 str2 len).n = str2 (strncmpScan str1 str2 len).n := by
  rw [strncmp, Int.sub_eq_zero, BitVec.toInt_inj]
  exact eq_comm

/-- The characters from an index on, at most `left` of them, up to and including
the NUL. -/
def charsFrom (char : Nat → Char8) : Nat → Nat → List Char8
  | 0, _ => []
  | left + 1, index =>
      char index ::
        if char index = 0 then [] else charsFrom char left (index + 1)

theorem charsFrom_eq_iff {first left last : Nat}
    (isLast : StopsAt str1 str2 first left last) (inside : last < first + left) :
    charsFrom str1 left first = charsFrom str2 left first ↔
      str1 last = str2 last := by
  induction left generalizing first with
  | zero =>
      have := isLast.fromFirst
      omega
  | succ left ih =>
      obtain ⟨fromFirst, below, before, stopped⟩ := isLast
      rw [charsFrom, charsFrom]
      rcases Nat.eq_or_lt_of_le fromFirst with here | later
      · subst here
        rcases stopped inside with differ | ended
        · constructor
          · intro same
            exact (List.cons.inj same).1
          · intro same
            exact absurd same differ
        · constructor
          · intro same
            exact (List.cons.inj same).1
          · intro same
            rw [← same, ended]
            rfl
      · have goesOn := before first (Nat.le_refl _) later
        rw [Stops, not_or, not_not] at goesOn
        have rest : StopsAt str1 str2 (first + 1) left last :=
          ⟨later, by omega,
            fun index isFrom => before index (Nat.le_of_succ_le isFrom),
            fun inside => stopped (by omega)⟩
        rw [← goesOn.1, if_neg goesOn.2, if_neg goesOn.2, List.cons_inj_right,
          ih rest (by omega)]

/-! ### Strings -/

structure CString where
  char : Nat → Char8
  terminated : ∃ index, char index = 0

def CString.ofList (text : List Char8) : CString where
  char index := text.getD index 0
  terminated := ⟨text.length, List.getD_eq_default _ _ (Nat.le_refl _)⟩

/-- The first `len` characters, up to and including the NUL. -/
def CString.firstChars (string : CString) (len : Nat) : List Char8 :=
  charsFrom string.char len 0

/-- What `strncmp` is for. -/
structure ComparesPrefix (s1 s2 : CString) (len : Nat) : Prop where
  result : strncmp s1.char s2.char len = 0 ↔
    s1.firstChars len = s2.firstChars len
  inside : ∀ read ∈ (strncmpScan s1.char s2.char len).reads, read.2 < len

theorem strncmp_comparesPrefix_iff (s1 s2 : CString) (len : Nat) :
    ComparesPrefix s1 s2 len ↔ ∃ index < len, Stops s1.char s2.char index := by
  constructor
  · intro compares
    exact (strncmpScan_lt_iff len).mp ((reads_lt_iff len).mp compares.inside)
  · intro differ
    have below := (strncmpScan_lt_iff len).mpr differ
    have stops := strncmpScan_stopsAt s1.char s2.char len
    constructor
    · rw [strncmp_eq_zero_iff, CString.firstChars, CString.firstChars,
        charsFrom_eq_iff stops (by omega)]
    · exact (reads_lt_iff len).mpr below

/-- The prefixes `a` of `ab` and `ac`. -/
theorem strncmp_prefix_wrong :
    ¬ComparesPrefix (.ofList [0x61, 0x62]) (.ofList [0x61, 0x63]) 1 := by
  intro compares
  have same := compares.result.mpr (by decide)
  exact absurd same (by decide)

/-! ### Literals -/

theorem ofList_eq_zero_iff {text : List Char8} (noNul : 0 ∉ text) {index : Nat}
    (inside : index ≤ text.length) :
    (CString.ofList text).char index = 0 ↔ index = text.length := by
  rcases Nat.eq_or_lt_of_le inside with behind | within
  · subst behind
    exact iff_of_true (List.getD_eq_default _ _ (Nat.le_refl _)) rfl
  · refine iff_of_false ?_ (Nat.ne_of_lt within)
    intro ended
    have char := List.getElem_mem within
    rw [← List.getD_eq_getElem text 0 within] at char
    rw [← ended] at noNul
    exact noNul char

/-- When the length is beyond the NUL of a literal, all of it is compared. -/
theorem strncmp_literal {text : List Char8} {len : Nat} (noNul : 0 ∉ text)
    (beyond : text.length < len) :
    strncmp str1 (CString.ofList text).char len = 0 ↔
      ∀ index ≤ text.length, str1 index = (CString.ofList text).char index := by
  obtain ⟨_, _, before, stopped⟩ :=
    strncmpScan_stopsAt str1 (CString.ofList text).char len
  have atEnd := (ofList_eq_zero_iff noNul (Nat.le_refl text.length)).mpr rfl
  have ends : Stops str1 (CString.ofList text).char text.length := by
    rw [Stops, atEnd]
    exact ne_or_eq _ _
  have within : (strncmpScan str1 (CString.ofList text).char len).n ≤
      text.length := by
    by_contra outside
    exact before text.length (Nat.zero_le _) (Nat.not_le.mp outside) ends
  rw [strncmp_eq_zero_iff]
  constructor
  · intro same index inside
    rcases stopped (by omega) with differ | ended
    · exact absurd same differ
    · rw [same, ofList_eq_zero_iff noNul within] at ended
      rcases Nat.eq_or_lt_of_le inside with last | earlier
      · rw [last, ← ended]
        exact same
      · have goesOn := before index (Nat.zero_le _) (by omega)
        rw [Stops, not_or, not_not] at goesOn
        exact goesOn.1
  · intro equal
    exact equal _ within

end KernelReloaded.StrNCmp

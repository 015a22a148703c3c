/-
The boot log: the last lines of everything that is printed while booting.

A newline only notes that the next character begins a line, so that the log
never holds an empty one.  `repaint` draws and is left out; a `kprintf` below it
is one more call.
-/

import KernelReloaded.Core.CText
import KernelReloaded.Core.Ring
import Mathlib.Data.List.DropRight

namespace KernelReloaded.BootLog

open CText

def bootlogLines : Nat := 16

def bootlogCols : Nat := 128

abbrev Line := Vector Char bootlogCols

/-- The lines with `first` and `count`, and the length of the newest line. -/
structure Log where
  lines : Ring Line bootlogLines
  partialLength : Nat

/-- Static variables are zero. -/
def Log.initial : Log :=
  { lines :=
      { slots := fun _ => Vector.replicate bootlogCols '\x00'
        first := 0
        count := 0
        first_lt := by decide }
    partialLength := 0 }

/-- `lines[slot][0] = '\0'`. -/
def emptied (line : Line) : Line :=
  line.set 0 '\x00' (by decide)

def startLine (log : Log) : Log :=
  let ring := log.lines
  if ring.count < bootlogLines then
    { lines := ring.storeLast
        (emptied (ring.slots ((ring.first + ring.count) % bootlogLines)))
      partialLength := 0 }
  else
    { lines := ring.replaceFirst (emptied (ring.slots ring.first))
      partialLength := 0 }

/-- Past the end the character is dropped. -/
def appendToLine (c : Char) (log : Log) : Log :=
  let ring := log.lines
  let line := ring.slots ((ring.first + (ring.count - 1)) % bootlogLines)
  if room : log.partialLength < bootlogCols - 1 then
    let line := line.set log.partialLength c (by omega)
    let line := line.set (log.partialLength + 1) '\x00' (by omega)
    { lines := ring.replaceLast line
      partialLength := log.partialLength + 1 }
  else
    log

def appendChar (c : Char) (log : Log) : Log :=
  appendToLine c (if log.lines.count = 0 then startLine log else log)

def appendNext (log : Log) (c : Char) : Log :=
  if c = '\n' then
    { log with partialLength := bootlogCols }
  else if c = '\r' then
    log
  else if bootlogCols ≤ log.partialLength then
    appendChar c (startLine log)
  else
    appendChar c log

/-- `none` is `NULL`; a text is read up to its NUL. -/
def bootlogAppend (log : Log) : Option CharArray → Log
  | none => log
  | some text => (cstring text).foldl appendNext log

def bootlogCount (log : Log) : Nat := log.lines.count

def bootlogLine (log : Log) (i : Int) : Option Text :=
  if i < 0 ∨ bootlogCount log ≤ i then
    none
  else
    some (cstring
      (log.lines.slots ((log.lines.first + i.toNat) % bootlogLines)).toList)

/-! ### What is wanted -/

/-- The lines of a text that are not empty, each cut to what a line holds. -/
def lineTexts (text : Text) : List Text :=
  ((text.splitOn '\n').filter (· ≠ [])).map (·.take (bootlogCols - 1))

def logLines (text : Text) : List Text := lineTexts (text.filter (· ≠ '\r'))

def lastLines (text : Text) : List Text := (logLines text).rtake bootlogLines

/-- All texts one after another, whatever calls they came in. -/
def loggedText (texts : List (Option CharArray)) : Text :=
  texts.flatMap fun text => cstring (text.getD [])

/-! ### The lines of the log as texts -/

def lineText (line : Line) : Text := cstring line.toList

def heldTexts (lines : Ring Line bootlogLines) : List Text :=
  lines.toList.map lineText

@[simp] theorem length_heldTexts (lines : Ring Line bootlogLines) :
    (heldTexts lines).length = lines.count := by
  rw [heldTexts, List.length_map, Ring.length_toList]

theorem lineText_emptied (line : Line) : lineText (emptied line) = [] := by
  have holds : Holds (line.toList.set 0 '\x00') [] :=
    holds_nil (by rw [Vector.length_toList]; decide)
  rw [lineText, emptied, Vector.toList_set]
  exact holds.cstring_eq

/-- The stores of `appendChar` add a character to the text of a line. -/
theorem lineText_push {line : Line} {c : Char} (notNul : c ≠ '\x00')
    (room : (lineText line).length + 1 < bootlogCols) :
    lineText ((line.set (lineText line).length c (by omega)).set
      ((lineText line).length + 1) '\x00' room) = lineText line ++ [c] := by
  have size : line.toList.length = bootlogCols := Vector.length_toList
  have short : (cstring line.toList).length + 1 < line.toList.length := by
    rw [size]
    exact room
  have holds := (holds_cstring (Nat.lt_of_succ_lt short)).push notNul short
  rw [lineText, Vector.toList_set, Vector.toList_set]
  exact holds.cstring_eq

theorem rtake_rtake {α : Type} (items : List α) {few many : Nat}
    (fewer : few ≤ many) : (items.rtake many).rtake few = items.rtake few := by
  rw [List.rtake_eq_reverse_take_reverse, List.rtake_eq_reverse_take_reverse,
    List.rtake_eq_reverse_take_reverse, List.reverse_reverse, List.take_take,
    Nat.min_eq_left fewer]

theorem rtake_of_length_le {α : Type} {items : List α} {count : Nat}
    (short : items.length ≤ count) : items.rtake count = items := by
  rw [List.rtake, Nat.sub_eq_zero_of_le short, List.drop_zero]

/-- A new line is an empty one behind the others, the oldest giving way. -/
theorem heldTexts_startLine {log : Log}
    (fits : log.lines.count ≤ bootlogLines) :
    heldTexts (startLine log).lines =
      (heldTexts log.lines ++ [[]]).rtake bootlogLines := by
  rw [startLine]
  split
  · rename_i room
    rw [rtake_of_length_le (by
      rw [List.length_append, length_heldTexts]
      exact room)]
    rw [heldTexts, Ring.toList_storeLast _ room, List.map_append,
      List.map_singleton, lineText_emptied, heldTexts]
  · rename_i noRoom
    have full : log.lines.count = bootlogLines :=
      Nat.le_antisymm fits (Nat.not_lt.mp noRoom)
    have some : 0 < log.lines.count := by
      rw [full]
      decide
    have rest : (log.lines.dropFirst.toList.map lineText).length = 15 := by
      rw [List.length_map, Ring.length_toList, Ring.dropFirst, full]
      rfl
    rw [heldTexts, heldTexts, Ring.toList_replaceFirst _ full,
      Ring.toList_of_count_pos _ some, List.map_append, List.map_singleton,
      lineText_emptied, List.map_cons, List.cons_append, List.rtake,
      List.length_cons, List.length_append, rest]
    rfl

theorem count_startLine {log : Log} (fits : log.lines.count ≤ bootlogLines) :
    0 < (startLine log).lines.count ∧
      (startLine log).lines.count ≤ bootlogLines := by
  rw [startLine]
  split
  · rename_i room
    exact ⟨Nat.succ_pos _, room⟩
  · rename_i noRoom
    have size : bootlogLines = 16 := rfl
    rw [Ring.replaceFirst]
    dsimp only
    omega

/-- A character is added to the newest line, or dropped when it is full. -/
theorem heldTexts_appendToLine {log : Log} {c : Char} {before : List Text}
    {line : Text} (nonempty : 0 < log.lines.count)
    (fits : log.lines.count ≤ bootlogLines)
    (held : heldTexts log.lines = (before ++ [line]).rtake bootlogLines)
    (short : line.length ≤ bootlogCols - 1)
    (length : log.partialLength = line.length) (notNul : c ≠ '\x00') :
    heldTexts (appendToLine c log).lines =
        (before ++ [(line ++ [c]).take (bootlogCols - 1)]).rtake
          bootlogLines ∧
      (appendToLine c log).lines.count = log.lines.count ∧
      (appendToLine c log).partialLength =
        ((line ++ [c]).take (bootlogCols - 1)).length := by
  have cols : bootlogCols = 128 := rfl
  have split : log.lines.dropLast.toList.map lineText ++
      [lineText (log.lines.slots
        ((log.lines.first + (log.lines.count - 1)) % bootlogLines))] =
      before.rtake 15 ++ [line] := by
    rw [← List.rtake_concat_succ, ← List.map_singleton, ← List.map_append,
      ← Ring.toList_dropLast _ nonempty]
    exact held
  obtain ⟨sameBefore, sameLine⟩ := List.append_inj' split rfl
  have newest := List.singleton_inj.mp sameLine
  rw [appendToLine]
  dsimp only
  split
  · rename_i room
    have whole : (line ++ [c]).take (bootlogCols - 1) = line ++ [c] := by
      apply List.take_of_length_le
      rw [List.length_append, List.length_singleton]
      omega
    refine ⟨?_, rfl, ?_⟩
    · have pushed := lineText_push notNul (by rw [newest]; omega)
      simp only [newest, ← length] at pushed
      rw [whole, heldTexts, Ring.toList_replaceLast _ nonempty fits,
        List.map_append, List.map_singleton, pushed, sameBefore]
      exact (List.rtake_concat_succ ..).symm
    · change log.partialLength + 1 = _
      rw [whole, List.length_append, length]
      rfl
  · rename_i full
    have cut : (line ++ [c]).take (bootlogCols - 1) = line :=
      List.take_left' (by omega)
    rw [cut]
    exact ⟨held, rfl, length⟩

/-! ### The log after a text -/

/-- What a line without its end adds to the lines. -/
def openLine (current : Text) : List Text :=
  if current = [] then [] else [current.take (bootlogCols - 1)]

/-- Nothing, or lines that are all ended. -/
def Ended (front : Text) : Prop := front = [] ∨ ∃ lines, front = lines ++ ['\n']

theorem lineTexts_newline (front behind : Text) :
    lineTexts (front ++ '\n' :: behind) =
      lineTexts front ++ lineTexts behind := by
  rw [lineTexts, List.splitOn_append_cons_self, List.filter_append,
    List.map_append]
  rfl

theorem lineTexts_open {current : Text} (oneLine : '\n' ∉ current) :
    lineTexts current = openLine current := by
  rw [lineTexts, List.splitOn_eq_singleton oneLine, openLine]
  by_cases empty : current = []
  · simp [empty]
  · simp [empty]

theorem lineTexts_split {front : Text} (ended : Ended front) :
    ∃ earlier, ∀ current, '\n' ∉ current →
      lineTexts (front ++ current) = earlier ++ openLine current := by
  rcases ended with rfl | ⟨lines, rfl⟩
  · exact ⟨[], fun current oneLine => lineTexts_open oneLine⟩
  · refine ⟨lineTexts lines, ?_⟩
    intro current oneLine
    rw [List.append_assoc, List.singleton_append, lineTexts_newline,
      lineTexts_open oneLine]

/-- The value of `partial` behind ended lines and an open one. -/
def expectedPartial (front current : Text) : Nat :=
  if current ≠ [] then (current.take (bootlogCols - 1)).length
  else if front = [] then 0
  else bootlogCols

/-- The log after a text without carriage returns. -/
structure LogInv (text : Text) (log : Log) : Prop where
  fits : log.lines.count ≤ bootlogLines
  held : heldTexts log.lines = (lineTexts text).rtake bootlogLines
  newest : ∃ front current, text = front ++ current ∧ Ended front ∧
    '\n' ∉ current ∧ log.partialLength = expectedPartial front current

theorem logInv_initial : LogInv [] Log.initial := by
  refine ⟨Nat.zero_le _, rfl, [], [], rfl, Or.inl rfl, List.not_mem_nil, rfl⟩

theorem take_append_of_take (text added : Text) (count : Nat) :
    (text.take count ++ added).take count = (text ++ added).take count := by
  rw [List.take_append, List.take_append, List.take_take, Nat.min_self,
    List.length_take]
  congr 2
  omega

theorem rtake_append_rtake {α : Type} (items : List α) (last : α)
    (count : Nat) :
    (items.rtake (count + 1) ++ [last]).rtake (count + 1) =
      (items ++ [last]).rtake (count + 1) := by
  rw [List.rtake_concat_succ, List.rtake_concat_succ,
    rtake_rtake items (Nat.le_succ count)]

/-- The first character of a line goes to a new line of the log. -/
theorem appendToLine_startLine {log : Log} {c : Char} {earlier : List Text}
    (fits : log.lines.count ≤ bootlogLines)
    (held : heldTexts log.lines = earlier.rtake bootlogLines)
    (notNul : c ≠ '\x00') :
    heldTexts (appendToLine c (startLine log)).lines =
        (earlier ++ [[c]]).rtake bootlogLines ∧
      (appendToLine c (startLine log)).lines.count ≤ bootlogLines ∧
      (appendToLine c (startLine log)).partialLength = 1 := by
  have started : heldTexts (startLine log).lines =
      (earlier ++ [[]]).rtake bootlogLines := by
    rw [heldTexts_startLine fits, held]
    exact rtake_append_rtake earlier [] 15
  obtain ⟨some, inside⟩ := count_startLine fits
  have empty : (startLine log).partialLength = ([] : Text).length := by
    rw [startLine]
    split
    · rfl
    · rfl
  obtain ⟨texts, count, length⟩ :=
    heldTexts_appendToLine some inside started (Nat.zero_le _) empty notNul
  refine ⟨texts, ?_, length⟩
  rw [count]
  exact inside

theorem LogInv.newline {text : Text} {log : Log} (inv : LogInv text log) :
    LogInv (text ++ ['\n']) (appendNext log '\n') := by
  refine ⟨inv.fits, ?_, text ++ ['\n'], [], (List.append_nil _).symm,
    Or.inr ⟨text, rfl⟩, List.not_mem_nil, ?_⟩
  · rw [lineTexts_newline, lineTexts_open List.not_mem_nil]
    exact inv.held.trans (by rw [openLine, if_pos rfl, List.append_nil])
  · rw [expectedPartial, if_neg (not_not.mpr rfl),
      if_neg (List.append_ne_nil_of_right_ne_nil _ (List.cons_ne_nil _ _))]
    rfl

/-- Both for the first line and behind a newline, a line is started. -/
theorem startLine_of_ended {front : Text} {log : Log}
    (fits : log.lines.count ≤ bootlogLines)
    (held : heldTexts log.lines = (lineTexts front).rtake bootlogLines)
    (newest : log.partialLength = expectedPartial front []) (c : Char) :
    (if bootlogCols ≤ log.partialLength then appendChar c (startLine log)
      else appendChar c log) = appendToLine c (startLine log) := by
  rw [newest, expectedPartial, if_neg (not_not.mpr rfl)]
  by_cases nothing : front = []
  · subst nothing
    have none : log.lines.count = 0 := by
      rw [← length_heldTexts, held, lineTexts_open List.not_mem_nil]
      rfl
    rw [if_pos rfl, if_neg (by decide), appendChar, if_pos none]
  · rw [if_neg nothing, if_pos (Nat.le_refl _), appendChar,
      if_neg (Nat.ne_of_gt (count_startLine fits).1)]

theorem LogInv.char {text : Text} {log : Log} (inv : LogInv text log)
    {c : Char} (notNul : c ≠ '\x00') (notNewline : c ≠ '\n')
    (notReturn : c ≠ '\r') : LogInv (text ++ [c]) (appendNext log c) := by
  obtain ⟨fits, held, front, current, rfl, ended, oneLine, newest⟩ := inv
  obtain ⟨earlier, lines⟩ := lineTexts_split ended
  have longer : '\n' ∉ current ++ [c] := by
    intro member
    rcases List.mem_append.mp member with before | last
    · exact oneLine before
    · exact notNewline (List.mem_singleton.mp last).symm
  have opened : openLine (current ++ [c]) =
      [(current ++ [c]).take (bootlogCols - 1)] :=
    if_neg (List.append_ne_nil_of_right_ne_nil _ (List.cons_ne_nil _ _))
  have expected : expectedPartial front (current ++ [c]) =
      ((current ++ [c]).take (bootlogCols - 1)).length :=
    if_pos (List.append_ne_nil_of_right_ne_nil _ (List.cons_ne_nil _ _))
  rw [appendNext, if_neg notNewline, if_neg notReturn]
  by_cases empty : current = []
  · subst empty
    have ofEnded := held
    rw [List.append_nil] at ofEnded
    rw [startLine_of_ended fits ofEnded newest]
    rw [lines [] oneLine, openLine, if_pos rfl, List.append_nil] at held
    obtain ⟨texts, count, length⟩ := appendToLine_startLine fits held notNul
    refine ⟨count, ?_, front, [] ++ [c], List.append_assoc .., ended, longer,
      ?_⟩
    · rw [List.append_assoc, lines _ longer, opened, texts]
      rfl
    · rw [expected, length]
      rfl
  · have open' : openLine current = [current.take (bootlogCols - 1)] :=
      if_neg empty
    rw [lines current oneLine, open'] at held
    have length : log.partialLength =
        (current.take (bootlogCols - 1)).length := by
      rw [newest, expectedPartial, if_pos empty]
    have short : (current.take (bootlogCols - 1)).length ≤ bootlogCols - 1 :=
      List.length_take_le _ _
    have some : 0 < log.lines.count := by
      have size : bootlogLines = 15 + 1 := rfl
      rw [← length_heldTexts, held, size, List.rtake_concat_succ,
        List.length_append]
      exact Nat.succ_pos _
    have cols : bootlogCols = 128 := rfl
    rw [if_neg (by rw [length]; omega), appendChar,
      if_neg (Nat.ne_of_gt some)]
    obtain ⟨texts, count, newLength⟩ :=
      heldTexts_appendToLine some fits held short length notNul
    rw [take_append_of_take] at texts newLength
    refine ⟨by rw [count]; exact fits, ?_, front, current ++ [c],
      List.append_assoc .., ended, longer, ?_⟩
    · rw [List.append_assoc, lines _ longer, opened]
      exact texts
    · rw [expected]
      exact newLength

theorem LogInv.chars {text : Text} {log : Log} (inv : LogInv text log)
    (chars : Text) (nulFree : '\x00' ∉ chars) :
    LogInv (text ++ chars.filter (· ≠ '\r')) (chars.foldl appendNext log) := by
  induction chars generalizing text log with
  | nil =>
      rw [List.filter_nil, List.append_nil]
      exact inv
  | cons c rest ih =>
      have restFree : '\x00' ∉ rest := fun member =>
        nulFree (List.mem_cons_of_mem c member)
      rw [List.foldl_cons]
      by_cases isReturn : c = '\r'
      · have same : appendNext log c = log := by
          rw [appendNext, if_neg (by rw [isReturn]; decide), if_pos isReturn]
        rw [same, List.filter_cons_of_neg (by simp [isReturn])]
        exact ih inv restFree
      · rw [List.filter_cons_of_pos (by simp [isReturn]),
          ← List.singleton_append, ← List.append_assoc]
        by_cases isNewline : c = '\n'
        · subst isNewline
          exact ih inv.newline restFree
        · have notNul : c ≠ '\x00' := by
            rintro rfl
            exact nulFree List.mem_cons_self
          exact ih (inv.char notNul isNewline isReturn) restFree

/-- One call after another goes on with the same text. -/
theorem LogInv.calls {text : Text} {log : Log} (inv : LogInv text log)
    (texts : List (Option CharArray)) :
    LogInv (text ++ (loggedText texts).filter (· ≠ '\r'))
      (texts.foldl bootlogAppend log) := by
  induction texts generalizing text log with
  | nil =>
      rw [loggedText, List.flatMap_nil, List.filter_nil, List.append_nil]
      exact inv
  | cons call rest ih =>
      have appended : LogInv
          (text ++ (cstring (call.getD [])).filter (· ≠ '\r'))
          (bootlogAppend log call) := by
        cases call with
        | none =>
            rw [Option.getD_none, cstring, List.takeWhile_nil, List.filter_nil,
              List.append_nil]
            exact inv
        | some array =>
            refine inv.chars (cstring array) ?_
            intro member
            have kept := List.mem_takeWhile_imp member
            simp at kept
      have later := ih appended
      rw [List.append_assoc, ← List.filter_append] at later
      exact later

theorem bootlogLine_eq (log : Log) (i : Int) :
    bootlogLine log i =
      if i < 0 then none else (heldTexts log.lines)[i.toNat]? := by
  rw [bootlogLine, bootlogCount]
  by_cases negative : i < 0
  · rw [if_pos (Or.inl negative), if_pos negative]
  · rw [if_neg negative]
    by_cases behind : (log.lines.count : Int) ≤ i
    · rw [if_pos (Or.inr behind), List.getElem?_eq_none]
      rw [length_heldTexts]
      omega
    · have inside : i.toNat < log.lines.count := by omega
      rw [if_neg (by omega), heldTexts, List.getElem?_map,
        Ring.getElem?_toList _ inside]
      rfl

def afterCalls (texts : List (Option CharArray)) : Log :=
  texts.foldl bootlogAppend Log.initial

theorem heldTexts_afterCalls (texts : List (Option CharArray)) :
    heldTexts (afterCalls texts).lines = lastLines (loggedText texts) :=
  (logInv_initial.calls texts).held

/-- A held line is not empty and fits its array. -/
theorem mem_heldTexts {texts : List (Option CharArray)} {line : Text}
    (member : line ∈ heldTexts (afterCalls texts).lines) :
    line ≠ [] ∧ line.length < bootlogCols := by
  rw [heldTexts_afterCalls, lastLines] at member
  obtain ⟨whole, isLine, rfl⟩ :=
    List.mem_map.mp (List.mem_of_mem_drop member)
  have nonempty : whole ≠ [] := by
    simpa using (List.mem_filter.mp isLine).2
  constructor
  · intro empty
    rcases List.take_eq_nil_iff.mp empty with none | none
    · cases none
    · exact nonempty none
  · exact Nat.lt_of_le_of_lt (List.length_take_le _ _) (by decide)

/-- After any calls the log holds the last lines of the whole text that are not
empty, however the text was divided. -/
theorem bootlog_lastLines (texts : List (Option CharArray)) :
    bootlogCount (afterCalls texts) =
        (lastLines (loggedText texts)).length ∧
      (∀ i, bootlogLine (afterCalls texts) i =
        if i < 0 then none else (lastLines (loggedText texts))[i.toNat]?) ∧
      ∀ others, loggedText others = loggedText texts →
        bootlogCount (afterCalls others) = bootlogCount (afterCalls texts) ∧
          ∀ i, bootlogLine (afterCalls others) i =
            bootlogLine (afterCalls texts) i := by
  have held := heldTexts_afterCalls texts
  refine ⟨?_, ?_, ?_⟩
  · rw [bootlogCount, ← held, length_heldTexts]
  · intro i
    rw [bootlogLine_eq, held]
  · intro others sameText
    have same : heldTexts (afterCalls others).lines =
        heldTexts (afterCalls texts).lines := by
      rw [held, heldTexts_afterCalls, sameText]
    constructor
    · rw [bootlogCount, bootlogCount, ← length_heldTexts, same,
        length_heldTexts]
    · intro i
      rw [bootlogLine_eq, bootlogLine_eq, same]

example : lastLines (loggedText
    [some "load\r\n".toList, none, some "\nok".toList, some "!".toList]) =
      ["load".toList, "ok!".toList] := by decide

end KernelReloaded.BootLog

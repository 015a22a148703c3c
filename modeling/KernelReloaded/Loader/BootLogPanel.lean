/-
The window of the boot log: the held lines, wrapped at its width.

The rows are counted in one pass and drawn in another, which begins so far down
that the newest row is the last one in the window.  Border and field are left
out.  The measures of the font are parameters.
-/

import KernelReloaded.Core.Pieces
import KernelReloaded.Loader.BootLog
import Mathlib.Algebra.Ring.Int.Defs
import Mathlib.Data.List.Forall2

namespace KernelReloaded.BootLog

open CText

/-- The place of the window on the screen and the measures of its font. -/
structure Panel where
  xoffset : Int
  yoffset : Int
  charWidth : Char → Int
  lineHeight : Nat

structure Drawn where
  x : Int
  row : Int
  text : Text
  deriving DecidableEq

namespace Panel

variable (panel : Panel)

def x : Int := panel.xoffset + 40

def y : Int := panel.yoffset + 120

def w : Int := 560

def rowStep : Int := panel.lineHeight + 1

def h : Int := 16 + bootlogLines * panel.rowStep

/-! ### Wrapping -/

/-- The loop of `bootlogFit`: the index it stops at, the last space, and whether
the text has ended there. -/
def fitLoop (maxw : Int) : Text → (w : Int) → (i : Nat) → (lastSpace : Int) →
    Nat × Int × Bool
  | [], _, i, lastSpace => (i, lastSpace, true)
  | c :: rest, w, i, lastSpace =>
      let w := w + panel.charWidth c
      if w > maxw then
        (i, lastSpace, false)
      else
        fitLoop maxw rest w (i + 1) (if c = ' ' then i else lastSpace)

def bootlogFit (s : Text) (maxw : Int) : Nat :=
  let (i, lastSpace, ended) := panel.fitLoop maxw s 0 0 (-1)
  if ended then i
  else if lastSpace > 0 then (lastSpace + 1).toNat
  else if 0 < i then i
  else 1

/-- `none` is a loop that is still running after the given rounds. -/
def rowsLoop (maxw : Int) : (rounds : Nat) → Text → (rows : Nat) → Option Nat
  | 0, _, _ => none
  | rounds + 1, line, rows =>
      if line = [] then some rows
      else rowsLoop maxw rounds (line.drop (panel.bootlogFit line maxw))
        (rows + 1)

def bootlogRows (rounds : Nat) (line : Text) (maxw : Int) : Option Nat :=
  (panel.rowsLoop maxw rounds line 0).map fun rows =>
    if 0 < rows then rows else 1

/-! ### Drawing -/

structure PaintState where
  skip : Int
  row : Int
  drawn : List Drawn

/-- One row: skipped, drawn, or below the window. -/
def paintRow (state : PaintState) (p : Text) (n : Nat) : PaintState :=
  if state.skip > 0 then
    { state with skip := state.skip - 1 }
  else if state.row < panel.y + panel.h - 8 then
    let m := if n > bootlogCols - 1 then bootlogCols - 1 else n
    { state with
      row := state.row + panel.rowStep
      drawn := state.drawn ++
        [{ x := panel.x + 8, row := state.row, text := p.take m }] }
  else
    state

def lineLoop : (rounds : Nat) → Text → PaintState → Option PaintState
  | 0, _, _ => none
  | rounds + 1, p, state =>
      if p = [] then some state
      else
        let n := panel.bootlogFit p (w - 16)
        lineLoop rounds (p.drop n) (panel.paintRow state p n)

def countRows (rounds : Nat) (log : Log) : List Nat → (total : Nat) → Option Nat
  | [], total => some total
  | i :: later, total =>
      match bootlogLine log i with
      | none => countRows rounds log later total
      | some l => do
          let rows ← panel.bootlogRows rounds l (w - 16)
          countRows rounds log later (total + rows)

def paintLines (rounds : Nat) (log : Log) :
    List Nat → PaintState → Option PaintState
  | [], state => some state
  | i :: later, state =>
      match bootlogLine log i with
      | none => some state
      | some line => do
          let state ← panel.lineLoop rounds line state
          paintLines rounds log later state

def paintBootLog (rounds : Nat) (log : Log) : Option (List Drawn) := do
  let total ← panel.countRows rounds log (List.range (bootlogCount log)) 0
  let skip : Int := total - bootlogLines
  let state ← panel.paintLines rounds log (List.range (bootlogCount log))
    { skip := if skip < 0 then 0 else skip, row := panel.y + 8, drawn := [] }
  return state.drawn

/-! ### The wrapped rows -/

def textWidth (text : Text) : Int := (text.map panel.charWidth).sum

/-- The loop stops behind characters that fit together, and the space it
remembers is one of them. -/
structure Fits (maxw : Int) (s : Text) (w : Int) (i : Nat) (lastSpace : Int)
    (result : Nat × Int × Bool) : Prop where
  behind : i ≤ result.1
  ended : result.2.2 = true → result.1 = i + s.length
  stopped : result.2.2 = false → result.1 < i + s.length
  narrow : ∀ count, 0 < count → count ≤ result.1 - i →
    w + panel.textWidth (s.take count) ≤ maxw
  space : result.2.1 = lastSpace ∨ (result.2.1 < result.1 ∧ i ≤ result.2.1)

theorem fitLoop_fits (maxw : Int) (s : Text) (w : Int) (i : Nat)
    (lastSpace : Int) :
    panel.Fits maxw s w i lastSpace (panel.fitLoop maxw s w i lastSpace) := by
  induction s generalizing w i lastSpace with
  | nil =>
      refine ⟨Nat.le_refl i, fun _ => rfl, nofun, ?_, Or.inl rfl⟩
      intro count some few
      change count ≤ i - i at few
      omega
  | cons c rest ih =>
      rw [fitLoop]
      split
      · refine ⟨Nat.le_refl i, nofun, fun _ => ?_, ?_, Or.inl rfl⟩
        · change i < i + (rest.length + 1)
          omega
        · intro count some few
          change count ≤ i - i at few
          omega
      · rename_i fits
        have later := ih (w + panel.charWidth c) (i + 1)
          (if c = ' ' then (i : Int) else lastSpace)
        generalize panel.fitLoop maxw rest (w + panel.charWidth c) (i + 1)
          (if c = ' ' then (i : Int) else lastSpace) = result at later ⊢
        have behind := later.behind
        refine ⟨by omega, ?_, ?_, ?_, ?_⟩
        · intro ended
          have reached := later.ended ended
          rw [List.length_cons]
          omega
        · intro stopped
          have before := later.stopped stopped
          rw [List.length_cons]
          omega
        · intro count some few
          obtain ⟨less, rfl⟩ := Nat.exists_eq_add_one.mpr some
          have width : panel.textWidth ((c :: rest).take (less + 1)) =
              panel.charWidth c + panel.textWidth (rest.take less) := by
            rw [List.take_succ_cons, textWidth, List.map_cons, List.sum_cons]
            rfl
          rw [width]
          by_cases first : less = 0
          · have nothing : panel.textWidth (rest.take less) = 0 := by
              rw [first]
              rfl
            omega
          · have narrow := later.narrow less (by omega) (by omega)
            omega
        · rcases later.space with same | ⟨before, from_⟩
          · rw [same]
            split
            · right
              omega
            · exact Or.inl rfl
          · right
            refine ⟨before, ?_⟩
            omega

/-- What fits is a part of the text, at least one character, and no wider than
the row or a single character. -/
theorem bootlogFit_spec (s : Text) (maxw : Int) (nonempty : s ≠ []) :
    0 < panel.bootlogFit s maxw ∧ panel.bootlogFit s maxw ≤ s.length ∧
      (panel.textWidth (s.take (panel.bootlogFit s maxw)) ≤ maxw ∨
        panel.bootlogFit s maxw = 1) := by
  have some := List.length_pos_iff.mpr nonempty
  have fits := panel.fitLoop_fits maxw s 0 0 (-1)
  have narrow (count : Nat) (positive : 0 < count)
      (few : count ≤ (panel.fitLoop maxw s 0 0 (-1)).1) :
      panel.textWidth (s.take count) ≤ maxw := by
    have width := fits.narrow count positive few
    omega
  rw [bootlogFit]
  generalize panel.fitLoop maxw s 0 0 (-1) = result at fits narrow
  obtain ⟨i, lastSpace, ended⟩ := result
  dsimp only at *
  cases ended with
  | true =>
      have reached := fits.ended rfl
      dsimp only at reached
      rw [if_pos rfl]
      exact ⟨by omega, by omega, Or.inl (narrow i (by omega) (Nat.le_refl i))⟩
  | false =>
      have before := fits.stopped rfl
      dsimp only at before
      rw [if_neg Bool.false_ne_true]
      by_cases space : lastSpace > 0
      · rw [if_pos space]
        rcases fits.space with none | ⟨within, -⟩
        · dsimp only at none
          omega
        · dsimp only at within
          exact ⟨by omega, by omega,
            Or.inl (narrow _ (by omega) (by omega))⟩
      · rw [if_neg space]
        by_cases taken : 0 < i
        · rw [if_pos taken]
          exact ⟨taken, by omega, Or.inl (narrow i taken (Nat.le_refl i))⟩
        · rw [if_neg taken]
          exact ⟨Nat.one_pos, some, Or.inr rfl⟩

/-- The wrapping of a line at the width of the window. -/
def wrapping : Cutter Char :=
  { cut := fun line => panel.bootlogFit line (w - 16)
    cut_pos := fun line nonempty =>
      (panel.bootlogFit_spec line (w - 16) nonempty).1
    cut_le := fun line nonempty =>
      (panel.bootlogFit_spec line (w - 16) nonempty).2.1 }

/-! ### The two passes -/

theorem rowsLoop_eq {rounds : Nat} {line : Text} (enough : line.length < rounds)
    (rows : Nat) :
    panel.rowsLoop (w - 16) rounds line rows =
      some (rows + (panel.wrapping.pieces line).length) := by
  induction line using panel.wrapping.induction generalizing rounds rows with
  | nil =>
      obtain ⟨less, rfl⟩ := Nat.exists_eq_add_one.mpr enough
      rw [rowsLoop, if_pos rfl, Cutter.pieces_nil]
      rfl
  | next line nonempty ih =>
      obtain ⟨less, rfl⟩ :=
        Nat.exists_eq_add_one.mpr (Nat.zero_lt_of_lt enough)
      have positive := panel.wrapping.cut_pos line nonempty
      have shorter : (line.drop (panel.wrapping.cut line)).length < less := by
        have some := List.length_pos_iff.mpr nonempty
        rw [List.length_drop]
        omega
      rw [rowsLoop, if_neg nonempty, panel.wrapping.pieces_of_ne_nil nonempty,
        List.length_cons]
      have later := ih shorter (rows + 1)
      rw [Nat.add_assoc, Nat.add_comm 1] at later
      exact later

/-- A row that is drawn from a piece of the line. -/
def paintPiece (state : PaintState) (piece : Text) : PaintState :=
  panel.paintRow state piece piece.length

theorem paintRow_eq (state : PaintState) {p : Text} {n : Nat}
    (inside : n ≤ p.length) :
    panel.paintRow state p n = panel.paintPiece state (p.take n) := by
  have length : (p.take n).length = n := by
    rw [List.length_take, Nat.min_eq_left inside]
  have segment : (p.take n).take
      (if n > bootlogCols - 1 then bootlogCols - 1 else n) =
      p.take (if n > bootlogCols - 1 then bootlogCols - 1 else n) := by
    rw [List.take_take, Nat.min_eq_left]
    split <;> omega
  rw [paintPiece, length, paintRow, paintRow]
  dsimp only
  rw [segment]

theorem lineLoop_eq {rounds : Nat} {p : Text} (enough : p.length < rounds)
    (state : PaintState) :
    panel.lineLoop rounds p state =
      some ((panel.wrapping.pieces p).foldl panel.paintPiece state) := by
  induction p using panel.wrapping.induction generalizing rounds state with
  | nil =>
      obtain ⟨less, rfl⟩ := Nat.exists_eq_add_one.mpr enough
      rw [lineLoop, if_pos rfl, Cutter.pieces_nil]
      rfl
  | next p nonempty ih =>
      obtain ⟨less, rfl⟩ :=
        Nat.exists_eq_add_one.mpr (Nat.zero_lt_of_lt enough)
      have positive := panel.wrapping.cut_pos p nonempty
      have inside := panel.wrapping.cut_le p nonempty
      have shorter : (p.drop (panel.wrapping.cut p)).length < less := by
        have some := List.length_pos_iff.mpr nonempty
        rw [List.length_drop]
        omega
      rw [lineLoop, if_neg nonempty, panel.wrapping.pieces_of_ne_nil nonempty,
        List.foldl_cons, ← panel.paintRow_eq state inside]
      exact ih shorter _

/-- The lines at some indices of the log, each of them held and not empty. -/
structure Listed (log : Log) (rounds : Nat) (indices : List Nat)
    (lines : List Text) : Prop where
  held : List.Forall₂ (fun (i : Nat) line => bootlogLine log i = some line)
    indices lines
  nonempty : ∀ line ∈ lines, line ≠ []
  short : ∀ line ∈ lines, line.length < rounds

def wrappedRows (lines : List Text) : List Text :=
  lines.flatMap panel.wrapping.pieces

theorem countRows_eq {log : Log} {rounds : Nat} {indices : List Nat}
    {lines : List Text} (listed : Listed log rounds indices lines)
    (total : Nat) :
    panel.countRows rounds log indices total =
      some (total + (panel.wrappedRows lines).length) := by
  obtain ⟨held, nonempty, short⟩ := listed
  induction held generalizing total with
  | nil =>
      rfl
  | @cons i line indices lines found later ih =>
      have isNonempty := nonempty line List.mem_cons_self
      have rows : 0 < (panel.wrapping.pieces line).length := by
        rw [panel.wrapping.pieces_of_ne_nil isNonempty]
        exact Nat.succ_pos _
      have counted : panel.bootlogRows rounds line (w - 16) =
          some (panel.wrapping.pieces line).length := by
        rw [bootlogRows, panel.rowsLoop_eq (short line List.mem_cons_self),
          Option.map_some, Nat.zero_add, if_pos rows]
      have rest := ih (total + (panel.wrapping.pieces line).length)
        (fun other member => nonempty other (List.mem_cons_of_mem _ member))
        (fun other member => short other (List.mem_cons_of_mem _ member))
      rw [countRows, found]
      dsimp only
      rw [counted, wrappedRows, List.flatMap_cons, List.length_append,
        ← Nat.add_assoc]
      exact rest

theorem paintLines_eq {log : Log} {rounds : Nat} {indices : List Nat}
    {lines : List Text} (listed : Listed log rounds indices lines)
    (state : PaintState) :
    panel.paintLines rounds log indices state =
      some ((panel.wrappedRows lines).foldl panel.paintPiece state) := by
  obtain ⟨held, nonempty, short⟩ := listed
  induction held generalizing state with
  | nil =>
      rfl
  | @cons i line indices lines found later ih =>
      have rest := ih ((panel.wrapping.pieces line).foldl panel.paintPiece state)
        (fun other member => nonempty other (List.mem_cons_of_mem _ member))
        (fun other member => short other (List.mem_cons_of_mem _ member))
      rw [paintLines, found]
      dsimp only
      rw [panel.lineLoop_eq (short line List.mem_cons_self), wrappedRows,
        List.flatMap_cons, List.foldl_append]
      exact rest

/-! ### The rows in the window -/

/-- The place of a row that follows the given number of drawn ones. -/
def placed (above : Nat) (text : Text) : Drawn :=
  { x := panel.x + 8
    row := panel.y + 8 + above * panel.rowStep
    text := text.take (bootlogCols - 1) }

/-- Of the rows, as many are skipped as do not fit, and all others are drawn one
below the other. -/
theorem foldl_paintPiece (rows : List Text) (skip : Nat) (drawn : List Drawn)
    (room : drawn.length + (rows.length - skip) ≤ bootlogLines) :
    (rows.foldl panel.paintPiece
      { skip := skip
        row := panel.y + 8 + drawn.length * panel.rowStep
        drawn := drawn }).drawn =
      drawn ++ (rows.drop skip).mapIdx fun index text =>
        panel.placed (drawn.length + index) text := by
  induction rows generalizing skip drawn with
  | nil =>
      rw [List.drop_nil, List.mapIdx_nil, List.append_nil]
      rfl
  | cons row rows ih =>
      rw [List.foldl_cons, paintPiece, paintRow]
      dsimp only
      cases skip with
      | succ skip =>
          have fewer : ((skip + 1 : Nat) : Int) - 1 = skip := by omega
          rw [if_pos (by omega), fewer, List.drop_succ_cons]
          apply ih
          rw [List.length_cons] at room
          omega
      | zero =>
          rw [List.length_cons] at room
          have step : 0 < panel.rowStep := by
            rw [rowStep]
            omega
          have above : (drawn.length : Int) < bootlogLines := by omega
          have inside : panel.y + 8 + drawn.length * panel.rowStep <
              panel.y + panel.h - 8 := by
            have below := Int.mul_lt_mul_of_pos_right above step
            rw [h]
            omega
          have segment : row.take (if row.length > bootlogCols - 1 then
              bootlogCols - 1 else row.length) = row.take (bootlogCols - 1) := by
            split
            · rfl
            · rename_i short
              rw [List.take_length, List.take_of_length_le (by omega)]
          have next : panel.y + 8 + drawn.length * panel.rowStep +
              panel.rowStep = panel.y + 8 +
                ((drawn.length + 1 : Nat) : Int) * panel.rowStep := by
            rw [Int.natCast_add, Int.add_mul]
            omega
          rw [if_neg (by omega), if_pos inside, segment, next]
          have later := ih 0 (drawn ++ [panel.placed drawn.length row])
            (by rw [List.length_append, List.length_singleton]; omega)
          rw [List.length_append, List.length_singleton, List.append_assoc,
            List.singleton_append] at later
          rw [List.drop_zero, List.mapIdx_cons]
          refine later.trans ?_
          rw [List.drop_zero]
          simp only [Nat.add_zero, Nat.add_assoc, Nat.add_comm 1]

def windowRows (rows : List Text) : List Drawn :=
  (rows.rtake bootlogLines).mapIdx panel.placed

theorem windowRows_length (rows : List Text) :
    (panel.windowRows rows).length = min bootlogLines rows.length := by
  rw [windowRows, List.length_mapIdx, List.rtake, List.length_drop]
  omega

theorem windowRows_text {rows : List Text}
    (short : ∀ row ∈ rows, row.length ≤ bootlogCols - 1) :
    (panel.windowRows rows).map Drawn.text = rows.rtake bootlogLines := by
  apply List.ext_getElem
  · rw [List.length_map, windowRows, List.length_mapIdx]
  · intro index inDrawn inRows
    have member : (rows.rtake bootlogLines)[index] ∈ rows :=
      List.mem_of_mem_drop (List.getElem_mem inRows)
    rw [List.getElem_map]
    simp only [windowRows, List.getElem_mapIdx]
    exact List.take_of_length_le (short _ member)

theorem windowRows_places {rows : List Text} {index : Nat} {row : Drawn}
    (found : (panel.windowRows rows)[index]? = some row) :
    row.x = panel.x + 8 ∧
      row.row = panel.y + 8 + index * panel.rowStep ∧
      row.row + panel.rowStep ≤ panel.y + panel.h - 8 := by
  obtain ⟨inside, isRow⟩ := List.getElem?_eq_some_iff.mp found
  rw [windowRows_length] at inside
  simp only [windowRows, List.getElem_mapIdx] at isRow
  have above : ((index + 1 : Nat) : Int) ≤ bootlogLines := by omega
  have step : 0 ≤ panel.rowStep := by
    rw [rowStep]
    omega
  have below := Int.mul_le_mul_of_nonneg_right above step
  rw [Int.natCast_add, Int.add_mul] at below
  subst isRow
  refine ⟨rfl, rfl, ?_⟩
  rw [placed, h]
  dsimp only
  omega

theorem listed_afterCalls {rounds : Nat} (enough : bootlogCols ≤ rounds)
    (texts : List (Option CharArray)) :
    Listed (afterCalls texts) rounds
      (List.range (bootlogCount (afterCalls texts)))
      (heldTexts (afterCalls texts).lines) := by
  constructor
  · rw [List.forall₂_iff_get]
    constructor
    · rw [List.length_range, length_heldTexts, bootlogCount]
    · intro index inRange inTexts
      rw [List.get_eq_getElem, List.getElem_range, bootlogLine_eq,
        if_neg (by omega), Int.toNat_natCast]
      exact List.getElem?_eq_getElem inTexts
  · intro line member
    exact (mem_heldTexts member).1
  · intro line member
    exact Nat.lt_of_lt_of_le (mem_heldTexts member).2 enough

theorem paintBootLog_eq {rounds : Nat} (enough : bootlogCols ≤ rounds)
    (texts : List (Option CharArray)) :
    panel.paintBootLog rounds (afterCalls texts) =
      some (panel.windowRows
        (panel.wrappedRows (heldTexts (afterCalls texts).lines))) := by
  have listed := listed_afterCalls enough texts
  have skip (total : Nat) : (if (total : Int) - bootlogLines < 0 then 0
      else (total : Int) - bootlogLines) = ((total - bootlogLines : Nat) : Int) := by
    split <;> omega
  have first : panel.y + 8 + ([] : List Drawn).length * panel.rowStep =
      panel.y + 8 := by
    simp
  have drawn := panel.foldl_paintPiece
    (panel.wrappedRows (heldTexts (afterCalls texts).lines))
    ((panel.wrappedRows (heldTexts (afterCalls texts).lines)).length -
      bootlogLines) [] (by rw [List.length_nil]; omega)
  rw [first] at drawn
  rw [paintBootLog, panel.countRows_eq listed]
  simp only [Option.bind_eq_bind, Option.bind_some, Nat.zero_add]
  rw [panel.paintLines_eq listed, Option.bind_some, skip, drawn]
  simp only [List.length_nil, List.nil_append, Nat.zero_add]
  rfl

/-- A row fits the window, or it is a single character. -/
def Narrow (row : Text) : Prop :=
  panel.textWidth row ≤ w - 16 ∨ row.length = 1

/-- The last wrapped rows of the lines stand in the window, each whole, in their
order and at their places. -/
structure ShowsLastRows (lines : List Text) (drawn : List Drawn) : Prop where
  rows : drawn.map Drawn.text = (panel.wrappedRows lines).rtake bootlogLines
  number : drawn.length = min bootlogLines (panel.wrappedRows lines).length
  places : ∀ (index : Nat) (row : Drawn), drawn[index]? = some row →
    row.x = panel.x + 8 ∧
      row.row = panel.y + 8 + index * panel.rowStep ∧
      row.row + panel.rowStep ≤ panel.y + panel.h - 8
  whole : ∀ line ∈ lines, (panel.wrapping.pieces line).flatten = line
  narrow : ∀ row ∈ drawn, panel.Narrow row.text

theorem narrow_of_mem_pieces {line row : Text}
    (member : row ∈ panel.wrapping.pieces line) : panel.Narrow row := by
  refine panel.wrapping.forall_mem_pieces ?_ line row member
  intro items nonempty
  obtain ⟨-, inside, narrow⟩ := panel.bootlogFit_spec items (w - 16) nonempty
  refine narrow.imp id ?_
  intro single
  rw [List.length_take]
  exact (Nat.min_eq_left inside).trans single

/-- The window shows the last rows of the log after any calls, and no loop runs
longer than a line has characters. -/
theorem paintBootLog_lastRows (texts : List (Option CharArray)) :
    ∃ drawn,
      (∀ rounds, bootlogCols ≤ rounds →
        panel.paintBootLog rounds (afterCalls texts) = some drawn) ∧
      panel.ShowsLastRows (heldTexts (afterCalls texts).lines) drawn := by
  have ofLine : ∀ row ∈ panel.wrappedRows (heldTexts (afterCalls texts).lines),
      ∃ line ∈ heldTexts (afterCalls texts).lines,
        row ∈ panel.wrapping.pieces line :=
    fun row member => List.mem_flatMap.mp member
  -- A row of a held line is shorter than the buffer it is copied to.
  have short : ∀ row ∈ panel.wrappedRows (heldTexts (afterCalls texts).lines),
      row.length ≤ bootlogCols - 1 := by
    intro row member
    obtain ⟨line, held, inLine⟩ := ofLine row member
    have inArray := (mem_heldTexts held).2
    have shorter := panel.wrapping.length_le_of_mem_pieces inLine
    omega
  have rows := panel.windowRows_text short
  refine ⟨_, fun rounds enough => panel.paintBootLog_eq enough texts, ?_⟩
  refine ⟨rows, panel.windowRows_length _, ?_, ?_, ?_⟩
  · intro index row found
    exact panel.windowRows_places found
  · intro line _held
    exact panel.wrapping.flatten_pieces line
  · intro row member
    have text : row.text ∈
        (panel.wrappedRows (heldTexts (afterCalls texts).lines)).rtake
          bootlogLines := by
      rw [← rows]
      exact List.mem_map_of_mem member
    obtain ⟨line, -, inLine⟩ := ofLine _ (List.mem_of_mem_drop text)
    exact panel.narrow_of_mem_pieces inLine

end Panel

end KernelReloaded.BootLog

/-
`printTextBlock` with its line buffer: a text is broken into lines that are no
wider than the area, at the last space where there is one.

`WaitForUser` has the same function without the buffer and for one width.  Here
the buffer is memory with all accesses to it, the width is a parameter, and what
is printed is compared with the text.  At that width both print the same.
`xoffset` and `yoffset` are left out.
-/

import KernelReloaded.Core.CharCells
import KernelReloaded.Loader.LineEditor
import KernelReloaded.Loader.WaitForUser
import Mathlib.Algebra.GroupWithZero.Nat
import Mathlib.Data.List.Flatten

namespace KernelReloaded.TextLines

open CText CharCells WaitForUser

/-- A font, and an area on which each of its characters has room. -/
structure Face where
  charWidth : Char → Nat
  maxWidth : Nat
  positive : ∀ c, 1 ≤ charWidth c
  fits : ∀ c, charWidth c ≤ maxWidth

/-- The main loop keeps the key among the printable characters
(`Printable.linePasses`). -/
structure Area where
  face : Face
  lineStep : Int
  maxY : Int
  emulatedKey : Int
  printable : LineEditor.Printable emulatedKey

def lineBufferSize : Nat := 256

/-! ### The code -/

structure Filling where
  lineBuffer : Cells
  /-- The offsets of all accesses to the buffer. -/
  accesses : List Int
  i : Int
  w : Nat
  pos : Nat
  lastSpace : Int
  lastSpacePos : Nat
  insertCursorPos : Int

def Filling.start (lineBuffer : Cells) (pos : Nat) (cursorpos : Int) :
    Filling :=
  { lineBuffer := lineBuffer
    accesses := []
    i := 0
    w := 0
    pos := pos
    lastSpace := -1
    lastSpacePos := 0
    insertCursorPos := if (pos : Int) = cursorpos then 0 else -1 }

def Filling.put (line : Filling) (face : Face) (cursorpos : Int) (c : Char) :
    Filling :=
  { lineBuffer := Function.update line.lineBuffer line.i c
    accesses := line.accesses ++ [line.i]
    i := line.i + 1
    w := line.w + face.charWidth c
    pos := line.pos + 1
    lastSpace := if c = ' ' then line.i else line.lastSpace
    lastSpacePos := if c = ' ' then line.pos + 1 else line.lastSpacePos
    insertCursorPos :=
      if (line.pos : Int) + 1 = cursorpos then line.i + 1
      else line.insertCursorPos }

def fillLoop (face : Face) (cursorpos : Int) : Text → Filling → Filling
  | [], line =>
      if line.i < lineBufferSize - 2 then
        { line with
          lastSpace := line.i
          lastSpacePos := line.pos }
      else line
  | c :: rest, line =>
      if line.i < lineBufferSize - 2 then
        if c = '\r' then
          fillLoop face cursorpos rest { line with pos := line.pos + 1 }
        else if c = '\n' then
          { line with
            lastSpace := line.i
            lastSpacePos := line.pos + 1
            pos := line.pos + 1 }
        else if line.w + face.charWidth c > face.maxWidth then line
        else fillLoop face cursorpos rest (line.put face cursorpos c)
      else line

/-- A line that is ready: where the text goes on, and where the cursor has been
put in. -/
structure Line where
  lineBuffer : Cells
  accesses : List Int
  pos : Nat
  cursorAt : Option Nat

def Filling.finish (line : Filling) (cursorChar : Char) : Line :=
  let lastSpace := if line.lastSpace ≥ 0 then line.lastSpace else line.i
  let pos := if line.lastSpace ≥ 0 then line.lastSpacePos else line.pos
  let lineBuffer := Function.update line.lineBuffer lastSpace '\x00'
  let accesses := line.accesses ++ [lastSpace]
  if line.insertCursorPos ≥ 0 ∧ lastSpace ≥ line.insertCursorPos then
    let count := (lastSpace - line.insertCursorPos + 1).toNat
    { lineBuffer :=
        Function.update (moveUp lineBuffer line.insertCursorPos count)
          line.insertCursorPos cursorChar
      accesses := accesses ++ offsets line.insertCursorPos (count + 1)
      pos := pos
      cursorAt := some line.insertCursorPos.toNat }
  else
    { lineBuffer := lineBuffer
      accesses := accesses
      pos := pos
      cursorAt := none }

/-- What `fontPrint` reads; `none` when no NUL ends the buffer. -/
def fontPrint (lineBuffer : Cells) : Option (Text × List Int) :=
  (findNul lineBuffer lineBufferSize 0).map fun last =>
    (textAt lineBuffer 0 last.toNat, offsets 0 (last + 1).toNat)

structure Drawn where
  y : Int
  text : Text
  cursorAt : Option Nat

structure Printed where
  returned : Int
  drawn : List Drawn
  accesses : List Int

def cursorChar (area : Area) (block : TextBlock) : Char :=
  if block.cursor then '_' else Char.ofNat area.emulatedKey.toNat

def nextLine (area : Area) (block : TextBlock) (pos : Nat)
    (lineBuffer : Cells) : Line :=
  (fillLoop area.face block.cursorpos (block.msg.drop pos)
    (.start lineBuffer pos block.cursorpos)).finish (cursorChar area block)

/-- A line above the scroll position is laid out and not printed. -/
def drawLine (visible : Prop) [Decidable visible] (y : Int) (line : Line) :
    Option (List Drawn × List Int) :=
  if visible then
    (fontPrint line.lineBuffer).map fun (text, reads) =>
      ([{ y := y, text := text, cursorAt := line.cursorAt }], reads)
  else some ([], [])

def printLoop (area : Area) (block : TextBlock) :
    (rounds pos lineNo : Nat) → (y : Int) → Cells → Option Printed
  | 0, _, _, _, _ => none
  | rounds + 1, pos, lineNo, y, lineBuffer => do
      let line := nextLine area block pos lineBuffer
      let visible := block.scrollPos ≤ lineNo
      let (drawn, reads) ← drawLine visible y line
      let accesses := line.accesses ++ reads
      let y := if visible then y + area.lineStep else y
      if visible ∧ y > area.maxY - area.lineStep then
        some
          { returned := block.returned lineNo
            drawn := drawn
            accesses := accesses }
      else if line.pos < block.msg.length then
        let later ←
          printLoop area block rounds line.pos (lineNo + 1) y line.lineBuffer
        some
          { returned := later.returned
            drawn := drawn ++ later.drawn
            accesses := accesses ++ later.accesses }
      else
        some
          { returned := block.returned (lineNo + 1)
            drawn := drawn
            accesses := accesses }

/-- The text is read up to its NUL; the buffer holds what was on the stack. -/
def printTextBlock (area : Area) (rounds : Nat) (y : Int) (lineBuffer : Cells)
    (block : TextBlock) : Option Printed :=
  printLoop area { block with msg := cstring block.msg } rounds 0 0 y lineBuffer

/-! ### What is wanted -/

inductive Ending where
  | newLine
  | wrapSpace
  | cut
  | theEnd
deriving DecidableEq

/-- A part of the text that makes a line, with the character that ends it. -/
structure Piece where
  body : Text
  ending : Ending

def Ending.text : Ending → Text
  | .newLine => ['\n']
  | .wrapSpace => [' ']
  | .cut => []
  | .theEnd => []

def withoutCr (text : Text) : Text := text.filter (· ≠ '\r')

def withoutBreaks (text : Text) : Text :=
  text.filter fun c => c ≠ '\r' ∧ c ≠ '\n'

def Piece.text (piece : Piece) : Text := piece.body ++ piece.ending.text

/-- Without the space at which the text is wrapped. -/
def Piece.unwrapped (piece : Piece) : Text :=
  if piece.ending = .wrapSpace then piece.body else piece.text

def Piece.line (piece : Piece) : Text := withoutCr piece.body

def Face.width (face : Face) (text : Text) : Nat :=
  (text.map face.charWidth).sum

/-- More than a line holds. -/
def TooLong (face : Face) (text : Text) : Prop :=
  lineLimit ≤ (withoutCr text).length ∨
    face.maxWidth < face.width (withoutCr text)

/-- A text, its first piece and what is behind it.  It is wrapped or cut only
where the line is full, and cut only where it has no space. -/
inductive FirstPiece (face : Face) : Text → Piece → Text → Prop
  | theEnd {body : Text} (oneLine : '\n' ∉ body) :
      FirstPiece face body { body := body, ending := .theEnd } []
  | newLine {body rest : Text} (oneLine : '\n' ∉ body) :
      FirstPiece face (body ++ '\n' :: rest)
        { body := body, ending := .newLine } rest
  | wrapSpace {body more behind : Text} (oneLine : '\n' ∉ body)
      (sameLine : '\n' ∉ more) (full : TooLong face (body ++ ' ' :: more)) :
      FirstPiece face (body ++ ' ' :: (more ++ behind))
        { body := body, ending := .wrapSpace } (more ++ behind)
  | cut {body more behind : Text} (oneLine : '\n' ∉ body) (noSpace : ' ' ∉ body)
      (nonempty : body ≠ []) (atOnce : more.length ≤ 1)
      (full : TooLong face (body ++ more)) :
      FirstPiece face (body ++ (more ++ behind))
        { body := body, ending := .cut } (more ++ behind)

inductive Wraps (face : Face) : Text → List Piece → Prop
  | done : Wraps face [] []
  | line {text rest : Text} {piece : Piece} {pieces : List Piece}
      (first : FirstPiece face text piece rest) (later : Wraps face rest pieces) :
      Wraps face text (piece :: pieces)

/-- Without the cursor. -/
def Drawn.plain (drawn : Drawn) : Text :=
  match drawn.cursorAt with
  | some index => drawn.text.eraseIdx index
  | none => drawn.text

/-- The lines are the text without breaks and without the space at each wrap. -/
def ShowsAll (face : Face) (text : Text) (lines : List Text) : Prop :=
  ∃ pieces, Wraps face text pieces ∧ text = pieces.flatMap Piece.text ∧
    lines = pieces.map Piece.line ∧
    lines.flatten = withoutBreaks (pieces.flatMap Piece.unwrapped)

/-- Room for so many lines from `y` on. -/
def Roomy (area : Area) (y : Int) (count : Nat) : Prop :=
  ∀ lines : Nat, lines ≤ count →
    y + lines * area.lineStep ≤ area.maxY - area.lineStep

structure PrintsRight (area : Area) (y : Int) (block : TextBlock)
    (printed : Printed) : Prop where
  inside : ∀ offset ∈ printed.accesses, 0 ≤ offset ∧ offset < lineBufferSize
  narrow : ∀ drawn ∈ printed.drawn,
    area.face.width drawn.plain ≤ area.face.maxWidth
  complete : block.scrollPos = 0 →
    Roomy area y ((cstring block.msg).length + 1) →
    ShowsAll area.face (cstring block.msg) (printed.drawn.map Drawn.plain)

/-! ### Filling without the buffer -/

/-- `fillLine` for any width. -/
def fillText (face : Face) (cursorpos : Int) : Text → LineState → LineState
  | [], line =>
      if line.text.length < lineLimit then line.atBreak line.pos else line
  | c :: rest, line =>
      if line.text.length < lineLimit then
        if c = '\r' then
          fillText face cursorpos rest { line with pos := line.pos + 1 }
        else if c = '\n' then
          { line.atBreak (line.pos + 1) with pos := line.pos + 1 }
        else if line.w + face.charWidth c > face.maxWidth then line
        else
          fillText face cursorpos rest
            (line.addChar cursorpos c (face.charWidth c))
      else line

/-- `layoutLine` for any width. -/
def layoutText (face : Face) (block : TextBlock) (pos : Nat) : LineState :=
  fillText face block.cursorpos (block.msg.drop pos)
    { text := []
      w := 0
      pos := pos
      lastSpace := none
      insertCursorPos := if (pos : Int) = block.cursorpos then some 0 else none }

theorem addChar_eq (line : LineState) (cursorpos : Int) (c : Char) (adv : Nat) :
    line.addChar cursorpos c adv =
      { text := line.text ++ [c]
        w := line.w + adv
        pos := line.pos + 1
        lastSpace :=
          if c = ' ' then some (line.text.length, line.pos + 1)
          else line.lastSpace
        insertCursorPos :=
          if (line.pos : Int) + 1 = cursorpos then some (line.text.length + 1)
          else line.insertCursorPos } := by
  rw [LineState.addChar]
  by_cases isSpace : c = ' '
  · rw [if_pos isSpace, if_pos isSpace]
    rfl
  · rw [if_neg isSpace, if_neg isSpace]

/-- The buffer holds the text of the line, and the rest is the same. -/
structure Fills (filling : Filling) (line : LineState) : Prop where
  text : textAt filling.lineBuffer 0 line.text.length = line.text
  i : filling.i = line.text.length
  w : filling.w = line.w
  pos : filling.pos = line.pos
  broken : ∀ cut behind, line.lastSpace = some (cut, behind) →
    filling.lastSpace = cut ∧ filling.lastSpacePos = behind
  unbroken : line.lastSpace = none → filling.lastSpace = -1
  cursor : ∀ index, line.insertCursorPos = some index →
    filling.insertCursorPos = index
  noCursor : line.insertCursorPos = none → filling.insertCursorPos = -1
  inside : ∀ offset ∈ filling.accesses, 0 ≤ offset ∧ offset < lineLimit

namespace Fills

variable {filling : Filling} {line : LineState} {face : Face}

theorem start (lineBuffer : Cells) (pos : Nat) (cursorpos : Int) :
    Fills (.start lineBuffer pos cursorpos)
      { text := []
        w := 0
        pos := pos
        lastSpace := none
        insertCursorPos := if (pos : Int) = cursorpos then some 0 else none } := by
  refine ⟨rfl, rfl, rfl, rfl, nofun, fun _ => rfl, ?_, ?_, nofun⟩
  · intro index isIndex
    rw [Filling.start]
    dsimp only at isIndex ⊢
    split at isIndex
    next here =>
      rw [if_pos here, ← Option.some.inj isIndex]
      rfl
    · cases isIndex
  · intro absent
    rw [Filling.start]
    dsimp only at absent ⊢
    split at absent
    · cases absent
    next elsewhere => exact if_neg elsewhere

theorem limit_iff (fills : Fills filling line) :
    filling.i < lineBufferSize - 2 ↔ line.text.length < lineLimit := by
  rw [fills.i, lineBufferSize, lineLimit]
  omega

theorem atBreak (fills : Fills filling line) {place behind : Nat}
    (same : place = behind) :
    Fills
      { filling with
        lastSpace := filling.i
        lastSpacePos := place }
      (line.atBreak behind) := by
  refine ⟨fills.text, fills.i, fills.w, fills.pos, ?_, nofun, fills.cursor,
    fills.noCursor, fills.inside⟩
  intro cut other isBreak
  obtain ⟨rfl, rfl⟩ := Prod.mk.inj (Option.some.inj isBreak)
  exact ⟨fills.i, same⟩

theorem moveTo (fills : Fills filling line) {pos other : Nat}
    (same : pos = other) :
    Fills { filling with pos := pos } { line with pos := other } :=
  ⟨fills.text, fills.i, fills.w, same, fills.broken, fills.unbroken,
    fills.cursor, fills.noCursor, fills.inside⟩

theorem put (fills : Fills filling line) (cursorpos : Int) (c : Char)
    (short : line.text.length < lineLimit) :
    Fills (filling.put face cursorpos c)
      (line.addChar cursorpos c (face.charWidth c)) := by
  rw [addChar_eq]
  have place := fills.i
  refine ⟨?_, ?_, congrArg (· + face.charWidth c) fills.w,
    congrArg (· + 1) fills.pos, ?_, ?_, ?_, ?_, ?_⟩
  · rw [List.length_append, List.length_singleton, textAt_add]
    congr 1
    · rw [← fills.text, length_textAt]
      apply textAt_congr
      intro index inside
      exact Function.update_of_ne (by omega) _ _
    · rw [textAt, textAt, Int.zero_add, ← place]
      exact congrArg (· :: []) (Function.update_self _ _ _)
  · rw [List.length_append, List.length_singleton, Filling.put, place]
    rfl
  · intro cut behind isBreak
    rw [Filling.put]
    dsimp only at isBreak ⊢
    by_cases isSpace : c = ' '
    · rw [if_pos isSpace] at isBreak ⊢
      obtain ⟨rfl, rfl⟩ := Prod.mk.inj (Option.some.inj isBreak)
      rw [if_pos isSpace]
      exact ⟨place, congrArg (· + 1) fills.pos⟩
    · rw [if_neg isSpace] at isBreak ⊢
      rw [if_neg isSpace]
      exact fills.broken cut behind isBreak
  · intro absent
    rw [Filling.put]
    dsimp only at absent ⊢
    by_cases isSpace : c = ' '
    · rw [if_pos isSpace] at absent
      cases absent
    · rw [if_neg isSpace] at absent ⊢
      exact fills.unbroken absent
  · intro index isIndex
    rw [Filling.put, fills.pos]
    dsimp only at isIndex ⊢
    by_cases here : (line.pos : Int) + 1 = cursorpos
    · rw [if_pos here] at isIndex ⊢
      rw [← Option.some.inj isIndex, place]
      rfl
    · rw [if_neg here] at isIndex ⊢
      exact fills.cursor index isIndex
  · intro absent
    rw [Filling.put, fills.pos]
    dsimp only at absent ⊢
    by_cases here : (line.pos : Int) + 1 = cursorpos
    · rw [if_pos here] at absent
      cases absent
    · rw [if_neg here] at absent ⊢
      exact fills.noCursor absent
  · intro offset member
    rcases List.mem_append.mp member with earlier | now
    · exact fills.inside offset earlier
    · rw [List.mem_singleton.mp now, place]
      omega

theorem fillLoop (fills : Fills filling line) (cursorpos : Int) (rest : Text) :
    Fills (fillLoop face cursorpos rest filling)
      (fillText face cursorpos rest line) := by
  induction rest generalizing filling line with
  | nil =>
      rw [TextLines.fillLoop, fillText]
      by_cases short : line.text.length < lineLimit
      · rw [if_pos short, if_pos (fills.limit_iff.mpr short)]
        exact fills.atBreak fills.pos
      · rw [if_neg short, if_neg (mt fills.limit_iff.mp short)]
        exact fills
  | cons c rest ih =>
      rw [TextLines.fillLoop, fillText]
      by_cases short : line.text.length < lineLimit
      · have next : filling.pos + 1 = line.pos + 1 :=
          congrArg (· + 1) fills.pos
        rw [if_pos short, if_pos (fills.limit_iff.mpr short)]
        split
        · exact ih (fills.moveTo next)
        · split
          · exact (fills.atBreak next).moveTo next
          · by_cases tooWide : line.w + face.charWidth c > face.maxWidth
            · rw [if_pos tooWide, if_pos (by rw [fills.w]; exact tooWide)]
              exact fills
            · rw [if_neg tooWide, if_neg (by rw [fills.w]; exact tooWide)]
              exact ih (fills.put cursorpos c short)
      · rw [if_neg short, if_neg (mt fills.limit_iff.mp short)]
        exact fills

end Fills

/-! ### One line -/

theorem withoutCr_append (first second : Text) :
    withoutCr (first ++ second) = withoutCr first ++ withoutCr second :=
  List.filter_append _ _

theorem Face.width_append (face : Face) (first second : Text) :
    face.width (first ++ second) = face.width first + face.width second := by
  rw [Face.width, List.map_append, List.sum_append, Face.width, Face.width]

/-- What the line is after the characters `front` of a text at `pos`. -/
structure Consumed (face : Face) (front : Text) (pos : Nat) (line : LineState) :
    Prop where
  text : line.text = withoutCr front
  oneLine : '\n' ∉ front
  width : line.w = face.width line.text
  narrow : line.w ≤ face.maxWidth
  place : line.pos = pos + front.length
  short : line.text.length ≤ lineLimit
  broken : ∀ cut behind, line.lastSpace = some (cut, behind) →
    ∃ body word, front = body ++ ' ' :: word ∧
      cut = (withoutCr body).length ∧ behind = pos + body.length + 1
  unbroken : line.lastSpace = none → ' ' ∉ front

/-- The line holds the first piece of the text and goes on behind it. -/
structure Ends (face : Face) (text : Text) (pos : Nat) (line : LineState)
    (piece : Piece) (rest : Text) : Prop where
  first : FirstPiece face text piece rest
  shown : line.text.take line.cut.1 = piece.line
  cutInside : line.cut.1 ≤ line.text.length
  next : line.cut.2 = pos + piece.text.length
  short : line.text.length ≤ lineLimit
  narrow : face.width line.text ≤ face.maxWidth
  fromText : ∀ c ∈ line.text, c ∈ text

namespace Consumed

variable {face : Face} {front : Text} {pos : Nat} {line : LineState}

theorem mem_text (consumed : Consumed face front pos line) (rest : Text)
    {c : Char} (member : c ∈ line.text) : c ∈ front ++ rest := by
  rw [consumed.text] at member
  exact List.mem_append_left _ (List.mem_filter.mp member).1

theorem narrow_text (consumed : Consumed face front pos line) :
    face.width line.text ≤ face.maxWidth := by
  rw [← consumed.width]
  exact consumed.narrow

/-- A full line is wrapped at its last space or cut. -/
theorem stopped (consumed : Consumed face front pos line) (more behind : Text)
    (nonempty : front ≠ []) (atOnce : more.length ≤ 1) (sameLine : '\n' ∉ more)
    (full : TooLong face (front ++ more)) :
    ∃ piece rest, Ends face (front ++ (more ++ behind)) pos line piece rest := by
  cases last : line.lastSpace with
  | none =>
      have cut : line.cut = (line.text.length, line.pos) := by
        rw [LineState.cut, last, Option.getD_none]
      refine ⟨{ body := front, ending := .cut }, _,
        .cut consumed.oneLine (consumed.unbroken last) nonempty atOnce full, ?_,
        ?_, ?_, consumed.short, consumed.narrow_text,
        fun c member => consumed.mem_text _ member⟩
      · rw [cut, List.take_length]
        exact consumed.text
      · rw [cut]
      · rw [cut, Piece.text, Ending.text, List.append_nil]
        exact consumed.place
  | some place =>
      obtain ⟨body, word, split, isCut, isNext⟩ :=
        consumed.broken place.1 place.2 last
      have cut : line.cut = place := by
        rw [LineState.cut, last, Option.getD_some]
      have oneLine := consumed.oneLine
      rw [split, List.mem_append, List.mem_cons, not_or, not_or] at oneLine
      have behindSpace : '\n' ∉ word ++ more := by
        rw [List.mem_append, not_or]
        exact ⟨oneLine.2.2, sameLine⟩
      have assoc (tail : Text) : front ++ tail = body ++ ' ' :: (word ++ tail) := by
        rw [split, List.append_assoc, List.cons_append]
      have whole : front ++ (more ++ behind) =
          body ++ ' ' :: ((word ++ more) ++ behind) := by
        rw [assoc, List.append_assoc]
      have textSplit : line.text = withoutCr body ++ withoutCr (' ' :: word) := by
        rw [consumed.text, split, withoutCr_append]
      rw [assoc] at full
      refine ⟨{ body := body, ending := .wrapSpace }, (word ++ more) ++ behind,
        ?_, ?_, ?_, ?_, consumed.short, consumed.narrow_text,
        fun c member => consumed.mem_text _ member⟩
      · rw [whole]
        exact .wrapSpace oneLine.1 behindSpace full
      · rw [cut, isCut, textSplit, List.take_left]
        rfl
      · rw [cut, isCut, textSplit, List.length_append]
        exact Nat.le_add_right _ _
      · rw [cut, isNext, Piece.text, List.length_append, Nat.add_assoc]
        rfl

theorem skip (consumed : Consumed face front pos line) :
    Consumed face (front ++ ['\r']) pos { line with pos := line.pos + 1 } := by
  refine ⟨?_, ?_, consumed.width, consumed.narrow, ?_, consumed.short, ?_, ?_⟩
  · rw [withoutCr_append]
    exact consumed.text.trans (List.append_nil _).symm
  · rw [List.mem_append, not_or]
    exact ⟨consumed.oneLine, by decide⟩
  · rw [List.length_append, consumed.place]
    rfl
  · intro cut behind isBreak
    obtain ⟨body, word, split, isCut, isNext⟩ :=
      consumed.broken cut behind isBreak
    refine ⟨body, word ++ ['\r'], ?_, isCut, isNext⟩
    rw [split, List.append_assoc, List.cons_append]
  · intro absent
    rw [List.mem_append, not_or]
    exact ⟨consumed.unbroken absent, by decide⟩

theorem addChar (consumed : Consumed face front pos line) {c : Char}
    (notCr : c ≠ '\r') (notNewLine : c ≠ '\n')
    (short : line.text.length < lineLimit)
    (fits : line.w + face.charWidth c ≤ face.maxWidth) (cursorpos : Int) :
    Consumed face (front ++ [c]) pos
      (line.addChar cursorpos c (face.charWidth c)) := by
  rw [addChar_eq]
  have kept : withoutCr [c] = [c] := List.filter_cons_of_pos (by simpa using notCr)
  refine ⟨?_, ?_, ?_, fits, ?_, ?_, ?_, ?_⟩
  · rw [withoutCr_append, kept, consumed.text]
  · rw [List.mem_append, not_or, List.mem_singleton]
    exact ⟨consumed.oneLine, notNewLine.symm⟩
  · rw [Face.width_append, consumed.width]
    rfl
  · rw [List.length_append, consumed.place]
    rfl
  · rw [List.length_append]
    exact short
  · intro cut behind isBreak
    dsimp only at isBreak
    by_cases isSpace : c = ' '
    · rw [if_pos isSpace] at isBreak
      obtain ⟨rfl, rfl⟩ := Prod.mk.inj (Option.some.inj isBreak)
      refine ⟨front, [], ?_, ?_, ?_⟩
      · rw [isSpace]
      · rw [consumed.text]
      · rw [consumed.place]
    · rw [if_neg isSpace] at isBreak
      obtain ⟨body, word, split, isCut, isNext⟩ :=
        consumed.broken cut behind isBreak
      refine ⟨body, word ++ [c], ?_, isCut, isNext⟩
      rw [split, List.append_assoc, List.cons_append]
  · intro absent
    dsimp only at absent
    by_cases isSpace : c = ' '
    · rw [if_pos isSpace] at absent
      cases absent
    · rw [if_neg isSpace] at absent
      rw [List.mem_append, not_or, List.mem_singleton]
      exact ⟨consumed.unbroken absent, fun same => isSpace same.symm⟩

/-- A line of the greatest length is full. -/
theorem full_of_long (consumed : Consumed face front pos line)
    (long : ¬ line.text.length < lineLimit) :
    front ≠ [] ∧ TooLong face (front ++ []) := by
  constructor
  · rintro rfl
    rw [consumed.text] at long
    exact long (by decide)
  · rw [List.append_nil]
    left
    rw [← consumed.text]
    exact Nat.le_of_not_lt long

/-- A line is full when the next character has no room. -/
theorem full_of_wide (consumed : Consumed face front pos line) {c : Char}
    (notCr : c ≠ '\r') (tooWide : line.w + face.charWidth c > face.maxWidth) :
    front ≠ [] ∧ TooLong face (front ++ [c]) := by
  have kept : withoutCr [c] = [c] := List.filter_cons_of_pos (by simpa using notCr)
  constructor
  · rintro rfl
    have empty : line.w = 0 := by
      rw [consumed.width, consumed.text]
      rfl
    have fits := face.fits c
    omega
  · right
    rw [withoutCr_append, kept, Face.width_append, ← consumed.text,
      ← consumed.width]
    exact tooWide

theorem fillText_ends (consumed : Consumed face front pos line)
    (cursorpos : Int) (rest : Text) :
    ∃ piece behind, Ends face (front ++ rest) pos
      (fillText face cursorpos rest line) piece behind := by
  induction rest generalizing front line with
  | nil =>
      rw [fillText]
      by_cases short : line.text.length < lineLimit
      · rw [if_pos short, List.append_nil]
        refine ⟨{ body := front, ending := .theEnd }, [], .theEnd consumed.oneLine,
          ?_, Nat.le_refl _, ?_, consumed.short, consumed.narrow_text, ?_⟩
        · exact (List.take_length).trans consumed.text
        · rw [Piece.text, Ending.text, List.append_nil]
          exact consumed.place
        · intro c member
          have inText := consumed.mem_text [] member
          rw [List.append_nil] at inText
          exact inText
      · rw [if_neg short]
        obtain ⟨nonempty, full⟩ := consumed.full_of_long short
        exact consumed.stopped [] [] nonempty (Nat.zero_le 1)
          List.not_mem_nil full
  | cons c rest ih =>
      have assoc : front ++ c :: rest = front ++ [c] ++ rest := by
        rw [List.append_assoc, List.singleton_append]
      rw [fillText]
      by_cases short : line.text.length < lineLimit
      · rw [if_pos short]
        by_cases isCr : c = '\r'
        · rw [if_pos isCr, assoc, isCr]
          exact ih consumed.skip
        · rw [if_neg isCr]
          by_cases isNewLine : c = '\n'
          · rw [if_pos isNewLine, isNewLine]
            refine ⟨{ body := front, ending := .newLine }, rest,
              .newLine consumed.oneLine, ?_, Nat.le_refl _, ?_, consumed.short,
              consumed.narrow_text, fun c member => consumed.mem_text _ member⟩
            · exact (List.take_length).trans consumed.text
            · rw [Piece.text, Ending.text, List.length_append, ← Nat.add_assoc,
                ← consumed.place]
              rfl
          · rw [if_neg isNewLine]
            by_cases tooWide : line.w + face.charWidth c > face.maxWidth
            · rw [if_pos tooWide]
              obtain ⟨nonempty, full⟩ := consumed.full_of_wide isCr tooWide
              exact consumed.stopped [c] rest nonempty (Nat.le_refl 1)
                (by rw [List.mem_singleton]; exact fun same => isNewLine same.symm)
                full
            · rw [if_neg tooWide, assoc]
              exact ih (consumed.addChar isCr isNewLine short
                (Nat.le_of_not_lt tooWide) cursorpos)
      · rw [if_neg short]
        obtain ⟨nonempty, full⟩ := consumed.full_of_long short
        exact consumed.stopped [] (c :: rest) nonempty (Nat.zero_le 1)
          List.not_mem_nil full

end Consumed

/-! ### The line in the buffer -/

/-- The line without the cursor. -/
def Line.plain (line : Line) (text : Text) : Text :=
  match line.cursorAt with
  | some index => text.eraseIdx index
  | none => text

structure Line.Holds (line : Line) (text plain : Text) : Prop where
  holds : HoldsText line.lineBuffer 0 text
  plain : line.plain text = plain
  inside : ∀ offset ∈ line.accesses, 0 ≤ offset ∧ offset < lineBufferSize
  short : text.length < lineBufferSize

theorem Fills.cut {filling : Filling} {line : LineState}
    (fills : Fills filling line) :
    (if filling.lastSpace ≥ 0 then filling.lastSpace else filling.i) =
        line.cut.1 ∧
      (if filling.lastSpace ≥ 0 then filling.lastSpacePos else filling.pos) =
        line.cut.2 := by
  rw [LineState.cut]
  cases last : line.lastSpace with
  | none =>
      rw [fills.unbroken last, if_neg (by decide), if_neg (by decide),
        Option.getD_none]
      exact ⟨fills.i, fills.pos⟩
  | some place =>
      obtain ⟨isCut, isNext⟩ := fills.broken place.1 place.2 last
      rw [isCut, isNext, if_pos (Int.natCast_nonneg _),
        if_pos (Int.natCast_nonneg _), Option.getD_some]
      exact ⟨rfl, rfl⟩

theorem Fills.finish {filling : Filling} {line : LineState}
    (fills : Fills filling line) (cutInside : line.cut.1 ≤ line.text.length)
    (short : line.text.length ≤ lineLimit) (nulFree : '\x00' ∉ line.text)
    {cursorChar : Char} (notNul : cursorChar ≠ '\x00') :
    (filling.finish cursorChar).pos = line.cut.2 ∧
      (filling.finish cursorChar).Holds (line.shown cursorChar)
        (line.text.take line.cut.1) := by
  obtain ⟨cut, next⟩ := fills.cut
  have cutLength : (line.text.take line.cut.1).length = line.cut.1 :=
    List.length_take_of_le cutInside
  have room : line.cut.1 ≤ 254 := Nat.le_trans cutInside short
  have terminated : HoldsText
      (Function.update filling.lineBuffer line.cut.1 '\x00') 0
      (line.text.take line.cut.1) := by
    apply holdsText_of_textAt
    · rw [cutLength]
      have stored := take_textAt filling.lineBuffer 0 cutInside
      rw [fills.text] at stored
      rw [stored]
      apply textAt_congr
      intro index inside
      exact Function.update_of_ne (by omega) _ _
    · intro member
      exact nulFree (List.mem_of_mem_take member)
    · rw [cutLength, Int.zero_add, Function.update_self]
  have earlier : ∀ offset ∈ filling.accesses ++ [(line.cut.1 : Int)],
      0 ≤ offset ∧ offset < lineBufferSize := by
    rw [lineBufferSize]
    intro offset member
    rcases List.mem_append.mp member with filled | ended
    · have between := fills.inside offset filled
      rw [lineLimit] at between
      omega
    · rw [List.mem_singleton.mp ended]
      omega
  rw [Filling.finish]
  dsimp only
  rw [cut, next, LineState.shown]
  cases placed : line.insertCursorPos with
  | none =>
      rw [fills.noCursor placed, if_neg (by omega)]
      refine ⟨rfl, terminated, rfl, earlier, ?_⟩
      rw [cutLength, lineBufferSize]
      omega
  | some index =>
      rw [fills.cursor index placed]
      dsimp only
      by_cases behind : index ≤ line.cut.1
      · have together : (line.text.take line.cut.1).take index ++
            (line.text.take line.cut.1).drop index =
              line.text.take line.cut.1 :=
          List.take_append_drop _ _
        have front : ((line.text.take line.cut.1).take index).length = index :=
          List.length_take_of_le (by rw [cutLength]; exact behind)
        have back : ((line.text.take line.cut.1).drop index).length =
            line.cut.1 - index := by
          rw [List.length_drop, cutLength]
        rw [← together] at terminated
        have inserted := terminated.insert notNul
          ((line.cut.1 : Int) - index + 1).toNat (by rw [back]; omega)
        rw [front, Int.zero_add] at inserted
        rw [if_pos (by omega), if_pos behind]
        refine ⟨rfl, inserted, ?_, ?_, ?_⟩
        · rw [Line.plain, Int.toNat_natCast]
          dsimp only
          rw [List.eraseIdx_append_of_length_le (Nat.le_of_eq front), front,
            Nat.sub_self, List.eraseIdx_cons_zero, together]
        · rw [lineBufferSize]
          intro offset member
          rcases List.mem_append.mp member with filled | moved
          · exact earlier offset filled
          · have between := mem_offsets.mp moved
            omega
        · rw [List.length_append, front, List.length_cons, back, lineBufferSize]
          omega
      · rw [if_neg (by omega), if_neg behind]
        refine ⟨rfl, terminated, rfl, earlier, ?_⟩
        rw [cutLength, lineBufferSize]
        omega

/-! ### Pieces -/

theorem FirstPiece.text_eq {face : Face} {text rest : Text} {piece : Piece}
    (first : FirstPiece face text piece rest) : text = piece.text ++ rest := by
  cases first with
  | theEnd oneLine =>
      rw [Piece.text, Ending.text, List.append_nil, List.append_nil]
  | newLine oneLine =>
      rw [Piece.text, Ending.text, List.append_assoc]
      rfl
  | wrapSpace oneLine sameLine full =>
      rw [Piece.text, Ending.text, List.append_assoc]
      rfl
  | cut oneLine noSpace nonempty atOnce full =>
      rw [Piece.text, Ending.text, List.append_nil]

/-- A line that is not the last one moves on. -/
theorem FirstPiece.advances {face : Face} {text rest : Text} {piece : Piece}
    (first : FirstPiece face text piece rest) (nonempty : text ≠ []) :
    0 < piece.text.length := by
  rw [List.length_pos_iff, Piece.text]
  cases first with
  | theEnd oneLine =>
      rw [Ending.text, List.append_nil]
      exact nonempty
  | newLine oneLine => exact List.append_ne_nil_of_right_ne_nil _ nofun
  | wrapSpace oneLine sameLine full =>
      exact List.append_ne_nil_of_right_ne_nil _ nofun
  | cut oneLine noSpace filled atOnce full =>
      exact List.append_ne_nil_of_left_ne_nil filled _

theorem FirstPiece.oneLine {face : Face} {text rest : Text} {piece : Piece}
    (first : FirstPiece face text piece rest) : '\n' ∉ piece.body := by
  cases first with
  | theEnd oneLine => exact oneLine
  | newLine oneLine => exact oneLine
  | wrapSpace oneLine sameLine full => exact oneLine
  | cut oneLine noSpace nonempty atOnce full => exact oneLine

theorem Piece.line_eq {piece : Piece} (oneLine : '\n' ∉ piece.body) :
    piece.line = withoutBreaks piece.unwrapped := by
  have body : withoutBreaks piece.body = withoutCr piece.body := by
    apply List.filter_congr
    intro c member
    have notNewLine : c ≠ '\n' := by
      rintro rfl
      exact oneLine member
    simp [notNewLine]
  rw [Piece.line, Piece.unwrapped, ← body]
  split
  · rfl
  next notWrap =>
    rw [Piece.text, withoutBreaks, withoutBreaks, List.filter_append]
    cases ending : piece.ending with
    | newLine => exact (List.append_nil _).symm
    | wrapSpace => exact absurd ending notWrap
    | cut => exact (List.append_nil _).symm
    | theEnd => exact (List.append_nil _).symm

/-- The lines together are the text without breaks and wraps. -/
theorem Wraps.flatten_lines {face : Face} {text : Text} {pieces : List Piece}
    (wraps : Wraps face text pieces) :
    (pieces.map Piece.line).flatten =
      withoutBreaks (pieces.flatMap Piece.unwrapped) := by
  induction wraps with
  | done => rfl
  | line first later ih =>
      rw [List.map_cons, List.flatten_cons, ih, List.flatMap_cons,
        Piece.line_eq first.oneLine, withoutBreaks, withoutBreaks, withoutBreaks,
        List.filter_append]

theorem Wraps.text_eq {face : Face} {text : Text} {pieces : List Piece}
    (wraps : Wraps face text pieces) : text = pieces.flatMap Piece.text := by
  induction wraps with
  | done => rfl
  | line first later ih =>
      rw [List.flatMap_cons, ← ih]
      exact first.text_eq

/-! ### The block -/

section

variable {area : Area} {block : TextBlock}

theorem cursorChar_ne_nul (area : Area) (block : TextBlock) :
    cursorChar area block ≠ '\x00' := by
  rw [cursorChar]
  split
  · decide
  · exact area.printable.ne_nul

theorem layoutText_ends (face : Face) (block : TextBlock) (pos : Nat) :
    ∃ piece rest, Ends face (block.msg.drop pos) pos (layoutText face block pos)
      piece rest := by
  have consumed : Consumed face [] pos
      { text := []
        w := 0
        pos := pos
        lastSpace := none
        insertCursorPos :=
          if (pos : Int) = block.cursorpos then some 0 else none } :=
    ⟨rfl, List.not_mem_nil, rfl, Nat.zero_le _, rfl, Nat.zero_le _, nofun,
      fun _ => List.not_mem_nil⟩
  exact consumed.fillText_ends block.cursorpos (block.msg.drop pos)

theorem Ends.narrow_line {face : Face} {text rest : Text} {pos : Nat}
    {line : LineState} {piece : Piece} (ends : Ends face text pos line piece rest) :
    face.width piece.line ≤ face.maxWidth := by
  have whole := congrArg face.width (List.take_append_drop line.cut.1 line.text)
  rw [Face.width_append, ends.shown] at whole
  have narrow := ends.narrow
  omega

/-- The line in the buffer is the one laid out on texts. -/
theorem nextLine_holds (area : Area) (nulFree : '\x00' ∉ block.msg) (pos : Nat)
    (lineBuffer : Cells) :
    (nextLine area block pos lineBuffer).pos =
        (layoutText area.face block pos).cut.2 ∧
      (nextLine area block pos lineBuffer).Holds
        ((layoutText area.face block pos).shown (cursorChar area block))
        ((layoutText area.face block pos).text.take
          (layoutText area.face block pos).cut.1) := by
  obtain ⟨piece, rest, ends⟩ := layoutText_ends area.face block pos
  have filled : Fills
      (fillLoop area.face block.cursorpos (block.msg.drop pos)
        (.start lineBuffer pos block.cursorpos))
      (layoutText area.face block pos) :=
    (Fills.start lineBuffer pos block.cursorpos).fillLoop _ _
  have nulFreeLine : '\x00' ∉ (layoutText area.face block pos).text := by
    intro member
    exact nulFree (List.mem_of_mem_drop (ends.fromText _ member))
  exact filled.finish ends.cutInside ends.short nulFreeLine
    (cursorChar_ne_nul area block)

theorem nextLine_spec (area : Area) (nulFree : '\x00' ∉ block.msg) (pos : Nat)
    (lineBuffer : Cells) :
    ∃ piece rest text, FirstPiece area.face (block.msg.drop pos) piece rest ∧
      (nextLine area block pos lineBuffer).pos = pos + piece.text.length ∧
      (nextLine area block pos lineBuffer).Holds text piece.line ∧
      area.face.width piece.line ≤ area.face.maxWidth := by
  obtain ⟨piece, rest, ends⟩ := layoutText_ends area.face block pos
  obtain ⟨next, holds⟩ := nextLine_holds area nulFree pos lineBuffer
  rw [ends.next] at next
  rw [ends.shown] at holds
  exact ⟨piece, rest, _, ends.first, next, holds, ends.narrow_line⟩

theorem Line.Holds.fontPrint_eq {line : Line} {text plain : Text}
    (holds : line.Holds text plain) :
    fontPrint line.lineBuffer = some (text, offsets 0 (text.length + 1)) := by
  have found := findNul_of_holds holds.holds holds.short
  rw [fontPrint, found, Option.map_some, Int.zero_add, Int.toNat_natCast,
    holds.holds.textAt_eq]
  rfl

theorem Line.Holds.drawLine_eq {line : Line} {text plain : Text}
    (holds : line.Holds text plain) (visible : Prop) [Decidable visible]
    (y : Int) :
    drawLine visible y line = some
      (if visible then
        ([{ y := y, text := text, cursorAt := line.cursorAt }],
          offsets 0 (text.length + 1))
      else ([], [])) := by
  rw [drawLine]
  split
  · rw [holds.fontPrint_eq, Option.map_some]
  · rfl

/-- What one round of the loop over the lines draws and reads. -/
structure DrawsLine (area : Area) (visible : Prop) (piece : Piece)
    (drawn : List Drawn) (reads : List Int) : Prop where
  narrow : ∀ one ∈ drawn, area.face.width one.plain ≤ area.face.maxWidth
  inside : ∀ offset ∈ reads, 0 ≤ offset ∧ offset < lineBufferSize
  plain : visible → drawn.map Drawn.plain = [piece.line]

theorem drawLine_spec (visible : Prop) [Decidable visible] {line : Line}
    {text : Text} {piece : Piece} (holds : line.Holds text piece.line)
    (narrow : area.face.width piece.line ≤ area.face.maxWidth) (y : Int) :
    ∃ drawn reads, drawLine visible y line = some (drawn, reads) ∧
      DrawsLine area visible piece drawn reads := by
  rw [holds.drawLine_eq]
  by_cases shown : visible
  · rw [if_pos shown]
    refine ⟨_, _, rfl, ?_, ?_, fun _ => congrArg (· :: []) holds.plain⟩
    · intro one member
      rw [List.mem_singleton.mp member]
      have plain : ({ y := y, text := text, cursorAt := line.cursorAt } :
          Drawn).plain = piece.line := holds.plain
      rw [plain]
      exact narrow
    · intro offset member
      have between := mem_offsets.mp member
      have short := holds.short
      omega
  · rw [if_neg shown]
    exact ⟨[], [], rfl, nofun, nofun, fun isShown => absurd isShown shown⟩

theorem Roomy.one_line {y : Int} {count : Nat} (roomy : Roomy area y count)
    (positive : 1 ≤ count) :
    ¬ y + area.lineStep > area.maxY - area.lineStep := by
  have fits := roomy 1 positive
  rw [Int.natCast_one, Int.one_mul] at fits
  omega

theorem Roomy.below {y : Int} {count fewer : Nat} (roomy : Roomy area y count)
    (less : fewer + 1 ≤ count) : Roomy area (y + area.lineStep) fewer := by
  intro lines bound
  have fits := roomy (lines + 1) (by omega)
  rw [Int.natCast_add, Int.natCast_one, Int.add_mul, Int.one_mul] at fits
  omega

/-- From a line on: the loop ends, and what it draws is right. -/
theorem printLoop_spec (nulFree : '\x00' ∉ block.msg) {rounds pos : Nat}
    (enough : block.msg.length - pos < rounds) (lineNo : Nat) (y : Int)
    (lineBuffer : Cells) :
    ∃ printed, printLoop area block rounds pos lineNo y lineBuffer =
        some printed ∧
      (∀ offset ∈ printed.accesses, 0 ≤ offset ∧ offset < lineBufferSize) ∧
      (∀ one ∈ printed.drawn,
        area.face.width one.plain ≤ area.face.maxWidth) ∧
      (block.scrollPos = 0 → Roomy area y (block.msg.length - pos + 1) →
        ∃ pieces, Wraps area.face (block.msg.drop pos) pieces ∧
          printed.drawn.map Drawn.plain = pieces.map Piece.line) := by
  induction rounds generalizing pos lineNo y lineBuffer with
  | zero => cases enough
  | succ rounds ih =>
      obtain ⟨piece, rest, text, first, next, holds, narrow⟩ :=
        nextLine_spec area nulFree pos lineBuffer
      obtain ⟨drawn, reads, done, draws⟩ :=
        drawLine_spec (block.scrollPos ≤ lineNo) holds narrow y
      have behind : block.msg.drop (pos + piece.text.length) = rest := by
        rw [← List.drop_drop, first.text_eq, List.drop_left]
      have inside : ∀ offset ∈
          (nextLine area block pos lineBuffer).accesses ++ reads,
          0 ≤ offset ∧ offset < lineBufferSize := by
        intro offset member
        rcases List.mem_append.mp member with filled | read
        · exact holds.inside offset filled
        · exact draws.inside offset read
      have atTop (zero : block.scrollPos = 0) : block.scrollPos ≤ lineNo := by
        rw [zero]
        exact Int.natCast_nonneg _
      rw [printLoop]
      dsimp only
      rw [done, Option.bind_eq_bind, Option.bind_some]
      dsimp only
      by_cases bottom : block.scrollPos ≤ lineNo ∧
          (if block.scrollPos ≤ lineNo then y + area.lineStep else y) >
            area.maxY - area.lineStep
      · rw [if_pos bottom]
        refine ⟨_, rfl, inside, draws.narrow, ?_⟩
        intro zero roomy
        have tooLow := bottom.2
        rw [if_pos (atTop zero)] at tooLow
        exact absurd tooLow (roomy.one_line (Nat.le_add_left 1 _))
      · rw [if_neg bottom, next]
        by_cases more : pos + piece.text.length < block.msg.length
        · have moved : 0 < piece.text.length := by
            apply first.advances
            rw [← List.length_pos_iff, List.length_drop]
            omega
          have fewer : block.msg.length - (pos + piece.text.length) < rounds := by
            omega
          obtain ⟨later, printed, laterInside, laterNarrow, laterRight⟩ :=
            ih fewer (lineNo + 1)
              (if block.scrollPos ≤ lineNo then y + area.lineStep else y)
              (nextLine area block pos lineBuffer).lineBuffer
          rw [if_pos more, printed, Option.bind_eq_bind, Option.bind_some]
          refine ⟨_, rfl, ?_, ?_, ?_⟩
          · intro offset member
            rcases List.mem_append.mp member with now | after
            · exact inside offset now
            · exact laterInside offset after
          · intro one member
            rcases List.mem_append.mp member with now | after
            · exact draws.narrow one now
            · exact laterNarrow one after
          · intro zero roomy
            rw [if_pos (atTop zero)] at laterRight
            obtain ⟨pieces, wraps, lines⟩ :=
              laterRight zero (roomy.below (by omega))
            rw [behind] at wraps
            refine ⟨piece :: pieces, .line first wraps, ?_⟩
            rw [List.map_append, draws.plain (atTop zero), lines]
            rfl
        · have last : rest = [] := by
            rw [← behind]
            exact List.drop_eq_nil_of_le (Nat.le_of_not_lt more)
          rw [if_neg more]
          refine ⟨_, rfl, inside, draws.narrow, ?_⟩
          intro zero roomy
          rw [last] at first
          exact ⟨[piece], .line first .done, draws.plain (atTop zero)⟩

/-- A call ends after at most one round a character and one more, keeps within
the buffer, prints no line that is too wide, and loses no text. -/
theorem printTextBlock_right (area : Area) (y : Int) (lineBuffer : Cells)
    (block : TextBlock) (more : Nat) :
    ∃ printed,
      printTextBlock area ((cstring block.msg).length + 1 + more) y lineBuffer
        block = some printed ∧
      PrintsRight area y block printed := by
  have enough : (cstring block.msg).length - 0 <
      (cstring block.msg).length + 1 + more := by
    omega
  obtain ⟨printed, ends, inside, narrow, complete⟩ :=
    @printLoop_spec area { block with msg := cstring block.msg }
      (nul_not_mem_cstring block.msg) _ 0 enough 0 y lineBuffer
  refine ⟨printed, ends, inside, narrow, ?_⟩
  intro zero roomy
  obtain ⟨pieces, wraps, lines⟩ := complete zero roomy
  refine ⟨pieces, wraps, wraps.text_eq, lines, ?_⟩
  rw [lines]
  exact wraps.flatten_lines

end

/-! ### The same lines without the buffer -/

section

variable {area : Area} {block : TextBlock}

/-- The area as `WaitForUser` has it. -/
def Area.screen (area : Area) (top modeFrequenzy : Int) : Screen :=
  { charWidth := area.face.charWidth
    lineStep := area.lineStep
    top := top
    maxY := area.maxY
    modeFrequenzy := modeFrequenzy
    emulatedKey := Char.ofNat area.emulatedKey.toNat }

/-- The value to return, and the lines with their heights. -/
def Printed.lines (printed : Printed) : Int × List (Int × Text) :=
  (printed.returned, printed.drawn.map fun one => (one.y, one.text))

theorem fillText_screen (sameWidth : area.face.maxWidth = textWidth)
    (top modeFrequenzy cursorpos : Int) (rest : Text) (line : LineState) :
    fillText area.face cursorpos rest line =
      fillLine (area.screen top modeFrequenzy) cursorpos rest line := by
  induction rest generalizing line with
  | nil => rfl
  | cons c rest ih =>
      rw [fillText, fillLine, ih, ih, sameWidth]
      rfl

theorem layoutText_screen (sameWidth : area.face.maxWidth = textWidth)
    (top modeFrequenzy : Int) (pos : Nat) :
    layoutText area.face block pos =
      layoutLine (area.screen top modeFrequenzy) block pos :=
  fillText_screen sameWidth top modeFrequenzy _ _ _

theorem drawLine_lines (visible : Prop) [Decidable visible] {line : Line}
    {text plain : Text} (holds : line.Holds text plain) (y : Int) :
    ∃ drawn reads, drawLine visible y line = some (drawn, reads) ∧
      (if visible then [(y, text)] else []) =
        drawn.map fun one => (one.y, one.text) := by
  rw [holds.drawLine_eq]
  split
  · exact ⟨_, _, rfl, rfl⟩
  · exact ⟨[], [], rfl, rfl⟩

theorem Printed.lines_later (later : Option Printed) (drawn : List Drawn)
    (accesses : List Int) :
    (later.bind fun later => some
        { returned := later.returned
          drawn := drawn ++ later.drawn
          accesses := accesses ++ later.accesses }).map Printed.lines =
      (later.map Printed.lines).map fun (returned, lines) =>
        (returned, (drawn.map fun one => (one.y, one.text)) ++ lines) := by
  cases later with
  | none => rfl
  | some later =>
      rw [Option.bind_some, Option.map_some, Option.map_some, Option.map_some,
        Printed.lines, Printed.lines, List.map_append]

theorem cursorChar_screen (area : Area) (block : TextBlock)
    (top modeFrequenzy : Int) :
    cursorChar area block =
      if block.cursor then '_' else (area.screen top modeFrequenzy).emulatedKey :=
  rfl

theorem printLoop_screen (sameWidth : area.face.maxWidth = textWidth)
    (nulFree : '\x00' ∉ block.msg) (top modeFrequenzy : Int)
    (rounds pos lineNo : Nat) (y : Int) (lineBuffer : Cells) :
    (printLoop area block rounds pos lineNo y lineBuffer).map Printed.lines =
      printLines (area.screen top modeFrequenzy) block rounds pos lineNo y := by
  induction rounds generalizing pos lineNo y lineBuffer with
  | zero => rfl
  | succ rounds ih =>
      obtain ⟨next, holds⟩ := nextLine_holds area nulFree pos lineBuffer
      rw [layoutText_screen sameWidth top modeFrequenzy] at next holds
      obtain ⟨drawn, reads, done, lines⟩ :=
        drawLine_lines (block.scrollPos ≤ lineNo) holds y
      rw [cursorChar_screen area block top modeFrequenzy] at lines
      rw [printLoop, printLines]
      dsimp only
      rw [done, Option.bind_eq_bind, Option.bind_some, next, lines]
      by_cases bottom : block.scrollPos ≤ lineNo ∧
          (if block.scrollPos ≤ lineNo then y + area.lineStep else y) >
            area.maxY - area.lineStep
      · rw [if_pos bottom]
        exact (if_pos bottom).symm
      · rw [if_neg bottom]
        refine Eq.trans ?_ (if_neg bottom).symm
        split
        · exact (Printed.lines_later _ drawn _).trans
            (congrArg (Option.map _) (ih _ _ _ _))
        · rfl

/-- The function with the buffer and the one on texts print the same.  What the
buffer holds at the beginning is never seen. -/
theorem printTextBlock_screen (sameWidth : area.face.maxWidth = textWidth)
    (top modeFrequenzy : Int) (rounds : Nat) (y : Int) (lineBuffer : Cells) :
    (printTextBlock area rounds y lineBuffer block).map Printed.lines =
      WaitForUser.printTextBlock (area.screen top modeFrequenzy) rounds y
        { block with msg := cstring block.msg } :=
  printLoop_screen sameWidth (nul_not_mem_cstring block.msg) top modeFrequenzy
    rounds 0 0 y lineBuffer

end

/-- As wide as the areas of the loader. -/
def wideArea : Area :=
  { face :=
      { charWidth := fun _ => 12
        maxWidth := 540
        positive := fun _ => by decide
        fits := fun _ => by decide }
    lineStep := 26
    maxY := 400
    emulatedKey := 0x20
    printable := ⟨by decide, by decide⟩ }

theorem printTextBlock_screen_wide :
    let block : TextBlock :=
      { msg := "console=ttyS0 root=/dev/nfs\nready".toList
        scrollPos := 0
        cursorpos := 3
        cursor := true }
    (printTextBlock wideArea 40 230 (fun _ => '#') block).map Printed.lines =
      WaitForUser.printTextBlock (wideArea.screen 0 60) 40 230
        { block with msg := cstring block.msg } :=
  printTextBlock_screen rfl 0 60 40 230 (fun _ => '#')

/-- Three characters wide. -/
def narrowArea : Area :=
  { face :=
      { charWidth := fun _ => 1
        maxWidth := 3
        positive := fun _ => Nat.le_refl 1
        fits := fun _ => by decide }
    lineStep := 10
    maxY := 100
    emulatedKey := 0x20
    printable := ⟨by decide, by decide⟩ }

example :
    (printTextBlock narrowArea 7 0 (fun _ => 'x')
      { msg := ['a', 'b', ' ', 'c', '\r', 'd', 'e', 'f']
        scrollPos := 0
        cursorpos := 4
        cursor := true }).map Printed.lines =
      some (0, [(0, ['a', 'b']), (10, ['c', '_', 'd', 'e']), (20, ['f'])]) := by
  decide

end KernelReloaded.TextLines

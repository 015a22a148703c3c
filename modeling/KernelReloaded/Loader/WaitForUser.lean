/-
`waitForUser` on a console without a usable pad.

The loop paints, scrolls down after every fiftieth picture and stops when the
scroll position stays the same.  Only one branch of `graphic_paint` holds the
position to the lines of its text.  The fonts and the height of the screen are
parameters.  Loops of unknown length take the number of their rounds; `none` is
a loop that is still running.

What only draws (background, panels, progress bar, boot log, menu, hints) is
left out, except for the lines that `printTextBlock` prints.
-/

import KernelReloaded.Core.CText
import Mathlib.Algebra.Order.Group.Int
import Mathlib.Logic.Function.Basic

namespace KernelReloaded.WaitForUser

open CText

def maxInfoBuffer : Nat := 4096

/-- `sizeof(lineBuffer) - 2`. -/
def lineLimit : Nat := 254

def textWidth : Nat := 540

/-- 32-bit `int`. -/
def wrapInt (value : Int) : Int := value.bmod 4294967296

/-- What the painting reads and the loop does not change. -/
structure Screen where
  charWidth : Char → Nat
  lineStep : Int
  top : Int
  maxY : Int
  modeFrequenzy : Int
  emulatedKey : Char

/-! ### `printTextBlock` -/

structure TextBlock where
  msg : Text
  scrollPos : Int
  cursorpos : Int
  cursor : Bool

/-- The line buffer with its width, the place in the text, the last place to
break with the place behind it, and where the cursor goes. -/
structure LineState where
  text : Text
  w : Nat
  pos : Nat
  lastSpace : Option (Nat × Nat)
  insertCursorPos : Option Nat

def LineState.atBreak (line : LineState) (behind : Nat) : LineState :=
  { line with lastSpace := some (line.text.length, behind) }

def LineState.addChar (line : LineState) (cursorpos : Int) (c : Char)
    (adv : Nat) : LineState :=
  let line := if c = ' ' then line.atBreak (line.pos + 1) else line
  { text := line.text ++ [c]
    w := line.w + adv
    pos := line.pos + 1
    lastSpace := line.lastSpace
    insertCursorPos :=
      if (line.pos : Int) + 1 = cursorpos then some (line.text.length + 1)
      else line.insertCursorPos }

/-- Fills a line from the rest of the text. -/
def fillLine (screen : Screen) (cursorpos : Int) : Text → LineState → LineState
  | [], line =>
      if line.text.length < lineLimit then line.atBreak line.pos else line
  | c :: rest, line =>
      if line.text.length < lineLimit then
        if c = '\r' then
          fillLine screen cursorpos rest { line with pos := line.pos + 1 }
        else if c = '\n' then
          { line.atBreak (line.pos + 1) with pos := line.pos + 1 }
        else if line.w + screen.charWidth c > textWidth then
          line
        else
          fillLine screen cursorpos rest
            (line.addChar cursorpos c (screen.charWidth c))
      else
        line

/-- Where the line is cut, and where the text goes on. -/
def LineState.cut (line : LineState) : Nat × Nat :=
  line.lastSpace.getD (line.text.length, line.pos)

def LineState.shown (line : LineState) (cursorChar : Char) : Text :=
  let text := line.text.take line.cut.1
  match line.insertCursorPos with
  | some index =>
      if index ≤ line.cut.1 then
        text.take index ++ cursorChar :: text.drop index
      else
        text
  | none => text

def layoutLine (screen : Screen) (block : TextBlock) (pos : Nat) : LineState :=
  fillLine screen block.cursorpos (block.msg.drop pos)
    { text := []
      w := 0
      pos := pos
      lastSpace := none
      insertCursorPos := if (pos : Int) = block.cursorpos then some 0 else none }

def TextBlock.returned (block : TextBlock) (lineNo : Nat) : Int :=
  if (lineNo : Int) < block.scrollPos then lineNo else block.scrollPos

/-- The loop over the lines: the value to return, and the lines that are
printed with their heights. -/
def printLines (screen : Screen) (block : TextBlock) :
    (rounds pos lineNo : Nat) → (y : Int) → Option (Int × List (Int × Text))
  | 0, _, _, _ => none
  | rounds + 1, pos, lineNo, y =>
      let line := layoutLine screen block pos
      let next := line.cut.2
      let visible := block.scrollPos ≤ lineNo
      let printed := if visible then
          [(y, line.shown (if block.cursor then '_' else screen.emulatedKey))]
        else []
      let y := if visible then y + screen.lineStep else y
      if visible ∧ y > screen.maxY - screen.lineStep then
        some (block.returned lineNo, printed)
      else if next < block.msg.length then
        (printLines screen block rounds next (lineNo + 1) y).map
          fun (returned, later) => (returned, printed ++ later)
      else
        some (block.returned (lineNo + 1), printed)

def printTextBlock (screen : Screen) (rounds : Nat) (y : Int)
    (block : TextBlock) : Option (Int × List (Int × Text)) :=
  printLines screen block rounds 0 0 y

/-! ### Painting and scrolling -/

/-- The variables that painting and scrolling only read. -/
structure Content where
  graphicInitialized : Bool
  bootlogActive : Bool
  errorMessage : Nat → Option Text
  readMsgPos : Nat
  enableEeDebug : Int
  infoBuffer : Text
  infoBufferFits : infoBuffer.length < maxInfoBuffer
  infoBufferPos : Int
  inputBuffer : Option Text
  writeable : Int
  cursorpos : Int

structure GraphicState where
  content : Content
  scrollPos : Int
  inputScrollPos : Int
  cursorCounter : Int

def Content.getErrorMessage (content : Content) : Option Text :=
  content.errorMessage content.readMsgPos

def Content.isInfoBufferEmpty (content : Content) : Bool :=
  !(decide (content.enableEeDebug ≠ 0) && decide (0 < content.infoBufferPos))

def countCursor (screen : Screen) (state : GraphicState) : GraphicState :=
  let counter := state.cursorCounter + 1
  { state with
    cursorCounter := if counter ≥ screen.modeFrequenzy then 0 else counter }

def paintText (screen : Screen) (rounds : Nat) (state : GraphicState) :
    Option GraphicState :=
  if state.content.bootlogActive then
    some state
  else
    match state.content.getErrorMessage with
    | some msg =>
        (printTextBlock screen rounds 230
          { msg := msg, scrollPos := 0, cursorpos := -1, cursor := false }).map
          fun _ => state
    | none =>
        if !state.content.isInfoBufferEmpty then
          (printTextBlock screen rounds screen.top
            { msg := state.content.infoBuffer
              scrollPos := state.scrollPos
              cursorpos := -1
              cursor := false }).map
            fun (returned, _) => { state with scrollPos := returned }
        else
          match state.content.inputBuffer with
          | some msg =>
              (printTextBlock screen rounds screen.top
                { msg := msg
                  scrollPos := state.inputScrollPos
                  cursorpos :=
                    if state.content.writeable ≠ 0 then state.content.cursorpos
                    else -1
                  cursor := decide (state.content.writeable ≠ 0 ∧
                    state.cursorCounter < screen.modeFrequenzy.tdiv 2) }).map
                fun (returned, _) => { state with inputScrollPos := returned }
          | none => some state

def graphicPaint (screen : Screen) (rounds : Nat) (state : GraphicState) :
    Option GraphicState :=
  if !state.content.graphicInitialized then
    some state
  else
    (paintText screen rounds state).map (countCursor screen)

def scrollDown (state : GraphicState) : GraphicState :=
  if state.content.inputBuffer.isSome then
    { state with inputScrollPos := wrapInt (state.inputScrollPos + 1) }
  else
    { state with scrollPos := wrapInt (state.scrollPos + 1) }

def getScrollPos (state : GraphicState) : Int := state.scrollPos

/-- Without the picture that `clearInfoBuffer` paints at its end. -/
def emptyInfoBuffer (state : GraphicState) : GraphicState :=
  { state with
    content :=
      { state.content with
        infoBuffer := []
        infoBufferFits := by decide
        infoBufferPos := 0 }
    scrollPos := 0 }

def clearInfoBuffer (screen : Screen) (textRounds : Nat)
    (state : GraphicState) : Option GraphicState :=
  graphicPaint screen textRounds (emptyInfoBuffer state)

/-! ### The loop -/

def waitLoop (screen : Screen) (textRounds : Nat) :
    (rounds i : Nat) → (scrollPos lastScrollPos : Int) → GraphicState →
      Option GraphicState
  | 0, _, _, _, _ => none
  | rounds + 1, i, scrollPos, lastScrollPos, state => do
      let state ← graphicPaint screen textRounds state
      let i := i + 1
      if i % 50 = 0 then
        let state := scrollDown state
        let lastScrollPos := scrollPos
        let scrollPos := getScrollPos state
        if scrollPos ≠ lastScrollPos then
          waitLoop screen textRounds rounds i scrollPos lastScrollPos state
        else
          clearInfoBuffer screen textRounds state
      else if scrollPos ≠ lastScrollPos then
        waitLoop screen textRounds rounds i scrollPos lastScrollPos state
      else
        clearInfoBuffer screen textRounds state

/-- `waitForUser` when `usePad` is not set. -/
def waitForUser (screen : Screen) (textRounds rounds : Nat)
    (state : GraphicState) : Option GraphicState :=
  waitLoop screen textRounds rounds 0 0 (-1) state

def Returns (screen : Screen) (state : GraphicState) : Prop :=
  ∃ textRounds rounds, (waitForUser screen textRounds rounds state).isSome

/-! ### A block of text is printed in finitely many lines -/

theorem LineState.cut_after {line : LineState} {start : Nat}
    (breaks : ∀ cut behind, line.lastSpace = some (cut, behind) →
      start < behind) (moved : start < line.pos) : start < line.cut.2 := by
  rw [LineState.cut]
  cases last : line.lastSpace with
  | none =>
      exact moved
  | some place =>
      exact breaks place.1 place.2 last

/-- The text goes on behind the start of the line: a character that fits on an
empty line is taken. -/
theorem fillLine_advances (screen : Screen)
    (narrow : ∀ c, screen.charWidth c < textWidth) (cursorpos : Int)
    (start : Nat) (rest : Text) (line : LineState)
    (breaks : ∀ cut behind, line.lastSpace = some (cut, behind) →
      start < behind)
    (moved : start < line.pos ∨
      (line.pos = start ∧ line.text = [] ∧ line.w = 0 ∧ rest ≠ [])) :
    start < (fillLine screen cursorpos rest line).cut.2 := by
  induction rest generalizing line with
  | nil =>
      have behind : start < line.pos := by
        rcases moved with behind | ⟨-, -, -, nonempty⟩
        · exact behind
        · exact absurd rfl nonempty
      rw [fillLine]
      split
      · exact behind
      · exact LineState.cut_after breaks behind
  | cons c rest ih =>
      have reached : start ≤ line.pos := by
        rcases moved with behind | ⟨atStart, -⟩
        · exact Nat.le_of_lt behind
        · exact Nat.le_of_eq atStart.symm
      rw [fillLine]
      split
      · split
        · exact ih _ breaks (Or.inl (Nat.lt_succ_of_le reached))
        · split
          · exact Nat.lt_succ_of_le reached
          · split
            · rename_i tooWide
              rcases moved with behind | ⟨-, -, empty, -⟩
              · exact LineState.cut_after breaks behind
              · have fits := narrow c
                omega
            · apply ih
              · intro cut behind isBreak
                rw [LineState.addChar] at isBreak
                split at isBreak
                · obtain rfl := (Prod.mk.inj (Option.some.inj isBreak)).2
                  exact Nat.lt_succ_of_le reached
                · exact breaks cut behind isBreak
              · left
                rw [LineState.addChar]
                split
                · exact Nat.lt_succ_of_le reached
                · exact Nat.lt_succ_of_le reached
      · rename_i full
        rcases moved with behind | ⟨-, empty, -⟩
        · exact LineState.cut_after breaks behind
        · rw [empty] at full
          exact absurd (by decide) full

theorem layoutLine_advances (screen : Screen)
    (narrow : ∀ c, screen.charWidth c < textWidth) (block : TextBlock)
    {pos : Nat} (inside : pos < block.msg.length) :
    pos < (layoutLine screen block pos).cut.2 := by
  apply fillLine_advances screen narrow
  · intro cut behind impossible
    cases impossible
  · right
    refine ⟨rfl, rfl, rfl, ?_⟩
    intro empty
    have length := congrArg List.length empty
    rw [List.length_drop, List.length_nil] at length
    omega

theorem layoutLine_atEnd (screen : Screen) (block : TextBlock) {pos : Nat}
    (atEnd : block.msg.length ≤ pos) :
    (layoutLine screen block pos).cut.2 = pos := by
  rw [layoutLine, List.drop_eq_nil_of_le atEnd, fillLine]
  split
  · rfl
  · rfl

theorem TextBlock.returned_eq (block : TextBlock) (lineNo : Nat) :
    block.returned lineNo = min (lineNo : Int) block.scrollPos := by
  rw [TextBlock.returned]
  split <;> omega

theorem printLines_round (screen : Screen) (block : TextBlock)
    (rounds pos lineNo : Nat) (y : Int) :
    ∃ printed below,
      printLines screen block (rounds + 1) pos lineNo y =
        if block.scrollPos ≤ lineNo ∧ below > screen.maxY - screen.lineStep then
          some (block.returned lineNo, printed)
        else if (layoutLine screen block pos).cut.2 < block.msg.length then
          (printLines screen block rounds (layoutLine screen block pos).cut.2
            (lineNo + 1) below).map
            fun (returned, later) => (returned, printed ++ later)
        else
          some (block.returned (lineNo + 1), printed) :=
  ⟨_, _, rfl⟩

/-- The line that reaches the end of the text is the last one. -/
theorem printLines_last (screen : Screen) (block : TextBlock)
    (rounds pos lineNo : Nat) (y : Int)
    (atEnd : block.msg.length ≤ (layoutLine screen block pos).cut.2) :
    ∃ printed, printLines screen block (rounds + 1) pos lineNo y =
      some (min ((lineNo + 1 : Nat) : Int) block.scrollPos, printed) := by
  obtain ⟨printed, below, round⟩ :=
    printLines_round screen block rounds pos lineNo y
  rw [round]
  split
  · rename_i full
    have visible := full.1
    have returned : block.returned lineNo =
        min ((lineNo + 1 : Nat) : Int) block.scrollPos := by
      rw [TextBlock.returned_eq]
      omega
    rw [returned]
    exact ⟨_, rfl⟩
  · rw [if_neg (Nat.not_lt.mpr atEnd), TextBlock.returned_eq]
    exact ⟨_, rfl⟩

/-- A line in the middle of the text is followed by the later ones. -/
theorem printLines_middle (screen : Screen) (block : TextBlock)
    (rounds pos lineNo lines : Nat) (y : Int)
    (inside : (layoutLine screen block pos).cut.2 < block.msg.length)
    (later : ∀ y, ∃ printed, printLines screen block rounds
        (layoutLine screen block pos).cut.2 (lineNo + 1) y =
      some (min ((lineNo + 1 + lines : Nat) : Int) block.scrollPos,
        printed)) :
    ∃ printed, printLines screen block (rounds + 1) pos lineNo y =
      some (min ((lineNo + (lines + 1) : Nat) : Int) block.scrollPos,
        printed) := by
  obtain ⟨printed, below, round⟩ :=
    printLines_round screen block rounds pos lineNo y
  rw [round]
  split
  · rename_i full
    have visible := full.1
    have returned : block.returned lineNo =
        min ((lineNo + (lines + 1) : Nat) : Int) block.scrollPos := by
      rw [TextBlock.returned_eq]
      omega
    rw [returned]
    exact ⟨_, rfl⟩
  · obtain ⟨laterPrinted, isRest⟩ := later below
    rw [isRest]
    have count : lineNo + 1 + lines = lineNo + (lines + 1) := by omega
    rw [count]
    exact ⟨_, rfl⟩

/-- The rest of a text has a number of lines, and the position that is returned
is held to it. -/
theorem printLines_returns (screen : Screen)
    (narrow : ∀ c, screen.charWidth c < textWidth) (msg : Text)
    (cursorpos : Int) (room pos : Nat) (enough : msg.length ≤ pos + room) :
    ∃ lines, lines ≤ room + 1 ∧
      ∀ (scrollPos : Int) (cursor : Bool) (rounds lineNo : Nat) (y : Int),
        room + 1 ≤ rounds → ∃ printed,
          printLines screen
              { msg := msg
                scrollPos := scrollPos
                cursorpos := cursorpos
                cursor := cursor } rounds pos lineNo y =
            some (min ((lineNo + lines : Nat) : Int) scrollPos, printed) := by
  induction room generalizing pos with
  | zero =>
      refine ⟨1, Nat.le_refl 1, ?_⟩
      intro scrollPos cursor rounds lineNo y later
      obtain ⟨rounds, rfl⟩ := Nat.exists_eq_add_of_le' later
      exact printLines_last screen _ rounds pos lineNo y (by
        rw [layoutLine_atEnd screen _ enough]
        exact enough)
  | succ room ih =>
      let block : TextBlock :=
        { msg := msg
          scrollPos := 0
          cursorpos := cursorpos
          cursor := false }
      -- The layout does not depend on the scroll position.
      have layout (scrollPos : Int) (cursor : Bool) :
          layoutLine screen
              { msg := msg
                scrollPos := scrollPos
                cursorpos := cursorpos
                cursor := cursor } pos = layoutLine screen block pos := rfl
      by_cases inside : (layoutLine screen block pos).cut.2 < msg.length
      · have before : pos < msg.length := by
          by_contra atEnd
          rw [layoutLine_atEnd screen block (Nat.not_lt.mp atEnd)] at inside
          exact atEnd inside
        have advances := layoutLine_advances screen narrow block before
        obtain ⟨lines, few, returns⟩ := ih
          (layoutLine screen block pos).cut.2 (by omega)
        refine ⟨lines + 1, by omega, ?_⟩
        intro scrollPos cursor rounds lineNo y later
        obtain ⟨rounds, rfl⟩ := Nat.exists_eq_add_of_le' later
        exact printLines_middle screen
          { block with scrollPos := scrollPos, cursor := cursor }
          (rounds + (room + 1)) pos lineNo lines y inside fun y =>
            returns scrollPos cursor _ (lineNo + 1) y (by omega)
      · refine ⟨1, by omega, ?_⟩
        intro scrollPos cursor rounds lineNo y later
        obtain ⟨rounds, rfl⟩ := Nat.exists_eq_add_of_le' later
        apply printLines_last
        rw [layout]
        exact Nat.not_lt.mp inside

/-! ### What a picture does to the position -/

/-- The picture shows the info buffer. -/
def Content.scrollsText (content : Content) : Bool :=
  content.graphicInitialized && !content.bootlogActive &&
    content.getErrorMessage.isNone && !content.isInfoBufferEmpty

/-- The position after a picture, with the lines of the info buffer. -/
def Content.held (content : Content) (lines : Nat) (scrollPos : Int) : Int :=
  if content.scrollsText then min (lines : Int) scrollPos else scrollPos

def Content.textLength (content : Content) : Nat :=
  (content.getErrorMessage.getD []).length + content.infoBuffer.length +
    (content.inputBuffer.getD []).length

theorem Content.held_held (content : Content) (lines : Nat)
    (scrollPos : Int) :
    content.held lines (content.held lines scrollPos) =
      content.held lines scrollPos := by
  simp only [Content.held]
  split <;> omega

/-- Painting ends, and holds the position as `lines` says. -/
def Paints (screen : Screen) (textRounds : Nat) (content : Content)
    (lines : Nat) : Prop :=
  ∀ state, state.content = content →
    ∃ next, graphicPaint screen textRounds state = some next ∧
      next.content = content ∧
      next.scrollPos = content.held lines state.scrollPos

theorem graphicPaint_of_paintText {screen : Screen} {textRounds : Nat}
    {state next : GraphicState}
    (initialized : state.content.graphicInitialized = true)
    (painted : paintText screen textRounds state = some next) :
    graphicPaint screen textRounds state = some (countCursor screen next) := by
  rw [graphicPaint, initialized, painted]
  rfl

theorem printTextBlock_returns (screen : Screen)
    (narrow : ∀ c, screen.charWidth c < textWidth) (msg : Text)
    (cursorpos : Int) :
    ∃ lines, lines ≤ msg.length + 1 ∧
      ∀ (scrollPos : Int) (cursor : Bool) (rounds : Nat) (y : Int),
        msg.length < rounds → ∃ printed,
          printTextBlock screen rounds y
              { msg := msg
                scrollPos := scrollPos
                cursorpos := cursorpos
                cursor := cursor } =
            some (min (lines : Int) scrollPos, printed) := by
  obtain ⟨lines, few, returns⟩ := printLines_returns screen narrow msg
    cursorpos msg.length 0 (by omega)
  refine ⟨lines, few, ?_⟩
  intro scrollPos cursor rounds y enough
  obtain ⟨printed, isBlock⟩ := returns scrollPos cursor rounds 0 y enough
  rw [Nat.zero_add] at isBlock
  exact ⟨printed, isBlock⟩

/-- The text is painted and the position stays. -/
def KeepsPosition (screen : Screen) (textRounds : Nat) (state : GraphicState) :
    Prop :=
  ∃ next, paintText screen textRounds state = some next ∧
    next.content = state.content ∧ next.scrollPos = state.scrollPos

section Branches

variable {screen : Screen} {textRounds : Nat} {state : GraphicState}

theorem paintText_bootlog (bootlog : state.content.bootlogActive = true) :
    KeepsPosition screen textRounds state := by
  refine ⟨state, ?_, rfl, rfl⟩
  rw [paintText, if_pos bootlog]

theorem paintText_error (narrow : ∀ c, screen.charWidth c < textWidth)
    (bootlog : state.content.bootlogActive = false) {msg : Text}
    (error : state.content.getErrorMessage = some msg)
    (enough : msg.length < textRounds) :
    KeepsPosition screen textRounds state := by
  obtain ⟨_, -, returns⟩ := printTextBlock_returns screen narrow msg (-1)
  obtain ⟨printed, isBlock⟩ := returns 0 false textRounds 230 enough
  refine ⟨state, ?_, rfl, rfl⟩
  simp [paintText, bootlog, error, isBlock]

theorem paintText_info {lines : Nat}
    (bootlog : state.content.bootlogActive = false)
    (noError : state.content.getErrorMessage = none)
    (shown : state.content.isInfoBufferEmpty = false)
    (isBlock : ∃ printed, printTextBlock screen textRounds screen.top
        { msg := state.content.infoBuffer
          scrollPos := state.scrollPos
          cursorpos := -1
          cursor := false } =
      some (min (lines : Int) state.scrollPos, printed)) :
    paintText screen textRounds state =
      some { state with scrollPos := min (lines : Int) state.scrollPos } := by
  obtain ⟨printed, isBlock⟩ := isBlock
  simp [paintText, bootlog, noError, shown, isBlock]

theorem paintText_input (narrow : ∀ c, screen.charWidth c < textWidth)
    (bootlog : state.content.bootlogActive = false)
    (noError : state.content.getErrorMessage = none)
    (noInfo : state.content.isInfoBufferEmpty = true)
    (enough : (state.content.inputBuffer.getD []).length < textRounds) :
    KeepsPosition screen textRounds state := by
  cases input : state.content.inputBuffer with
  | none =>
      refine ⟨state, ?_, rfl, rfl⟩
      simp [paintText, bootlog, noError, noInfo, input]
  | some msg =>
      rw [input, Option.getD_some] at enough
      obtain ⟨lines, -, returns⟩ := printTextBlock_returns screen narrow msg
        (if state.content.writeable ≠ 0 then state.content.cursorpos else -1)
      obtain ⟨printed, isBlock⟩ := returns state.inputScrollPos
        (decide (state.content.writeable ≠ 0 ∧
          state.cursorCounter < screen.modeFrequenzy.tdiv 2))
        textRounds screen.top enough
      refine ⟨{ state with
        inputScrollPos := min (lines : Int) state.inputScrollPos }, ?_,
        rfl, rfl⟩
      rw [paintText]
      simp only [bootlog, noError, noInfo, input, Bool.not_true,
        Bool.false_eq_true, if_false]
      rw [isBlock]
      rfl

end Branches

/-- The position stays in every branch but that of the info buffer. -/
theorem paintText_elsewhere {screen : Screen}
    (narrow : ∀ c, screen.charWidth c < textWidth) {textRounds : Nat}
    {state : GraphicState} (enough : state.content.textLength < textRounds)
    (initialized : state.content.graphicInitialized = true)
    (elsewhere : state.content.scrollsText = false) :
    KeepsPosition screen textRounds state := by
  rw [Content.textLength] at enough
  cases bootlog : state.content.bootlogActive with
  | true =>
      exact paintText_bootlog bootlog
  | false =>
      cases error : state.content.getErrorMessage with
      | some msg =>
          rw [error, Option.getD_some] at enough
          exact paintText_error narrow bootlog error (by omega)
      | none =>
          have noInfo : state.content.isInfoBufferEmpty = true := by
            simpa [Content.scrollsText, initialized, bootlog, error] using
              elsewhere
          exact paintText_input narrow bootlog error noInfo (by omega)

theorem paints_content (screen : Screen)
    (narrow : ∀ c, screen.charWidth c < textWidth) (content : Content) :
    ∃ lines, lines ≤ maxInfoBuffer ∧ ∀ textRounds,
      content.textLength < textRounds →
        Paints screen textRounds content lines := by
  obtain ⟨lines, few, infoReturns⟩ := printTextBlock_returns screen narrow
    content.infoBuffer (-1)
  have fits := content.infoBufferFits
  refine ⟨lines, by omega, ?_⟩
  intro textRounds enough state isContent
  subst isContent
  cases initialized : state.content.graphicInitialized with
  | false =>
      refine ⟨state, ?_, rfl, ?_⟩
      · rw [graphicPaint, initialized]
        rfl
      · simp [Content.held, Content.scrollsText, initialized]
  | true =>
      cases scrolls : state.content.scrollsText with
      | true =>
          have shown := scrolls
          simp only [Content.scrollsText, initialized, Bool.true_and,
            Bool.and_eq_true, Bool.not_eq_true', Option.isNone_iff_eq_none]
            at shown
          obtain ⟨⟨bootlog, noError⟩, info⟩ := shown
          have painted := paintText_info bootlog noError info
            (infoReturns state.scrollPos false textRounds screen.top (by
              rw [Content.textLength] at enough
              omega))
          refine ⟨_, graphicPaint_of_paintText initialized painted, rfl, ?_⟩
          rw [Content.held, if_pos scrolls]
          rfl
      | false =>
          obtain ⟨next, painted, sameContent, samePos⟩ :=
            paintText_elsewhere narrow enough initialized scrolls
          refine ⟨_, graphicPaint_of_paintText initialized painted,
            sameContent, ?_⟩
          rw [Content.held, scrolls]
          exact samePos

/-! ### The loop returns -/

theorem wrapInt_cases (value : Int) :
    ∃ turns : Int, wrapInt value = value - 4294967296 * turns ∧
      -2147483648 ≤ wrapInt value ∧ wrapInt value ≤ 2147483647 := by
  have low := Int.le_bmod (x := value) (m := 4294967296) (by decide)
  have high := Int.bmod_lt (x := value) (m := 4294967296) (by decide)
  refine ⟨value.bdiv 4294967296, Int.bmod_eq_self_sub_mul_bdiv value _, ?_, ?_⟩
  · rw [wrapInt]
    omega
  · rw [wrapInt]
    omega

/-- What the loop does in the fiftieth round. -/
def turn (screen : Screen) (textRounds rounds i : Nat) (scrollPos : Int)
    (state : GraphicState) : Option GraphicState :=
  if getScrollPos (scrollDown state) ≠ scrollPos then
    waitLoop screen textRounds rounds i (getScrollPos (scrollDown state))
      scrollPos (scrollDown state)
  else
    clearInfoBuffer screen textRounds (scrollDown state)

/-- The rounds up to the next turn paint the same text. -/
theorem waitLoop_turn {screen : Screen} {textRounds : Nat} {content : Content}
    {lines : Nat} (paints : Paints screen textRounds content lines)
    (before i : Nat) (place : (i + before + 1) % 50 = 0) (few : before < 50)
    (scrollPos lastScrollPos : Int) (moving : scrollPos ≠ lastScrollPos)
    (state : GraphicState) (isContent : state.content = content) :
    ∃ painted : GraphicState, painted.content = content ∧
      painted.scrollPos = content.held lines state.scrollPos ∧
      ∀ rounds, waitLoop screen textRounds (rounds + (before + 1)) i scrollPos
          lastScrollPos state =
        turn screen textRounds rounds (i + before + 1) scrollPos painted := by
  induction before generalizing i state with
  | zero =>
      obtain ⟨next, isNext, nextContent, nextPos⟩ := paints state isContent
      refine ⟨next, nextContent, nextPos, ?_⟩
      intro rounds
      rw [waitLoop, isNext]
      change (if (i + 1) % 50 = 0 then _ else _) = _
      rw [if_pos place]
      rfl
  | succ before ih =>
      obtain ⟨next, isNext, nextContent, nextPos⟩ := paints state isContent
      have later : (i + 1 + before + 1) % 50 = 0 := by
        rw [← place]
        congr 1
        omega
      obtain ⟨painted, sameContent, heldPos, rest⟩ := ih (i + 1) later
        (Nat.lt_of_succ_lt few) next nextContent
      refine ⟨painted, sameContent, ?_, ?_⟩
      · rw [heldPos, nextPos, Content.held_held]
      · intro rounds
        have notYet : (i + 1) % 50 ≠ 0 := by omega
        rw [← Nat.add_assoc rounds (before + 1) 1, waitLoop, isNext]
        change (if (i + 1) % 50 = 0 then _ else if _ then _ else _) = _
        rw [if_neg notYet, if_pos moving, rest rounds]
        congr 1
        omega

theorem emptyInfoBuffer_textLength (state : GraphicState) :
    (emptyInfoBuffer state).content.textLength ≤ state.content.textLength := by
  simp only [Content.textLength, emptyInfoBuffer, Content.getErrorMessage,
    List.length_nil]
  omega

theorem clearInfoBuffer_returns {screen : Screen}
    (narrow : ∀ c, screen.charWidth c < textWidth) {textRounds : Nat}
    (state : GraphicState) (enough : state.content.textLength < textRounds) :
    (clearInfoBuffer screen textRounds state).isSome := by
  obtain ⟨_, -, paints⟩ := paints_content screen narrow
    (emptyInfoBuffer state).content
  obtain ⟨next, isNext, -⟩ := paints textRounds
    (Nat.lt_of_le_of_lt (emptyInfoBuffer_textLength state) enough)
    (emptyInfoBuffer state) rfl
  rw [clearInfoBuffer, isNext]
  rfl

theorem scrollDown_content (state : GraphicState) :
    (scrollDown state).content = state.content := by
  rw [scrollDown]
  split
  · rfl
  · rfl

/-- The position after a turn. -/
def Content.afterTurn (content : Content) (lines : Nat) (scrollPos : Int) :
    Int :=
  if content.inputBuffer.isSome then content.held lines scrollPos
  else wrapInt (content.held lines scrollPos + 1)

theorem scrollDown_afterTurn {content : Content} {lines : Nat}
    {scrollPos : Int} {painted : GraphicState}
    (isContent : painted.content = content)
    (heldPos : painted.scrollPos = content.held lines scrollPos) :
    getScrollPos (scrollDown painted) = content.afterTurn lines scrollPos := by
  rw [getScrollPos, scrollDown, Content.afterTurn, isContent, ← heldPos]
  split
  · rfl
  · rfl

/-- The loop ends for each state with the content and the position. -/
def Ends (screen : Screen) (textRounds : Nat) (content : Content)
    (scrollPos lastScrollPos position : Int) : Prop :=
  ∀ (i : Nat) (state : GraphicState), i % 50 = 0 → state.content = content →
    state.scrollPos = position →
      ∃ rounds, (waitLoop screen textRounds rounds i scrollPos lastScrollPos
        state).isSome

/-- The loop ends when a turn reads the same position twice, or the loop ends
from the position that it reads. -/
theorem ends_of_turn {screen : Screen}
    (narrow : ∀ c, screen.charWidth c < textWidth) {textRounds : Nat}
    {content : Content} {lines : Nat}
    (enough : content.textLength < textRounds)
    (paints : Paints screen textRounds content lines)
    {scrollPos lastScrollPos position : Int}
    (moving : scrollPos ≠ lastScrollPos)
    (later : content.afterTurn lines position ≠ scrollPos →
      Ends screen textRounds content (content.afterTurn lines position)
        scrollPos (content.afterTurn lines position)) :
    Ends screen textRounds content scrollPos lastScrollPos position := by
  intro i state place isContent isPosition
  obtain ⟨painted, sameContent, heldPos, rounds⟩ := waitLoop_turn paints 49 i
    (by omega) (by decide) scrollPos lastScrollPos moving state isContent
  rw [isPosition] at heldPos
  have reading := scrollDown_afterTurn sameContent heldPos
  have downContent : (scrollDown painted).content = content :=
    (scrollDown_content painted).trans sameContent
  by_cases still : content.afterTurn lines position = scrollPos
  · refine ⟨0 + (49 + 1), ?_⟩
    rw [rounds, turn, reading, if_neg (not_not.mpr still)]
    apply clearInfoBuffer_returns narrow
    rw [downContent]
    exact enough
  · obtain ⟨more, ends⟩ := later still (i + 49 + 1) (scrollDown painted)
      (by omega) downContent reading
    refine ⟨more + (49 + 1), ?_⟩
    rw [rounds, turn, reading, if_pos still]
    exact ends

section Ending

variable {screen : Screen} {textRounds : Nat} {content : Content} {lines : Nat}

/-- With an input buffer the position is the same after each turn. -/
theorem ends_of_input (narrow : ∀ c, screen.charWidth c < textWidth)
    (enough : content.textLength < textRounds)
    (paints : Paints screen textRounds content lines)
    (input : content.inputBuffer.isSome) (position : Int) :
    Ends screen textRounds content 0 (-1) position := by
  have steady : content.afterTurn lines (content.afterTurn lines position) =
      content.afterTurn lines position := by
    simp only [Content.afterTurn, input, if_true, Content.held_held]
  apply ends_of_turn narrow enough paints (by decide)
  intro moved
  apply ends_of_turn narrow enough paints moved
  intro movedAgain
  exact absurd steady movedAgain

theorem afterTurn_scrolls (noInput : content.inputBuffer = none)
    (scrolls : content.scrollsText = true) (few : lines ≤ maxInfoBuffer)
    {position : Int} (low : -2147483648 ≤ position) :
    content.afterTurn lines position = min (lines : Int) position + 1 := by
  obtain ⟨turns, isWrapped, above, below⟩ :=
    wrapInt_cases (content.held lines position + 1)
  rw [Content.afterTurn, noInput, Option.isSome_none,
    if_neg Bool.false_ne_true, isWrapped]
  rw [isWrapped] at above below
  simp only [Content.held, scrolls, if_true] at above below ⊢
  have bounded : maxInfoBuffer = 4096 := rfl
  omega

/-- The position grows up to the line behind the text, where it stops. -/
theorem ends_of_scrolls (narrow : ∀ c, screen.charWidth c < textWidth)
    (enough : content.textLength < textRounds)
    (paints : Paints screen textRounds content lines)
    (noInput : content.inputBuffer = none)
    (scrolls : content.scrollsText = true) (few : lines ≤ maxInfoBuffer)
    (left : Nat) (position last : Int) (moving : position ≠ last)
    (low : -2147483648 ≤ position) (high : position ≤ lines + 1)
    (room : (lines : Int) + 1 - position ≤ left) :
    Ends screen textRounds content position last position := by
  induction left generalizing position last with
  | zero =>
      apply ends_of_turn narrow enough paints moving
      rw [afterTurn_scrolls noInput scrolls few low]
      intro moved
      omega
  | succ left ih =>
      apply ends_of_turn narrow enough paints moving
      rw [afterTurn_scrolls noInput scrolls few low]
      intro moved
      apply ih
      · exact moved
      · omega
      · omega
      · omega

/-- One turn brings any position into the text. -/
theorem ends_from_behind (narrow : ∀ c, screen.charWidth c < textWidth)
    (enough : content.textLength < textRounds)
    (paints : Paints screen textRounds content lines)
    (noInput : content.inputBuffer = none)
    (scrolls : content.scrollsText = true) (few : lines ≤ maxInfoBuffer)
    (position last : Int) (moving : position ≠ last)
    (low : -2147483648 ≤ position) :
    Ends screen textRounds content position last position := by
  apply ends_of_turn narrow enough paints moving
  rw [afterTurn_scrolls noInput scrolls few low]
  intro moved
  apply ends_of_scrolls narrow enough paints noInput scrolls few
    (lines + 1 - (min (lines : Int) position + 1)).toNat
  · exact moved
  · omega
  · omega
  · omega

theorem ends_scrolling (narrow : ∀ c, screen.charWidth c < textWidth)
    (enough : content.textLength < textRounds)
    (paints : Paints screen textRounds content lines)
    (noInput : content.inputBuffer = none)
    (scrolls : content.scrollsText = true) (few : lines ≤ maxInfoBuffer)
    (position : Int) : Ends screen textRounds content 0 (-1) position := by
  apply ends_of_turn narrow enough paints (by decide)
  intro moved
  apply ends_from_behind narrow enough paints noInput scrolls few _ _ moved
  rw [Content.afterTurn, noInput, Option.isSome_none,
    if_neg Bool.false_ne_true]
  obtain ⟨_, -, above, -⟩ := wrapInt_cases (content.held lines position + 1)
  exact above

end Ending

/-! ### The loop does not return -/

theorem paintText_keeps {screen : Screen} {textRounds : Nat}
    {state next : GraphicState}
    (painted : paintText screen textRounds state = some next) :
    next.content = state.content ∧
      (state.content.graphicInitialized = true →
        state.content.scrollsText = false →
          next.scrollPos = state.scrollPos) := by
  rw [paintText] at painted
  split at painted
  · obtain rfl := Option.some.inj painted
    exact ⟨rfl, fun _ _ => rfl⟩
  · rename_i bootlog
    split at painted
    · obtain ⟨_, -, rfl⟩ := Option.map_eq_some_iff.mp painted
      exact ⟨rfl, fun _ _ => rfl⟩
    · rename_i noError
      split at painted
      · rename_i shown
        obtain ⟨_, -, rfl⟩ := Option.map_eq_some_iff.mp painted
        refine ⟨rfl, ?_⟩
        intro initialized elsewhere
        have scrolls : state.content.scrollsText = true := by
          simp [Content.scrollsText, initialized, bootlog, noError,
            (Bool.not_eq_true' _).mp shown]
        rw [scrolls] at elsewhere
        cases elsewhere
      · split at painted
        · obtain ⟨_, -, rfl⟩ := Option.map_eq_some_iff.mp painted
          exact ⟨rfl, fun _ _ => rfl⟩
        · obtain rfl := Option.some.inj painted
          exact ⟨rfl, fun _ _ => rfl⟩

theorem graphicPaint_keeps {screen : Screen} {textRounds : Nat}
    {state next : GraphicState}
    (painted : graphicPaint screen textRounds state = some next) :
    next.content = state.content ∧ (state.content.scrollsText = false →
      next.scrollPos = state.scrollPos) := by
  rw [graphicPaint] at painted
  split at painted
  · obtain rfl := Option.some.inj painted
    exact ⟨rfl, fun _ => rfl⟩
  · rename_i initialized
    obtain ⟨shown, isText, rfl⟩ := Option.map_eq_some_iff.mp painted
    obtain ⟨content, position⟩ := paintText_keeps isText
    exact ⟨content, position (by simpa using initialized)⟩

theorem wrapInt_succ_ne (value : Int) : wrapInt (value + 1) ≠ value := by
  obtain ⟨turns, isWrapped, -⟩ := wrapInt_cases (value + 1)
  rw [isWrapped]
  omega

/-- Where nothing holds the position, each turn reads another one than the turn
before. -/
theorem waitLoop_stuck (screen : Screen) (textRounds rounds i : Nat)
    (scrollPos lastScrollPos : Int) (state : GraphicState)
    (noInput : state.content.inputBuffer = none)
    (elsewhere : state.content.scrollsText = false)
    (moving : scrollPos ≠ lastScrollPos)
    (ahead : wrapInt (state.scrollPos + 1) ≠ scrollPos) :
    waitLoop screen textRounds rounds i scrollPos lastScrollPos state =
      none := by
  induction rounds generalizing i scrollPos lastScrollPos state with
  | zero =>
      rfl
  | succ rounds ih =>
      rw [waitLoop]
      cases painted : graphicPaint screen textRounds state with
      | none =>
          rfl
      | some next =>
          obtain ⟨sameContent, samePos⟩ := graphicPaint_keeps painted
          have nextPos := samePos elsewhere
          have nextInput : next.content.inputBuffer = none :=
            sameContent ▸ noInput
          have nextElsewhere : next.content.scrollsText = false :=
            sameContent ▸ elsewhere
          change (if (i + 1) % 50 = 0 then if _ then _ else _
            else if _ then _ else _) = none
          by_cases place : (i + 1) % 50 = 0
          · have down : scrollDown next =
                { next with scrollPos := wrapInt (next.scrollPos + 1) } := by
              rw [scrollDown, nextInput]
              rfl
            rw [if_pos place, down, nextPos, getScrollPos, if_pos ahead]
            exact ih _ _ _ _ nextInput nextElsewhere ahead
              (wrapInt_succ_ne _)
          · rw [if_neg place, if_pos moving]
            exact ih _ _ _ next nextInput nextElsewhere moving
              (nextPos ▸ ahead)

/-! ### When `waitForUser` returns -/

theorem returns_of_ends {screen : Screen} {textRounds : Nat}
    {state : GraphicState}
    (ends : Ends screen textRounds state.content 0 (-1) state.scrollPos) :
    Returns screen state := by
  obtain ⟨rounds, returned⟩ := ends 0 state rfl rfl rfl
  exact ⟨textRounds, rounds, returned⟩

/-- The loop returns when an input buffer takes the scrolling, when the picture
shows the info buffer, or when the first step of the position ends at zero. -/
theorem waitForUser_returns_iff (screen : Screen)
    (widths : ∀ c, 0 < screen.charWidth c ∧ screen.charWidth c < textWidth)
    (state : GraphicState) :
    Returns screen state ↔
      state.content.inputBuffer ≠ none ∨
        (state.content.graphicInitialized = true ∧
          state.content.bootlogActive = false ∧
          state.content.getErrorMessage = none ∧
          state.content.isInfoBufferEmpty = false) ∨
        wrapInt (state.scrollPos + 1) = 0 := by
  have narrow : ∀ c, screen.charWidth c < textWidth := fun c => (widths c).2
  have scrolls_iff : state.content.scrollsText = true ↔
      state.content.graphicInitialized = true ∧
        state.content.bootlogActive = false ∧
        state.content.getErrorMessage = none ∧
        state.content.isInfoBufferEmpty = false := by
    simp [Content.scrollsText, and_assoc]
  rw [← scrolls_iff]
  constructor
  · rintro ⟨textRounds, rounds, returned⟩
    by_contra stuck
    rw [not_or, not_or, not_not, Bool.not_eq_true] at stuck
    obtain ⟨noInput, elsewhere, ahead⟩ := stuck
    have running := waitLoop_stuck screen textRounds rounds 0 0 (-1) state
      noInput elsewhere (by decide) ahead
    rw [waitForUser, running] at returned
    cases returned
  · intro condition
    obtain ⟨lines, few, painted⟩ := paints_content screen narrow state.content
    have enough := Nat.lt_succ_self state.content.textLength
    have paints := painted _ enough
    cases input : state.content.inputBuffer with
    | some msg =>
        apply returns_of_ends
        exact ends_of_input narrow enough paints (by rw [input]; rfl) _
    | none =>
        cases scrolls : state.content.scrollsText with
        | true =>
            apply returns_of_ends
            exact ends_scrolling narrow enough paints input scrolls few _
        | false =>
            have first : wrapInt (state.scrollPos + 1) = 0 := by
              simpa [input, scrolls] using condition
            apply returns_of_ends
            apply ends_of_turn narrow enough paints (by decide)
            intro moved
            refine absurd ?_ moved
            simp [Content.afterTurn, Content.held, input, scrolls, first]

def fixedPitch : Screen :=
  { charWidth := fun _ => 16
    lineStep := 22
    top := 170
    maxY := 376
    modeFrequenzy := 60
    emulatedKey := ' ' }

theorem fixedPitch_widths (c : Char) :
    0 < fixedPitch.charWidth c ∧ fixedPitch.charWidth c < textWidth :=
  (by decide : 0 < 16 ∧ 16 < textWidth)

/-- The state with some messages, and nothing else on the screen. -/
def messages (error : Option Text) (enableEeDebug : Int) : GraphicState :=
  { content :=
      { graphicInitialized := true
        bootlogActive := false
        errorMessage := fun index => if index = 0 then error else none
        readMsgPos := 0
        enableEeDebug := enableEeDebug
        infoBuffer := "loading module\nready\n".toList
        infoBufferFits := by decide
        infoBufferPos := 21
        inputBuffer := none
        writeable := 0
        cursorpos := 0 }
    scrollPos := 0
    inputScrollPos := 0
    cursorCounter := 0 }

theorem debugOutput_returns : Returns fixedPitch (messages none 1) :=
  (waitForUser_returns_iff fixedPitch fixedPitch_widths
    (messages none 1)).mpr (Or.inr (Or.inl ⟨rfl, rfl, rfl, rfl⟩))

/-- One error in the queue keeps the loop running, with or without an info
buffer to show. -/
theorem queuedError_hangs :
    ¬ ∀ (screen : Screen) (state : GraphicState),
        (∀ c, 0 < screen.charWidth c ∧ screen.charWidth c < textWidth) →
        state.content.isInfoBufferEmpty = false ∨
          state.content.getErrorMessage ≠ none →
        Returns screen state := by
  intro always
  obtain ⟨textRounds, rounds, returned⟩ := always fixedPitch
    (messages (some "module is missing".toList) 1)
    fixedPitch_widths (Or.inl rfl)
  have running := waitLoop_stuck fixedPitch textRounds rounds 0 0 (-1)
    (messages (some "module is missing".toList) 1) rfl rfl (by decide)
    (by decide)
  rw [waitForUser, running] at returned
  cases returned

end KernelReloaded.WaitForUser

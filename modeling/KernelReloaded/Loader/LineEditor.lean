/-
The line editor: what the main loop does to the input buffer while it is
writeable.

One pass of the loop moves the cursor and then does one edit.  A pass with the
cross button closes the input and is not among the passes here.  The buttons
that only scroll or change the video mode, and painting, are left out.
-/

import KernelReloaded.Core.CharCells
import KernelReloaded.Core.Transition
import KernelReloaded.Loader.Configuration

namespace KernelReloaded.LineEditor

open CText CharCells

inductive FunctionKey where
  | delete
  | home
  | toEnd
  | other
deriving DecidableEq

/-- The buttons that are newly pressed, and what came from the keyboard. -/
structure Input where
  down : Bool := false
  up : Bool := false
  left : Bool := false
  right : Bool := false
  triangle : Bool := false
  r1 : Bool := false
  l1 : Bool := false
  circle : Bool := false
  square : Bool := false
  start : Bool := false
  select : Bool := false
  /-- NUL is no key. -/
  key : Char := '\x00'
  functionKey : Option FunctionKey := none

inductive Move where
  | cursorLeft
  | cursorRight

inductive Edit where
  | deleteLeft
  | deleteRight
  | home
  | toEnd
  | insert (key : Char)

/-- The buttons for scrolling come first. -/
def Input.move (input : Input) : Option Move :=
  if input.down || input.up then none
  else if input.left then some .cursorLeft
  else if input.right then some .cursorRight
  else none

/-- The buttons that choose a key without a keyboard. -/
def nextEmulatedKey (emulatedKey : Int) (input : Input) : Int :=
  if input.triangle then emulatedKey
  else if input.r1 then
    if emulatedKey + 1 > 0x7E then 0x20 else emulatedKey + 1
  else if input.l1 then
    if emulatedKey - 1 < 0x20 then 0x7E else emulatedKey - 1
  else if input.circle then
    if emulatedKey + 0x10 > 0x7E then emulatedKey + 0x10 - (0x7E - 0x20)
    else emulatedKey + 0x10
  else emulatedKey

def selectedKey (emulatedKey : Int) (input : Input) : Char :=
  if input.triangle then Char.ofNat emulatedKey.toNat else input.key

def Input.edit (input : Input) (key : Char) : Option Edit :=
  if input.square ∨ key = '\x07' then some .deleteLeft
  else if input.functionKey = some .delete then some .deleteRight
  else if input.functionKey = some .home ∨ input.start then some .home
  else if input.functionKey = some .toEnd ∨ input.select then some .toEnd
  else if key ≠ '\x00' then some (.insert key)
  else none

/-! ### The code -/

structure Editor where
  buffer : Cells
  cursorpos : Int
  emulatedKey : Int
  /-- The offsets of all bytes that were read or written. -/
  accesses : List Int

namespace Editor

variable (editor : Editor)

/-- Here and below: `none` is a loop that goes on behind as many characters as
the buffer holds. -/
def strlen : Option (Int × Editor) :=
  (findNul editor.buffer maxInputLen 0).map fun len =>
    (len, { editor with
      accesses := editor.accesses ++ offsets 0 (len + 1).toNat })

def incCursorPos : Option Editor :=
  editor.strlen.map fun (len, editor) =>
    if editor.cursorpos < len then
      { editor with cursorpos := editor.cursorpos + 1 }
    else editor

def decCursorPos : Editor :=
  if editor.cursorpos > 0 then
    { editor with cursorpos := editor.cursorpos - 1 }
  else editor

def homeCursorPos : Editor := { editor with cursorpos := 0 }

def endCursorPos : Option Editor :=
  editor.strlen.map fun (len, editor) => { editor with cursorpos := len }

/-- `for (c = &buffer[first]; c[0] != 0; c++) c[0] = c[1];` -/
def deleteAt (first : Int) : Option Editor :=
  (closeGap maxInputLen first editor.buffer).map fun (closed, last) =>
    { editor with
      buffer := closed
      accesses := editor.accesses ++ offsets first (last - first + 1).toNat }

/-- `for (c = &buffer[len + 1]; c >= &buffer[pos]; c--) c[1] = c[0];` and the
key at `pos`. -/
def insertAt (pos len : Int) (key : Char) : Editor :=
  let count := (len + 1 - pos + 1).toNat
  { editor with
    buffer := Function.update (moveUp editor.buffer pos count) pos key
    accesses := editor.accesses ++ offsets pos (count + 1) }

def move : Option Move → Option Editor
  | some .cursorLeft => some editor.decCursorPos
  | some .cursorRight => editor.incCursorPos
  | none => some editor

def edit (pos len : Int) : Option Edit → Option Editor
  | some .deleteLeft =>
      if pos > 0 then (editor.deleteAt (pos - 1)).map decCursorPos
      else some editor
  | some .deleteRight =>
      if pos ≥ 0 then editor.deleteAt pos else some editor
  | some .home => some editor.homeCursorPos
  | some .toEnd => editor.endCursorPos
  | some (.insert key) =>
      if len < maxInputLen - 1 then (editor.insertAt pos len key).incCursorPos
      else some editor
  | none => some editor

/-- One pass of the main loop. -/
def pass (input : Input) : Option Editor := do
  let moved ← editor.move input.move
  let (len, moved) ← moved.strlen
  let key := selectedKey moved.emulatedKey input
  let chosen : Editor :=
    { moved with emulatedKey := nextEmulatedKey moved.emulatedKey input }
  chosen.edit chosen.cursorpos len (input.edit key)

end Editor

/-- `setInputBuffer(buffer, -1)`. -/
def setInputBuffer (buffer : Cells) (emulatedKey : Int) : Option Editor :=
  let editor : Editor :=
    { buffer := buffer
      cursorpos := 0
      emulatedKey := emulatedKey
      accesses := [] }
  editor.endCursorPos

def runPass (editor : Option Editor) (input : Input) : Option Editor :=
  editor.bind fun editor => editor.pass input

def afterPasses (buffer : Cells) (emulatedKey : Int) (inputs : List Input) :
    Option Editor :=
  inputs.foldl runPass (setInputBuffer buffer emulatedKey)

/-! ### What is wanted -/

/-- A text with a cursor, and the key that the buttons have chosen. -/
structure Line where
  left : Text
  right : Text
  emulatedKey : Int

namespace Line

variable (line : Line)

def text : Text := line.left ++ line.right

def move : Option Move → Line
  | some .cursorLeft =>
      { line with
        left := line.left.dropLast
        right := line.left.getLast?.toList ++ line.right }
  | some .cursorRight =>
      { line with
        left := line.left ++ line.right.head?.toList
        right := line.right.tail }
  | none => line

def edit : Option Edit → Line
  | some .deleteLeft => { line with left := line.left.dropLast }
  | some .deleteRight => { line with right := line.right.tail }
  | some .home => { line with left := [], right := line.text }
  | some .toEnd => { line with left := line.text, right := [] }
  | some (.insert key) =>
      if line.text.length < maxInputLen - 1 then
        { line with left := line.left ++ [key] }
      else line
  | none => line

def pass (input : Input) : Line :=
  let moved := line.move input.move
  let key := selectedKey moved.emulatedKey input
  { moved with
    emulatedKey := nextEmulatedKey moved.emulatedKey input }.edit
      (input.edit key)

end Line

def linePasses (text : Text) (emulatedKey : Int) (inputs : List Input) : Line :=
  inputs.foldl Line.pass
    { left := text, right := [], emulatedKey := emulatedKey }

/-- The editor shows the line and has stayed in its buffer. -/
structure Shows (line : Line) (editor : Editor) : Prop where
  holds : HoldsText editor.buffer 0 line.text
  short : line.text.length < maxInputLen
  cursor : editor.cursorpos = line.left.length
  emulatedKey : editor.emulatedKey = line.emulatedKey
  inside : ∀ offset ∈ editor.accesses, 0 ≤ offset ∧ offset < maxInputLen

def ShowsLine (line : Line) (editor : Option Editor) : Prop :=
  ∃ shown, editor = some shown ∧ Shows line shown

/-- A buffer with a text that it has room for. -/
structure InputText where
  buffer : Cells
  text : Text
  holds : HoldsText buffer 0 text
  short : text.length < maxInputLen

/-! ### The cursor -/

namespace Shows

variable {line : Line} {editor : Editor}

theorem strlen (shown : Shows line editor) :
    ∃ read, editor.strlen = some ((line.text.length : Int), read) ∧
      Shows line read := by
  have found := findNul_of_holds shown.holds shown.short
  rw [Int.zero_add] at found
  refine ⟨{ editor with
      accesses := editor.accesses ++ offsets 0 (line.text.length + 1 : Int).toNat },
    by rw [Editor.strlen, found, Option.map_some], shown.holds, shown.short,
    shown.cursor, shown.emulatedKey, ?_⟩
  intro offset member
  rcases List.mem_append.mp member with earlier | now
  · exact shown.inside offset earlier
  · have between := mem_offsets.mp now
    have short := shown.short
    omega

/-- The same text with the cursor elsewhere. -/
theorem setCursor (shown : Shows line editor) (other : Line)
    (sameText : other.text = line.text)
    (sameKey : other.emulatedKey = line.emulatedKey) :
    Shows other { editor with cursorpos := other.left.length } := by
  refine ⟨?_, ?_, rfl, ?_, shown.inside⟩
  · rw [sameText]
    exact shown.holds
  · rw [sameText]
    exact shown.short
  · rw [sameKey]
    exact shown.emulatedKey

theorem decCursorPos (shown : Shows line editor) :
    Shows (line.move (some .cursorLeft)) editor.decCursorPos := by
  obtain ⟨left, right, key⟩ := line
  have cursor : editor.cursorpos = (left.length : Int) := shown.cursor
  rw [Editor.decCursorPos]
  rcases List.eq_nil_or_concat' left with rfl | ⟨front, last, rfl⟩
  · rw [List.length_nil, Int.natCast_zero] at cursor
    rw [if_neg (by omega)]
    exact shown
  · have place : editor.cursorpos - 1 = (front.length : Int) := by
      rw [cursor, List.length_append, List.length_singleton]
      omega
    have before : editor.cursorpos > 0 := by omega
    have moved : Line.move ⟨front ++ [last], right, key⟩ (some .cursorLeft) =
        ⟨front, last :: right, key⟩ := by
      rw [Line.move, List.dropLast_concat, List.getLast?_concat]
      rfl
    rw [if_pos before, place, moved]
    refine shown.setCursor ⟨front, last :: right, key⟩ ?_ rfl
    rw [Line.text, Line.text, List.append_assoc, List.singleton_append]

theorem incCursorPos (shown : Shows line editor) :
    ShowsLine (line.move (some .cursorRight)) editor.incCursorPos := by
  obtain ⟨read, done, showsRead⟩ := shown.strlen
  obtain ⟨left, right, key⟩ := line
  have cursor : read.cursorpos = (left.length : Int) := showsRead.cursor
  have length : (Line.text ⟨left, right, key⟩).length =
      left.length + right.length := List.length_append
  refine ⟨_, by rw [Editor.incCursorPos, done, Option.map_some], ?_⟩
  dsimp only
  rw [length, cursor]
  cases right with
  | nil =>
      rw [List.length_nil, if_neg (by omega)]
      have moved : Line.move ⟨left, [], key⟩ (some .cursorRight) =
          ⟨left, [], key⟩ := by
        rw [Line.move]
        simp
      rw [moved]
      exact showsRead
  | cons next rest =>
      rw [List.length_cons, if_pos (by omega)]
      have moved : Line.move ⟨left, next :: rest, key⟩ (some .cursorRight) =
          ⟨left ++ [next], rest, key⟩ := rfl
      have place : (left.length : Int) + 1 = ((left ++ [next]).length : Int) := by
        rw [List.length_append, List.length_singleton]
        omega
      rw [moved, place]
      refine showsRead.setCursor ⟨left ++ [next], rest, key⟩ ?_ rfl
      rw [Line.text, Line.text, List.append_assoc, List.singleton_append]

theorem homeCursorPos (shown : Shows line editor) :
    Shows (line.edit (some .home)) editor.homeCursorPos :=
  shown.setCursor _ (List.nil_append _) rfl

theorem endCursorPos (shown : Shows line editor) :
    ShowsLine (line.edit (some .toEnd)) editor.endCursorPos := by
  obtain ⟨read, done, showsRead⟩ := shown.strlen
  refine ⟨_, by rw [Editor.endCursorPos, done, Option.map_some], ?_⟩
  exact showsRead.setCursor _ (List.append_nil _) rfl

theorem move (shown : Shows line editor) (move : Option Move) :
    ShowsLine (line.move move) (editor.move move) := by
  match move with
  | some .cursorLeft => exact ⟨_, rfl, shown.decCursorPos⟩
  | some .cursorRight => exact shown.incCursorPos
  | none => exact ⟨_, rfl, shown⟩

end Shows

/-! ### Edits -/

theorem deleteAt_spec {editor : Editor} {front behind : Text}
    (holds : HoldsText editor.buffer 0 (front ++ behind))
    (short : (front ++ behind).length < maxInputLen)
    (inside : ∀ offset ∈ editor.accesses, 0 ≤ offset ∧ offset < maxInputLen) :
    ∃ deleted, editor.deleteAt front.length = some deleted ∧
      HoldsText deleted.buffer 0 (front ++ behind.tail) ∧
      deleted.cursorpos = editor.cursorpos ∧
      deleted.emulatedKey = editor.emulatedKey ∧
      ∀ offset ∈ deleted.accesses, 0 ≤ offset ∧ offset < maxInputLen := by
  have place : (0 : Int) + front.length = front.length := Int.zero_add _
  have here := holds.drop
  rw [place] at here
  rw [List.length_append] at short
  obtain ⟨closed, done, holdsRest, same⟩ :=
    closeGap_of_holds here (Nat.lt_of_le_of_lt (Nat.le_add_left _ _) short)
  rw [Editor.deleteAt, done, Option.map_some]
  refine ⟨_, rfl, ?_, rfl, rfl, ?_⟩
  · apply holds.replace
    · intro offset _low high
      exact same offset (by omega)
    · rw [place]
      exact holdsRest
  · intro offset member
    rcases List.mem_append.mp member with earlier | now
    · exact inside offset earlier
    · have between := mem_offsets.mp now
      omega

theorem insertAt_holds {editor : Editor} {left right : Text} {key : Char}
    (holds : HoldsText editor.buffer 0 (left ++ right)) (notNul : key ≠ '\x00') :
    HoldsText
      (editor.insertAt left.length (left ++ right).length key).buffer 0
      (left ++ key :: right) := by
  have moves : right.length <
      (((left ++ right).length : Int) + 1 - left.length + 1).toNat := by
    rw [List.length_append]
    omega
  have inserted := holds.insert notNul _ moves
  rw [Int.zero_add] at inserted
  exact inserted

theorem mem_insertAt_accesses {editor : Editor} {pos len offset : Int}
    {key : Char} (ordered : pos ≤ len) :
    offset ∈ (editor.insertAt pos len key).accesses ↔
      offset ∈ editor.accesses ∨ pos ≤ offset ∧ offset ≤ len + 2 := by
  rw [Editor.insertAt, List.mem_append, mem_offsets]
  constructor
  · intro member
    refine member.imp_right ?_
    rintro ⟨low, high⟩
    omega
  · intro member
    refine member.imp_right ?_
    rintro ⟨low, high⟩
    omega

namespace Shows

variable {line : Line} {editor : Editor}

theorem deleteLeft (shown : Shows line editor) :
    ShowsLine (line.edit (some .deleteLeft))
      (editor.edit editor.cursorpos line.text.length (some .deleteLeft)) := by
  obtain ⟨left, right, key⟩ := line
  have cursor : editor.cursorpos = (left.length : Int) := shown.cursor
  rw [Editor.edit]
  rcases List.eq_nil_or_concat' left with rfl | ⟨front, last, rfl⟩
  · rw [List.length_nil, Int.natCast_zero] at cursor
    rw [if_neg (by omega)]
    exact ⟨_, rfl, shown⟩
  · have place : editor.cursorpos - 1 = (front.length : Int) := by
      rw [cursor, List.length_append, List.length_singleton]
      omega
    have before : editor.cursorpos > 0 := by omega
    have split : Line.text ⟨front ++ [last], right, key⟩ =
        front ++ last :: right := by
      rw [Line.text, List.append_assoc, List.singleton_append]
    have holds := shown.holds
    have short := shown.short
    rw [split] at holds short
    obtain ⟨deleted, done, holdsRest, sameCursor, sameKey, inside⟩ :=
      deleteAt_spec holds short shown.inside
    have edited : Line.edit ⟨front ++ [last], right, key⟩ (some .deleteLeft) =
        ⟨front, right, key⟩ := by
      rw [Line.edit, List.dropLast_concat]
    rw [if_pos before, place, done, Option.map_some, edited]
    refine ⟨_, rfl, ?_⟩
    rw [Editor.decCursorPos, sameCursor, if_pos before, place]
    refine ⟨holdsRest, ?_, rfl, sameKey.trans shown.emulatedKey, inside⟩
    rw [Line.text, List.length_append]
    rw [List.length_append, List.length_cons] at short
    dsimp only
    omega

theorem deleteRight (shown : Shows line editor) :
    ShowsLine (line.edit (some .deleteRight))
      (editor.edit editor.cursorpos line.text.length (some .deleteRight)) := by
  have cursor := shown.cursor
  obtain ⟨deleted, done, holdsRest, sameCursor, sameKey, inside⟩ :=
    deleteAt_spec shown.holds shown.short shown.inside
  rw [Editor.edit, if_pos (by omega), cursor]
  refine ⟨deleted, done, holdsRest, ?_, sameCursor.trans cursor,
    sameKey.trans shown.emulatedKey, inside⟩
  have short := shown.short
  rw [Line.text, List.length_append] at short
  rw [Line.edit, Line.text, List.length_append, List.length_tail]
  dsimp only
  omega

/-- The key behind the cursor; the loop touches two bytes behind the NUL. -/
theorem insertAt (shown : Shows line editor) {key : Char}
    (notNul : key ≠ '\x00') (room : line.text.length + 2 < maxInputLen) :
    Shows { line with right := key :: line.right }
      (editor.insertAt editor.cursorpos line.text.length key) := by
  have cursor := shown.cursor
  have length : line.text.length = line.left.length + line.right.length :=
    List.length_append
  refine ⟨?_, ?_, cursor, shown.emulatedKey, ?_⟩
  · rw [cursor]
    exact insertAt_holds shown.holds notNul
  · rw [Line.text, List.length_append, List.length_cons]
    dsimp only
    omega
  · intro offset member
    rw [mem_insertAt_accesses (by omega)] at member
    rcases member with earlier | ⟨low, high⟩
    · exact shown.inside offset earlier
    · omega

theorem insert_iff (shown : Shows line editor) {key : Char}
    (notNul : key ≠ '\x00') :
    ShowsLine (line.edit (some (.insert key)))
        (editor.edit editor.cursorpos line.text.length (some (.insert key))) ↔
      line.text.length ≠ maxInputLen - 2 := by
  have short := shown.short
  rw [Editor.edit, Line.edit]
  by_cases room : line.text.length < maxInputLen - 1
  · have roomInt : (line.text.length : Int) < (maxInputLen : Int) - 1 := by
      omega
    rw [if_pos room, if_pos roomInt]
    constructor
    · intro after last
      -- The loop starts at the byte behind the NUL and stores one further.
      obtain ⟨wrong, done, showsWrong⟩ := after
      have kept : 1024 ∈ wrong.accesses := by
        rw [Editor.incCursorPos, Editor.strlen] at done
        obtain ⟨⟨len, read⟩, isRead, isWrong⟩ := Option.map_eq_some_iff.mp done
        obtain ⟨found, -, pair⟩ := Option.map_eq_some_iff.mp isRead
        obtain ⟨-, rfl⟩ := Prod.mk.inj pair
        have cursor := shown.cursor
        have length : line.text.length =
            line.left.length + line.right.length := List.length_append
        rw [maxInputLen] at last
        have touched : (1024 : Int) ∈ (editor.insertAt editor.cursorpos
            line.text.length key).accesses :=
          (mem_insertAt_accesses (by omega)).mpr (Or.inr (by omega))
        rw [← isWrong]
        dsimp only
        split
        · exact List.mem_append_left _ touched
        · exact List.mem_append_left _ touched
      have outside := (showsWrong.inside 1024 kept).2
      rw [maxInputLen] at outside
      omega
    · intro notLast
      have inserted := (shown.insertAt notNul (by omega)).incCursorPos
      rw [Line.move] at inserted
      exact inserted
  · rw [if_neg room, if_neg (by omega)]
    rw [maxInputLen] at room
    constructor
    · intro _shown last
      rw [maxInputLen] at last
      omega
    · intro _notLast
      exact ⟨_, rfl, shown⟩

/-- An edit goes wrong only where a key takes the last but one free byte. -/
theorem edit_iff (shown : Shows line editor) (edit : Option Edit)
    (isKey : ∀ key, edit = some (.insert key) → key ≠ '\x00') :
    ShowsLine (line.edit edit)
        (editor.edit editor.cursorpos line.text.length edit) ↔
      ∀ key, edit = some (.insert key) →
        line.text.length ≠ maxInputLen - 2 := by
  match edit with
  | some .deleteLeft => exact ⟨fun _shown => nofun, fun _ => shown.deleteLeft⟩
  | some .deleteRight => exact ⟨fun _shown => nofun, fun _ => shown.deleteRight⟩
  | some .home =>
      exact ⟨fun _shown => nofun, fun _ => ⟨_, rfl, shown.homeCursorPos⟩⟩
  | some .toEnd => exact ⟨fun _shown => nofun, fun _ => shown.endCursorPos⟩
  | none => exact ⟨fun _shown => nofun, fun _ => ⟨_, rfl, shown⟩⟩
  | some (.insert key) =>
      rw [shown.insert_iff (isKey key rfl)]
      constructor
      · intro notLast other same
        exact notLast
      · intro notLast
        exact notLast key rfl

end Shows

/-! ### Passes -/

theorem Input.edit_insert {input : Input} {key inserted : Char}
    (isInsert : input.edit key = some (.insert inserted)) :
    inserted ≠ '\x00' := by
  rw [Input.edit] at isInsert
  split at isInsert
  · cases isInsert
  · split at isInsert
    · cases isInsert
    · split at isInsert
      · cases isInsert
      · split at isInsert
        · cases isInsert
        · split at isInsert
          next isKey =>
            cases isInsert
            exact isKey
          · cases isInsert

theorem Line.text_move (line : Line) (move : Option Move) :
    (line.move move).text = line.text := by
  obtain ⟨left, right, key⟩ := line
  match move with
  | some .cursorLeft =>
      rcases List.eq_nil_or_concat' left with rfl | ⟨front, last, rfl⟩
      · rfl
      · rw [Line.move, Line.text, List.dropLast_concat, List.getLast?_concat,
          Line.text, List.append_assoc]
        rfl
  | some .cursorRight =>
      cases right with
      | nil =>
          rw [Line.move, Line.text, Line.text]
          simp
      | cons next rest =>
          rw [Line.move, Line.text, Line.text, List.append_assoc]
          rfl
  | none => rfl

theorem Line.emulatedKey_move (line : Line) (move : Option Move) :
    (line.move move).emulatedKey = line.emulatedKey := by
  match move with
  | some .cursorLeft => rfl
  | some .cursorRight => rfl
  | none => rfl

theorem Line.emulatedKey_edit (line : Line) (edit : Option Edit) :
    (line.edit edit).emulatedKey = line.emulatedKey := by
  match edit with
  | some .deleteLeft => rfl
  | some .deleteRight => rfl
  | some .home => rfl
  | some .toEnd => rfl
  | some (.insert key) =>
      rw [Line.edit]
      split
      · rfl
      · rfl
  | none => rfl

/-- The keys that the buttons go through. -/
def Printable (emulatedKey : Int) : Prop :=
  0x20 ≤ emulatedKey ∧ emulatedKey ≤ 0x7E

theorem Printable.next {emulatedKey : Int} (printable : Printable emulatedKey)
    (input : Input) : Printable (nextEmulatedKey emulatedKey input) := by
  obtain ⟨low, high⟩ := printable
  rw [nextEmulatedKey, Printable]
  repeat' split
  all_goals omega

theorem Printable.ne_nul {emulatedKey : Int}
    (printable : Printable emulatedKey) :
    Char.ofNat emulatedKey.toNat ≠ '\x00' := by
  have each : ∀ key < 0x7F, 0x20 ≤ key → Char.ofNat key ≠ '\x00' := by decide
  obtain ⟨low, high⟩ := printable
  exact each emulatedKey.toNat (by omega) (by omega)

theorem Printable.linePasses {emulatedKey : Int}
    (printable : Printable emulatedKey) (text : Text) (inputs : List Input) :
    Printable (linePasses text emulatedKey inputs).emulatedKey := by
  have kept (line : Line) (earlier : Printable line.emulatedKey) (input : Input)
      (_ : input ∈ inputs) : Printable (line.pass input).emulatedKey := by
    rw [Line.pass, Line.emulatedKey_edit, Line.emulatedKey_move]
    exact earlier.next input
  exact List.foldlRecOn (motive := fun line : Line => Printable line.emulatedKey)
    inputs Line.pass printable kept

/-- No key is inserted where two free bytes are left, one of them for the
NUL. -/
def InputMet (line : Line) (input : Input) : Prop :=
  ∀ key, input.edit (selectedKey line.emulatedKey input) = some (.insert key) →
    line.text.length ≠ maxInputLen - 2

theorem Shows.pass_iff {line : Line} {editor : Editor}
    (shown : Shows line editor) (input : Input) :
    ShowsLine (line.pass input) (editor.pass input) ↔ InputMet line input := by
  obtain ⟨moved, doneMove, showsMoved⟩ := shown.move input.move
  obtain ⟨read, doneRead, showsRead⟩ := showsMoved.strlen
  have sameKey : read.emulatedKey = line.emulatedKey :=
    showsRead.emulatedKey.trans (line.emulatedKey_move input.move)
  let chosen : Editor :=
    { read with emulatedKey := nextEmulatedKey read.emulatedKey input }
  let chosenLine : Line :=
    { line.move input.move with
      emulatedKey :=
        nextEmulatedKey (line.move input.move).emulatedKey input }
  have showsChosen : Shows chosenLine chosen :=
    ⟨showsRead.holds, showsRead.short, showsRead.cursor,
      congrArg (nextEmulatedKey · input) showsRead.emulatedKey,
      showsRead.inside⟩
  have done : editor.pass input =
      chosen.edit chosen.cursorpos (line.move input.move).text.length
        (input.edit (selectedKey read.emulatedKey input)) := by
    rw [Editor.pass, doneMove]
    dsimp only [Option.bind_eq_bind, Option.bind_some]
    rw [doneRead]
    rfl
  have donePass : line.pass input =
      chosenLine.edit (input.edit (selectedKey read.emulatedKey input)) := by
    rw [Line.pass, showsRead.emulatedKey]
  have edited := showsChosen.edit_iff
    (input.edit (selectedKey read.emulatedKey input))
    (fun _key isInsert => Input.edit_insert isInsert)
  have sameText : chosenLine.text = line.text := line.text_move input.move
  rw [sameText] at edited
  rw [done, donePass, line.text_move, edited, sameKey]
  rfl

/-! ### Runs -/

theorem setInputBuffer_shows (input : InputText) (emulatedKey : Int) :
    ShowsLine (linePasses input.text emulatedKey [])
      (setInputBuffer input.buffer emulatedKey) := by
  have atHome : Shows ⟨[], input.text, emulatedKey⟩
      ⟨input.buffer, 0, emulatedKey, []⟩ :=
    ⟨input.holds, input.short, rfl, rfl, nofun⟩
  exact atHome.endCursorPos

theorem ShowsLine.pass_iff {line : Line} {editor : Option Editor}
    (shown : ShowsLine line editor) (input : Input) :
    ShowsLine (line.pass input) (runPass editor input) ↔
      InputMet line input := by
  obtain ⟨opened, rfl, shows⟩ := shown
  exact shows.pass_iff input

/-- The line beside the editor. -/
def tracedPass (state : Line × Option Editor) (input : Input) :
    Line × Option Editor :=
  (state.1.pass input, runPass state.2 input)

theorem foldl_tracedPass (input : InputText) (emulatedKey : Int)
    (inputs : List Input) :
    inputs.foldl tracedPass
        (linePasses input.text emulatedKey [],
          setInputBuffer input.buffer emulatedKey) =
      (linePasses input.text emulatedKey inputs,
        afterPasses input.buffer emulatedKey inputs) :=
  (foldl_pair Line.pass runPass inputs _ _).symm

/-- The editor shows the line throughout exactly when no key is inserted into a
text that leaves two bytes of the buffer free. -/
theorem passes_showLine_iff (input : InputText) (emulatedKey : Int)
    (inputs : List Input) :
    (∀ done, done <+: inputs →
      ShowsLine (linePasses input.text emulatedKey done)
        (afterPasses input.buffer emulatedKey done)) ↔
      ∀ before next after, inputs = before ++ next :: after →
        InputMet (linePasses input.text emulatedKey before) next := by
  have kept (state : Line × Option Editor) (next : Input)
      (shown : ShowsLine state.1 state.2) (met : InputMet state.1 next) :
      ShowsLine (tracedPass state next).1 (tracedPass state next).2 :=
    (shown.pass_iff next).mpr met
  have needed (state : Line × Option Editor) (next : Input)
      (shown : ShowsLine state.1 state.2)
      (after : ShowsLine (tracedPass state next).1 (tracedPass state next).2) :
      InputMet state.1 next :=
    (shown.pass_iff next).mp after
  have initial := setInputBuffer_shows input emulatedKey
  have throughout := @foldl_right_iff _ _ tracedPass
    (linePasses input.text emulatedKey [],
      setInputBuffer input.buffer emulatedKey)
    (fun state => ShowsLine state.1 state.2)
    (fun state => ShowsLine state.1 state.2)
    (fun state next => InputMet state.1 next)
    initial (fun _state shown => shown) kept needed inputs
  simp only [foldl_tracedPass] at throughout
  exact throughout

theorem firstPass_iff (input : InputText) (emulatedKey : Int) (first : Input) :
    ShowsLine (linePasses input.text emulatedKey [first])
        (afterPasses input.buffer emulatedKey [first]) ↔
      InputMet (linePasses input.text emulatedKey []) first :=
  (setInputBuffer_shows input emulatedKey).pass_iff first

theorem holdsText_replicate (count : Nat) (start : Int) :
    HoldsText (fun offset => if offset < start + count then 'a' else '\x00')
      start (List.replicate count 'a') := by
  induction count generalizing start with
  | zero =>
      exact if_neg (by omega)
  | succ count ih =>
      refine ⟨if_pos (by omega), by decide, ?_⟩
      have later := ih (start + 1)
      have last : start + 1 + (count : Int) = start + ((count + 1 : Nat) : Int) := by
        omega
      rw [last] at later
      exact later

/-- A text that leaves two bytes of the buffer free. -/
def twoFree : InputText :=
  { buffer := fun offset => if offset < 0 + (1022 : Nat) then 'a' else '\x00'
    text := List.replicate 1022 'a'
    holds := holdsText_replicate 1022 0
    short := by
      rw [List.length_replicate]
      decide }

/-- One more key stores behind the buffer. -/
theorem twoFree_overrun :
    ¬ ∀ (input : InputText) (emulatedKey : Int) (inputs : List Input),
      ShowsLine (linePasses input.text emulatedKey inputs)
        (afterPasses input.buffer emulatedKey inputs) := by
  intro shown
  have met := (firstPass_iff twoFree 0x20 { key := 'b' }).mp (shown _ _ _)
  apply met 'b' rfl
  rw [linePasses, List.foldl_nil, Line.text, List.append_nil, twoFree,
    List.length_replicate]
  rfl

end KernelReloaded.LineEditor

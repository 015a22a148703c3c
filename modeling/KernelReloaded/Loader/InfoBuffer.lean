/-
The info buffer: the texts that the loader shows while it runs, one after
another in one char array.

When a text does not fit, the code scrolls or deletes the buffer and then moves
the write position back a second time.  `clearInfoBuffer` also resets the
scrolling and paints, and `vsnprintf` forms the output of `info_printf`; the
first is left out and the second is given as text.
-/

import KernelReloaded.Core.CharCells
import KernelReloaded.Core.Transition

namespace KernelReloaded.InfoTexts

open CText CharCells

def maxBuffer : Nat := 128

def maxInfoBuffer : Int := 4096

structure InfoBuffer where
  infoBuffer : Cells
  infoBufferPos : Int
  /-- The offsets of all bytes that were written. -/
  written : List Int
  /-- What went to `kprintf`. -/
  printed : List String

/-- A static array is zero; around it lies what it may. -/
def InfoBuffer.initial (around : Cells) : InfoBuffer :=
  { infoBuffer := fun offset =>
      if 0 ≤ offset ∧ offset < maxInfoBuffer then '\x00' else around offset
    infoBufferPos := 0
    written := []
    printed := [] }

/-! ### The code -/

/-- The index behind the next newline. -/
def findNewLine (cells : Cells) : (rounds : Nat) → (i : Int) → Int
  | 0, i => i
  | rounds + 1, i =>
      if cells i = '\n' then i + 1 else findNewLine cells rounds (i + 1)

namespace InfoBuffer

variable (buffer : InfoBuffer)

def makeRoom (required : Int) : InfoBuffer :=
  let i := findNewLine buffer.infoBuffer (maxInfoBuffer - required).toNat
    required
  let buffer : InfoBuffer :=
    if i ≥ maxInfoBuffer then
      { buffer with infoBufferPos := 0 }
    else
      let count := (buffer.infoBufferPos - required).toNat
      { buffer with
        infoBuffer := moveDown buffer.infoBuffer 0 required count
        infoBufferPos := buffer.infoBufferPos - required
        written := buffer.written ++ offsets 0 count }
  { buffer with infoBufferPos := buffer.infoBufferPos - required }

/-- `strcpy` to the write position. -/
def append (text : Text) : InfoBuffer :=
  { buffer with
    infoBuffer := storeText buffer.infoBuffer buffer.infoBufferPos
      (text ++ ['\x00'])
    infoBufferPos := buffer.infoBufferPos + text.length
    written := buffer.written ++
      offsets buffer.infoBufferPos (text.length + 1) }

def infoPrints (text : CharArray) : InfoBuffer :=
  let len : Int := (cstring text).length + 1
  if len > maxInfoBuffer then
    { buffer with
      printed := buffer.printed ++ ["info_prints(): text too long.\n"] }
  else
    let remaining := maxInfoBuffer - buffer.infoBufferPos
    if len > remaining then
      (buffer.makeRoom (len - remaining)).append (cstring text)
    else
      buffer.append (cstring text)

def infoPrintf (output : Text) : InfoBuffer :=
  buffer.infoPrints (output.take (maxBuffer - 1))

def clearInfoBuffer : InfoBuffer :=
  { buffer with
    infoBuffer := Function.update buffer.infoBuffer 0 '\x00'
    infoBufferPos := 0
    written := buffer.written ++ [0] }

end InfoBuffer

inductive InfoCall where
  | infoPrints (text : CharArray)
  | infoPrintf (output : Text)
  | clearInfoBuffer

def infoCall (buffer : InfoBuffer) : InfoCall → InfoBuffer
  | .infoPrints text => buffer.infoPrints text
  | .infoPrintf output => buffer.infoPrintf output
  | .clearInfoBuffer => buffer.clearInfoBuffer

def afterCalls (around : Cells) (calls : List InfoCall) : InfoBuffer :=
  calls.foldl infoCall (.initial around)

/-! ### What is wanted -/

def acceptText (accepted : List Text) (text : CharArray) : List Text :=
  if ((cstring text).length : Int) + 1 > maxInfoBuffer then accepted
  else accepted ++ [cstring text]

def acceptCall (accepted : List Text) : InfoCall → List Text
  | .infoPrints text => acceptText accepted text
  | .infoPrintf output => acceptText accepted (output.take (maxBuffer - 1))
  | .clearInfoBuffer => []

/-- The accepted texts since the last clear. -/
def acceptedTexts (calls : List InfoCall) : List Text :=
  calls.foldl acceptCall []

def InfoBuffer.content (buffer : InfoBuffer) : Text :=
  textAt buffer.infoBuffer 0 buffer.infoBufferPos.toNat

/-- Nothing was dropped, or whole lines. -/
def StartsLine (dropped : Text) : Prop :=
  dropped = [] ∨ dropped.getLast? = some '\n'

structure InfoRight (accepted : List Text) (buffer : InfoBuffer) : Prop where
  position : 0 ≤ buffer.infoBufferPos ∧ buffer.infoBufferPos < maxInfoBuffer
  inside : ∀ offset ∈ buffer.written, 0 ≤ offset ∧ offset < maxInfoBuffer
  terminated : buffer.infoBuffer buffer.infoBufferPos = '\x00'
  nulFree : '\x00' ∉ buffer.content
  shown : ∃ dropped, accepted.flatten = dropped ++ buffer.content ∧
    (StartsLine dropped ∨ accepted.getLast? = some buffer.content)
  latest : ∀ text, accepted.getLast? = some text → text <:+ buffer.content

/-! ### Single steps -/

theorem findNewLine_lt_iff (cells : Cells) (rounds : Nat) (i : Int) :
    findNewLine cells rounds i < i + rounds ↔
      ∃ found, i ≤ found ∧ found + 1 < i + rounds ∧ cells found = '\n' := by
  induction rounds generalizing i with
  | zero =>
      constructor
      · intro short
        exact absurd short (by rw [findNewLine]; omega)
      · rintro ⟨found, low, high, -⟩
        omega
  | succ rounds ih =>
      have bound : i + ((rounds + 1 : Nat) : Int) = i + 1 + rounds := by omega
      rw [findNewLine, bound]
      by_cases here : cells i = '\n'
      · rw [if_pos here]
        constructor
        · intro short
          exact ⟨i, Int.le_refl i, short, here⟩
        · rintro ⟨found, low, high, -⟩
          omega
      · rw [if_neg here, ih]
        constructor
        · rintro ⟨found, low, high, newLine⟩
          exact ⟨found, by omega, high, newLine⟩
        · rintro ⟨found, low, high, newLine⟩
          have other : found ≠ i := by
            rintro rfl
            exact here newLine
          exact ⟨found, by omega, high, newLine⟩

theorem content_append {buffer : InfoBuffer}
    (low : 0 ≤ buffer.infoBufferPos) (text : Text) :
    (buffer.append text).content = buffer.content ++ text := by
  have start : (buffer.infoBufferPos.toNat : Int) = buffer.infoBufferPos :=
    Int.toNat_of_nonneg low
  have size : (buffer.infoBufferPos + text.length).toNat =
      buffer.infoBufferPos.toNat + text.length := by
    omega
  rw [InfoBuffer.content, InfoBuffer.append, size, textAt_add, Int.zero_add,
    start, textAt_storeText_append]
  congr 1
  apply textAt_congr
  intro index inside
  exact storeText_outside _ (Or.inl (by omega))

theorem append_terminated (buffer : InfoBuffer) (text : Text) :
    (buffer.append text).infoBuffer (buffer.append text).infoBufferPos =
      '\x00' := by
  rw [InfoBuffer.append, storeText_append, storeText, storeText]
  exact Function.update_self _ _ _

/-- A text behind the buffer is right exactly when its place is inside and what
stands there already is the end of the texts before. -/
theorem append_right_iff {accepted : List Text} {buffer : InfoBuffer}
    {text : Text} (fits : buffer.infoBufferPos + text.length < maxInfoBuffer)
    (textNulFree : '\x00' ∉ text) :
    InfoRight (accepted ++ [text]) (buffer.append text) ↔
      0 ≤ buffer.infoBufferPos ∧
      (∀ offset ∈ buffer.written, 0 ≤ offset ∧ offset < maxInfoBuffer) ∧
      '\x00' ∉ buffer.content ∧
      ∃ dropped, accepted.flatten = dropped ++ buffer.content ∧
        (StartsLine dropped ∨ buffer.content = []) := by
  have flat : (accepted ++ [text]).flatten = accepted.flatten ++ text := by
    rw [List.flatten_append, List.flatten_singleton]
  have last : (accepted ++ [text]).getLast? = some text :=
    List.getLast?_concat
  constructor
  · intro right
    have low : 0 ≤ buffer.infoBufferPos := by
      apply (right.inside _ _).1
      exact List.mem_append_right _
        (mem_offsets.mpr ⟨Int.le_refl _, by omega⟩)
    refine ⟨low, ?_, ?_, ?_⟩
    · intro offset member
      exact right.inside offset (List.mem_append_left _ member)
    · intro member
      apply right.nulFree
      rw [content_append low]
      exact List.mem_append_left _ member
    · obtain ⟨dropped, split, begins⟩ := right.shown
      rw [content_append low] at split begins
      rw [flat, ← List.append_assoc] at split
      refine ⟨dropped, List.append_cancel_right split, ?_⟩
      rw [last] at begins
      refine begins.imp_right ?_
      intro same
      exact List.self_eq_append_left.mp (Option.some.inj same)
  · rintro ⟨low, inside, nulFree, dropped, split, begins⟩
    refine ⟨⟨?_, fits⟩, ?_, append_terminated buffer text, ?_, ?_, ?_⟩
    · exact Int.add_nonneg low (Int.natCast_nonneg _)
    · intro offset member
      rcases List.mem_append.mp member with earlier | now
      · exact inside offset earlier
      · have between := mem_offsets.mp now
        omega
    · rw [content_append low]
      intro member
      rcases List.mem_append.mp member with before | behind
      · exact nulFree before
      · exact textNulFree behind
    · refine ⟨dropped, ?_, ?_⟩
      · rw [flat, split, content_append low, List.append_assoc]
      · refine begins.imp_right ?_
        intro empty
        rw [last, content_append low, empty, List.nil_append]
    · intro latest isLast
      rw [last] at isLast
      obtain rfl := Option.some.inj isLast
      rw [content_append low]
      exact List.suffix_append _ _

/-! ### When a text does not fit -/

/-- The write position is moved back twice by what is missing.  That is right
only when both steps happen to end at the same text. -/
structure StepsBackRight (buffer : InfoBuffer) (required : Int) : Prop where
  room : 2 * required ≤ buffer.infoBufferPos
  newLine : ∃ found, required ≤ found ∧ found + 1 < maxInfoBuffer ∧
    buffer.infoBuffer found = '\n'
  repeats : ∀ i, required ≤ i → i < buffer.infoBufferPos - required →
    buffer.infoBuffer i = buffer.infoBuffer (i + required)
  lineStart : buffer.infoBufferPos = 2 * required ∨
    buffer.infoBuffer (2 * required - 1) = '\n'

theorem makeRoom_deleted {buffer : InfoBuffer} {required : Int}
    (absent : ¬ findNewLine buffer.infoBuffer
      (maxInfoBuffer - required).toNat required < maxInfoBuffer) :
    (buffer.makeRoom required).infoBufferPos = -required := by
  rw [InfoBuffer.makeRoom]
  dsimp only
  rw [if_pos (Int.not_lt.mp absent)]
  exact Int.zero_sub required

theorem makeRoom_scrolled {buffer : InfoBuffer} {required : Int}
    (found : findNewLine buffer.infoBuffer
      (maxInfoBuffer - required).toNat required < maxInfoBuffer) :
    buffer.makeRoom required =
      { buffer with
        infoBuffer := moveDown buffer.infoBuffer 0 required
          (buffer.infoBufferPos - required).toNat
        infoBufferPos := buffer.infoBufferPos - required - required
        written := buffer.written ++
          offsets 0 (buffer.infoBufferPos - required).toNat } := by
  rw [InfoBuffer.makeRoom]
  dsimp only
  rw [if_neg (Int.not_le.mpr found)]

/-- What stands in front of the write position after the two steps. -/
theorem content_makeRoom {buffer : InfoBuffer} {required : Int}
    (positive : 0 ≤ required)
    (found : findNewLine buffer.infoBuffer
      (maxInfoBuffer - required).toNat required < maxInfoBuffer) :
    (buffer.makeRoom required).content =
      textAt buffer.infoBuffer required
        (buffer.infoBufferPos - required - required).toNat := by
  rw [InfoBuffer.content, makeRoom_scrolled found]
  apply textAt_congr
  intro index inside
  have moved : index < (buffer.infoBufferPos - required).toNat := by
    dsimp only at inside
    omega
  exact moveDown_inside _ positive moved

theorem getLast?_textAt (cells : Cells) {count : Nat} (positive : 0 < count) :
    (textAt cells 0 count).getLast? = some (cells ((count : Int) - 1)) := by
  have inside : count - 1 < count := Nat.sub_lt positive Nat.one_pos
  have place : (0 : Int) + (count - 1 : Nat) = (count : Int) - 1 := by omega
  rw [List.getLast?_eq_getElem?, length_textAt, getElem?_textAt cells 0 inside,
    place]

theorem startsLine_append_textAt (cells : Cells) (dropped : Text) (count : Nat)
    (positive : 0 < count) :
    StartsLine (dropped ++ textAt cells 0 count) ↔
      cells ((count : Int) - 1) = '\n' := by
  have nonempty : dropped ++ textAt cells 0 count ≠ [] := by
    rw [← List.length_pos_iff, List.length_append, length_textAt]
    omega
  rw [StartsLine, List.getLast?_append, getLast?_textAt cells positive,
    Option.some_or, Option.some_inj]
  exact or_iff_right nonempty

/-- The text that the double step leaves is the end of the texts before when it
repeats itself. -/
theorem stepsBack_iff {accepted : List Text} {buffer : InfoBuffer}
    (right : InfoRight accepted buffer) {required : Int}
    (positive : 0 < required) (room : 2 * required ≤ buffer.infoBufferPos)
    {kept : Text}
    (isKept : kept = textAt buffer.infoBuffer required
      (buffer.infoBufferPos - required - required).toNat) :
    (∃ dropped, accepted.flatten = dropped ++ kept ∧
        (StartsLine dropped ∨ kept = [])) ↔
      (∀ i, required ≤ i → i < buffer.infoBufferPos - required →
        buffer.infoBuffer i = buffer.infoBuffer (i + required)) ∧
      (buffer.infoBufferPos = 2 * required ∨
        buffer.infoBuffer (2 * required - 1) = '\n') := by
  obtain ⟨before, split, -⟩ := right.shown
  have front : ((2 * required).toNat : Int) = 2 * required :=
    Int.toNat_of_nonneg (by omega)
  have size : buffer.infoBufferPos.toNat = (2 * required).toNat +
      (buffer.infoBufferPos - required - required).toNat := by
    omega
  rw [InfoBuffer.content, size, textAt_add, Int.zero_add, front,
    ← List.append_assoc] at split
  have empty : kept = [] ↔ buffer.infoBufferPos = 2 * required := by
    rw [isKept, ← List.length_eq_zero_iff, length_textAt]
    omega
  have begins := startsLine_append_textAt buffer.infoBuffer before
    (2 * required).toNat (by omega)
  rw [front] at begins
  rw [empty]
  constructor
  · rintro ⟨dropped, splitKept, starts⟩
    rw [split, isKept] at splitKept
    obtain ⟨sameFront, sameKept⟩ := List.append_inj' splitKept
      (by rw [length_textAt, length_textAt])
    constructor
    · intro i first last
      have inside : (i - required).toNat <
          (buffer.infoBufferPos - required - required).toNat := by
        omega
      have same := cells_eq_of_textAt_eq sameKept inside
      rw [show 2 * required + ((i - required).toNat : Int) = i + required by
          omega,
        show required + ((i - required).toNat : Int) = i by omega] at same
      exact same.symm
    · rw [← sameFront, begins] at starts
      exact starts.symm
  · rintro ⟨repeats, starts⟩
    have sameKept : textAt buffer.infoBuffer (2 * required)
          (buffer.infoBufferPos - required - required).toNat = kept := by
      rw [isKept]
      apply textAt_congr
      intro index inside
      rw [repeats (required + index) (by omega) (by omega)]
      congr 1
      omega
    rw [sameKept] at split
    refine ⟨_, split, ?_⟩
    rw [begins]
    exact starts.symm

/-- Nothing but a newline found and two equal texts make the double step
right. -/
theorem makeRoom_right_iff {accepted : List Text} {buffer : InfoBuffer}
    {text : Text} (right : InfoRight accepted buffer) {required : Int}
    (isMissing : required =
      (text.length : Int) + 1 - (maxInfoBuffer - buffer.infoBufferPos))
    (positive : 0 < required) (textNulFree : '\x00' ∉ text)
    (short : (text.length : Int) + 1 ≤ maxInfoBuffer) :
    InfoRight (accepted ++ [text]) ((buffer.makeRoom required).append text) ↔
      StepsBackRight buffer required := by
  obtain ⟨low, high⟩ := right.position
  have bound : required + ((maxInfoBuffer - required).toNat : Int) =
      maxInfoBuffer := by
    omega
  have search := findNewLine_lt_iff buffer.infoBuffer
    (maxInfoBuffer - required).toNat required
  rw [bound] at search
  by_cases found : findNewLine buffer.infoBuffer
      (maxInfoBuffer - required).toNat required < maxInfoBuffer
  · have scrolled := makeRoom_scrolled found
    have shown := content_makeRoom (Int.le_of_lt positive) found
    have place : (buffer.makeRoom required).infoBufferPos =
        buffer.infoBufferPos - required - required := by
      rw [scrolled]
    rw [append_right_iff (by rw [place]; omega) textNulFree, place]
    constructor
    · rintro ⟨inside, -, -, dropped⟩
      have room : 2 * required ≤ buffer.infoBufferPos := by omega
      obtain ⟨repeats, lineStart⟩ :=
        (stepsBack_iff right positive room shown).mp dropped
      exact ⟨room, search.mp found, repeats, lineStart⟩
    · intro steps
      have room := steps.room
      refine ⟨by omega, ?_, ?_, ?_⟩
      · rw [scrolled]
        intro offset member
        rcases List.mem_append.mp member with earlier | now
        · exact right.inside offset earlier
        · have between := mem_offsets.mp now
          omega
      · intro member
        apply right.nulFree
        rw [shown, mem_textAt] at member
        obtain ⟨index, inside, isNul⟩ := member
        refine mem_textAt.mpr ⟨(required + index).toNat, by omega, ?_⟩
        rw [← isNul]
        congr 1
        omega
      · exact (stepsBack_iff right positive room shown).mpr
          ⟨steps.repeats, steps.lineStart⟩
  · have deleted := makeRoom_deleted found
    constructor
    · intro wrong
      have first := (append_right_iff (by rw [deleted]; omega)
        textNulFree).mp wrong
      rw [deleted] at first
      omega
    · intro steps
      exact absurd (search.mpr steps.newLine) found

/-! ### Runs -/

/-- The text that a call prints. -/
def InfoCall.text : InfoCall → Option Text
  | .infoPrints text => some (cstring text)
  | .infoPrintf output => some (cstring (output.take (maxBuffer - 1)))
  | .clearInfoBuffer => none

/-- The text fits and what it is put behind begins a line, or room is made and
the double step is right. -/
structure TextMet (accepted : List Text) (buffer : InfoBuffer) (text : Text) :
    Prop where
  fits : buffer.infoBufferPos + text.length < maxInfoBuffer →
    ∃ dropped, accepted.flatten = dropped ++ buffer.content ∧
      (StartsLine dropped ∨ buffer.content = [])
  makesRoom : maxInfoBuffer ≤ buffer.infoBufferPos + text.length →
    StepsBackRight buffer
      (text.length + 1 - (maxInfoBuffer - buffer.infoBufferPos))

def CallMet (accepted : List Text) (buffer : InfoBuffer) (call : InfoCall) :
    Prop :=
  ∀ text, call.text = some text → (text.length : Int) < maxInfoBuffer →
    TextMet accepted buffer text

theorem infoPrints_right_iff {accepted : List Text} {buffer : InfoBuffer}
    (right : InfoRight accepted buffer) (text : CharArray) :
    InfoRight (acceptText accepted text) (buffer.infoPrints text) ↔
      (((cstring text).length : Int) < maxInfoBuffer →
        TextMet accepted buffer (cstring text)) := by
  have textNulFree := nul_not_mem_cstring text
  rw [acceptText, InfoBuffer.infoPrints]
  dsimp only
  by_cases long : ((cstring text).length : Int) + 1 > maxInfoBuffer
  · rw [if_pos long, if_pos long]
    constructor
    · intro _right short
      omega
    · intro _met
      exact ⟨right.position, right.inside, right.terminated, right.nulFree,
        right.shown, right.latest⟩
  · rw [if_neg long, if_neg long]
    split
    next missing =>
      rw [makeRoom_right_iff right rfl (by omega) textNulFree (by omega)]
      constructor
      · intro steps _short
        refine ⟨?_, fun _behind => steps⟩
        intro fits
        omega
      · intro met
        exact (met (by omega)).makesRoom (by omega)
    next room =>
      rw [append_right_iff (by omega) textNulFree]
      constructor
      · rintro ⟨-, -, -, dropped⟩ _short
        refine ⟨fun _fits => dropped, ?_⟩
        intro behind
        omega
      · intro met
        exact ⟨right.position.1, right.inside, right.nulFree,
          (met (by omega)).fits (by omega)⟩

theorem InfoRight.clear {accepted : List Text} {buffer : InfoBuffer}
    (right : InfoRight accepted buffer) :
    InfoRight [] buffer.clearInfoBuffer := by
  have room : (0 : Int) < maxInfoBuffer := by decide
  refine ⟨⟨Int.le_refl 0, room⟩, ?_, ?_, List.not_mem_nil,
    ⟨[], rfl, Or.inl (Or.inl rfl)⟩, nofun⟩
  · intro offset member
    rcases List.mem_append.mp member with earlier | now
    · exact right.inside offset earlier
    · rw [List.mem_singleton.mp now]
      exact ⟨Int.le_refl 0, room⟩
  · exact Function.update_self 0 '\x00' buffer.infoBuffer

/-- A call leaves the buffer right exactly when its condition is met. -/
theorem infoCall_right_iff {accepted : List Text} {buffer : InfoBuffer}
    (right : InfoRight accepted buffer) (call : InfoCall) :
    InfoRight (acceptCall accepted call) (infoCall buffer call) ↔
      CallMet accepted buffer call := by
  have ofText (text : CharArray) (call : InfoCall)
      (prints : call.text = some (cstring text)) :
      CallMet accepted buffer call ↔
        (((cstring text).length : Int) < maxInfoBuffer →
          TextMet accepted buffer (cstring text)) := by
    constructor
    · intro met
      exact met _ prints
    · intro met printed isPrinted
      obtain rfl := Option.some.inj (prints.symm.trans isPrinted)
      exact met
  cases call with
  | infoPrints text =>
      rw [ofText text _ rfl]
      exact infoPrints_right_iff right text
  | infoPrintf output =>
      rw [ofText (output.take (maxBuffer - 1)) _ rfl]
      exact infoPrints_right_iff right _
  | clearInfoBuffer =>
      exact ⟨fun _right => nofun, fun _met => right.clear⟩

theorem infoRight_initial (around : Cells) :
    InfoRight [] (InfoBuffer.initial around) := by
  have room : (0 : Int) < maxInfoBuffer := by decide
  exact ⟨⟨Int.le_refl 0, room⟩, nofun, rfl, List.not_mem_nil,
    ⟨[], rfl, Or.inl (Or.inl rfl)⟩, nofun⟩

/-- The buffer with the texts it has accepted. -/
def tracedCall (state : List Text × InfoBuffer) (call : InfoCall) :
    List Text × InfoBuffer :=
  (acceptCall state.1 call, infoCall state.2 call)

theorem foldl_tracedCall (around : Cells) (calls : List InfoCall) :
    calls.foldl tracedCall ([], .initial around) =
      (acceptedTexts calls, afterCalls around calls) :=
  (foldl_pair acceptCall infoCall calls [] _).symm

/-- The buffer is right after all calls exactly when every text that does not
fit happens to stand the double step, and no text is put behind the rest of a
line. -/
theorem infoCalls_right_iff (around : Cells) (calls : List InfoCall) :
    (∀ done, done <+: calls →
      InfoRight (acceptedTexts done) (afterCalls around done)) ↔
      ∀ before call after, calls = before ++ call :: after →
        CallMet (acceptedTexts before) (afterCalls around before) call := by
  have kept (state : List Text × InfoBuffer) (call : InfoCall)
      (right : InfoRight state.1 state.2)
      (met : CallMet state.1 state.2 call) :
      InfoRight (tracedCall state call).1 (tracedCall state call).2 :=
    (infoCall_right_iff right call).mpr met
  have needed (state : List Text × InfoBuffer) (call : InfoCall)
      (right : InfoRight state.1 state.2)
      (after : InfoRight (tracedCall state call).1 (tracedCall state call).2) :
      CallMet state.1 state.2 call :=
    (infoCall_right_iff right call).mp after
  have initial := infoRight_initial around
  have throughout := @foldl_right_iff _ _ tracedCall ([], .initial around)
    (fun state => InfoRight state.1 state.2)
    (fun state => InfoRight state.1 state.2)
    (fun state call => CallMet state.1 state.2 call)
    initial (fun _state right => right) kept needed calls
  simp only [foldl_tracedCall] at throughout
  exact throughout

theorem acceptedTexts_concat (calls : List InfoCall) (call : InfoCall) :
    acceptedTexts (calls ++ [call]) = acceptCall (acceptedTexts calls) call := by
  rw [acceptedTexts, List.foldl_append]
  rfl

theorem afterCalls_concat (around : Cells) (calls : List InfoCall)
    (call : InfoCall) :
    afterCalls around (calls ++ [call]) =
      infoCall (afterCalls around calls) call := by
  rw [afterCalls, List.foldl_append]
  rfl

/-- The longest text. -/
def fullText : Text := List.replicate 4095 'a'

theorem length_fullText : fullText.length = 4095 := by
  rw [fullText, List.length_replicate]

theorem cstring_fullText : cstring fullText = fullText := by
  rw [cstring, List.takeWhile_eq_self_iff]
  intro char member
  rw [List.eq_of_mem_replicate member]
  decide

/-- A buffer without a newline is full: the next character is put before it. -/
theorem fullText_overrun :
    ¬ ∀ around calls, InfoRight (acceptedTexts calls) (afterCalls around calls) := by
  intro right
  have full := right (fun _ => 'a') [.infoPrints fullText]
  have next := right (fun _ => 'a') [.infoPrints fullText, .infoPrints ['a']]
  have accepted : acceptedTexts [.infoPrints fullText] = [fullText] := by
    rw [acceptedTexts, List.foldl_cons, List.foldl_nil, acceptCall, acceptText,
      cstring_fullText, length_fullText, if_neg (by decide), List.nil_append]
  rw [accepted] at full
  generalize state : afterCalls (fun _ => 'a') [.infoPrints fullText] = buffer
    at full
  have met : CallMet [fullText] buffer (.infoPrints ['a']) := by
    apply (infoCall_right_iff full _).mp
    have both : [InfoCall.infoPrints fullText, .infoPrints ['a']] =
        [.infoPrints fullText] ++ [.infoPrints ['a']] := rfl
    rw [both, acceptedTexts_concat, afterCalls_concat, accepted, state] at next
    exact next
  obtain ⟨low, high⟩ := full.position
  -- The text fills the buffer but for its NUL.
  have shown : fullText <:+ buffer.content := full.latest _ rfl
  have length : buffer.content.length = buffer.infoBufferPos.toNat := by
    rw [InfoBuffer.content, length_textAt]
  have fits := shown.length_le
  rw [length, length_fullText] at fits
  have position : buffer.infoBufferPos = 4095 := by
    rw [maxInfoBuffer] at high
    omega
  have content : fullText = buffer.content := by
    apply shown.eq_of_length
    rw [length, length_fullText]
    omega
  have steps := (met ['a'] rfl (by decide)).makesRoom (by rw [position]; decide)
  obtain ⟨found, low, high, newLine⟩ := steps.newLine
  rw [position] at low
  rw [maxInfoBuffer, List.length_singleton] at low
  rw [maxInfoBuffer] at high
  have place : (0 : Int) + (found.toNat : Int) = found := by omega
  have member : '\n' ∈ buffer.content :=
    mem_textAt.mpr ⟨found.toNat, by omega, by rw [place, newLine]⟩
  rw [← content] at member
  exact absurd (List.eq_of_mem_replicate member) (by decide)

end KernelReloaded.InfoTexts

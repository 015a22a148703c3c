/-
Lines of text files: `fgets`, the key and value of a `key=value` line and
`atoi`.

Nothing here names the loader.  `atoi` follows `strtol` on a platform with
32-bit `int` and `long`: leading white space, one sign, digits, and the value
held to the range of `int`.
-/

import KernelReloaded.Core.CText
import Mathlib.Data.List.DropRight

namespace KernelReloaded.CText

/-! ### `atoi` -/

def isSpace (char : Char) : Bool :=
  char == ' ' || char == '\t' || char == '\n' || char == '\x0b' ||
    char == '\x0c' || char == '\r'

def holdInt (value : Int) : Int :=
  max (-2147483648) (min 2147483647 value)

def leadingDigits (text : Text) : Nat :=
  Nat.ofDigitChars 10 (text.takeWhile Char.isDigit) 0

def atoi (text : Text) : Int :=
  match text.dropWhile isSpace with
  | '-' :: rest => holdInt (-(leadingDigits rest : Int))
  | '+' :: rest => holdInt (leadingDigits rest)
  | unsigned => holdInt (leadingDigits unsigned)

def InIntRange (value : Int) : Prop :=
  -2147483648 ≤ value ∧ value ≤ 2147483647

theorem holdInt_eq {value : Int} (inside : InIntRange value) :
    holdInt value = value := by
  obtain ⟨low, high⟩ := inside
  rw [holdInt]
  omega

theorem leadingDigits_formatUnsigned (value : Nat) :
    leadingDigits (formatUnsigned value) = value := by
  have digits : (formatUnsigned value).takeWhile Char.isDigit =
      formatUnsigned value := by
    rw [List.takeWhile_eq_self_iff]
    intro char member
    exact Nat.isDigit_of_mem_toDigits (by decide) (by decide) member
  rw [leadingDigits, digits, formatUnsigned, Nat.ofDigitChars_ten_toDigits]

private theorem digit_not_blank {char : Char} (digit : char.isDigit = true) :
    isSpace char = false ∧ char ≠ '-' ∧ char ≠ '+' := by
  refine ⟨?_, ?_, ?_⟩
  · by_contra blank
    simp only [isSpace, Bool.not_eq_false, Bool.or_eq_true, beq_iff_eq] at blank
    rcases blank with ((((rfl | rfl) | rfl) | rfl) | rfl) | rfl <;>
      exact absurd digit (by decide)
  · rintro rfl
    exact absurd digit (by decide)
  · rintro rfl
    exact absurd digit (by decide)

private theorem formatUnsigned_cons (value : Nat) :
    ∃ first rest, formatUnsigned value = first :: rest ∧
      first.isDigit = true := by
  obtain ⟨first, rest, shape⟩ := List.exists_cons_of_ne_nil
    (Nat.toDigits_ne_nil (b := 10) (n := value))
  refine ⟨first, rest, shape, ?_⟩
  apply Nat.isDigit_of_mem_toDigits (b := 10) (n := value)
    (by decide) (by decide)
  rw [shape]
  exact List.mem_cons_self

theorem atoi_formatInt {value : Int} (inside : InIntRange value) :
    atoi (formatInt value) = value := by
  cases value with
  | ofNat value =>
      obtain ⟨first, rest, shape, digit⟩ := formatUnsigned_cons value
      obtain ⟨notBlank, notMinus, notPlus⟩ := digit_not_blank digit
      have shown := leadingDigits_formatUnsigned value
      rw [shape] at shown
      rw [formatInt, shape, atoi, List.dropWhile_cons_of_neg (by simp [notBlank])]
      split
      · rename_i same
        exact (notMinus (List.cons.inj same).1).elim
      · rename_i same
        exact (notPlus (List.cons.inj same).1).elim
      · rw [shown]
        exact holdInt_eq inside
  | negSucc value =>
      rw [formatInt, atoi, List.dropWhile_cons_of_neg (by decide)]
      change holdInt (-(leadingDigits (formatUnsigned (value + 1)) : Int)) = _
      rw [leadingDigits_formatUnsigned]
      exact holdInt_eq inside

theorem formatInt_length {value : Int} (inside : InIntRange value) :
    (formatInt value).length ≤ 11 := by
  have digits (magnitude : Nat) (small : magnitude < 10 ^ 10) :
      (formatUnsigned magnitude).length ≤ 10 :=
    (Nat.length_toDigits_le_iff (by decide) (by decide)).mpr small
  obtain ⟨low, high⟩ := inside
  cases value with
  | ofNat value =>
      have short := digits value (by simp only [Int.ofNat_eq_natCast] at high; omega)
      rw [formatInt]
      omega
  | negSucc value =>
      have short := digits (value + 1) (by omega)
      rw [formatInt, List.length_cons]
      omega

theorem mem_formatInt {value : Int} {char : Char}
    (member : char ∈ formatInt value) : char.isDigit = true ∨ char = '-' := by
  have digit {magnitude : Nat} (inDigits : char ∈ formatUnsigned magnitude) :
      char.isDigit = true :=
    Nat.isDigit_of_mem_toDigits (by decide) (by decide) inDigits
  cases value with
  | ofNat value => exact .inl (digit member)
  | negSucc value =>
      rcases List.mem_cons.mp member with minus | inDigits
      · exact .inr minus
      · exact .inl (digit inDigits)

/-! ### Reading line by line -/

/-- The characters up to and with the first newline, at most `limit`. -/
def splitLine : (limit : Nat) → Text → Text × Text
  | 0, rest => ([], rest)
  | _ + 1, [] => ([], [])
  | limit + 1, char :: rest =>
      if char = '\n' then
        ([char], rest)
      else
        let (line, behind) := splitLine limit rest
        (char :: line, behind)

/-- `fgets` of an array of the given size: the line and the rest of the file. -/
def fgets (size : Nat) (file : Text) : Option (Text × Text) :=
  if file = [] then none else some (splitLine (size - 1) file)

/-- The lines a loop over `fgets` reads; every round takes a character from the
file, so `rounds` need not exceed its length. -/
def fileLines (size : Nat) : (rounds : Nat) → Text → List Text
  | 0, _ => []
  | rounds + 1, file =>
      match fgets size file with
      | none => []
      | some (line, rest) => line :: fileLines size rounds rest

theorem splitLine_of_newline {body rest : Text} {limit : Nat}
    (oneLine : '\n' ∉ body) (fits : body.length < limit) :
    splitLine limit (body ++ '\n' :: rest) = (body ++ ['\n'], rest) := by
  induction body generalizing limit with
  | nil =>
      cases limit with
      | zero => cases fits
      | succ limit => rfl
  | cons char body ih =>
      cases limit with
      | zero => cases fits
      | succ limit =>
          rw [List.mem_cons, not_or] at oneLine
          have other : char ≠ '\n' := fun same => oneLine.1 same.symm
          rw [List.cons_append, splitLine, if_neg other,
            ih oneLine.2 (Nat.lt_of_succ_lt_succ fits)]
          rfl

theorem fileLines_of_lines (size : Nat) (bodies : List Text)
    (lines : ∀ body ∈ bodies, '\n' ∉ body ∧ body.length + 1 < size)
    (rounds : Nat) (enough : bodies.length ≤ rounds) :
    fileLines size rounds (bodies.flatMap fun body => body ++ ['\n']) =
      bodies.map fun body => body ++ ['\n'] := by
  induction bodies generalizing rounds with
  | nil =>
      cases rounds with
      | zero => rfl
      | succ rounds => rfl
  | cons body bodies ih =>
      obtain ⟨oneLine, fits⟩ := lines body List.mem_cons_self
      cases rounds with
      | zero => cases enough
      | succ rounds =>
          have front : (body :: bodies).flatMap (fun body => body ++ ['\n']) =
              body ++ '\n' :: bodies.flatMap (fun body => body ++ ['\n']) := by
            simp
          rw [front, fileLines, fgets, if_neg (by simp),
            splitLine_of_newline oneLine (by omega), List.map_cons]
          exact congrArg _ (ih (fun other member => lines other
            (List.mem_cons_of_mem body member)) rounds
            (Nat.le_of_succ_le_succ enough))

/-- The lines of a file in memory, found with `memchr` and cut to `limit`. -/
def memoryLines (limit : Nat) : (rounds : Nat) → Text → List Text
  | 0, _ => []
  | _ + 1, [] => []
  | rounds + 1, char :: rest =>
      ((char :: rest).takeWhile (· != '\n')).take limit ::
        memoryLines limit rounds ((char :: rest).dropWhile (· != '\n')).tail

private theorem beforeNewline (body rest : Text) (oneLine : '\n' ∉ body) :
    (body ++ '\n' :: rest).takeWhile (· != '\n') = body ∧
      ((body ++ '\n' :: rest).dropWhile (· != '\n')).tail = rest := by
  have kept : ∀ char ∈ body, (char != '\n') = true := by
    intro char member
    have different : char ≠ '\n' := by
      rintro rfl
      exact oneLine member
    simpa using different
  constructor
  · rw [List.takeWhile_append_of_pos kept]
    simp
  · rw [List.dropWhile_append_of_pos kept]
    simp

theorem memoryLines_line (limit rounds : Nat) {body rest : Text}
    (oneLine : '\n' ∉ body) :
    memoryLines limit (rounds + 1) (body ++ '\n' :: rest) =
      body.take limit :: memoryLines limit rounds rest := by
  obtain ⟨line, behind⟩ := beforeNewline body rest oneLine
  cases shape : body ++ '\n' :: rest with
  | nil => simp at shape
  | cons char text => rw [memoryLines, ← shape, line, behind]

/-- The lines behind any newline come last. -/
theorem memoryLines_append (limit : Nat) (before behind : Text)
    (rounds : Nat) (enough : (before ++ '\n' :: behind).length ≤ rounds) :
    ∃ first later, behind.length ≤ later ∧
      memoryLines limit rounds (before ++ '\n' :: behind) =
        first ++ memoryLines limit later behind := by
  induction rounds generalizing before with
  | zero => simp at enough
  | succ rounds ih =>
      rw [List.length_append, List.length_cons] at enough
      by_cases oneLine : '\n' ∈ before
      · obtain ⟨body, rest, rfl, bodyOneLine⟩ :=
          List.eq_append_cons_of_mem oneLine
        rw [List.length_append, List.length_cons] at enough
        obtain ⟨first, later, room, lines⟩ := ih rest (by
          rw [List.length_append, List.length_cons]
          omega)
        refine ⟨body.take limit :: first, later, room, ?_⟩
        rw [List.append_assoc, List.cons_append,
          memoryLines_line limit rounds bodyOneLine, lines, List.cons_append]
      · exact ⟨[before.take limit], rounds, by omega,
          memoryLines_line limit rounds oneLine⟩

/-! ### One line -/

def isLineEnd (char : Char) : Bool := char == '\n' || char == '\r'

def stripLineEnd (line : Text) : Text := line.rdropWhile isLineEnd

theorem stripLineEnd_eq_self {body : Text}
    (noLineEnd : ∀ char ∈ body, isLineEnd char = false) :
    stripLineEnd body = body := by
  rw [stripLineEnd, List.rdropWhile_eq_self_iff]
  intro nonempty
  rw [noLineEnd _ (List.getLast_mem nonempty)]
  exact Bool.false_ne_true

theorem stripLineEnd_newline {body : Text}
    (noLineEnd : ∀ char ∈ body, isLineEnd char = false) :
    stripLineEnd (body ++ ['\n']) = body := by
  rw [stripLineEnd, List.rdropWhile_concat_pos _ _ _ (by decide)]
  exact stripLineEnd_eq_self noLineEnd

def keyValue (line : Text) : Option (Text × Text) :=
  match line with
  | [] => none
  | char :: rest =>
      if char = '=' then
        some ([], rest)
      else
        (keyValue rest).map fun (key, value) => (char :: key, value)

theorem keyValue_append {key value : Text} (plain : '=' ∉ key) :
    keyValue (key ++ '=' :: value) = some (key, value) := by
  induction key with
  | nil => rfl
  | cons char key ih =>
      rw [List.mem_cons, not_or] at plain
      have other : char ≠ '=' := fun same => plain.1 same.symm
      rw [List.cons_append, keyValue, if_neg other, ih plain.2]
      rfl

end KernelReloaded.CText

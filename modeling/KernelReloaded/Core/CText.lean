/-
C text: the characters of a string before its terminating NUL, and the char
arrays that hold such strings.

The conversions follow the C library on a platform with 32-bit `int` and
`long`.  Text is a list of characters.  A char array is a list of fixed length;
a store outside of it has no defined result and is `none`.
-/

import Mathlib.Algebra.Group.Nat.Defs
import Mathlib.Data.List.Basic
import Mathlib.Data.List.Infix
import Mathlib.Data.List.TakeWhile
import Mathlib.Data.Nat.Notation

namespace KernelReloaded.CText

abbrev Text := List Char

/-! ### Conversions of `printf` -/

def formatUnsigned (value : Nat) : Text := Nat.toDigits 10 value

def formatInt : Int → Text
  | .ofNat value => formatUnsigned value
  | .negSucc value => '-' :: formatUnsigned (value + 1)

/-- `%08x` of a 32-bit word. -/
def formatHex8 (word : Nat) : Text :=
  (List.range 8).map fun index => Nat.digitChar (word / 16 ^ (7 - index) % 16)

theorem formatHex8_length (word : Nat) : (formatHex8 word).length = 8 := by
  simp [formatHex8]

private theorem digitChar_ne_of_lt_sixteen :
    ∀ digit < 16, Nat.digitChar digit ≠ ' ' ∧ Nat.digitChar digit ≠ '\x00' := by
  decide

theorem mem_formatHex8 {word : Nat} {char : Char}
    (member : char ∈ formatHex8 word) : char ≠ ' ' ∧ char ≠ '\x00' := by
  obtain ⟨index, -, rfl⟩ := List.mem_map.mp member
  exact digitChar_ne_of_lt_sixteen _ (Nat.mod_lt _ (by decide))

/-! ### Char arrays -/

abbrev CharArray := List Char

def cstring (array : CharArray) : Text := array.takeWhile (· != '\x00')

/-- Stores characters from an offset on; `none` when one of them would lie
outside of the array. -/
def storeChars (array : CharArray) (offset : Nat) (chars : Text) :
    Option CharArray :=
  if offset + chars.length ≤ array.length then
    some (array.take offset ++ chars ++ array.drop (offset + chars.length))
  else
    none

/-- `strcpy(&array[offset], text)`. -/
def strcpy (array : CharArray) (offset : Nat) (text : Text) :
    Option CharArray :=
  storeChars array offset (text ++ ['\x00'])

/-- `snprintf(&array[offset], size, ...)` of the given output, `0 < size`. -/
def snprintf (array : CharArray) (offset size : Nat) (output : Text) :
    Option CharArray :=
  strcpy array offset (output.take (size - 1))

/-- The array holds the text and its NUL, with anything behind. -/
structure Holds (array : CharArray) (text : Text) : Prop where
  nulFree : '\x00' ∉ text
  stored : text ++ ['\x00'] <+: array

namespace Holds

variable {array : CharArray} {text : Text}

theorem cstring_eq (holds : Holds array text) : cstring array = text := by
  obtain ⟨behind, rfl⟩ := holds.stored
  have kept : ∀ char ∈ text, (char != '\x00') = true := by
    intro char member
    have different : char ≠ '\x00' := by
      rintro rfl
      exact holds.nulFree member
    simpa using different
  rw [cstring, List.append_assoc, List.takeWhile_append_of_pos kept]
  simp

theorem length_lt (holds : Holds array text) : text.length < array.length := by
  have shorter := holds.stored.length_le
  simp only [List.length_append, List.length_cons, List.length_nil] at shorter
  omega

end Holds

theorem nul_not_mem_cstring (array : CharArray) : '\x00' ∉ cstring array := by
  intro member
  have kept := List.mem_takeWhile_imp member
  simp at kept

/-- A string that is shorter than its array has a NUL behind it. -/
theorem holds_cstring {array : CharArray}
    (short : (cstring array).length < array.length) :
    Holds array (cstring array) := by
  constructor
  · exact nul_not_mem_cstring array
  · have split := List.takeWhile_append_dropWhile (p := (· != '\x00'))
      (l := array)
    cases behind : array.dropWhile (· != '\x00') with
    | nil =>
        rw [behind, List.append_nil] at split
        rw [cstring, split] at short
        exact absurd short (Nat.lt_irrefl _)
    | cons next rest =>
        have nonempty : array.dropWhile (· != '\x00') ≠ [] := by
          rw [behind]
          exact List.cons_ne_nil _ _
        have stops := List.head_dropWhile_not (· != '\x00') nonempty
        simp only [behind, List.head_cons, bne_eq_false_iff_eq] at stops
        rw [behind, stops] at split
        refine ⟨rest, ?_⟩
        rw [List.append_assoc]
        exact split

/-- A NUL in the first place empties the string. -/
theorem holds_nil {array : CharArray} (room : 0 < array.length) :
    Holds (array.set 0 '\x00') [] := by
  refine ⟨List.not_mem_nil, ?_⟩
  cases array with
  | nil => cases room
  | cons first rest =>
      exact ⟨rest, rfl⟩

/-- A character over the NUL and a NUL behind it make the string longer. -/
theorem Holds.push {array : CharArray} {text : Text} (holds : Holds array text)
    {char : Char} (notNul : char ≠ '\x00')
    (room : text.length + 1 < array.length) :
    Holds ((array.set text.length char).set (text.length + 1) '\x00')
      (text ++ [char]) := by
  constructor
  · intro member
    rcases List.mem_append.mp member with before | last
    · exact holds.nulFree before
    · exact notNul (List.mem_singleton.mp last).symm
  · obtain ⟨behind, rfl⟩ := holds.stored
    cases behind with
    | nil =>
        rw [List.append_nil, List.length_append, List.length_singleton] at room
        exact absurd room (Nat.lt_irrefl _)
    | cons next rest =>
        have shape : text ++ ['\x00'] ++ next :: rest =
            text ++ '\x00' :: next :: rest := by
          rw [List.append_assoc, List.singleton_append]
        rw [shape, List.set_append_right _ _ (Nat.le_refl _),
          List.set_append_right _ _ (Nat.le_add_right _ 1), Nat.sub_self,
          Nat.add_sub_cancel_left]
        exact ⟨rest, by simp⟩

theorem storeChars_length {array stored : CharArray} {offset : Nat}
    {chars : Text} (done : storeChars array offset chars = some stored) :
    stored.length = array.length := by
  rw [storeChars] at done
  split at done
  · obtain rfl := Option.some.inj done
    simp only [List.length_append, List.length_take, List.length_drop]
    omega
  · cases done

theorem strcpy_holds {array : CharArray} {before text : Text}
    (front : before <+: array) (nulFree : '\x00' ∉ before ++ text)
    (room : before.length + text.length < array.length) :
    ∃ stored, strcpy array before.length text = some stored ∧
      Holds stored (before ++ text) ∧ stored.length = array.length := by
  have inside : before.length + (text ++ ['\x00']).length ≤ array.length := by
    simp only [List.length_append, List.length_cons, List.length_nil]
    omega
  have done : strcpy array before.length text =
      some (array.take before.length ++ (text ++ ['\x00']) ++
        array.drop (before.length + (text ++ ['\x00']).length)) := by
    rw [strcpy, storeChars, if_pos inside]
  refine ⟨_, done, ⟨nulFree, ?_⟩, storeChars_length done⟩
  rw [← List.prefix_iff_eq_take.mp front, ← List.append_assoc before]
  exact List.prefix_append _ _

theorem snprintf_holds {array : CharArray} {before output : Text} (size : Nat)
    (front : before <+: array) (nulFree : '\x00' ∉ before ++ output)
    (inside : 0 < size) (room : before.length + size ≤ array.length) :
    ∃ stored, snprintf array before.length size output = some stored ∧
      Holds stored (before ++ output.take (size - 1)) ∧
      stored.length = array.length := by
  apply strcpy_holds front
  · intro member
    apply nulFree
    rw [List.mem_append] at member ⊢
    exact member.imp_right List.mem_of_mem_take
  · rw [List.length_take]
    omega

/-! ### Searching -/

/-- `strstr`, as the offset of the first occurrence. -/
def strstr (text pattern : Text) : Option Nat :=
  if pattern.isPrefixOf text then
    some 0
  else
    match text with
    | [] => none
    | _ :: rest => (strstr rest pattern).map (· + 1)

theorem strstr_eq_none {text pattern : Text} :
    strstr text pattern = none ↔ ∀ offset, ¬ pattern <+: text.drop offset := by
  induction text with
  | nil =>
      rw [strstr]
      split <;> rename_i found
      · rw [List.isPrefixOf_iff_prefix] at found
        refine ⟨nofun, fun absent => (absent 0 ?_).elim⟩
        simpa using found
      · rw [List.isPrefixOf_iff_prefix] at found
        simpa using found
  | cons char rest ih =>
      rw [strstr]
      split <;> rename_i found
      · rw [List.isPrefixOf_iff_prefix] at found
        exact ⟨nofun, fun absent => (absent 0 found).elim⟩
      · rw [List.isPrefixOf_iff_prefix] at found
        rw [Option.map_eq_none_iff, ih]
        constructor
        · intro absent offset
          cases offset with
          | zero => exact found
          | succ offset => exact absent offset
        · intro absent offset
          exact absent (offset + 1)

theorem strstr_eq_some {text pattern : Text} {position : Nat}
    (found : strstr text pattern = some position) :
    pattern <+: text.drop position ∧
      ∀ offset < position, ¬ pattern <+: text.drop offset := by
  induction text generalizing position with
  | nil =>
      rw [strstr] at found
      split at found <;> rename_i here
      · obtain rfl := Option.some.inj found
        exact ⟨List.isPrefixOf_iff_prefix.mp here, nofun⟩
      · cases found
  | cons char rest ih =>
      rw [strstr] at found
      split at found <;> rename_i here
      · obtain rfl := Option.some.inj found
        exact ⟨List.isPrefixOf_iff_prefix.mp here, nofun⟩
      · obtain ⟨later, foundLater, rfl⟩ := Option.map_eq_some_iff.mp found
        obtain ⟨occurs, first⟩ := ih foundLater
        refine ⟨occurs, ?_⟩
        intro offset before
        cases offset with
        | zero =>
            intro prefixed
            exact here (List.isPrefixOf_iff_prefix.mpr prefixed)
        | succ offset => exact first offset (by omega)

/-- `strchr`, as an offset. -/
def strchr (text : Text) (char : Char) : Option Nat := text.findIdx? (· == char)

theorem strchr_eq_none {text : Text} {char : Char}
    (absent : strchr text char = none) (index : Nat) :
    text[index]? ≠ some char := by
  intro found
  have different := List.findIdx?_eq_none_iff.mp absent char
    (List.mem_of_getElem? found)
  simp at different

theorem strchr_eq_some {text : Text} {char : Char} {position index : Nat}
    (found : strchr text char = some position) (before : index < position) :
    text[index]? ≠ some char := by
  obtain ⟨inside, -, first⟩ := List.findIdx?_eq_some_iff_getElem.mp found
  have different := first index before
  intro same
  rw [List.getElem?_eq_getElem (Nat.lt_trans before inside)] at same
  simp [Option.some.inj same] at different

/-! ### Space-separated tokens -/

def tokens (text : Text) : List Text := text.splitOn ' '

/-- Some token of the text starts with the option. -/
def HasToken (text option : Text) : Prop :=
  ∃ token ∈ tokens text, option <+: token

instance (text option : Text) : Decidable (HasToken text option) :=
  inferInstanceAs (Decidable (∃ token ∈ tokens text, option <+: token))

theorem hasToken_append_space (first second option : Text) :
    HasToken (first ++ ' ' :: second) option ↔
      HasToken first option ∨ HasToken second option := by
  simp only [HasToken, tokens, List.splitOn_append_cons_self, List.mem_append,
    or_and_right, exists_or]

theorem hasToken_of_spaceless {text option : Text} (spaceless : ' ' ∉ text) :
    HasToken text option ↔ option <+: text := by
  simp [HasToken, tokens, List.splitOn_eq_singleton spaceless]

/-- The option occurs at an offset where a token begins. -/
def TokenAt (text option : Text) (offset : Nat) : Prop :=
  option <+: text.drop offset ∧
    (offset = 0 ∨ text[offset - 1]? = some ' ')

theorem prefix_of_prefix_append_space {option first second : Text}
    (spaceless : ' ' ∉ option) (occurs : option <+: first ++ ' ' :: second) :
    option <+: first := by
  rcases Nat.lt_or_ge first.length option.length with longer | shorter
  · have reaches : first ++ [' '] <+: option := by
      apply List.prefix_of_prefix_length_le _ occurs
      · rw [List.length_append]
        exact longer
      · exact ⟨second, by simp⟩
    have inOption : ' ' ∈ option := reaches.subset (by simp)
    exact (spaceless inOption).elim
  · exact List.prefix_of_prefix_length_le occurs (List.prefix_append _ _) shorter

private theorem tokenAt_append_space {option first second : Text}
    (spaceless : ' ' ∉ option) (firstSpaceless : ' ' ∉ first) :
    (∃ offset, TokenAt (first ++ ' ' :: second) option offset) ↔
      option <+: first ∨ ∃ offset, TokenAt second option offset := by
  constructor
  · rintro ⟨offset, occurs, rfl | space⟩
    · exact .inl (prefix_of_prefix_append_space spaceless occurs)
    · have beyond : first.length ≤ offset - 1 := by
        by_contra inFirst
        rw [List.getElem?_append_left (by omega)] at space
        exact firstSpaceless (List.mem_of_getElem? space)
      rw [List.getElem?_append_right beyond] at space
      rcases Nat.eq_zero_or_pos offset with rfl | positive
      · have empty : first = [] := List.length_eq_zero_iff.mp (by omega)
        subst first
        exact .inl (prefix_of_prefix_append_space spaceless occurs)
      · refine .inr ⟨offset - (first.length + 1), ?_, ?_⟩
        · rw [List.drop_append, List.drop_eq_nil_of_le (by omega),
            List.nil_append, show offset - first.length =
              (offset - (first.length + 1)) + 1 by omega,
            List.drop_succ_cons] at occurs
          exact occurs
        · rcases Nat.eq_or_lt_of_le
            (show first.length + 1 ≤ offset by omega) with same | later
          · exact .inl (by omega)
          · rw [show offset - 1 - first.length =
              (offset - (first.length + 1) - 1) + 1 by omega,
              List.getElem?_cons_succ] at space
            exact .inr space
  · rintro (occurs | ⟨offset, occurs, boundary⟩)
    · exact ⟨0, occurs.trans (List.prefix_append _ _), .inl rfl⟩
    · refine ⟨first.length + 1 + offset, ?_, .inr ?_⟩
      · rw [List.drop_append, List.drop_eq_nil_of_le (by omega),
          List.nil_append, show first.length + 1 + offset - first.length =
            offset + 1 by omega, List.drop_succ_cons]
        exact occurs
      · rw [List.getElem?_append_right (by omega),
          show first.length + 1 + offset - 1 - first.length = offset by omega]
        rcases boundary with rfl | space
        · rfl
        · cases offset with
          | zero => rfl
          | succ offset => exact space

theorem hasToken_iff_tokenAt {text option : Text}
    (spaceless : ' ' ∉ option) :
    HasToken text option ↔ ∃ offset, TokenAt text option offset := by
  -- Induction on the length: cut the text at its first space.
  induction bound : text.length using Nat.strongRecOn generalizing text with
  | _ length ih =>
      by_cases spaced : ' ' ∈ text
      · obtain ⟨first, second, rfl, firstSpaceless⟩ :=
          List.eq_append_cons_of_mem spaced
        rw [hasToken_append_space, hasToken_of_spaceless firstSpaceless,
          tokenAt_append_space spaceless firstSpaceless,
          ih second.length (by simp at bound; omega) rfl]
      · rw [hasToken_of_spaceless spaced]
        constructor
        · intro occurs
          exact ⟨0, occurs, .inl rfl⟩
        · rintro ⟨offset, occurs, rfl | space⟩
          · exact occurs
          · exact (spaced (List.mem_of_getElem? space)).elim

end KernelReloaded.CText

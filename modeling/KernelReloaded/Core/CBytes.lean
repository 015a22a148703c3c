/-
C strings of bytes in a memory.

A string is what stands in front of the first zero, within a limit.  It depends on
nothing behind the zero, and a zero written into it cuts it there.
-/

import KernelReloaded.Core.Memory

namespace KernelReloaded.CBytes

open Memory (Byte Image)

def text (image : Image) : (start limit : Nat) → List Byte
  | _, 0 => []
  | start, limit + 1 =>
      if image start = 0 then [] else image start :: text image (start + 1) limit

/-- `strncpy`: nothing of the source behind its zero, and zeros up to the count. -/
def strncpy (dest source : Image) (count : Nat) : Image := fun place =>
  if place < count then
    if (List.range (place + 1)).all fun earlier => source earlier != 0 then source place
    else 0
  else dest place

/-- What `strtok` leaves of a string at its first token. -/
def firstToken (delimiter : Byte) (text : List Byte) : List Byte :=
  text.takeWhile (· == delimiter) ++
    (text.dropWhile (· == delimiter)).takeWhile (· != delimiter)

/-- The first call of `strtok`: a zero behind the token, where a delimiter ends
it. -/
def strtok (delimiter : Byte) (limit : Nat) (image : Image) : Image :=
  Function.update image (firstToken delimiter (text image 0 limit)).length 0

variable {image other source : Image} {start limit count : Nat}

theorem text_congr
    (same : ∀ index, index < limit →
      (∀ earlier, earlier < index → image (start + earlier) ≠ 0) →
        image (start + index) = other (start + index)) :
    text image start limit = text other start limit := by
  induction limit generalizing start with
  | zero => rfl
  | succ limit ih =>
      have first : image start = other start := by
        apply same 0 (Nat.succ_pos limit)
        intro earlier none
        exact absurd none (Nat.not_lt_zero earlier)
      rw [text, text, ← first]
      by_cases ends : image start = 0
      · rw [if_pos ends, if_pos ends]
      · rw [if_neg ends, if_neg ends]
        congr 1
        apply ih
        intro index inside before
        have found := same (index + 1) (by omega)
        rw [← Nat.add_assoc, Nat.add_right_comm] at found
        apply found
        intro earlier less
        cases earlier with
        | zero => exact ends
        | succ earlier =>
            rw [← Nat.add_assoc, Nat.add_right_comm]
            exact before earlier (by omega)

theorem take_text (image : Image) (start : Nat) (short : count ≤ limit) :
    (text image start limit).take count = text image start count := by
  induction count generalizing start limit with
  | zero => rfl
  | succ count ih =>
      obtain ⟨more, rfl⟩ := Nat.exists_eq_add_of_le short
      rw [Nat.add_right_comm, text, text]
      split
      · rfl
      · rw [List.take_succ_cons, ih (start + 1) (Nat.le_add_right count more)]

/-- A zero cuts the string. -/
theorem text_update (image : Image) (start limit count : Nat) :
    text (Function.update image (start + count) 0) start limit =
      (text image start limit).take count := by
  induction limit generalizing start count with
  | zero => rw [text, text, List.take_nil]
  | succ limit ih =>
      cases count with
      | zero =>
          rw [text, Nat.add_zero, Function.update_self, if_pos rfl, List.take_zero]
      | succ count =>
          have isOther : start ≠ start + (count + 1) := by omega
          rw [text, text, Function.update_of_ne isOther]
          by_cases ends : image start = 0
          · rw [if_pos ends, if_pos ends, List.take_nil]
          · have next := ih (start + 1) count
            rw [Nat.add_right_comm, Nat.add_assoc] at next
            rw [if_neg ends, if_neg ends, next, List.take_succ_cons]

theorem strncpy_of_text (dest : Image) {place : Nat} (inside : place < count)
    (before : ∀ earlier, earlier < place → source earlier ≠ 0) :
    strncpy dest source count place = source place := by
  rw [strncpy, if_pos inside]
  by_cases ends : source place = 0
  · rw [ends]
    exact ite_self 0
  · rw [if_pos]
    rw [List.all_eq_true]
    intro earlier member
    have less := List.mem_range.mp member
    rcases Nat.lt_succ_iff_lt_or_eq.mp less with less | rfl
    · simpa using before earlier less
    · simpa using ends

/-- A prefix that is cut off by a zero. -/
theorem text_cut {short : Nat} (small : short ≤ limit)
    (same : ∀ index, index < short →
      (∀ earlier, earlier < index → other earlier ≠ 0) →
        image index = other index) :
    text (Function.update image short 0) 0 limit = text other 0 short := by
  have cut := text_update image 0 limit short
  rw [Nat.zero_add] at cut
  rw [cut, take_text _ _ small]
  symm
  apply text_congr
  intro index inside before
  rw [Nat.zero_add]
  exact (same index inside (by simpa using before)).symm

theorem text_strncpy (dest source : Image) {short : Nat} (inside : short ≤ count)
    (small : short ≤ limit) :
    text (Function.update (strncpy dest source count) short 0) 0 limit =
      text source 0 short :=
  text_cut small fun _ less before =>
    strncpy_of_text dest (Nat.lt_of_lt_of_le less inside) before

theorem firstToken_begins (delimiter : Byte) (text : List Byte) :
    firstToken delimiter text <+: text := by
  have whole := List.takeWhile_append_dropWhile (p := (· == delimiter)) (l := text)
  rw [firstToken]
  conv => rhs; rw [← whole]
  exact (List.prefix_append_right_inj _).mpr (List.takeWhile_prefix _)

theorem text_strtok (delimiter : Byte) (limit : Nat) (image : Image) :
    text (strtok delimiter limit image) 0 limit =
      firstToken delimiter (text image 0 limit) := by
  have cut := text_update image 0 limit
    (firstToken delimiter (text image 0 limit)).length
  rw [Nat.zero_add] at cut
  rw [strtok, cut]
  exact (List.prefix_iff_eq_take.mp (firstToken_begins delimiter _)).symm

end KernelReloaded.CBytes

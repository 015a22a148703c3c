/-
Translation buffers whose entries map pairs of pages.

An entry maps two neighbouring pages of one size, each to a frame of its own.
It matches an address by the number of the pair, the next lower bit selects the
page.  When the ranges of the entries do not meet, the entry that matches an
address can be named, and a list of pages laid end to end covers a window.
-/

import Mathlib.Data.List.Pairwise
import Mathlib.Tactic.Ring

namespace KernelReloaded.PairTlb

structure Page where
  valid : Bool
  /-- Physical address of the first byte. -/
  frame : Nat
deriving DecidableEq

structure Entry where
  pageSize : Nat
  pairNumber : Nat
  even : Page
  odd : Page
  positive : 0 < pageSize
deriving DecidableEq

def Entry.Matches (entry : Entry) (address : Nat) : Prop :=
  address / (2 * entry.pageSize) = entry.pairNumber

instance (entry : Entry) (address : Nat) : Decidable (entry.Matches address) :=
  inferInstanceAs (Decidable (_ = _))

def Entry.page (entry : Entry) (address : Nat) : Page :=
  if address / entry.pageSize % 2 = 0 then entry.even else entry.odd

def Entry.physical (entry : Entry) (address : Nat) : Option Nat :=
  if (entry.page address).valid then
    some ((entry.page address).frame + address % entry.pageSize)
  else
    none

/-- What the first entry that matches makes of an address. -/
def translate (table : List Entry) (address : Nat) : Option Nat :=
  (table.find? fun entry => entry.Matches address).bind
    fun entry => entry.physical address

/-! ### Entries as ranges -/

def Entry.start (entry : Entry) : Nat :=
  entry.pairNumber * (2 * entry.pageSize)

def Entry.stop (entry : Entry) : Nat :=
  entry.start + 2 * entry.pageSize

theorem Entry.matches_iff (entry : Entry) (address : Nat) :
    entry.Matches address ↔ entry.start ≤ address ∧ address < entry.stop := by
  have positive := entry.positive
  unfold Entry.Matches Entry.stop Entry.start
  rw [Nat.div_eq_iff (by omega)]
  omega

/-- Neither entry matches an address of the other. -/
def Entry.Apart (left right : Entry) : Prop :=
  left.stop ≤ right.start ∨ right.stop ≤ left.start

instance (left right : Entry) : Decidable (left.Apart right) :=
  inferInstanceAs (Decidable (_ ∨ _))

theorem Entry.Apart.not_matches {left right : Entry} (apart : left.Apart right)
    {address : Nat} (found : right.Matches address) : ¬ left.Matches address := by
  rw [Entry.matches_iff] at found ⊢
  unfold Entry.Apart at apart
  omega

/-- In a table of entries that are apart, an address is translated by any entry
that matches it. -/
theorem translate_of_matches {table : List Entry}
    (apart : table.Pairwise Entry.Apart) {entry : Entry} (member : entry ∈ table)
    {address : Nat} (found : entry.Matches address) :
    translate table address = entry.physical address := by
  unfold translate
  induction table with
  | nil => cases member
  | cons first rest ih =>
      obtain ⟨firstApart, restApart⟩ := List.pairwise_cons.mp apart
      rcases List.mem_cons.mp member with rfl | inRest
      · rw [List.find?_cons_of_pos (by simpa using found), Option.bind_some]
      · have earlier : ¬ first.Matches address :=
          (firstApart entry inRest).not_matches found
        rw [List.find?_cons_of_neg (by simpa using earlier)]
        exact ih restApart inRest

/-- At most one entry of such a table matches. -/
theorem matches_unique {table : List Entry} (apart : table.Pairwise Entry.Apart)
    {left right : Nat} {entry entry' : Entry} {address : Nat}
    (atLeft : table[left]? = some entry) (atRight : table[right]? = some entry')
    (found : entry.Matches address) (found' : entry'.Matches address) :
    left = right := by
  obtain ⟨leftBound, rfl⟩ := List.getElem?_eq_some_iff.mp atLeft
  obtain ⟨rightBound, rfl⟩ := List.getElem?_eq_some_iff.mp atRight
  rcases Nat.lt_trichotomy left right with before | same | after
  · exact absurd found
      ((apart.rel_get_of_lt (a := ⟨left, leftBound⟩) (b := ⟨right, rightBound⟩)
        before).not_matches found')
  · exact same
  · exact absurd found'
      ((apart.rel_get_of_lt (a := ⟨right, rightBound⟩) (b := ⟨left, leftBound⟩)
        after).not_matches found)

/-! ### Pages -/

/-- One page of an entry with the range it maps. -/
structure Mapped where
  start : Nat
  size : Nat
  page : Page
deriving DecidableEq

def Entry.mapped (entry : Entry) : List Mapped :=
  [{ start := entry.start, size := entry.pageSize, page := entry.even },
    { start := entry.start + entry.pageSize
      size := entry.pageSize
      page := entry.odd }]

/-- The page number and the offset of an address in a page. -/
theorem page_offset (number : Nat) {pageSize offset : Nat} (small : offset < pageSize) :
    (pageSize * number + offset) / pageSize = number ∧
      (pageSize * number + offset) % pageSize = offset := by
  constructor
  · rw [Nat.mul_add_div (by omega), Nat.div_eq_of_lt small, Nat.add_zero]
  · rw [Nat.mul_add_mod, Nat.mod_eq_of_lt small]

theorem Entry.start_eq (entry : Entry) :
    entry.start = entry.pageSize * (2 * entry.pairNumber) := by
  unfold Entry.start
  ring

theorem Entry.physical_of_mapped {entry : Entry} {mapped : Mapped}
    (member : mapped ∈ entry.mapped) (valid : mapped.page.valid = true)
    {address : Nat} (fromStart : mapped.start ≤ address)
    (inside : address < mapped.start + mapped.size) :
    entry.Matches address ∧
      entry.physical address = some (mapped.page.frame + (address - mapped.start)) := by
  have range := entry.matches_iff address
  unfold Entry.stop at range
  unfold Entry.physical Entry.page
  unfold Entry.mapped at member
  rw [List.mem_cons, List.mem_singleton] at member
  rcases member with rfl | rfl <;> dsimp only at valid fromStart inside ⊢
  · refine ⟨range.mpr (by omega), ?_⟩
    obtain ⟨offset, rfl⟩ := Nat.exists_eq_add_of_le fromStart
    obtain ⟨number, remainder⟩ :=
      page_offset (2 * entry.pairNumber) (Nat.lt_of_add_lt_add_left inside)
    rw [Nat.add_sub_cancel_left, Entry.start_eq, number, remainder,
      if_pos (Nat.mul_mod_right 2 _), if_pos valid]
  · refine ⟨range.mpr (by omega), ?_⟩
    obtain ⟨offset, rfl⟩ := Nat.exists_eq_add_of_le fromStart
    obtain ⟨number, remainder⟩ :=
      page_offset (2 * entry.pairNumber + 1) (Nat.lt_of_add_lt_add_left inside)
    have oddStart : entry.start + entry.pageSize =
        entry.pageSize * (2 * entry.pairNumber + 1) := by
      rw [Entry.start_eq]
      ring
    have isOdd : (2 * entry.pairNumber + 1) % 2 ≠ 0 := by omega
    rw [Nat.add_sub_cancel_left, oddStart, number, remainder, if_neg isOdd,
      if_pos valid]

/-! ### Windows -/

/-- The pages lie end to end from `start` to `stop`. -/
def Tiles : Nat → List Mapped → Nat → Prop
  | start, [], stop => start = stop
  | start, mapped :: rest, stop =>
      mapped.start = start ∧ Tiles (start + mapped.size) rest stop

instance Tiles.decidable :
    (start : Nat) → (pages : List Mapped) → (stop : Nat) →
      Decidable (Tiles start pages stop)
  | start, [], stop => inferInstanceAs (Decidable (start = stop))
  | start, mapped :: rest, stop =>
      have := Tiles.decidable (start + mapped.size) rest stop
      inferInstanceAs
        (Decidable (mapped.start = start ∧ Tiles (start + mapped.size) rest stop))

theorem Tiles.covered {start stop : Nat} {pages : List Mapped}
    (tiles : Tiles start pages stop) {address : Nat}
    (fromStart : start ≤ address) (inside : address < stop) :
    ∃ mapped ∈ pages, mapped.start ≤ address ∧
      address < mapped.start + mapped.size := by
  induction pages generalizing start with
  | nil =>
      unfold Tiles at tiles
      omega
  | cons mapped rest ih =>
      obtain ⟨atStart, later⟩ := tiles
      by_cases here : address < start + mapped.size
      · exact ⟨mapped, List.mem_cons_self, by omega, by omega⟩
      · obtain ⟨other, member, found⟩ := ih later (by omega)
        exact ⟨other, List.mem_cons_of_mem mapped member, found⟩

/-- An address of a window is translated by the page of the window it is in. -/
theorem translate_of_tiles {table entries : List Entry}
    (apart : table.Pairwise Entry.Apart) (part : entries ⊆ table) {start stop : Nat}
    (tiles : Tiles start (entries.flatMap Entry.mapped) stop)
    (valid : ∀ mapped ∈ entries.flatMap Entry.mapped, mapped.page.valid = true)
    {address : Nat} (fromStart : start ≤ address) (inside : address < stop) :
    ∃ mapped ∈ entries.flatMap Entry.mapped,
      mapped.start ≤ address ∧ address < mapped.start + mapped.size ∧
        translate table address =
          some (mapped.page.frame + (address - mapped.start)) := by
  obtain ⟨mapped, member, low, high⟩ := tiles.covered fromStart inside
  obtain ⟨entry, inEntries, ofEntry⟩ := List.mem_flatMap.mp member
  obtain ⟨found, physical⟩ :=
    Entry.physical_of_mapped ofEntry (valid mapped member) low high
  refine ⟨mapped, member, low, high, ?_⟩
  rw [translate_of_matches apart (part inEntries) found, physical]

end KernelReloaded.PairTlb

/-
Menus: the entries, which of them is selected, and the page that is painted.

The selection is kept twice, as an index and as a flag of the entry.  Every
indexing of the vector is recorded with the size that the vector has then; what
an entry does when it is executed and what it draws are left out.
-/

import KernelReloaded.Core.CText
import KernelReloaded.Core.Transition

namespace KernelReloaded.Menus

open CText

structure MenuEntry where
  name : Text
  selected : Bool
  deriving DecidableEq

def MenuEntry.new (name : Text) : MenuEntry :=
  { name := name, selected := false }

structure Menu where
  selectedMenu : Int
  numberOfMenuEntries : Int
  menuVector : List MenuEntry
  positionX : Int
  positionY : Int
  title : Option Text
  numberOfMenuItems : Int
  accesses : List (Int × Nat)

def Menu.new (numberOfMenuItems : Int) : Menu :=
  { selectedMenu := 0
    numberOfMenuEntries := 0
    menuVector := []
    positionX := 0
    positionY := 0
    title := none
    numberOfMenuItems := numberOfMenuItems
    accesses := [] }

namespace Menu

variable (menu : Menu)

/-- `menuVector[index].setSelected(state)`. -/
def setSelected (index : Int) (state : Bool) : Menu :=
  { menu with
    menuVector :=
      if 0 ≤ index then
        menu.menuVector.modify index.toNat fun entry : MenuEntry =>
          { entry with selected := state }
      else menu.menuVector
    accesses := menu.accesses ++ [(index, menu.menuVector.length)] }

def selectMenuEntry (selection : Int) : Menu :=
  let menu := menu.setSelected menu.selectedMenu false
  let menu := { menu with selectedMenu := selection }
  menu.setSelected menu.selectedMenu true

/-- What the three ways to add an entry share. -/
def addEntry (name : Text) : Menu :=
  let menu :=
    { menu with menuVector := menu.menuVector ++ [MenuEntry.new name] }
  let menu := menu.selectMenuEntry menu.selectedMenu
  { menu with numberOfMenuEntries := menu.numberOfMenuEntries + 1 }

def addItem (name : Text) : Menu := menu.addEntry name

def addCheckItem (name : Text) : Menu := menu.addEntry name

/-- The entry is named by the value, and `name` is for the configuration. -/
def addMultiSelectionItem (_name : Text) (valueList : Nat → Text)
    (value : Nat) : Menu :=
  menu.addEntry (valueList value)

def selectUp : Menu :=
  let i := menu.selectedMenu - 1
  if i ≥ 0 then menu.selectMenuEntry i else menu

def selectDown : Menu :=
  let i := menu.selectedMenu + 1
  if i < menu.numberOfMenuEntries then menu.selectMenuEntry i else menu

/-- `execute` indexes the vector once. -/
def execute : Menu :=
  { menu with
    accesses := menu.accesses ++
      [(menu.selectedMenu, menu.menuVector.length)] }

def deleteAll : Menu :=
  { menu with numberOfMenuEntries := 0, selectedMenu := 0, menuVector := [] }

def deleteEntry (name : Text) : Menu :=
  match menu.menuVector.findIdx? fun entry => entry.name == name with
  | none => menu
  | some index =>
      { menu with
        menuVector := menu.menuVector.eraseIdx index
        numberOfMenuEntries := menu.numberOfMenuEntries - 1 }

end Menu

inductive MenuCall
  | addItem (name : Text)
  | addCheckItem (name : Text)
  | addMultiSelectionItem (name : Text) (valueList : Nat → Text) (value : Nat)
  | selectUp
  | selectDown
  | deleteEntry (name : Text)
  | deleteAll

def menuCall (menu : Menu) : MenuCall → Menu
  | .addItem name => menu.addItem name
  | .addCheckItem name => menu.addCheckItem name
  | .addMultiSelectionItem name valueList value =>
      menu.addMultiSelectionItem name valueList value
  | .selectUp => menu.selectUp
  | .selectDown => menu.selectDown
  | .deleteEntry name => menu.deleteEntry name
  | .deleteAll => menu.deleteAll

def afterCalls (items : Int) (calls : List MenuCall) : Menu :=
  calls.foldl menuCall (Menu.new items)

/-! ### What is wanted -/

/-- The entry at the index is the only one with the flag. -/
def OnlySelected (entries : List MenuEntry) (index : Int) : Prop :=
  ∀ (place : Nat) entry, entries[place]? = some entry →
    (entry.selected = true ↔ place = index)

def Inside (access : Int × Nat) : Prop := 0 ≤ access.1 ∧ access.1 < access.2

structure SelectionRight (menu : Menu) : Prop where
  counted : menu.numberOfMenuEntries = menu.menuVector.length
  selected : menu.menuVector ≠ [] →
    0 ≤ menu.selectedMenu ∧ menu.selectedMenu < menu.numberOfMenuEntries ∧
      OnlySelected menu.menuVector menu.selectedMenu
  inside : ∀ access ∈ menu.accesses, Inside access
  execute : menu.menuVector ≠ [] → ∀ access ∈ menu.execute.accesses, Inside access

/-- The entry to delete is behind the selected one, or the only one; or there is
none with the name. -/
def DeletesBehind (menu : Menu) (name : Text) : Prop :=
  ∀ index, menu.menuVector.findIdx? (fun entry => entry.name == name) =
      some index →
    menu.selectedMenu < index ∨ menu.menuVector.length = 1

/-! ### One call -/

/-- Between calls an empty menu has the selection at its first entry. -/
structure MenuInv (menu : Menu) : Prop where
  counted : menu.numberOfMenuEntries = menu.menuVector.length
  selected : (menu.menuVector = [] ∧ menu.selectedMenu = 0) ∨
    (0 ≤ menu.selectedMenu ∧ menu.selectedMenu < menu.menuVector.length ∧
      OnlySelected menu.menuVector menu.selectedMenu)
  inside : ∀ access ∈ menu.accesses, Inside access

variable {menu : Menu}

theorem menuInv_new (items : Int) : MenuInv (Menu.new items) :=
  ⟨rfl, Or.inl ⟨rfl, rfl⟩, nofun⟩

/-- No entry but the selected one has the flag. -/
def AtMostSelected (entries : List MenuEntry) (index : Int) : Prop :=
  ∀ (place : Nat) entry, entries[place]? = some entry →
    entry.selected = true → place = index

theorem setSelected_getElem? {index : Int} (low : 0 ≤ index) (state : Bool)
    {place : Nat} {entry : MenuEntry}
    (found : (menu.setSelected index state).menuVector[place]? = some entry) :
    ∃ before, menu.menuVector[place]? = some before ∧
      entry.selected =
        if (place : Int) = index then state else before.selected := by
  rw [Menu.setSelected] at found
  dsimp only at found
  rw [if_pos low, List.getElem?_modify] at found
  obtain ⟨before, atPlace, rfl⟩ := Option.map_eq_some_iff.mp found
  refine ⟨before, atPlace, ?_⟩
  by_cases same : index.toNat = place
  · rw [if_pos same, if_pos (by omega)]
  · rw [if_neg same, if_neg (by omega)]

theorem setSelected_length (index : Int) (state : Bool) :
    (menu.setSelected index state).menuVector.length =
      menu.menuVector.length := by
  rw [Menu.setSelected]
  dsimp only
  split
  · exact List.length_modify ..
  · rfl

/-- Selecting takes the flag from the old entry and gives it to the new one. -/
theorem selectMenuEntry_spec {selection : Int}
    (old : Inside (menu.selectedMenu, menu.menuVector.length))
    (new : Inside (selection, menu.menuVector.length))
    (atMost : AtMostSelected menu.menuVector menu.selectedMenu)
    (inside : ∀ access ∈ menu.accesses, Inside access) :
    (menu.selectMenuEntry selection).menuVector.length =
        menu.menuVector.length ∧
      OnlySelected (menu.selectMenuEntry selection).menuVector selection ∧
      ∀ access ∈ (menu.selectMenuEntry selection).accesses, Inside access := by
  refine ⟨?_, ?_, ?_⟩
  · exact (setSelected_length ..).trans (setSelected_length ..)
  · intro place entry found
    obtain ⟨middle, inMiddle, flag⟩ := setSelected_getElem? new.1 true found
    obtain ⟨before, atPlace, middleFlag⟩ :=
      setSelected_getElem? old.1 false inMiddle
    rw [flag]
    change (if (place : Int) = selection then true else middle.selected) =
      true ↔ (place : Int) = selection
    by_cases same : (place : Int) = selection
    · rw [if_pos same]
      exact ⟨fun _ => same, fun _ => rfl⟩
    · rw [if_neg same, middleFlag]
      refine ⟨?_, fun isSame => absurd isSame same⟩
      intro flagged
      split at flagged
      · cases flagged
      · rename_i notOld
        exact absurd (atMost place before atPlace flagged) notOld
  · intro access member
    rw [Menu.selectMenuEntry, Menu.setSelected] at member
    dsimp only at member
    rcases List.mem_append.mp member with earlier | last
    · rw [Menu.setSelected] at earlier
      rcases List.mem_append.mp earlier with before | first
      · exact inside access before
      · rw [List.mem_singleton.mp first]
        exact old
    · rw [List.mem_singleton.mp last, setSelected_length]
      exact new

theorem OnlySelected.atMost {entries : List MenuEntry} {index : Int}
    (only : OnlySelected entries index) : AtMostSelected entries index :=
  fun place entry found => (only place entry found).mp

theorem MenuInv.select (inv : MenuInv menu) {selection : Int}
    (old : Inside (menu.selectedMenu, menu.menuVector.length))
    (new : Inside (selection, menu.menuVector.length))
    (atMost : AtMostSelected menu.menuVector menu.selectedMenu) :
    MenuInv (menu.selectMenuEntry selection) := by
  obtain ⟨length, only, inside⟩ :=
    selectMenuEntry_spec old new atMost inv.inside
  refine ⟨inv.counted.trans (congrArg Int.ofNat length.symm), ?_, inside⟩
  refine Or.inr ⟨new.1, ?_, only⟩
  rw [length]
  exact new.2

theorem MenuInv.addEntry (inv : MenuInv menu) (name : Text) :
    MenuInv (menu.addEntry name) := by
  have low : 0 ≤ menu.selectedMenu := by
    rcases inv.selected with ⟨-, zero⟩ | ⟨low, -⟩
    · exact Int.le_of_eq zero.symm
    · exact low
  have high : menu.selectedMenu ≤ menu.menuVector.length := by
    rcases inv.selected with ⟨empty, zero⟩ | ⟨-, high, -⟩
    · rw [empty, zero]
      exact Int.le_refl 0
    · exact Int.le_of_lt high
  have atMost : AtMostSelected
      (menu.menuVector ++ [MenuEntry.new name])
      menu.selectedMenu := by
    intro place entry found flagged
    by_cases before : place < menu.menuVector.length
    · rw [List.getElem?_append_left before] at found
      rcases inv.selected with ⟨empty, -⟩ | ⟨-, -, only⟩
      · rw [empty] at before
        cases before
      · exact (only place entry found).mp flagged
    · rw [List.getElem?_append_right (Nat.not_lt.mp before)] at found
      have isNew := List.mem_singleton.mp (List.mem_of_getElem? found)
      rw [isNew] at flagged
      cases flagged
  have inside : Inside (menu.selectedMenu,
      (menu.menuVector ++ [MenuEntry.new name]).length) := by
    refine ⟨low, ?_⟩
    rw [List.length_append, List.length_singleton]
    change menu.selectedMenu < _
    omega
  let pushed : Menu :=
    { menu with menuVector := menu.menuVector ++ [MenuEntry.new name] }
  have pushedInside : Inside (pushed.selectedMenu, pushed.menuVector.length) :=
    inside
  obtain ⟨length, only, accesses⟩ :=
    selectMenuEntry_spec pushedInside pushedInside atMost inv.inside
  have longer : (pushed.selectMenuEntry pushed.selectedMenu).menuVector.length =
      menu.menuVector.length + 1 := by
    rw [length, List.length_append, List.length_singleton]
  refine ⟨?_, Or.inr ⟨low, ?_, only⟩, accesses⟩
  · change menu.numberOfMenuEntries + 1 =
      ((pushed.selectMenuEntry pushed.selectedMenu).menuVector.length : Int)
    rw [longer, inv.counted]
    rfl
  · change menu.selectedMenu <
      ((pushed.selectMenuEntry pushed.selectedMenu).menuVector.length : Int)
    rw [longer]
    omega

theorem MenuInv.selectUp (inv : MenuInv menu) : MenuInv menu.selectUp := by
  rw [Menu.selectUp]
  split
  · rename_i above
    rcases inv.selected with ⟨-, zero⟩ | ⟨low, high, only⟩
    · rw [zero] at above
      cases above
    · have new : Inside (menu.selectedMenu - 1, menu.menuVector.length) :=
        ⟨above, Int.lt_of_le_of_lt (Int.sub_le_self _ (by decide)) high⟩
      exact inv.select ⟨low, high⟩ new only.atMost
  · exact inv

theorem MenuInv.selectDown (inv : MenuInv menu) : MenuInv menu.selectDown := by
  rw [Menu.selectDown]
  split
  · rename_i below
    rw [inv.counted] at below
    rcases inv.selected with ⟨empty, zero⟩ | ⟨low, high, only⟩
    · rw [empty, zero] at below
      cases below
    · have new : Inside (menu.selectedMenu + 1, menu.menuVector.length) :=
        ⟨Int.le_trans low (Int.le_add_of_nonneg_right (by decide)), below⟩
      exact inv.select ⟨low, high⟩ new only.atMost
  · exact inv

theorem deleteEntry_of_found {name : Text} {index : Nat}
    (found : menu.menuVector.findIdx? (fun entry => entry.name == name) =
      some index) :
    menu.deleteEntry name =
      { menu with
        menuVector := menu.menuVector.eraseIdx index
        numberOfMenuEntries := menu.numberOfMenuEntries - 1 } := by
  rw [Menu.deleteEntry, found]

/-- Behind the deleted entry the others move up by one. -/
theorem OnlySelected.erased {entries : List MenuEntry} {index : Nat}
    {selected : Int} (only : OnlySelected entries selected)
    (behind : selected < index) :
    OnlySelected (entries.eraseIdx index) selected := by
  intro place entry found
  rw [List.getElem?_eraseIdx] at found
  split at found
  · exact only place entry found
  · rename_i after
    have notSelected : ¬ ((place + 1 : Nat) : Int) = selected := by omega
    have isOther : ¬ (place : Int) = selected := by omega
    have flag := only (place + 1) entry found
    exact ⟨fun flagged => absurd (flag.mp flagged) notSelected,
      fun same => absurd same isOther⟩

theorem MenuInv.deleteEntry (inv : MenuInv menu) {name : Text}
    (behind : DeletesBehind menu name) : MenuInv (menu.deleteEntry name) := by
  cases found : menu.menuVector.findIdx? (fun entry => entry.name == name) with
  | none =>
      rw [Menu.deleteEntry, found]
      exact inv
  | some index =>
      have inside : index < menu.menuVector.length :=
        (List.findIdx?_eq_some_iff_findIdx_eq.mp found).1
      have length : (menu.menuVector.eraseIdx index).length =
          menu.menuVector.length - 1 := List.length_eraseIdx_of_lt inside
      rw [deleteEntry_of_found found]
      refine ⟨?_, ?_, inv.inside⟩
      · dsimp only
        rw [length, inv.counted]
        omega
      · dsimp only
        rcases inv.selected with ⟨empty, -⟩ | ⟨low, high, only⟩
        · rw [empty] at inside
          cases inside
        · rcases behind index found with later | single
          · refine Or.inr ⟨low, ?_, only.erased later⟩
            rw [length]
            omega
          · refine Or.inl ⟨?_, by omega⟩
            rw [← List.length_eq_zero_iff, length, single]

theorem MenuInv.call (inv : MenuInv menu) (call : MenuCall)
    (behind : ∀ name, call = .deleteEntry name → DeletesBehind menu name) :
    MenuInv (menuCall menu call) := by
  cases call with
  | addItem name => exact inv.addEntry name
  | addCheckItem name => exact inv.addEntry name
  | addMultiSelectionItem name valueList value =>
      exact inv.addEntry (valueList value)
  | selectUp => exact inv.selectUp
  | selectDown => exact inv.selectDown
  | deleteEntry name => exact inv.deleteEntry (behind name rfl)
  | deleteAll => exact ⟨rfl, Or.inl ⟨rfl, rfl⟩, inv.inside⟩

theorem MenuInv.right (inv : MenuInv menu) : SelectionRight menu := by
  have selected (nonempty : menu.menuVector ≠ []) :
      0 ≤ menu.selectedMenu ∧ menu.selectedMenu < menu.menuVector.length ∧
        OnlySelected menu.menuVector menu.selectedMenu := by
    rcases inv.selected with ⟨empty, -⟩ | selected
    · exact absurd empty nonempty
    · exact selected
  refine ⟨inv.counted, ?_, inv.inside, ?_⟩
  · rw [inv.counted]
    exact selected
  · intro nonempty access member
    obtain ⟨low, high, -⟩ := selected nonempty
    rcases List.mem_append.mp member with earlier | last
    · exact inv.inside access earlier
    · rw [List.mem_singleton.mp last]
      exact ⟨low, high⟩

/-- If the deleted entry is not behind the selected one, the entry that has
moved to the selected place has no flag. -/
theorem MenuInv.deletesBehind (inv : MenuInv menu) {name : Text}
    (right : SelectionRight (menu.deleteEntry name)) :
    DeletesBehind menu name := by
  intro index found
  have inside : index < menu.menuVector.length :=
    (List.findIdx?_eq_some_iff_findIdx_eq.mp found).1
  have length : (menu.menuVector.eraseIdx index).length =
      menu.menuVector.length - 1 := List.length_eraseIdx_of_lt inside
  by_contra wrong
  obtain ⟨notBehind, several⟩ := not_or.mp wrong
  rcases inv.selected with ⟨empty, -⟩ | ⟨low, high, only⟩
  · rw [empty] at inside
    cases inside
  · rw [deleteEntry_of_found found] at right
    have nonempty : menu.menuVector.eraseIdx index ≠ [] := by
      rw [← List.length_pos_iff, length]
      omega
    obtain ⟨-, below, onlyAfter⟩ := right.selected nonempty
    have counted := inv.counted
    dsimp only at below onlyAfter
    have place : menu.selectedMenu = (menu.selectedMenu.toNat : Int) := by omega
    have inList : menu.selectedMenu.toNat + 1 < menu.menuVector.length := by
      omega
    have moved : (menu.menuVector.eraseIdx index)[menu.selectedMenu.toNat]? =
        some menu.menuVector[menu.selectedMenu.toNat + 1] := by
      rw [List.getElem?_eraseIdx, if_neg (by omega),
        List.getElem?_eq_getElem inList]
    have flagged := (onlyAfter _ _ moved).mpr place.symm
    have same := (only _ _ (List.getElem?_eq_getElem inList)).mp flagged
    omega

/-! ### Runs -/

/-- The selection is right after all calls exactly when every deleted entry is
behind the selected one or the only one. -/
theorem menu_selectionRight_iff (items : Int) (calls : List MenuCall) :
    (∀ done, done <+: calls → SelectionRight (afterCalls items done)) ↔
      ∀ before name after, calls = before ++ .deleteEntry name :: after →
        DeletesBehind (afterCalls items before) name := by
  have throughout : (∀ done, done <+: calls →
      SelectionRight (afterCalls items done)) ↔
      ∀ before call after, calls = before ++ call :: after →
        ∀ name, call = .deleteEntry name →
          DeletesBehind (afterCalls items before) name := by
    have kept (menu : Menu) (call : MenuCall) (inv : MenuInv menu)
        (behind : ∀ name, call = .deleteEntry name → DeletesBehind menu name) :
        MenuInv (menuCall menu call) := inv.call call behind
    have needed (menu : Menu) (call : MenuCall) (inv : MenuInv menu)
        (right : SelectionRight (menuCall menu call)) :
        ∀ name, call = .deleteEntry name → DeletesBehind menu name := by
      rintro name rfl
      exact inv.deletesBehind right
    exact foldl_right_iff (menuInv_new items) (fun _menu inv => inv.right)
      kept needed calls
  rw [throughout]
  constructor
  · intro behind before name after split
    exact behind before _ after split name rfl
  · rintro behind before call after split name rfl
    exact behind before name after split

def twoItems : List MenuCall :=
  [.addItem "Boot".toList, .addItem "Back".toList, .deleteEntry "Boot".toList]

/-- Without its first entry a menu of two has no entry with the flag. -/
theorem twoItems_unselected :
    ¬ ∀ items calls, SelectionRight (afterCalls items calls) := by
  intro right
  have two := right 12 twoItems
  obtain ⟨-, -, only⟩ := two.selected (by decide)
  have flag := only 0 { name := "Back".toList, selected := false } (by decide)
  exact absurd (flag.mpr (by decide)) (by decide)

/-! ### The page -/

structure Painted where
  entry : MenuEntry
  x : Int
  y : Int
  z : Int

namespace Menu

variable (menu : Menu)

def start : Int :=
  let start : Int := 0
  if menu.numberOfMenuEntries > menu.numberOfMenuItems then
    if menu.numberOfMenuEntries - start < menu.numberOfMenuItems then
      menu.numberOfMenuEntries - menu.numberOfMenuItems
    else
      let start := menu.selectedMenu - menu.numberOfMenuItems.tdiv 2
      if start < 0 then 0 else start
  else start

def paintLoop (start items x : Int) :
    List MenuEntry → (c y z : Int) → List Painted
  | [], _, _, _ => []
  | entry :: rest, c, y, z =>
      let painted := if c ≥ start then
          [{ entry := entry, x := x, y := y, z := z }]
        else []
      let y := if c ≥ start then y + 26 else y
      let z := if c ≥ start then z + 2 else z
      let c := c + 1
      if c - start ≥ items then painted
      else painted ++ paintLoop start items x rest c y z

/-- The height of the title's font is a parameter. -/
def paint (titleHeight : Int) : List Painted :=
  let y := if menu.title.isSome then menu.positionY + (titleHeight + 3) + 8
    else menu.positionY
  paintLoop menu.start menu.numberOfMenuItems menu.positionX menu.menuVector 0
    y 2

end Menu

/-- As many entries in a row as fit the page, the selected one among them. -/
structure PageRight (menu : Menu) (painted : List Painted) : Prop where
  number : (painted.length : Int) =
    min menu.numberOfMenuEntries menu.numberOfMenuItems
  consecutive : ∃ first : Nat,
    painted.map Painted.entry =
        (menu.menuVector.drop first).take painted.length ∧
      first ≤ menu.selectedMenu ∧
      menu.selectedMenu < first + painted.length

/-- The count is that of the entries, one is selected, and the page has room. -/
structure Paintable (menu : Menu) : Prop where
  counted : menu.numberOfMenuEntries = menu.menuVector.length
  low : 0 ≤ menu.selectedMenu
  high : menu.selectedMenu < menu.numberOfMenuEntries
  room : 1 ≤ menu.numberOfMenuItems

theorem paintLoop_visible {start items x : Int} (entries : List MenuEntry)
    {c y z : Int} (visible : start ≤ c) (room : c - start < items) :
    (Menu.paintLoop start items x entries c y z).map Painted.entry =
      entries.take (items - (c - start)).toNat := by
  induction entries generalizing c y z with
  | nil =>
      rw [Menu.paintLoop, List.map_nil, List.take_nil]
  | cons entry rest ih =>
      rw [Menu.paintLoop, if_pos visible]
      by_cases last : c + 1 - start ≥ items
      · have one : (items - (c - start)).toNat = 1 := by omega
        rw [if_pos last, one]
        rfl
      · have more : (items - (c - start)).toNat =
            (items - (c + 1 - start)).toNat + 1 := by omega
        rw [if_neg last, List.map_append, ih (by omega) (by omega), more]
        rfl

theorem paintLoop_entries {start items x : Int} (entries : List MenuEntry)
    {c y z : Int} (before : c ≤ start) (room : 1 ≤ items) :
    (Menu.paintLoop start items x entries c y z).map Painted.entry =
      (entries.drop (start - c).toNat).take items.toNat := by
  induction entries generalizing c y z with
  | nil =>
      rw [Menu.paintLoop, List.map_nil, List.drop_nil, List.take_nil]
  | cons entry rest ih =>
      by_cases here : start ≤ c
      · have none : (start - c).toNat = 0 := by omega
        have whole : items - (c - start) = items := by omega
        rw [paintLoop_visible _ here (by omega), none, whole, List.drop_zero]
      · have one : (start - c).toNat = (start - (c + 1)).toNat + 1 := by omega
        rw [Menu.paintLoop, if_neg here, if_neg (by omega), List.nil_append,
          ih (by omega), one, List.drop_succ_cons]

/-- A menu that does not fit begins half a page above the selected entry. -/
theorem Paintable.start_eq {menu : Menu} (paintable : Paintable menu) :
    menu.start =
      if menu.numberOfMenuEntries ≤ menu.numberOfMenuItems then 0
      else max 0 (menu.selectedMenu - menu.numberOfMenuItems / 2) := by
  have room := paintable.room
  have half : menu.numberOfMenuItems.tdiv 2 = menu.numberOfMenuItems / 2 :=
    Int.tdiv_eq_ediv_of_nonneg (by omega)
  rw [Menu.start, half]
  by_cases fits : menu.numberOfMenuEntries ≤ menu.numberOfMenuItems
  · rw [if_pos fits, if_neg (Int.not_lt.mpr fits)]
  · rw [if_neg fits, if_pos (Int.not_le.mp fits), if_neg (by omega)]
    dsimp only
    split <;> omega

/-- The page is full exactly when the menu fits it, or the selected entry is at
least half a page from the end. -/
theorem paint_right_iff (menu : Menu) (titleHeight : Int)
    (paintable : Paintable menu) :
    PageRight menu (menu.paint titleHeight) ↔
      menu.numberOfMenuEntries ≤ menu.numberOfMenuItems ∨
        menu.selectedMenu +
            (menu.numberOfMenuItems - menu.numberOfMenuItems.tdiv 2) ≤
          menu.numberOfMenuEntries := by
  have start := paintable.start_eq
  have nonneg : 0 ≤ menu.start := by
    rw [start]
    split <;> omega
  have entries : (menu.paint titleHeight).map Painted.entry =
      (menu.menuVector.drop menu.start.toNat).take
        menu.numberOfMenuItems.toNat := by
    have loop := paintLoop_entries (x := menu.positionX) menu.menuVector
      (y := if menu.title.isSome then
        menu.positionY + (titleHeight + 3) + 8 else menu.positionY) (z := 2)
      nonneg paintable.room
    rw [Int.sub_zero] at loop
    exact loop
  have number := congrArg List.length entries
  rw [List.length_map, List.length_take, List.length_drop] at number
  obtain ⟨counted, low, high, room⟩ := paintable
  have half : menu.numberOfMenuItems.tdiv 2 = menu.numberOfMenuItems / 2 :=
    Int.tdiv_eq_ediv_of_nonneg (by omega)
  rw [half]
  constructor
  · intro right
    have full := right.number
    split at start <;> omega
  · intro condition
    have full : ((menu.paint titleHeight).length : Int) =
        min menu.numberOfMenuEntries menu.numberOfMenuItems := by
      split at start <;> omega
    have shown : (menu.start.toNat : Int) ≤ menu.selectedMenu ∧
        menu.selectedMenu <
          menu.start.toNat + (menu.paint titleHeight).length := by
      split at start <;> omega
    refine ⟨full, menu.start.toNat, ?_, shown⟩
    rw [entries, number, List.take_eq_take_iff, List.length_drop]
    omega

/-- Four entries on pages of three, with the selection moved down. -/
def fourItems (down : Nat) : Menu :=
  afterCalls 3 ((["Boot", "Files", "Setup", "Info"].map fun name =>
    MenuCall.addItem name.toList) ++ List.replicate down .selectDown)

theorem fourItems_page : PageRight (fourItems 1) ((fourItems 1).paint 20) :=
  (paint_right_iff (fourItems 1) 20
    ⟨by decide, by decide, by decide, by decide⟩).mpr (Or.inr (by decide))

/-- With the last of them selected only two are painted. -/
theorem fourItems_short :
    ¬ ∀ menu titleHeight, Paintable menu →
      PageRight menu (menu.paint titleHeight) := by
  intro right
  have page := right (fourItems 3) 20 ⟨by decide, by decide, by decide, by decide⟩
  exact absurd page.number (by decide)

end KernelReloaded.Menus

/-
The file browser of the menu: `fsroot`, `fsDir` and `fsFile`.

Every root (`cusbParam`, `kmc0Param`, `cdfsParam` and the others) keeps its path
and its file menu; the array `fsDirParam` behind the entries is shared by all of
them.  Opening a directory delivers the entries that `fileXioDread` returns, or
fails.  What the file menu was filled from is recorded next to its items, only
to be compared with the path.

Stopping the disc, the icons and the title of the menu are left out.
-/

import KernelReloaded.Core.Transition
import KernelReloaded.Loader.Configuration
import Mathlib.Data.List.Forall2

namespace KernelReloaded.FileBrowser

open CText

def maxEntries : Nat := 256

def maxFileLen : Nat := 256

def maxPathLen : Nat := maxInputLen

/-! ### Roots -/

inductive Target where
  | configfile
  | kernelFilename
  | initrdFilename
deriving DecidableEq

inductive Medium where
  | usb
  | mc0
  | mc1
  | host
  | cdfs
deriving DecidableEq

/-- The menus that are not filled from a directory. -/
inductive PlainMenu where
  | bootMenu
  | advancedMenu
  | fileMenu
  | configFileMenu
  | linuxMenu
  | initrdMenu
  | other (index : Nat)
deriving DecidableEq

/-- A `fsRootParam_t` of `initMenu`: one for each text and medium. -/
structure FsRoot where
  target : Target
  medium : Medium
deriving DecidableEq

def FsRoot.mainMenu (root : FsRoot) : PlainMenu :=
  match root.target with
  | .configfile => .fileMenu
  | .kernelFilename => .advancedMenu
  | .initrdFilename => .advancedMenu

def FsRoot.menu (root : FsRoot) : PlainMenu :=
  match root.target with
  | .configfile => .configFileMenu
  | .kernelFilename => .linuxMenu
  | .initrdFilename => .initrdMenu

def FsRoot.fsName (root : FsRoot) : Text :=
  match root.medium with
  | .usb => "mass0:".toList
  | .mc0 => "mc0:".toList
  | .mc1 => "mc1:".toList
  | .host => "host:".toList
  | .cdfs => "cdfs:".toList

/-! ### The array of a path -/

/-- The string in `fileName[MAX_PATH_LEN]`, and whether all writes so far were
inside of the array. -/
structure PathBuffer where
  text : Text
  inside : Bool
deriving DecidableEq

def PathBuffer.strcpyAt (buffer : PathBuffer) (offset : Nat) (text : Text) :
    PathBuffer :=
  { text := buffer.text.take offset ++ text
    inside := buffer.inside && decide (offset + text.length < maxPathLen) }

def PathBuffer.strcat (buffer : PathBuffer) (text : Text) : PathBuffer :=
  buffer.strcpyAt buffer.text.length text

/-- `fileName[offset] = 0`. -/
def PathBuffer.setEnd (buffer : PathBuffer) (offset : Nat) : PathBuffer :=
  buffer.strcpyAt offset []

/-- `fileName[offset] = char` of the NUL; a copy behind it ends the string
again. -/
def PathBuffer.setChar (buffer : PathBuffer) (offset : Nat) (char : Char) :
    PathBuffer :=
  { text := buffer.text.take offset ++ [char]
    inside := buffer.inside && decide (offset < maxPathLen) }

def strrchr (text : Text) (char : Char) : Option Nat :=
  if char ∈ text then some (text.length - 1 - text.reverse.idxOf char)
  else none

/-! ### Directories and menus -/

structure DirEntry where
  name : Text
  mode : Nat
deriving DecidableEq

def DirEntry.isDirectory (entry : DirEntry) : Bool := entry.mode.testBit 12

def dot : Text := ['.']

def dotDot : Text := ['.', '.']

structure FsDirParam where
  rootParam : FsRoot
  name : Text
deriving DecidableEq

/-- The entries of a file menu; `fsDir` and `fsFile` get the address of an
element of `fsDirParam`. -/
inductive MenuItem where
  | back
  | fsDir (param : Nat)
  | fsFile (param : Nat)
deriving DecidableEq

structure Listing where
  path : Text
  isRoot : Bool
  entries : List DirEntry
deriving DecidableEq

structure FileMenu where
  items : List MenuItem
  filledFrom : Option Listing

structure RootState where
  fileName : PathBuffer
  fileMenu : Option FileMenu

inductive CurrentMenu where
  | plain (menu : PlainMenu)
  | files (root : FsRoot)
deriving DecidableEq

structure FsState where
  currentMenu : CurrentMenu
  roots : FsRoot → RootState
  fsDirParam : Nat → Option FsDirParam
  targets : Target → Text
  errors : List Text

def FsState.fileName (state : FsState) (root : FsRoot) : PathBuffer :=
  (state.roots root).fileName

def FsState.setFileName (state : FsState) (root : FsRoot)
    (fileName : PathBuffer) : FsState :=
  { state with
    roots := Function.update state.roots root
      { state.roots root with fileName := fileName } }

def FsState.setFileMenu (state : FsState) (root : FsRoot)
    (fileMenu : FileMenu) : FsState :=
  { state with
    roots := Function.update state.roots root
      { state.roots root with fileMenu := some fileMenu } }

@[simp] theorem FsState.setFileName_roots (state : FsState) (root : FsRoot)
    (fileName : PathBuffer) :
    (state.setFileName root fileName).roots =
      Function.update state.roots root
        { fileName := fileName, fileMenu := (state.roots root).fileMenu } :=
  rfl

@[simp] theorem FsState.setFileMenu_roots (state : FsState) (root : FsRoot)
    (fileMenu : FileMenu) :
    (state.setFileMenu root fileMenu).roots =
      Function.update state.roots root
        { fileName := state.fileName root, fileMenu := some fileMenu } :=
  rfl

def FsState.errorPrintf (state : FsState) (message : Text) : FsState :=
  { state with errors := state.errors ++ [message] }

/-! ### The functions of the browser -/

/-- The loop over `fileXioDread`: fills `fsDirParam` from an index on and
delivers the items it adds. -/
def readEntries (root : FsRoot) (isRoot : Bool) : List DirEntry → Nat →
    (Nat → Option FsDirParam) → (Nat → Option FsDirParam) × List MenuItem
  | [], _, params => (params, [])
  | entry :: rest, i, params =>
      if entry.name = dot then
        readEntries root isRoot rest i params
      else
        let name := entry.name.take (maxFileLen - 1)
        let params := Function.update params i
          (some { rootParam := root, name := name })
        if entry.isDirectory ∧ name = dotDot ∧ isRoot then
          readEntries root isRoot rest i params
        else
          let item := if entry.isDirectory then .fsDir i else .fsFile i
          if i + 1 ≥ maxEntries then
            (params, [item])
          else
            let (params, items) := readEntries root isRoot rest (i + 1) params
            (params, item :: items)

/-- `none` is a directory that `fileXioDopen` does not open. -/
def fsGenerateDirListMenu (root : FsRoot) (isRoot : Bool)
    (opened : Option (List DirEntry)) (state : FsState) : FsState :=
  let path := (state.fileName root).text
  match opened with
  | some entries =>
      let (params, items) := readEntries root isRoot entries 0
        state.fsDirParam
      let state := state.setFileMenu root
        { items := .back :: items
          filledFrom := some
            { path := path, isRoot := isRoot, entries := entries } }
      { state with fsDirParam := params, currentMenu := .files root }
  | none =>
      state.errorPrintf ("Error while reading directory \"".toList ++ path ++
        "\". Is medium inserted?".toList)

def fsDir (param : FsDirParam) (opened : Option (List DirEntry))
    (state : FsState) : FsState :=
  let root := param.rootParam
  let fileName := state.fileName root
  if param.name ≠ dotDot then
    if fileName.text.length + param.name.length + 2 < maxPathLen then
      fsGenerateDirListMenu root false opened
        (state.setFileName root ((fileName.strcat ['/']).strcat param.name))
    else
      state.errorPrintf "Path is too long.\n".toList
  else
    fsGenerateDirListMenu root false opened
      (state.setFileName root
        (match strrchr fileName.text '/' with
        | some p => fileName.setEnd p
        | none => fileName.strcpyAt 0 root.fsName))

def fsFile (param : FsDirParam) (state : FsState) : FsState :=
  let root := param.rootParam
  let fileName := state.fileName root
  if fileName.text.length + param.name.length + 2 < maxPathLen then
    let i := fileName.text.length
    let fileName := fileName.setChar i '/'
    let fileName := fileName.strcpyAt (i + 1) param.name
    let fileName := fileName.setEnd (i + 1 + param.name.length)
    let state := state.setFileName root fileName
    { state with
      targets := Function.update state.targets root.target fileName.text
      currentMenu := .plain root.mainMenu }
  else
    state.errorPrintf "Filename is too long.\n".toList

def fsroot (root : FsRoot) (opened : Option (List DirEntry))
    (state : FsState) : FsState :=
  let state := match (state.roots root).fileMenu with
    | some _ => state
    | none => state.setFileMenu root { items := [], filledFrom := none }
  fsGenerateDirListMenu root true opened
    (state.setFileName root ((state.fileName root).strcpyAt 0 root.fsName))

/-! ### The machine -/

inductive FsEvent where
  | fsroot (root : FsRoot) (opened : Option (List DirEntry))
  | select (index : Nat) (opened : Option (List DirEntry))
  | setCurrentMenu (menu : PlainMenu)

/-- The selected item of the visible file menu. -/
def FsState.item (state : FsState) (index : Nat) : Option MenuItem :=
  match state.currentMenu with
  | .plain _ => none
  | .files root =>
      (state.roots root).fileMenu.bind fun fileMenu => fileMenu.items[index]?

def FsState.root (state : FsState) : Option FsRoot :=
  match state.currentMenu with
  | .plain _ => none
  | .files root => some root

def MenuItem.execute (item : MenuItem) (root : FsRoot)
    (opened : Option (List DirEntry)) (state : FsState) : Option FsState :=
  match item with
  | .back => some { state with currentMenu := .plain root.menu }
  | .fsDir param => (state.fsDirParam param).map fun param =>
      FileBrowser.fsDir param opened state
  | .fsFile param => (state.fsDirParam param).map fun param =>
      FileBrowser.fsFile param state

/-- `fsroot` is called from the menu of its root, `fsDir` and `fsFile` from the
visible file menu.  A file menu can be left for any other menu. -/
def fsStep (state : FsState) : FsEvent → Option FsState
  | .fsroot root opened =>
      if state.currentMenu = .plain root.menu then
        some (fsroot root opened state)
      else
        none
  | .select index opened => do
      let root ← state.root
      let item ← state.item index
      item.execute root opened state
  | .setCurrentMenu menu => some { state with currentMenu := .plain menu }

def fsMachine : Machine FsState FsEvent where
  initial :=
    { currentMenu := .plain .bootMenu
      roots := fun _ =>
        { fileName := { text := [], inside := true }, fileMenu := none }
      fsDirParam := fun _ => none
      targets := fun _ => []
      errors := [] }
  step := fsStep

/-! ### What the browser should do -/

structure ShownEntry where
  name : Text
  folder : Bool
deriving DecidableEq

def DirEntry.shown (entry : DirEntry) : ShownEntry :=
  { name := entry.name.take (maxFileLen - 1), folder := entry.isDirectory }

/-- The directory itself is never shown, and its parent not in the root. -/
def DirEntry.isShown (isRoot : Bool) (entry : DirEntry) : Bool :=
  decide (entry.name ≠ dot ∧
    ¬ (entry.isDirectory ∧ entry.name.take (maxFileLen - 1) = dotDot ∧ isRoot))

def shownEntries (isRoot : Bool) (entries : List DirEntry) : List ShownEntry :=
  (entries.filter (DirEntry.isShown isRoot)).map DirEntry.shown

def Listing.shown (listing : Listing) : List ShownEntry :=
  (shownEntries listing.isRoot listing.entries).take maxEntries

/-- The item calls the function for the kind of entry, with its root and
name. -/
def MenuItem.Shows (root : FsRoot) (params : Nat → Option FsDirParam)
    (item : MenuItem) (entry : ShownEntry) : Prop :=
  ∃ index, params index = some { rootParam := root, name := entry.name } ∧
    item = if entry.folder then .fsDir index else .fsFile index

/-- The file menu of a root lists the entries of a directory. -/
def FsState.Lists (state : FsState) (root : FsRoot) (listing : Listing) :
    Prop :=
  ∃ items, (state.roots root).fileMenu =
      some { items := .back :: items, filledFrom := some listing } ∧
    List.Forall₂ (MenuItem.Shows root state.fsDirParam) items listing.shown

structure BrowserRight (state : FsState) : Prop where
  inside : ∀ root, (state.fileName root).inside = true
  listed : ∀ root, state.currentMenu = .files root →
    ∃ listing, state.Lists root listing ∧
      (state.fileName root).text = listing.path

/-- Selecting a file stores the path of the directory that the menu lists, with
the name of the entry; a path that does not fit is not stored. -/
def FilesRight (state : FsState) : Prop :=
  ∀ root listing position entry opened,
    state.currentMenu = .files root → state.Lists root listing →
    listing.shown[position]? = some entry → entry.folder = false →
      ∃ next, fsStep state (.select (position + 1) opened) = some next ∧
        next.targets =
          if listing.path.length + entry.name.length + 2 < maxPathLen then
            Function.update state.targets root.target
              (listing.path ++ '/' :: entry.name)
          else
            state.targets

/-! ### The condition -/

def FsState.selectedDir (state : FsState) (index : Nat) : Option FsDirParam :=
  match state.item index with
  | some (.fsDir param) => state.fsDirParam param
  | _ => none

/-- Turning to the directory leaves the path as it is. -/
def StaysPut (path : Text) (param : FsDirParam) : Prop :=
  (param.name ≠ dotDot ∧
      maxPathLen ≤ path.length + param.name.length + 2) ∨
    (param.name = dotDot ∧ path = param.rootParam.fsName)

instance (path : Text) (param : FsDirParam) : Decidable (StaysPut path param) :=
  inferInstanceAs (Decidable (_ ∨ _))

/-- A directory that is selected opens, or the path stays. -/
def Opens (state : FsState) : FsEvent → Prop
  | .select index none => ∀ param ∈ state.selectedDir index,
      StaysPut (state.fileName param.rootParam).text param
  | _ => True

instance (state : FsState) (event : FsEvent) :
    Decidable (Opens state event) := by
  cases event with
  | fsroot root opened => exact instDecidableTrue
  | select index opened =>
      cases opened with
      | none =>
          exact inferInstanceAs
            (Decidable (∀ param ∈ state.selectedDir index, _))
      | some entries => exact instDecidableTrue
  | setCurrentMenu menu => exact instDecidableTrue

/-! ### The path -/

def PathBuffer.Sound (buffer : PathBuffer) : Prop :=
  buffer.inside = true ∧ buffer.text.length < maxPathLen

theorem PathBuffer.strcpyAt_sound {buffer : PathBuffer} {offset : Nat}
    {text : Text} (inside : buffer.inside = true)
    (room : offset + text.length < maxPathLen) :
    (buffer.strcpyAt offset text).Sound := by
  constructor
  · simp only [PathBuffer.strcpyAt, inside, room, decide_true, Bool.and_self]
  · simp only [PathBuffer.strcpyAt, List.length_append, List.length_take]
    omega

theorem fsName_length_lt (root : FsRoot) : root.fsName.length < maxPathLen := by
  obtain ⟨target, medium⟩ := root
  cases target <;> cases medium <;> decide

theorem fsName_noSlash (root : FsRoot) : '/' ∉ root.fsName := by
  obtain ⟨target, medium⟩ := root
  cases target <;> cases medium <;> decide

theorem strrchr_lt {text : Text} {char : Char} {position : Nat}
    (found : strrchr text char = some position) : position < text.length := by
  rw [strrchr] at found
  split at found
  · rename_i member
    obtain rfl := Option.some.inj found
    have nonempty := List.length_pos_of_mem member
    omega
  · cases found

/-- The path that `fsDir` sets before it opens the directory. -/
def dirBuffer (param : FsDirParam) (fileName : PathBuffer) :
    Option PathBuffer :=
  if param.name ≠ dotDot then
    if fileName.text.length + param.name.length + 2 < maxPathLen then
      some ((fileName.strcat ['/']).strcat param.name)
    else
      none
  else
    some (match strrchr fileName.text '/' with
      | some p => fileName.setEnd p
      | none => fileName.strcpyAt 0 param.rootParam.fsName)

theorem fsDir_eq (param : FsDirParam) (opened : Option (List DirEntry))
    (state : FsState) :
    fsDir param opened state =
      match dirBuffer param (state.fileName param.rootParam) with
      | some buffer => fsGenerateDirListMenu param.rootParam false opened
          (state.setFileName param.rootParam buffer)
      | none => state.errorPrintf "Path is too long.\n".toList := by
  rw [fsDir, dirBuffer]
  split
  · split
    · rfl
    · rfl
  · rfl

theorem dirBuffer_sound {param : FsDirParam} {fileName buffer : PathBuffer}
    (sound : fileName.Sound) (turned : dirBuffer param fileName = some buffer) :
    buffer.Sound := by
  rw [dirBuffer] at turned
  split at turned
  · split at turned
    · rename_i room
      obtain rfl := Option.some.inj turned
      have slash : (fileName.strcat ['/']).Sound := by
        apply PathBuffer.strcpyAt_sound sound.1
        rw [List.length_singleton]
        omega
      apply PathBuffer.strcpyAt_sound slash.1
      simp only [PathBuffer.strcat, PathBuffer.strcpyAt, List.length_append,
        List.length_take, List.length_singleton]
      omega
    · cases turned
  · obtain rfl := Option.some.inj turned
    cases found : strrchr fileName.text '/' with
    | none =>
        apply PathBuffer.strcpyAt_sound sound.1
        rw [Nat.zero_add]
        exact fsName_length_lt param.rootParam
    | some position =>
        have before := strrchr_lt found
        exact PathBuffer.strcpyAt_sound sound.1
          (Nat.lt_trans before sound.2)

/-- The path stays exactly where the condition says so. -/
theorem dirBuffer_stays (param : FsDirParam) (fileName : PathBuffer) :
    (∀ buffer, dirBuffer param fileName = some buffer →
      buffer.text = fileName.text) ↔ StaysPut fileName.text param := by
  constructor
  · intro stays
    by_cases parent : param.name = dotDot
    · right
      refine ⟨parent, ?_⟩
      cases found : strrchr fileName.text '/' with
      | none =>
          have same := stays (fileName.strcpyAt 0 param.rootParam.fsName)
            (by rw [dirBuffer, if_neg (not_not.mpr parent), found])
          simpa [PathBuffer.strcpyAt] using same.symm
      | some position =>
          have same := stays (fileName.setEnd position)
            (by rw [dirBuffer, if_neg (not_not.mpr parent), found])
          have before := strrchr_lt found
          have lengths := congrArg List.length same
          simp only [PathBuffer.setEnd, PathBuffer.strcpyAt, List.append_nil,
            List.length_take] at lengths
          omega
    · left
      refine ⟨parent, ?_⟩
      by_contra fits
      have same := stays ((fileName.strcat ['/']).strcat param.name)
        (by rw [dirBuffer, if_pos parent, if_pos (by omega)])
      have lengths := congrArg List.length same
      simp only [PathBuffer.strcat, PathBuffer.strcpyAt, List.length_append,
        List.length_take, List.length_singleton] at lengths
      omega
  · rintro (⟨child, long⟩ | ⟨parent, atRoot⟩) buffer turned
    · rw [dirBuffer, if_pos child, if_neg (by omega)] at turned
      cases turned
    · have noSlash : strrchr fileName.text '/' = none := by
        rw [strrchr, if_neg]
        rw [atRoot]
        exact fsName_noSlash param.rootParam
      rw [dirBuffer, if_neg (not_not.mpr parent), noSlash] at turned
      obtain rfl := Option.some.inj turned
      simp [PathBuffer.strcpyAt, atRoot]

/-! ### Filling the menu -/

theorem MenuItem.Shows.mono {root : FsRoot}
    {params params' : Nat → Option FsDirParam} {item : MenuItem}
    {entry : ShownEntry} (shows : item.Shows root params entry)
    (kept : ∀ index param, params index = some param →
      params' index = some param) : item.Shows root params' entry := by
  obtain ⟨index, isParam, isItem⟩ := shows
  exact ⟨index, kept index _ isParam, isItem⟩

theorem shownEntries_cons (isRoot : Bool) (entry : DirEntry)
    (rest : List DirEntry) :
    shownEntries isRoot (entry :: rest) =
      if entry.name ≠ dot ∧ ¬ (entry.isDirectory ∧
          entry.name.take (maxFileLen - 1) = dotDot ∧ isRoot) then
        entry.shown :: shownEntries isRoot rest
      else
        shownEntries isRoot rest := by
  rw [shownEntries, List.filter_cons, DirEntry.isShown]
  split
  · rename_i visible
    rw [if_pos (of_decide_eq_true visible)]
    rfl
  · rename_i hidden
    rw [if_neg (of_decide_eq_false (Bool.not_eq_true _ ▸ hidden))]
    rfl

/-- The items from an index on show the entries, and the elements of
`fsDirParam` before it stay. -/
theorem readEntries_shows (root : FsRoot) (isRoot : Bool)
    (entries : List DirEntry) (i : Nat) (inside : i < maxEntries)
    (params : Nat → Option FsDirParam) :
    (∀ index < i, (readEntries root isRoot entries i params).1 index =
        params index) ∧
      List.Forall₂
        (MenuItem.Shows root (readEntries root isRoot entries i params).1)
        (readEntries root isRoot entries i params).2
        ((shownEntries isRoot entries).take (maxEntries - i)) := by
  induction entries generalizing i params with
  | nil =>
      refine ⟨fun _ _ => rfl, ?_⟩
      rw [shownEntries, List.filter_nil, List.map_nil, List.take_nil]
      exact List.Forall₂.nil
  | cons entry rest ih =>
      rw [readEntries]
      by_cases self : entry.name = dot
      · have hidden : shownEntries isRoot (entry :: rest) =
            shownEntries isRoot rest := by
          rw [shownEntries_cons, if_neg (fun visible => visible.1 self)]
        rw [if_pos self, hidden]
        exact ih i inside params
      rw [if_neg self]
      generalize stored : Function.update params i (some
        { rootParam := root, name := entry.name.take (maxFileLen - 1) }) =
          params'
      have before : ∀ index < i, params' index = params index := by
        intro index lower
        rw [← stored, Function.update_of_ne (Nat.ne_of_lt lower)]
      have here : params' i = some
          { rootParam := root, name := entry.name.take (maxFileLen - 1) } := by
        rw [← stored, Function.update_self]
      by_cases parent : entry.isDirectory ∧
          entry.name.take (maxFileLen - 1) = dotDot ∧ isRoot = true
      · have hidden : shownEntries isRoot (entry :: rest) =
            shownEntries isRoot rest := by
          rw [shownEntries_cons, if_neg (fun visible => visible.2 parent)]
        rw [hidden]
        simp only [stored]
        rw [if_pos parent]
        obtain ⟨kept, shows⟩ := ih i inside params'
        exact ⟨fun index lower => (kept index lower).trans (before index lower),
          shows⟩
      · have room : maxEntries - i = maxEntries - (i + 1) + 1 := by omega
        have visible : shownEntries isRoot (entry :: rest) =
            entry.shown :: shownEntries isRoot rest := by
          rw [shownEntries_cons, if_pos ⟨self, parent⟩]
        rw [visible, room, List.take_succ_cons]
        simp only [stored]
        rw [if_neg parent]
        by_cases full : i + 1 ≥ maxEntries
        · have noRoom : maxEntries - (i + 1) = 0 := by omega
          rw [if_pos full, noRoom, List.take_zero]
          refine ⟨before, List.Forall₂.cons ⟨i, here, rfl⟩ List.Forall₂.nil⟩
        · rw [if_neg full]
          obtain ⟨kept, shows⟩ := ih (i + 1) (Nat.not_le.mp full) params'
          refine ⟨?_, List.Forall₂.cons ?_ shows⟩
          · intro index lower
            exact (kept index (Nat.lt_succ_of_lt lower)).trans
              (before index lower)
          · exact ⟨i, (kept i (Nat.lt_succ_self i)).trans here, rfl⟩

/-! ### Steps of the browser -/

/-- What holds while the condition is met. -/
structure BrowserInv (state : FsState) : Prop where
  sound : ∀ root, (state.fileName root).Sound
  listed : ∀ root, state.currentMenu = .files root →
    ∃ listing, state.Lists root listing ∧
      (state.fileName root).text = listing.path

theorem BrowserInv.right {state : FsState} (inv : BrowserInv state) :
    BrowserRight state :=
  { inside := fun root => (inv.sound root).1
    listed := inv.listed }

theorem fileName_setFileName (state : FsState) (root other : FsRoot)
    (buffer : PathBuffer) :
    (state.setFileName root buffer).fileName other =
      if other = root then buffer else state.fileName other := by
  rw [FsState.fileName, FsState.setFileName_roots]
  by_cases same : other = root
  · subst same
    rw [Function.update_self, if_pos rfl]
  · rw [Function.update_of_ne same, if_neg same]
    rfl

theorem fileName_setFileMenu (state : FsState) (root other : FsRoot)
    (fileMenu : FileMenu) :
    (state.setFileMenu root fileMenu).fileName other =
      state.fileName other := by
  rw [FsState.fileName, FsState.setFileMenu_roots]
  by_cases same : other = root
  · subst same
    rw [Function.update_self]
  · rw [Function.update_of_ne same]
    rfl

theorem setFileName_sound {state : FsState} {root : FsRoot}
    {buffer : PathBuffer} (sound : ∀ other, (state.fileName other).Sound)
    (bufferSound : buffer.Sound) (other : FsRoot) :
    ((state.setFileName root buffer).fileName other).Sound := by
  rw [fileName_setFileName]
  split
  · exact bufferSound
  · exact sound other

/-- The file menu and the elements of `fsDirParam` are all that a listing
depends on. -/
theorem FsState.Lists.of_same {state state' : FsState} {root : FsRoot}
    {listing : Listing} (lists : state.Lists root listing)
    (sameMenu : (state'.roots root).fileMenu = (state.roots root).fileMenu)
    (sameParams : state'.fsDirParam = state.fsDirParam) :
    state'.Lists root listing := by
  obtain ⟨items, isMenu, shows⟩ := lists
  exact ⟨items, sameMenu.trans isMenu, sameParams ▸ shows⟩

theorem fileMenu_setFileName (state : FsState) (root other : FsRoot)
    (buffer : PathBuffer) :
    ((state.setFileName root buffer).roots other).fileMenu =
      (state.roots other).fileMenu := by
  rw [FsState.setFileName_roots]
  by_cases same : other = root
  · subst same
    rw [Function.update_self]
  · rw [Function.update_of_ne same]

/-- An opened directory fills the menu from the path. -/
theorem fsGenerateDirListMenu_opened (root : FsRoot) (isRoot : Bool)
    (entries : List DirEntry) (state : FsState)
    (sound : ∀ other, (state.fileName other).Sound) :
    BrowserInv (fsGenerateDirListMenu root isRoot (some entries) state) := by
  have sameName (other : FsRoot) :
      (fsGenerateDirListMenu root isRoot (some entries) state).fileName other =
        state.fileName other :=
    fileName_setFileMenu state root other _
  refine { sound := fun other => sameName other ▸ sound other, listed := ?_ }
  intro other visible
  obtain rfl : root = other := CurrentMenu.files.inj visible
  let listing : Listing :=
    { path := (state.fileName root).text
      isRoot := isRoot
      entries := entries }
  refine ⟨listing, ⟨(readEntries root isRoot entries 0 state.fsDirParam).2,
    ?_, ?_⟩, ?_⟩
  · change ((state.setFileMenu root _).roots root).fileMenu = _
    rw [FsState.setFileMenu_roots, Function.update_self]
  · exact (readEntries_shows root isRoot entries 0 (by decide)
      state.fsDirParam).2
  · rw [sameName root]

/-- A directory that does not open leaves everything but the path. -/
theorem fsGenerateDirListMenu_failed (root : FsRoot) (isRoot : Bool)
    {state : FsState} (inv : BrowserInv state) (buffer : PathBuffer)
    (bufferSound : buffer.Sound)
    (stays : state.currentMenu = .files root →
      buffer.text = (state.fileName root).text) :
    BrowserInv (fsGenerateDirListMenu root isRoot none
      (state.setFileName root buffer)) := by
  refine { sound := setFileName_sound inv.sound bufferSound, listed := ?_ }
  intro other visible
  obtain ⟨listing, lists, path⟩ := inv.listed other visible
  refine ⟨listing, lists.of_same (fileMenu_setFileName state root other buffer)
    rfl, ?_⟩
  change ((state.setFileName root buffer).fileName other).text = listing.path
  rw [fileName_setFileName]
  split
  · rename_i same
    subst same
    exact (stays visible).trans path
  · exact path

theorem BrowserInv.errorPrintf {state : FsState} (inv : BrowserInv state)
    (message : Text) : BrowserInv (state.errorPrintf message) :=
  { sound := inv.sound, listed := inv.listed }

theorem plain_inv {state : FsState} (menu : PlainMenu)
    (sound : ∀ root, (state.fileName root).Sound)
    (isPlain : state.currentMenu = .plain menu) : BrowserInv state := by
  refine { sound := sound, listed := ?_ }
  intro root visible
  rw [isPlain] at visible
  cases visible

/-! ### Selecting an item -/

theorem fsStep_select (state : FsState) (root : FsRoot)
    (visible : state.currentMenu = .files root) (index : Nat)
    (opened : Option (List DirEntry)) :
    fsStep state (.select index opened) =
      (state.item index).bind fun item => item.execute root opened state := by
  have isRoot : state.root = some root := by
    rw [FsState.root, visible]
  rw [fsStep, isRoot]
  rfl

theorem FsState.Lists.item_eq {state : FsState} {root : FsRoot}
    {items : List MenuItem} {listing : Listing}
    (visible : state.currentMenu = .files root)
    (isMenu : (state.roots root).fileMenu =
      some { items := .back :: items, filledFrom := some listing })
    (index : Nat) :
    state.item index = (MenuItem.back :: items)[index]? := by
  rw [FsState.item, visible]
  change (state.roots root).fileMenu.bind _ = _
  rw [isMenu]
  rfl

/-- An item behind the first one shows an entry of the listing. -/
theorem FsState.Lists.item_shows {state : FsState} {root : FsRoot}
    {listing : Listing} (lists : state.Lists root listing)
    (visible : state.currentMenu = .files root) {index : Nat}
    {item : MenuItem} (selected : state.item index = some item) :
    item = .back ∨
      ∃ entry ∈ listing.shown, item.Shows root state.fsDirParam entry := by
  obtain ⟨items, isMenu, shows⟩ := lists
  rw [FsState.Lists.item_eq visible isMenu] at selected
  cases index with
  | zero =>
      exact Or.inl (Option.some.inj selected).symm
  | succ position =>
      right
      rw [List.getElem?_cons_succ] at selected
      obtain ⟨inItems, rfl⟩ := List.getElem?_eq_some_iff.mp selected
      have inShown : position < listing.shown.length :=
        shows.length_eq ▸ inItems
      exact ⟨listing.shown[position], List.getElem_mem inShown,
        shows.get inItems inShown⟩

/-- A selection goes back, calls `fsDir` or calls `fsFile`, each for the root
whose menu is visible. -/
theorem select_cases {state next : FsState} {root : FsRoot}
    {listing : Listing} (lists : state.Lists root listing)
    (visible : state.currentMenu = .files root) {index : Nat}
    {opened : Option (List DirEntry)}
    (stepped : fsStep state (.select index opened) = some next) :
    (next = { state with currentMenu := .plain root.menu } ∧
        state.selectedDir index = none) ∨
      (∃ param, param.rootParam = root ∧
        state.selectedDir index = some param ∧
        next = fsDir param opened state) ∨
      ∃ param, param.rootParam = root ∧ state.selectedDir index = none ∧
        next = fsFile param state := by
  rw [fsStep_select state root visible] at stepped
  obtain ⟨item, selected, executed⟩ := Option.bind_eq_some_iff.mp stepped
  rcases lists.item_shows visible selected with rfl | ⟨entry, -, shows⟩
  · left
    exact ⟨(Option.some.inj executed).symm, by
      rw [FsState.selectedDir, selected]⟩
  · obtain ⟨position, isParam, isItem⟩ := shows
    right
    cases folder : entry.folder with
    | true =>
        rw [folder, if_pos rfl] at isItem
        subst isItem
        left
        refine ⟨_, rfl, (?_ : _ = some
          { rootParam := root, name := entry.name }), ?_⟩
        · rw [FsState.selectedDir, selected]
          exact isParam
        · rw [MenuItem.execute, isParam] at executed
          exact (Option.some.inj executed).symm
    | false =>
        rw [folder, if_neg Bool.false_ne_true] at isItem
        subst isItem
        right
        refine ⟨{ rootParam := root, name := entry.name }, rfl, ?_, ?_⟩
        · rw [FsState.selectedDir, selected]
        · rw [MenuItem.execute, isParam] at executed
          exact (Option.some.inj executed).symm

theorem fsFile_fits {param : FsDirParam} {state : FsState}
    (sound : ∀ root, (state.fileName root).Sound)
    (fits : (state.fileName param.rootParam).text.length +
      param.name.length + 2 < maxPathLen) :
    (∀ root, ((fsFile param state).fileName root).Sound) ∧
      (fsFile param state).currentMenu = .plain param.rootParam.mainMenu ∧
      (fsFile param state).targets =
        Function.update state.targets param.rootParam.target
          ((state.fileName param.rootParam).text ++ '/' :: param.name) := by
  have own := sound param.rootParam
  generalize fileName : state.fileName param.rootParam = buffer at fits own
  obtain ⟨text, inside⟩ := buffer
  obtain ⟨rfl, short⟩ := own
  let slash : PathBuffer :=
    PathBuffer.setChar { text := text, inside := true } text.length '/'
  let named := slash.strcpyAt (text.length + 1) param.name
  have slashText : slash.text = text ++ ['/'] := by
    simp [slash, PathBuffer.setChar]
  have slashInside : slash.inside = true := by
    simpa [slash, PathBuffer.setChar] using short
  have namedText : named.text = text ++ '/' :: param.name := by
    simp [named, PathBuffer.strcpyAt, slashText, List.take_of_length_le]
  have namedSound : named.Sound :=
    PathBuffer.strcpyAt_sound slashInside (by simp only at fits; omega)
  have endSound : (named.setEnd (text.length + 1 + param.name.length)).Sound :=
    PathBuffer.strcpyAt_sound namedSound.1 (by
      simp only [List.length_nil] at fits ⊢
      omega)
  have endText : (named.setEnd (text.length + 1 + param.name.length)).text =
      text ++ '/' :: param.name := by
    rw [PathBuffer.setEnd, PathBuffer.strcpyAt, List.append_nil, namedText,
      List.take_of_length_le]
    simp only [List.length_append, List.length_cons]
    omega
  have stored : fsFile param state =
      { state.setFileName param.rootParam
          (named.setEnd (text.length + 1 + param.name.length)) with
        targets := Function.update state.targets param.rootParam.target
          (text ++ '/' :: param.name)
        currentMenu := .plain param.rootParam.mainMenu } := by
    rw [fsFile, fileName, if_pos fits, ← endText]
    rfl
  rw [stored]
  exact ⟨setFileName_sound sound endSound, rfl, rfl⟩

theorem fsFile_long {param : FsDirParam} {state : FsState}
    (long : ¬ (state.fileName param.rootParam).text.length +
      param.name.length + 2 < maxPathLen) :
    fsFile param state =
      state.errorPrintf "Filename is too long.\n".toList := by
  rw [fsFile, if_neg long]

/-! ### Runs -/

theorem fsDir_inv {param : FsDirParam} {opened : Option (List DirEntry)}
    {state : FsState} (inv : BrowserInv state)
    (opens : opened = none →
      StaysPut (state.fileName param.rootParam).text param) :
    BrowserInv (fsDir param opened state) := by
  rw [fsDir_eq]
  cases turned : dirBuffer param (state.fileName param.rootParam) with
  | none =>
      exact inv.errorPrintf _
  | some buffer =>
      have sound := dirBuffer_sound (inv.sound param.rootParam) turned
      cases opened with
      | some entries =>
          exact fsGenerateDirListMenu_opened param.rootParam false entries _
            (setFileName_sound inv.sound sound)
      | none =>
          have stays := (dirBuffer_stays param _).mpr (opens rfl) buffer turned
          exact fsGenerateDirListMenu_failed param.rootParam false inv buffer
            sound fun _visible => stays

theorem fsFile_inv {param : FsDirParam} {state : FsState}
    (inv : BrowserInv state) : BrowserInv (fsFile param state) := by
  by_cases fits : (state.fileName param.rootParam).text.length +
      param.name.length + 2 < maxPathLen
  · obtain ⟨sound, isPlain, -⟩ := fsFile_fits inv.sound fits
    exact plain_inv param.rootParam.mainMenu sound isPlain
  · rw [fsFile_long fits]
    exact inv.errorPrintf _

theorem fsroot_inv {root : FsRoot} {opened : Option (List DirEntry)}
    {state : FsState} (inv : BrowserInv state)
    (isPlain : state.currentMenu = .plain root.menu) :
    BrowserInv (fsroot root opened state) := by
  have created : ∃ state', BrowserInv state' ∧
      state'.currentMenu = .plain root.menu ∧
      fsroot root opened state = fsGenerateDirListMenu root true opened
        (state'.setFileName root
          ((state'.fileName root).strcpyAt 0 root.fsName)) := by
    rw [fsroot]
    cases (state.roots root).fileMenu with
    | some fileMenu =>
        exact ⟨state, inv, isPlain, rfl⟩
    | none =>
        refine ⟨state.setFileMenu root { items := [], filledFrom := none },
          plain_inv root.menu ?_ isPlain, isPlain, rfl⟩
        intro other
        rw [fileName_setFileMenu]
        exact inv.sound other
  obtain ⟨state', inv', isPlain', rfl'⟩ := created
  have sound : ((state'.fileName root).strcpyAt 0 root.fsName).Sound :=
    PathBuffer.strcpyAt_sound (inv'.sound root).1 (by
      rw [Nat.zero_add]
      exact fsName_length_lt root)
  rw [rfl']
  cases opened with
  | some entries =>
      exact fsGenerateDirListMenu_opened root true entries _
        (setFileName_sound inv'.sound sound)
  | none =>
      apply fsGenerateDirListMenu_failed root true inv' _ sound
      intro visible
      rw [isPlain'] at visible
      cases visible

theorem files_of_select {state next : FsState} {index : Nat}
    {opened : Option (List DirEntry)}
    (stepped : fsStep state (.select index opened) = some next) :
    ∃ root, state.currentMenu = .files root := by
  cases current : state.currentMenu with
  | plain menu =>
      have noRoot : state.root = none := by rw [FsState.root, current]
      rw [fsStep, noRoot] at stepped
      cases stepped
  | files root => exact ⟨root, rfl⟩

theorem select_inv {state next : FsState} {index : Nat}
    {opened : Option (List DirEntry)} (inv : BrowserInv state)
    (opens : Opens state (.select index opened))
    (stepped : fsStep state (.select index opened) = some next) :
    BrowserInv next := by
  obtain ⟨root, current⟩ := files_of_select stepped
  obtain ⟨listing, lists, -⟩ := inv.listed root current
  rcases select_cases lists current stepped with
    ⟨rfl, -⟩ | ⟨param, -, selected, rfl⟩ | ⟨param, -, -, rfl⟩
  · exact plain_inv root.menu inv.sound rfl
  · apply fsDir_inv inv
    rintro rfl
    exact opens param selected
  · exact fsFile_inv inv

theorem fsStep_inv (state : FsState) (event : FsEvent) (next : FsState)
    (inv : BrowserInv state) (opens : Opens state event)
    (stepped : fsStep state event = some next) : BrowserInv next := by
  cases event with
  | fsroot root opened =>
      rw [fsStep] at stepped
      split at stepped
      · rename_i isPlain
        obtain rfl := Option.some.inj stepped
        exact fsroot_inv inv isPlain
      · cases stepped
  | select index opened =>
      exact select_inv inv opens stepped
  | setCurrentMenu menu =>
      obtain rfl := Option.some.inj stepped
      exact plain_inv menu inv.sound rfl

theorem reach_inv {state : FsState} (reached : fsMachine.Reach Opens state) :
    BrowserInv state := by
  apply reached.invariant
  · apply plain_inv .bootMenu
    · intro root
      exact ⟨rfl, (by decide : 0 < maxPathLen)⟩
    · rfl
  · exact fsStep_inv

theorem files_right {state : FsState} (inv : BrowserInv state) :
    FilesRight state := by
  intro root listing position entry opened visible lists isEntry isFile
  obtain ⟨listing', lists', path⟩ := inv.listed root visible
  obtain ⟨items, isMenu, shows⟩ := lists
  obtain ⟨items', isMenu', -⟩ := lists'
  have sameMenu := Option.some.inj (isMenu.symm.trans isMenu')
  obtain rfl : listing = listing' :=
    Option.some.inj (congrArg FileMenu.filledFrom sameMenu)
  obtain ⟨inShown, atPosition⟩ := List.getElem?_eq_some_iff.mp isEntry
  have inItems : position < items.length := shows.length_eq.symm ▸ inShown
  have own : items[position].Shows root state.fsDirParam entry :=
    atPosition ▸ shows.get inItems inShown
  obtain ⟨index, isParam, isItem⟩ := own
  rw [isFile, if_neg Bool.false_ne_true] at isItem
  have selected : state.item (position + 1) = some (.fsFile index) := by
    rw [FsState.Lists.item_eq visible isMenu, List.getElem?_cons_succ,
      List.getElem?_eq_getElem inItems, isItem]
  refine ⟨fsFile { rootParam := root, name := entry.name } state, ?_, ?_⟩
  · rw [fsStep_select state root visible, selected]
    change (state.fsDirParam index).map _ = _
    rw [isParam]
    rfl
  · split
    · rename_i fits
      rw [← path] at fits ⊢
      exact (fsFile_fits inv.sound fits).2.2
    · rename_i long
      rw [← path] at long
      rw [fsFile_long long]
      rfl

theorem failedDir_wrong {param : FsDirParam} {state : FsState}
    {listing : Listing} (lists : state.Lists param.rootParam listing)
    (path : (state.fileName param.rootParam).text = listing.path)
    (visible : state.currentMenu = .files param.rootParam)
    (moves : ¬ StaysPut (state.fileName param.rootParam).text param) :
    ¬ BrowserRight (fsDir param none state) := by
  rw [← dirBuffer_stays param (state.fileName param.rootParam)] at moves
  push Not at moves
  obtain ⟨buffer, turned, different⟩ := moves
  rw [fsDir_eq, turned]
  intro right
  obtain ⟨listing', ⟨items', isMenu', -⟩, path'⟩ :=
    right.listed param.rootParam visible
  obtain ⟨items, isMenu, -⟩ := lists
  have stillMenu : (state.roots param.rootParam).fileMenu =
      some { items := .back :: items', filledFrom := some listing' } :=
    (fileMenu_setFileName state param.rootParam param.rootParam
      buffer).symm.trans isMenu'
  obtain rfl : listing = listing' := Option.some.inj
    (congrArg FileMenu.filledFrom
      (Option.some.inj (isMenu.symm.trans stillMenu)))
  have turnedPath : buffer.text = listing.path := by
    rw [← path']
    change _ = ((state.setFileName param.rootParam buffer).fileName
      param.rootParam).text
    rw [fileName_setFileName, if_pos rfl]
  exact different (turnedPath.trans path.symm)

/-- A selected directory that does not open leaves the menu behind the path. -/
theorem failed_wrong {state next : FsState} {event : FsEvent}
    (right : BrowserRight state) (fails : ¬ Opens state event)
    (stepped : fsStep state event = some next) : ¬ BrowserRight next := by
  cases event with
  | fsroot root opened => exact absurd trivial fails
  | setCurrentMenu menu => exact absurd trivial fails
  | select index opened =>
      cases opened with
      | some entries => exact absurd trivial fails
      | none =>
          obtain ⟨root, current⟩ := files_of_select stepped
          obtain ⟨listing, lists, path⟩ := right.listed root current
          rcases select_cases lists current stepped with
            ⟨-, none⟩ | ⟨param, rfl, selected, rfl⟩ | ⟨param, -, none, -⟩
          · exact absurd (fun param found => by
              rw [none] at found
              cases found) fails
          · apply failedDir_wrong lists path current
            intro stays
            apply fails
            intro other found
            obtain rfl := Option.some.inj (selected.symm.trans found)
            exact stays
          · exact absurd (fun param found => by
              rw [none] at found
              cases found) fails

/-- While every directory that is selected opens, the path is the one of the
visible file menu and a selected file is stored under it; the first directory
that does not open breaks that. -/
theorem browser_right (state : FsState)
    (reached : fsMachine.Reach Opens state) :
    BrowserRight state ∧ FilesRight state ∧
      ∀ event next, ¬ Opens state event → fsStep state event = some next →
        ¬ BrowserRight next := by
  have inv := reach_inv reached
  refine ⟨inv.right, files_right inv, ?_⟩
  intro event next fails stepped
  exact failed_wrong inv.right fails stepped

/-- A memory stick with a directory and a kernel. -/
def stick : List DirEntry :=
  [{ name := dot, mode := 0x1000 }, { name := dotDot, mode := 0x1000 },
    { name := "boot".toList, mode := 0x1000 },
    { name := "vmlinux".toList, mode := 0x2000 }]

def kusbParam : FsRoot := { target := .kernelFilename, medium := .usb }

theorem browser_right_stick : ∃ state, fsMachine.Reach Opens state ∧
    (state.targets .kernelFilename = "mass0:/boot/vmlinux".toList ∧
      (state.fileName kusbParam).text = "mass0:/boot/vmlinux".toList) ∧
    BrowserRight state ∧ FilesRight state ∧
      ∀ event next, ¬ Opens state event → fsStep state event = some next →
        ¬ BrowserRight next := by
  have followed : (fsMachine.follow Opens
      [.setCurrentMenu .linuxMenu, .fsroot kusbParam none,
        .fsroot kusbParam (some stick), .select 1 (some stick),
        .select 2 (some stick), .select 1 (some stick),
        .select 1 (some stick), .select 1 none, .select 2 (some stick),
        .select 3 none]
      fsMachine.initial).map
        (fun state => decide (
          state.targets .kernelFilename = "mass0:/boot/vmlinux".toList ∧
          (state.fileName kusbParam).text = "mass0:/boot/vmlinux".toList)) =
        some true := by
    decide +kernel
  obtain ⟨state, isState, seen⟩ := Option.map_eq_some_iff.mp followed
  have reached := Machine.Reach.initial.follow _ isState
  exact ⟨state, reached, of_decide_eq_true seen, browser_right state reached⟩

/-- After a directory did not open, the visible menu is still that of the root,
but the file selected there is stored with the path of that directory. -/
theorem failedOpen_wrong :
    ¬ ∀ state, fsMachine.Reach (fun _ _ => True) state →
      BrowserRight state ∧ FilesRight state := by
  intro always
  have followed : (fsMachine.follow (fun _ _ => True)
      [.setCurrentMenu .linuxMenu, .fsroot kusbParam (some stick),
        .select 1 none] fsMachine.initial).map
        (fun state => decide (state.currentMenu = .files kusbParam ∧
          (state.fileName kusbParam).text = "mass0:/boot".toList ∧
          ((state.roots kusbParam).fileMenu.bind
            FileMenu.filledFrom).map Listing.path = some "mass0:".toList ∧
          (fsStep state (.select 2 none)).map
            (fun next => next.targets .kernelFilename) =
              some "mass0:/boot/vmlinux".toList)) = some true := by
    decide +kernel
  obtain ⟨state, isState, seen⟩ := Option.map_eq_some_iff.mp followed
  obtain ⟨visible, fileName, filledFrom, -⟩ := of_decide_eq_true seen
  have reached := Machine.Reach.initial.follow _ isState
  obtain ⟨listing, ⟨items, isMenu, -⟩, path⟩ :=
    (always state reached).1.listed kusbParam visible
  rw [isMenu] at filledFrom
  have isRoot : listing.path = "mass0:".toList := Option.some.inj filledFrom
  rw [fileName, isRoot] at path
  exact absurd path (by decide)

end KernelReloaded.FileBrowser

/-
Which tables the menu reads at a configurable index.

`currentMode` indexes `modeList`, `frequenzy` and `modeDescription`, and
`autoBootTime` indexes `autoBootText`.  Both are configuration items, so a
configuration file writes them without a check; `changeMode` has the only
range check.  The machine takes the calls of the start-up and of the menu in
any order and records every read at such an index.
-/

import KernelReloaded.Core.Transition
import KernelReloaded.Loader.ConfigReaders
import KernelReloaded.Loader.ConfigSearch

namespace KernelReloaded.Settings

open CText KeyedWrites

/-! ### The tables -/

def frequenzy : List Int := [0, 60, 72, 75, 85, 60, 60, 50, 50, 60, 60]

def modeDescription : List String :=
  ["Auto", "640x480 60Hz", "640x480 72Hz", "640x480 75Hz", "640x480 85Hz",
    "480P", "NTSC", "PAL", "576P", "720P", "1080I"]

/-- The texts of the "Auto Boot" entry, with the `NULL` that ends the list. -/
def autoBootText : List (Option String) :=
  [some "Auto Boot: off", some "Auto Boot Time: 1 Second",
    some "Auto Boot Time: 2 Seconds", some "Auto Boot Time: 3 Seconds",
    some "Auto Boot Time: 4 Seconds", some "Auto Boot Time: 5 Seconds",
    some "Auto Boot Time: 6 Seconds", some "Auto Boot Time: 7 Seconds",
    some "Auto Boot Time: 8 Seconds", some "Auto Boot Time: 9 Seconds",
    some "Auto Boot Time: 10 Seconds", none]

inductive IndexedTable where
  | modeList
  | frequenzy
  | modeDescription
  | autoBootText
deriving DecidableEq

def IndexedTable.size : IndexedTable → Nat
  | .modeList => Settings.modeList.length
  | .frequenzy => Settings.frequenzy.length
  | .modeDescription => Settings.modeDescription.length
  | .autoBootText => Settings.autoBootText.length

structure Access where
  table : IndexedTable
  index : Int
deriving DecidableEq

def Access.InBounds (access : Access) : Prop :=
  0 ≤ access.index ∧ access.index < access.table.size

/-! ### Reads while a configuration is loaded -/

/-- A video mode item looks its new mode up for the video parameter. -/
def readAccesses (item : ConfigurationItem) (value : Text)
    (config : Config) : List Access :=
  match item.type with
  | .video var =>
      [{ table := .modeList
         index := (config.setInt var (atoi value)).ints .currentMode }]
  | _ => []

def settingAccesses (console : Console) (key value : Text) :
    List ConfigurationItem → Config → List Access
  | [], _ => []
  | item :: items, config =>
      if key = item.name then
        readAccesses item value config ++
          settingAccesses console key value items
            (readData console item value config)
      else settingAccesses console key value items config

def settingsAccesses (console : Console) (items : List ConfigurationItem) :
    List (Text × Text) → Config → List Access
  | [], _ => []
  | setting :: settings, config =>
      settingAccesses console setting.1 setting.2 items config ++
        settingsAccesses console items settings
          (applySetting console items setting.1 setting.2 config)

def fileSettings (text : Text) : List (Text × Text) :=
  (fileLines maximumConfigLength text.length text).filterMap lineSetting

def romSettings (text : Text) : List (Text × Text) :=
  (memoryLines (maximumConfigLength - 1) text.length text).filterMap
    lineSetting

/-! ### The machine -/

/-- What `graphic_paint` finds to paint; the advanced menu, which has the
"Auto Boot" entry, can only be shown after the start-up. -/
inductive Shown where
  | other
  | input
  | autoBootEntry
deriving DecidableEq

def Shown.possible (shown : Shown) (started : Bool) : Bool :=
  match shown with
  | .autoBootEntry => started
  | _ => true

def graphicPaint (shown : Shown) (config : Config) : List Access :=
  let mode := config.ints .currentMode
  let content : List Access :=
    match shown with
    | .other => []
    | .input => [{ table := .frequenzy, index := mode }]
    | .autoBootEntry =>
        [{ table := .autoBootText, index := config.ints .autoBootTime }]
  [{ table := .modeDescription, index := mode }] ++ content ++
    [{ table := .frequenzy, index := mode }]

def applyVideoMode (console : Console) (config : Config) : List Access :=
  let access : Access :=
    { table := .modeList, index := config.ints .currentMode }
  if getCurrentMode console config = .autoDetect then [access]
  else [access, access]

/-- The next value of the "Auto Boot" entry.  A word outside of the list is
whatever stands there. -/
def nextAutoBoot (besideIsNull : Int → Bool) (value : Int) : Int :=
  let next := value + 1
  let isNull :=
    if next < 0 then besideIsNull next
    else
      match autoBootText[next.toNat]? with
      | some text => text.isNone
      | none => besideIsNull next
  if isNull then 0 else next

/-- The variables of the menu's check entries. -/
def IntVar.isCheckEntry : IntVar → Bool
  | .currentMode => false
  | .autoBootTime => false
  | .enableExtraMem => false
  | _ => true

structure MenuState where
  config : Config
  lastMode : Int
  started : Bool
  accesses : List Access

def MenuState.record (state : MenuState) (config : Config)
    (accesses : List Access) : MenuState :=
  { state with config := config, accesses := state.accesses ++ accesses }

inductive MenuEvent where
  | loadConfiguration (text : Text)
  | loadConfigurationFromRom (text : Text)
  | incrementMode
  | decrementMode
  | setMode (mode : Int)
  | changeMode (shown : Shown)
  | getModeFrequenzy
  | setDefaultVideoParameter
  | setDefaultConfiguration (env : CallEnv)
  | paint (shown : Shown)
  | switchAutoBoot
  | switchCheck (var : IntVar)
  | finishStartup

/-- What the runs take from the build and the memory around the tables. -/
structure MenuBuild where
  build : Build
  besideIsNull : Int → Bool

def changeModeStep (build : Build) (shown : Shown) (state : MenuState) :
    MenuState :=
  let config := Settings.changeMode state.config
  let mode := config.ints .currentMode
  let switching : Access := { table := .modeDescription, index := mode }
  if state.lastMode = mode then state.record config [switching]
  else
    { state.record config
        ([switching] ++ applyVideoMode build.console config ++
          graphicPaint shown config ++ graphicPaint shown config) with
      lastMode := mode }

def menuStep (menu : MenuBuild) (state : MenuState) :
    MenuEvent → Option MenuState
  | .loadConfiguration text =>
      some (state.record
        (Settings.loadConfiguration menu.build.console menu.build.tables.items
          text state.config)
        (settingsAccesses menu.build.console menu.build.tables.items
          (fileSettings text) state.config))
  | .loadConfigurationFromRom text =>
      some (state.record
        (Settings.loadConfigurationFromRom menu.build.console
          menu.build.tables.items text state.config)
        (settingsAccesses menu.build.console menu.build.tables.items
          (romSettings text) state.config))
  | .incrementMode =>
      some (state.record (state.config.setInt .currentMode
        (Settings.incrementMode (state.config.ints .currentMode))) [])
  | .decrementMode =>
      some (state.record (state.config.setInt .currentMode
        (Settings.decrementMode (state.config.ints .currentMode))) [])
  | .setMode mode =>
      if mode < modeList.length then
        some (state.record (state.config.setInt .currentMode mode) [])
      else some state
  | .changeMode shown =>
      if shown.possible state.started then
        some (changeModeStep menu.build shown state)
      else none
  | .getModeFrequenzy =>
      some (state.record state.config
        [{ table := .frequenzy, index := state.config.ints .currentMode }])
  | .setDefaultVideoParameter =>
      some (state.record
        (Settings.setDefaultVideoParameter menu.build.console state.config)
        [{ table := .modeList, index := state.config.ints .currentMode }])
  | .setDefaultConfiguration env =>
      some (state.record
        (Settings.setDefaultConfiguration menu.build env state.config)
        [{ table := .modeList, index := state.config.ints .currentMode }])
  | .paint shown =>
      if shown.possible state.started then
        some (state.record state.config (graphicPaint shown state.config))
      else none
  | .switchAutoBoot =>
      let value := state.config.ints .autoBootTime
      let next := nextAutoBoot menu.besideIsNull value
      if state.started then
        some (state.record (state.config.setInt .autoBootTime next)
          [{ table := .autoBootText, index := value + 1 },
            { table := .autoBootText, index := next }])
      else none
  | .switchCheck var =>
      if state.started ∧ var.isCheckEntry then
        some (state.record (state.config.setInt var
          (if state.config.ints var = 0 then 1 else 0)) [])
      else none
  | .finishStartup =>
      -- `main` turns the value for an instant boot into one of the list.
      if state.started then none
      else
        let time := state.config.ints .autoBootTime
        some
          { state.record
              (state.config.setInt .autoBootTime (if time < 0 then 0 else time))
              [{ table := .frequenzy
                 index := state.config.ints .currentMode }] with
            started := true }

/-- `graphic_main` and `initMenu` have run on cleared variables. -/
def MenuState.initial : MenuState :=
  { config := zeroConfig, lastMode := 0, started := false
    accesses :=
      [{ table := .modeDescription, index := 0 },
        { table := .modeList, index := 0 },
        { table := .autoBootText, index := 0 }] }

def menuMachine (menu : MenuBuild) : Machine MenuState MenuEvent :=
  { initial := .initial, step := menuStep menu }

/-! ### The condition on a run -/

def isVideoModeKey (key : Text) : Bool := key == videoModeItem.name

def isAutoBootKey (key : Text) : Bool :=
  key == autoBootItem.name || key == "Auto Boot".toList

/-- The last value that settings give `autoBootTime`. -/
def lastAutoBootTime (settings : List (Text × Text)) : Option Int :=
  ((settings.filter fun setting => isAutoBootKey setting.1).getLast?).map
    fun setting => atoi setting.2

/-- The settings give every video mode an index of `modeList`, and leave a
time of `autoBootText`; before the end of the start-up a negative time is
allowed too. -/
def SettingsMet (started : Bool) (settings : List (Text × Text)) : Prop :=
  (∀ setting ∈ settings, isVideoModeKey setting.1 = true →
    0 ≤ atoi setting.2 ∧ atoi setting.2 < modeList.length) ∧
  ∀ time ∈ lastAutoBootTime settings,
    time ≤ 10 ∧ (started = true → 0 ≤ time)

def MenuMet (state : MenuState) : MenuEvent → Prop
  | .loadConfiguration text => SettingsMet state.started (fileSettings text)
  | .loadConfigurationFromRom text =>
      SettingsMet state.started (romSettings text)
  | .setMode mode => 0 ≤ mode
  | _ => True

/-! ### The registered items -/

def fixedItems : List ConfigurationItem :=
  videoModeItem :: (registerLoaderConfigItems ++ initMenu [] [])

theorem registeredItems_cases {modules : List ModuleEntry}
    {sbiosDescription : List Text} {item : ConfigurationItem}
    (member : item ∈ registeredItems modules sbiosDescription) :
    item ∈ fixedItems ∨ (∃ index, item.type = .check (.moduleLoad index)) ∨
      ∃ index, item.type = .check (.sbiosCallEnabled index) := by
  rw [registeredItems, List.mem_cons, List.mem_append] at member
  rcases member with video | loader | menu
  · exact Or.inl (List.mem_cons.mpr (Or.inl video))
  · exact Or.inl (List.mem_cons_of_mem _ (List.mem_append_left _ loader))
  · rcases initMenu_cases menu with
      ⟨_, _, _, index, type⟩ | ⟨_, _, _, index, type⟩ | option
    · exact Or.inr (Or.inl ⟨index, type⟩)
    · exact Or.inr (Or.inr ⟨index, type⟩)
    · exact Or.inl (List.mem_cons_of_mem _ (List.mem_append_right _ option))

def ItemClass.intVar : ItemClass → Option IntVar
  | .check var => some var
  | .text _ _ => none
  | .video var => some var

def ItemClass.isVideo : ItemClass → Bool
  | .video _ => true
  | _ => false

theorem ItemClass.writesInt_iff (type : ItemClass) (var : IntVar) :
    type.writesInt var ↔ type.intVar = some var := by
  cases type with
  | check value => exact ⟨fun same => congrArg some same.symm, fun same => (Option.some.inj same).symm⟩
  | text value maxlen => exact ⟨False.elim, fun impossible => by cases impossible⟩
  | video value => exact ⟨fun same => congrArg some same.symm, fun same => (Option.some.inj same).symm⟩

private theorem fixedItems_targets : ∀ item ∈ fixedItems,
    (item.type.isVideo = true →
      isVideoModeKey item.name = true ∧ item.type.intVar = some .currentMode) ∧
    (item.type.intVar = some .currentMode → isVideoModeKey item.name = true) ∧
    (item.type.intVar = some .autoBootTime →
      isAutoBootKey item.name = true) := by
  decide +kernel

theorem MenuTables.isVideo (tables : MenuTables) {item : ConfigurationItem}
    (member : item ∈ tables.items) (video : item.type.isVideo = true) :
    isVideoModeKey item.name = true ∧
      item.type.intVar = some .currentMode := by
  rcases registeredItems_cases member with fixed | ⟨index, type⟩ | ⟨index, type⟩
  · exact (fixedItems_targets item fixed).1 video
  · rw [type] at video
    cases video
  · rw [type] at video
    cases video

theorem MenuTables.videoModeItems (tables : MenuTables) :
    VideoModeItems tables.items := by
  intro item member var type
  have target := (tables.isVideo member (by rw [type]; rfl)).2
  rw [type] at target
  exact Option.some.inj target

/-- Only the key `videomode` writes the mode. -/
theorem MenuTables.writes_currentMode (tables : MenuTables) {key : Text}
    (writes : WritesInt tables.items key .currentMode) :
    isVideoModeKey key = true := by
  obtain ⟨item, member, rfl, target⟩ := writes
  rw [ItemClass.writesInt_iff] at target
  rcases registeredItems_cases member with fixed | ⟨index, type⟩ | ⟨index, type⟩
  · exact (fixedItems_targets item fixed).2.1 target
  · rw [type] at target
    cases target
  · rw [type] at target
    cases target

theorem MenuTables.writes_autoBootTime (tables : MenuTables) (key : Text) :
    WritesInt tables.items key .autoBootTime ↔ isAutoBootKey key = true := by
  constructor
  · rintro ⟨item, member, rfl, target⟩
    rw [ItemClass.writesInt_iff] at target
    rcases registeredItems_cases member with
      fixed | ⟨index, type⟩ | ⟨index, type⟩
    · exact (fixedItems_targets item fixed).2.2 target
    · rw [type] at target
      cases target
    · rw [type] at target
      cases target
  · intro named
    rw [isAutoBootKey, Bool.or_eq_true, beq_iff_eq, beq_iff_eq] at named
    rcases named with rfl | rfl
    · refine ⟨autoBootItem, ?_, rfl, rfl⟩
      apply List.mem_cons_of_mem
      apply List.mem_append_left
      simp [registerLoaderConfigItems, autoBootItem]
    · refine ⟨checkItem "Auto Boot" .autoBootTime, ?_, rfl, rfl⟩
      apply List.mem_cons_of_mem
      apply List.mem_append_right
      exact List.mem_append_right _ List.mem_cons_self

/-! ### What settings leave -/

/-- A key that writes a number leaves the number of the line. -/
theorem applySetting_written (console : Console)
    (items : List ConfigurationItem) (key value : Text) (config : Config)
    (var : IntVar) (writes : WritesInt items key var) :
    (applySetting console items key value config).ints var = atoi value := by
  induction items generalizing config with
  | nil =>
      obtain ⟨_item, impossible, _found⟩ := writes
      cases impossible
  | cons item items ih =>
      by_cases later : WritesInt items key var
      · exact ih _ later
      · obtain ⟨named, target⟩ :=
          ((writesInt_cons item items key var).mp writes).resolve_right later
        have kept := (applySetting_frame console items key value
          (readData console item value config)).sameInts var later
        simp only [applySetting, List.foldl_cons, if_pos named] at kept ⊢
        rw [kept]
        rw [ItemClass.writesInt_iff] at target
        obtain ⟨name, type⟩ := item
        cases type with
        | check value' =>
            obtain rfl := Option.some.inj target
            exact Function.update_self _ _ _
        | text value' maxlen =>
            cases target
        | video value' =>
            obtain rfl := Option.some.inj target
            exact Function.update_self _ _ _

theorem settingAccesses_eq (console : Console) (key value : Text)
    (items : List ConfigurationItem) (videoMode : VideoModeItems items)
    (config : Config) (access : Access)
    (member : access ∈ settingAccesses console key value items config) :
    access = { table := .modeList, index := atoi value } ∧
      ∃ item ∈ items, key = item.name ∧ item.type.isVideo = true := by
  induction items generalizing config with
  | nil =>
      cases member
  | cons item items ih =>
      have laterMode : VideoModeItems items := fun other otherIn =>
        videoMode other (List.mem_cons_of_mem item otherIn)
      have inLater (config' : Config)
          (found : access ∈ settingAccesses console key value items config') :
          access = { table := .modeList, index := atoi value } ∧
            ∃ other ∈ item :: items, key = other.name ∧
              other.type.isVideo = true := by
        obtain ⟨same, other, otherIn, matching⟩ := ih laterMode config' found
        exact ⟨same, other, List.mem_cons_of_mem item otherIn, matching⟩
      rw [settingAccesses] at member
      split at member
      · rename_i named
        rcases List.mem_append.mp member with own | later
        · obtain ⟨name, type⟩ := item
          cases type with
          | check var => cases own
          | text var maxlen => cases own
          | video var =>
              obtain rfl := videoMode _ List.mem_cons_self var rfl
              obtain rfl := List.mem_singleton.mp own
              refine ⟨?_, _, List.mem_cons_self, named, rfl⟩
              rw [Config.setInt_ints, Function.update_self]
        · exact inLater _ later
      · exact inLater _ member

/-- Settings that meet the condition keep the mode in its list, and read the
list at such modes only. -/
theorem settings_mode (build : Build) (settings : List (Text × Text))
    (config : Config) (inList : ModeInList config)
    (modes : ∀ setting ∈ settings, isVideoModeKey setting.1 = true →
      0 ≤ atoi setting.2 ∧ atoi setting.2 < modeList.length) :
    ModeInList (runWrites (applySetting build.console build.tables.items)
        settings config) ∧
      ∀ access ∈ settingsAccesses build.console build.tables.items settings
        config, access.InBounds := by
  induction settings generalizing config with
  | nil =>
      refine ⟨inList, ?_⟩
      intro access impossible
      cases impossible
  | cons setting settings ih =>
      have here := modes setting List.mem_cons_self
      have next : ModeInList (applySetting build.console build.tables.items
          setting.1 setting.2 config) := by
        by_cases writes :
            WritesInt build.tables.items setting.1 .currentMode
        · rw [ModeInList, applySetting_written _ _ _ _ _ _ writes]
          exact here (build.tables.writes_currentMode writes)
        · rw [ModeInList, (applySetting_frame build.console
            build.tables.items setting.1 setting.2 config).sameInts
            .currentMode writes]
          exact inList
      obtain ⟨last, later⟩ := ih _ next fun other otherIn =>
        modes other (List.mem_cons_of_mem setting otherIn)
      refine ⟨last, ?_⟩
      intro access member
      rcases List.mem_append.mp member with own | inRest
      · obtain ⟨rfl, item, itemIn, named, video⟩ := settingAccesses_eq
          build.console setting.1 setting.2 build.tables.items
          build.tables.videoModeItems config access own
        have key := (build.tables.isVideo itemIn video).1
        rw [← named] at key
        exact here key
      · exact later access inRest

theorem settings_autoBootTime (build : Build) (settings : List (Text × Text))
    (config : Config) :
    (runWrites (applySetting build.console build.tables.items) settings
        config).ints .autoBootTime =
      (lastAutoBootTime settings).getD (config.ints .autoBootTime) := by
  induction settings generalizing config with
  | nil =>
      rfl
  | cons setting settings ih =>
      have step : (applySetting build.console build.tables.items setting.1
          setting.2 config).ints .autoBootTime =
          if isAutoBootKey setting.1 then atoi setting.2
          else config.ints .autoBootTime := by
        have writes := build.tables.writes_autoBootTime setting.1
        split
        · rename_i named
          exact applySetting_written _ _ _ _ _ _ (writes.mpr named)
        · rename_i other
          exact (applySetting_frame build.console build.tables.items
            setting.1 setting.2 config).sameInts .autoBootTime
            fun written => other (writes.mp written)
      change (runWrites (applySetting build.console build.tables.items)
        settings (applySetting build.console build.tables.items setting.1
          setting.2 config)).ints .autoBootTime = _
      rw [ih, step, lastAutoBootTime, lastAutoBootTime, List.filter_cons]
      split
      · rename_i named
        rw [List.getLast?_cons]
        cases (settings.filter fun setting =>
            isAutoBootKey setting.1).getLast? with
        | none => rfl
        | some last => rfl
      · rfl

/-! ### The invariant -/

structure MenuInv (state : MenuState) : Prop where
  mode : ModeInList state.config
  time : state.config.ints .autoBootTime ≤ 10
  startedTime : state.started = true → 0 ≤ state.config.ints .autoBootTime
  inBounds : ∀ access ∈ state.accesses, access.InBounds

theorem menuInv_initial : MenuInv .initial where
  mode := ⟨by decide, by decide⟩
  time := by decide
  startedTime := by decide
  inBounds := by
    intro access member
    simp only [MenuState.initial, List.mem_cons, List.not_mem_nil, or_false]
      at member
    rcases member with rfl | rfl | rfl
    · exact ⟨by decide, by decide⟩
    · exact ⟨by decide, by decide⟩
    · exact ⟨by decide, by decide⟩

theorem MenuInv.record {state : MenuState} (inv : MenuInv state)
    {config : Config} {accesses : List Access} (mode : ModeInList config)
    (time : config.ints .autoBootTime ≤ 10)
    (startedTime : state.started = true → 0 ≤ config.ints .autoBootTime)
    (inBounds : ∀ access ∈ accesses, access.InBounds) :
    MenuInv (state.record config accesses) where
  mode := mode
  time := time
  startedTime := startedTime
  inBounds := by
    intro access member
    rcases List.mem_append.mp member with before | now
    · exact inv.inBounds access before
    · exact inBounds access now

/-- A step that leaves the time alone and reads at the current mode only. -/
theorem MenuInv.readMode {state : MenuState} (inv : MenuInv state)
    {config : Config} {accesses : List Access} (mode : ModeInList config)
    (sameTime : config.ints .autoBootTime = state.config.ints .autoBootTime)
    (inBounds : ∀ access ∈ accesses, access.InBounds) :
    MenuInv (state.record config accesses) := by
  apply inv.record mode
  · rw [sameTime]
    exact inv.time
  · rw [sameTime]
    exact inv.startedTime
  · exact inBounds

/-- The three tables of the mode have the same size. -/
theorem ModeInList.inBounds {config : Config} (inList : ModeInList config)
    {table : IndexedTable} (ofMode : table ≠ .autoBootText) :
    Access.InBounds
      { table := table, index := config.ints .currentMode } := by
  obtain ⟨low, high⟩ := inList
  refine ⟨low, ?_⟩
  cases table with
  | modeList => exact high
  | frequenzy => exact high
  | modeDescription => exact high
  | autoBootText => exact absurd rfl ofMode

/-- A step that reads nothing. -/
theorem MenuInv.quiet {state : MenuState} (inv : MenuInv state)
    {config : Config} (mode : ModeInList config)
    (sameTime : config.ints .autoBootTime = state.config.ints .autoBootTime) :
    MenuInv (state.record config []) := by
  apply inv.readMode mode sameTime
  intro access impossible
  cases impossible

/-- A step that reads one of the tables of the mode. -/
theorem MenuInv.readAtMode {state : MenuState} (inv : MenuInv state)
    {config : Config} (mode : ModeInList config)
    (sameTime : config.ints .autoBootTime = state.config.ints .autoBootTime)
    {table : IndexedTable} (ofMode : table ≠ .autoBootText) :
    MenuInv (state.record config
      [{ table := table, index := state.config.ints .currentMode }]) := by
  apply inv.readMode mode sameTime
  intro access member
  obtain rfl := List.mem_singleton.mp member
  exact inv.mode.inBounds ofMode

theorem graphicPaint_inBounds {state : MenuState} (inv : MenuInv state)
    {shown : Shown} (possible : shown.possible state.started = true) :
    ∀ access ∈ graphicPaint shown state.config, access.InBounds := by
  intro access member
  have ofMode : ∀ table, table ≠ IndexedTable.autoBootText →
      access = { table := table, index := state.config.ints .currentMode } →
        access.InBounds := by
    rintro table other rfl
    exact inv.mode.inBounds other
  cases shown with
  | other =>
      simp only [graphicPaint, List.append_nil, List.mem_append,
        List.mem_singleton] at member
      rcases member with description | frequency
      · exact ofMode _ (by decide) description
      · exact ofMode _ (by decide) frequency
  | input =>
      simp only [graphicPaint, List.mem_append, List.mem_singleton] at member
      rcases member with (description | cursor) | frequency
      · exact ofMode _ (by decide) description
      · exact ofMode _ (by decide) cursor
      · exact ofMode _ (by decide) frequency
  | autoBootEntry =>
      simp only [graphicPaint, List.mem_append, List.mem_singleton] at member
      rcases member with (description | rfl) | frequency
      · exact ofMode _ (by decide) description
      · have high := inv.time
        refine ⟨inv.startedTime possible, ?_⟩
        change state.config.ints .autoBootTime < ((12 : Nat) : Int)
        omega
      · exact ofMode _ (by decide) frequency

theorem applyVideoMode_inBounds (console : Console) {config : Config}
    (inList : ModeInList config) :
    ∀ access ∈ applyVideoMode console config, access.InBounds := by
  intro access member
  have read : access =
      { table := .modeList, index := config.ints .currentMode } := by
    rw [applyVideoMode] at member
    split at member
    · exact List.mem_singleton.mp member
    · rcases List.mem_pair.mp member with first | second
      · exact first
      · exact second
  rw [read]
  exact inList.inBounds (by decide)

/-! ### The steps -/

theorem loaded_inv (build : Build) {state : MenuState} (inv : MenuInv state)
    (settings : List (Text × Text))
    (met : SettingsMet state.started settings) :
    MenuInv (state.record
      (runWrites (applySetting build.console build.tables.items) settings
        state.config)
      (settingsAccesses build.console build.tables.items settings
        state.config)) := by
  obtain ⟨modes, times⟩ := met
  obtain ⟨mode, reads⟩ := settings_mode build settings state.config inv.mode
    modes
  have time := settings_autoBootTime build settings state.config
  cases last : lastAutoBootTime settings with
  | none =>
      rw [last, Option.getD_none] at time
      exact inv.readMode mode time reads
  | some value =>
      rw [last, Option.getD_some] at time
      obtain ⟨high, low⟩ := times value last
      apply inv.record mode
      · rw [time]
        exact high
      · rw [time]
        exact low
      · exact reads

theorem changeModeStep_inv (build : Build) {state : MenuState}
    (inv : MenuInv state) {shown : Shown}
    (possible : shown.possible state.started = true) :
    MenuInv (changeModeStep build shown state) := by
  have same := changeMode_of_inList inv.mode
  have switching : Access.InBounds
      { table := .modeDescription
        index := state.config.ints .currentMode } :=
    inv.mode.inBounds (by decide)
  unfold changeModeStep
  simp only [same]
  split
  · apply inv.readMode inv.mode rfl
    intro access member
    obtain rfl := List.mem_singleton.mp member
    exact switching
  · have painted := graphicPaint_inBounds inv possible
    have applied := applyVideoMode_inBounds build.console inv.mode
    have next : MenuInv (state.record state.config
        ([{ table := .modeDescription
            index := state.config.ints .currentMode }] ++
          applyVideoMode build.console state.config ++
          graphicPaint shown state.config ++
          graphicPaint shown state.config)) := by
      apply inv.readMode inv.mode rfl
      intro access member
      simp only [List.mem_append, List.mem_singleton] at member
      rcases member with ((rfl | inMode) | first) | second
      · exact switching
      · exact applied access inMode
      · exact painted access first
      · exact painted access second
    exact
      { mode := next.mode
        time := next.time
        startedTime := next.startedTime
        inBounds := next.inBounds }

theorem mode_setInt (config : Config) {mode : Int} (low : 0 ≤ mode)
    (high : mode < modeList.length) :
    ModeInList (config.setInt .currentMode mode) := by
  rw [ModeInList, Config.setInt_ints, Function.update_self]
  exact ⟨low, high⟩

theorem nextAutoBoot_inList (besideIsNull : Int → Bool) {value : Int}
    (low : 0 ≤ value) (high : value ≤ 10) :
    0 ≤ nextAutoBoot besideIsNull value ∧
      nextAutoBoot besideIsNull value ≤ 10 := by
  by_cases last : value = 10
  · have wraps : nextAutoBoot besideIsNull 10 = 0 := rfl
    rw [last, wraps]
    exact ⟨by decide, by decide⟩
  · have choice : nextAutoBoot besideIsNull value = 0 ∨
        nextAutoBoot besideIsNull value = value + 1 :=
      ite_eq_or_eq _ _ _
    omega

theorem switchAutoBoot_inv (besideIsNull : Int → Bool) {state : MenuState}
    (inv : MenuInv state) (started : state.started = true) :
    MenuInv (state.record
      (state.config.setInt .autoBootTime
        (nextAutoBoot besideIsNull (state.config.ints .autoBootTime)))
      [{ table := .autoBootText
         index := state.config.ints .autoBootTime + 1 },
        { table := .autoBootText
          index := nextAutoBoot besideIsNull
            (state.config.ints .autoBootTime) }]) := by
  have low := inv.startedTime started
  have high := inv.time
  obtain ⟨nextLow, nextHigh⟩ := nextAutoBoot_inList besideIsNull low high
  have time (value : Int) :
      (state.config.setInt .autoBootTime value).ints .autoBootTime =
        value := by
    rw [Config.setInt_ints, Function.update_self]
  apply inv.record
  · exact inv.mode
  · rw [time]
    exact nextHigh
  · intro _started
    rw [time]
    exact nextLow
  · intro access member
    have listed (index : Int) (indexLow : 0 ≤ index) (indexHigh : index ≤ 11) :
        Access.InBounds { table := .autoBootText, index := index } := by
      refine ⟨indexLow, ?_⟩
      change index < ((12 : Nat) : Int)
      omega
    rcases List.mem_pair.mp member with rfl | rfl
    · exact listed _ (by omega) (by omega)
    · exact listed _ nextLow (by omega)

theorem finishStartup_inv {state : MenuState} (inv : MenuInv state) :
    MenuInv
      { state.record
          (state.config.setInt .autoBootTime
            (if state.config.ints .autoBootTime < 0 then 0
              else state.config.ints .autoBootTime))
          [{ table := .frequenzy
             index := state.config.ints .currentMode }] with
        started := true } := by
  have high := inv.time
  have time (value : Int) :
      (state.config.setInt .autoBootTime value).ints .autoBootTime =
        value := by
    rw [Config.setInt_ints, Function.update_self]
  refine
    { mode := inv.mode
      time := ?_
      startedTime := ?_
      inBounds := ?_ }
  · change (state.config.setInt .autoBootTime _).ints .autoBootTime ≤ 10
    rw [time]
    split <;> omega
  · intro _started
    change 0 ≤ (state.config.setInt .autoBootTime _).ints .autoBootTime
    rw [time]
    split <;> omega
  · intro access member
    rcases List.mem_append.mp member with before | now
    · exact inv.inBounds access before
    · obtain rfl := List.mem_singleton.mp now
      exact inv.mode.inBounds (by decide)

theorem setInt_autoBootTime (config : Config) {var : IntVar} (value : Int)
    (differs : var ≠ .autoBootTime) :
    (config.setInt var value).ints .autoBootTime =
      config.ints .autoBootTime := by
  rw [Config.setInt_ints, Function.update_of_ne differs.symm]

/-- Another mode of the list is stored. -/
theorem MenuInv.storeMode {state : MenuState} (inv : MenuInv state)
    {mode : Int} (low : 0 ≤ mode) (high : mode < modeList.length) :
    MenuInv (state.record (state.config.setInt .currentMode mode) []) :=
  inv.quiet (mode_setInt state.config low high)
    (setInt_autoBootTime state.config mode (by decide))

theorem switchCheck_inv {state : MenuState} (inv : MenuInv state)
    {var : IntVar} (check : var.isCheckEntry = true) (value : Int) :
    MenuInv (state.record (state.config.setInt var value) []) := by
  have notTime : var ≠ .autoBootTime := by
    intro isTime
    rw [isTime] at check
    cases check
  have notMode : var ≠ .currentMode := by
    intro isMode
    rw [isMode] at check
    cases check
  apply inv.quiet _ (setInt_autoBootTime state.config value notTime)
  rw [ModeInList, Config.setInt_ints, Function.update_of_ne notMode.symm]
  exact inv.mode

/-- Every step that meets the condition keeps the invariant. -/
theorem menuStep_inv (menu : MenuBuild) {state next : MenuState}
    {event : MenuEvent} (inv : MenuInv state) (met : MenuMet state event)
    (stepped : menuStep menu state event = some next) : MenuInv next := by
  have size : (modeList.length : Int) = 11 := rfl
  obtain ⟨low, high⟩ := inv.mode
  cases event with
  | loadConfiguration text =>
      obtain rfl := Option.some.inj stepped
      rw [loadConfiguration, foldl_applyConfigLine]
      exact loaded_inv menu.build inv (fileSettings text) met
  | loadConfigurationFromRom text =>
      obtain rfl := Option.some.inj stepped
      rw [loadConfigurationFromRom, foldl_applyConfigLine]
      exact loaded_inv menu.build inv (romSettings text) met
  | incrementMode =>
      obtain rfl := Option.some.inj stepped
      apply inv.storeMode <;> simp only [incrementMode] <;> split <;> omega
  | decrementMode =>
      obtain rfl := Option.some.inj stepped
      apply inv.storeMode <;> simp only [decrementMode] <;> split <;> omega
  | setMode mode =>
      simp only [menuStep] at stepped
      split at stepped
      · rename_i listed
        obtain rfl := Option.some.inj stepped
        exact inv.storeMode met listed
      · obtain rfl := Option.some.inj stepped
        exact inv
  | changeMode shown =>
      simp only [menuStep] at stepped
      split at stepped
      · rename_i possible
        obtain rfl := Option.some.inj stepped
        exact changeModeStep_inv menu.build inv possible
      · cases stepped
  | getModeFrequenzy =>
      obtain rfl := Option.some.inj stepped
      exact inv.readAtMode inv.mode rfl (by decide)
  | setDefaultVideoParameter =>
      obtain rfl := Option.some.inj stepped
      have notText : IndexedTable.modeList ≠ .autoBootText := by decide
      have mode : ModeInList (Settings.setDefaultVideoParameter
        menu.build.console state.config) := inv.mode
      exact inv.readAtMode mode rfl notText
  | setDefaultConfiguration env =>
      obtain rfl := Option.some.inj stepped
      apply inv.record
      · exact inv.mode
      · change (0 : Int) ≤ 10
        decide
      · intro _started
        exact Int.le_refl 0
      · intro access member
        obtain rfl := List.mem_singleton.mp member
        exact inv.mode.inBounds (by decide)
  | paint shown =>
      simp only [menuStep] at stepped
      split at stepped
      · rename_i possible
        obtain rfl := Option.some.inj stepped
        exact inv.readMode inv.mode rfl (graphicPaint_inBounds inv possible)
      · cases stepped
  | switchAutoBoot =>
      simp only [menuStep] at stepped
      split at stepped
      · rename_i started
        obtain rfl := Option.some.inj stepped
        exact switchAutoBoot_inv menu.besideIsNull inv started
      · cases stepped
  | switchCheck var =>
      simp only [menuStep] at stepped
      split at stepped
      · rename_i check
        obtain rfl := Option.some.inj stepped
        exact switchCheck_inv inv check.2 _
      · cases stepped
  | finishStartup =>
      simp only [menuStep] at stepped
      split at stepped
      · cases stepped
      · obtain rfl := Option.some.inj stepped
        exact finishStartup_inv inv

/-- In every run whose loads and `setMode` calls meet the condition, every
indexed read of the menu is in bounds. -/
theorem menu_accesses_inBounds (menu : MenuBuild) (state : MenuState)
    (reached : (menuMachine menu).Reach MenuMet state) :
    ∀ access ∈ state.accesses, access.InBounds := by
  have inv : MenuInv state :=
    reached.invariant menuInv_initial fun _ _ _ before met stepped =>
      menuStep_inv menu before met stepped
  exact inv.inBounds

def smallMenu : MenuBuild :=
  { build := smallBuild none, besideIsNull := fun _ => false }

/-- A card whose configuration chooses a mode and an instant boot. -/
def instantConfig : Text := "videomode=7\nAutoBootTime=-1\n".toList

instance (started : Bool) (settings : List (Text × Text)) :
    Decidable (SettingsMet started settings) :=
  inferInstanceAs (Decidable (_ ∧ _))

instance (state : MenuState) (event : MenuEvent) :
    Decidable (MenuMet state event) :=
  match event with
  | .loadConfiguration text =>
      inferInstanceAs (Decidable (SettingsMet state.started (fileSettings text)))
  | .loadConfigurationFromRom text =>
      inferInstanceAs (Decidable (SettingsMet state.started (romSettings text)))
  | .setMode mode => inferInstanceAs (Decidable (0 ≤ mode))
  | .incrementMode => isTrue trivial
  | .decrementMode => isTrue trivial
  | .changeMode _ => isTrue trivial
  | .getModeFrequenzy => isTrue trivial
  | .setDefaultVideoParameter => isTrue trivial
  | .setDefaultConfiguration _ => isTrue trivial
  | .paint _ => isTrue trivial
  | .switchAutoBoot => isTrue trivial
  | .switchCheck _ => isTrue trivial
  | .finishStartup => isTrue trivial

def instantRun : List MenuEvent :=
  [.loadConfiguration instantConfig, .changeMode .other, .finishStartup,
    .paint .autoBootEntry, .switchAutoBoot, .incrementMode,
    .changeMode .autoBootEntry]

theorem instantRun_inBounds :
    ∃ state, (menuMachine smallMenu).Reach MenuMet state ∧
      state.config.ints .autoBootTime = 1 ∧
      state.config.ints .currentMode = 8 ∧
      ∀ access ∈ state.accesses, access.InBounds := by
  have ran : ((menuMachine smallMenu).follow MenuMet instantRun
      (menuMachine smallMenu).initial).map (fun state =>
        (state.config.ints .autoBootTime, state.config.ints .currentMode)) =
      some (1, 8) := by
    decide +kernel
  obtain ⟨state, followed, values⟩ := Option.map_eq_some_iff.mp ran
  have reached := Machine.Reach.follow instantRun .initial followed
  obtain ⟨time, mode⟩ := Prod.mk.inj values
  exact ⟨state, reached, time, mode,
    menu_accesses_inBounds smallMenu state reached⟩

/-- A file with a mode behind the end of `modeList` makes the line handler
itself read outside of it. -/
theorem unknownMode_outOfBounds :
    ¬ ∀ menu state,
      (menuMachine menu).Reach (fun _ _ => True) state →
        ∀ access ∈ state.accesses, access.InBounds := by
  intro always
  have ran : ((menuMachine smallMenu).follow (fun _ _ => True)
      [.loadConfiguration "videomode=99\n".toList]
      (menuMachine smallMenu).initial).map (fun state =>
        decide ({ table := .modeList, index := 99 } ∈ state.accesses)) =
      some true := by
    decide +kernel
  obtain ⟨state, followed, member⟩ := Option.map_eq_some_iff.mp ran
  have reached := Machine.Reach.follow _ .initial followed
  have bounded := always smallMenu state reached _ (of_decide_eq_true member)
  exact absurd bounded.2 (by decide)

end KernelReloaded.Settings

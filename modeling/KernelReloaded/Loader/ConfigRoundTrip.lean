/-
Saving the configuration and loading the file again.

Every line holds one item's name and value.  The names are distinct, so a line
reaches its own item only; the video mode comes first, so the video parameter
it rewrites is set again by a later line.
-/

import KernelReloaded.Loader.Configuration
import Mathlib.Data.List.Nodup

namespace KernelReloaded.Settings

open CText

/-- What the loader's variables can hold when they are saved. -/
structure HeldConfig where
  config : Config
  inIntRange : ∀ var, InIntRange (config.ints var)
  modeInList : 0 ≤ config.ints .currentMode ∧
    config.ints .currentMode < modeList.length
  textLength : ∀ var, (config.texts var).length < maxInputLen
  textNulFree : ∀ var, '\x00' ∉ config.texts var
  textLineEndFree : ∀ var, ∀ char ∈ config.texts var, isLineEnd char = false

/-! ### The registered items -/

theorem initMenu_cases {modules : List ModuleEntry}
    {sbiosDescription : List Text} {item : ConfigurationItem}
    (member : item ∈ initMenu modules sbiosDescription) :
    (∃ entry ∈ modules, item.name = entry.path ∧
        ∃ index, item.type = .check (.moduleLoad index)) ∨
      (∃ name ∈ sbiosDescription, item.name = name ∧
        ∃ index, item.type = .check (.sbiosCallEnabled index)) ∨
      item ∈ initMenu [] [] := by
  rw [initMenu, List.mem_append, List.mem_append, List.mem_append] at member
  rcases member with ((paths | options) | descriptions) | autoBoot
  · obtain ⟨⟨entry, index⟩, inTable, rfl⟩ := List.mem_map.mp paths
    rw [List.mk_mem_zipIdx_iff_getElem?] at inTable
    exact .inl ⟨entry, List.mem_of_getElem? inTable, rfl, index, rfl⟩
  · exact .inr (.inr (List.mem_append_left _ (List.mem_append_left _ options)))
  · obtain ⟨⟨name, index⟩, inTable, rfl⟩ := List.mem_map.mp descriptions
    rw [List.mk_mem_zipIdx_iff_getElem?] at inTable
    exact .inr (.inl ⟨name, List.mem_of_getElem? inTable, rfl, index, rfl⟩)
  · exact .inr (.inr (List.mem_append_right _ autoBoot))

private theorem fixed_names_plain :
    ∀ item ∈ videoModeItem :: (registerLoaderConfigItems ++ initMenu [] []),
      item.name.all isPlainChar = true ∧
        item.name.length + 1 + maxInputLen < maximumConfigLength := by
  decide +kernel

theorem MenuTables.plainName (tables : MenuTables) :
    ∀ item ∈ tables.items, PlainName item.name := by
  intro item member
  have fixed (registered : item ∈ videoModeItem ::
      (registerLoaderConfigItems ++ initMenu [] [])) : PlainName item.name := by
    obtain ⟨plain, short⟩ := fixed_names_plain item registered
    exact plainName_of_all plain short
  rw [MenuTables.items, registeredItems, List.mem_cons, List.mem_append]
    at member
  rcases member with video | loader | menu
  · exact fixed (List.mem_cons.mpr (.inl video))
  · exact fixed (List.mem_cons_of_mem _ (List.mem_append_left _ loader))
  · rcases initMenu_cases menu with
      ⟨entry, inTable, named, -⟩ | ⟨name, inTable, named, -⟩ | option
    · exact named ▸ tables.plainPaths entry inTable
    · exact named ▸ tables.plainDescriptions name inTable
    · exact fixed (List.mem_cons_of_mem _ (List.mem_append_right _ option))

/-- Reading the item changes its own variable only, and keeps any text shorter
than `MAX_INPUT_LEN` whole. -/
def ItemClass.isOrdinary : ItemClass → Bool
  | .check _ => true
  | .text _ maxlen => maxlen == maxInputLen
  | .video _ => false

theorem later_items_ordinary {modules : List ModuleEntry}
    {sbiosDescription : List Text} {item : ConfigurationItem}
    (member : item ∈
      registerLoaderConfigItems ++ initMenu modules sbiosDescription) :
    item.type.isOrdinary = true := by
  have fixed : ∀ item ∈ registerLoaderConfigItems ++ initMenu [] [],
      item.type.isOrdinary = true := by
    decide
  rcases List.mem_append.mp member with loader | menu
  · exact fixed item (List.mem_append_left _ loader)
  · rcases initMenu_cases menu with
      ⟨entry, -, -, index, type⟩ | ⟨name, -, -, index, type⟩ | option
    · rw [type]
      rfl
    · rw [type]
      rfl
    · exact fixed item (List.mem_append_right _ option)

/-! ### One line -/

def valueText (config : Config) : ItemClass → Text
  | .check var => formatInt (config.ints var)
  | .text var _ => config.texts var
  | .video var => formatInt (config.ints var)

def itemLine (config : Config) (item : ConfigurationItem) : Text :=
  item.name ++ '=' :: valueText config item.type

private theorem formatInt_plain {value : Int} {char : Char}
    (member : char ∈ formatInt value) :
    char ≠ '\x00' ∧ isLineEnd char = false := by
  have digits : char.isDigit = true → char ≠ '\x00' ∧ isLineEnd char = false := by
    intro digit
    refine ⟨?_, ?_⟩
    · rintro rfl
      exact absurd digit (by decide)
    · by_contra lineEnd
      simp only [isLineEnd, Bool.not_eq_false, Bool.or_eq_true, beq_iff_eq]
        at lineEnd
      rcases lineEnd with rfl | rfl <;> exact absurd digit (by decide)
  rcases mem_formatInt member with digit | rfl
  · exact digits digit
  · decide

theorem valueText_plain (held : HeldConfig) (type : ItemClass) :
    (∀ char ∈ valueText held.config type,
        char ≠ '\x00' ∧ isLineEnd char = false) ∧
      (valueText held.config type).length < maxInputLen := by
  have number (var : IntVar) :
      (∀ char ∈ formatInt (held.config.ints var),
          char ≠ '\x00' ∧ isLineEnd char = false) ∧
        (formatInt (held.config.ints var)).length < maxInputLen := by
    refine ⟨fun char member => formatInt_plain member, ?_⟩
    have short := formatInt_length (held.inIntRange var)
    have size : maxInputLen = 1024 := rfl
    omega
  cases type with
  | check var => exact number var
  | text var maxlen =>
      refine ⟨fun char member => ⟨?_, ?_⟩, held.textLength var⟩
      · rintro rfl
        exact held.textNulFree var member
      · exact held.textLineEndFree var char member
  | video var => exact number var

theorem itemLine_plain (held : HeldConfig) {item : ConfigurationItem}
    (plain : PlainName item.name) :
    (∀ char ∈ itemLine held.config item,
        char ≠ '\x00' ∧ isLineEnd char = false) ∧
      (itemLine held.config item).length + 1 < maximumConfigLength := by
  obtain ⟨valuePlain, valueShort⟩ := valueText_plain held item.type
  constructor
  · intro char member
    rw [itemLine, List.mem_append, List.mem_cons] at member
    rcases member with inName | rfl | inValue
    · refine ⟨?_, plain.noLineEnd char inName⟩
      rintro rfl
      exact plain.nulFree inName
    · decide
    · exact valuePlain char inValue
  · have short := plain.short
    rw [itemLine, List.length_append, List.length_cons]
    omega

private theorem writeInt_eq {name : Text} {value : Int}
    (short : (name ++ '=' :: formatInt value).length + 1 <
      maximumConfigLength) :
    writeInt name value = some (name ++ '=' :: formatInt value ++ ['\n']) := by
  have same : name ++ '=' :: (formatInt value ++ ['\n']) =
      name ++ '=' :: formatInt value ++ ['\n'] := by
    rw [List.append_assoc, List.cons_append]
  have fits : (name ++ '=' :: formatInt value ++ ['\n']).length <
      maximumConfigLength := by
    rw [List.length_append]
    exact short
  simp only [writeInt, same, if_pos fits]

theorem writeData_eq (held : HeldConfig) {item : ConfigurationItem}
    (plain : PlainName item.name) :
    writeData item held.config =
      some (itemLine held.config item ++ ['\n']) := by
  have short := (itemLine_plain held plain).2
  obtain ⟨name, type⟩ := item
  cases type with
  | check var => exact writeInt_eq short
  | text var maxlen => simp [writeData, itemLine, valueText]
  | video var => exact writeInt_eq short

theorem saveConfiguration_eq (held : HeldConfig)
    (items : List ConfigurationItem)
    (plain : ∀ item ∈ items, PlainName item.name) :
    saveConfiguration items held.config =
      some ((items.map (itemLine held.config)).flatMap
        fun body => body ++ ['\n']) := by
  induction items with
  | nil => rfl
  | cons item items ih =>
      have rest := ih fun other member =>
        plain other (List.mem_cons_of_mem item member)
      rw [saveConfiguration] at rest ⊢
      rw [List.foldrM_cons, rest]
      simp [writeData_eq held (plain item List.mem_cons_self)]

theorem foldl_key_eq (console : Console) (value : Text)
    {items : List ConfigurationItem} {item : ConfigurationItem}
    (distinct : (items.map ConfigurationItem.name).Nodup)
    (member : item ∈ items) (config : Config) :
    items.foldl (fun config other =>
        if item.name = other.name then readData console other value config
        else config) config =
      readData console item value config := by
  have skipped (others : List ConfigurationItem)
      (absent : item.name ∉ others.map ConfigurationItem.name)
      (config : Config) :
      others.foldl (fun config other =>
        if item.name = other.name then readData console other value config
        else config) config = config := by
    induction others generalizing config with
    | nil => rfl
    | cons other others ih =>
        rw [List.map_cons, List.mem_cons, not_or] at absent
        rw [List.foldl_cons, if_neg absent.1, ih absent.2]
  induction items generalizing config with
  | nil => cases member
  | cons head items ih =>
      rw [List.map_cons, List.nodup_cons] at distinct
      rw [List.foldl_cons]
      rcases List.mem_cons.mp member with rfl | later
      · rw [if_pos rfl, skipped items distinct.1]
      · have other : item.name ≠ head.name := by
          intro same
          exact distinct.1 (same ▸ List.mem_map_of_mem later)
        rw [if_neg other, ih distinct.2 later]

theorem applyConfigLine_of_key (tables : MenuTables) (console : Console)
    {item : ConfigurationItem} (member : item ∈ tables.items)
    {line value : Text}
    (stripped : stripLineEnd (cstring line) = item.name ++ '=' :: value)
    (config : Config) :
    applyConfigLine console tables.items line config =
      readData console item value config := by
  rw [applyConfigLine, stripped,
    keyValue_append (tables.plainName item member).noEquals]
  exact foldl_key_eq console value tables.distinct member config

theorem applyConfigLine_itemLine (tables : MenuTables) (console : Console)
    (held : HeldConfig) {item : ConfigurationItem}
    (member : item ∈ tables.items) (config : Config) :
    applyConfigLine console tables.items
        (itemLine held.config item ++ ['\n']) config =
      readData console item (valueText held.config item.type) config := by
  obtain ⟨linePlain, -⟩ := itemLine_plain held (tables.plainName item member)
  have whole : cstring (itemLine held.config item ++ ['\n']) =
      itemLine held.config item ++ ['\n'] := by
    rw [cstring, List.takeWhile_eq_self_iff]
    intro char inLine
    rcases List.mem_append.mp inLine with inItem | newline
    · simpa using (linePlain char inItem).1
    · rw [List.mem_singleton.mp newline]
      decide
  apply applyConfigLine_of_key tables console member
  rw [whole]
  exact stripLineEnd_newline fun char inItem => (linePlain char inItem).2

/-! ### The whole file -/

def Restored (saved config : Config) (item : ConfigurationItem) : Prop :=
  item.value config = item.value saved

namespace Restored

variable {saved config : Config} {item : ConfigurationItem}

private theorem update_saved {Var Value : Type*} [DecidableEq Var]
    {now kept : Var → Value} {var other : Var} (same : now other = kept other) :
    Function.update now var (kept var) other = kept other := by
  by_cases this : other = var
  · subst other
    exact Function.update_self ..
  · rw [Function.update_of_ne this, same]

theorem setInt (restored : Restored saved config item) (var : IntVar) :
    Restored saved (config.setInt var (saved.ints var)) item := by
  obtain ⟨name, type⟩ := item
  cases type with
  | check other =>
      exact congrArg ItemValue.int (update_saved (ItemValue.int.inj restored))
  | text other maxlen => exact restored
  | video other =>
      exact congrArg ItemValue.int (update_saved (ItemValue.int.inj restored))

theorem setText (restored : Restored saved config item) (var : TextVar) :
    Restored saved (config.setText var (saved.texts var)) item := by
  obtain ⟨name, type⟩ := item
  cases type with
  | check other => exact restored
  | text other maxlen =>
      exact congrArg ItemValue.text (update_saved (ItemValue.text.inj restored))
  | video other => exact restored

end Restored

theorem readData_ordinary (console : Console) (held : HeldConfig)
    (config : Config) {item : ConfigurationItem}
    (ordinary : item.type.isOrdinary = true) :
    let loaded := readData console item (valueText held.config item.type) config
    Restored held.config loaded item ∧
      ∀ other, Restored held.config config other →
        Restored held.config loaded other := by
  obtain ⟨name, type⟩ := item
  cases type with
  | check var =>
      have loads : readData console ⟨name, .check var⟩
          (valueText held.config (.check var)) config =
            config.setInt var (held.config.ints var) := by
        rw [readData, valueText, atoi_formatInt (held.inIntRange var)]
      dsimp only
      rw [loads]
      refine ⟨?_, fun other restored => restored.setInt var⟩
      exact congrArg ItemValue.int (Function.update_self ..)
  | text var maxlen =>
      have sized : maxlen = maxInputLen := beq_iff_eq.mp ordinary
      have short := held.textLength var
      have loads : readData console ⟨name, .text var maxlen⟩
          (valueText held.config (.text var maxlen)) config =
            config.setText var (held.config.texts var) := by
        change config.setText var ((held.config.texts var).take _) = _
        rw [List.take_of_length_le (by omega)]
      dsimp only
      rw [loads]
      refine ⟨?_, fun other restored => restored.setText var⟩
      exact congrArg ItemValue.text (Function.update_self ..)
  | video var => cases ordinary

theorem readData_video (console : Console) (held : HeldConfig)
    (config : Config) (name : Text) (var : IntVar) :
    Restored held.config
      (readData console ⟨name, .video var⟩
        (valueText held.config (.video var)) config) ⟨name, .video var⟩ := by
  have number : atoi (formatInt (held.config.ints var)) =
      held.config.ints var :=
    atoi_formatInt (held.inIntRange var)
  refine congrArg ItemValue.int ?_
  change (configureVideoParameter console (config.setInt var
    (atoi (formatInt (held.config.ints var))))).ints var = _
  rw [configureVideoParameter, setDefaultVideoParameter, Config.setText_ints,
    Config.setInt_ints, Function.update_self, number]

theorem foldl_lines_restores (tables : MenuTables) (console : Console)
    (held : HeldConfig) (items : List ConfigurationItem)
    (registered : ∀ item ∈ items, item ∈ tables.items)
    (ordinary : ∀ item ∈ items, item.type.isOrdinary = true)
    (config : Config) :
    let loaded := (items.map fun item =>
        itemLine held.config item ++ ['\n']).foldl
      (fun config line => applyConfigLine console tables.items line config)
      config
    (∀ item ∈ items, Restored held.config loaded item) ∧
      ∀ other, Restored held.config config other →
        Restored held.config loaded other := by
  induction items generalizing config with
  | nil => exact ⟨nofun, fun other restored => restored⟩
  | cons item items ih =>
      have step := readData_ordinary console held config
        (ordinary item List.mem_cons_self)
      obtain ⟨later, kept⟩ := ih
        (fun other member => registered other (List.mem_cons_of_mem _ member))
        (fun other member => ordinary other (List.mem_cons_of_mem _ member))
        (readData console item (valueText held.config item.type) config)
      dsimp only
      rw [List.map_cons, List.foldl_cons, applyConfigLine_itemLine tables
        console held (registered item List.mem_cons_self)]
      refine ⟨?_, fun other restored => kept other (step.2 other restored)⟩
      intro other member
      rcases List.mem_cons.mp member with rfl | inRest
      · exact kept other step.1
      · exact later other inRest

/-- Saving any configuration the loader can hold and loading the file, from
any other values, restores every registered item. -/
theorem loadConfiguration_saveConfiguration (tables : MenuTables)
    (console : Console) (held : HeldConfig) (start : Config) :
    ∃ file, saveConfiguration tables.items held.config = some file ∧
      ∀ item ∈ tables.items,
        item.value (loadConfiguration console tables.items file start) =
          item.value held.config := by
  refine ⟨_, saveConfiguration_eq held tables.items tables.plainName, ?_⟩
  have lines : ∀ body ∈ tables.items.map (itemLine held.config),
      '\n' ∉ body ∧ body.length + 1 < maximumConfigLength := by
    intro body member
    obtain ⟨item, registered, rfl⟩ := List.mem_map.mp member
    obtain ⟨linePlain, short⟩ :=
      itemLine_plain held (tables.plainName item registered)
    refine ⟨?_, short⟩
    intro newline
    exact absurd (linePlain _ newline).2 (by decide)
  have enough (bodies : List Text) : bodies.length ≤
      (bodies.flatMap fun body => body ++ ['\n']).length := by
    induction bodies with
    | nil => exact Nat.le_refl _
    | cons body bodies ih =>
        rw [List.flatMap_cons, List.length_append, List.length_append,
          List.length_cons, List.length_singleton]
        omega
  rw [loadConfiguration, fileLines_of_lines maximumConfigLength _ lines _
    (enough _), List.map_map]
  have first : tables.items = videoModeItem ::
      (registerLoaderConfigItems ++
        initMenu tables.modules tables.sbiosDescription) := rfl
  have videoRegistered : videoModeItem ∈ tables.items := by
    rw [first]
    exact List.mem_cons_self
  obtain ⟨later, kept⟩ := foldl_lines_restores tables console held
    (registerLoaderConfigItems ++
      initMenu tables.modules tables.sbiosDescription)
    (fun item member => by rw [first]; exact List.mem_cons_of_mem _ member)
    (fun item member => later_items_ordinary member)
    (readData console videoModeItem
      (valueText held.config videoModeItem.type) start)
  have opened : (tables.items.map ((fun body => body ++ ['\n']) ∘
      itemLine held.config)).foldl (fun config line =>
        applyConfigLine console tables.items line config) start =
      ((registerLoaderConfigItems ++
          initMenu tables.modules tables.sbiosDescription).map
        fun item => itemLine held.config item ++ ['\n']).foldl
        (fun config line => applyConfigLine console tables.items line config)
        (readData console videoModeItem
          (valueText held.config videoModeItem.type) start) := by
    have split : tables.items.map ((fun body => body ++ ['\n']) ∘
        itemLine held.config) =
        (itemLine held.config videoModeItem ++ ['\n']) ::
          (registerLoaderConfigItems ++
            initMenu tables.modules tables.sbiosDescription).map
          fun item => itemLine held.config item ++ ['\n'] := by
      rw [first, List.map_cons]
      rfl
    rw [split, List.foldl_cons,
      applyConfigLine_itemLine tables console held videoRegistered]
  rw [opened]
  intro item member
  rw [first] at member
  rcases List.mem_cons.mp member with rfl | behind
  · exact kept _ (readData_video console held start _ _)
  · exact later item behind

/-! ### A small build -/

/-- The sum of the characters tells the registered names apart. -/
def nameSum (name : Text) : Nat :=
  name.foldl (fun sum char => sum + char.toNat) 0

def smallTables : MenuTables :=
  { modules :=
      [{ path := "mc0:kloader/init.irx".toList, slim := 0, defaultmod := 0, sound := 0,
         debugMode := 0 },
        { path := "rom0:ADDDRV".toList, slim := 0, defaultmod := 1, sound := 0,
          debugMode := -1 }]
    sbiosDescription := ["0 SB_GETVER".toList, "1 SB_HALT".toList]
    plainPaths := by
      intro entry member
      simp only [List.mem_cons, List.not_mem_nil, or_false] at member
      rcases member with rfl | rfl
      · exact plainName_of_all (by decide +kernel) (by decide +kernel)
      · exact plainName_of_all (by decide +kernel) (by decide +kernel)
    plainDescriptions := by
      intro name member
      simp only [List.mem_cons, List.not_mem_nil, or_false] at member
      rcases member with rfl | rfl
      · exact plainName_of_all (by decide +kernel) (by decide +kernel)
      · exact plainName_of_all (by decide +kernel) (by decide +kernel)
    distinct := List.Nodup.of_map nameSum (by decide +kernel) }

def smallTexts : TextVar → Text
  | .kernelParameter => "crtmode=ntsc1 root=/dev/sda1".toList
  | .videoParameter => "video=ps2fb:ntsc,640x448-32".toList
  | .kernelFilename => "mc0:kloader/vmlinux.gz".toList
  | .initrdFilename => []
  | _ => "192.168.0.10".toList

/-- Texts with blanks and `=`, a mode inside of the list and a negative time. -/
def smallHeld : HeldConfig :=
  { config :=
      { ints := fun
          | .currentMode => 6
          | .autoBootTime => -1
          | .moduleLoad index => if index = 0 then 1 else 0
          | _ => 1
        texts := smallTexts }
    inIntRange := by
      intro var
      cases var with
      | moduleLoad index =>
          dsimp only
          split <;> exact ⟨by decide, by decide⟩
      | _ =>
          dsimp only
          exact ⟨by decide, by decide⟩
    modeInList := by decide
    textLength := by
      intro var
      cases var <;> decide +kernel
    textNulFree := by
      intro var
      cases var <;> decide +kernel
    textLineEndFree := by
      intro var char member
      have endFree : (smallTexts var).all (fun char => !isLineEnd char) = true := by
        cases var <;> decide +kernel
      simpa using List.all_eq_true.mp endFree char member }

theorem loadConfiguration_saveConfiguration_small :
    let console : Console := { romRegion := 'E', besideModeList := fun _ => .autoDetect }
    let start : Config := { ints := fun _ => 0, texts := fun _ => [] }
    ∃ file, saveConfiguration smallTables.items smallHeld.config = some file ∧
      ∀ item ∈ smallTables.items,
        item.value (loadConfiguration console smallTables.items file start) =
          item.value smallHeld.config :=
  loadConfiguration_saveConfiguration smallTables
    { romRegion := 'E', besideModeList := fun _ => .autoDetect } smallHeld
    { ints := fun _ => 0, texts := fun _ => [] }

end KernelReloaded.Settings

/-
The order of the lines of a configuration text.

A line writes the variables of the items it names.  Where no two lines set the
same variable, lines can change places, with one exception: reading
`videomode` also rewrites the video parameter, so that line must stay on its
side of a line `VideoParameter`.  A line too long for the buffer of `fgets` is
read in pieces and may name several items.
-/

import KernelReloaded.Loader.MenuAccess

namespace KernelReloaded.Settings

open CText KeyedWrites

/-! ### The lines of a text -/

/-- An empty line sets nothing, so it does not count. -/
def textLines (text : Text) : List Text :=
  (text.splitOn '\n').filter fun line => line ≠ []

/-- The settings of all pieces of one line. -/
def lineSettings (line : Text) : List (Text × Text) :=
  (fileLines maximumConfigLength line.length line).filterMap lineSetting

theorem fileLines_nil (size rounds : Nat) : fileLines size rounds [] = [] := by
  cases rounds with
  | zero => rfl
  | succ rounds => rfl

theorem fileLines_cons (size rounds : Nat) {file : Text}
    (nonempty : file ≠ []) :
    fileLines size (rounds + 1) file =
      (splitLine (size - 1) file).1 ::
        fileLines size rounds (splitLine (size - 1) file).2 := by
  rw [fileLines, fgets, if_neg nonempty]

/-- More rounds than characters change nothing. -/
theorem fileLines_enough (size : Nat) (room : 1 < size)
    (rounds rounds' : Nat) (file : Text) (enough : file.length ≤ rounds)
    (enough' : file.length ≤ rounds') :
    fileLines size rounds file = fileLines size rounds' file := by
  induction rounds generalizing rounds' file with
  | zero =>
      obtain rfl := List.length_eq_zero_iff.mp (Nat.le_zero.mp enough)
      rw [fileLines_nil, fileLines_nil]
  | succ rounds ih =>
      by_cases empty : file = []
      · rw [empty, fileLines_nil, fileLines_nil]
      have shorter := (splitLine_read (size - 1) file).length_lt (by omega)
        empty
      cases rounds' with
      | zero =>
          exact absurd (List.length_eq_zero_iff.mp (Nat.le_zero.mp enough'))
            empty
      | succ rounds' =>
          rw [fileLines_cons size rounds empty, fileLines_cons size rounds' empty,
            ih rounds' _ (by omega) (by omega)]

theorem lineSettings_cons {line : Text} (nonempty : line ≠ []) :
    lineSettings line =
      (lineSetting (splitLine (maximumConfigLength - 1) line).1).toList ++
        lineSettings (splitLine (maximumConfigLength - 1) line).2 := by
  have shorter := (splitLine_read (maximumConfigLength - 1) line).length_lt
    (by decide) nonempty
  rw [lineSettings, fileLines_enough maximumConfigLength (by decide) _
      (line.length - 1 + 1) line (Nat.le_refl _) (by omega),
    fileLines_cons _ _ nonempty, List.filterMap_cons, lineSettings,
    fileLines_enough maximumConfigLength (by decide) _ (line.length - 1)
      (splitLine (maximumConfigLength - 1) line).2 (Nat.le_refl _) (by omega)]
  cases lineSetting (splitLine (maximumConfigLength - 1) line).1 with
  | none => rfl
  | some setting => rfl

theorem lineSettings_short {line : Text} (oneLine : '\n' ∉ line)
    (short : line.length < maximumConfigLength - 1) :
    lineSettings line = (lineSetting line).toList := by
  by_cases empty : line = []
  · subst empty
    rfl
  · rw [lineSettings_cons empty,
      splitLine_of_last oneLine (Nat.le_of_lt short)]
    exact List.append_nil _

/-- What one `fgets` takes from a text makes the first settings of its lines. -/
theorem Read.lines_eq {text piece rest : Text}
    (read : Read (maximumConfigLength - 1) text piece rest) :
    (text.splitOn '\n').flatMap lineSettings =
      (lineSetting piece).toList ++
        (rest.splitOn '\n').flatMap lineSettings := by
  cases read with
  | cut body tail oneLine long lineEnd =>
      have nonempty : body ≠ [] := by
        rintro rfl
        exact absurd long (by decide)
      have alone := splitLine_of_long [] oneLine long
      rw [List.append_nil, List.append_nil] at alone
      have front := lineSettings_cons nonempty
      rw [alone] at front
      have inRest : '\n' ∉ body.drop (maximumConfigLength - 1) :=
        fun member => oneLine (List.mem_of_mem_drop member)
      rcases lineEnd with rfl | ⟨behind, rfl⟩
      · rw [List.append_nil, List.append_nil,
          List.splitOn_eq_singleton oneLine,
          List.splitOn_eq_singleton inRest, List.flatMap_singleton,
          List.flatMap_singleton, front]
      · rw [List.splitOn_append_cons_self_of_not_mem oneLine,
          List.splitOn_append_cons_self_of_not_mem inRest,
          List.flatMap_cons, List.flatMap_cons, front, List.append_assoc]
  | line body behind oneLine short =>
      rw [List.splitOn_append_cons_self_of_not_mem oneLine,
        List.flatMap_cons, lineSettings_short oneLine short,
        lineSetting_newline]
  | last body oneLine short =>
      rw [List.splitOn_eq_singleton oneLine, List.flatMap_singleton,
        lineSettings_short oneLine short]
      exact (List.append_nil _).symm

/-- The pieces of a text are those of its lines, one line after the other. -/
theorem filterMap_fileLines (rounds : Nat) (text : Text)
    (enough : text.length ≤ rounds) :
    (fileLines maximumConfigLength rounds text).filterMap lineSetting =
      (text.splitOn '\n').flatMap lineSettings := by
  induction rounds generalizing text with
  | zero =>
      obtain rfl := List.length_eq_zero_iff.mp (Nat.le_zero.mp enough)
      rfl
  | succ rounds ih =>
      by_cases empty : text = []
      · subst empty
        rfl
      have read := splitLine_read (maximumConfigLength - 1) text
      have shorter := read.length_lt (by decide) empty
      rw [fileLines_cons _ _ empty, List.filterMap_cons, ih _ (by omega),
        read.lines_eq]
      cases lineSetting (splitLine (maximumConfigLength - 1) text).1 with
      | none => rfl
      | some setting => rfl

theorem flatMap_textLines (text : Text) :
    (textLines text).flatMap lineSettings =
      (text.splitOn '\n').flatMap lineSettings := by
  rw [textLines]
  induction text.splitOn '\n' with
  | nil =>
      rfl
  | cons line lines ih =>
      by_cases empty : line = []
      · subst empty
        rw [List.filter_cons_of_neg (by simp), ih]
        rfl
      · rw [List.filter_cons_of_pos (by simpa using empty), List.flatMap_cons,
          ih, List.flatMap_cons]

def applyLine (console : Console) (items : List ConfigurationItem)
    (config : Config) (line : Text) : Config :=
  runWrites (applySetting console items) (lineSettings line) config

theorem runWrites_flatMap (console : Console)
    (items : List ConfigurationItem) (lines : List Text) (config : Config) :
    runWrites (applySetting console items) (lines.flatMap lineSettings)
        config =
      lines.foldl (applyLine console items) config := by
  induction lines generalizing config with
  | nil =>
      rfl
  | cons line lines ih =>
      rw [List.flatMap_cons, runWrites, List.foldl_append, List.foldl_cons]
      exact ih _

theorem loadConfiguration_lines (console : Console)
    (items : List ConfigurationItem) (text : Text) (config : Config) :
    loadConfiguration console items text config =
      (textLines text).foldl (applyLine console items) config := by
  rw [loadConfiguration, foldl_applyConfigLine,
    filterMap_fileLines _ _ (Nat.le_refl _), ← flatMap_textLines,
    runWrites_flatMap]

/-! ### What a line writes -/

def LineWritesInt (items : List ConfigurationItem)
    (settings : List (Text × Text)) (var : IntVar) : Prop :=
  ∃ setting ∈ settings, WritesInt items setting.1 var

def LineWritesText (items : List ConfigurationItem)
    (settings : List (Text × Text)) (var : TextVar) : Prop :=
  ∃ setting ∈ settings, WritesText items setting.1 var

theorem lineWritesInt_cons (items : List ConfigurationItem)
    (setting : Text × Text) (rest : List (Text × Text)) (var : IntVar) :
    LineWritesInt items (setting :: rest) var ↔
      WritesInt items setting.1 var ∨ LineWritesInt items rest var := by
  simp only [LineWritesInt, List.mem_cons, or_and_right, exists_or,
    exists_eq_left]

theorem lineWritesText_cons (items : List ConfigurationItem)
    (setting : Text × Text) (rest : List (Text × Text)) (var : TextVar) :
    LineWritesText items (setting :: rest) var ↔
      WritesText items setting.1 var ∨ LineWritesText items rest var := by
  simp only [LineWritesText, List.mem_cons, or_and_right, exists_or,
    exists_eq_left]

theorem runWrites_frame (console : Console) (items : List ConfigurationItem)
    (settings : List (Text × Text)) (config : Config) :
    AgreeOff (LineWritesInt items settings) (LineWritesText items settings)
      (runWrites (applySetting console items) settings config) config := by
  induction settings generalizing config with
  | nil =>
      exact ⟨fun _ _ => rfl, fun _ _ => rfl⟩
  | cons setting rest ih =>
      have first := (applySetting_frame console items setting.1 setting.2
        config).mono
        (fun var writes =>
          (lineWritesInt_cons items setting rest var).mpr (Or.inl writes))
        (fun var writes =>
          (lineWritesText_cons items setting rest var).mpr (Or.inl writes))
      have later := (ih (applySetting console items setting.1 setting.2
        config)).mono
        (fun var writes =>
          (lineWritesInt_cons items setting rest var).mpr (Or.inr writes))
        (fun var writes =>
          (lineWritesText_cons items setting rest var).mpr (Or.inr writes))
      exact later.trans first

theorem runWrites_agree (console : Console) (items : List ConfigurationItem)
    (videoMode : VideoModeItems items) (settings : List (Text × Text))
    {ints : IntVar → Prop} {texts : TextVar → Prop}
    {config config' : Config} (agreed : AgreeOff ints texts config config') :
    AgreeOff (fun var => ints var ∧ ¬ LineWritesInt items settings var)
      (fun var => texts var ∧ ¬ LineWritesText items settings var)
      (runWrites (applySetting console items) settings config)
      (runWrites (applySetting console items) settings config') := by
  induction settings generalizing config config' ints texts with
  | nil =>
      exact agreed.mono (fun var differs => ⟨differs, by simp [LineWritesInt]⟩)
        (fun var differs => ⟨differs, by simp [LineWritesText]⟩)
  | cons setting rest ih =>
      have first := applySetting_agree console items videoMode setting.1
        setting.2 agreed
      simp only [lineWritesInt_cons, lineWritesText_cons, not_or, ← and_assoc]
      exact ih first

/-- Lines that write different variables can change places. -/
theorem applyLine_commute (console : Console)
    (items : List ConfigurationItem) (videoMode : VideoModeItems items)
    (first second : Text)
    (apartInts : ∀ var, LineWritesInt items (lineSettings first) var →
      ¬ LineWritesInt items (lineSettings second) var)
    (apartTexts : ∀ var, LineWritesText items (lineSettings first) var →
      ¬ LineWritesText items (lineSettings second) var) (config : Config) :
    applyLine console items (applyLine console items config first) second =
      applyLine console items (applyLine console items config second)
        first := by
  have frame (line : Text) (config : Config) :=
    runWrites_frame console items (lineSettings line) config
  -- Each line does the same to a configuration and to what the other left.
  have sameFirst := runWrites_agree console items videoMode
    (lineSettings first) (frame second config)
  have sameSecond := runWrites_agree console items videoMode
    (lineSettings second) (frame first config)
  have ints : (applyLine console items (applyLine console items config first)
      second).ints = (applyLine console items (applyLine console items config
      second) first).ints := by
    funext var
    by_cases writes : LineWritesInt items (lineSettings first) var
    · have untouched := (frame second (applyLine console items config
        first)).sameInts var (apartInts var writes)
      have settled := sameFirst.sameInts var fun both => both.2 writes
      exact untouched.trans settled.symm
    · have untouched := (frame first (applyLine console items config
        second)).sameInts var writes
      have settled := sameSecond.sameInts var fun both => writes both.1
      exact settled.trans untouched.symm
  have texts : (applyLine console items (applyLine console items config first)
      second).texts = (applyLine console items (applyLine console items config
      second) first).texts := by
    funext var
    by_cases writes : LineWritesText items (lineSettings first) var
    · have untouched := (frame second (applyLine console items config
        first)).sameTexts var (apartTexts var writes)
      have settled := sameFirst.sameTexts var fun both => both.2 writes
      exact untouched.trans settled.symm
    · have untouched := (frame first (applyLine console items config
        second)).sameTexts var writes
      have settled := sameSecond.sameTexts var fun both => writes both.1
      exact settled.trans untouched.symm
  exact Config.eq_of_vars ints texts

/-! ### Lines that set each variable once -/

/-- The variable an item stands for. -/
inductive Variable where
  | int (var : IntVar)
  | text (var : TextVar)
deriving DecidableEq

def ItemClass.variable : ItemClass → Variable
  | .check value => .int value
  | .text value _ => .text value
  | .video value => .int value

/-- The variables of the items a line names. -/
def lineVariables (items : List ConfigurationItem) (line : Text) :
    List Variable :=
  (lineSettings line).flatMap fun setting =>
    (items.filter fun item => setting.1 = item.name).map fun item =>
      item.type.variable

/-- Two items may share a variable, under one name or under two. -/
def SetOnce (items : List ConfigurationItem) (lines : List Text) : Prop :=
  lines.Pairwise fun first second =>
    ∀ var ∈ lineVariables items first, var ∉ lineVariables items second

instance (items : List ConfigurationItem) (lines : List Text) :
    Decidable (SetOnce items lines) :=
  inferInstanceAs (Decidable (List.Pairwise _ lines))

def namesVideo (line : Text) : Bool :=
  (lineSettings line).any fun setting =>
    setting.1 = "videomode".toList ∨ setting.1 = "VideoParameter".toList

theorem mem_lineVariables {items : List ConfigurationItem} {line : Text}
    {setting : Text × Text} (settingIn : setting ∈ lineSettings line)
    {item : ConfigurationItem} (itemIn : item ∈ items)
    (named : setting.1 = item.name) :
    item.type.variable ∈ lineVariables items line := by
  apply List.mem_flatMap.mpr
  refine ⟨setting, settingIn, List.mem_map.mpr ⟨item, ?_, rfl⟩⟩
  exact List.mem_filter.mpr ⟨itemIn, by simpa using named⟩

theorem variable_of_lineWritesInt {items : List ConfigurationItem}
    {line : Text} {var : IntVar}
    (writes : LineWritesInt items (lineSettings line) var) :
    .int var ∈ lineVariables items line := by
  obtain ⟨setting, settingIn, item, itemIn, named, own⟩ := writes
  have member := mem_lineVariables settingIn itemIn named
  cases kind : item.type with
  | check value =>
      rw [kind] at own member
      obtain rfl : var = value := own
      exact member
  | text value maxlen =>
      rw [kind] at own
      exact own.elim
  | video value =>
      rw [kind] at own member
      obtain rfl : var = value := own
      exact member

/-- A line writes the variables of its items, and a `videomode` line the video
parameter. -/
theorem variable_of_lineWritesText {items : List ConfigurationItem}
    {line : Text} {var : TextVar}
    (writes : LineWritesText items (lineSettings line) var) :
    .text var ∈ lineVariables items line ∨ var = .videoParameter := by
  obtain ⟨setting, settingIn, item, itemIn, named, own⟩ := writes
  have member := mem_lineVariables settingIn itemIn named
  cases kind : item.type with
  | check value =>
      rw [kind] at own
      exact own.elim
  | text value maxlen =>
      rw [kind] at own member
      obtain rfl : var = value := own
      exact Or.inl member
  | video value =>
      rw [kind] at own
      exact Or.inr own

private theorem fixedItems_video : ∀ item ∈ fixedItems,
    (item.type.isVideo = true → item.name = "videomode".toList ∧
      item.type.variable = .int .currentMode) ∧
    (item.type.variable = .text .videoParameter →
      item.name = "VideoParameter".toList) := by
  decide +kernel

theorem videoModeItems_registered (modules : List ModuleEntry)
    (sbiosDescription : List Text) :
    VideoModeItems (registeredItems modules sbiosDescription) := by
  intro item member var type
  rcases registeredItems_cases member with
    fixed | ⟨index, check⟩ | ⟨index, check⟩
  · have target := ((fixedItems_video item fixed).1 (by rw [type]; rfl)).2
    rw [type] at target
    exact Variable.int.inj target
  · rw [check] at type
    cases type
  · rw [check] at type
    cases type

/-- The video parameter is written under two names. -/
theorem namesVideo_of_writes {modules : List ModuleEntry}
    {sbiosDescription : List Text} {line : Text}
    (writes : LineWritesText (registeredItems modules sbiosDescription)
      (lineSettings line) .videoParameter) : namesVideo line = true := by
  obtain ⟨setting, settingIn, item, itemIn, named, own⟩ := writes
  have name : item.name = "videomode".toList ∨
      item.name = "VideoParameter".toList := by
    rcases registeredItems_cases itemIn with
      fixed | ⟨index, check⟩ | ⟨index, check⟩
    · cases kind : item.type with
      | check value =>
          rw [kind] at own
          exact own.elim
      | text value maxlen =>
          rw [kind] at own
          obtain rfl : .videoParameter = value := own
          exact Or.inr ((fixedItems_video item fixed).2 (by rw [kind]; rfl))
      | video value =>
          exact Or.inl ((fixedItems_video item fixed).1 (by rw [kind]; rfl)).1
    · rw [check] at own
      exact own.elim
    · rw [check] at own
      exact own.elim
  rw [namesVideo, List.any_eq_true]
  exact ⟨setting, settingIn, by simpa [named] using name⟩

theorem registered_commute (console : Console) (modules : List ModuleEntry)
    (sbiosDescription : List Text) (first second : Text)
    (apart : ∀ var ∈ lineVariables
        (registeredItems modules sbiosDescription) first,
      var ∉ lineVariables (registeredItems modules sbiosDescription) second)
    (free : ¬ (namesVideo first = true ∧ namesVideo second = true))
    (config : Config) :
    applyLine console (registeredItems modules sbiosDescription)
        (applyLine console (registeredItems modules sbiosDescription) config
          first) second =
      applyLine console (registeredItems modules sbiosDescription)
        (applyLine console (registeredItems modules sbiosDescription) config
          second) first := by
  apply applyLine_commute console _
    (videoModeItems_registered modules sbiosDescription)
  · intro var firstWrites secondWrites
    exact apart _ (variable_of_lineWritesInt firstWrites)
      (variable_of_lineWritesInt secondWrites)
  · intro var firstWrites secondWrites
    by_cases video : var = .videoParameter
    · subst video
      exact free ⟨namesVideo_of_writes firstWrites,
        namesVideo_of_writes secondWrites⟩
    · exact apart _
        ((variable_of_lineWritesText firstWrites).resolve_right video)
        ((variable_of_lineWritesText secondWrites).resolve_right video)

theorem SetOnce.apart {items : List ConfigurationItem} {lines : List Text}
    (setOnce : SetOnce items lines) {first second : Text}
    (firstIn : first ∈ lines) (secondIn : second ∈ lines)
    (different : first ≠ second) :
    ∀ var ∈ lineVariables items first, var ∉ lineVariables items second := by
  have symmetric : Std.Symm fun first second : Text =>
      ∀ var ∈ lineVariables items first, var ∉ lineVariables items second :=
    ⟨fun left right apart var inRight inLeft => apart var inLeft inRight⟩
  exact setOnce.forall firstIn secondIn different

/-- Texts with the same lines, of which none sets a variable of another, load
the same configuration when they agree on the side of `VideoParameter` on which
`videomode` stands. -/
theorem loadConfiguration_order (console : Console)
    (modules : List ModuleEntry) (sbiosDescription : List Text)
    (text text' : Text) (config : Config)
    (setOnce : SetOnce (registeredItems modules sbiosDescription)
      (textLines text))
    (reordered : (textLines text).Perm (textLines text'))
    (videoOrder : (textLines text).filter namesVideo =
      (textLines text').filter namesVideo) :
    loadConfiguration console (registeredItems modules sbiosDescription) text
        config =
      loadConfiguration console (registeredItems modules sbiosDescription)
        text' config := by
  rw [loadConfiguration_lines, loadConfiguration_lines]
  apply foldl_eq_of_perm _ namesVideo reordered videoOrder
  intro first firstIn second secondIn free state
  by_cases same : first = second
  · rw [same]
  · exact registered_commute console modules sbiosDescription first second
      (setOnce.apart firstIn secondIn same) free state

theorem tidyText_order :
    loadConfiguration probeConsole (registeredItems [] [])
        "videomode=7\nAutoBootTime=5\nVideoParameter=x".toList
        (probeConfig []) =
      loadConfiguration probeConsole (registeredItems [] [])
        "AutoBootTime=5\nvideomode=7\n\nVideoParameter=x\n".toList
        (probeConfig []) :=
  loadConfiguration_order probeConsole [] [] _ _ (probeConfig [])
    (by decide +kernel) (by decide +kernel) (by decide +kernel)

/-- A line `videomode` behind a line `VideoParameter` hides it. -/
theorem videomode_hides :
    ¬ ∀ (console : Console) (modules : List ModuleEntry)
        (sbiosDescription : List Text) (text text' : Text) (config : Config),
        SetOnce (registeredItems modules sbiosDescription) (textLines text) →
        (textLines text).Perm (textLines text') →
        ∀ item ∈ registeredItems modules sbiosDescription,
          item.value (loadConfiguration console
              (registeredItems modules sbiosDescription) text config) =
            item.value (loadConfiguration console
              (registeredItems modules sbiosDescription) text' config) := by
  intro independent
  have same := independent probeConsole [] []
    "videomode=7\nVideoParameter=x\n".toList
    "VideoParameter=x\nvideomode=7\n".toList (probeConfig [])
    (by decide +kernel) (by decide +kernel)
    (textItem "VideoParameter" .videoParameter) (by simp [registeredItems,
      registerLoaderConfigItems])
  have shown (text : Text) :
      (textItem "VideoParameter" .videoParameter).value
          (loadConfiguration probeConsole (registeredItems [] []) text
            (probeConfig [])) =
        .text ((loadConfiguration probeConsole (registeredItems [] []) text
          (probeConfig [])).texts .videoParameter) := rfl
  rw [shown, shown] at same
  have different : (loadConfiguration probeConsole (registeredItems [] [])
        "videomode=7\nVideoParameter=x\n".toList
        (probeConfig [])).texts .videoParameter ≠
      (loadConfiguration probeConsole (registeredItems [] [])
        "VideoParameter=x\nvideomode=7\n".toList
        (probeConfig [])).texts .videoParameter := by
    decide +kernel
  exact different (ItemValue.text.inj same)

end KernelReloaded.Settings

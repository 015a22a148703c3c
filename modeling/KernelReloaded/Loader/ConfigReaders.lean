/-
The two readers of a configuration text: from a file, and from the ROM files.

Both hand line after line to `applyConfigLine`.  They differ on a line that
does not fit into the buffer: `fgets` delivers its rest as further lines, the
ROM reader drops it.  A text is reduced to the settings its lines make, and
two sequences of settings are compared by the last setting of each key.
-/

import KernelReloaded.Core.KeyedWrites
import KernelReloaded.Loader.Configuration

namespace KernelReloaded.Settings

open CText KeyedWrites

/-! ### Settings -/

/-- The key and value `applyConfigLine` finds on a line. -/
def lineSetting (line : Text) : Option (Text × Text) :=
  keyValue (stripLineEnd (cstring line))

def applySetting (console : Console) (items : List ConfigurationItem)
    (key value : Text) (config : Config) : Config :=
  items.foldl (fun config item =>
    if key = item.name then readData console item value config else config)
    config

theorem applyConfigLine_eq (console : Console)
    (items : List ConfigurationItem) (line : Text) (config : Config) :
    applyConfigLine console items line config =
      runWrites (applySetting console items) (lineSetting line).toList
        config := by
  rw [applyConfigLine, lineSetting]
  cases keyValue (stripLineEnd (cstring line)) with
  | none => rfl
  | some setting => rfl

theorem foldl_applyConfigLine (console : Console)
    (items : List ConfigurationItem) (lines : List Text) (config : Config) :
    lines.foldl (fun config line => applyConfigLine console items line config)
        config =
      runWrites (applySetting console items) (lines.filterMap lineSetting)
        config := by
  induction lines generalizing config with
  | nil =>
      rfl
  | cons line lines ih =>
      rw [List.foldl_cons, ih, applyConfigLine_eq, List.filterMap_cons]
      cases lineSetting line with
      | none => rfl
      | some setting => rfl

/-! ### What a setting writes -/

def ItemClass.writesInt : ItemClass → IntVar → Prop
  | .check value, var => var = value
  | .text _ _, _ => False
  | .video value, var => var = value

def ItemClass.writesText : ItemClass → TextVar → Prop
  | .check _, _ => False
  | .text value _, var => var = value
  | .video _, var => var = .videoParameter

/-- The only video mode item is registered for `currentMode`. -/
def VideoModeItems (items : List ConfigurationItem) : Prop :=
  ∀ item ∈ items, ∀ var, item.type = .video var → var = .currentMode

theorem Config.eq_of_vars {config config' : Config}
    (ints : config.ints = config'.ints) (texts : config.texts = config'.texts) :
    config = config' := by
  calc config
      = ⟨config.ints, config.texts⟩ := rfl
    _ = ⟨config'.ints, config'.texts⟩ := by rw [ints, texts]
    _ = config' := rfl

structure AgreeOff (ints : IntVar → Prop) (texts : TextVar → Prop)
    (config config' : Config) : Prop where
  sameInts : ∀ var, ¬ ints var → config.ints var = config'.ints var
  sameTexts : ∀ var, ¬ texts var → config.texts var = config'.texts var

theorem readData_frame (console : Console) (item : ConfigurationItem)
    (value : Text) (config : Config) :
    AgreeOff item.type.writesInt item.type.writesText
      (readData console item value config) config := by
  obtain ⟨name, type⟩ := item
  cases type with
  | check target =>
      exact ⟨fun var other => Function.update_of_ne other _ _,
        fun _ _ => rfl⟩
  | text target maxlen =>
      exact ⟨fun _ _ => rfl,
        fun var other => Function.update_of_ne other _ _⟩
  | video target =>
      exact ⟨fun var other => Function.update_of_ne other _ _,
        fun var other => Function.update_of_ne other _ _⟩

/-- Where an item writes, it leaves a value that depends on the line only. -/
theorem readData_agree (console : Console) (item : ConfigurationItem)
    (videoMode : ∀ var, item.type = .video var → var = .currentMode)
    (value : Text) {ints : IntVar → Prop} {texts : TextVar → Prop}
    {config config' : Config} (agreed : AgreeOff ints texts config config') :
    AgreeOff (fun var => ints var ∧ ¬ item.type.writesInt var)
      (fun var => texts var ∧ ¬ item.type.writesText var)
      (readData console item value config)
      (readData console item value config') := by
  obtain ⟨name, type⟩ := item
  have updated {Var Value : Type} [DecidableEq Var] (first second : Var → Value)
      (differ : Var → Prop) (target : Var) (written : Value)
      (same : ∀ var, ¬ differ var → first var = second var) (var : Var)
      (agrees : ¬ (differ var ∧ ¬ var = target)) :
      Function.update first target written var =
        Function.update second target written var := by
    by_cases atTarget : var = target
    · subst atTarget
      rw [Function.update_self, Function.update_self]
    · rw [Function.update_of_ne atTarget, Function.update_of_ne atTarget]
      exact same var fun differs => agrees ⟨differs, atTarget⟩
  cases type with
  | check target =>
      constructor
      · exact updated _ _ ints target (atoi value) agreed.sameInts
      · intro var agrees
        exact agreed.sameTexts var fun differs => agrees ⟨differs, id⟩
  | text target maxlen =>
      constructor
      · intro var agrees
        exact agreed.sameInts var fun differs => agrees ⟨differs, id⟩
      · exact updated _ _ texts target (value.take (maxlen - 1))
          agreed.sameTexts
  | video target =>
      obtain rfl := videoMode target rfl
      constructor
      · exact updated _ _ ints .currentMode (atoi value) agreed.sameInts
      · have sameMode : getCurrentMode console
              (config.setInt .currentMode (atoi value)) =
            getCurrentMode console
              (config'.setInt .currentMode (atoi value)) := by
          simp only [getCurrentMode, Config.setInt_ints, Function.update_self]
        simp only [readData, configureVideoParameter,
          setDefaultVideoParameter, sameMode]
        exact updated _ _ texts .videoParameter _ agreed.sameTexts

def WritesInt (items : List ConfigurationItem) (key : Text)
    (var : IntVar) : Prop :=
  ∃ item ∈ items, key = item.name ∧ item.type.writesInt var

def WritesText (items : List ConfigurationItem) (key : Text)
    (var : TextVar) : Prop :=
  ∃ item ∈ items, key = item.name ∧ item.type.writesText var

theorem AgreeOff.mono {ints ints' : IntVar → Prop}
    {texts texts' : TextVar → Prop} {config config' : Config}
    (agreed : AgreeOff ints texts config config')
    (moreInts : ∀ var, ints var → ints' var)
    (moreTexts : ∀ var, texts var → texts' var) :
    AgreeOff ints' texts' config config' :=
  ⟨fun var other => agreed.sameInts var fun differs =>
      other (moreInts var differs),
    fun var other => agreed.sameTexts var fun differs =>
      other (moreTexts var differs)⟩

theorem AgreeOff.trans {ints : IntVar → Prop} {texts : TextVar → Prop}
    {first second third : Config} (left : AgreeOff ints texts first second)
    (right : AgreeOff ints texts second third) :
    AgreeOff ints texts first third :=
  ⟨fun var other =>
      (left.sameInts var other).trans (right.sameInts var other),
    fun var other =>
      (left.sameTexts var other).trans (right.sameTexts var other)⟩

theorem applySetting_frame (console : Console)
    (items : List ConfigurationItem) (key value : Text) (config : Config) :
    AgreeOff (WritesInt items key) (WritesText items key)
      (applySetting console items key value config) config := by
  induction items generalizing config with
  | nil =>
      exact ⟨fun _ _ => rfl, fun _ _ => rfl⟩
  | cons item items ih =>
      have rest := (ih (if key = item.name then readData console item value
        config else config)).mono
        (fun var ⟨other, member, found⟩ =>
          (⟨other, List.mem_cons_of_mem item member, found⟩ :
            WritesInt (item :: items) key var))
        (fun var ⟨other, member, found⟩ =>
          (⟨other, List.mem_cons_of_mem item member, found⟩ :
            WritesText (item :: items) key var))
      refine rest.trans ?_
      by_cases named : key = item.name
      · rw [if_pos named]
        exact (readData_frame console item value config).mono
          (fun var writes => ⟨item, List.mem_cons_self, named, writes⟩)
          (fun var writes => ⟨item, List.mem_cons_self, named, writes⟩)
      · rw [if_neg named]
        exact ⟨fun _ _ => rfl, fun _ _ => rfl⟩

theorem writesInt_cons (item : ConfigurationItem)
    (items : List ConfigurationItem) (key : Text) (var : IntVar) :
    WritesInt (item :: items) key var ↔
      (key = item.name ∧ item.type.writesInt var) ∨
        WritesInt items key var := by
  simp only [WritesInt, List.mem_cons, or_and_right, exists_or,
    exists_eq_left]

theorem writesText_cons (item : ConfigurationItem)
    (items : List ConfigurationItem) (key : Text) (var : TextVar) :
    WritesText (item :: items) key var ↔
      (key = item.name ∧ item.type.writesText var) ∨
        WritesText items key var := by
  simp only [WritesText, List.mem_cons, or_and_right, exists_or,
    exists_eq_left]

theorem applySetting_agree (console : Console)
    (items : List ConfigurationItem) (videoMode : VideoModeItems items)
    (key value : Text) {ints : IntVar → Prop} {texts : TextVar → Prop}
    {config config' : Config} (agreed : AgreeOff ints texts config config') :
    AgreeOff (fun var => ints var ∧ ¬ WritesInt items key var)
      (fun var => texts var ∧ ¬ WritesText items key var)
      (applySetting console items key value config)
      (applySetting console items key value config') := by
  induction items generalizing config config' ints texts with
  | nil =>
      simp only [WritesInt, WritesText, List.not_mem_nil, false_and,
        exists_false, not_false_eq_true, and_true]
      exact agreed
  | cons item items ih =>
      have laterMode : VideoModeItems items := fun other member =>
        videoMode other (List.mem_cons_of_mem item member)
      simp only [writesInt_cons, writesText_cons, not_or]
      by_cases named : key = item.name
      · have run := ih laterMode (readData_agree console item
          (videoMode item List.mem_cons_self) value agreed)
        simp only [applySetting, List.foldl_cons, named, true_and,
          if_true, ← and_assoc] at run ⊢
        exact run
      · have run := ih laterMode agreed
        simp only [applySetting, List.foldl_cons, named, false_and,
          not_false_eq_true, true_and, if_false] at run ⊢
        exact run

/-- A later setting of a key hides the earlier ones. -/
theorem applySetting_hides (console : Console)
    (items : List ConfigurationItem) (videoMode : VideoModeItems items) :
    Hides (applySetting console items) fun key =>
      AgreeOff (WritesInt items key) (WritesText items key) where
  frame := applySetting_frame console items
  keep := by
    intro key other value config config' agreed
    exact (applySetting_agree console items videoMode other value agreed).mono
      (fun _ differs => differs.1) (fun _ differs => differs.1)
  settle := by
    intro key value config config' agreed
    have settled := applySetting_agree console items videoMode key value agreed
    have sameInts : (applySetting console items key value config).ints =
        (applySetting console items key value config').ints :=
      funext fun var => settled.sameInts var fun both => both.2 both.1
    have sameTexts : (applySetting console items key value config).texts =
        (applySetting console items key value config').texts :=
      funext fun var => settled.sameTexts var fun both => both.2 both.1
    exact Config.eq_of_vars sameInts sameTexts

/-! ### The pieces of a file -/

def endsLine (piece : Text) : Bool := piece.getLast? == some '\n'

/-- The pieces in which `fgets` delivers a file, each with whether it goes on
with the line of the piece before. -/
def filePieces (size : Nat) :
    (rounds : Nat) → (continues : Bool) → Text → List (Bool × Text)
  | 0, _, _ => []
  | rounds + 1, continues, file =>
      match fgets size file with
      | none => []
      | some (piece, rest) =>
          (continues, piece) :: filePieces size rounds (!endsLine piece) rest

theorem filePieces_lines (size rounds : Nat) (continues : Bool)
    (file : Text) :
    (filePieces size rounds continues file).map Prod.snd =
      fileLines size rounds file := by
  induction rounds generalizing continues file with
  | zero =>
      rfl
  | succ rounds ih =>
      rw [filePieces, fileLines]
      cases fgets size file with
      | none => rfl
      | some read => rw [List.map_cons, ih]

/-- The settings of all pieces. -/
def pieceSettings (pieces : List (Bool × Text)) : List (Text × Text) :=
  (pieces.map Prod.snd).filterMap lineSetting

/-- The settings of the pieces that begin a line. -/
def firstSettings (pieces : List (Bool × Text)) : List (Text × Text) :=
  ((pieces.filter fun piece => !piece.1).map Prod.snd).filterMap lineSetting

def configPieces (text : Text) : List (Bool × Text) :=
  filePieces maximumConfigLength text.length false text

theorem loadConfiguration_eq (console : Console)
    (items : List ConfigurationItem) (text : Text) (config : Config) :
    loadConfiguration console items text config =
      runWrites (applySetting console items)
        (pieceSettings (configPieces text)) config := by
  rw [loadConfiguration, foldl_applyConfigLine, pieceSettings, configPieces,
    filePieces_lines]

/-- A line end does not change the setting of a line. -/
theorem lineSetting_newline (line : Text) :
    lineSetting (line ++ ['\n']) = lineSetting line := by
  rw [lineSetting, lineSetting, cstring, cstring, List.takeWhile_append]
  split
  · rename_i whole
    have nulFree : line.takeWhile (· != '\x00') = line :=
      List.IsPrefix.eq_of_length (List.takeWhile_prefix _) whole
    have newline : ['\n'].takeWhile (· != '\x00') = ['\n'] := by decide
    rw [nulFree, newline, stripLineEnd,
      List.rdropWhile_concat_pos _ _ _ (by decide), stripLineEnd]
  · rfl

theorem splitLine_of_long {body : Text} (tail : Text) {limit : Nat}
    (oneLine : '\n' ∉ body) (long : limit ≤ body.length) :
    splitLine limit (body ++ tail) =
      (body.take limit, body.drop limit ++ tail) := by
  induction limit generalizing body with
  | zero =>
      rfl
  | succ limit ih =>
      cases body with
      | nil =>
          cases long
      | cons char body =>
          rw [List.mem_cons, not_or] at oneLine
          have other : char ≠ '\n' := fun same => oneLine.1 same.symm
          rw [List.cons_append, splitLine, if_neg other,
            ih oneLine.2 (Nat.le_of_succ_le_succ long)]
          rfl

theorem splitLine_of_last {body : Text} {limit : Nat}
    (oneLine : '\n' ∉ body) (short : body.length ≤ limit) :
    splitLine limit body = (body, []) := by
  induction body generalizing limit with
  | nil =>
      cases limit with
      | zero => rfl
      | succ limit => rfl
  | cons char body ih =>
      cases limit with
      | zero => cases short
      | succ limit =>
          rw [List.mem_cons, not_or] at oneLine
          have other : char ≠ '\n' := fun same => oneLine.1 same.symm
          rw [splitLine, if_neg other,
            ih oneLine.2 (Nat.le_of_succ_le_succ short)]

/-- What one `fgets` takes from a file whose first line is `body`. -/
inductive Read (limit : Nat) : (file piece rest : Text) → Prop
  | cut (body tail : Text) (oneLine : '\n' ∉ body)
      (long : limit ≤ body.length)
      (lineEnd : tail = [] ∨ ∃ rest, tail = '\n' :: rest) :
      Read limit (body ++ tail) (body.take limit) (body.drop limit ++ tail)
  | line (body rest : Text) (oneLine : '\n' ∉ body)
      (short : body.length < limit) :
      Read limit (body ++ '\n' :: rest) (body ++ ['\n']) rest
  | last (body : Text) (oneLine : '\n' ∉ body)
      (short : body.length < limit) :
      Read limit body body []

def firstLine (file : Text) : Text := file.takeWhile (· != '\n')

def afterLine (file : Text) : Text := (file.dropWhile (· != '\n')).tail

theorem firstLine_oneLine (file : Text) : '\n' ∉ firstLine file := by
  intro member
  have kept := List.mem_takeWhile_imp member
  simp at kept

/-- A file is its first line, or that and a newline before the rest. -/
theorem firstLine_cases (file : Text) :
    file = firstLine file ∨
      file = firstLine file ++ '\n' :: afterLine file := by
  have split : firstLine file ++ file.dropWhile (· != '\n') = file :=
    List.takeWhile_append_dropWhile
  cases behind : file.dropWhile (· != '\n') with
  | nil =>
      rw [behind, List.append_nil] at split
      exact Or.inl split.symm
  | cons char rest =>
      have stopped := List.head_dropWhile_not (· != '\n')
        (l := file) (by rw [behind]; exact List.cons_ne_nil char rest)
      have newline : char = '\n' := by
        simpa only [behind, List.head_cons, bne_eq_false_iff_eq] using stopped
      right
      rw [afterLine, behind, List.tail_cons, ← newline, ← behind]
      exact split.symm

theorem firstLine_append {body tail : Text} (oneLine : '\n' ∉ body)
    (lineEnd : tail = [] ∨ ∃ rest, tail = '\n' :: rest) :
    firstLine (body ++ tail) = body ∧ afterLine (body ++ tail) = tail.tail := by
  have kept : ∀ char ∈ body, (char != '\n') = true := by
    intro char member
    rw [bne_iff_ne]
    rintro rfl
    exact oneLine member
  rw [firstLine, afterLine, List.takeWhile_append_of_pos kept,
    List.dropWhile_append_of_pos kept]
  rcases lineEnd with rfl | ⟨rest, rfl⟩
  · exact ⟨List.append_nil body, rfl⟩
  · exact ⟨List.append_nil body, rfl⟩

theorem splitLine_read (limit : Nat) (file : Text) :
    Read limit file (splitLine limit file).1 (splitLine limit file).2 := by
  have oneLine := firstLine_oneLine file
  rcases Nat.lt_or_ge (firstLine file).length limit with short | long
  · rcases firstLine_cases file with last | line
    · rw [last, splitLine_of_last oneLine (Nat.le_of_lt short)]
      exact Read.last _ oneLine short
    · rw [line, splitLine_of_newline oneLine short]
      exact Read.line _ _ oneLine short
  · rcases firstLine_cases file with last | line
    · have split := splitLine_of_long [] oneLine long
      rw [List.append_nil, ← last] at split
      rw [split]
      have cut := Read.cut (firstLine file) [] oneLine long (Or.inl rfl)
      rw [List.append_nil, ← last] at cut
      exact cut
    · have split := splitLine_of_long ('\n' :: afterLine file)
        oneLine long
      rw [← line] at split
      rw [split]
      have cut := Read.cut (firstLine file) ('\n' :: afterLine file) oneLine
        long (Or.inr ⟨_, rfl⟩)
      rw [← line] at cut
      exact cut

theorem memoryLines_nil (limit rounds : Nat) :
    memoryLines limit rounds [] = [] := by
  cases rounds with
  | zero => rfl
  | succ rounds => rfl

theorem memoryLines_firstLine (limit rounds : Nat) {file : Text}
    (nonempty : file ≠ []) :
    memoryLines limit (rounds + 1) file =
      (firstLine file).take limit ::
        memoryLines limit rounds (afterLine file) := by
  cases file with
  | nil => exact absurd rfl nonempty
  | cons char rest => rfl

theorem filePieces_cons (size rounds : Nat) (continues : Bool) {file : Text}
    (nonempty : file ≠ []) :
    filePieces size (rounds + 1) continues file =
      (continues, (splitLine (size - 1) file).1) ::
        filePieces size rounds (!endsLine (splitLine (size - 1) file).1)
          (splitLine (size - 1) file).2 := by
  rw [filePieces, fgets, if_neg nonempty]

theorem filePieces_nil (size rounds : Nat) (continues : Bool) :
    filePieces size rounds continues [] = [] := by
  cases rounds with
  | zero => rfl
  | succ rounds => rfl

theorem endsLine_of_oneLine {piece : Text} (oneLine : '\n' ∉ piece) :
    endsLine piece = false := by
  rw [endsLine, beq_eq_false_iff_ne]
  intro last
  exact oneLine (List.mem_of_getLast? last)

theorem endsLine_newline (body : Text) : endsLine (body ++ ['\n']) = true := by
  rw [endsLine, List.getLast?_concat]
  rfl

theorem firstSettings_cons (continues : Bool) (piece : Text)
    (pieces : List (Bool × Text)) :
    firstSettings ((continues, piece) :: pieces) =
      (if continues then [] else (lineSetting piece).toList) ++
        firstSettings pieces := by
  cases continues with
  | true =>
      rfl
  | false =>
      simp only [firstSettings, List.filter_cons, Bool.not_false, if_true,
        List.map_cons, List.filterMap_cons, Bool.false_eq_true, if_false]
      cases lineSetting piece with
      | none => rfl
      | some setting => rfl

theorem firstSettings_nil (size rounds rounds' : Nat) (continues : Bool) :
    firstSettings (filePieces size rounds continues []) =
      (memoryLines (size - 1) rounds'
        (if continues then afterLine [] else [])).filterMap lineSetting := by
  rw [filePieces_nil]
  cases continues with
  | true =>
      change [] = (memoryLines (size - 1) rounds' []).filterMap lineSetting
      rw [memoryLines_nil, List.filterMap_nil]
  | false =>
      change [] = (memoryLines (size - 1) rounds' []).filterMap lineSetting
      rw [memoryLines_nil, List.filterMap_nil]

/-- The setting of a piece is the one of the line's start. -/
theorem Read.lineSetting_eq {limit : Nat} {file piece rest : Text}
    (read : Read limit file piece rest) :
    lineSetting piece = lineSetting ((firstLine file).take limit) := by
  cases read with
  | cut body tail oneLine long lineEnd =>
      rw [(firstLine_append oneLine lineEnd).1]
  | line body rest oneLine short =>
      rw [(firstLine_append oneLine (Or.inr ⟨rest, rfl⟩)).1,
        lineSetting_newline, List.take_of_length_le (Nat.le_of_lt short)]
  | last body oneLine short =>
      have alone := (firstLine_append oneLine (Or.inl rfl)).1
      rw [List.append_nil] at alone
      rw [alone, List.take_of_length_le (Nat.le_of_lt short)]

/-- Without the rest of an unfinished line, what follows a piece is what follows
the line. -/
theorem Read.afterLine_eq {limit : Nat} {file piece rest : Text}
    (read : Read limit file piece rest) :
    (if (!endsLine piece) = true then afterLine rest else rest) =
      afterLine file := by
  cases read with
  | cut body tail oneLine long lineEnd =>
      have inLine : '\n' ∉ body.take limit :=
        fun member => oneLine (List.mem_of_mem_take member)
      have inRest : '\n' ∉ body.drop limit :=
        fun member => oneLine (List.mem_of_mem_drop member)
      rw [endsLine_of_oneLine inLine, Bool.not_false, if_pos rfl,
        (firstLine_append inRest lineEnd).2,
        (firstLine_append oneLine lineEnd).2]
  | line body rest oneLine short =>
      rw [endsLine_newline, Bool.not_true, if_neg Bool.false_ne_true,
        (firstLine_append oneLine (Or.inr ⟨rest, rfl⟩)).2]
      rfl
  | last body oneLine short =>
      have alone := (firstLine_append oneLine (Or.inl rfl)).2
      rw [List.append_nil, List.tail_nil] at alone
      rw [endsLine_of_oneLine oneLine, Bool.not_false, if_pos rfl, alone]
      rfl

theorem Read.length_lt {limit : Nat} (room : 0 < limit)
    {file piece rest : Text} (nonempty : file ≠ [])
    (read : Read limit file piece rest) : rest.length < file.length := by
  cases read with
  | cut body tail oneLine long lineEnd =>
      rw [List.length_append, List.length_append, List.length_drop]
      omega
  | line body rest oneLine short =>
      rw [List.length_append, List.length_cons]
      omega
  | last body oneLine short => exact List.length_pos_of_ne_nil nonempty

/-- The pieces that begin a line make the settings of the ROM reader.  In the
middle of a line the next such piece is the one behind the line. -/
theorem firstSettings_filePieces (size : Nat) (room : 1 < size)
    (rounds rounds' : Nat) (continues : Bool) (file : Text)
    (enough : file.length ≤ rounds) (enough' : file.length ≤ rounds') :
    firstSettings (filePieces size rounds continues file) =
      (memoryLines (size - 1) rounds'
        (if continues then afterLine file else file)).filterMap
          lineSetting := by
  induction rounds generalizing rounds' continues file with
  | zero =>
      obtain rfl := List.length_eq_zero_iff.mp (Nat.le_zero.mp enough)
      exact firstSettings_nil size 0 rounds' continues
  | succ rounds ih =>
      by_cases empty : file = []
      · subst empty
        exact firstSettings_nil size (rounds + 1) rounds' continues
      rw [filePieces_cons size rounds continues empty, firstSettings_cons]
      have read := splitLine_read (size - 1) file
      generalize (splitLine (size - 1) file).1 = piece at read ⊢
      generalize (splitLine (size - 1) file).2 = rest at read ⊢
      have shorter := read.length_lt (by omega) empty
      have behind : ∀ later, file.length ≤ later + 1 →
          firstSettings (filePieces size rounds (!endsLine piece) rest) =
            (memoryLines (size - 1) later (afterLine file)).filterMap
              lineSetting := by
        intro later enoughLater
        rw [ih later (!endsLine piece) rest (by omega) (by omega),
          read.afterLine_eq]
      cases continues with
      | true =>
          exact behind rounds' (by omega)
      | false =>
          cases rounds' with
          | zero =>
              exact absurd (List.length_eq_zero_iff.mp
                (Nat.le_zero.mp enough')) empty
          | succ rounds' =>
              simp only [Bool.false_eq_true, if_false]
              rw [memoryLines_firstLine _ _ empty, List.filterMap_cons,
                behind rounds' enough', read.lineSetting_eq]
              cases lineSetting ((firstLine file).take (size - 1)) with
              | none => rfl
              | some setting => rfl

theorem loadConfigurationFromRom_eq (console : Console)
    (items : List ConfigurationItem) (text : Text) (config : Config) :
    loadConfigurationFromRom console items text config =
      runWrites (applySetting console items)
        (firstSettings (configPieces text)) config := by
  rw [loadConfigurationFromRom, foldl_applyConfigLine, configPieces,
    firstSettings_filePieces maximumConfigLength (by decide) text.length
      text.length false text (Nat.le_refl _) (Nat.le_refl _)]
  rfl

/-! ### Telling sequences of settings apart -/

def SameRuns (first second : List (Text × Text)) : Prop :=
  ∀ console items config, VideoModeItems items →
    ∀ item ∈ items,
      item.value (runWrites (applySetting console items) first config) =
        item.value (runWrites (applySetting console items) second config)

theorem SameRuns.symm {first second : List (Text × Text)}
    (same : SameRuns first second) : SameRuns second first := by
  intro console items config videoMode item member
  exact (same console items config videoMode item member).symm

/-- Only the keys that name an item have an effect. -/
theorem runWrites_named (console : Console) (items : List ConfigurationItem)
    (settings : List (Text × Text)) (config : Config) :
    runWrites (applySetting console items)
        (settings.filter fun setting =>
          items.any fun item => setting.1 = item.name) config =
      runWrites (applySetting console items) settings config := by
  refine runWrites_filter (applySetting console items)
    (fun key => items.any fun item => key = item.name) ?_ settings config
  intro key value state unnamed
  simp only [List.any_eq_false, decide_eq_true_eq] at unnamed
  unfold applySetting
  induction items with
  | nil =>
      rfl
  | cons item items ih =>
      rw [List.foldl_cons, if_neg (unnamed item List.mem_cons_self)]
      exact ih fun other member =>
        unnamed other (List.mem_cons_of_mem item member)

/-- Any console, for runs in which the video mode does not matter. -/
def probeConsole : Console :=
  { romRegion := 'E', besideModeList := fun _ => .autoDetect }

def probeConfig (text : Text) : Config :=
  { ints := fun _ => 0, texts := fun _ => text }

/-- One text item shows whether its key is set, and to what. -/
def valueProbe (key : Text) (maxlen : Nat) : List ConfigurationItem :=
  [{ name := key, type := .text .kernelParameter maxlen }]

/-- A text item that empties the video parameter and a video mode item that
fills it show which of their keys is set last. -/
def orderProbe (emptied filled : Text) : List ConfigurationItem :=
  [{ name := emptied, type := .text .videoParameter 1 },
    { name := filled, type := .video .currentMode }]

theorem videoModeItems_valueProbe (key : Text) (maxlen : Nat) :
    VideoModeItems (valueProbe key maxlen) := by
  intro item member var video
  obtain rfl := List.mem_singleton.mp member
  cases video

theorem videoModeItems_orderProbe (emptied filled : Text) :
    VideoModeItems (orderProbe emptied filled) := by
  intro item member var video
  rcases List.mem_pair.mp member with rfl | rfl
  · cases video
  · exact (ItemClass.video.inj video).symm

/-- What the value probe shows of settings without repeated keys. -/
theorem valueProbe_run (settings : List (Text × Text)) (key : Text)
    (maxlen : Nat) (config : Config) :
    (runWrites (applySetting probeConsole (valueProbe key maxlen)) settings
        config).texts .kernelParameter =
      (runWrites (applySetting probeConsole (valueProbe key maxlen))
        (settings.filter fun setting => setting.1 = key)
        config).texts .kernelParameter := by
  rw [← runWrites_named]
  simp only [valueProbe, List.any_cons, List.any_nil, Bool.or_false]

theorem valueProbe_set (key value : Text) (maxlen : Nat) (config : Config) :
    (runWrites (applySetting probeConsole (valueProbe key maxlen))
        [(key, value)] config).texts .kernelParameter =
      value.take (maxlen - 1) := by
  simp only [runWrites, applySetting, valueProbe, readData, Config.setText,
    List.foldl_cons, List.foldl_nil, if_true, Function.update_self]

theorem SameRuns.mem {first second : List (Text × Text)}
    (same : SameRuns first second) (distinct : DistinctKeys first)
    (distinct' : DistinctKeys second) (setting : Text × Text)
    (member : setting ∈ first) : setting ∈ second := by
  obtain ⟨key, value⟩ := setting
  have observed (maxlen : Nat) (config : Config) :
      value.take (maxlen - 1) =
        (runWrites (applySetting probeConsole (valueProbe key maxlen))
          (second.filter fun setting => setting.1 = key)
          config).texts .kernelParameter := by
    have shown := same probeConsole (valueProbe key maxlen) config
      (videoModeItems_valueProbe key maxlen) _ List.mem_cons_self
    injection shown with shown
    rw [valueProbe_run first, valueProbe_run second,
      distinct.filter_key member, valueProbe_set] at shown
    exact shown
  by_cases written : ∃ other ∈ second, other.1 = key
  · obtain ⟨⟨_, value'⟩, otherIn, rfl⟩ := written
    have sameValue := observed (value.length + value'.length + 1)
      (probeConfig [])
    rw [distinct'.filter_key otherIn, valueProbe_set,
      List.take_of_length_le (by omega),
      List.take_of_length_le (by omega)] at sameValue
    rw [sameValue]
    exact otherIn
  · have none : (second.filter fun setting => setting.1 = key) = [] := by
      rw [List.filter_eq_nil_iff]
      intro other otherIn
      rw [decide_eq_true_eq]
      exact fun named => written ⟨other, otherIn, named⟩
    have unchanged := observed (value.length + 1) (probeConfig ('x' :: value))
    rw [none, Nat.add_sub_cancel, List.take_length] at unchanged
    exact absurd unchanged (List.cons_ne_self 'x' value).symm

private theorem toList_nonempty (text : String) (nonempty : text ≠ "") :
    text.toList ≠ [] :=
  fun empty => nonempty (String.toList_eq_nil_iff.mp empty)

theorem videoParameter_nonempty (console : Console) (config : Config) :
    (setDefaultVideoParameter console config).texts .videoParameter ≠ [] := by
  have pal : commandlinePal ≠ [] := toList_nonempty _ (by decide)
  have ntsc : commandlineNtsc ≠ [] := toList_nonempty _ (by decide)
  have otherMode : (if console.romRegion ≠ 'E' then commandlineNtsc
      else commandlinePal) ≠ [] := by
    split
    · exact ntsc
    · exact pal
  simp only [setDefaultVideoParameter, Config.setText, Function.update_self]
  cases getCurrentMode console config with
  | vga640x60 => exact toList_nonempty _ (by decide)
  | vga640x72 => exact toList_nonempty _ (by decide)
  | vga640x75 => exact toList_nonempty _ (by decide)
  | vga640x85 => exact toList_nonempty _ (by decide)
  | dtv480p => exact toList_nonempty _ (by decide)
  | ntsc => exact ntsc
  | pal => exact pal
  | autoDetect => exact otherMode
  | dtv576p => exact otherMode
  | dtv720p => exact otherMode
  | dtv1080i => exact otherMode

theorem orderProbe_run (settings : List (Text × Text))
    (emptied filled : Text) (config : Config) :
    (runWrites (applySetting probeConsole (orderProbe emptied filled))
        settings config).texts .videoParameter =
      (runWrites (applySetting probeConsole (orderProbe emptied filled))
        (settings.filter fun setting =>
          setting.1 = emptied ∨ setting.1 = filled)
        config).texts .videoParameter := by
  rw [← runWrites_named]
  simp only [orderProbe, List.any_cons, List.any_nil, Bool.or_false,
    Bool.decide_or]

theorem SameRuns.order {first second : List (Text × Text)}
    (same : SameRuns first second) (distinct : DistinctKeys first)
    (distinct' : DistinctKeys second) (emptied filled : Text × Text)
    (ordered : [emptied, filled].Sublist first) :
    ¬ [filled, emptied].Sublist second := by
  intro reversed
  have pair : DistinctKeys [emptied, filled] :=
    List.Pairwise.sublist ordered distinct
  have apart : emptied.1 ≠ filled.1 :=
    List.rel_of_pairwise_cons pair List.mem_cons_self
  have shown := same probeConsole (orderProbe emptied.1 filled.1)
    (probeConfig []) (videoModeItems_orderProbe emptied.1 filled.1) _
    List.mem_cons_self
  injection shown with shown
  have swapped : (second.filter fun setting =>
      setting.1 = emptied.1 ∨ setting.1 = filled.1) = [filled, emptied] := by
    rw [← distinct'.filter_pair reversed]
    simp only [or_comm]
  rw [orderProbe_run first, orderProbe_run second,
    distinct.filter_pair ordered, swapped] at shown
  simp only [runWrites, applySetting, orderProbe, List.foldl_cons,
    List.foldl_nil, if_neg apart, if_neg apart.symm, if_true] at shown
  exact videoParameter_nonempty _ _ shown

/-- Settings have the same effect on every set of items exactly when the last
setting of each key is the same, in the same order. -/
theorem sameRuns_iff (first second : List (Text × Text)) :
    SameRuns first second ↔ lastWrites first = lastWrites second := by
  constructor
  · intro same
    have sameLast : SameRuns (lastWrites first) (lastWrites second) := by
      intro console items config videoMode item member
      have hides := applySetting_hides console items videoMode
      rw [hides.run_lastWrites, hides.run_lastWrites]
      exact same console items config videoMode item member
    have distinct := distinctKeys_lastWrites first
    have distinct' := distinctKeys_lastWrites second
    refine distinct.eq_of_order distinct' ?_ (sameLast.order distinct distinct')
    intro setting
    exact ⟨sameLast.mem distinct distinct' setting,
      sameLast.symm.mem distinct' distinct setting⟩
  · intro same console items config videoMode item member
    have hides := applySetting_hides console items videoMode
    rw [← hides.run_lastWrites first, same, hides.run_lastWrites]

/-! ### The two readers -/

/-- A text read from a file leaves every item as the same text read from the
ROM does, exactly when the pieces that `fgets` cuts off overlong lines do not
contribute to the last settings. -/
theorem loadConfiguration_eq_fromRom_iff (text : Text) :
    (∀ console items config, VideoModeItems items →
      ∀ item ∈ items,
        item.value (loadConfiguration console items text config) =
          item.value (loadConfigurationFromRom console items text config)) ↔
      lastWrites (pieceSettings (configPieces text)) =
        lastWrites (firstSettings (configPieces text)) := by
  rw [← sameRuns_iff]
  simp only [loadConfiguration_eq, loadConfigurationFromRom_eq, SameRuns]

/-- A comment longer than the buffer whose rest reads as a setting. -/
def overlongComment : Text :=
  List.replicate 2047 '#' ++ "EnableDev9=1\n".toList

theorem overlongComment_differs :
    ¬ ∀ text : Text, '\x00' ∉ text →
      ∀ console items config, VideoModeItems items →
        ∀ item ∈ items,
          item.value (loadConfiguration console items text config) =
            item.value
              (loadConfigurationFromRom console items text config) := by
  intro always
  have same := always overlongComment
    (by
      intro member
      rcases List.mem_append.mp member with inComment | inRest
      · have hash := List.eq_of_mem_replicate inComment
        revert hash
        decide
      · revert inRest
        decide)
    probeConsole [checkItem "EnableDev9" .enableDev9] (probeConfig [])
    (by
      intro item member var video
      obtain rfl := List.mem_singleton.mp member
      cases video)
    _ List.mem_cons_self
  injection same with same
  have fromFile : (loadConfiguration probeConsole
      [checkItem "EnableDev9" .enableDev9] overlongComment
      (probeConfig [])).ints .enableDev9 = 1 := by
    decide +kernel
  have fromRom : (loadConfigurationFromRom probeConsole
      [checkItem "EnableDev9" .enableDev9] overlongComment
      (probeConfig [])).ints .enableDev9 = 0 := by
    decide +kernel
  rw [fromFile, fromRom] at same
  cases same

end KernelReloaded.Settings

/-
Where `loadLoaderModules` looks for a configuration.

The search is spread over the module loop and four blocks behind it.  Each has
its own one-shot flag, and the result `lrv` starts at "not loaded" in every
call.  Loading modules, the status messages and the record of an instant boot
do not touch a configuration item and are left out; what the modules make
available (files, disc, DVD-Video support) is an input of each call.
-/

import KernelReloaded.Loader.ConfigRoundTrip

namespace KernelReloaded.Settings

open CText

/-! ### The range check of the video mode -/

def decrementMode (mode : Int) : Int :=
  if mode - 1 < 0 then modeList.length - 1 else mode - 1

def incrementMode (mode : Int) : Int :=
  if mode + 1 ≥ modeList.length then 0 else mode + 1

/-- `changeMode`, as far as it changes a configuration item. -/
def changeMode (config : Config) : Config :=
  config.setInt .currentMode
    (incrementMode (decrementMode (config.ints .currentMode)))

def ModeInList (config : Config) : Prop :=
  0 ≤ config.ints .currentMode ∧ config.ints .currentMode < modeList.length

theorem changeMode_of_inList {config : Config} (inList : ModeInList config) :
    changeMode config = config := by
  have size : (modeList.length : Int) = 11 := rfl
  obtain ⟨low, high⟩ := inList
  have same : incrementMode (decrementMode (config.ints .currentMode)) =
      config.ints .currentMode := by
    simp only [incrementMode, decrementMode]
    split <;> split <;> omega
  rw [changeMode, same, Config.setInt, Function.update_eq_self]

/-! ### One call -/

inductive DiskType where
  | cd
  | dvd
  | cdda
  | dvdv
  | unknown
  | detect
  | none
deriving DecidableEq

def DiskType.readable : DiskType → Bool
  | .cd => true
  | .dvd => true
  | .dvdv => true
  | _ => false

/-- What does not change between the calls. -/
structure Build where
  tables : MenuTables
  console : Console
  slim : Bool
  debugMode : Int
  doDefaultSbiosCalls : Bool
  /-- The embedded `defaultconfig.txt`. -/
  rom : Option Text

/-- What one call finds.  A file that cannot be opened is `none`. -/
structure CallEnv where
  mc0 : Option Text
  mc1 : Option Text
  host : Option Text
  netsurf : Option Text
  usb : Option Text
  cdfs : Option Text
  dvdSupported : Bool
  diskType : DiskType
  libsdVersion : Int

def defaultSbiosCall (build : Build) (index : Nat) : Int :=
  if build.doDefaultSbiosCalls ∧ 176 ≤ index ∧ index ≤ 196 then 0 else 1

def defaultLoad (build : Build) (env : CallEnv) (entry : ModuleEntry) : Int :=
  let moduletype : Int := if build.slim ∧ build.debugMode = -1 then 1 else -1
  let slim : Int := if build.slim then 1 else -1
  if entry.debugMode ≠ 0 ∧ entry.debugMode ≠ build.debugMode then 0
  else if entry.sound ≠ 0 then if env.libsdVersion ≤ 0x104 then 1 else 0
  else if entry.defaultmod = 1 then
    if entry.slim = 0 ∨ entry.slim = moduletype then 1 else 0
  else if entry.defaultmod = 2 then
    if entry.slim = 0 ∨ entry.slim = slim then 1 else 0
  else 0

/-- The items that are not named keep their value. -/
def setDefaultConfiguration (build : Build) (env : CallEnv) (config : Config) :
    Config :=
  let video := setDefaultVideoParameter build.console config
  let newModules := build.slim ∧ build.debugMode = -1
  { ints := fun
      | .enableSbiosTge => 1
      | .enableDev9 => if build.debugMode = -1 then 1 else 0
      | .enableEeDebug => 0
      | .autoBootTime => 0
      | .patchLibsd => 0
      | .newModulesInTge => if newModules then 1 else 0
      | .sbiosCallEnabled index =>
          if index < build.tables.sbiosDescription.length then
            defaultSbiosCall build index
          else
            video.ints (.sbiosCallEnabled index)
      | .moduleLoad index =>
          match build.tables.modules[index]? with
          | some entry => defaultLoad build env entry
          | none => video.ints (.moduleLoad index)
      | other => video.ints other
    texts := fun
      | .myIp => "192.168.0.10".toList
      | .netmask => "255.255.255.0".toList
      | .gatewayIp => "192.168.0.1".toList
      | .dnsIp => "192.168.0.1".toList
      | .iopResetParam =>
          if newModules then "rom0:UDNL rom0:OSDCNF".toList
          else "rom0:UDNL".toList
      | other => video.texts other }

structure Search where
  lrv : Int
  config : Config

def loadFile (build : Build) (file : Option Text) (config : Config) : Search :=
  match file with
  | none => { lrv := -1, config := config }
  | some text =>
      { lrv := 0
        config := loadConfiguration build.console build.tables.items text
          config }

def retry (build : Build) (file : Option Text) (search : Search) : Search :=
  if search.lrv ≠ 0 then loadFile build file search.config else search

def searchCards (build : Build) (env : CallEnv) (config : Config) : Search :=
  let search := loadFile build env.mc0
    (setDefaultConfiguration build env config)
  let search := retry build env.mc1 search
  let search := retry build env.host search
  { search with config := changeMode search.config }

structure LoaderEntry where
  path : String
  debugMode : Int := 0
  loadCfg : Bool := false

/-- The loop over the modules: the entries with their flags, and the search. -/
def moduleLoop (build : Build) (env : CallEnv) :
    List LoaderEntry → Search → List LoaderEntry × Search
  | [], search => ([], search)
  | entry :: rest, search =>
      if entry.debugMode ≠ 0 ∧ entry.debugMode ≠ build.debugMode then
        let (entries, search) := moduleLoop build env rest search
        (entry :: entries, search)
      else if entry.loadCfg then
        let (entries, search) := moduleLoop build env rest
          (searchCards build env search.config)
        ({ entry with loadCfg := false } :: entries, search)
      else
        let (entries, search) := moduleLoop build env rest search
        (entry :: entries, search)

def searchDisc (build : Build) (env : CallEnv) (search : Search) : Search :=
  if search.lrv ≠ 0 ∧ env.diskType.readable then
    let search := loadFile build env.cdfs search.config
    { search with config := changeMode search.config }
  else
    search

def searchRom (build : Build) (search : Search) : Search :=
  if search.lrv ≠ 0 then
    match build.rom with
    | none => { search with lrv := -1 }
    | some text =>
        { lrv := 0
          config := changeMode (loadConfigurationFromRom build.console
            build.tables.items text search.config) }
  else
    search

structure LoaderState where
  entries : List LoaderEntry
  loadNetsurf : Bool
  loadUsb : Bool
  loadDvd : Bool
  config : Config

def loadLoaderModules (build : Build) (env : CallEnv) (state : LoaderState) :
    LoaderState :=
  let (entries, search) := moduleLoop build env state.entries
    { lrv := -1, config := state.config }
  let search := if state.loadNetsurf then retry build env.netsurf search
    else search
  let search := if state.loadUsb then retry build env.usb search else search
  let discTurn := state.loadDvd && env.dvdSupported
  let search := if discTurn then searchDisc build env search else search
  let search := searchRom build search
  { entries := entries
    loadNetsurf := false
    loadUsb := false
    loadDvd := state.loadDvd && !discTurn
    config := search.config }

/-- The table `moduleList` of `modules.c`, with the entries that depend on the
build. -/
def moduleList (iopReset resetIop mx4sio : Bool) : List LoaderEntry :=
  (if iopReset then [{ path := "eedebug.irx", debugMode := -1 }] else []) ++
    [{ path := "rom0:CLEARSPU" }, { path := "rom0:ADDDRV" },
      { path := "eromdrvloader.irx" }] ++
    (if resetIop then
      [{ path := "rom0:SIO2MAN", debugMode := -1 },
        { path := "rom0:MCMAN", debugMode := -1 },
        { path := "rom0:MCSERV", debugMode := -1 }]
    else []) ++
    { path := "rom0:PADMAN", loadCfg := true } ::
    ([{ path := "SMSUTILS.irx" }, { path := "SMSCDVD.irx" }] ++
    (if resetIop then
      [{ path := "ioptrap.irx", debugMode := -1 },
        { path := "iomanX.irx", debugMode := -1 },
        { path := "poweroff.irx", debugMode := -1 },
        { path := "ps2dev9.irx", debugMode := -1 },
        { path := "ps2ip.irx", debugMode := -1 }]
    else []) ++
    [{ path := "ps2http.irx" }, { path := "bdm.irx" },
      { path := "bdmfs_fatfs.irx" }, { path := "usbd.irx" },
      { path := "usbmass_bd.irx" }] ++
    (if mx4sio then [{ path := "mx4sio_bd.irx" }] else []) ++
    [{ path := "fileXio.irx" }, { path := "ps2kbd.irx" }])

/-- The statics of the program before the first call. -/
def LoaderState.startup (list : List LoaderEntry) (config : Config) :
    LoaderState :=
  { entries := list
    loadNetsurf := true
    loadUsb := true
    loadDvd := true
    config := config }

/-! ### The module loop -/

theorem moduleLoop_unflagged (build : Build) (env : CallEnv)
    (entries : List LoaderEntry)
    (unflagged : ∀ entry ∈ entries, entry.loadCfg = false) (search : Search) :
    moduleLoop build env entries search = (entries, search) := by
  induction entries with
  | nil => rfl
  | cons entry rest ih =>
      have later := ih fun other member =>
        unflagged other (List.mem_cons_of_mem entry member)
      have first : entry.loadCfg = false := unflagged entry List.mem_cons_self
      rw [moduleLoop, later]
      simp only [first, Bool.false_eq_true, if_false]
      split <;> rfl

theorem moduleLoop_flagged (build : Build) (env : CallEnv)
    (before behind : List LoaderEntry) (entry : LoaderEntry)
    (unflaggedBefore : ∀ other ∈ before, other.loadCfg = false)
    (unflaggedBehind : ∀ other ∈ behind, other.loadCfg = false)
    (flagged : entry.loadCfg = true) (always : entry.debugMode = 0)
    (search : Search) :
    moduleLoop build env (before ++ entry :: behind) search =
      (before ++ { entry with loadCfg := false } :: behind,
        searchCards build env search.config) := by
  induction before with
  | nil =>
      rw [List.nil_append, moduleLoop,
        if_neg (fun skipped => skipped.1 always), if_pos flagged,
        moduleLoop_unflagged build env behind unflaggedBehind, List.nil_append]
  | cons other before ih =>
      have later := ih fun next member =>
        unflaggedBefore next (List.mem_cons_of_mem other member)
      have first : other.loadCfg = false :=
        unflaggedBefore other List.mem_cons_self
      rw [List.cons_append, moduleLoop, later, List.cons_append]
      simp only [first, Bool.false_eq_true, if_false]
      split <;> rfl

theorem moduleLoop_moduleList (build : Build) (env : CallEnv)
    (iopReset resetIop mx4sio : Bool) (search : Search) :
    ∃ entries, (∀ entry ∈ entries, entry.loadCfg = false) ∧
      moduleLoop build env (moduleList iopReset resetIop mx4sio) search =
        (entries, searchCards build env search.config) := by
  refine ⟨_, ?_, moduleLoop_flagged build env _ _ _ ?_ ?_ rfl rfl search⟩
  · cases iopReset <;> cases resetIop <;> cases mx4sio <;> simp
  · cases iopReset <;> cases resetIop <;> simp
  · cases resetIop <;> cases mx4sio <;> simp

/-! ### The sources, in their order -/

inductive Source where
  | mc0
  | mc1
  | host
  | netsurf
  | usb
  | cdfs
  | rom
deriving DecidableEq

def Source.text (build : Build) (env : CallEnv) : Source → Option Text
  | .mc0 => env.mc0
  | .mc1 => env.mc1
  | .host => env.host
  | .netsurf => env.netsurf
  | .usb => env.usb
  | .cdfs =>
      if env.dvdSupported && env.diskType.readable then env.cdfs else none
  | .rom => build.rom

/-- Loading one source; all but those of the USB stick end in the range check
of the video mode. -/
def Source.apply (build : Build) (text : Text) (config : Config) :
    Source → Config
  | .netsurf | .usb =>
      loadConfiguration build.console build.tables.items text config
  | .rom =>
      changeMode (loadConfigurationFromRom build.console build.tables.items
        text config)
  | _ =>
      changeMode (loadConfiguration build.console build.tables.items text
        config)

def searchOrder : List Source :=
  [.mc0, .mc1, .host, .netsurf, .usb, .cdfs, .rom]

def firstSource (build : Build) (env : CallEnv) (sources : List Source) :
    Option (Source × Text) :=
  sources.findSome? fun source =>
    (source.text build env).map fun text => (source, text)

/-- The search after it applied one source, or none, to the defaults. -/
def Search.of (build : Build) (defaults : Config) :
    Option (Source × Text) → Search
  | none => { lrv := -1, config := defaults }
  | some (source, text) =>
      { lrv := 0, config := source.apply build text defaults }

/-- The defaults with the first existing source and no other. -/
def startupSpec (build : Build) (env : CallEnv) (config : Config) : Config :=
  (Search.of build (setDefaultConfiguration build env config)
    (firstSource build env searchOrder)).config

/-! ### The first call -/

def attempt (build : Build) (env : CallEnv) (search : Search)
    (source : Source) : Search :=
  if search.lrv ≠ 0 then
    match source.text build env with
    | none => { search with lrv := -1 }
    | some text => { lrv := 0, config := source.apply build text search.config }
  else
    search

theorem foldl_attempt (build : Build) (env : CallEnv) (defaults : Config)
    (sources : List Source) :
    sources.foldl (attempt build env) { lrv := -1, config := defaults } =
      Search.of build defaults (firstSource build env sources) := by
  have settled (sources : List Source) (search : Search)
      (loaded : search.lrv = 0) :
      sources.foldl (attempt build env) search = search := by
    induction sources with
    | nil => rfl
    | cons source sources ih =>
        rw [List.foldl_cons, attempt, if_neg (not_not.mpr loaded), ih]
  induction sources with
  | nil => rfl
  | cons source sources ih =>
      rw [List.foldl_cons, attempt, if_pos (by decide : (-1 : Int) ≠ 0),
        firstSource, List.findSome?_cons]
      cases present : source.text build env with
      | none => exact ih
      | some text => exact settled sources _ rfl

theorem searchCards_eq (build : Build) (env : CallEnv) {config : Config}
    (inList : ModeInList config) :
    searchCards build env config =
      [Source.mc0, .mc1, .host].foldl (attempt build env)
        { lrv := -1, config := setDefaultConfiguration build env config } := by
  -- Setting the defaults keeps the video mode.
  have checked : changeMode (setDefaultConfiguration build env config) =
      setDefaultConfiguration build env config :=
    changeMode_of_inList inList
  rw [foldl_attempt]
  cases mc0 : env.mc0 <;> cases mc1 : env.mc1 <;> cases host : env.host <;>
    simp [searchCards, retry, loadFile, firstSource, Source.text, Search.of,
      Source.apply, mc0, mc1, host, checked]

theorem searchDisc_eq (build : Build) (env : CallEnv) (search : Search)
    (unloaded : search.lrv ≠ 0 → ModeInList search.config ∧ search.lrv = -1) :
    (if env.dvdSupported then searchDisc build env search else search) =
      attempt build env search .cdfs := by
  by_cases loaded : search.lrv = 0
  · simp [searchDisc, attempt, loaded]
  · obtain ⟨inList, lrv⟩ := unloaded loaded
    have checked := changeMode_of_inList inList
    have whole : search = { lrv := -1, config := search.config } := by
      rw [← lrv]
    rw [whole]
    cases supported : env.dvdSupported <;>
      cases readable : env.diskType.readable <;> cases disc : env.cdfs <;>
      simp [searchDisc, attempt, loadFile, Source.text, Source.apply,
        supported, readable, disc, checked]

theorem retry_eq (build : Build) (env : CallEnv) (search : Search) :
    retry build env.netsurf search = attempt build env search .netsurf ∧
      retry build env.usb search = attempt build env search .usb := by
  constructor
  · cases netsurf : env.netsurf <;>
      simp [retry, attempt, loadFile, Source.text, Source.apply, netsurf]
  · cases usb : env.usb <;>
      simp [retry, attempt, loadFile, Source.text, Source.apply, usb]

theorem searchRom_eq (build : Build) (env : CallEnv) (search : Search) :
    searchRom build search = attempt build env search .rom := by
  cases rom : build.rom <;>
    simp [searchRom, attempt, Source.text, Source.apply, rom]

theorem loadLoaderModules_startup (build : Build) (env : CallEnv)
    (iopReset resetIop mx4sio : Bool) {config : Config}
    (inList : ModeInList config) :
    (loadLoaderModules build env (LoaderState.startup
        (moduleList iopReset resetIop mx4sio) config)).config =
      startupSpec build env config := by
  obtain ⟨entries, -, loop⟩ := moduleLoop_moduleList build env iopReset
    resetIop mx4sio { lrv := -1, config := config }
  have disc := searchDisc_eq build env ([Source.mc0, .mc1, .host, .netsurf,
      .usb].foldl (attempt build env)
        { lrv := -1, config := setDefaultConfiguration build env config }) (by
    rw [foldl_attempt]
    intro notLoaded
    cases found : firstSource build env [.mc0, .mc1, .host, .netsurf, .usb] with
    | none => exact ⟨inList, rfl⟩
    | some source =>
        rw [found] at notLoaded
        exact (notLoaded rfl).elim)
  simp only [List.foldl_cons, List.foldl_nil] at disc
  simp only [loadLoaderModules, LoaderState.startup, loop, if_true,
    Bool.true_and, searchCards_eq build env inList, List.foldl_cons,
    List.foldl_nil, (retry_eq build env _).1, (retry_eq build env _).2, disc,
    searchRom_eq build env]
  rw [startupSpec, ← foldl_attempt]
  rfl

/-! ### Later calls -/

structure Reload where
  config : Config
  env : CallEnv

def reload (build : Build) (state : LoaderState) (call : Reload) :
    LoaderState :=
  loadLoaderModules build call.env { state with config := call.config }

def reloads (build : Build) (state : LoaderState) (calls : List Reload) :
    LoaderState :=
  calls.foldl (reload build) state

/-- What every call leaves behind: the flags of the cards, the host and the
stick are spent. -/
structure Started (state : LoaderState) : Prop where
  unflagged : ∀ entry ∈ state.entries, entry.loadCfg = false
  noNetsurf : state.loadNetsurf = false
  noUsb : state.loadUsb = false

theorem started_startup (build : Build) (env : CallEnv)
    (iopReset resetIop mx4sio : Bool) (config : Config) :
    Started (loadLoaderModules build env (LoaderState.startup
      (moduleList iopReset resetIop mx4sio) config)) := by
  obtain ⟨entries, unflagged, loop⟩ := moduleLoop_moduleList build env iopReset
    resetIop mx4sio { lrv := -1, config := config }
  have left : (loadLoaderModules build env (LoaderState.startup
      (moduleList iopReset resetIop mx4sio) config)).entries = entries := by
    simp only [loadLoaderModules, LoaderState.startup, loop]
  exact ⟨left ▸ unflagged, rfl, rfl⟩

/-- The disc block is still to come and finds a disc it can read. -/
def discRead (state : LoaderState) (env : CallEnv) : Bool :=
  state.loadDvd && env.dvdSupported && env.diskType.readable

theorem reload_config (build : Build) {state : LoaderState}
    (started : Started state) (call : Reload) :
    (reload build state call).config =
      (searchRom build
        (if discRead state call.env then
          let search := loadFile build call.env.cdfs call.config
          { search with config := changeMode search.config }
        else { lrv := -1, config := call.config })).config := by
  have loop := moduleLoop_unflagged build call.env state.entries
    started.unflagged { lrv := -1, config := call.config }
  simp only [reload, loadLoaderModules, loop, started.noNetsurf, started.noUsb,
    Bool.false_eq_true, if_false, discRead]
  by_cases turn : (state.loadDvd && call.env.dvdSupported) = true
  · by_cases readable : call.env.diskType.readable = true
    · simp [searchDisc, turn, readable]
    · simp [searchDisc, turn, readable]
  · simp [turn]

theorem started_reload (build : Build) {state : LoaderState}
    (started : Started state) (call : Reload) :
    Started (reload build state call) := by
  have loop := moduleLoop_unflagged build call.env state.entries
    started.unflagged { lrv := -1, config := call.config }
  have left : (reload build state call).entries = state.entries := by
    simp only [reload, loadLoaderModules, loop]
  exact ⟨left ▸ started.unflagged, rfl, rfl⟩

theorem started_reloads (build : Build) (calls : List Reload)
    {state : LoaderState} (started : Started state) :
    Started (reloads build state calls) := by
  induction calls generalizing state with
  | nil => exact started
  | cons call calls ih => exact ih (started_reload build started call)

/-! ### When a later call changes nothing -/

def Source.lines (text : Text) : Source → List Text
  | .rom => memoryLines (maximumConfigLength - 1) text.length text
  | _ => fileLines maximumConfigLength text.length text

/-- The source a later call reads again. -/
def rereadSource (build : Build) (state : LoaderState) (env : CallEnv) :
    Option (Source × Text) :=
  match discRead state env, env.cdfs with
  | true, some text => some (.cdfs, text)
  | _, _ => build.rom.map fun text => (.rom, text)

/-- No line of the source that is read again changes an item, and where the
range check runs the video mode passes it. -/
structure QuietCall (build : Build) (state : LoaderState) (call : Reload) :
    Prop where
  lines : ∀ source text,
    rereadSource build state call.env = some (source, text) →
      ∀ line ∈ source.lines text,
        applyConfigLine build.console build.tables.items line call.config =
          call.config
  mode : discRead state call.env = true ∨ build.rom ≠ none →
    ModeInList call.config

private theorem foldl_lines_quiet {build : Build} {config : Config}
    {lines : List Text}
    (quiet : ∀ line ∈ lines, applyConfigLine build.console build.tables.items
      line config = config) :
    lines.foldl (fun config line => applyConfigLine build.console
      build.tables.items line config) config = config := by
  induction lines with
  | nil => rfl
  | cons line lines ih =>
      rw [List.foldl_cons, quiet line List.mem_cons_self]
      exact ih fun other member => quiet other (List.mem_cons_of_mem _ member)

theorem reload_keeps_of_quiet (build : Build) {state : LoaderState}
    (started : Started state) {call : Reload}
    (quiet : QuietCall build state call) :
    (reload build state call).config = call.config := by
  have checked (runs : discRead state call.env = true ∨ build.rom ≠ none) :
      changeMode call.config = call.config :=
    changeMode_of_inList (quiet.mode runs)
  -- The embedded file, when the search comes to it with the items unchanged.
  have embedded (reached : ∀ text, build.rom = some text →
      rereadSource build state call.env = some (.rom, text)) :
      (searchRom build { lrv := -1, config := call.config }).config =
        call.config := by
    rw [searchRom, if_pos (show (-1 : Int) ≠ 0 by decide)]
    cases rom : build.rom with
    | none => rfl
    | some text =>
        have loaded := foldl_lines_quiet (quiet.lines .rom text
          (reached text rom))
        change changeMode (loadConfigurationFromRom _ _ _ _) = _
        rw [loadConfigurationFromRom]
        rw [Source.lines] at loaded
        rw [loaded]
        exact checked (.inr (by rw [rom]; exact Option.some_ne_none text))
  rw [reload_config build started call]
  cases disc : discRead state call.env with
  | false =>
      rw [if_neg Bool.false_ne_true]
      refine embedded fun text rom => ?_
      simp [rereadSource, disc, rom]
  | true =>
      rw [if_pos rfl]
      cases file : call.env.cdfs with
      | none =>
          have same : changeMode call.config = call.config :=
            checked (.inl disc)
          simp only [loadFile, same]
          refine embedded fun text rom => ?_
          simp [rereadSource, disc, file, rom]
      | some text =>
          have loaded := foldl_lines_quiet (quiet.lines .cdfs text
            (by simp [rereadSource, disc, file]))
          have same : changeMode (loadConfiguration build.console
              build.tables.items text call.config) = call.config := by
            rw [loadConfiguration]
            rw [Source.lines] at loaded
            · rw [loaded]
              exact checked (.inl disc)
            · intro impossible
              cases impossible
          simp only [loadFile, same, searchRom]
          rfl

/-! ### Whole runs -/

/-- The first call applies the first source to the defaults, and every later
one leaves the items as they were. -/
def SearchedOnce (build : Build) (first : LoaderState) (expected : Config)
    (calls : List Reload) : Prop :=
  first.config = expected ∧
    ∀ earlier call later, calls = earlier ++ call :: later →
      (reload build (reloads build first earlier) call).config = call.config

/-- In every run whose later calls are quiet the configuration is searched
once. -/
theorem searchedOnce_of_quiet (build : Build) (env : CallEnv)
    (iopReset resetIop mx4sio : Bool) (start : Config)
    (inList : ModeInList start) (calls : List Reload)
    (quiet : ∀ earlier call later, calls = earlier ++ call :: later →
      QuietCall build (reloads build (loadLoaderModules build env
        (LoaderState.startup (moduleList iopReset resetIop mx4sio) start))
        earlier) call) :
    SearchedOnce build (loadLoaderModules build env (LoaderState.startup
        (moduleList iopReset resetIop mx4sio) start))
      (startupSpec build env start) calls := by
  refine ⟨loadLoaderModules_startup build env iopReset resetIop mx4sio inList,
    ?_⟩
  intro earlier call later split
  have started := started_reloads build earlier
    (started_startup build env iopReset resetIop mx4sio start)
  exact reload_keeps_of_quiet build started (quiet earlier call later split)

/-! ### A user change that a reload takes back -/

def autoBootItem : ConfigurationItem := checkItem "AutoBootTime" .autoBootTime

def endsInAutoBoot (front : Text) : Text :=
  front ++ '\n' :: (autoBootItem.name ++ ['=', '0'] ++ ['\n'])

def smallBuild (rom : Option Text) : Build :=
  { tables := smallTables
    console := { romRegion := 'E', besideModeList := fun _ => .autoDetect }
    slim := false
    debugMode := -1
    doDefaultSbiosCalls := false
    rom := rom }

def bareEnv : CallEnv :=
  { mc0 := none, mc1 := none, host := none, netsurf := none, usb := none
    cdfs := none, dvdSupported := false, diskType := .none, libsdVersion := 0 }

def zeroConfig : Config := { ints := fun _ => 0, texts := fun _ => [] }

def fiveSeconds : Reload :=
  { config := zeroConfig.setInt .autoBootTime 5, env := bareEnv }

theorem bareRun_searchedOnce :
    SearchedOnce (smallBuild none)
      (loadLoaderModules (smallBuild none) bareEnv (LoaderState.startup
        (moduleList false true false) zeroConfig))
      (startupSpec (smallBuild none) bareEnv zeroConfig) [fiveSeconds] := by
  apply searchedOnce_of_quiet
  · exact ⟨by decide, by decide⟩
  · intro earlier call later split
    have only : call = fiveSeconds := by
      have member : call ∈ [fiveSeconds] := by simp [split]
      simpa using member
    subst call
    have noDisc (state : LoaderState) :
        discRead state fiveSeconds.env = false := by
      simp [discRead, fiveSeconds, bareEnv]
    refine ⟨?_, ?_⟩
    · intro source text reread
      simp [rereadSource, noDisc, smallBuild] at reread
    · rintro (disc | rom)
      · rw [noDisc] at disc
        cases disc
      · exact absurd rfl rom

theorem loadConfigurationFromRom_autoBoot (tables : MenuTables)
    (console : Console) (front : Text) (config : Config) :
    (loadConfigurationFromRom console tables.items (endsInAutoBoot front)
      config).ints .autoBootTime = 0 := by
  have registered : autoBootItem ∈ tables.items := by
    refine List.mem_cons_of_mem _ (List.mem_append_left _ ?_)
    rw [registerLoaderConfigItems, autoBootItem]
    simp only [List.mem_cons, true_or, or_true]
  obtain ⟨first, later, room, lines⟩ := memoryLines_append
    (maximumConfigLength - 1) front
    (autoBootItem.name ++ ['=', '0'] ++ ['\n']) (endsInAutoBoot front).length
    le_rfl
  obtain ⟨rounds, rfl⟩ : ∃ rounds, later = rounds + 1 :=
    Nat.exists_eq_add_one.mpr (lt_of_lt_of_le (by decide) room)
  have last : memoryLines (maximumConfigLength - 1) (rounds + 1)
      (autoBootItem.name ++ ['=', '0'] ++ ['\n']) =
        [autoBootItem.name ++ ['=', '0']] := by
    rw [memoryLines_line _ _ (by decide), List.take_of_length_le (by decide)]
    cases rounds <;> rfl
  have stripped : stripLineEnd (cstring (autoBootItem.name ++ ['=', '0'])) =
      autoBootItem.name ++ ['=', '0'] := by
    decide
  have applied (config : Config) :
      applyConfigLine console tables.items (autoBootItem.name ++ ['=', '0'])
        config = config.setInt .autoBootTime 0 :=
    applyConfigLine_of_key tables console registered stripped config
  rw [← endsInAutoBoot, last] at lines
  rw [loadConfigurationFromRom, lines, List.foldl_append, List.foldl_cons,
    List.foldl_nil, applied, Config.setInt_ints, Function.update_self]

theorem reload_resets_autoBoot (front : Text) {state : LoaderState}
    (started : Started state) :
    (reload (smallBuild (some (endsInAutoBoot front))) state
      fiveSeconds).config.ints .autoBootTime = 0 := by
  have noDisc : discRead state fiveSeconds.env = false := by
    simp [discRead, fiveSeconds, bareEnv]
  rw [reload_config _ started, noDisc, if_neg Bool.false_ne_true, searchRom,
    if_pos (show (-1 : Int) ≠ 0 by decide)]
  change (changeMode (loadConfigurationFromRom _ smallTables.items
    (endsInAutoBoot front) _)).ints .autoBootTime = 0
  rw [changeMode, Config.setInt_ints, Function.update_of_ne (by decide),
    loadConfigurationFromRom_autoBoot]

def defaultConfigFront : Text :=
  String.toList (
    "# Built-in fallback configuration, embedded into kloader.elf as a ROM file.\n" ++
    "#\n" ++
    "# This is used ONLY when every real config source has failed -- mc0:, mc1:,\n" ++
    "# mass0: and cdfs: are all tried first, so any card, stick or disc config\n" ++
    "# always wins over this one. On a console with a normal setup it is never\n" ++
    "# read.\n" ++
    "#\n" ++
    "# It exists for two reasons:\n" ++
    "#   - a card with no config still gets sane values rather than built-in\n" ++
    "#     compile-time defaults scattered across loadermenu.cpp\n" ++
    "#   - emulator runs become unattended, because there is no way to put a file\n" ++
    "#     where PCSX2 will let the guest see it without formatting a memory card\n" ++
    "#\n" ++
    "# AutoBootTime is 0 here on purpose: with no config anywhere, stopping at the\n" ++
    "# menu is the right behaviour on real hardware. Set it non-zero only in a\n" ++
    "# build you intend to boot unattended.\n" ++
    "\n" ++
    "KernelFileName=host:vmlinux.gz\n" ++
    "InitrdFileName=host:initrd.gz\n" ++
    "# ip=off keeps the kernel from hunting a DHCP lease it cannot get. It is built\n" ++
    "# with IP autoconfiguration for NFS root, and that runs whether or not an\n" ++
    "# interface exists -- a full round of requests, a timeout, then again, about\n" ++
    "# ninety seconds on a console with no adapter. The loader appends this itself\n" ++
    "# when it tells Linux there is no adapter; stating it here means a boot from\n" ++
    "# this fallback never pays the wait either. Remove it for an NFS root.\n" ++
    "KernelParameter=root=/dev/ram0 rw ramdisk_size=16384 ip=off")

def defaultConfig : Text := endsInAutoBoot defaultConfigFront

/-- The embedded configuration is applied again and takes the user's five
seconds back. -/
theorem fiveSeconds_not_searchedOnce :
    ¬ SearchedOnce (smallBuild (some defaultConfig))
      (loadLoaderModules (smallBuild (some defaultConfig)) bareEnv
        (LoaderState.startup (moduleList false true false) zeroConfig))
      (startupSpec (smallBuild (some defaultConfig)) bareEnv zeroConfig)
      [fiveSeconds] := by
  rintro ⟨-, kept⟩
  have same := kept [] fiveSeconds [] rfl
  have reset := reload_resets_autoBoot defaultConfigFront
    (started_reloads (smallBuild (some defaultConfig)) []
      (started_startup (smallBuild (some defaultConfig)) bareEnv false true
        false zeroConfig))
  rw [← defaultConfig, same] at reset
  exact absurd reset (by decide)

end KernelReloaded.Settings

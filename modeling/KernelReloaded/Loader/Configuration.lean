/-
The configuration items of the loader, and how they are saved and loaded.

The items are registered in the order of `graphic_main`,
`registerLoaderConfigItems` and `initMenu`.  Two items may share one variable,
and reading `videomode` also rewrites the video parameter.  The module table
and the table of SBIOS call descriptions depend on the build and are
parameters.

Progress messages and the icons saved on a memory card are left out.
-/

import KernelReloaded.Core.CLines
import Mathlib.Logic.Function.Basic

namespace KernelReloaded

/-- `MAX_INPUT_LEN`, also `MAX_PATH_LEN`: the size of every text variable. -/
def maxInputLen : Nat := 1024

namespace Settings

open CText

def maximumConfigLength : Nat := 2048

/-! ### Variables -/

inductive IntVar where
  | currentMode
  | autoBootTime
  | enableExtraMem
  | enableDev9
  | enableSbiosTge
  | newModulesInTge
  | patchLibsd
  | enableEeDebug
  | moduleLoad (index : Nat)
  | sbiosCallEnabled (index : Nat)
deriving DecidableEq

inductive TextVar where
  | kernelParameter
  | videoParameter
  | myIp
  | netmask
  | gatewayIp
  | dnsIp
  | iopResetParam
  | kernelFilename
  | initrdFilename
deriving DecidableEq

structure Config where
  ints : IntVar → Int
  texts : TextVar → Text

def Config.setInt (config : Config) (var : IntVar) (value : Int) : Config :=
  { config with ints := Function.update config.ints var value }

def Config.setText (config : Config) (var : TextVar) (value : Text) : Config :=
  { config with texts := Function.update config.texts var value }

@[simp] theorem Config.setInt_ints (config : Config) (var : IntVar)
    (value : Int) :
    (config.setInt var value).ints = Function.update config.ints var value :=
  rfl

@[simp] theorem Config.setText_ints (config : Config) (var : TextVar)
    (value : Text) : (config.setText var value).ints = config.ints :=
  rfl

/-! ### The video mode -/

inductive GsMode where
  | autoDetect
  | vga640x60
  | vga640x72
  | vga640x75
  | vga640x85
  | dtv480p
  | ntsc
  | pal
  | dtv576p
  | dtv720p
  | dtv1080i
deriving DecidableEq

def modeList : List GsMode :=
  [.autoDetect, .vga640x60, .vga640x72, .vga640x75, .vga640x85, .dtv480p,
    .ntsc, .pal, .dtv576p, .dtv720p, .dtv1080i]

/-- What the console contributes: `ps2_rom_version[4]`, and the words next to
`modeList` that a mode outside of the list reads. -/
structure Console where
  romRegion : Char
  besideModeList : Int → GsMode

def getCurrentMode (console : Console) (config : Config) : GsMode :=
  let mode := config.ints .currentMode
  if mode < 0 then
    console.besideModeList mode
  else
    modeList.getD mode.toNat (console.besideModeList mode)

def commandlinePal : Text :=
  "crtmode=pal1 xmode=PAL video=ps2fb:pal,640x480-32".toList

def commandlineNtsc : Text :=
  "crtmode=ntsc1 xmode=NTSC video=ps2fb:ntsc,640x448-32".toList

def commandlineVga60 : Text :=
  "crtmode=vesa0,60 xmode=VESA,1024x768x24 video=ps2fb:vesa,1024x768-16@60".toList

def commandlineVga72 : Text :=
  "crtmode=vesa0 xmode=VESA,1024x768x24 video=ps2fb:vesa,1024x768-16@72".toList

def commandlineVga75 : Text :=
  "crtmode=vesa0,75 xmode=VESA,1024x768x24 video=ps2fb:vesa,1024x768-16@75".toList

def commandlineVga85 : Text :=
  "crtmode=vesa0,75 xmode=VESA,1024x768x24 video=ps2fb:vesa,1024x768-16@85".toList

def commandlineDtv : Text :=
  "crtmode=dtv2 xmode=dtv,720p video=ps2fb:dtv,720x480-32".toList

def setDefaultVideoParameter (console : Console) (config : Config) : Config :=
  config.setText .videoParameter <|
    match getCurrentMode console config with
    | .vga640x60 => commandlineVga60
    | .vga640x72 => commandlineVga72
    | .vga640x75 => commandlineVga75
    | .vga640x85 => commandlineVga85
    | .dtv480p => commandlineDtv
    | .ntsc => commandlineNtsc
    | .pal => commandlinePal
    | _ =>
        if console.romRegion ≠ 'E' then commandlineNtsc else commandlinePal

def configureVideoParameter (console : Console) (config : Config) : Config :=
  setDefaultVideoParameter console config

/-! ### Configuration items -/

inductive ItemClass where
  | check (value : IntVar)
  | text (value : TextVar) (maxlen : Nat)
  | video (value : IntVar)

structure ConfigurationItem where
  name : Text
  type : ItemClass

inductive ItemValue where
  | int (value : Int)
  | text (value : Text)

def ConfigurationItem.value (item : ConfigurationItem) (config : Config) :
    ItemValue :=
  match item.type with
  | .check var => .int (config.ints var)
  | .text var _ => .text (config.texts var)
  | .video var => .int (config.ints var)

/-- `snprintf` into an array of `MAXIMUM_CONFIG_LENGTH`, then `fwrite` of the
full length: `none` when that reads behind the array. -/
def writeInt (name : Text) (value : Int) : Option Text :=
  let line := name ++ '=' :: (formatInt value ++ ['\n'])
  if line.length < maximumConfigLength then some line else none

def writeData (item : ConfigurationItem) (config : Config) : Option Text :=
  match item.type with
  | .check var => writeInt item.name (config.ints var)
  | .text var _ => some (item.name ++ '=' :: (config.texts var ++ ['\n']))
  | .video var => writeInt item.name (config.ints var)

def readData (console : Console) (item : ConfigurationItem) (buffer : Text)
    (config : Config) : Config :=
  match item.type with
  | .check var => config.setInt var (atoi buffer)
  | .text var maxlen => config.setText var (buffer.take (maxlen - 1))
  | .video var =>
      configureVideoParameter console (config.setInt var (atoi buffer))

/-! ### Loading and saving -/

def applyConfigLine (console : Console) (items : List ConfigurationItem)
    (buffer : Text) (config : Config) : Config :=
  match keyValue (stripLineEnd (cstring buffer)) with
  | none => config
  | some (key, value) =>
      items.foldl (fun config item =>
        if key = item.name then readData console item value config else config)
        config

def loadConfiguration (console : Console) (items : List ConfigurationItem)
    (file : Text) (config : Config) : Config :=
  (fileLines maximumConfigLength file.length file).foldl
    (fun config line => applyConfigLine console items line config) config

def loadConfigurationFromRom (console : Console)
    (items : List ConfigurationItem) (romfile : Text) (config : Config) :
    Config :=
  (memoryLines (maximumConfigLength - 1) romfile.length romfile).foldl
    (fun config line => applyConfigLine console items line config) config

def saveConfiguration (items : List ConfigurationItem) (config : Config) :
    Option Text :=
  items.foldrM (fun item behind => do
    let line ← writeData item config
    return line ++ behind) []

/-! ### Registration -/

def textItem (name : String) (var : TextVar) : ConfigurationItem :=
  { name := name.toList, type := .text var maxInputLen }

def checkItem (name : String) (var : IntVar) : ConfigurationItem :=
  { name := name.toList, type := .check var }

def videoModeItem : ConfigurationItem :=
  { name := "videomode".toList, type := .video .currentMode }

def registerLoaderConfigItems : List ConfigurationItem :=
  [textItem "KernelParameter" .kernelParameter,
    textItem "VideoParameter" .videoParameter,
    textItem "ps2linkMyIP" .myIp,
    textItem "ps2linkNetmask" .netmask,
    textItem "ps2linkGatewayIP" .gatewayIp,
    textItem "ps2DNSIP" .dnsIp,
    textItem "IOPResetParameter" .iopResetParam,
    textItem "KernelFileName" .kernelFilename,
    checkItem "AutoBootTime" .autoBootTime,
    checkItem "EnableExtraMem" .enableExtraMem,
    checkItem "EnableDev9" .enableDev9,
    textItem "InitrdFileName" .initrdFilename]

structure ModuleEntry where
  path : Text
  slim : Int
  defaultmod : Int
  sound : Int
  debugMode : Int

/-- The check items of `initMenu`, in the order of their calls. -/
def initMenu (modules : List ModuleEntry) (sbiosDescription : List Text) :
    List ConfigurationItem :=
  modules.zipIdx.map (fun (entry, index) =>
      { name := entry.path, type := .check (.moduleLoad index) }) ++
    [checkItem "Use SBIOS from TGE (ow RTE)" .enableSbiosTge,
      checkItem "TGE SBIOS for New Modules" .newModulesInTge,
      checkItem "Enable hard disc and network" .enableDev9,
      checkItem "Patch libsd (enable USB)" .patchLibsd,
      checkItem "Enable IOP debug output" .enableEeDebug] ++
    sbiosDescription.zipIdx.map (fun (name, index) =>
      { name := name, type := .check (.sbiosCallEnabled index) }) ++
    [checkItem "Auto Boot" .autoBootTime]

def registeredItems (modules : List ModuleEntry)
    (sbiosDescription : List Text) : List ConfigurationItem :=
  videoModeItem ::
    (registerLoaderConfigItems ++ initMenu modules sbiosDescription)

/-- A name that can stand in front of `=` on a line, with room for a number. -/
structure PlainName (name : Text) : Prop where
  noEquals : '=' ∉ name
  noLineEnd : ∀ char ∈ name, isLineEnd char = false
  nulFree : '\x00' ∉ name
  short : name.length + 1 + maxInputLen < maximumConfigLength

def isPlainChar (char : Char) : Bool :=
  char != '=' && !isLineEnd char && char != '\x00'

theorem plainName_of_all {name : Text} (plain : name.all isPlainChar = true)
    (short : name.length + 1 + maxInputLen < maximumConfigLength) :
    PlainName name := by
  have each : ∀ char ∈ name,
      (char ≠ '=' ∧ isLineEnd char = false) ∧ char ≠ '\x00' := by
    intro char member
    have checked := List.all_eq_true.mp plain char member
    rw [isPlainChar, Bool.and_eq_true, Bool.and_eq_true, bne_iff_ne,
      Bool.not_eq_true', bne_iff_ne] at checked
    exact checked
  exact
    { noEquals := fun member => (each _ member).1.1 rfl
      noLineEnd := fun char member => (each char member).1.2
      nulFree := fun member => (each _ member).2 rfl
      short := short }

/-- The tables of the build, with names that do not collide. -/
structure MenuTables where
  modules : List ModuleEntry
  sbiosDescription : List Text
  plainPaths : ∀ entry ∈ modules, PlainName entry.path
  plainDescriptions : ∀ name ∈ sbiosDescription, PlainName name
  distinct : ((registeredItems modules sbiosDescription).map
    ConfigurationItem.name).Nodup

def MenuTables.items (tables : MenuTables) : List ConfigurationItem :=
  registeredItems tables.modules tables.sbiosDescription

end Settings

end KernelReloaded

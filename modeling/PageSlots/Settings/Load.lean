import PageSlots.Files.FileTree
import PageSlots.Log
import PageSlots.Settings.Expansion
import PageSlots.Settings.Written
import PageSlots.Text.Blank

/-!
# Loading the settings

The settings of a run come from three places. The file in use is the one
that is named explicitly, or else the nearest `docslot.toml` in the
current directory or above it; without a file everything has a default.
What the command line says wins over the file.

The directory for pages may refer to the environment, and is taken
relative to the directory of the file. References are replaced before the
settings are checked.
-/

namespace PageSlots

open PageSlots.Files PageSlots.Text

/-- **The settings of a run.** -/
structure Settings where
  /-- Whether the extensions of markdown are on. -/
  gfm : Bool
  /-- The class of the anchors in headings. -/
  anchorClass : String
  /-- The directory for pages. -/
  outputDir : String
  /-- The file in use, if there is one. -/
  file : Option String
  deriving DecidableEq, Repr

namespace Settings

/-- The name of the settings file. -/
def fileName : String := "docslot.toml"

/-- The directory for pages if none is given. -/
def defaultOutputDir : String := "_site"

/-- What the command line says. -/
structure Overrides where
  /-- The directory for pages, taken as it is. -/
  outputDir : Option String := none
  /-- Whether the extensions of markdown are on. -/
  gfm : Option Bool := none
  deriving DecidableEq, Repr

/-- A value that a setting must not have. -/
inductive InvalidSetting where
  /-- A setting that must not be empty. -/
  | empty (key : String)
  /-- A setting that must be one class name. -/
  | noClassName (key value : String)
  deriving DecidableEq, Repr

/-- What is said of an invalid setting. -/
def InvalidSetting.message : InvalidSetting → String
  | .empty key => key ++ " cannot be empty"
  | .noClassName key value => key ++ " must be a single class name, got " ++ quoted value

/-- **Why settings cannot be loaded.** -/
inductive SettingsFault where
  /-- The file that was named is not there. -/
  | notFound (path : String)
  /-- The file in use cannot be read. -/
  | unreadable (fault : FileFault)
  /-- The file in use is malformed. -/
  | malformed
  /-- A setting has a value that it must not have. -/
  | invalid (setting : InvalidSetting)
  /-- A setting refers to a variable that is not set. -/
  | unset (key : String) (cause : UnsetVariable)
  deriving DecidableEq, Repr

/-- What a fault says. What exactly is malformed in a file is left
open. -/
def SettingsFault.message : SettingsFault → String
  | .notFound path => path ++ " does not exist"
  | .unreadable fault => "cannot read configuration: " ++ fault.message
  | .malformed => "invalid docslot.toml: "
  | .invalid setting => "invalid setting: " ++ setting.message
  | .unset key v => "cannot expand " ++ key ++ ": $\x7b" ++ v.name ++ "\x7d not set"

/-- The key of the anchors' class. -/
def anchorClassKey : String := "headings.anchor_class"

/-- The key of the directory for pages. -/
def outputDirKey : String := "output.dir"

/-- Whether a character may stand in a class name that is written into an
attribute as it is. -/
def isClassChar (c : Char) : Bool :=
  !isBlank c && c != '"' && c != '\'' && c != '<' && c != '>' && c != '&'

/-- The first setting with a value that it must not have. -/
def Written.invalid? (w : Written) : Option InvalidSetting :=
  if w.anchorClass.isEmpty then some (.empty anchorClassKey)
  else if !w.anchorClass.toList.all isClassChar then
    some (.noClassName anchorClassKey w.anchorClass)
  else if w.outputDir = some "" then some (.empty outputDirKey)
  else none

/-- What a file says, with the references in it replaced. -/
def Written.expanded (w : Written) (env : Environment) : Except SettingsFault Written :=
  match w.outputDir with
  | none => .ok w
  | some dir =>
    match expand env dir with
    | .ok dir => .ok { w with outputDir := some dir }
    | .error v => .error (.unset outputDirKey v)

/-- **The settings that a file gives.** -/
def ofFile (w : Workspace) (env : Environment) (path : String) :
    Except SettingsFault Settings := do
  let text ←
    match w.readText path with
    | .ok text => pure text
    | .error fault => throw (.unreadable fault)
  let some written := Written.read text | throw .malformed
  let written ← written.expanded env
  if let some setting := written.invalid? then
    throw (.invalid setting)
  let base := (parent? path).getD "."
  return {
    gfm := written.gfm
    anchorClass := written.anchorClass
    outputDir := join base (written.outputDir.getD defaultOutputDir)
    file := some path }

/-- The settings without a file. -/
def defaults (w : Workspace) : Settings where
  gfm := true
  anchorClass := "anchor"
  outputDir := join w.cwdPath defaultOutputDir
  file := none

/-- **The nearest settings file** in the current directory or above it. -/
def nearestFile? (w : Workspace) : Option String :=
  ((ancestors w.cwdPath).map (join · fileName)).find? w.isFile

/-- Settings with what the command line says in place of what they say. -/
def override (s : Settings) (o : Overrides) : Settings :=
  { s with outputDir := o.outputDir.getD s.outputDir, gfm := o.gfm.getD s.gfm }

/-- The settings of the file in use, or those without a file. -/
def ofPlace (w : Workspace) (env : Environment) (path : Option String) :
    Except SettingsFault Settings :=
  match path with
  | some path =>
    if w.isThere path then ofFile w env path else .error (.notFound path)
  | none =>
    match nearestFile? w with
    | some path => ofFile w env path
    | none => .ok (defaults w)

/-- What there is to tell about settings that have been read. -/
def log (s : Settings) : Log :=
  match s.file with
  | none => []
  | some path => [⟨.debug, .settings, "read configuration", [("path", .shown path)]⟩]

/-- **Load the settings of a run**, from the file in use and what the
command line says. -/
def load (w : Workspace) (env : Environment) (path : Option String) (o : Overrides) :
    Except SettingsFault Settings :=
  (ofPlace w env path).map (·.override o)

end Settings

end PageSlots

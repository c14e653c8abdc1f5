import PageSlots.Settings.Toml.Document

/-!
# What a settings file says

A settings file has three sections with one setting each: whether the
extensions of markdown are on, the class of the anchors in headings, and
the directory into which pages are written. Every section and every
setting may be left out; a name that is none of these is a fault, and so
is a value of another kind. A section may also be written as an array of
its settings.
-/

namespace PageSlots.Settings

open PageSlots.Settings.Toml

/-- **The settings as a file gives them.** -/
structure Written where
  /-- Whether the extensions of markdown are on. -/
  gfm : Bool := true
  /-- The class of the anchors in headings. -/
  anchorClass : String := "anchor"
  /-- The directory for pages, with references to the environment. -/
  outputDir : Option String := none
  deriving DecidableEq, Repr

/-- The value of the one setting of a section, if the section gives it. -/
def settingOf (name : String) : Value → Option (Option Value)
  | .table entries => if entries.all (·.1 = name) then some (entries.lookup name) else none
  | .array items => some items.head?
  | _ => none

/-- The setting of a section that may be left out as a whole. -/
def settingIn (entries : List (String × Value)) (part name : String) : Option (Option Value) :=
  match entries.lookup part with
  | none => some none
  | some v => settingOf name v

/-- The names of the sections. -/
def sectionNames : List String := ["markdown", "headings", "output"]

/-- **Read what a settings file says**, unless it is malformed. -/
def Written.read (text : String) : Option Written := do
  let entries ← readDocument text
  guard (entries.all fun entry => sectionNames.contains entry.1)
  let gfm ←
    match ← settingIn entries "markdown" "gfm" with
    | none => some true
    | some (.boolean b) => some b
    | some _ => none
  let anchorClass ←
    match ← settingIn entries "headings" "anchor_class" with
    | none => some "anchor"
    | some (.string s) => some s
    | some _ => none
  let outputDir ←
    match ← settingIn entries "output" "dir" with
    | none => some none
    | some (.string s) => some (some s)
    | some _ => none
  return { gfm, anchorClass, outputDir }

end PageSlots.Settings

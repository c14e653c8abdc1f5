import PageSlots.Command.Arguments
import PageSlots.Command.Outcome
import PageSlots.Page.Processor
import PageSlots.Page.Rendered
import PageSlots.Settings.Load

/-!
# Rendering pages

A page alone, with no directory named on the command line, goes to the
output. Otherwise every page gets a file in the directory for pages, named
after the file it comes from. That two pages would get the same file is
found out before anything is written.

Pages are rendered in order, and the first fault ends the run. What was
written before it stays.
-/

namespace PageSlots.Command

open PageSlots.Files PageSlots.Page PageSlots.Settings

/-- **Why pages cannot be rendered.** -/
inductive RenderFault where
  | settings (fault : SettingsFault)
  | unreadable (path : String) (fault : FileFault)
  | unwritable (path : String) (fault : FileFault)
  /-- Two pages would get the same file. -/
  | collision (destination first second : String)
  /-- A page cannot be processed. -/
  | page (path : String) (fault : PageFault)

/-- What a fault says. -/
def RenderFault.message : RenderFault → String
  | .settings fault => fault.message
  | .unreadable path fault => "cannot read " ++ path ++ ": " ++ fault.message
  | .unwritable path fault => "cannot write " ++ path ++ ": " ++ fault.message
  | .collision destination first second =>
    first ++ " and " ++ second ++ " would both be written to " ++ destination
  | .page path fault => path ++ ": " ++ fault.message

/-! ## Destinations -/

/-- **The file that a page gets** in a directory: named like the file it
comes from, with the extension for pages. -/
def destination (dir file : String) : String :=
  withExtension (join dir ((fileStem? file).getD file)) "html"

/-- The files that pages get, with the pages they come from, behind those
that other pages have got already. -/
def assign (dir : String) (taken : List (String × String)) :
    List String → Except RenderFault (List (String × String))
  | [] => .ok taken
  | file :: files =>
    let target := destination dir file
    match taken.find? fun (_, other) => samePath other target with
    | some (first, _) => .error (.collision target first file)
    | none => assign dir (taken ++ [(file, target)]) files

/-- **The file that each page gets.** -/
def destinations (dir : String) (files : List String) :
    Except RenderFault (List (String × String)) :=
  assign dir [] files

/-! ## A run -/

/-- **The state of a run.** -/
structure RenderState where
  /-- The files. -/
  workspace : Workspace
  /-- What has been written to the output. -/
  output : String := ""
  /-- What has been told, in order. -/
  messages : List Message := []

/-- A step of a run. -/
abbrev RenderM := EStateM RenderFault RenderState

/-- The state with one more message. -/
def RenderState.add (s : RenderState) (message : Message) : RenderState :=
  { s with messages := s.messages ++ [message] }

/-- What a state leaves behind, with the messages that a filter admits. -/
def RenderState.outcome (s : RenderState) (filter : LogFilter) (status : ExitStatus) :
    Outcome where
  status := status
  output := s.output
  messages := s.messages.filter (·.isAdmitted filter)
  workspace := s.workspace

/-- Tell something. -/
def say (message : Message) : RenderM Unit :=
  modify (·.add message)

/-- Tell entries of the log. -/
def tellLog (log : Log) : RenderM Unit :=
  log.forM fun e => say (.entry e)

/-- Read a page. -/
def readPage (file : String) : RenderM String := do
  match (← get).workspace.readText file with
  | .ok content => return content
  | .error fault => throw (.unreadable file fault)

/-- Read and process a page. -/
def processPage (p : Processor) (file : String) : RenderM String := do
  let content ← readPage file
  let result := p.process file content
  tellLog result.log
  match result.page with
  | .ok page => return page
  | .error fault => throw (.page file fault)

/-- Render a page to the output. -/
def printPage (p : Processor) (file : String) : RenderM Unit := do
  let page ← processPage p file
  modify fun s => { s with output := s.output ++ page ++ "\n" }

/-- Render a page to its file. -/
def writePage (p : Processor) (file target : String) : RenderM Unit := do
  let page ← processPage p file
  match (← get).workspace.writeText target (page ++ "\n") with
  | .ok workspace => modify fun s => { s with workspace }
  | .error fault => throw (.unwritable target fault)
  say (.line ("rendered " ++ file ++ " -> " ++ target))

/-- Create the directory for pages. -/
def makeOutputDir (dir : String) : RenderM Unit := do
  let (fault, workspace) := (← get).workspace.makeDirectories dir
  modify fun s => { s with workspace }
  match fault with
  | none => return
  | some fault => throw (.unwritable dir fault)

/-- Load the settings of a run. -/
def loadSettings (env : Environment) (r : RenderRequest) : RenderM Settings := do
  let overrides : Overrides :=
    { outputDir := r.outDir, gfm := if r.noGfm then some false else none }
  match load (← get).workspace env r.config overrides with
  | .error fault => throw (.settings fault)
  | .ok settings =>
    tellLog settings.log
    if let some file := settings.file then
      say (.entry ⟨.info, .command, "loaded configuration", [("config", .shown file)]⟩)
    return settings

/-- The processor that settings ask for. -/
def processorOf (s : Settings) : Processor where
  renderer := .markdown s.gfm
  anchorClass := s.anchorClass

/-- Write pages to their files in a directory. -/
def writePages (p : Processor) (dir : String) (files : List String) : RenderM Unit := do
  let targets ←
    match destinations dir files with
    | .ok targets => pure targets
    | .error fault => throw fault
  makeOutputDir dir
  targets.forM fun (file, target) => writePage p file target
  let noun := if files.length = 1 then "page" else "pages"
  say (.line (toString files.length ++ " " ++ noun ++ " written to " ++ dir))

/-- **Render the pages that are asked for.** -/
def renderPages (env : Environment) (r : RenderRequest) : RenderM Unit := do
  let settings ← loadSettings env r
  let p := processorOf settings
  match r.outDir, r.files with
  | none, [file] => printPage p file
  | _, files => writePages p settings.outputDir files

/-! ## The program -/

/-- The name and the version of the program. -/
def versionText : String := "docslot 0.1.0\n"

/-- What is told if nothing that can be done is asked for. -/
def usage : String :=
  "usage: docslot [-v] render [-v] [-c FILE] [-o DIR] [--no-gfm] FILES..."

/-- The filter of a run: progress if it is asked for, or else what the
environment says, or else warnings. -/
def filterOf (env : Environment) (verbose : Bool) : LogFilter :=
  if verbose then .upTo .info
  else ((env.get? "RUST_LOG").bind LogFilter.read?).getD (.upTo .warn)

/-- **Run the program** with arguments. -/
def run (w : Workspace) (env : Environment) (args : List String) : Outcome :=
  match requestOf? args with
  | none => { status := .misuse, messages := [.line usage], workspace := w }
  | some .version => { status := .success, output := versionText, workspace := w }
  | some (.render r) =>
    let filter := filterOf env r.verbose
    match renderPages env r { workspace := w } with
    | .ok _ s => s.outcome filter .success
    | .error fault s => (s.add (.line ("error: " ++ fault.message))).outcome filter .failure

end PageSlots.Command

import PageSlots.Log
import PageSlots.Markup.Fragment
import PageSlots.Page.Context
import PageSlots.Page.Renderer

/-!
# A run over a page

Resolving a page changes its tree and its context, calls the renderer and
tells what it does. All that is the state of a run, a `Run`. A step of
resolving is a function on runs that may fail (`PageM`); a step that fails
leaves the run as it was at that moment, with everything done before it.
-/

namespace PageSlots.Page

open PageSlots.Markup

/-- **Why a page cannot be resolved.** -/
inductive PageFault where
  /-- The page, or what was rendered for it, is not readable markup. -/
  | markup (fault : MarkupFault)
  /-- The renderer failed. -/
  | render (error : RenderError)
  /-- The page is nested deeper than the processor follows. -/
  | tooDeep
  deriving DecidableEq, Repr

/-- What a render error says. -/
def RenderError.message (e : RenderError) : String :=
  "markdown render failed: " ++ e.reason

/-- What a fault says. -/
def PageFault.message : PageFault → String
  | .markup _ => "malformed markup"
  | .render e => e.message
  | .tooDeep => "page is nested too deeply"

/-- What lies behind a fault, outermost first. -/
def PageFault.causes : PageFault → List String
  | .markup fault => fault.message :: fault.causes
  | .render e => e.cause.toList
  | .tooDeep => []

/-- **The state of a run.** -/
structure Run where
  /-- The tree of the page. -/
  tree : Tree
  /-- What is known of the page so far. -/
  context : Context
  /-- The calls of the renderer so far, in order. -/
  calls : List RenderCall := []
  /-- What has been told so far, in order. -/
  log : Log := []

/-- A step of a run. -/
abbrev PageM := EStateM PageFault Run

/-- The tree of the page. -/
def getTree : PageM Tree := return (← get).tree

/-- Change the tree of the page. -/
def modifyTree (f : Tree → Tree) : PageM Unit :=
  modify fun run => { run with tree := f run.tree }

/-- Change the context. -/
def modifyContext (f : Context → Context) : PageM Unit :=
  modify fun run => { run with context := f run.context }

/-- Change the tree by an edit that has something to tell. -/
def editTree (f : Tree → Log × Tree) : PageM Unit :=
  modify fun run =>
    let (log, tree) := f run.tree
    { run with tree, log := run.log ++ log }

/-- Tell something. -/
def tell (entry : LogEntry) : PageM Unit :=
  modify fun run => { run with log := run.log ++ [entry] }

/-- **Render a source.** The call is recorded also if it fails. -/
def render (renderer : Renderer) (mode : RenderMode) (source : String) : PageM String :=
  fun run =>
    let call : RenderCall := ⟨mode, source⟩
    let next := { run with calls := run.calls ++ [call] }
    match renderer.answer run.calls.length call with
    | .ok markup => .ok markup next
    | .error e => .error (.render e) next

/-- **Read markup and append its nodes to a parent.** -/
def readInto (parent : NodeId) (markup : String) : PageM Unit :=
  fun run =>
    let result := run.tree.readInto parent markup
    let next := { run with tree := result.tree, log := run.log ++ result.log }
    match result.nodes with
    | .ok _ => .ok () next
    | .error fault => .error (.markup fault) next

end PageSlots.Page

import PageSlots.Files.Path
import PageSlots.Markup.Writing
import PageSlots.Page.Heading
import PageSlots.Page.Promotion

/-!
# Resolving a page

A page is resolved in two passes over its tree.

The first one goes from the top down. At each element it renders a
markdown region, gives a heading its id and applies the rule of a
component. Then it normalizes the slot markers of the children, so that
every marker stands on a `template`, and goes on to the children, those
that have just been made included. The second pass goes from the bottom
up and needs what the first one has finished: a component without an id
takes the id of the first heading in one of its slots.

What is rendered may itself hold regions and components, so the first
pass can find the page deeper at every level. A processor follows a page
down to a fixed depth, and fails at a page that is deeper.
-/

namespace PageSlots.Page

open PageSlots.Component PageSlots.Markup PageSlots.Text

/-- **How pages are resolved.** -/
structure Processor where
  /-- How markdown is rendered. -/
  renderer : Renderer
  /-- The rules of the components. -/
  rules : RuleTable := builtIn
  /-- The class of the anchors in headings. -/
  anchorClass : String := "anchor"
  /-- How deep a page is followed. -/
  maxDepth : Nat := 1000000

/-- The mode in which the content of a region is rendered, and the tag that
the region gets. -/
def regionOf (tag : String) : Option (RenderMode × String) :=
  match tag with
  | "md" => some (.inline, "span")
  | "markdown" => some (.block, "div")
  | _ => none

/-- Whether a file holds markdown, by its extension in either case. -/
def isMarkdownFile (file : String) : Bool :=
  match Files.extension? file with
  | none => false
  | some extension => ["md".toList, "markdown".toList].contains (asciiLower extension.toList)

namespace Processor

/-- Render a markdown region in place. -/
def renderRegion (p : Processor) (id : NodeId) : PageM Unit := do
  let t ← getTree
  match regionOf (t.tag id) with
  | none => return
  | some (mode, tag) =>
    let markup ← render p.renderer mode (t.innerHtml id)
    modifyTree fun t => (t.setTag id tag).replaceChildren id []
    readInto id markup

/-- **What the first pass does to an element** before it goes on to the
children. -/
def visitElement (p : Processor) (id : NodeId) : PageM Unit := do
  p.renderRegion id
  if (← getTree).isHeading id then
    anchorHeading p.anchorClass id
  match p.rules.find ((← getTree).tag id) with
  | none => return
  | some rule => applyRule p.renderer id rule

/-- Give the marker of a child its place on a `template`. -/
def normalizeChild (t : Tree) (child : NodeId) : Tree :=
  ((t.migrateMarker child).2.wrapMarked child).2

/-- **Give the marker of every child its place on a `template`.** -/
def normalizeChildren (t : Tree) (id : NodeId) : Tree :=
  (t.children id).foldl normalizeChild t

/-- **The first pass** over a node and what is below it, down to a
depth. -/
def resolveTo (p : Processor) : Nat → NodeId → PageM Unit
  | 0, _ => throw .tooDeep
  | depth + 1, id => do
    if (← getTree).isElement id then
      p.visitElement id
    modifyTree (normalizeChildren · id)
    let t ← getTree
    if t.isElement id then
      modifyContext (·.pushAncestor (t.tag id))
      (t.children id).forM (p.resolveTo depth)
      modifyContext (·.popAncestor.2)
    else
      (t.children id).forM (p.resolveTo depth)

/-- The first pass over a node and what is below it. -/
def resolve (p : Processor) (id : NodeId) : PageM Unit :=
  p.resolveTo p.maxDepth id

/-! ## The second pass -/

/-- The id of the first heading that has one in a slot of a component. -/
def slotHeadingId (t : Tree) (id : NodeId) (slot : String) : Option String :=
  match t.findSlot id slot with
  | none => none
  | some template =>
    ((t.descendants template).filter t.isHeading).findSome? (t.attr? · "id")

/-- Give a component the id of a heading in its slot. -/
def deriveId (p : Processor) (step : Log × Tree) (id : NodeId) : Log × Tree :=
  let (log, t) := step
  if !t.isElement id || t.hasAttr id "id" then (log, t)
  else
    match (p.rules.find (t.tag id)).bind (·.idFromSlot) with
    | none => (log, t)
    | some slot =>
      match slotHeadingId t id slot with
      | none => (log, t)
      | some value =>
        (log ++ [⟨.debug, .pages, "assigning id from slot heading",
          [("tag", .shown (t.tag id)), ("id", .shown value)]⟩], t.setAttr id "id" value)

/-- The second pass over a node and what is below it, down to a depth. -/
def deriveIdsTo (p : Processor) : Nat → Log × Tree → NodeId → Log × Tree
  | 0, step, _ => step
  | depth + 1, step, id =>
    p.deriveId ((step.2.children id).foldl (p.deriveIdsTo depth) step) id

/-- **The second pass** over a node and what is below it. A tree is no
deeper than it has nodes. -/
def deriveIds (p : Processor) (t : Tree) (id : NodeId) : Log × Tree :=
  p.deriveIdsTo t.size ([], t) id

/-! ## Pages -/

/-- What processing a page gives. -/
structure PageResult where
  /-- The written page, or why there is none. -/
  page : Except PageFault String
  /-- The calls of the renderer, those of earlier pages included. -/
  calls : List RenderCall
  /-- What there is to tell. -/
  log : Log

/-- The markup of a page: rendered from markdown, or as it is. -/
def markupOf (p : Processor) (file content : String) : PageM String :=
  if isMarkdownFile file then render p.renderer .block content else return content

/-- Both passes over the page that hangs from the document with number
zero. -/
def resolvePage (p : Processor) (file content : String) : PageM String := do
  let markup ← p.markupOf file content
  let root ← modifyGet fun run =>
    let (root, tree) := run.tree.createDocument
    (root, { run with tree })
  readInto root markup
  p.resolve root
  editTree (p.deriveIds · root)
  tell ⟨.debug, .pages, "processed page", [("file", .shown file)]⟩
  return String.ofList (trim ((← getTree).innerHtml root).toList)

/-- **Process a page**: read it, resolve it and write it, without the
blanks at its ends. `calls` are the calls of the renderer for earlier
pages. -/
def processAfter (p : Processor) (calls : List RenderCall) (file content : String) :
    PageResult :=
  match p.resolvePage file content { tree := .empty, context := { file }, calls } with
  | .ok page run => ⟨.ok page, run.calls, run.log⟩
  | .error fault run => ⟨.error fault, run.calls, run.log⟩

/-- **Process a page** that is the first one. -/
def process (p : Processor) (file content : String) : PageResult :=
  p.processAfter [] file content

end Processor

end PageSlots.Page

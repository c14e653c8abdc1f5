import PageSlots.Markup.Entity
import PageSlots.Markup.Tree.Walk
import PageSlots.Page.Run

/-!
# Headings

Every heading gets an id by which it can be linked to: the one its author
wrote, or one made from its text. A link lands on an anchor, an empty
`span` with the same id that becomes the first child of the heading. A
heading without a usable text stays as it is, and so does one that has
its anchor already.
-/

namespace PageSlots.Page

open PageSlots.Markup

/-- The id of a heading, taken from its author or made from its text. -/
def headingId (id : NodeId) : PageM (Option String) := do
  let run ← get
  match run.tree.attr? id "id" with
  | some written =>
    let (isNew, context) := run.context.registerHeadingId written
    set { run with context }
    unless isNew do
      tell ⟨.warn, .pages, "heading id is used more than once",
        [("file", .shown context.file), ("id", .shown written)]⟩
    return some written
  | none =>
    let text := decodeReferences (run.tree.textContent id)
    let (made, context) := run.context.uniqueHeadingId text
    match made with
    | none => set { run with context }
    | some made => set { run with context, tree := run.tree.setAttr id "id" made }
    return made

/-- Whether a node begins with an anchor of a class. -/
def hasAnchor (t : Tree) (id : NodeId) (anchorClass : String) : Bool :=
  match (t.children id).head? with
  | none => false
  | some first => t.isElement first && t.attr? first "class" = some anchorClass

/-- The tree with an anchor as the first child of a heading. -/
def insertAnchor (t : Tree) (id : NodeId) (anchorClass headingId : String) : Tree :=
  let (anchor, t) := t.createElement "span"
  let t := (t.setAttr anchor "id" headingId).setAttr anchor "class" anchorClass
  t.insertChild id anchor 0

/-- **Give a heading its id and its anchor.** -/
def anchorHeading (anchorClass : String) (id : NodeId) : PageM Unit := do
  match ← headingId id with
  | none => return
  | some made =>
    modifyTree fun t =>
      if hasAnchor t id anchorClass then t else insertAnchor t id anchorClass made

end PageSlots.Page

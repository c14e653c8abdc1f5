import PageSlots.Component.Slots
import PageSlots.Page.Run
import PageSlots.Text.Quoted

/-!
# Applying component rules

A rule is applied to a component before its children are visited. Old
slot names go first, then children for slots that are filled already;
what is left of explicit content wins over attributes. Each promotion
then takes its attribute off the component and, unless the slot is
filled, renders the value into a `template` of its own. The templates
stand before all other children, in the order of the rule.
-/

namespace PageSlots.Page

open PageSlots.Component PageSlots.Markup PageSlots.Slot PageSlots.Text

/-- What a promotion tells. -/
def promotionEntry (message tag : String) (promotion : Promotion) : LogEntry :=
  ⟨.debug, .pages, message,
    [("tag", .shown tag), ("attribute", .text promotion.attr), ("slot", .text promotion.slot)]⟩

/-- Take an attribute off a node. -/
def takeAttr (id : NodeId) (name : String) : PageM (Option String) :=
  modifyGet fun run =>
    let (value, tree) := run.tree.removeAttr id name
    (value, { run with tree })

/-- Create the template that fills a slot. -/
def createTemplate (slot : String) : PageM NodeId :=
  modifyGet fun run =>
    let (template, tree) := run.tree.createElement wrapperTag
    (template, { run with tree := tree.setAttr template (marker slot) "" })

/-- **Apply a promotion**, with the index at which its template belongs.
The answer tells whether there is a new template. -/
def promote (renderer : Renderer) (id : NodeId) (index : Nat) (promotion : Promotion) :
    PageM Bool := do
  let value ← takeAttr id promotion.attr
  let t ← getTree
  if (t.findSlot id promotion.slot).isSome then
    if value.isSome then
      tell (promotionEntry "slot content overrides attribute" (t.tag id) promotion)
    return false
  match value.or promotion.fallback with
  | none => return false
  | some source =>
    let markup ← render renderer promotion.content source
    let template ← createTemplate promotion.slot
    readInto template markup
    modifyTree (·.insertChild id template index)
    tell (promotionEntry "promoted attribute to slot" (t.tag id) promotion)
    return true

/-- Apply promotions one after the other, from an index on. -/
def promoteAll (renderer : Renderer) (id : NodeId) : Nat → List Promotion → PageM Unit
  | _, [] => return
  | index, promotion :: promotions => do
    let added ← promote renderer id index promotion
    promoteAll renderer id (if added then index + 1 else index) promotions

/-- Warn of a component that stands outside its containers. -/
def checkPlace (id : NodeId) (rule : Rule) : PageM Unit := do
  let run ← get
  unless rule.isPlaced run.context do
    tell ⟨.warn, .pages, "component is outside its expected container",
      [("file", .shown run.context.file), ("tag", .shown (run.tree.tag id)),
        ("expected", .shown (quotedList rule.containers))]⟩

/-- **Apply the rule of a component.** -/
def applyRule (renderer : Renderer) (id : NodeId) (rule : Rule) : PageM Unit := do
  checkPlace id rule
  editTree (·.renameSlots id rule.renames)
  editTree (·.dedupeSlots id)
  promoteAll renderer id 0 rule.promotions
  modifyTree (·.applyFixups id rule.fixups)

end PageSlots.Page

import PageSlots.Proofs.Component.Slots
import PageSlots.Proofs.Content.Draft

/-!
# Resolving a page as a value

The first pass changes a tree in place. Told of contents it is a function:
from what a node shows to what it shows afterwards. `Value.resolveTo` is
this function. It calls the renderer, tells and fails as the pass does, so
it runs over what is left of a run without its tree, the `Notes`.

Each function here is a step of the pass under the same name. That the
pass does what they say is the subject of
`PageSlots.Proofs.Page.Simulation`; what they guarantee is easier to say
of values, where nothing can refer to a node that is changed elsewhere.
-/

namespace PageSlots.Markup

open PageSlots.Slot

namespace Own

/-- Whether a node is an element. -/
def isElement (o : Own) : Bool :=
  o.kind = .element

/-- The level of a heading, from one to six. -/
def headingLevel (o : Own) : Option Nat :=
  if o.isElement then
    match o.tag with
    | "h1" => some 1
    | "h2" => some 2
    | "h3" => some 3
    | "h4" => some 4
    | "h5" => some 5
    | "h6" => some 6
    | _ => none
  else none

/-- Whether a node is a heading. -/
def isHeading (o : Own) : Bool :=
  o.headingLevel.isSome

theorem isElement_iff {o : Own} : o.isElement = true ↔ o.kind = .element :=
  decide_eq_true_iff

end Own

/-- The tags of headings. -/
def headingTags : List String := ["h1", "h2", "h3", "h4", "h5", "h6"]

theorem Own.tag_mem_of_isHeading {o : Own} (h : o.isHeading = true) : o.tag ∈ headingTags := by
  unfold isHeading headingLevel at h
  split at h
  · split at h <;> simp_all [headingTags]
  · cases h

end PageSlots.Markup

namespace PageSlots.Page

open PageSlots.Component PageSlots.Markup PageSlots.Slot

/-- **A run without its tree.** -/
structure Notes where
  /-- What is known of the page so far. -/
  context : Context
  /-- The calls of the renderer so far, in order. -/
  calls : List RenderCall := []
  /-- What has been told so far, in order. -/
  log : Log := []

/-- What is left of a run without its tree. -/
def Run.notes (run : Run) : Notes where
  context := run.context
  calls := run.calls
  log := run.log

/-- A step of a run on values. -/
abbrev ValueM := EStateM PageFault Notes

namespace Value

/-- Tell several things. -/
def tell (log : Log) : ValueM Unit :=
  modify fun notes => { notes with log := notes.log ++ log }

/-- Change the context. -/
def modifyContext (f : Context → Context) : ValueM Unit :=
  modify fun notes => { notes with context := f notes.context }

/-- Render a source. -/
def render (renderer : Renderer) (mode : RenderMode) (source : String) : ValueM String :=
  fun notes =>
    let call : RenderCall := ⟨mode, source⟩
    let next := { notes with calls := notes.calls ++ [call] }
    match renderer.answer notes.calls.length call with
    | .ok markup => .ok markup next
    | .error e => .error (.render e) next

/-- Read markup as contents. -/
def read (markup : String) : ValueM (List Content) :=
  fun notes =>
    let next := { notes with log := notes.log ++ (Content.parse markup).2 }
    match (Content.parse markup).1 with
    | .ok cs => .ok cs next
    | .error fault => .error (.markup fault) next

/-! ## Headings -/

/-- The id of a heading, and the heading with it. -/
def headingId (c : Content) : ValueM (Option String × Content) := do
  let notes ← get
  match c.own.attr? "id" with
  | some written =>
    let (isNew, context) := notes.context.registerHeadingId written
    set { notes with context }
    unless isNew do
      tell [⟨.warn, .pages, "heading id is used more than once",
        [("file", .shown context.file), ("id", .shown written)]⟩]
    return (some written, c)
  | none =>
    let (made, context) := notes.context.uniqueHeadingId (decodeReferences c.textContent)
    set { notes with context }
    match made with
    | none => return (none, c)
    | some made => return (some made, c.mapOwn (Own.setAttr "id" made))

/-- Whether contents begin with an anchor of a class. -/
def hasAnchor (anchorClass : String) (cs : List Content) : Bool :=
  match cs.head? with
  | none => false
  | some first => first.own.isElement && first.own.attr? "class" = some anchorClass

/-- An anchor. -/
def anchor (anchorClass headingId : String) : Own :=
  (({ kind := .element, tag := "span" } : Own).setAttr "id" headingId).setAttr "class" anchorClass

/-- Give a heading its id and its anchor. -/
def anchorHeading (anchorClass : String) (c : Content) : ValueM Content := do
  let (made, c) ← headingId c
  match made with
  | none => return c
  | some made =>
    if hasAnchor anchorClass c.children then return c
    else return .node c.own (.node (anchor anchorClass made) [] :: c.children)

/-! ## Rules -/

/-- Whether a child of a content fills a slot. -/
def filled (c : Content) (slot : String) : Bool :=
  (c.children.map Content.own).any (Own.fills slot)

/-- **The template that fills a slot** with contents. -/
def template (slot : String) (cs : List Content) : Content :=
  .node (Own.wrapper (marker slot)) cs

/-- Apply a promotion, with the index at which its template belongs. -/
def promote (renderer : Renderer) (index : Nat) (promotion : Promotion) (c : Content) :
    ValueM (Bool × Content) := do
  let value := c.own.attr? promotion.attr
  let c := c.mapOwn (Own.removeAttr promotion.attr)
  if filled c promotion.slot then
    if value.isSome then
      tell [promotionEntry "slot content overrides attribute" c.own.tag promotion]
    return (false, c)
  match value.or promotion.fallback with
  | none => return (false, c)
  | some source =>
    let markup ← render renderer promotion.content source
    let cs ← read markup
    tell [promotionEntry "promoted attribute to slot" c.own.tag promotion]
    return (true, .node c.own
      (c.children.insertIdx (min index c.children.length) (template promotion.slot cs)))

/-- Apply promotions one after the other, from an index on. -/
def promoteAll (renderer : Renderer) : Nat → List Promotion → Content → ValueM Content
  | _, [], c => return c
  | index, promotion :: promotions, c => do
    let (added, c) ← promote renderer index promotion c
    promoteAll renderer (if added then index + 1 else index) promotions c

/-- Warn of a component that stands outside its containers. -/
def checkPlace (rule : Rule) (tag : String) : ValueM Unit := do
  let notes ← get
  unless rule.isPlaced notes.context do
    tell [⟨.warn, .pages, "component is outside its expected container",
      [("file", .shown notes.context.file), ("tag", .shown tag),
        ("expected", .shown (Text.quotedList rule.containers))]⟩]

/-- Contents with their old slot names replaced. -/
def renameSlots (renames : List Rename) (cs : List Content) : List Content :=
  cs.map fun c => c.mapOwn (Own.renameSlot renames)

/-- The slot that a content fills. -/
def slotOf (c : Content) : Option String :=
  c.own.slotName

/-- What replacing old slot names and dropping repeated slots tells. -/
def slotsLog (tag : String) (renames : List Rename) (cs : List Content) : Log :=
  cs.filterMap (fun c => (c.own.renamed? renames).map (renameEntry tag))
    ++ (repeats slotOf [] (renameSlots renames cs)).map fun c => repeatEntry tag (slotOf c)

/-- **The explicit children of a component**: old slot names replaced, and
of the children for one slot the first. -/
def explicit (renames : List Rename) (cs : List Content) : List Content :=
  keepFirst slotOf [] (renameSlots renames cs)

/-- Apply the rule of a component. -/
def applyRule (renderer : Renderer) (rule : Rule) (c : Content) : ValueM Content := do
  checkPlace rule c.own.tag
  tell (slotsLog c.own.tag rule.renames c.children)
  let c ← promoteAll renderer 0 rule.promotions (.node c.own (explicit rule.renames c.children))
  return c.mapOwn (Own.applyFixups (filled c) rule.fixups)

/-! ## The first pass -/

/-- Render a markdown region in place. -/
def renderRegion (p : Processor) (c : Content) : ValueM Content :=
  match regionOf c.own.tag with
  | none => return c
  | some (mode, tag) => do
    let markup ← render p.renderer mode (String.ofList (c.children.flatMap Content.written))
    let cs ← read markup
    return .node { c.own with tag } cs

/-- Apply the rule of a component, if there is one. -/
def applyRules (p : Processor) (c : Content) : ValueM Content :=
  match p.rules.find c.own.tag with
  | none => return c
  | some rule => applyRule p.renderer rule c

/-- What the first pass does to an element before it goes on to the
children. -/
def visitElement (p : Processor) (c : Content) : ValueM Content := do
  let c ← renderRegion p c
  let c ← if c.own.isHeading then anchorHeading p.anchorClass c else pure c
  applyRules p c

/-- What the first pass does to a node before it looks at the markers of
the children. -/
def visit (p : Processor) (c : Content) : ValueM Content :=
  if c.own.isElement then visitElement p c else pure c

/-- Go on to the children of a content with a step. -/
def descend (f : Content → ValueM Content) (c : Content) : ValueM Content :=
  if c.own.isElement then do
    modifyContext (·.pushAncestor c.own.tag)
    let cs ← c.children.mapM f
    modifyContext (·.popAncestor.2)
    return .node c.own cs
  else do
    let cs ← c.children.mapM f
    return .node c.own cs

/-- **The first pass** over a content, down to a depth. -/
def resolveTo (p : Processor) : Nat → Content → ValueM Content
  | 0, _ => throw .tooDeep
  | depth + 1, c => do
    let c ← visit p c
    descend (resolveTo p depth) (.node c.own (c.children.map Content.normalize))

end Value

/-! ## The slots of contents -/

/-- The slots that contents fill. -/
def slotsOf (cs : List Content) : List String :=
  cs.filterMap Value.slotOf

theorem mem_slotsOf {cs : List Content} {slot : String} :
    slot ∈ slotsOf cs ↔ ∃ d ∈ cs, d.own.slotName = some slot :=
  List.mem_filterMap

/-- A template fills its slot. -/
theorem slotOf_template {slot : String} (h : slot ≠ "") (cs : List Content) :
    Value.slotOf (Value.template slot cs) = some slot :=
  (Own.slotName_wrapper (isMarker_marker h)).trans (congrArg some (slotOfMarker_marker slot))

theorem filled_iff {c : Content} {slot : String} :
    Value.filled c slot = true ↔ slot ∈ slotsOf c.children := by
  rw [mem_slotsOf, Value.filled, List.any_map, List.any_eq_true]
  exact exists_congr fun d => and_congr_right fun _ => decide_eq_true_iff

end PageSlots.Page

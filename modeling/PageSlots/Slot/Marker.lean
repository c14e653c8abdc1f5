import PageSlots.Log
import PageSlots.Markup.Tree.Edit
import PageSlots.Markup.Tree.Walk

/-!
# Slot markers

A component receives named content through slots. Authors mark the
element that fills a slot in one of two ways: with the shorthand, an
attribute `#name` without a value, or with the older attribute
`slot="name"`. The page template knows only the shorthand, and only on a
`template` element.

This module reads a slot's name from either marker and turns the older
one into the newer: `Tree.migrateMarker` replaces the marker in place,
and `Tree.wrapMarked` moves a shorthand marker onto a `template` of its
own. The shorthand wins wherever both stand on one element.
-/

namespace PageSlots.Slot

open PageSlots.Markup

/-- The tag of the element that hosts a shorthand marker. -/
def wrapperTag : String := "template"

/-- The name of the older marker. -/
def legacyName : String := "slot"

/-- **The shorthand marker for a slot.** -/
def marker (slot : String) : String :=
  "#" ++ slot

/-- Whether an attribute name is a shorthand marker: a `#` and at least
one character more. -/
def isMarker (name : String) : Bool :=
  match name.toList with
  | '#' :: _ :: _ => true
  | _ => false

/-- The slot that a shorthand marker names. -/
def slotOfMarker (name : String) : String :=
  String.ofList (name.toList.drop 1)

/-- The first shorthand marker among attributes. -/
def findMarker (attrs : List Attribute) : Option String :=
  (attrs.find? fun a => isMarker a.name).map (·.name)

/-- The marker for a slot names that slot. -/
@[simp] theorem slotOfMarker_marker (slot : String) : slotOfMarker (marker slot) = slot := by
  simp [slotOfMarker, marker]

end PageSlots.Slot

namespace PageSlots.Markup.Tree

open PageSlots.Slot

/-- The first shorthand marker on a node. -/
def marker? (t : Tree) (id : NodeId) : Option String :=
  findMarker (t.attrs id)

/-- **The slot that a node fills**, from either marker. An empty older
marker names no slot. -/
def slotName (t : Tree) (id : NodeId) : Option String :=
  if t.isElement id then
    match t.marker? id with
    | some name => some (slotOfMarker name)
    | none => (t.attr? id legacyName).filter (!·.isEmpty)
  else none

/-- **Let the marker of a node name another slot**, in the same notation.
A node without a marker stays as it is. -/
def setSlotName (t : Tree) (id : NodeId) (slot : String) : Tree :=
  match t.marker? id with
  | some name => (t.renameAttr id name (marker slot)).2
  | none => if t.hasAttr id legacyName then t.setAttr id legacyName slot else t

/-- **Replace the older marker of a node by the shorthand** at the same
position. One that is empty, or stands beside a shorthand marker, is
dropped. The answer tells whether the node changed. -/
def migrateMarker (t : Tree) (id : NodeId) : Bool × Tree :=
  if t.isElement id then
    match t.attr? id legacyName with
    | none => (false, t)
    | some slot =>
      if slot.isEmpty || (t.marker? id).isSome then (true, (t.removeAttr id legacyName).2)
      else (true, ((t.renameAttr id legacyName (marker slot)).2).setAttr id (marker slot) "")
  else (false, t)

/-- **Move the shorthand marker of a node onto a new `template`** that
takes the node's place. A `template` keeps its marker. The answer is the
wrapper, if one was needed. -/
def wrapMarked (t : Tree) (id : NodeId) : Option NodeId × Tree :=
  if t.isElement id && t.tag id != wrapperTag then
    match t.marker? id with
    | none => (none, t)
    | some name =>
      let (_, t) := t.removeAttr id name
      let (wrapper, t) := t.wrap id wrapperTag [⟨name, ""⟩]
      (some wrapper, t)
  else (none, t)

/-- **Replace every older marker** on a node and below it. -/
def migrateMarkersBelow (t : Tree) (id : NodeId) : Tree :=
  (t.descendants id).foldl (fun t id => (t.migrateMarker id).2) t

/-- Wrap one node, and tell of it. -/
def wrapMarkedTold (step : Log × Tree) (id : NodeId) : Log × Tree :=
  match step.2.wrapMarked id with
  | (none, t) => (step.1, t)
  | (some wrapper, t) =>
    (step.1 ++ [⟨.trace, .slots, "wrapped slot node",
      [("tag", .shown (t.tag id)), ("wrapper", .shown ("#" ++ toString wrapper))]⟩], t)

/-- **Wrap every marked element** that is a node or stands below it. -/
def wrapMarkedBelow (t : Tree) (id : NodeId) : Log × Tree :=
  (t.descendants id).foldl wrapMarkedTold ([], t)

end PageSlots.Markup.Tree

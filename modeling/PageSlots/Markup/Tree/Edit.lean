import PageSlots.Markup.Tree

/-!
# Editing the node tree

The edits of a node's own data – tag, text, attributes – leave the shape
of the tree alone. Attribute names on a node stay distinct: setting an
attribute that is there replaces its value in place, and renaming one
drops another that already has the new name.

The edits of the shape detach a node before they attach it elsewhere, so
a node is always in one place.
-/

namespace PageSlots.Markup

/-! ## Attribute lists -/

/-- Set an attribute in a list, in place if the name is there, else at the
end. -/
def setAttribute (name value : String) : List Attribute → List Attribute
  | [] => [⟨name, value⟩]
  | a :: attrs =>
    if a.name = name then ⟨a.name, value⟩ :: attrs
    else a :: setAttribute name value attrs

/-- Rename the first attribute with a name and drop the others that have
the new name already. `seen` tells that the first one has been renamed. -/
def renameAttribute (src dst : String) (seen : Bool) : List Attribute → List Attribute
  | [] => []
  | a :: attrs =>
    if !seen && a.name = src then ⟨dst, a.value⟩ :: renameAttribute src dst true attrs
    else if a.name = dst then renameAttribute src dst seen attrs
    else a :: renameAttribute src dst seen attrs

namespace Tree

/-! ## A node's own data -/

/-- Give an element another tag. -/
def setTag (t : Tree) (id : NodeId) (tag : String) : Tree :=
  t.modify id ({ · with tag })

/-- Replace the character data of a node. -/
def setText (t : Tree) (id : NodeId) (text : String) : Tree :=
  t.modify id ({ · with text })

/-- Append to the character data of a node. -/
def pushText (t : Tree) (id : NodeId) (text : String) : Tree :=
  t.modify id fun n => { n with text := n.text ++ text }

/-- **Set an attribute**, in place if it is there, else as the last one. -/
def setAttr (t : Tree) (id : NodeId) (name value : String) : Tree :=
  t.modify id fun n => { n with attrs := setAttribute name value n.attrs }

/-- **Remove an attribute** and return the value it had. -/
def removeAttr (t : Tree) (id : NodeId) (name : String) : Option String × Tree :=
  match t.attr? id name with
  | none => (none, t)
  | some value =>
    (some value, t.modify id fun n => { n with attrs := n.attrs.eraseP (·.name = name) })

/-- **Rename an attribute** without moving it. An attribute that has the
new name already is dropped. The answer tells whether there was an
attribute to rename. -/
def renameAttr (t : Tree) (id : NodeId) (src dst : String) : Bool × Tree :=
  if src = dst then (t.hasAttr id src, t)
  else if t.hasAttr id src then
    (true, t.modify id fun n => { n with attrs := renameAttribute src dst false n.attrs })
  else (false, t)

/-! ## The shape of the tree -/

/-- **Detach a node** from its parent. A detached node stays as it is. -/
def detach (t : Tree) (id : NodeId) : Tree :=
  match t.parent id with
  | none => t
  | some p =>
    (t.modify id ({ · with parent := none })).modify p fun n =>
      { n with children := n.children.filter (· ≠ id) }

/-- **Insert a node** among the children of another, detaching it first.
An index beyond the last child means the end. -/
def insertChild (t : Tree) (parent id : NodeId) (index : Nat) : Tree :=
  let t := t.detach id
  let t := t.modify parent fun n =>
    { n with children := n.children.insertIdx (min index n.children.length) id }
  t.modify id ({ · with parent := some parent })

/-- Insert a node after the other children. -/
def appendChild (t : Tree) (parent id : NodeId) : Tree :=
  t.insertChild parent id (t.children parent).length

/-- Insert nodes one after the other, from an index on. -/
def insertFrom (t : Tree) (parent : NodeId) (index : Nat) : List NodeId → Tree
  | [] => t
  | id :: ids => insertFrom (t.insertChild parent id index) parent (index + 1) ids

/-- **Insert nodes before the existing children**, in their order. -/
def prependChildren (t : Tree) (parent : NodeId) (ids : List NodeId) : Tree :=
  t.insertFrom parent 0 ids

/-- Append nodes, in their order. -/
def appendChildren (t : Tree) (parent : NodeId) (ids : List NodeId) : Tree :=
  ids.foldl (·.appendChild parent ·) t

/-- Detach every child of a node. -/
def clearChildren (t : Tree) (parent : NodeId) : Tree :=
  (t.children parent).foldl (fun t c => t.modify c ({ · with parent := none }))
    (t.modify parent ({ · with children := [] }))

/-- **Detach every child of a node and adopt others instead.** -/
def replaceChildren (t : Tree) (parent : NodeId) (ids : List NodeId) : Tree :=
  (t.clearChildren parent).appendChildren parent ids

/-- **Wrap a node** in a new element that takes its place, and return the
new element's number. The wrapper of a detached node is detached. -/
def wrap (t : Tree) (id : NodeId) (tag : String) (attrs : List Attribute) : NodeId × Tree :=
  let (wrapper, t) := t.create { kind := .element, tag, attrs }
  let t :=
    match t.parent id, t.indexInParent id with
    | some p, some index => t.insertChild p wrapper index
    | _, _ => t
  (wrapper, t.appendChild wrapper id)

end Tree

end PageSlots.Markup

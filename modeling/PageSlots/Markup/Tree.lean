/-!
# The node tree

A page is a tree of nodes that is edited in place: nodes are wrapped,
moved and replaced while others keep referring to them. So nodes live in
a pool and are addressed by the number they got when they were created. A
node keeps its number forever; a node that is taken out of the tree stays
in the pool, detached.

The relation between a parent and its children is kept twice, as the
child list of the one and the parent link of the other. Every operation
of this module and of `PageSlots.Markup.Tree.Edit` changes both together.

An operation on a number that no node has changes nothing, and reads a
blank node.
-/

namespace PageSlots.Markup

/-- **The number of a node**: how many nodes had been created before it. -/
abbrev NodeId := Nat

/-- What a node is. -/
inductive NodeKind where
  /-- The synthetic root from which a parsed fragment hangs. -/
  | document
  /-- An element with a tag, attributes and children. -/
  | element
  /-- Character data, as written in the source. -/
  | text
  /-- A comment. -/
  | comment
  deriving DecidableEq, Repr, Inhabited

/-- The name of a kind. -/
def NodeKind.name : NodeKind → String
  | .document => "document"
  | .element => "element"
  | .text => "text"
  | .comment => "comment"

/-- An attribute. The value is kept as written, with its references. -/
structure Attribute where
  /-- The name. -/
  name : String
  /-- The value, empty for an attribute without one. -/
  value : String
  deriving DecidableEq, Repr, Inhabited

/-- **A node.** -/
structure Node where
  /-- What the node is. -/
  kind : NodeKind
  /-- The tag of an element, empty for any other node. -/
  tag : String := ""
  /-- The attributes, in source order. -/
  attrs : List Attribute := []
  /-- The character data of a text or comment. -/
  text : String := ""
  /-- The children, in order. -/
  children : List NodeId := []
  /-- The parent, if the node is attached. -/
  parent : Option NodeId := none
  deriving DecidableEq, Repr, Inhabited

/-- **A pool of nodes** that form trees. -/
structure Tree where
  /-- The nodes, each at its number. -/
  nodes : Array Node := #[]
  deriving Inhabited

namespace Tree

/-- The pool without nodes. -/
def empty : Tree := {}

/-- How many nodes have been created. -/
def size (t : Tree) : Nat :=
  t.nodes.size

/-- The node with a number, if there is one. -/
def get? (t : Tree) (id : NodeId) : Option Node :=
  t.nodes[id]?

/-- The node with a number, and a blank document if there is none. -/
def node (t : Tree) (id : NodeId) : Node :=
  (t.get? id).getD { kind := .document }

/-- Change the node with a number. -/
def modify (t : Tree) (id : NodeId) (f : Node → Node) : Tree :=
  { nodes := t.nodes.modify id f }

/-- Add a node to the pool. Its number is the old size. -/
def create (t : Tree) (n : Node) : NodeId × Tree :=
  (t.size, { nodes := t.nodes.push n })

@[simp] theorem size_empty : empty.size = 0 := rfl

@[simp] theorem size_modify (t : Tree) (id : NodeId) (f : Node → Node) :
    (t.modify id f).size = t.size := by
  simp [modify, size]

@[simp] theorem size_create (t : Tree) (n : Node) :
    (t.create n).2.size = t.size + 1 := by
  simp [create, size]

@[simp] theorem fst_create (t : Tree) (n : Node) : (t.create n).1 = t.size := rfl

/-- **What a change shows**: the changed node at its number, and every
other node as before. -/
theorem get?_modify (t : Tree) (id j : NodeId) (f : Node → Node) :
    (t.modify id f).get? j = if id = j then (t.get? j).map f else t.get? j := by
  simp [modify, get?, Array.getElem?_modify]

/-- **What a creation shows**: the new node at the old size, and every
other node as before. -/
theorem get?_create (t : Tree) (n : Node) (j : NodeId) :
    (t.create n).2.get? j = if j = t.size then some n else t.get? j := by
  simp only [create, get?, size, Array.getElem?_push]
  congr

/-- A number has a node exactly if it is below the size. -/
theorem get?_eq_none_iff (t : Tree) (id : NodeId) : t.get? id = none ↔ t.size ≤ id := by
  simp [get?, size]

/-! ## Reading a node -/

/-- What a node is. -/
def kind (t : Tree) (id : NodeId) : NodeKind := (t.node id).kind

/-- Whether a node is an element. -/
def isElement (t : Tree) (id : NodeId) : Bool := t.kind id = .element

/-- The tag of an element. -/
def tag (t : Tree) (id : NodeId) : String := (t.node id).tag

/-- The character data of a text or comment. -/
def text (t : Tree) (id : NodeId) : String := (t.node id).text

/-- The attributes of an element, in source order. -/
def attrs (t : Tree) (id : NodeId) : List Attribute := (t.node id).attrs

/-- The children, in order. -/
def children (t : Tree) (id : NodeId) : List NodeId := (t.node id).children

/-- The parent, if the node is attached. -/
def parent (t : Tree) (id : NodeId) : Option NodeId := (t.node id).parent

/-- The value of an attribute. -/
def attr? (t : Tree) (id : NodeId) (name : String) : Option String :=
  ((t.attrs id).find? (·.name = name)).map (·.value)

/-- Whether an attribute is present. -/
def hasAttr (t : Tree) (id : NodeId) (name : String) : Bool :=
  (t.attrs id).any (·.name = name)

/-- The position of a node among its parent's children. -/
def indexInParent (t : Tree) (id : NodeId) : Option Nat :=
  (t.parent id).bind fun p => (t.children p).idxOf? id

/-- The level of a heading, from one to six. -/
def headingLevel (t : Tree) (id : NodeId) : Option Nat :=
  if t.isElement id then
    match t.tag id with
    | "h1" => some 1
    | "h2" => some 2
    | "h3" => some 3
    | "h4" => some 4
    | "h5" => some 5
    | "h6" => some 6
    | _ => none
  else none

/-- Whether a node is a heading. -/
def isHeading (t : Tree) (id : NodeId) : Bool :=
  (t.headingLevel id).isSome

/-! ## Creating a node -/

/-- Create a detached document root. -/
def createDocument (t : Tree) : NodeId × Tree :=
  t.create { kind := .document }

/-- Create a detached element without attributes. -/
def createElement (t : Tree) (tag : String) : NodeId × Tree :=
  t.create { kind := .element, tag }

/-- Create a detached text. It is written out as it is. -/
def createText (t : Tree) (text : String) : NodeId × Tree :=
  t.create { kind := .text, text }

/-- Create a detached comment. -/
def createComment (t : Tree) (text : String) : NodeId × Tree :=
  t.create { kind := .comment, text }

end Tree

end PageSlots.Markup

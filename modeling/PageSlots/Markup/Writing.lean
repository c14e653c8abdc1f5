import PageSlots.Markup.Element
import PageSlots.Markup.Tree

/-!
# Writing the tree

A node is written as markup that reads back to it. Text and attribute
values are kept as they were read, so they are written as they are; only
a double quote in a value, which would end it, becomes a reference. An
attribute without a value is written as its name alone, and a void
element without an end tag.

The nodes of a path through the tree are distinct, so a path is no longer
than there are nodes. Writing follows the children as many levels deep.
-/

namespace PageSlots.Markup

/-- A value as it stands between double quotes. -/
def quoteValue (value : String) : String :=
  String.join (value.toList.map fun c => if c = '"' then "&quot;" else c.toString)

/-- An attribute with the space before it. -/
def Attribute.written (a : Attribute) : String :=
  if a.value.isEmpty then " " ++ a.name
  else " " ++ a.name ++ "=\"" ++ quoteValue a.value ++ "\""

namespace Tree

/-- The start tag of an element. -/
def startTag (t : Tree) (id : NodeId) : String :=
  "<" ++ t.tag id ++ String.join ((t.attrs id).map Attribute.written) ++ ">"

/-- A node as markup, down to a depth. -/
def write (t : Tree) : Nat → NodeId → String
  | 0, _ => ""
  | depth + 1, id =>
    let inner := String.join ((t.children id).map (write t depth))
    match t.kind id with
    | .document => inner
    | .text => t.text id
    | .comment => "<!--" ++ t.text id ++ "-->"
    | .element =>
      if isVoidTag (t.tag id) then t.startTag id
      else t.startTag id ++ inner ++ "</" ++ t.tag id ++ ">"

/-- **A node and everything below it as markup.** A document is written as
its children. -/
def toHtml (t : Tree) (id : NodeId) : String :=
  t.write t.size id

/-- **The children of a node as markup.** -/
def innerHtml (t : Tree) (id : NodeId) : String :=
  String.join ((t.children id).map t.toHtml)

end Tree

end PageSlots.Markup

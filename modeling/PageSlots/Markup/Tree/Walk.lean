import PageSlots.Markup.Tree

/-!
# Walking the tree

`Tree.descendants` lists a node and everything below it in document
order. The walk keeps the nodes it has still to visit on a stack: it
takes the first one and puts that node's children in its place. A node
is taken at most once, so the walk needs no more steps than there are
nodes.
-/

namespace PageSlots.Markup.Tree

/-- The walk with a number of steps and a stack of nodes to visit. -/
def walk (t : Tree) : Nat → List NodeId → List NodeId
  | 0, _ => []
  | _ + 1, [] => []
  | steps + 1, id :: stack => id :: walk t steps (t.children id ++ stack)

/-- **A node and everything below it**, in document order. -/
def descendants (t : Tree) (id : NodeId) : List NodeId :=
  t.walk t.size [id]

/-- The character data below a node, as written. -/
def textContent (t : Tree) (id : NodeId) : String :=
  String.join (((t.descendants id).filter (t.kind · = .text)).map t.text)

end PageSlots.Markup.Tree

import PageSlots.Markdown.Definition
import PageSlots.Markdown.Row

/-!
# Blocks

A document is a tree of blocks. Quotes, lists and list items contain
blocks (`Container`); every other block holds text, which is kept as it
is written until all definitions are known.

While a document is read, the containers that may still grow are open. An
`Outline` is the tree so far: the open containers, innermost first, each
with the blocks it has. Blocks are only ever added to the innermost one.
-/

namespace PageSlots.Markdown

/-! ## The tree -/

/-- **What contains blocks.** -/
inductive Container where
  | quote
  /-- A list with the marker of its first item. It is tight as long as no
  blank line has been found between its items. -/
  | list (mark : ListMark) (tight : Bool)
  /-- A list item. Its lines are indented as far as its first one. -/
  | item (indent : Nat)
  deriving DecidableEq, Repr

/-- **A block.** -/
inductive Block where
  | container (container : Container) (content : List Block)
  /-- A paragraph, perhaps with a check box before it. -/
  | paragraph (check : Option Bool) (text : List Char)
  | heading (level : Nat) (check : Option Bool) (text : List Char)
  /-- A block of code; one with a fence comes with its info string. -/
  | code (info : Option (List Char)) (text : List Char)
  | markup (text : List Char)
  | rule
  /-- A table: its columns, the row of its head and its other rows, with a
  cell for every column. -/
  | table (columns : List Alignment) (head : List (List Char)) (rows : List (List (List Char)))
  /-- A check box that stands alone. -/
  | check (checked : Bool)

/-- Whether a container is a list item. -/
def Container.isItem : Container → Bool
  | .item _ => true
  | _ => false

/-- The container goes on in a line if the line begins accordingly: what is
left of the line then. -/
def Container.continues? (cursor : Cursor) : Container → Option Cursor
  | .quote => (cursor.indentUpTo 3).2.quote?
  | .list _ _ => some cursor
  | .item indent =>
    (cursor.indent? indent).orElse fun _ =>
      let (_, rest) := cursor.indentUpTo indent
      if rest.isAtEnd then some rest else none

/-- How many of the containers, outermost first, go on in a line, and what
is left of the line inside them. -/
def continuing (cursor : Cursor) : List Container → Nat × Cursor
  | [] => (0, cursor)
  | container :: containers =>
    match container.continues? cursor with
    | none => (0, cursor)
    | some cursor =>
      let (count, cursor) := continuing cursor containers
      (count + 1, cursor)

/-! ## The tree so far -/

/-- **A container that may still grow.** -/
structure OpenContainer where
  /-- The container. -/
  container : Container
  /-- What it contains, latest first. -/
  content : List Block

/-- **A document as far as it is read.** -/
structure Outline where
  /-- The finished blocks that no container holds, latest first. -/
  blocks : List Block := []
  /-- The open containers, innermost first. -/
  opened : List OpenContainer := []
  /-- Whether the line before was blank, where that matters to a list. -/
  lastBlank : Bool := false
  /-- Whether the innermost item has had nothing but its marker. -/
  emptyItem : Bool := false
  /-- The check box that waits for its paragraph. -/
  check : Option Bool := none
  /-- The definitions, latest first. -/
  definitions : List Definition := []

namespace Outline

/-- The open containers, outermost first. -/
def containers (o : Outline) : List Container :=
  (o.opened.map (·.container)).reverse

/-- The innermost open container. -/
def innermost? (o : Outline) : Option Container :=
  o.opened.head?.map (·.container)

/-- Add a block to the innermost container. -/
def add (o : Outline) (block : Block) : Outline :=
  match o.opened with
  | [] => { o with blocks := block :: o.blocks }
  | inner :: outer => { o with opened := { inner with content := block :: inner.content } :: outer }

/-- Open a container inside the innermost one. -/
def enter (o : Outline) (container : Container) : Outline :=
  { o with opened := ⟨container, []⟩ :: o.opened }

/-- Change the open container at a depth, the innermost one being at depth
zero. -/
def modifyContainer (o : Outline) (depth : Nat) (f : Container → Container) : Outline :=
  { o with opened := o.opened.modify depth fun c => { c with container := f c.container } }

/-- **Close the innermost container**: it becomes a block of the one around
it. -/
def leave (o : Outline) : Outline :=
  match o.opened with
  | [] => o
  | inner :: outer =>
    let o := { o with opened := outer }.add (.container inner.container inner.content.reverse)
    match inner.container with
    | .list _ true => { o with emptyItem := false }
    | _ => o

/-- Close containers until a number of them is open. -/
def leaveTo (depth : Nat) (o : Outline) : Outline :=
  Nat.repeat leave (o.opened.length - depth) o

/-! ## Lists -/

/-- A list with a blank line between its items. -/
def loosen : Container → Container
  | .list mark _ => .list mark false
  | c => c

/-- Close an item that has nothing but its marker and blank lines. -/
def closeEmptyItem (o : Outline) : Outline :=
  let o :=
    if o.emptyItem && o.lastBlank && (o.innermost?.map Container.isItem).getD false then
      o.leave
    else o
  { o with emptyItem := false }

/-- Close the list in which no item is open, since what follows is no item
of it. A blank line before makes the list around loose. -/
def closeList (o : Outline) : Outline :=
  let o := o.closeEmptyItem
  let o :=
    match o.innermost? with
    | some (.list _ _) => o.leave
    | _ => o
  if o.lastBlank then { o.modifyContainer 1 loosen with lastBlank := false } else o

/-- Make sure that a list is open to which an item with a marker belongs:
the one that is open if its marks are the same, or else a new one. -/
def continueList (o : Outline) (mark : ListMark) : Outline :=
  let o := o.closeEmptyItem
  let fresh := { o.closeList.enter (.list mark true) with lastBlank := false }
  match o.innermost? with
  | some (.list first _) =>
    if first.mark == mark.mark then
      if o.lastBlank then { o.modifyContainer 0 loosen with lastBlank := false } else o
    else fresh
  | _ => fresh

/-- Note a blank line. -/
def blankLine (o : Outline) : Outline :=
  match o.innermost? with
  | some .quote => o
  | some (.item _) =>
    let o := { o with lastBlank := true }
    if o.emptyItem then o.modifyContainer 0 fun _ => .item 0 else o
  | _ => { o with lastBlank := true }

end Outline

end PageSlots.Markdown

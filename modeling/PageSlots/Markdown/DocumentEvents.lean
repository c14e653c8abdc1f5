import PageSlots.Markdown.Document
import PageSlots.Markdown.Inline
import PageSlots.Markdown.Rendition

/-!
# The events of a document

A document is told as events from its first block to its last. Only here
are the texts of its blocks read, since any definition may concern any of
them. A paragraph that stands directly in an item of a tight list is told
without its start and its end.

`renderText` puts the whole together: it reads a text, and writes what its
events write.
-/

namespace PageSlots.Markdown

/-- What starts where a container starts. -/
def Container.tag : Container → Tag
  | .quote => .blockQuote
  | .list mark _ => .list mark.number
  | .item _ => .item

/-- Whether the paragraphs in a container are told without start and end,
given whether those beside the container are. -/
def Container.isBare (bare : Bool) : Container → Bool
  | .quote => false
  | .list _ tight => tight
  | .item _ => bare

/-- The check box of a task, if there is one. -/
def checkEvents (check : Option Bool) : List Event :=
  check.toList.map .taskMarker

/-- The events of text, unless it is empty. -/
def plainEvents (event : String → Event) (text : List Char) : List Event :=
  if text.isEmpty then [] else [event (String.ofList text)]

/-- The events of a row. -/
def rowEvents (rules : InlineRules) (tag : Tag) (cells : List (List Char)) : List Event :=
  surround tag (cells.flatMap fun cell =>
    surround .tableCell (inlineEvents { rules with inTable := true } cell))

mutual

/-- **The events of a block.** -/
def blockEvents (rules : InlineRules) (bare : Bool) : Block → List Event
  | .container container content =>
    surround container.tag (blocksEvents rules (container.isBare bare) content)
  | .paragraph check text =>
    let inside := checkEvents check ++ inlineEvents rules text
    if bare then inside else surround .paragraph inside
  | .heading level check text =>
    surround (.heading level) (checkEvents check ++ inlineEvents rules text)
  | .code info text => surround (.codeBlock (info.map String.ofList)) (plainEvents .text text)
  | .markup text => surround .htmlBlock (plainEvents .html text)
  | .rule => [.rule]
  | .table columns head rows =>
    surround (.table columns)
      (rowEvents rules .tableHead head ++ rows.flatMap (rowEvents rules .tableRow))
  | .check checked => [.taskMarker checked]

/-- The events of blocks. -/
def blocksEvents (rules : InlineRules) (bare : Bool) : List Block → List Event
  | [] => []
  | block :: blocks => blockEvents rules bare block ++ blocksEvents rules bare blocks

end

/-- **The events of a document.** -/
def Document.events (gfm : Bool) (document : Document) : List Event :=
  blocksEvents { gfm, inTable := false, definitions := document.definitions } false
    document.blocks

/-- The events of a text. -/
def eventsOfText (gfm : Bool) (text : String) : List Event :=
  (Document.ofText gfm text.toList).events gfm

/-- **A text of markdown, rendered.** -/
def renderText (gfm : Bool) (style : Style) (text : String) : String :=
  writeEvents style (eventsOfText gfm text)

end PageSlots.Markdown

/-!
# Events of a document

A rendered document is told as a sequence of events: where a stretch of
content starts and ends, and what stands in it. Starts and ends need not
match; what writes events has an answer to every sequence.
-/

namespace PageSlots.Markdown

/-- The alignment of a column of a table. -/
inductive Alignment where
  | none | left | center | right
  deriving DecidableEq, Repr, Inhabited

/-- **What can start.** -/
inductive Tag where
  | paragraph
  /-- A heading of a level from one to six. -/
  | heading (level : Nat)
  | blockQuote
  /-- A code block; a fenced one comes with its info string. -/
  | codeBlock (info : Option String)
  /-- A list; a numbered one comes with its first number. -/
  | list (start : Option Nat)
  | item
  | table (alignments : List Alignment)
  | tableHead
  | tableRow
  | tableCell
  | emphasis
  | strong
  | strikethrough
  | superscript
  | subscript
  | link (destination title : String)
  | image (destination title : String)
  | htmlBlock
  | footnoteDefinition (label : String)
  | definitionList
  | definitionTitle
  | definition
  | metadata
  deriving DecidableEq, Repr

/-- **What can end.** -/
inductive EndTag where
  | paragraph
  | heading (level : Nat)
  | blockQuote
  | codeBlock
  /-- A list, numbered or not. -/
  | list (ordered : Bool)
  | item
  | table
  | tableHead
  | tableRow
  | tableCell
  | emphasis
  | strong
  | strikethrough
  | superscript
  | subscript
  | link
  | image
  | htmlBlock
  | footnoteDefinition
  | definitionList
  | definitionTitle
  | definition
  | metadata
  deriving DecidableEq, Repr

/-- What ends that which started. -/
def Tag.toEnd : Tag → EndTag
  | .paragraph => .paragraph
  | .heading level => .heading level
  | .blockQuote => .blockQuote
  | .codeBlock _ => .codeBlock
  | .list start => .list start.isSome
  | .item => .item
  | .table _ => .table
  | .tableHead => .tableHead
  | .tableRow => .tableRow
  | .tableCell => .tableCell
  | .emphasis => .emphasis
  | .strong => .strong
  | .strikethrough => .strikethrough
  | .superscript => .superscript
  | .subscript => .subscript
  | .link _ _ => .link
  | .image _ _ => .image
  | .htmlBlock => .htmlBlock
  | .footnoteDefinition _ => .footnoteDefinition
  | .definitionList => .definitionList
  | .definitionTitle => .definitionTitle
  | .definition => .definition
  | .metadata => .metadata

/-- **An event.** -/
inductive Event where
  | start (tag : Tag)
  | stop (tag : EndTag)
  /-- Plain text. -/
  | text (text : String)
  /-- A code span. -/
  | code (text : String)
  /-- A line of an HTML block. -/
  | html (text : String)
  /-- A tag inside a paragraph. -/
  | inlineHtml (text : String)
  | inlineMath (text : String)
  | displayMath (text : String)
  | footnoteReference (label : String)
  | softBreak
  | hardBreak
  | rule
  /-- The check box of a task. -/
  | taskMarker (checked : Bool)
  deriving DecidableEq, Repr

end PageSlots.Markdown

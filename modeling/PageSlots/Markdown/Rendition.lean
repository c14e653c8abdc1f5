import PageSlots.Markdown.Backend
import PageSlots.Markdown.Event
import PageSlots.Text.Blank

/-!
# Writing events

A rendition turns events into text one by one. What stands in a code
block or stands for an image is collected in a capture first, because the
backend writes the whole of it at once. Captures of images nest, and
inside a capture everything but text is dropped.

A rendition also remembers the table it is in: the alignments of the
columns, whether it is in the head, and how many cells of the row have
ended. This outlives the end of a document; captures that are still open
there are dropped.
-/

namespace PageSlots.Markdown

open PageSlots.Markup PageSlots.Text

/-- **What is collected** before it is written. -/
inductive Capture where
  /-- The code of a code block. -/
  | code (lang : Option String) (body : String)
  /-- The text that stands for an image. -/
  | image (image : Image)
  deriving DecidableEq, Repr

/-- Add text to a capture. -/
def Capture.push (text : String) : Capture → Capture
  | .code lang body => .code lang (body ++ text)
  | .image i => .image { i with alt := i.alt ++ text }

/-- The language that the info string of a code block names: its first
word. -/
def languageOf (info : String) : Option String :=
  (words info.toList).head?.map String.ofList

/-- **The table that is being written.** -/
structure TableState where
  /-- The alignments of the columns. -/
  alignments : List Alignment := []
  /-- Whether the head is being written. -/
  inHead : Bool := false
  /-- How many cells of the row have ended. -/
  column : Nat := 0
  deriving DecidableEq, Repr

/-- The tag of a cell. -/
def TableState.cellTag (table : TableState) : String :=
  if table.inHead then "th" else "td"

/-- The style of a cell, as an attribute. -/
def Alignment.styleAttribute : Alignment → String
  | .left => " style=\"text-align:left\""
  | .center => " style=\"text-align:center\""
  | .right => " style=\"text-align:right\""
  | .none => ""

/-- The start of the next cell. -/
def TableState.openCell (table : TableState) : String :=
  "<" ++ table.cellTag ++ (table.alignments.getD table.column .none).styleAttribute ++ ">"

/-- The end of the cell. -/
def TableState.closeCell (table : TableState) : String :=
  "</" ++ table.cellTag ++ ">"

/-- How a document is written. -/
structure Style where
  /-- What depends on the format. -/
  backend : Backend := .html
  /-- Whether paragraphs are written without tags. -/
  inline : Bool := false

/-- **A document that is being written.** -/
structure Rendition where
  /-- What has been written. -/
  output : String := ""
  /-- What is being collected, innermost first. -/
  captures : List Capture := []
  /-- The table. -/
  table : TableState := {}

namespace Rendition

/-- Write text as it is. -/
def put (r : Rendition) (text : String) : Rendition :=
  { r with output := r.output ++ text }

/-- Whether something is being collected. -/
def isCapturing (r : Rendition) : Bool :=
  !r.captures.isEmpty

/-- Collect text, or else write what is made of it. -/
def pushOr (r : Rendition) (text written : String) : Rendition :=
  match r.captures with
  | capture :: outer => { r with captures := capture.push text :: outer }
  | [] => r.put written

/-- Write text, unless something is being collected. -/
def putOutside (r : Rendition) (text : String) : Rendition :=
  if r.isCapturing then r else r.put text

/-- Start to collect. -/
def capture (r : Rendition) (c : Capture) : Rendition :=
  { r with captures := c :: r.captures }

/-- What starts a stretch of content that stands outside captures. -/
def openOutside (style : Style) (r : Rendition) : Tag → Rendition
  | .paragraph => if style.inline then r else r.put "<p>"
  | .heading level => r.put ("<h" ++ toString level ++ ">")
  | .blockQuote => r.put "<blockquote>"
  | .codeBlock info => r.capture (.code (languageOf (info.getD "")) "")
  | .list none => r.put "<ul>"
  | .list (some start) =>
    if start = 1 then r.put "<ol>"
    else r.put ("<ol start=\"" ++ toString start ++ "\">")
  | .item => r.put "<li>"
  | .table alignments => { r with table := { alignments } }.put "<table>"
  | .tableHead =>
    { r with table := { r.table with inHead := true, column := 0 } }.put "<thead><tr>"
  | .tableRow => { r with table := { r.table with column := 0 } }.put "<tr>"
  | .tableCell => r.put r.table.openCell
  | .emphasis => r.put "<em>"
  | .strong => r.put "<strong>"
  | .strikethrough => r.put "<s>"
  | .superscript => r.put "<sup>"
  | .subscript => r.put "<sub>"
  | .link destination _ =>
    r.put ("<a href=\"" ++ escape (style.backend.linkTarget destination) ++ "\">")
  | .definitionList => r.put "<dl>"
  | .definitionTitle => r.put "<dt>"
  | .definition => r.put "<dd>"
  | .image _ _ | .htmlBlock | .footnoteDefinition _ | .metadata => r

/-- **What the start of a stretch writes.** An image is collected
anywhere; nothing else starts inside a capture. -/
def start (style : Style) (r : Rendition) (tag : Tag) : Rendition :=
  match tag with
  | .image destination title => r.capture (.image ⟨destination, title, ""⟩)
  | _ => if r.isCapturing then r else r.openOutside style tag

/-- What ends a stretch of content that stands outside captures. -/
def closeOutside (style : Style) (r : Rendition) : EndTag → Rendition
  | .paragraph => if style.inline then r else r.put "</p>"
  | .heading level => r.put ("</h" ++ toString level ++ ">")
  | .blockQuote => r.put "</blockquote>"
  | .list true => r.put "</ol>"
  | .list false => r.put "</ul>"
  | .item => r.put "</li>"
  | .table => r.put "</tbody></table>"
  | .tableHead =>
    { r with table := { r.table with inHead := false } }.put "</tr></thead><tbody>"
  | .tableRow => r.put "</tr>"
  | .tableCell =>
    { r with table := { r.table with column := r.table.column + 1 } }.put r.table.closeCell
  | .emphasis => r.put "</em>"
  | .strong => r.put "</strong>"
  | .strikethrough => r.put "</s>"
  | .superscript => r.put "</sup>"
  | .subscript => r.put "</sub>"
  | .link => r.put "</a>"
  | .definitionList => r.put "</dl>"
  | .definitionTitle => r.put "</dt>"
  | .definition => r.put "</dd>"
  | .image | .codeBlock | .htmlBlock | .footnoteDefinition | .metadata => r

/-- The end of an image. It closes the innermost capture; the text of an
image inside a capture becomes part of that capture. -/
def closeImage (style : Style) (r : Rendition) : Rendition :=
  match r.captures with
  | [] => r
  | .code _ _ :: outer => { r with captures := outer }
  | .image i :: outer =>
    pushOr { r with captures := outer } i.alt (style.backend.image i)

/-- The end of a code block. It closes the innermost capture. -/
def closeCode (style : Style) (r : Rendition) : Rendition :=
  match r.captures with
  | [] => r
  | .code lang body :: outer =>
    put { r with captures := outer } (style.backend.codeBlock lang body)
  | .image _ :: outer => { r with captures := outer }

/-- **What the end of a stretch writes.** -/
def stop (style : Style) (r : Rendition) (tag : EndTag) : Rendition :=
  match tag with
  | .image => r.closeImage style
  | .codeBlock => r.closeCode style
  | _ => if r.isCapturing then r else r.closeOutside style tag

/-- **What an event writes.** -/
def event (style : Style) (r : Rendition) : Event → Rendition
  | .start tag => r.start style tag
  | .stop tag => r.stop style tag
  | .text text => r.pushOr text (escape text)
  | .code text => r.pushOr text ("<code>" ++ escape text ++ "</code>")
  | .html text => r.putOutside text
  | .inlineHtml text => r.putOutside text
  | .softBreak => r.pushOr "\n" "\n"
  | .hardBreak => r.pushOr "\n" "<br>"
  | .rule => r.put "<hr>"
  | .taskMarker checked => r.put (style.backend.taskMarker checked)
  | .footnoteReference _ | .inlineMath _ | .displayMath _ => r

/-- **Write a document**: its text, and what is remembered for the
next. -/
def document (style : Style) (r : Rendition) (events : List Event) : String × Rendition :=
  let r := events.foldl (event style) r
  (r.output, { r with output := "", captures := [] })

/-- Write documents one after the other. -/
def documents (style : Style) (r : Rendition) : List (List Event) → List String
  | [] => []
  | events :: rest =>
    let (text, r) := r.document style events
    text :: documents style r rest

end Rendition

/-- **Write a document by itself.** -/
def writeEvents (style : Style) (events : List Event) : String :=
  (Rendition.document style {} events).1

end PageSlots.Markdown

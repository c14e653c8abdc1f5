import PageSlots.Markdown.Block

/-!
# Reading a document

A document is read line by line. A line first goes through the open
containers as far as it continues them, and those it does not continue are
closed; the markers that follow then open new ones; what is left begins a
block that holds text (`Outline.readLeaf`). Such a block goes on over the
lines that follow for as long as they belong to it, and for each kind of
block one function gathers them. Every gathering function gives back the
lines that it leaves, so each line belongs to one block.

A line of a paragraph need not continue the containers that the paragraph
stands in, unless it would begin a block of its own.
-/

namespace PageSlots.Markdown

open PageSlots.Text

/-! ## Paragraphs -/

/-- Whether a line begins a table together with the line after it, which
continues all the containers. -/
def beginsTable (containers : List Container) (text : List Char) (next : Option Line) : Bool :=
  match next with
  | none => false
  | some line =>
    let (count, cursor) := continuing line.start containers
    text.head? = some '|' && count = containers.length &&
      (tableColumns? (rowPieces false text) text cursor.rest).isSome

/-- Whether a block begins with a line that might also be text of the
paragraph above it. -/
def beginsBlock (gfm : Bool) (containers : List Container) (inside : Bool) (text : List Char)
    (next : Option Line) : Bool :=
  interrupts inside text next || (gfm && beginsTable containers text next)

/-- What a line is to the paragraph above it. -/
inductive Continuation where
  /-- It underlines the paragraph as a heading. -/
  | underline (level : Nat)
  /-- It begins something else. -/
  | ends
  /-- It is more of the text. -/
  | text (written : List Char)

/-- What a line is to the text above it; `next` is the line after it. Only
a paragraph can be underlined. -/
def continuation (gfm isParagraph : Bool) (containers : List Container) (line : Line)
    (next : Option Line) : Continuation :=
  let (count, cursor) := continuing line.start containers
  let inside := count = containers.length
  let (indent, marker) := cursor.indentUpTo 4
  let level := if isParagraph && inside && indent < 4 then underline? marker.rest else none
  match level with
  | some level => .underline level
  | none =>
    if (indent < 4 && beginsBlock gfm containers inside marker.rest next) ||
        marker.skipIndent.isAtEnd then .ends
    else .text (cursor.rest ++ cursor.ending)

/-- **Gather the lines that are more of a text**: the lines, the level of
the heading if one underlines them, and what they leave. -/
def textLines (gfm isParagraph : Bool) (containers : List Container) :
    List Line → List (List Char) × Option Nat × List Line
  | [] => ([], none, [])
  | line :: rest =>
    match continuation gfm isParagraph containers line rest.head? with
    | .underline level => ([], some level, rest)
    | .ends => ([], none, line :: rest)
    | .text written =>
      let (lines, level, rest) := textLines gfm isParagraph containers rest
      (written :: lines, level, rest)

/-! ## Tables -/

/-- Gather the rows of a table. -/
def tableRows (containers : List Container) (columns : Nat) :
    List Line → List (List (List Char)) × List Line
  | [] => ([], [])
  | line :: rest =>
    let (count, cursor) := continuing line.start containers
    let text := cursor.skipIndent.rest
    let cells := rowCells text
    if count < containers.length || interrupts false text rest.head? || cells.isEmpty then
      ([], line :: rest)
    else
      let (rows, rest) := tableRows containers columns rest
      (fitCells columns cells :: rows, rest)

/-- The table that a line begins together with the line after it, if they
begin one, and what it leaves. -/
def table? (containers : List Container) (text : List Char) :
    List Line → Option (Block × List Line)
  | [] => none
  | second :: rest => do
    let (count, cursor) := continuing second.start containers
    if count < containers.length then none
    else
      let columns ← tableColumns? (headPieces false text) text cursor.rest
      let (rows, rest) := tableRows containers columns.length rest
      pure (.table columns (fitCells columns.length (rowCells text)) rows, rest)

/-! ## Code and markup -/

/-- Gather the lines of a fenced block of code. -/
def fencedLines (containers : List Container) (fence : Fence) :
    List Line → List Char × List Line
  | [] => ([], [])
  | line :: rest =>
    let (count, cursor) := continuing line.start containers
    let (_, cursor) := cursor.indentUpTo fence.indent
    let (indent, closing) := cursor.indentUpTo (4 - fence.indent)
    if count < containers.length then ([], line :: rest)
    else if indent < 4 - fence.indent && fence.isClosedBy closing.rest then ([], rest)
    else
      let (text, rest) := fencedLines containers fence rest
      (cursor.code ++ text, rest)

/-- Gather the lines of an indented block of code, each with whether it is
blank. -/
def indentedLines (containers : List Container) :
    List Line → List (List Char × Bool) × List Line
  | [] => ([], [])
  | line :: rest =>
    let (count, cursor) := continuing line.start containers
    let (indent, cursor) := cursor.indentUpTo 4
    if count < containers.length || (indent < 4 && !cursor.isAtEnd) then ([], line :: rest)
    else
      let (lines, rest) := indentedLines containers rest
      ((cursor.code, cursor.isBlank) :: lines, rest)

/-- The code of an indented block: blank lines at its end are left out. -/
def indentedCode (lines : List (List Char × Bool)) : List Char :=
  (lines.reverse.dropWhile (·.2)).reverse.flatMap (·.1)

/-- Whether a block of markup is over before a line, given the line
above. -/
def MarkupEnd.isOver (above : List Char) (cursor : Cursor) : MarkupEnd → Bool
  | .within stop => (breakOn? stop.toList above).isSome
  | .beforeBlank => cursor.isBlank

/-- Gather the lines of a block of markup, given the line above. -/
def markupLines (containers : List Container) (stop : MarkupEnd) (above : List Char) :
    List Line → List Char × List Line
  | [] => ([], [])
  | line :: rest =>
    let (count, cursor) := continuing line.start containers
    if count < containers.length || stop.isOver above cursor then ([], line :: rest)
    else
      let (text, rest) := markupLines containers stop cursor.rest rest
      (cursor.code ++ text, rest)

/-! ## Blocks of text -/

namespace Outline

/-- Read an indented block of code, whose first line is given. -/
def readIndented (o : Outline) (cursor : Cursor) (rest : List Line) : Outline × List Line :=
  let (lines, rest) := indentedLines o.containers rest
  let blank := (lines.getLast?.map (·.2)).getD false
  ({ o.add (.code none (cursor.code ++ indentedCode lines)) with lastBlank := blank }, rest)

/-- Read a paragraph, or the heading or the table that it turns out to
be. -/
def readParagraph (gfm : Bool) (o : Outline) (cursor : Cursor) (rest : List Line) :
    Outline × List Line :=
  let unchecked := { o with check := none }
  match if gfm then table? o.containers cursor.rest rest else none with
  | some (table, rest) => (unchecked.add table, rest)
  | none =>
    let (lines, level, rest) := textLines gfm true o.containers rest
    let text := dropRightWhile isAsciiSpace (cursor.rest ++ cursor.ending ++ lines.flatten)
    match level with
    | some level => (unchecked.add (.heading level o.check text), rest)
    | none => (unchecked.add (.paragraph o.check text), rest)

/-- Read a definition, if there is one. -/
def readDefinition? (gfm : Bool) (o : Outline) (cursor : Cursor) (rest : List Line) :
    Option (Outline × List Line) :=
  if cursor.rest.head? = some '[' then
    let (lines, _, _) := textLines gfm false o.containers rest
    (definition? (cursor.rest ++ cursor.ending ++ lines.flatten)).map fun (definition, left) =>
      ({ o with definitions := definition :: o.definitions },
        rest.drop (lines.length - (linesOf left).length))
  else none

/-- **Read what is left of a line** inside its containers, with the lines
that belong to it. -/
def readLeaf (gfm : Bool) (o : Outline) (cursor : Cursor) (rest : List Line) :
    Outline × List Line :=
  if cursor.isBlank then (o.blankLine, rest)
  else
    let o := o.closeList
    let (indent, inner) := cursor.indentUpTo 4
    if indent = 4 then o.readIndented inner rest
    else
      match markupBlock? inner.rest with
      | some stop =>
        let (text, rest) := markupLines o.containers stop inner.rest rest
        let spaces := List.replicate (max cursor.pending indent) ' '
        (o.add (.markup (spaces ++ inner.code ++ text)), rest)
      | none =>
        if isThematicBreak inner.rest then (o.add .rule, rest)
        else
          match headingMark? inner.rest, fence? indent inner.rest with
          | some (level, text), _ => (o.add (.heading level none (headingText text)), rest)
          | none, some (fence, info) =>
            let (text, rest) := fencedLines o.containers fence rest
            (o.add (.code (some (unescape false info)) text), rest)
          | none, none =>
            (o.readDefinition? gfm inner rest).getD (o.readParagraph gfm inner rest)

/-! ## Containers -/

/-- Go on behind the marker of an alert. The line after it is read as if it
went on with a paragraph: what is left of it then, if it is text. -/
def openAlert (gfm : Bool) (o : Outline) :
    List Line → Outline × Option Cursor × List Line
  | [] => (o, none, [])
  | line :: rest =>
    let (count, cursor) := continuing line.start o.containers
    let (indent, marker) := cursor.indentUpTo 4
    let inside := count = o.containers.length
    if indent < 4 && beginsBlock gfm o.containers inside marker.rest rest.head? then
      (o, none, line :: rest)
    else (o, some marker.skipIndent, rest)

/-- Read the marker of a list item: the marker, how far the lines of the
item are indented, and what is left of the line. -/
def itemMark? (outer : Nat) (cursor : Cursor) : Option (ListMark × Nat × Cursor) := do
  let (mark, width) ← listMark? cursor.rest
  if mark.number.isNone && isThematicBreak cursor.rest then none
  else
    let behind := (cursor.after width).skipColumn
    let indent := outer + width + 1
    let (inner, content) := behind.indentUpTo 4
    if behind.isBlank || inner = 4 then pure (mark, indent, behind)
    else pure (mark, indent + inner, content)

/-- **Open the containers whose markers a line goes on with**: what is left
of the line, unless it is used up. No line has more markers than
characters, which is what the first argument counts. -/
def openContainers (gfm : Bool) : Nat → Outline → Cursor → List Line →
    Outline × Option Cursor × List Line
  | 0, o, cursor, rest => (o, some cursor, rest)
  | fuel + 1, o, cursor, rest =>
    let (outer, inner) := cursor.indentUpTo 4
    if outer = 4 then (o, some cursor, rest)
    else
      match itemMark? outer inner with
      | some (mark, indent, content) =>
        let o := (o.continueList mark).enter (.item indent)
        if content.isBlank then ({ o with emptyItem := true }, none, rest)
        else
          let box := (content.indentUpTo 3).2
          match if gfm then checkMark? box.rest else none with
          | none => openContainers gfm fuel o content rest
          | some checked =>
            let content := box.after 3
            if content.isBlank then
              ({ o.add (.check checked) with emptyItem := true }, none, rest)
            else openContainers gfm fuel { o with check := some checked } content rest
      | none =>
        match inner.quote? with
        | some content =>
          let o := o.closeList.enter .quote
          if gfm && isAlert content.rest then o.openAlert gfm rest
          else openContainers gfm fuel o content rest
        | none => (o, some cursor, rest)

/-- **Read a block**: a line, and the lines that belong to it. -/
def readBlock (gfm : Bool) (o : Outline) (line : Line) (rest : List Line) :
    Outline × List Line :=
  let (count, cursor) := continuing line.start o.containers
  match openContainers gfm (line.content.length + 1) (o.leaveTo count) cursor rest with
  | (o, none, rest) => (o, rest)
  | (o, some cursor, rest) => o.readLeaf gfm cursor rest

/-- Read blocks until no line is left. There are no more blocks than
lines, which is what the first argument counts. -/
def readBlocks (gfm : Bool) : Nat → Outline → List Line → Outline
  | fuel + 1, o, line :: rest =>
    let (o, rest) := o.readBlock gfm line rest
    readBlocks gfm fuel o rest
  | _, o, _ => o

end Outline

/-- **A document**: its blocks and its definitions. -/
structure Document where
  /-- The blocks. -/
  blocks : List Block
  /-- The definitions. -/
  definitions : List Definition

/-- **The document that a text is**, with tables, check boxes and alerts if
`gfm` is set. -/
def Document.ofText (gfm : Bool) (text : List Char) : Document :=
  let lines := linesOf text
  let o := (Outline.readBlocks gfm lines.length {} lines).leaveTo 0
  { blocks := o.blocks.reverse, definitions := o.definitions.reverse }

end PageSlots.Markdown

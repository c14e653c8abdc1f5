import PageSlots.Markdown.Event
import PageSlots.Text.Blank

/-!
# Rows of a table

A table begins with two lines: the row of its head, and a row of hyphens
that tells how many columns there are and how they are aligned. Bars divide
the cells of a row, and a row may have one before its first cell and one
behind its last.

A bar with a backslash before it belongs to a cell. The line that would be
the head is not known to be one yet, so in it a backslash that is escaped
itself does not count (`headPieces`).
-/

namespace PageSlots.Markdown

open PageSlots.Text

/-- Put a character into the first piece. -/
def consPiece (c : Char) : List (List Char) → List (List Char)
  | [] => [[c]]
  | piece :: pieces => (c :: piece) :: pieces

/-- The pieces of a row between its bars. A bar behind a backslash is part
of a piece. -/
def rowPieces (escaped : Bool) : List Char → List (List Char)
  | [] => [[]]
  | c :: text =>
    if c == '|' && !escaped then [] :: rowPieces false text
    else consPiece c (rowPieces (c == '\\') text)

/-- The pieces of a line that may be the head of a table. -/
def headPieces (escaped : Bool) : List Char → List (List Char)
  | [] => [[]]
  | c :: text =>
    if c == '|' && !escaped then [] :: headPieces false text
    else consPiece c (headPieces (c == '\\' && !escaped) text)

/-- The pieces that are cells: not what stands before a bar that begins
the row, nor blanks behind the last bar. -/
def cellsOf (text : List Char) (pieces : List (List Char)) : List (List Char) :=
  let pieces := if text.head? = some '|' then pieces.drop 1 else pieces
  if (pieces.getLast?.map (·.all isLineBlank)).getD false then pieces.dropLast else pieces

/-- A cell without the blanks around it. -/
def trimCell (cell : List Char) : List Char :=
  dropRightWhile isLineBlank (cell.dropWhile isLineBlank)

/-- The cells of a row. -/
def rowCells (text : List Char) : List (List Char) :=
  (cellsOf text (rowPieces false text)).map trimCell

/-- The cells of a row in a table with a number of columns: missing cells
are empty, and further cells are dropped. -/
def fitCells (columns : Nat) (cells : List (List Char)) : List (List Char) :=
  cells.take columns ++ List.replicate (columns - cells.length) []

/-- The alignment that a piece of the second line gives its column. Colons
stand before and behind hyphens; `started` tells whether one or the other
has been read. -/
def alignmentOf? (started : Bool) (alignment : Alignment) : List Char → Option Alignment
  | [] => some alignment
  | c :: text =>
    if c == ' ' then alignmentOf? started alignment text
    else if c == '-' then alignmentOf? true alignment text
    else if c == ':' then
      match started, alignment with
      | false, .none => alignmentOf? true .left text
      | true, .none => alignmentOf? true .right text
      | true, .left => alignmentOf? true .center text
      | _, _ => none
    else none

/-- The alignment of a column that a bar ends. It has a hyphen. -/
def columnOf? (piece : List Char) : Option Alignment :=
  if piece.contains '-' then alignmentOf? false .none piece else none

/-- **The columns of a table**, if a line is the second one of a table. It
has a bar and a hyphen. -/
def columns? (text : List Char) : Option (List Alignment) := do
  let indent := (text.takeWhile (· == ' ')).length
  let row := text.drop indent
  if 3 < indent || !row.contains '|' || !row.contains '-' then none
  else
    let pieces := (if row.head? = some '|' then row.drop 1 else row).splitOnP (· == '|')
    let ended ← pieces.dropLast.mapM columnOf?
    let last := pieces.getLastD []
    if last.all (· == ' ') then pure ended
    else pure (ended ++ [← alignmentOf? false .none last])

/-- **The columns of the table that two lines begin**, if they begin one:
the first line has a cell for every column. -/
def tableColumns? (pieces : List (List Char)) (first second : List Char) :
    Option (List Alignment) := do
  let columns ← columns? second
  if 1 < pieces.length && (cellsOf first pieces).length = columns.length then some columns
  else none

end PageSlots.Markdown

import PageSlots.Markdown.Line
import PageSlots.Markdown.RawHtml

/-!
# Markers

What a block is shows at the start of its first line, behind the
indentation. This module recognises the markers of each kind of block:
thematic breaks, headings and their underlines, fences, list items and
their check boxes, quotes and their alerts. A reader takes what is left of
a line; where blanks have to follow a marker it looks ahead to see them and
leaves them.

`interrupts` tells which of them may stand directly below the text of a
paragraph, where anything else would be more of the text.
-/

namespace PageSlots.Markdown

open PageSlots.Text

/-! ## Breaks and headings -/

/-- Whether a line is a thematic break: at least three of one mark, with
nothing but spaces and tabs between them. -/
def isThematicBreak (text : List Char) : Bool :=
  match text.head? with
  | none => false
  | some mark =>
    (mark == '*' || mark == '-' || mark == '_') &&
      text.all (fun c => c == mark || c == ' ' || c == '\t') && 3 ≤ text.count mark

/-- Whether a text is empty or begins with a blank. -/
def isSeparated (text : List Char) : Bool :=
  (text.head?.map isLineBlank).getD true

/-- The level of a heading that begins with number signs, and what follows
the signs. -/
def headingMark? (text : List Char) : Option (Nat × List Char) :=
  let level := (text.takeWhile (· == '#')).length
  let rest := text.drop level
  if 1 ≤ level && level ≤ 6 && isSeparated rest then some (level, rest) else none

/-- The text of a heading without the number signs that may close it. They
close it only behind a space. -/
def headingText (text : List Char) : List Char :=
  let text := dropRightWhile (· == ' ') (text.dropWhile isLineBlank)
  let body := dropRightWhile (· == '#') text
  match body.getLast? with
  | none => []
  | some c => if c == ' ' then dropRightWhile (· == ' ') body else text

/-- The level of the heading that a line underlines. -/
def underline? (text : List Char) : Option Nat :=
  match text with
  | [] => none
  | c :: _ =>
    if (text.dropWhile (· == c)).all isLineBlank then
      if c == '=' then some 1 else if c == '-' then some 2 else none
    else none

/-! ## Fences -/

/-- **The fence that begins a block of code.** -/
structure Fence where
  /-- What it is made of. -/
  mark : Char
  /-- How many of them. -/
  width : Nat
  /-- How far it is indented. -/
  indent : Nat
  deriving DecidableEq, Repr

/-- Read a fence: the fence, and the info string behind it. No backtick
follows a fence of backticks. -/
def fence? (indent : Nat) (text : List Char) : Option (Fence × List Char) :=
  match text.head? with
  | none => none
  | some mark =>
    let width := (text.takeWhile (· == mark)).length
    let info := text.drop width
    if (mark == '\x60' && !info.contains '\x60' || mark == '~') && 3 ≤ width then
      some ({ mark, width, indent }, dropRightWhile isLineBlank (info.dropWhile isLineBlank))
    else none

/-- Whether a line closes the block that a fence began. -/
def Fence.isClosedBy (fence : Fence) (text : List Char) : Bool :=
  fence.width ≤ (text.takeWhile (· == fence.mark)).length &&
    (text.dropWhile (· == fence.mark)).all (· == ' ')

/-! ## Lists -/

/-- **The marker of a list item**: its mark, and the number before the
mark if the list is numbered. -/
structure ListMark where
  /-- The bullet, or what follows the number. -/
  mark : Char
  /-- The number. -/
  number : Option Nat
  deriving DecidableEq, Repr

/-- The number that decimal digits denote. -/
def decimal (digits : List Char) : Nat :=
  digits.foldl (fun n d => n * 10 + (d.toNat - '0'.toNat)) 0

/-- Read the marker of a list item: the marker and its width. A number has
at most nine digits, and a space, a tab or the end of the line follows. -/
def listMark? (text : List Char) : Option (ListMark × Nat) :=
  let digits := text.takeWhile Char.isDigit
  let width := digits.length + 1
  let ends := match text.drop width with
    | [] => true
    | c :: _ => c == ' ' || c == '\t'
  match text.drop digits.length with
  | [] => none
  | mark :: _ =>
    if !ends then none
    else if digits.isEmpty then
      if mark == '-' || mark == '+' || mark == '*' then some ({ mark, number := none }, width)
      else none
    else if digits.length ≤ 9 && (mark == '.' || mark == ')') then
      some ({ mark, number := some (decimal digits) }, width)
    else none

/-- Read the check box of a task, which a blank follows: whether it is
checked. Its width is three. -/
def checkMark? : List Char → Option Bool
  | '[' :: c :: ']' :: blank :: _ =>
    if !isLineBlank blank then none
    else if isLineBlank c then some false
    else if c == 'x' || c == 'X' then some true
    else none
  | _ => none

/-! ## Quotes -/

/-- Read the marker of a quote: what is left behind it. One space belongs
to it. -/
def Cursor.quote? (c : Cursor) : Option Cursor :=
  match c.rest with
  | '>' :: _ => some (c.after 1).skipColumn
  | _ => none

/-- The kinds of alerts. -/
def alertNames : List String := ["note", "tip", "important", "warning", "caution"]

/-- Whether the first line of a quote makes it an alert. -/
def isAlert (text : List Char) : Bool :=
  match text with
  | '[' :: '!' :: text =>
    match text.dropWhile (· != ']') with
    | ']' :: rest =>
      alertNames.any (·.toList == asciiLower (text.takeWhile (· != ']'))) &&
        rest.all isLineBlank
    | _ => false
  | _ => false

/-! ## Interruptions -/

/-- Whether a list item interrupts a paragraph that it might also be text
of: it has content, and its number, if it has one, is one. -/
def ListMark.interrupts (mark : ListMark) (content : List Char) (next : Option Line) : Bool :=
  (mark.number.all (· == 1)) &&
    !(content.all isLineBlank && (next.map Line.isBlank).getD true)

/-- **Whether a line ends the paragraph above it.** `mayBeText` tells
whether the line stands where the paragraph does, so that a list item
might be text; `next` is the line after it. -/
def interrupts (mayBeText : Bool) (text : List Char) (next : Option Line) : Bool :=
  text.isEmpty || isThematicBreak text || (headingMark? text).isSome ||
    (fence? 0 text).isSome || text.head? = some '>' || (interruptingMarkup? text).isSome ||
    match listMark? text with
    | some (mark, width) => !mayBeText || mark.interrupts (text.drop width) next
    | none => false

end PageSlots.Markdown

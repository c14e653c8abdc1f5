import PageSlots.Markdown.Literal
import PageSlots.Text.Blank
import PageSlots.Text.CaseFold

/-!
# The parts of a link

A link has a text, and it has either a destination, perhaps with a title,
or a label under which both are defined elsewhere. The readers of this
module take a text from where such a part begins and give the part and
what follows it.

Two labels are the same if their words are, whatever the case of the
letters (`labelKey`).
-/

namespace PageSlots.Markdown

open PageSlots.Text

/-- Where a link leads, and its title, which is empty if it has none. -/
structure LinkTarget where
  /-- The destination. -/
  destination : List Char
  /-- The title. -/
  title : List Char := []
  deriving DecidableEq, Repr

/-- Put a character before what has been read. -/
def prepend (c : Char) (read : List Char × List Char) : List Char × List Char :=
  (c :: read.1, read.2)

/-! ## Labels -/

/-- Read a label behind its `[`, as it is written: a square bracket inside
it has a backslash. -/
def writtenLabel? (escaped : Bool) : List Char → Option (List Char × List Char)
  | [] => none
  | c :: text =>
    if escaped then (writtenLabel? false text).map (prepend c)
    else if c == '[' then none
    else if c == ']' then some ([], text)
    else (writtenLabel? (c == '\\') text).map (prepend c)

/-- The words between ASCII white space. -/
def asciiWords (text : List Char) : List (List Char) :=
  (text.splitOnP isAsciiSpace).filter (· ≠ [])

/-- A text with the backslashes before bars removed. -/
def unescapeBars : List Char → List Char
  | '\\' :: '|' :: text => '|' :: unescapeBars text
  | c :: text => c :: unescapeBars text
  | [] => []

/-- **What a label is compared by**: its words, without regard to case. -/
def labelKey (inTable : Bool) (label : List Char) : List Char :=
  let label := if inTable then unescapeBars label else label
  foldCase ((asciiWords label).intersperse [' ']).flatten

/-- **Read a label** behind its `[`. It has fewer than a thousand
characters, not all of them blank. -/
def label? (text : List Char) : Option (List Char × List Char) := do
  let (label, rest) ← writtenLabel? false text
  if label.length < 1000 && !label.all isAsciiSpace then some (label, rest) else none

/-! ## Destinations -/

/-- Read a destination behind its `<`, as it is written. -/
def pointedDestination? (escaped : Bool) : List Char → Option (List Char × List Char)
  | [] => none
  | c :: text =>
    if c == '\n' || c == '\r' then none
    else if escaped then (pointedDestination? false text).map (prepend c)
    else if c == '<' then none
    else if c == '>' then some ([], text)
    else (pointedDestination? (c == '\\' && startsEscapable text) text).map (prepend c)

/-- Read a destination without pointed brackets, as it is written, `depth`
parentheses deep. It ends at a blank, at a control character, and at a
parenthesis that closes none of its own. -/
def bareDestination? (limit : Nat) (escaped : Bool) (depth : Nat) :
    List Char → Option (List Char × List Char)
  | [] => if depth = 0 then some ([], []) else none
  | c :: text =>
    if escaped then (bareDestination? limit false depth text).map (prepend c)
    else if c.toNat ≤ 0x20 then if depth = 0 then some ([], c :: text) else none
    else if c == '(' then
      if limit < depth then none
      else (bareDestination? limit false (depth + 1) text).map (prepend c)
    else if c == ')' then
      if depth = 0 then some ([], c :: text)
      else (bareDestination? limit false (depth - 1) text).map (prepend c)
    else
      (bareDestination? limit (c == '\\' && startsEscapable text) depth text).map (prepend c)

/-- **Read a destination**, as it is written. -/
def destination? (limit : Nat) : List Char → Option (List Char × List Char)
  | '<' :: text => pointedDestination? false text
  | text => bareDestination? limit false 0 text

/-! ## Titles -/

/-- Read a title behind what opens it, as it is written. -/
def titleBody? (opening closing : Char) (escaped : Bool) :
    List Char → Option (List Char × List Char)
  | [] => none
  | c :: text =>
    if escaped then (titleBody? opening closing false text).map (prepend c)
    else if c == closing then some ([], text)
    else if c == opening then none
    else (titleBody? opening closing (c == '\\' && startsEscapable text) text).map (prepend c)

/-- **Read a title**, as it is written between its quotes or
parentheses. -/
def title? : List Char → Option (List Char × List Char)
  | '(' :: text => titleBody? '(' ')' false text
  | c :: text => if c == '"' || c == '\'' then titleBody? c c false text else none
  | [] => none

/-- A text without the spaces and tabs at the start of its lines, the
first line apart. -/
def dropIndents (atStart : Bool) : List Char → List Char
  | [] => []
  | c :: text =>
    if atStart && (c == ' ' || c == '\t') then dropIndents true text
    else c :: dropIndents (c == '\n') text

/-! ## Targets -/

/-- What follows the end of a line, where a text begins with one. -/
def afterEnding : List Char → List Char
  | '\r' :: '\n' :: text => text
  | c :: text => if c == '\n' || c == '\r' then text else c :: text
  | [] => []

/-- What follows blanks and at most one end of a line. -/
def skipGap (text : List Char) : List Char :=
  (afterEnding (text.dropWhile isLineBlank)).dropWhile isLineBlank

/-- **Read a target** behind its `(`, and the `)` that ends it. -/
def linkTarget? (inTable : Bool) (text : List Char) : Option (LinkTarget × List Char) := do
  let (written, rest) ← destination? 32 (skipGap text)
  let destination := unescape inTable written
  let rest := skipGap rest
  let (target, rest) :=
    match title? rest with
    | some (title, rest) =>
      ({ destination, title := unescape inTable (dropIndents false title) }, skipGap rest)
    | none => ({ destination : LinkTarget }, rest)
  match rest with
  | ')' :: rest => some (target, rest)
  | _ => none

end PageSlots.Markdown

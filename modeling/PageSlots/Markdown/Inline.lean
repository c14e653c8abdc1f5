import PageSlots.Markdown.Autolink
import PageSlots.Markdown.Definition
import PageSlots.Markdown.Emphasis
import PageSlots.Markdown.RawHtml

/-!
# The text of a block

The text of a block is read from left to right, once. What can be decided
at its first character is: escaped characters, code spans, addresses, tags
and line breaks (`token`). Two things have to wait. Runs of marks become
emphasis only when the whole text is known. And a square bracket begins the
text of a link only if its counterpart is followed by a target or if there
is a definition for it; until then it is kept open, with what stands before
it (`Bracket`).

A link contains no other link, so when one ends, no bracket that is still
open can begin a link any more. It can still begin an image.
-/

namespace PageSlots.Markdown

open PageSlots.Text

/-- **What a text is read with.** -/
structure InlineRules where
  /-- Whether tildes strike text through. -/
  gfm : Bool
  /-- Whether the text is a cell of a table. -/
  inTable : Bool
  /-- The definitions of the document. -/
  definitions : List Definition

/-- **What a text begins with**: the pieces it is read as, and what
follows. -/
structure Token where
  /-- The pieces. -/
  pieces : List Piece
  /-- The character that stands before what follows, unless a line starts
  there. -/
  before : Option Char
  /-- What follows. -/
  rest : List Char

/-- A single character. -/
def Token.char (c : Char) (rest : List Char) : Token where
  pieces := [.char c]
  before := some c
  rest := rest

/-- What stands between a text and one of its ends. -/
def beforeRest (text rest : List Char) : List Char :=
  text.take (text.length - rest.length)

/-! ## Code spans -/

/-- What follows the next run of exactly `width` backticks, when `seen`
backticks stand directly before the text. -/
def afterBackticks? (width seen : Nat) : List Char → Option (List Char)
  | [] => if seen = width then some [] else none
  | c :: text =>
    if c == '\x60' then afterBackticks? width (seen + 1) text
    else if seen = width then some (c :: text)
    else afterBackticks? width 0 text

/-- A text on one line: each end of a line becomes a space. In a table, a
bar loses its backslash. -/
def onOneLine (inTable : Bool) : List Char → List Char
  | [] => []
  | '\r' :: '\n' :: text => ' ' :: onOneLine inTable text
  | '\\' :: '|' :: text =>
    if inTable then '|' :: onOneLine inTable text
    else '\\' :: '|' :: onOneLine inTable text
  | c :: text => (if c == '\n' || c == '\r' then ' ' else c) :: onOneLine inTable text

/-- The code of a span. A space at each end is left out, unless there is
nothing but spaces. -/
def codeText (inTable : Bool) (written : List Char) : List Char :=
  let code := onOneLine inTable written
  if code.head? = some ' ' && code.getLast? = some ' ' && !code.all (· == ' ') then
    (code.drop 1).dropLast
  else code

/-- The code span that begins with `width` backticks before a text, if they
are closed. -/
def codeSpan? (inTable : Bool) (width : Nat) (text : List Char) :
    Option (Event × List Char) :=
  (afterBackticks? width 0 text).map fun rest =>
    let written := text.take (text.length - rest.length - width)
    (.code (String.ofList (codeText inTable written)), rest)

/-- A run of backticks at the start of a text. If a backslash escapes the
first of them, only the others can begin a code span. -/
def backticks (inTable escaped : Bool) (text : List Char) : Token :=
  let run := text.takeWhile (· == '\x60')
  let width := if escaped then run.length - 1 else run.length
  let rest := text.drop run.length
  let literal : Token := { pieces := run.map .char, before := some '\x60', rest }
  if width = 0 then literal
  else
    match codeSpan? inTable width rest with
    | none => literal
    | some (code, rest) =>
      let first := if escaped then [Piece.char '\x60'] else []
      { pieces := first ++ [.events [code]], before := some '\x60', rest }

/-! ## Other tokens -/

/-- The end of a line. The indentation of the next line is left out. -/
def lineBreak (piece : Piece) (text : List Char) : Token where
  pieces := [piece]
  before := none
  rest := (afterEnding text).dropWhile fun c => c == ' ' || c == '\t'

/-- Whether a text begins with the end of a line. -/
def atEnding (text : List Char) : Bool :=
  !text.isEmpty && startsEnding text

/-- A backslash before a text. -/
def backslash (inTable : Bool) (text : List Char) : Token :=
  match text with
  | [] => .char '\\' []
  | c :: rest =>
    if inTable && "\\|".toList.isPrefixOf text then .char '|' (text.drop 2)
    else if c == '\x60' then backticks inTable true text
    else if isAsciiPunctuation c then .char c rest
    else if atEnding text then lineBreak .backslash text
    else .char '\\' text

/-- Blanks at the start of a text. Before the end of a line they are left
out, and two of them break the line. -/
def blanks (c : Char) (text : List Char) : Token :=
  let rest := text.dropWhile isLineBlank
  if atEnding rest then
    let hard := rest.length < text.length
    lineBreak (.events [if hard then .hardBreak else .softBreak]) rest
  else .char c text

/-- A pointed bracket before a text: an address, markup, or the bracket
itself. -/
def pointedBracket (text : List Char) : Token :=
  if text.head? = some '\\' then .char '<' text
  else
    match autolink? text with
    | some (address, rest) =>
      let address := String.ofList address
      { pieces := [.events (surround (.link address "") [.text address])]
        before := some '>', rest }
    | none =>
      match inlineMarkup? text with
      | some rest =>
        let markup := String.ofList ('<' :: beforeRest text rest)
        { pieces := [.events [.inlineHtml markup]], before := some '>', rest }
      | none => .char '<' text

/-- A run of marks at the start of a text. -/
def marks (mark : Char) (before : Option Char) (text : List Char) : Token :=
  let length := (text.takeWhile (· == mark)).length
  let rest := text.drop length
  let run := MarkRun.between mark length before rest.head?
  let decided := !(run.opens || run.closes) || (mark == '~' && 2 < length)
  { pieces := if decided then List.replicate length (.char mark) else [.run run]
    before := some mark, rest }

/-- **What a text begins with**, square brackets apart. -/
def token (rules : InlineRules) (before : Option Char) (c : Char) (text : List Char) : Token :=
  if c == '\\' then backslash rules.inTable text
  else if c == '\x60' then backticks rules.inTable false (c :: text)
  else if c == '<' then pointedBracket text
  else if c == '*' || c == '_' || (rules.gfm && c == '~') then marks c before (c :: text)
  else if c == '\n' || c == '\r' then lineBreak (.events [.softBreak]) (c :: text)
  else if isLineBlank c then blanks c text
  else if c == '&' then
    match characterReference? text with
    | some (value, rest) => { pieces := value.map .char, before := some ';', rest }
    | none => .char c text
  else .char c text

/-! ## Links -/

/-- **A square bracket that may begin a link or an image.** -/
structure Bracket where
  /-- Whether it would begin an image. -/
  isImage : Bool
  /-- Whether it can still begin what it would. -/
  active : Bool
  /-- What stands behind it. -/
  text : List Char
  /-- The pieces before it, up to the bracket around it, latest first. -/
  before : List Piece

/-- The bracket as text, latest character first. -/
def Bracket.asText (b : Bracket) : List Piece :=
  if b.isImage then [.char '[', .char '!'] else [.char '[']

/-- **A text as far as it is read.** -/
structure InlineState where
  /-- The character before what is to be read next, unless a line starts
  there. -/
  before : Option Char := none
  /-- The pieces behind the last open bracket, latest first. -/
  pieces : List Piece := []
  /-- The open brackets, innermost first. -/
  brackets : List Bracket := []

/-- The label between a bracket and its counterpart, behind which a text
stands. -/
def Bracket.label? (b : Bracket) (text : List Char) : Option (List Char) :=
  match Markdown.label? b.text with
  | some (label, rest) => if rest.length = text.length then some label else none
  | none => none

/-- The target of what a bracket begins, and what follows it, given what
stands behind its counterpart: a target in parentheses, or the definition
of a label, which is the text between the brackets unless another one
follows. -/
def Bracket.target? (rules : InlineRules) (b : Bracket) (text : List Char) :
    Option (LinkTarget × List Char) :=
  let defined (label : List Char) := Markdown.target? rules.definitions
    (labelKey rules.inTable label)
  let inner := match text with
    | '(' :: rest => linkTarget? rules.inTable rest
    | _ => none
  inner.orElse fun _ =>
    let own (rest : List Char) := do
      let target ← defined (← b.label? text)
      pure (target, rest)
    match text with
    | '[' :: ']' :: rest => own rest
    | '[' :: rest =>
      match Markdown.label? rest with
      | some (label, rest) => (defined label).map fun target => (target, rest)
      | none => own text
    | _ => own text

namespace InlineState

/-- Open a bracket before a text. -/
def openBracket (s : InlineState) (isImage : Bool) (text : List Char) : InlineState where
  before := some '['
  brackets := { isImage, active := true, text, before := s.pieces } :: s.brackets

/-- A bracket that begins nothing, and what stands behind it, as text. -/
def abandon (s : InlineState) : InlineState :=
  match s.brackets with
  | [] => s
  | b :: outer => { s with pieces := s.pieces ++ b.asText ++ b.before, brackets := outer }

/-- What stands behind the innermost bracket becomes a link or an image. -/
def link (s : InlineState) (b : Bracket) (outer : List Bracket) (target : LinkTarget) :
    InlineState :=
  let destination := String.ofList target.destination
  let title := String.ofList target.title
  let tag : Tag := if b.isImage then .image destination title else .link destination title
  { before := some ')'
    pieces := .events (surround tag (emphasize s.pieces.reverse)) :: b.before
    brackets :=
      if b.isImage then outer
      else outer.map fun o => { o with active := o.active && o.isImage } }

/-- Close the innermost bracket before a text, and go on behind what the
bracket begins. -/
def closeBracket (rules : InlineRules) (s : InlineState) (text : List Char) :
    InlineState × List Char :=
  let unlinked :=
    { s.abandon with pieces := .char ']' :: s.abandon.pieces, before := some ']' }
  match s.brackets with
  | [] => (unlinked, text)
  | b :: outer =>
    match if b.active then b.target? rules text else none with
    | none => (unlinked, text)
    | some (target, rest) => (s.link b outer target, rest)

/-- Read a text, which has fewer than `fuel` characters. -/
def read (rules : InlineRules) : Nat → InlineState → List Char → InlineState
  | fuel + 1, s, c :: text =>
    if c == '!' && text.head? = some '[' then
      read rules fuel (s.openBracket true (text.drop 1)) (text.drop 1)
    else if c == '[' then read rules fuel (s.openBracket false text) text
    else if c == ']' then
      let (s, rest) := s.closeBracket rules text
      read rules fuel s rest
    else
      let t := token rules s.before c text
      read rules fuel { s with before := t.before, pieces := t.pieces.reverse ++ s.pieces } t.rest
  | _, s, _ => s

/-- All pieces, in order, with the brackets that are still open as text. -/
def allPieces (s : InlineState) : List Piece :=
  (Nat.repeat abandon s.brackets.length s).pieces.reverse

end InlineState

/-- **The events of a text.** -/
def inlineEvents (rules : InlineRules) (text : List Char) : List Event :=
  emphasize (InlineState.read rules (text.length + 1) {} text).allPieces

end PageSlots.Markdown

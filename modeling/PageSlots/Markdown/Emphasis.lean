import PageSlots.Markdown.Event
import PageSlots.Text.Blank
import PageSlots.Text.Punctuation

/-!
# Emphasis

A text is first cut into pieces (`Piece`), in which the runs of marks that
may begin or end emphasis are still undecided. `emphasize` decides on them
from left to right. A run that may end emphasis looks for the nearest run
before it that may begin it; all undecided runs between the two become
text. The pair emphasizes what stands between as often as the shorter of
the two runs allows, twice as strong first.
-/

namespace PageSlots.Markdown

open PageSlots.Text

/-- **A run of marks** that may begin or end emphasis. -/
structure MarkRun where
  /-- The mark. -/
  mark : Char
  /-- How many of them. -/
  length : Nat
  /-- Whether it may begin emphasis. -/
  opens : Bool
  /-- Whether it may end emphasis. -/
  closes : Bool
  deriving DecidableEq, Repr

/-- Whether a run of a mark may stand in the middle of a word. -/
def isIntraword (mark : Char) (length : Nat) : Bool :=
  mark == '*' || (mark == '~' && 1 < length)

/-- Whether a run between two characters may begin emphasis: it has its
text on its right side. -/
def mayOpen (mark : Char) (length : Nat) (before after : Option Char) : Bool :=
  match after, before with
  | none, _ => false
  | some after, none => !isBlank after
  | some after, some before =>
    !isBlank after &&
      (!isPunctuation after && (isIntraword mark length || mark == '~' && before == '~') ||
        isBlank before || isPunctuation before)

/-- Whether a run between two characters may end emphasis: it has its text
on its left side. -/
def mayClose (mark : Char) (length : Nat) (before after : Option Char) : Bool :=
  match before, after with
  | none, _ => false
  | some before, none => !isBlank before
  | some before, some after =>
    !isBlank before &&
      (!isPunctuation before && isIntraword mark length || mark == '~' && before == '~' ||
        isBlank after || isPunctuation after)

/-- The run of marks between two characters. -/
def MarkRun.between (mark : Char) (length : Nat) (before after : Option Char) : MarkRun where
  mark := mark
  length := length
  opens := mayOpen mark length before after
  closes := mayClose mark length before after

/-- **A piece of a text.** -/
inductive Piece where
  | char (c : Char)
  /-- What is decided already. -/
  | events (events : List Event)
  | run (run : MarkRun)
  /-- A backslash at the end of a line. It breaks the line if something
  follows. -/
  | backslash

/-! ## Undecided runs -/

/-- **A run that may begin emphasis**, with what stands before it. -/
structure Opener where
  /-- The run. -/
  run : MarkRun
  /-- How many of its marks are not used yet. -/
  left : Nat
  /-- What stands between the opener before it and this one, latest
  first. -/
  before : List Event

/-- **A text that is being emphasized.** -/
structure Emphasizing where
  /-- The undecided runs, latest first. -/
  openers : List Opener := []
  /-- What stands behind the last of them, latest first. -/
  content : List Event := []
  /-- How many of the openers no run of tildes reaches any more. -/
  tildeBound : Nat := 0

/-- Add a character to events, latest first. -/
def pushChar (events : List Event) (c : Char) : List Event :=
  match events with
  | .text text :: events => .text (text.push c) :: events
  | events => .text (String.singleton c) :: events

/-- Add a character several times. -/
def pushChars (events : List Event) (c : Char) (count : Nat) : List Event :=
  Nat.repeat (pushChar · c) count events

/-- Openers with what stands behind them, as text. -/
def flatten (openers : List Opener) (content : List Event) : List Event :=
  openers.foldl
    (fun content o => content ++ pushChars o.before o.run.mark o.left) content

/-- Whether a run that ends emphasis can end what another one begins. Of
runs that may do both, the lengths must not add up to a multiple of three,
unless both are such multiples. Tildes need as many tildes. -/
def MarkRun.matches (closer opener : MarkRun) : Bool :=
  closer.mark == opener.mark &&
    (closer.mark != '~' || closer.length == opener.length) &&
    (!closer.opens && !(opener.opens && opener.closes) ||
      (closer.length + opener.length) % 3 != 0 || closer.length % 3 == 0)

/-- What a single or a double mark makes of what stands inside. -/
def emphasisTag (mark : Char) (double : Bool) : Tag :=
  if mark == '~' then .strikethrough else if double then .strong else .emphasis

/-- What starts, what stands inside, and what ends. -/
def surround (tag : Tag) (inside : List Event) : List Event :=
  .start tag :: inside ++ [.stop tag.toEnd]

/-- What a number of marks makes of what stands inside. -/
def emphasized (mark : Char) : Nat → List Event → List Event
  | 0, inside => inside
  | 1, inside => surround (emphasisTag mark false) inside
  | count + 2, inside => emphasized mark count (surround (emphasisTag mark true) inside)

namespace Emphasizing

/-- The opener that a run ends, with those behind it and those before
it. -/
def findOpener? (e : Emphasizing) (run : MarkRun) :
    Option (List Opener × Opener × List Opener) :=
  let bound := if run.mark == '~' then e.tildeBound else 0
  let reached := e.openers.take (e.openers.length - bound)
  match reached.findIdx? fun o => run.matches o.run with
  | none => none
  | some i =>
    match e.openers.drop i with
    | opener :: outer => some (e.openers.take i, opener, outer)
    | [] => none

/-- Let a run end emphasis as often as it can: how many of its marks are
left. -/
def close (run : MarkRun) : Nat → Emphasizing → Nat × Emphasizing
  | 0, e => (0, e)
  | left + 1, e =>
    match e.findOpener? run with
    | none =>
      let bound := if run.mark == '~' then e.openers.length else e.tildeBound
      (left + 1, { e with tildeBound := bound })
    | some (inner, opener, outer) =>
      let used := min (left + 1) opener.left
      let inside := (flatten inner e.content).reverse
      let content := (emphasized run.mark used inside).reverse
      let tildeBound := min e.tildeBound outer.length
      if used < opener.left then
        let opener := { opener with left := opener.left - used }
        (0, { openers := opener :: outer, content, tildeBound })
      else
        close run (left - (used - 1))
          { openers := outer, content := content ++ opener.before, tildeBound }
termination_by left => left

/-- Read a run. What is left of it when it has ended what it can may begin
emphasis itself. -/
def readRun (e : Emphasizing) (run : MarkRun) : Emphasizing :=
  let (left, e) := if run.closes then close run run.length e else (run.length, e)
  if left = 0 then e
  else if run.opens then
    { e with openers := { run, left, before := e.content } :: e.openers, content := [] }
  else { e with content := pushChars e.content run.mark left }

/-- Read pieces, and give the events of the whole text. -/
def readPieces (e : Emphasizing) : List Piece → List Event
  | [] => (flatten e.openers e.content).reverse
  | .char c :: pieces => { e with content := pushChar e.content c }.readPieces pieces
  | .events events :: pieces =>
    { e with content := events.reverse ++ e.content }.readPieces pieces
  | .run run :: pieces => (e.readRun run).readPieces pieces
  | .backslash :: pieces =>
    let content :=
      if pieces.isEmpty then pushChar e.content '\\' else .hardBreak :: e.content
    { e with content }.readPieces pieces

end Emphasizing

/-- **The events of a text** that is cut into pieces. -/
def emphasize (pieces : List Piece) : List Event :=
  ({} : Emphasizing).readPieces pieces

end PageSlots.Markdown

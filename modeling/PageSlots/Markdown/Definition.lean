import PageSlots.Markdown.LinkPart
import PageSlots.Markdown.Marker

/-!
# Definitions

A definition gives a label a target. It stands where a paragraph could, and
it may spread over several lines: one end of a line may stand before the
destination, one before the title, and the title may have more. What is
read here is the text that would otherwise be the paragraph; what is left
of it after a definition starts at the start of a line.

Of several definitions of a label the first one counts (`target?`).
-/

namespace PageSlots.Markdown

open PageSlots.Text

/-- **A label and its target.** -/
structure Definition where
  /-- What the label is compared by. -/
  key : List Char
  /-- The target. -/
  target : LinkTarget
  deriving DecidableEq, Repr

/-- The target that a key has by the first of its definitions. -/
def target? (definitions : List Definition) (key : List Char) : Option LinkTarget :=
  (definitions.find? (·.key == key)).map (·.target)

/-- Whether a text is empty or begins with the end of a line. -/
def startsEnding : List Char → Bool
  | [] => true
  | c :: _ => c == '\n' || c == '\r'

/-- What follows the end of a line, if only blanks stand before it. -/
def lineEnd? (text : List Char) : Option (List Char) :=
  let text := text.dropWhile isLineBlank
  if startsEnding text then some (afterEnding text) else none

/-- What follows blanks and at most one end of a line, and whether there is
one. Something follows on the line. -/
def gap? (text : List Char) : Option (Bool × List Char) :=
  let text := text.dropWhile isLineBlank
  if startsEnding text then
    let text := (afterEnding text).dropWhile isLineBlank
    if startsEnding text then none else some (true, text)
  else some (false, text)

/-- Whether a line of a text, the first one apart, would underline those
before it as a heading. -/
def hasUnderline (text : List Char) : Bool :=
  (linesOf text).tail.any fun line =>
    line.ending != [] && (underline? (line.content.dropWhile (· == ' '))).isSome

/-- Read what follows the destination of a definition: its title, if it has
one, and the end of the line. A title on a line of its own that cannot be
read is no part of the definition. -/
def definedTitle? (text : List Char) : Option (List Char × List Char) :=
  match gap? text with
  | none => (lineEnd? text).map fun rest => ([], rest)
  | some (onNewLine, inner) =>
    if inner.length = text.length then none
    else
      let titled := do
        let (title, rest) ← title? inner
        let rest ← lineEnd? rest
        pure (title, rest)
      if onNewLine then titled.orElse fun _ => (lineEnd? text).map fun rest => ([], rest)
      else titled

/-- **Read a definition** at the start of a text: the definition, and the
lines that follow it. -/
def definition? : List Char → Option (Definition × List Char)
  | '[' :: text => do
    let (label, text) ← label? text
    if hasUnderline label then none
    else
      match text with
      | ':' :: text =>
        let (_, text) ← gap? text
        let (destination, rest) ← destination? 1 text
        if rest.length = text.length then none
        else
          let (title, rest) ← definedTitle? rest
          pure ({ key := labelKey false label
                  target := { destination := unescape false destination
                              title := unescape false title } }, rest)
      | _ => none
  | _ => none

end PageSlots.Markdown

import PageSlots.Markdown.NamedCharacter
import PageSlots.Markup.Entity
import PageSlots.Text.Punctuation

/-!
# Escaped text

A character that means something in markdown is written for itself with a
backslash before it or as a character reference. Inside a table a bar
divides cells, so there a bar in a cell has a backslash of its own, and two
backslashes before a bar are that bar, too.

`unescape` gives the text that is meant. It serves the parts of a link and
the info string of a fence, which have no markup of their own.
-/

namespace PageSlots.Markdown

open PageSlots.Markup PageSlots.Text

/-- The character with a code. There is no character with the code zero, so
it stands for the replacement character. -/
def characterOf? (code : Nat) : Option Char :=
  scalar? (if code = 0 then 0xFFFD else code)

/-- Read the digits of a numeric reference, at most `limit`, and their
semicolon: the character, and what follows. -/
def numericReference? (base limit : Nat) (isDigit : Char → Bool) (text : List Char) :
    Option (List Char × List Char) := do
  let (digits, rest) ← digitsToSemicolon isDigit text
  if digits.length ≤ limit then
    (characterOf? (numeral base digits)).map fun c => ([c], rest)
  else none

/-- **Read a character reference** behind its `&`: the text it stands for,
and what follows. -/
def characterReference? : List Char → Option (List Char × List Char)
  | '#' :: 'x' :: text => numericReference? 16 6 isHexDigit text
  | '#' :: 'X' :: text => numericReference? 16 6 isHexDigit text
  | '#' :: text => numericReference? 10 7 Char.isDigit text
  | text => do
    let (name, rest) ← digitsToSemicolon Char.isAlphanum text
    (namedCharacter? name).map fun value => (value, rest)

/-- Whether a text begins with a character that a backslash before it
would escape. -/
def startsEscapable : List Char → Bool
  | c :: _ => isAsciiPunctuation c
  | [] => false

/-- The text that is meant, when its first `skip` characters are already
accounted for. -/
def unescapeFrom (inTable : Bool) : Nat → List Char → List Char
  | _, [] => []
  | skip + 1, _ :: text => unescapeFrom inTable skip text
  | 0, c :: text =>
    if c == '\\' && inTable && "\\|".toList.isPrefixOf text then
      '|' :: unescapeFrom inTable 2 text
    else if c == '\\' && startsEscapable text then
      text.take 1 ++ unescapeFrom inTable 1 text
    else if c == '&' then
      match characterReference? text with
      | some (value, rest) => value ++ unescapeFrom inTable (text.length - rest.length) text
      | none => c :: unescapeFrom inTable 0 text
    else if c == '\r' then unescapeFrom inTable 0 text
    else c :: unescapeFrom inTable 0 text

/-- **The text that is meant**, without backslashes, references and
carriage returns. -/
def unescape (inTable : Bool) (text : List Char) : List Char :=
  unescapeFrom inTable 0 text

@[simp] theorem unescape_nil (inTable : Bool) : unescape inTable [] = [] := rfl

end PageSlots.Markdown

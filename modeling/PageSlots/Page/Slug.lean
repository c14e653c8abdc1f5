import PageSlots.Text.Alphanumeric
import PageSlots.Text.Blank
import PageSlots.Text.LowerCase

/-!
# Slugs

The slug of a heading is the text from which its id is made: the letters
and digits in lower case, with one hyphen for every run of separators
between them. It is built in one pass over the text. The pass remembers
whether a hyphen would be out of place – at the start, or right after
another one – and a hyphen that is left at the end is taken away.
-/

namespace PageSlots.Page

open PageSlots.Text

/-- Whether a character separates the words of a slug. -/
def isSeparator (c : Char) : Bool :=
  !isAlphanumeric c && (isBlank c || c == '-' || c == '_')

/-- The pass over a text. `joined` says that what has been written is
empty or ends with a hyphen, so that no other hyphen may follow. -/
def slugPass (joined : Bool) : List Char → List Char
  | [] => []
  | c :: text =>
    if isAlphanumeric c then toLower c ++ slugPass false text
    else if !joined && isSeparator c then '-' :: slugPass true text
    else slugPass joined text

/-- A text without a hyphen at its end. -/
def dropLastHyphen (text : List Char) : List Char :=
  if text.getLast? = some '-' then text.dropLast else text

/-- The slug of a text, as characters. -/
def slugChars (text : List Char) : List Char :=
  dropLastHyphen (slugPass true (trim text))

/-- **The slug of a text**: its letters and digits in lower case, joined
by single hyphens where separators stood. -/
def slug (text : String) : String :=
  String.ofList (slugChars text.toList)

end PageSlots.Page

import PageSlots.Text.CharSet

/-!
# Blanks

Five notions of blank meet in a page, and they are five different sets:
the white space of Unicode (`isBlank`), which separates the words of a
heading and of a fence's info string; the four blanks of a tag
(`isTagBlank`), which end a tag's name; the blanks of markup that may
stand before the `>` of a raw text element's end tag (`isAsciiBlank`);
those of a line of markdown (`isLineBlank`); and these together with what
ends a line (`isAsciiSpace`).
-/

namespace PageSlots.Text

/-- The characters with the Unicode property `White_Space`. -/
def blanks : CharSet where
  ranges := [
    (0x9, 0xD), (0x20, 0x20), (0x85, 0x85), (0xA0, 0xA0), (0x1680, 0x1680),
    (0x2000, 0x200A), (0x2028, 0x2029), (0x202F, 0x202F), (0x205F, 0x205F),
    (0x3000, 0x3000)]

/-- Whether a character is white space. -/
def isBlank (c : Char) : Bool :=
  blanks.contains c

/-- Whether a character separates the parts of a tag: a space, a tab, a
line feed or a carriage return. -/
def isTagBlank (c : Char) : Bool :=
  c == ' ' || c == '\t' || c == '\n' || c == '\r'

/-- Whether a character is one of the blanks of markup: those of a tag
and the form feed. -/
def isAsciiBlank (c : Char) : Bool :=
  isTagBlank c || c == '\x0c'

/-- Whether a character is a blank inside a line: a space, a tab, a
vertical tab or a form feed. -/
def isLineBlank (c : Char) : Bool :=
  c == ' ' || c == '\t' || c == '\x0b' || c == '\x0c'

/-- Whether a character is a blank inside a line or ends one. -/
def isAsciiSpace (c : Char) : Bool :=
  isLineBlank c || c == '\n' || c == '\r'

/-- The end of a text without the last characters of a kind. -/
def dropRightWhile (p : Char → Bool) (text : List Char) : List Char :=
  (text.reverse.dropWhile p).reverse

/-- A text without the white space at its two ends. -/
def trim (text : List Char) : List Char :=
  dropRightWhile isBlank (text.dropWhile isBlank)

/-- The words of a text: what stands between white space. -/
def words (text : List Char) : List (List Char) :=
  (text.splitOnP isBlank).filter (· ≠ [])

end PageSlots.Text

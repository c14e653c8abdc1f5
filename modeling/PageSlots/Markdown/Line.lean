import PageSlots.Text.Blank

/-!
# Lines

A document is read line by line. A line keeps what ends it, so that no
text is lost (`concat_lines`).

What is left of a line while its indentation and the markers of quotes
and lists are taken away is a `Cursor`. Indentation is counted in columns:
a tab reaches to the next multiple of four, and when only some of its
columns are taken the others stay pending, to be taken later or to be
written as spaces.
-/

namespace PageSlots.Markdown

open PageSlots.Text

/-- **A line**: what stands in it and what ends it. -/
structure Line where
  /-- The characters before the end of the line. -/
  content : List Char
  /-- What ends the line: a line feed, a carriage return, both, or
  nothing at the end of the document. -/
  ending : List Char
  deriving DecidableEq, Repr

/-- Put a character before a line. -/
def Line.cons (c : Char) (line : Line) : Line :=
  { line with content := c :: line.content }

/-- Everything a line consists of. -/
def Line.text (line : Line) : List Char :=
  line.content ++ line.ending

/-- Whether a line has nothing but blanks. -/
def Line.isBlank (line : Line) : Bool :=
  line.content.all isLineBlank

/-- The lines of a text. -/
def linesOf : List Char → List Line
  | [] => []
  | '\r' :: '\n' :: text => ⟨[], ['\r', '\n']⟩ :: linesOf text
  | c :: text =>
    if c == '\n' || c == '\r' then ⟨[], [c]⟩ :: linesOf text
    else
      match linesOf text with
      | [] => [⟨[c], []⟩]
      | line :: lines => line.cons c :: lines

/-- **The lines make up the text.** -/
theorem concat_lines (text : List Char) : (linesOf text).flatMap Line.text = text := by
  fun_induction linesOf text with
  | case1 => rfl
  | case2 text ih => simp [Line.text, ih]
  | case3 c text _ h ih => simp [Line.text, ih]
  | case4 c text _ h hl ih =>
    rw [hl] at ih
    simp_all [Line.text]
  | case5 c text _ h line lines hl ih =>
    rw [hl] at ih
    simp_all [Line.text, Line.cons]

/-- A line ending as it is kept in a block of code: a line feed stands for
a carriage return with a line feed. -/
def plainEnding (ending : List Char) : List Char :=
  if ending = ['\r', '\n'] then ['\n'] else ending

/-! ## Cursors -/

/-- **What is left of a line.** -/
structure Cursor where
  /-- The characters that are left. -/
  rest : List Char
  /-- What ends the line. -/
  ending : List Char
  /-- The columns since the last tab, or since the start of the line. -/
  column : Nat := 0
  /-- The columns of the last tab that are not taken yet. -/
  pending : Nat := 0
  deriving DecidableEq, Repr

/-- The whole of a line. -/
def Line.start (line : Line) : Cursor where
  rest := line.content
  ending := line.ending

namespace Cursor

/-- Take indentation of up to `wanted` columns from what follows a tab:
the number of columns that are missing, and what is left. -/
def takeColumns (ending : List Char) : Nat → Nat → List Char → Nat × Cursor
  | 0, column, rest => (0, { rest, ending, column })
  | wanted + 1, column, ' ' :: rest => takeColumns ending wanted (column + 1) rest
  | wanted + 1, column, '\t' :: rest =>
    let width := 4 - column % 4
    if width ≤ wanted + 1 then takeColumns ending (wanted + 1 - width) 0 rest
    else (0, { rest, ending, pending := width - (wanted + 1) })
  | wanted + 1, column, rest => (wanted + 1, { rest, ending, column })
termination_by _ _ rest => rest.length

/-- **Take indentation of up to `wanted` columns**: how many there are,
and what is left. -/
def indentUpTo (wanted : Nat) (c : Cursor) : Nat × Cursor :=
  if wanted ≤ c.pending then (wanted, { c with pending := c.pending - wanted })
  else
    let (missing, c) := takeColumns c.ending (wanted - c.pending) c.column c.rest
    (wanted - missing, c)

/-- Take indentation of exactly `wanted` columns, if there is so much. -/
def indent? (wanted : Nat) (c : Cursor) : Option Cursor :=
  let (found, c) := c.indentUpTo wanted
  if found = wanted then some c else none

/-- Take one column, if there is one. -/
def skipColumn (c : Cursor) : Cursor :=
  (c.indentUpTo 1).2

/-- Go on behind a marker. -/
def after (c : Cursor) (width : Nat) : Cursor :=
  { c with rest := c.rest.drop width, column := c.column + width }

/-- Whether nothing is left of the line. -/
def isAtEnd (c : Cursor) : Bool :=
  c.rest.isEmpty

/-- Whether nothing but blanks is left of the line. -/
def isBlank (c : Cursor) : Bool :=
  c.rest.all isLineBlank

/-- What is left without spaces and tabs before it. -/
def skipIndent (c : Cursor) : Cursor :=
  { c with rest := c.rest.dropWhile fun c => c == ' ' || c == '\t', pending := 0 }

/-- What is left, with its end, as a line of code: pending columns are
written as spaces. -/
def code (c : Cursor) : List Char :=
  List.replicate c.pending ' ' ++ c.rest ++ plainEnding c.ending

end Cursor

end PageSlots.Markdown

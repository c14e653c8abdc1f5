import PageSlots.Settings.Toml.Scalar
import PageSlots.Settings.Toml.Value

/-!
# Reading a settings file

A file is a sequence of statements, one on a line: a header opens a table
or the next table of an array, and `key = value` gives a key of the table
opened last its value. Arrays and inline tables may go over several
lines, with comments in between.

Every step of a reader consumes a character at least, so as many steps as
the file has characters are enough. Arrays and inline tables may stand in
each other, and dotted keys may be long, but only up to a limit
(`nestingLimit`).
-/

namespace PageSlots.Settings.Toml

/-- A text without the spaces that it begins with. -/
def dropSpaces (text : List Char) : List Char :=
  text.dropWhile isSpace

/-- A text without the blanks, line ends and comments that it begins with.
`comment` tells that a comment has begun. -/
def dropTrivia (comment : Bool) : List Char → Option (List Char)
  | [] => some []
  | '\n' :: rest => dropTrivia false rest
  | '\r' :: '\n' :: rest => dropTrivia false rest
  | c :: rest =>
    if comment then if isPlain c then dropTrivia true rest else none
    else if isSpace c then dropTrivia false rest
    else if c = '#' then dropTrivia true rest
    else some (c :: rest)

/-- The text after the end of a line. Spaces and a comment may come
before it. -/
def finishLine (text : List Char) : Option (List Char) :=
  let text := dropSpaces text
  let (comment, rest) :=
    if text.head? = some '#' then (text.takeWhile isPlain, text.dropWhile isPlain) else ([], text)
  match comment, rest with
  | _, [] => some []
  | _, '\n' :: rest => some rest
  | _, '\r' :: '\n' :: rest => some rest
  | _, _ => none

/-- Whether a character may stand in a key without quotes. -/
def isKeyChar (c : Char) : Bool :=
  c.isAlphanum || c = '_' || c = '-'

/-- Read a key without dots. -/
def readKey (text : List Char) : Option (String × List Char) :=
  match text with
  | '"' :: _ | '\'' :: _ => (readShortString text).map fun (key, rest) => (String.ofList key, rest)
  | _ =>
    let key := text.takeWhile isKeyChar
    if key.isEmpty then none else some (String.ofList key, text.dropWhile isKeyChar)

/-- How many keys a dotted key has at most, and how many arrays and inline
tables stand around a value. -/
def nestingLimit : Nat := 80

/-- Read a dotted key of so many keys at most. -/
def readKeys : Nat → List Char → Option (List String × List Char)
  | 0, _ => none
  | room + 1, text => do
    let (key, rest) ← readKey (dropSpaces text)
    match dropSpaces rest with
    | '.' :: rest =>
      let (path, rest) ← readKeys room rest
      return (key :: path, rest)
    | rest => return ([key], rest)

/-- **Read a dotted key.** -/
def readPath (text : List Char) : Option (List String × List Char) :=
  readKeys nestingLimit text

mutual

/-- **Read a value** in which so many arrays and inline tables may stand in
each other. -/
def readValue : Nat → Nat → List Char → Option (Value × List Char)
  | 0, _, _ => none
  | steps + 1, room, text =>
    match text with
    | '"' :: _ | '\'' :: _ => (readString text).map fun (s, rest) => (.string (String.ofList s), rest)
    | '[' :: rest =>
      if room = 0 then none
      else (readItems steps (room - 1) rest).map fun (items, rest) => (.array items, rest)
    | '{' :: rest =>
      if room = 0 then none
      else (readEntries steps (room - 1) [] rest).map fun (es, rest) => (.table (itemValues es), rest)
    | _ =>
      let token := scalarToken text
      let rest := text.drop token.length
      if token = "true".toList then some (.boolean true, rest)
      else if token = "false".toList then some (.boolean false, rest)
      else if isNumber token || isDate token || isTime token || isDateTime token then
        some (.other, rest)
      else none

/-- Read the items of an array up to its closing bracket. -/
def readItems : Nat → Nat → List Char → Option (List Value × List Char)
  | 0, _, _ => none
  | steps + 1, room, text => do
    match ← dropTrivia false text with
    | ']' :: rest => return ([], rest)
    | text =>
      let (v, rest) ← readValue steps room text
      match ← dropTrivia false rest with
      | ',' :: rest =>
        let (items, rest) ← readItems steps room rest
        return (v :: items, rest)
      | ']' :: rest => return ([v], rest)
      | _ => none

/-- Read the entries of an inline table up to its closing brace. -/
def readEntries : Nat → Nat → Items → List Char → Option (Items × List Char)
  | 0, _, _, _ => none
  | steps + 1, room, entries, text => do
    match ← dropTrivia false text with
    | '}' :: rest => return (entries, rest)
    | text =>
      let (path, rest) ← readPath text
      match dropSpaces rest with
      | '=' :: rest =>
        let (v, rest) ← readValue steps room (dropSpaces rest)
        let entries ← assign v path entries
        match ← dropTrivia false rest with
        | ',' :: rest => readEntries steps room entries rest
        | '}' :: rest => return (entries, rest)
        | _ => none
      | _ => none

end

/-- A file that is being read. -/
structure Document where
  /-- The entries of the file. -/
  entries : Items := []
  /-- The header opened last. -/
  header : List String := []

/-- Read the statement that a text begins with, and the end of its
line. -/
def Document.readStatement (d : Document) (text : List Char) : Option (Document × List Char) := do
  match text with
  | '[' :: '[' :: rest =>
    let (path, rest) ← readPath rest
    match rest with
    | ']' :: ']' :: rest =>
      let entries ← openNext path d.entries
      return (⟨entries, path⟩, ← finishLine rest)
    | _ => none
  | '[' :: rest =>
    let (path, rest) ← readPath rest
    match rest with
    | ']' :: rest =>
      let entries ← openTable path d.entries
      return (⟨entries, path⟩, ← finishLine rest)
    | _ => none
  | _ =>
    let (path, rest) ← readPath text
    match rest with
    | '=' :: rest =>
      let (v, rest) ← readValue (text.length + 1) nestingLimit (dropSpaces rest)
      let entries ← atHeader (assign v path) d.header d.entries
      return ({ d with entries }, ← finishLine rest)
    | _ => none

/-- Read statements to the end of a text. -/
def Document.read : Nat → Document → List Char → Option Document
  | 0, _, _ => none
  | steps + 1, d, text => do
    match ← dropTrivia false text with
    | [] => return d
    | text =>
      let (d, rest) ← d.readStatement text
      d.read steps rest

/-- **Read a settings file**: its entries, unless it is malformed. A mark
of the byte order at the start is passed over. -/
def readDocument (text : String) : Option (List (String × Value)) :=
  let text :=
    match text.toList with
    | '\uFEFF' :: rest => rest
    | text => text
  (Document.read (text.length + 1) {} text).map fun d => itemValues d.entries

end PageSlots.Settings.Toml

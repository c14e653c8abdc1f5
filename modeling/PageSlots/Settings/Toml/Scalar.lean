/-!
# Strings and scalars of a settings file

A string is written in one of four ways: between double quotes, where a
backslash begins an escape, or between single quotes, where it does not,
and either on one line or between three quotes over several lines. All
other scalars are single tokens. Of those only the two truth values are
told apart; numbers, dates and times are checked for their form.

A reader returns what it has read and the text that follows, or nothing
if the text is malformed.
-/

namespace PageSlots.Settings.Toml

/-- What a reader returns. -/
abbrev Read (α : Type) := Option (α × List Char)

/-- Add a character to what has been read. -/
def Read.push (c : Char) (r : Read (List Char)) : Read (List Char) :=
  r.map fun (text, rest) => (c :: text, rest)

/-- Whether a character may stand in a comment or a string. -/
def isPlain (c : Char) : Bool :=
  c = '\t' || (' ' ≤ c && c ≠ '\x7f')

/-- Whether a character separates tokens of a line. -/
def isSpace (c : Char) : Bool :=
  c = ' ' || c = '\t'

/-! ## Strings -/

/-- The value of hexadecimal digits. -/
def hexValue? (digits : List Char) : Option Nat :=
  digits.foldlM (fun n c =>
    if c.isDigit then some (n * 16 + (c.toNat - '0'.toNat))
    else if 'a' ≤ c ∧ c ≤ 'f' then some (n * 16 + (c.toNat - 'a'.toNat + 10))
    else if 'A' ≤ c ∧ c ≤ 'F' then some (n * 16 + (c.toNat - 'A'.toNat + 10))
    else none) 0

/-- The character whose code is given in hexadecimal. -/
def hexChar? (digits : List Char) : Option Char := do
  let n ← hexValue? digits
  if n.isValidChar then some (Char.ofNat n) else none

/-- The character for which a backslash and a letter stand. -/
def escapeOf? : Char → Option Char
  | 'b' => some '\x08'
  | 't' => some '\t'
  | 'n' => some '\n'
  | 'f' => some '\x0c'
  | 'r' => some '\r'
  | 'e' => some '\x1b'
  | '"' => some '"'
  | '\\' => some '\\'
  | _ => none

/-- Read a string after its opening double quote. -/
def readBasic : List Char → Read (List Char)
  | '"' :: rest => some ([], rest)
  | '\\' :: 'x' :: a :: b :: rest => (hexChar? [a, b]).bind fun c => (readBasic rest).push c
  | '\\' :: 'u' :: a :: b :: c :: d :: rest =>
    (hexChar? [a, b, c, d]).bind fun c => (readBasic rest).push c
  | '\\' :: 'U' :: a :: b :: c :: d :: e :: f :: g :: h :: rest =>
    (hexChar? [a, b, c, d, e, f, g, h]).bind fun c => (readBasic rest).push c
  | '\\' :: c :: rest => (escapeOf? c).bind fun c => (readBasic rest).push c
  | c :: rest => if isPlain c && c ≠ '\\' then (readBasic rest).push c else none
  | [] => none

/-- Read a string after its opening single quote. -/
def readLiteral : List Char → Read (List Char)
  | '\'' :: rest => some ([], rest)
  | c :: rest => if isPlain c then (readLiteral rest).push c else none
  | [] => none

/-- Whether nothing but spaces stands before the end of the line. -/
def endsLine (text : List Char) : Bool :=
  match text.dropWhile isSpace with
  | '\n' :: _ => true
  | '\r' :: '\n' :: _ => true
  | _ => false

/-- Read a string of several lines after its opening double quotes. A
backslash at the end of a line drops the line end and all blanks up to the
next text; `dropping` tells that this is under way. -/
def readLongBasic (dropping : Bool) : List Char → Read (List Char)
  | '"' :: '"' :: '"' :: '"' :: '"' :: rest => some (['"', '"'], rest)
  | '"' :: '"' :: '"' :: '"' :: rest => some (['"'], rest)
  | '"' :: '"' :: '"' :: rest => some ([], rest)
  | '\r' :: '\n' :: rest =>
    if dropping then readLongBasic true rest else (readLongBasic false rest).push '\n'
  | '\n' :: rest =>
    if dropping then readLongBasic true rest else (readLongBasic false rest).push '\n'
  | '\\' :: 'x' :: a :: b :: rest =>
    (hexChar? [a, b]).bind fun c => (readLongBasic false rest).push c
  | '\\' :: 'u' :: a :: b :: c :: d :: rest =>
    (hexChar? [a, b, c, d]).bind fun c => (readLongBasic false rest).push c
  | '\\' :: 'U' :: a :: b :: c :: d :: e :: f :: g :: h :: rest =>
    (hexChar? [a, b, c, d, e, f, g, h]).bind fun c => (readLongBasic false rest).push c
  | '\\' :: c :: rest =>
    if endsLine (c :: rest) then readLongBasic true (c :: rest)
    else (escapeOf? c).bind fun c => (readLongBasic false rest).push c
  | c :: rest =>
    if dropping && isSpace c then readLongBasic true rest
    else if isPlain c && c ≠ '\\' then (readLongBasic false rest).push c
    else none
  | [] => none

/-- Read a string of several lines after its opening single quotes. -/
def readLongLiteral : List Char → Read (List Char)
  | '\'' :: '\'' :: '\'' :: '\'' :: '\'' :: rest => some (['\'', '\''], rest)
  | '\'' :: '\'' :: '\'' :: '\'' :: rest => some (['\''], rest)
  | '\'' :: '\'' :: '\'' :: rest => some ([], rest)
  | '\r' :: '\n' :: rest => (readLongLiteral rest).push '\n'
  | '\n' :: rest => (readLongLiteral rest).push '\n'
  | c :: rest => if isPlain c then (readLongLiteral rest).push c else none
  | [] => none

/-- A text without the line end that it begins with. -/
def dropLineEnd : List Char → List Char
  | '\n' :: rest => rest
  | '\r' :: '\n' :: rest => rest
  | text => text

/-- Read a string that stands on one line. -/
def readShortString : List Char → Read (List Char)
  | '"' :: rest => readBasic rest
  | '\'' :: rest => readLiteral rest
  | _ => none

/-- **Read a string.** -/
def readString : List Char → Read (List Char)
  | '"' :: '"' :: '"' :: rest => readLongBasic false (dropLineEnd rest)
  | '\'' :: '\'' :: '\'' :: rest => readLongLiteral (dropLineEnd rest)
  | text => readShortString text

/-! ## Other scalars -/

/-- Whether a character may stand in a scalar that is no string. -/
def isScalarChar (c : Char) : Bool :=
  c.isAlphanum || c = '+' || c = '-' || c = '_' || c = '.' || c = ':'

/-- Whether digits are one or more, with single underscores between
them. -/
def areDigits (isDigit : Char → Bool) : List Char → Bool
  | [] => false
  | [c] => isDigit c
  | c :: '_' :: rest => isDigit c && areDigits isDigit rest
  | c :: rest => isDigit c && areDigits isDigit rest

/-- A text without the sign that it begins with. -/
def dropSign : List Char → List Char
  | '+' :: rest => rest
  | '-' :: rest => rest
  | text => text

/-- Whether digits are a whole number without needless zeros. -/
def isWhole (digits : List Char) : Bool :=
  areDigits Char.isDigit digits && (digits.head? ≠ some '0' || digits.length = 1)

/-- Whether a token is the part of a number from its exponent on. -/
def isExponent : List Char → Bool
  | [] => true
  | c :: rest => (c = 'e' || c = 'E') && areDigits Char.isDigit (dropSign rest)

/-- Whether a token is a number. -/
def isNumber (token : List Char) : Bool :=
  match token with
  | '0' :: 'x' :: digits =>
    areDigits (fun c => c.isDigit || ('a' ≤ c && c ≤ 'f') || ('A' ≤ c && c ≤ 'F')) digits
  | '0' :: 'o' :: digits => areDigits (fun c => '0' ≤ c && c ≤ '7') digits
  | '0' :: 'b' :: digits => areDigits (fun c => c = '0' || c = '1') digits
  | _ =>
    let body := dropSign token
    if body = "inf".toList || body = "nan".toList then true
    else
      let isPart (c : Char) : Bool := c.isDigit || c = '_'
      let whole := body.takeWhile isPart
      match body.dropWhile isPart with
      | '.' :: rest =>
        isWhole whole && areDigits Char.isDigit (rest.takeWhile isPart) &&
          isExponent (rest.dropWhile isPart)
      | rest => isWhole whole && isExponent rest

/-- The number that decimal digits make. -/
def decimal (digits : List Char) : Nat :=
  digits.foldl (fun n c => n * 10 + (c.toNat - '0'.toNat)) 0

/-- Whether a text is two digits, and their number in a range. -/
def isTwoDigits (low high : Nat) (text : List Char) : Bool :=
  text.length = 2 && text.all Char.isDigit && low ≤ decimal text && decimal text ≤ high

/-- The last day of a month. -/
def lastDay (year month : Nat) : Nat :=
  if month = 2 then
    if year % 4 = 0 ∧ (year % 100 ≠ 0 ∨ year % 400 = 0) then 29 else 28
  else if month = 4 ∨ month = 6 ∨ month = 9 ∨ month = 11 then 30
  else 31

/-- Whether a token is a date of the calendar. -/
def isDate (token : List Char) : Bool :=
  let year := token.take 4
  let month := (token.drop 5).take 2
  token.length = 10 && year.all Char.isDigit && token[4]? = some '-' &&
    isTwoDigits 1 12 month && token[7]? = some '-' &&
    isTwoDigits 1 (lastDay (decimal year) (decimal month)) (token.drop 8)

/-- Whether a token is a time of day. Seconds may be left out. -/
def isTime (token : List Char) : Bool :=
  isTwoDigits 0 23 (token.take 2) && token[2]? = some ':' &&
    isTwoDigits 0 59 ((token.drop 3).take 2) &&
    match token.drop 5 with
    | [] => true
    | ':' :: seconds =>
      isTwoDigits 0 60 (seconds.take 2) &&
        match seconds.drop 2 with
        | [] => true
        | '.' :: fraction => !fraction.isEmpty && fraction.all Char.isDigit
        | _ => false
    | _ => false

/-- Whether a token is a time of day with an offset. -/
def isOffsetTime (token : List Char) : Bool :=
  match token.getLast? with
  | some 'Z' | some 'z' => isTime token.dropLast
  | _ =>
    let offset := token.drop (token.length - 6)
    isTime (token.take (token.length - 6)) && (offset.head? = some '+' || offset.head? = some '-') &&
      isTwoDigits 0 23 ((offset.drop 1).take 2) && offset[3]? = some ':' &&
      isTwoDigits 0 59 (offset.drop 4)

/-- Whether a token is a date with a time of day. -/
def isDateTime (token : List Char) : Bool :=
  isDate (token.take 10) &&
    match token.drop 10 with
    | c :: time => (c = 'T' || c = 't' || c = ' ') && (isTime time || isOffsetTime time)
    | [] => false

/-- The token that a text begins with. A date and a time are one token,
also with a space between them. -/
def scalarToken (text : List Char) : List Char :=
  let token := text.takeWhile isScalarChar
  if isDate token then
    match text.drop token.length with
    | ' ' :: c :: rest =>
      if c.isDigit then token ++ ' ' :: (c :: rest).takeWhile isScalarChar else token
    | _ => token
  else token

end PageSlots.Settings.Toml

/-!
# Character references

The tree keeps character data as it is written, so a place that needs
plain text – the slug of a heading – decodes the references first. A
reference is `&name;`, `&#digits;` or `&#xdigits;`, and it stands for a
character when its name is one of the known ones or its number is that of
a Unicode scalar value. Any other reference stays as written. The scan
goes from left to right and never reads what it has decoded again.
-/

namespace PageSlots.Markup

/-- The named references and the code points they stand for. -/
def namedReferences : List (String × Nat) := [
  ("amp", 0x26), ("lt", 0x3C), ("gt", 0x3E), ("quot", 0x22), ("apos", 0x27),
  ("nbsp", 0xA0), ("mdash", 0x2014), ("ndash", 0x2013), ("ldquo", 0x201C),
  ("rdquo", 0x201D), ("lsquo", 0x2018), ("rsquo", 0x2019), ("bull", 0x2022),
  ("hellip", 0x2026), ("rarr", 0x2192), ("larr", 0x2190), ("harr", 0x2194),
  ("uarr", 0x2191), ("darr", 0x2193), ("le", 0x2264), ("ge", 0x2265),
  ("ne", 0x2260), ("plusmn", 0xB1), ("times", 0xD7), ("divide", 0xF7),
  ("copy", 0xA9), ("reg", 0xAE), ("trade", 0x2122), ("euro", 0x20AC),
  ("pound", 0xA3), ("yen", 0xA5), ("cent", 0xA2), ("deg", 0xB0),
  ("para", 0xB6), ("sect", 0xA7), ("laquo", 0xAB), ("raquo", 0xBB),
  ("middot", 0xB7)]

/-- Whether a character is a hexadecimal digit, of either case. -/
def isHexDigit (c : Char) : Bool :=
  c.isDigit || ('a' ≤ c && c ≤ 'f') || ('A' ≤ c && c ≤ 'F')

/-- The value of a digit, up to base sixteen. -/
def digitValue (c : Char) : Nat :=
  if c.isDigit then c.toNat - '0'.toNat
  else if 'a' ≤ c then c.toNat - 'a'.toNat + 10
  else c.toNat - 'A'.toNat + 10

/-- The number that digits denote in a base, however many they are. -/
def numeral (base : Nat) (digits : List Char) : Nat :=
  digits.foldl (fun n d => n * base + digitValue d) 0

/-- The character with a code, if the code is a scalar value: no
surrogate, and not beyond U+10FFFF. -/
def scalar? (code : Nat) : Option Char :=
  if code.isValidChar then some (Char.ofNat code) else none

/-- What stands between the `&` and the `;` of a reference. -/
inductive Reference where
  /-- A name, such as `amp`. -/
  | named (name : List Char)
  /-- A number in base ten or sixteen. -/
  | numeric (base : Nat) (digits : List Char)

/-- The character a reference stands for, if it stands for one. -/
def Reference.decode : Reference → Option Char
  | .named name =>
    (namedReferences.find? (·.1.toList == name)).map (Char.ofNat ·.2)
  | .numeric base digits => scalar? (numeral base digits)

/-- Digits of a kind up to a semicolon: the digits and what follows the
semicolon. At least one digit is required. -/
def digitsToSemicolon (isDigit : Char → Bool) (text : List Char) :
    Option (List Char × List Char) :=
  match text.takeWhile isDigit, text.dropWhile isDigit with
  | d :: digits, ';' :: rest => some (d :: digits, rest)
  | _, _ => none

/-- The reference that a text begins with, after its `&`, and what
follows its semicolon. -/
def reference? : List Char → Option (Reference × List Char)
  | [] => none
  | '#' :: text =>
    match text with
    | 'x' :: text | 'X' :: text =>
      (digitsToSemicolon isHexDigit text).map fun (digits, rest) =>
        (.numeric 16 digits, rest)
    | text =>
      (digitsToSemicolon Char.isDigit text).map fun (digits, rest) =>
        (.numeric 10 digits, rest)
  | c :: text =>
    if c.isAlpha then
      (digitsToSemicolon Char.isAlphanum (c :: text)).map fun (name, rest) =>
        (.named name, rest)
    else none

/-- What is left after digits and a semicolon is shorter. -/
theorem length_lt_of_digitsToSemicolon {p : Char → Bool} {text digits rest : List Char}
    (h : digitsToSemicolon p text = some (digits, rest)) : rest.length < text.length := by
  unfold digitsToSemicolon at h
  split at h
  · rename_i d ds r htake hdrop
    simp only [Option.some.injEq, Prod.mk.injEq] at h
    have hs : text.takeWhile p ++ text.dropWhile p = text := List.takeWhile_append_dropWhile
    rw [htake, hdrop] at hs
    rw [← hs, ← h.2]
    simp
    omega
  · simp at h

/-- **What is left after a reference is shorter**, so a scan that goes on
from there ends. -/
theorem length_lt_of_reference? {text rest : List Char} {r : Reference}
    (h : reference? text = some (r, rest)) : rest.length < text.length := by
  have key : ∀ {p : Char → Bool} {t : List Char} {f : List Char → Reference},
      (digitsToSemicolon p t).map (fun (d, s) => (f d, s)) = some (r, rest) →
      rest.length < t.length := by
    intro p t f hm
    obtain ⟨⟨digits, s⟩, hd, he⟩ := Option.map_eq_some_iff.1 hm
    simp only [Prod.mk.injEq] at he
    exact he.2 ▸ length_lt_of_digitsToSemicolon hd
  unfold reference? at h
  split at h
  · simp at h
  · split at h
    all_goals
      have := key h
      simp only [List.length_cons] at *
      omega
  · split at h
    · exact key h
    · simp at h

/-- What a reference is decoded to: the character it stands for, or else
the reference as it is written. -/
def Reference.decodeOr (r : Reference) (written : List Char) : List Char :=
  match r.decode with
  | some c => [c]
  | none => written

/-- A text with its references decoded. -/
def decodeChars : List Char → List Char
  | [] => []
  | '&' :: text =>
    match _h : reference? text with
    | some (r, rest) =>
      r.decodeOr ('&' :: text.take (text.length - rest.length)) ++ decodeChars rest
    | none => '&' :: decodeChars text
  | c :: text => c :: decodeChars text
termination_by text => text.length
decreasing_by
  · exact Nat.lt_succ_of_lt (length_lt_of_reference? _h)
  · exact Nat.lt_succ_self _
  · exact Nat.lt_succ_self _

/-- **A text with its character references decoded.** A reference that
stands for no character is left as written. -/
def decodeReferences (text : String) : String :=
  String.ofList (decodeChars text.toList)

@[simp] theorem decodeChars_nil : decodeChars [] = [] := by
  simp [decodeChars]

@[simp] theorem toList_decodeReferences (text : String) :
    (decodeReferences text).toList = decodeChars text.toList := by
  simp [decodeReferences]

end PageSlots.Markup

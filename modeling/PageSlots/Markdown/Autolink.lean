/-!
# Addresses in pointed brackets

An address between `<` and `>` is a link to itself. It is a scheme with
what follows its colon, or an address of electronic mail.
-/

namespace PageSlots.Markdown

/-- What stands before the first `>` of a text, and what follows it. -/
def beforeBracket? (text : List Char) : Option (List Char × List Char) :=
  match text.dropWhile (· != '>') with
  | _ :: rest => some (text.takeWhile (· != '>'), rest)
  | [] => none

/-- Whether a text is a scheme of two to thirty-two characters, a colon, and
anything but blanks, control characters and pointed brackets. -/
def isUri (text : List Char) : Bool :=
  let scheme := text.takeWhile fun c => c.isAlphanum || c == '.' || c == '-' || c == '+'
  match text.drop scheme.length with
  | ':' :: rest =>
    2 ≤ scheme.length && scheme.length ≤ 32 && (scheme.head?.map Char.isAlpha).getD false &&
      rest.all fun c => 0x20 < c.toNat && c != '<'
  | _ => false

/-- Whether a character may stand before the `@` of a mail address. -/
def isMailboxChar (c : Char) : Bool :=
  c.isAlphanum || ".!#$%&'*+/=?^_\x60\x7b|\x7d~-".toList.contains c

/-- Whether a text is a part of the name of a host, such as stand between
its dots. -/
def isHostLabel (label : List Char) : Bool :=
  label.all (fun c => c.isAlphanum || c == '-') && label.length ≤ 63 &&
    (label.head?.map (· != '-')).getD false && (label.getLast?.map (· != '-')).getD false

/-- Whether a text is a mail address. -/
def isMailAddress (text : List Char) : Bool :=
  let mailbox := text.takeWhile isMailboxChar
  match text.drop mailbox.length with
  | '@' :: host => !mailbox.isEmpty && (host.splitOnP (· == '.')).all isHostLabel
  | _ => false

/-- **Read an address** behind its `<`: the address, and what follows its
`>`. -/
def autolink? (text : List Char) : Option (List Char × List Char) := do
  let (address, rest) ← beforeBracket? text
  if isUri address || isMailAddress address then some (address, rest) else none

end PageSlots.Markdown

/-!
# What can be wrong with markup

Reading is lenient: stray end tags, unclosed elements and bare `<` signs
are no faults. What remains is a construct that does not end before the
input does, a declaration that is none, and an attribute without the
value it announces.
-/

namespace PageSlots.Markup

/-- Why a construct cannot be read. -/
inductive ConstructFault where
  /-- A tag without its `>`. -/
  | unclosedTag
  /-- A quoted value in a tag without its closing quote. -/
  | unclosedValue (quote : Char)
  /-- A comment without its `-->`, or a `<!-` that opens none. -/
  | unclosedComment
  /-- A section of character data without its `]]>`, or a `<![` that opens
  none. -/
  | unclosedCharacterData
  /-- A document type without its `>`, or a `<!d` that opens none. -/
  | unclosedDoctype
  /-- A processing instruction without its `?>`. -/
  | unclosedInstruction
  /-- A declaration of the version of the markup without its `?>`. -/
  | unclosedDeclaration
  /-- A `<!` that opens nothing known. -/
  | unknownMarkup
  /-- A document type that names none. -/
  | namelessDoctype
  deriving DecidableEq, Repr

/-- What a fault says. -/
def ConstructFault.message : ConstructFault → String
  | .unclosedTag => "tag not closed: `>` not found before end of input"
  | .unclosedValue quote =>
    "attribute value not closed: `" ++ quote.toString ++ "` not found before end of input"
  | .unclosedComment => "comment not closed: `-->` not found before end of input"
  | .unclosedCharacterData => "CDATA not closed: `]]>` not found before end of input"
  | .unclosedDoctype => "DOCTYPE not closed: `>` not found before end of input"
  | .unclosedInstruction =>
    "processing instruction not closed: `?>` not found before end of input"
  | .unclosedDeclaration =>
    "XML declaration not closed: `?>` not found before end of input"
  | .unknownMarkup => "unknown or missed symbol in markup"
  | .namelessDoctype =>
    "`<!DOCTYPE>` declaration does not contain a name of a document type"

/-- The class of a fault: all but one are faults of syntax. -/
def ConstructFault.className : ConstructFault → String
  | .namelessDoctype => "ill-formed document"
  | _ => "syntax error"

/-- Why an attribute cannot be read. -/
inductive AttributeFault where
  /-- A `=` with nothing after it. -/
  | missingValue
  /-- A quoted value that the tag ends before its closing quote. -/
  | unclosedQuote (quote : Char)
  deriving DecidableEq, Repr

/-- What a fault says that is noticed at a byte of the tag. -/
def AttributeFault.message (position : Nat) : AttributeFault → String
  | .missingValue =>
    "position " ++ toString position ++ ": `=` must be followed by an attribute value"
  | .unclosedQuote quote =>
    "position " ++ toString position ++ ": missing closing quote `" ++ quote.toString ++
      "` in attribute value"

/-- **Why a fragment of markup cannot be read.** -/
inductive MarkupFault where
  /-- A construct cannot be read; the position is a byte of the
  fragment. -/
  | malformed (position : Nat) (fault : ConstructFault)
  /-- An attribute cannot be read; the position is a byte of its tag. -/
  | attribute (position : Nat) (fault : AttributeFault)
  deriving DecidableEq, Repr

/-- What a fault says. -/
def MarkupFault.message : MarkupFault → String
  | .malformed position _ => "malformed markup at byte " ++ toString position
  | .attribute _ _ => "malformed attribute"

/-- What lies behind a fault, outermost first. -/
def MarkupFault.causes : MarkupFault → List String
  | .malformed _ fault => [fault.className ++ ": " ++ fault.message, fault.message]
  | .attribute position fault => [fault.message position]

end PageSlots.Markup

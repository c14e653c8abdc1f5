/-!
# Escaping

Text that goes into the content of an element or between the quotes of
an attribute has the five characters that markup gives a meaning to
written as references. Everything else stays as it is.
-/

namespace PageSlots.Markup

/-- How a character is written in content and in quoted values. -/
def escapeChar (c : Char) : List Char :=
  if c = '&' then "&amp;".toList
  else if c = '<' then "&lt;".toList
  else if c = '>' then "&gt;".toList
  else if c = '"' then "&quot;".toList
  else if c = '\'' then "&#39;".toList
  else [c]

/-- A text with its markup characters escaped, character by character. -/
def escapeChars (text : List Char) : List Char :=
  text.flatMap escapeChar

/-- **A text, escaped** for the content of an element or for a quoted
attribute value. -/
def escape (text : String) : String :=
  String.ofList (escapeChars text.toList)

@[simp] theorem escapeChars_nil : escapeChars [] = [] := rfl

@[simp] theorem escapeChars_cons (c : Char) (text : List Char) :
    escapeChars (c :: text) = escapeChar c ++ escapeChars text := by
  simp [escapeChars]

@[simp] theorem escapeChars_append (s t : List Char) :
    escapeChars (s ++ t) = escapeChars s ++ escapeChars t := by
  simp [escapeChars]

@[simp] theorem toList_escape (text : String) :
    (escape text).toList = escapeChars text.toList := by
  simp [escape]

/-- Escaping works character by character, so a concatenation may be
escaped piece by piece. -/
theorem escape_append (s t : String) : escape (s ++ t) = escape s ++ escape t := by
  apply String.toList_injective
  simp

end PageSlots.Markup

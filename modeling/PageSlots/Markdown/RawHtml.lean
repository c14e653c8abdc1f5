import PageSlots.Text.Blank
import PageSlots.Text.Search

/-!
# Markup inside markdown

Markup may stand in the text of a paragraph and may make up a block of its
own. This module recognises both. In a text, `inlineMarkup?` reads one
tag, comment, instruction, declaration or CDATA section behind its `<`.
At the start of a line, `markupBlock?` decides whether a block of markup
begins there and where such a block ends: one that begins with a comment
or with an element whose content is no markdown ends with a certain text,
every other one ends before a blank line.
-/

namespace PageSlots.Markdown

open PageSlots.Text

/-! ## Tags -/

/-- Read the name of a tag: what follows it. -/
def tagName? : List Char → Option (List Char)
  | c :: text =>
    if c.isAlpha then some (text.dropWhile fun c => c.isAlphanum || c == '-') else none
  | [] => none

/-- Whether an attribute's name can begin with a character. -/
def beginsAttribute (c : Char) : Bool :=
  c.isAlpha || c == '_' || c == ':'

/-- Whether an attribute's name can go on with a character. -/
def continuesAttribute (c : Char) : Bool :=
  c.isAlphanum || c == '_' || c == ':' || c == '.' || c == '-'

/-- Whether a value without quotes can hold a character. -/
def isBareValueChar (c : Char) : Bool :=
  !(isTagBlank c || c == '"' || c == '\'' || c == '=' || c == '<' || c == '>' || c == '\x60')

/-- Read up to and including a closing quote: what follows it. -/
def afterQuote? (quote : Char) (text : List Char) : Option (List Char) :=
  match text.dropWhile (· != quote) with
  | _ :: rest => some rest
  | [] => none

/-- Read the value of an attribute: what follows it. -/
def attributeValue? : List Char → Option (List Char)
  | [] => none
  | c :: text =>
    if c == '"' || c == '\'' then afterQuote? c text
    else if isBareValueChar c then some (text.dropWhile isBareValueChar)
    else none

/-- Read an attribute, with its value if it has one: what follows it. -/
def attribute? : List Char → Option (List Char)
  | [] => none
  | c :: text =>
    if beginsAttribute c then
      let afterName := text.dropWhile continuesAttribute
      match afterName.dropWhile isAsciiSpace with
      | '=' :: text => attributeValue? (text.dropWhile isAsciiSpace)
      | _ => some afterName
    else none

/-- Read the attributes of a tag and its end: what follows the tag. There
are blanks before each attribute. No tag has more attributes than
characters, which is what the first argument counts. -/
def tagEnd? : Nat → List Char → Option (List Char)
  | 0, _ => none
  | fuel + 1, text =>
    match text.dropWhile isAsciiSpace with
    | '>' :: rest => some rest
    | '/' :: '>' :: rest => some rest
    | '/' :: _ => none
    | inner =>
      if (text.head?.map isAsciiSpace).getD false then
        (attribute? inner).bind (tagEnd? fuel)
      else none

/-- Read a tag behind its `<`: what follows it. -/
def tag? : List Char → Option (List Char)
  | '/' :: text =>
    match (tagName? text).map (·.dropWhile isLineBlank) with
    | some ('>' :: rest) => some rest
    | _ => none
  | text => (tagName? text).bind (tagEnd? text.length)

/-! ## Markup in a text -/

/-- Read up to and including a text: what follows it. -/
def afterText? (stop : String) (text : List Char) : Option (List Char) :=
  (breakOn? stop.toList text).map (·.2)

/-- Read the body of a CDATA section, which ends at its first square
brackets: what follows the section. -/
def sectionEnd? (text : List Char) : Option (List Char) :=
  match text.dropWhile (· != ']') with
  | [] => none
  | brackets =>
    match brackets.dropWhile (· == ']') with
    | '>' :: rest => some rest
    | _ => none

/-- **Read markup in a text**, behind its `<`: what follows it. -/
def inlineMarkup? : List Char → Option (List Char)
  | '!' :: '-' :: text =>
    match text with
    | '-' :: _ => afterText? "-->" ('-' :: text)
    | _ => none
  | '!' :: '[' :: text =>
    if "CDATA[".toList.isPrefixOf text then sectionEnd? (text.drop 6) else none
  | '!' :: c :: text => if c.isAlpha then afterText? ">" text else none
  | '?' :: text => afterText? "?>" text
  | text => tag? text

/-! ## Blocks of markup -/

/-- **Where a block of markup ends.** -/
inductive MarkupEnd where
  /-- After the line that holds a text. -/
  | within (stop : String)
  /-- Before a blank line. -/
  | beforeBlank
  deriving DecidableEq, Repr

/-- The elements whose content is no markdown, with their end tags. -/
def verbatimTags : List (String × String) := [
  ("pre", "</pre>"), ("style", "</style>"), ("script", "</script>"),
  ("textarea", "</textarea>")]

/-- What begins markup that is no element, with what ends it. -/
def verbatimMarks : List (String × String) := [
  ("!--", "-->"), ("?", "?>"), ("![CDATA[", "]]>")]

/-- The elements that begin a block wherever they stand at the start of a
line. -/
def blockTags : List String := [
  "address", "article", "aside", "base", "basefont", "blockquote", "body",
  "caption", "center", "col", "colgroup", "dd", "details", "dialog", "dir",
  "div", "dl", "dt", "fieldset", "figcaption", "figure", "footer", "form",
  "frame", "frameset", "h1", "h2", "h3", "h4", "h5", "h6", "head", "header",
  "hr", "html", "iframe", "legend", "li", "link", "main", "menu",
  "menuitem", "nav", "noframes", "ol", "optgroup", "option", "p", "param",
  "search", "section", "summary", "table", "tbody", "td", "tfoot", "th",
  "thead", "title", "tr", "track", "ul"]

/-- Whether a text begins with a name, in either case, and the name ends
there. -/
def startsWithName (name : String) (text : List Char) : Bool :=
  let name := name.toList
  asciiLower (text.take name.length) == name &&
    match text.drop name.length with
    | [] => true
    | c :: _ => isAsciiSpace c || c == '>'

/-- What ends the markup that begins behind a `<` and reaches to a certain
text, if such markup begins there. -/
def verbatimEnd? (text : List Char) : Option String :=
  match verbatimTags.find? fun (name, _) => startsWithName name text with
  | some (_, stop) => some stop
  | none =>
    match verbatimMarks.find? fun (mark, _) => mark.toList.isPrefixOf text with
    | some (_, stop) => some stop
    | none =>
      match text with
      | '!' :: c :: _ => if c.isAlpha then some ">" else none
      | _ => none

/-- Whether the tag of an element that begins a block stands behind a
`<`. -/
def isBlockTag (text : List Char) : Bool :=
  let text := if text.head? = some '/' then text.drop 1 else text
  let name := asciiLower (text.takeWhile Char.isAlphanum)
  blockTags.any (·.toList == name) &&
    match text.dropWhile Char.isAlphanum with
    | [] => true
    | '/' :: rest => rest.head? = some '>'
    | c :: _ => c == ' ' || c == '\t' || c == '>'

/-- Whether a line has nothing but a tag behind its `<`. -/
def isLoneTag (text : List Char) : Bool :=
  match tag? text with
  | some rest => rest.all isLineBlank
  | none => false

/-- The markup that may begin in the middle of a paragraph, at the start
of a line. -/
def interruptingMarkup? : List Char → Option MarkupEnd
  | '<' :: text =>
    match verbatimEnd? text with
    | some stop => some (.within stop)
    | none => if isBlockTag text then some .beforeBlank else none
  | _ => none

/-- **The markup that a line begins with**: where it ends. -/
def markupBlock? : List Char → Option MarkupEnd
  | '<' :: text =>
    (interruptingMarkup? ('<' :: text)).orElse fun _ =>
      if isLoneTag text then some .beforeBlank else none
  | _ => none

end PageSlots.Markdown

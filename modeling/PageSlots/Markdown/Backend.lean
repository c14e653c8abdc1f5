import PageSlots.Markup.Escape
import PageSlots.Text.Search

/-!
# Backends

Most of what a document's events write is the same for every format. A
`Backend` decides on the rest: how a code block and an image look, where
a link leads, and what the check box of a task is. `Backend.html` writes
pages: a code block names its language in a class, and a link to another
source of the documentation leads to the page made from it.
-/

namespace PageSlots.Markdown

open PageSlots.Markup PageSlots.Text

/-- An image with the text that stands for it. -/
structure Image where
  /-- Where the image is. -/
  source : String
  /-- The title, empty if there is none. -/
  title : String
  /-- The text that stands for the image. -/
  alt : String
  deriving DecidableEq, Repr

/-- The check box of a task. -/
def checkBox (checked : Bool) : String :=
  if checked then "<input type=\"checkbox\" checked disabled> "
  else "<input type=\"checkbox\" disabled> "

/-- **What a format decides on.** -/
structure Backend where
  /-- A code block with its language and its code. -/
  codeBlock : Option String → String → String
  /-- An image. -/
  image : Image → String
  /-- Where a link leads. -/
  linkTarget : String → String := fun destination => destination
  /-- The check box of a task. -/
  taskMarker : Bool → String := checkBox

/-! ## Pages -/

/-- Whether a character may stand in the scheme of an address. -/
def isSchemeChar (c : Char) : Bool :=
  c.isAlphanum || c == '+' || c == '-' || c == '.'

/-- Whether an address begins with a scheme and a colon. -/
def hasScheme (address : List Char) : Bool :=
  match address.dropWhile isSchemeChar with
  | ':' :: _ => (address.head?.map isSchemeChar).getD false
  | _ => false

/-- **The page to which a link leads**: the ending `.md` of a path becomes
`.html`, before the fragment. Addresses with a scheme or a host, fragments
and other files have no page. -/
def pageTarget? (destination : List Char) : Option (List Char) :=
  if destination.head? = some '#' || "//".toList.isPrefixOf destination ||
      hasScheme destination then none
  else
    let path := destination.takeWhile (· != '#')
    let fragment := destination.dropWhile (· != '#')
    if ".md".toList.isSuffixOf path then
      some (path.take (path.length - 3) ++ ".html".toList ++ fragment)
    else none

/-- The title of an image as an attribute, left out if it is empty. -/
def titleAttribute (title : String) : String :=
  if title.isEmpty then "" else " title=\"" ++ escape title ++ "\""

/-- **The backend for pages.** -/
def Backend.html : Backend where
  codeBlock lang code :=
    let langClass :=
      match lang with
      | none => ""
      | some lang => " class=\"language-" ++ escape lang ++ "\""
    "<pre><code" ++ langClass ++ ">" ++ escape code ++ "</code></pre>"
  image i :=
    "<img src=\"" ++ escape i.source ++ "\"" ++ titleAttribute i.title ++
      " alt=\"" ++ escape i.alt ++ "\">"
  linkTarget destination :=
    match pageTarget? destination.toList with
    | none => destination
    | some target => String.ofList target

end PageSlots.Markdown

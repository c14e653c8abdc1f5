/-!
# Kinds of elements

Some tags decide how an element is read and written: a void element has
neither content nor an end tag, and the content of a raw text element is
text up to its end tag, whatever it looks like.
-/

namespace PageSlots.Markup

/-- The tags of the elements that never have content or an end tag. -/
def voidTags : List String := [
  "area", "base", "br", "col", "embed", "hr", "img", "input", "link", "meta",
  "source", "track", "wbr"]

/-- Whether an element with a tag is void. -/
def isVoidTag (tag : String) : Bool :=
  voidTags.contains tag

/-- The tags of the elements whose content is raw text. -/
def rawTextTags : List String := ["script", "style"]

/-- Whether the content of an element with a tag is raw text. -/
def isRawTextTag (tag : String) : Bool :=
  rawTextTags.contains tag

end PageSlots.Markup

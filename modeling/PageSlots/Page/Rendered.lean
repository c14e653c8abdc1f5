import PageSlots.Markdown.DocumentEvents
import PageSlots.Page.Renderer

/-!
# The renderer for pages

A page is usually processed with the renderer of this module: it reads the
markdown it is given and writes markup for pages. It never fails, and the
calls before one do not matter to it.
-/

namespace PageSlots.Page

open PageSlots.Markdown

/-- **The renderer that reads markdown**, with tables, tasks, struck out
text and alerts if `gfm` is set. -/
def Renderer.markdown (gfm : Bool) : Renderer :=
  Renderer.ofFunction fun call =>
    .ok (renderText gfm { inline := call.mode == .inline } call.source)

end PageSlots.Page

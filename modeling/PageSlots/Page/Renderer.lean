/-!
# Markdown renderers

A page does not fix how its markdown is rendered. A `Renderer` is any
function from a source and a mode to markup or an error. It is also told
how many calls came before, so that a renderer may depend on the order of
the calls; one that does not is a function of source and mode alone.
-/

namespace PageSlots.Page

/-- How a source is rendered. -/
inductive RenderMode where
  /-- Without a paragraph around the whole. -/
  | inline
  /-- As blocks. -/
  | block
  deriving DecidableEq, Repr

/-- The name of a mode. -/
def RenderMode.name : RenderMode → String
  | .inline => "inline"
  | .block => "block"

/-- Why a source could not be rendered. -/
structure RenderError where
  /-- What the renderer says. -/
  reason : String
  /-- What lies behind it, if anything. -/
  cause : Option String := none
  deriving DecidableEq, Repr

/-- A request to render a source. -/
structure RenderCall where
  /-- How the source is rendered. -/
  mode : RenderMode
  /-- What is rendered. -/
  source : String
  deriving DecidableEq, Repr

/-- **A renderer**: the answer to a call, given the number of calls before
it. -/
structure Renderer where
  /-- Answer a call. -/
  answer : Nat → RenderCall → Except RenderError String

/-- The renderer of a function that does not depend on earlier calls. -/
def Renderer.ofFunction (f : RenderCall → Except RenderError String) : Renderer where
  answer _ call := f call

/-- A renderer that fails at one call, counted from zero, and otherwise
answers as another does. -/
def Renderer.failingAt (r : Renderer) (k : Nat) (e : RenderError) : Renderer where
  answer i call := if i = k then .error e else r.answer i call

end PageSlots.Page

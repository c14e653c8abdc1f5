import PageSlots.Page.Slug

/-!
# The context of a page

While a page is resolved, a `Context` goes along with the traversal. It
names the page for diagnostics, keeps the ids that headings have taken so
that a generated id is always new, and holds the tags of the elements
above the node that is being visited.

A generated id is the slug of the heading, or the slug with the first
suffix `-1`, `-2`, … that makes it new. The context remembers for each
slug where the search for a suffix has to go on, so repeated headings do
not search from the start again.
-/

namespace PageSlots.Page

/-- **What is known while a page is resolved.** -/
structure Context where
  /-- The name of the page, for diagnostics. -/
  file : String
  /-- The ids that have been given or registered. -/
  usedIds : List String := []
  /-- For a slug, the suffix number with which the next search starts. -/
  counts : List (String × Nat) := []
  /-- The tags of the enclosing elements, innermost first. -/
  ancestors : List String := []

/-- The `k`-th id that a slug is tried with: the slug itself, and then the
slug with the suffix `-k`. -/
def candidate (base : String) : Nat → String
  | 0 => base
  | k + 1 => base ++ "-" ++ toString (k + 1)

/-- The number of the first candidate from `k` on that is not used. The
search needs no more attempts than there are used ids, and one more. -/
def firstFree (used : List String) (base : String) (k : Nat) : Nat → Nat
  | 0 => k
  | attempts + 1 =>
    if used.contains (candidate base k) then firstFree used base (k + 1) attempts
    else k

namespace Context

/-- The suffix number at which the search for a slug starts. -/
def count (ctx : Context) (base : String) : Nat :=
  (ctx.counts.lookup base).getD 0

/-- **A new id for a heading with a text.** There is none if the text has
no letter or digit. -/
def uniqueHeadingId (ctx : Context) (text : String) : Option String × Context :=
  let base := slug text
  if base.isEmpty then (none, ctx)
  else
    let k := firstFree ctx.usedIds base (ctx.count base) (ctx.usedIds.length + 1)
    let id := candidate base k
    (some id, { ctx with
      usedIds := id :: ctx.usedIds
      counts := (base, k + 1) :: ctx.counts.filter (·.1 ≠ base) })

/-- **Record an id that the author wrote.** The answer tells whether it
was still free. -/
def registerHeadingId (ctx : Context) (id : String) : Bool × Context :=
  if ctx.usedIds.contains id then (false, ctx)
  else (true, { ctx with usedIds := id :: ctx.usedIds })

/-- Enter an element. -/
def pushAncestor (ctx : Context) (tag : String) : Context :=
  { ctx with ancestors := tag :: ctx.ancestors }

/-- Leave the innermost element. -/
def popAncestor (ctx : Context) : Option String × Context :=
  (ctx.ancestors.head?, { ctx with ancestors := ctx.ancestors.tail })

/-- Whether some enclosing element has a tag. -/
def hasAncestor (ctx : Context) (tag : String) : Bool :=
  ctx.ancestors.contains tag

/-- How many elements enclose the node being visited. -/
def depth (ctx : Context) : Nat :=
  ctx.ancestors.length

@[simp] theorem popAncestor_pushAncestor (ctx : Context) (tag : String) :
    (ctx.pushAncestor tag).popAncestor = (some tag, ctx) := rfl

@[simp] theorem depth_pushAncestor (ctx : Context) (tag : String) :
    (ctx.pushAncestor tag).depth = ctx.depth + 1 := rfl

end Context

end PageSlots.Page

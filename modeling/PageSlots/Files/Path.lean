/-!
# Paths

A path is text. Its segments stand between slashes; empty segments, and
segments `.` that do not come first, count for nothing. The name of a
path is its last segment that counts, unless that is `.` or `..`; the
stem is the name without its extension, and the extension is what follows
the last dot, unless nothing stands before that dot.
-/

namespace PageSlots.Files

/-- Cut a text at every slash. -/
def segments : List Char → List (List Char)
  | [] => [[]]
  | c :: text =>
    if c = '/' then [] :: segments text
    else
      match segments text with
      | [] => [[c]]
      | s :: rest => (c :: s) :: rest

/-- Put a slash between segments. -/
def joinSegments : List (List Char) → List Char
  | [] => []
  | [s] => s
  | s :: rest => s ++ '/' :: joinSegments rest

theorem segments_ne_nil : ∀ text : List Char, segments text ≠ []
  | [] => by simp [segments]
  | c :: text => by
    unfold segments
    split
    · simp
    · split <;> simp

/-- A text that is cut at its slashes can be put together again. -/
@[simp] theorem joinSegments_segments : ∀ text : List Char, joinSegments (segments text) = text
  | [] => rfl
  | c :: text => by
    have ih := joinSegments_segments text
    unfold segments
    cases hs : segments text with
    | nil => exact absurd hs (segments_ne_nil text)
    | cons s rest =>
      rw [hs] at ih
      split
      · rename_i h
        simp [joinSegments, h, ih]
      · cases rest with
        | nil => simpa [joinSegments] using ih
        | cons r rest => simpa [joinSegments] using ih

/-- Whether a path begins at the root. -/
def isRooted (path : String) : Bool :=
  path.toList.head? = some '/'

/-- Whether a segment counts for nothing where it does not come first. -/
def isIdle (segment : List Char) : Bool :=
  segment = [] || segment = ['.']

/-- Segments, last one first, without the idle ones before the last that
counts. A `.` that begins the path stays. -/
def dropIdle : List (List Char) → List (List Char)
  | [] => []
  | [s] => if s = [] then [] else [s]
  | s :: outer => if isIdle s then dropIdle outer else s :: outer

/-- The segments of a path, last one first, down to the last that counts.
For a path from the root the empty segment before the first slash is left
out. -/
def countedSegments (path : String) : List (List Char) :=
  if isRooted path then
    let below := (segments (path.toList.drop 1)).reverse
    if below.all isIdle then [] else below.dropWhile isIdle
  else dropIdle (segments path.toList).reverse

/-- The path with given segments, last one first. -/
def ofSegments (rooted : Bool) (reversed : List (List Char)) : String :=
  let body := joinSegments reversed.reverse
  String.ofList (if rooted then '/' :: body else body)

/-- **The name of a path**, if it has one. -/
def fileName? (path : String) : Option String :=
  match countedSegments path with
  | [] => none
  | s :: _ => if s = ['.'] || s = ['.', '.'] then none else some (String.ofList s)

/-- **The path without its last segment**, if it has one. -/
def parent? (path : String) : Option String :=
  match countedSegments path with
  | [] => none
  | _ :: outer =>
    let rooted := isRooted path
    some (ofSegments rooted (if rooted then outer.dropWhile isIdle else dropIdle outer))

/-- A path and the paths above it, at most so many. -/
def ancestorsTo : Nat → String → List String
  | 0, path => [path]
  | steps + 1, path =>
    match parent? path with
    | none => [path]
    | some parent => path :: ancestorsTo steps parent

/-- **A path and the paths above it**, the path itself first. Each is
shorter than the one before. -/
def ancestors (path : String) : List String :=
  ancestorsTo path.length path

/-- Whether two paths have the same segments that count. A `.` counts at
the front of a path that is not from the root. -/
def samePath (a b : String) : Bool :=
  let parts (path : String) :=
    let ss := (countedSegments path).reverse
    let front := if isRooted path then 0 else 1
    ss.take front ++ (ss.drop front).filter (!isIdle ·)
  isRooted a == isRooted b && parts a == parts b

/-- The stem and the extension of a name. -/
def splitName (name : String) : String × Option String :=
  let reversed := name.toList.reverse
  let stem := (reversed.dropWhile (· != '.')).drop 1
  if stem.isEmpty then (name, none)
  else
    (String.ofList stem.reverse, some (String.ofList (reversed.takeWhile (· != '.')).reverse))

/-- **The name of a path without its extension.** -/
def fileStem? (path : String) : Option String :=
  (fileName? path).map fun name => (splitName name).1

/-- **The extension of the name of a path.** -/
def extension? (path : String) : Option String :=
  (fileName? path).bind fun name => (splitName name).2

/-- **A path below another**; a path from the root stands for itself. -/
def join (base path : String) : String :=
  if isRooted path then path
  else if base.isEmpty || base.toList.getLast? = some '/' then base ++ path
  else base ++ "/" ++ path

/-- A path with an extension behind the stem of its name, and nothing
behind that. A path without a name stays as it is. -/
def setExtension (path extension : String) : String :=
  match fileStem? path, countedSegments path with
  | some stem, _ :: outer => ofSegments (isRooted path) (stem.toList :: outer) ++ "." ++ extension
  | _, _ => path

/-- **A path with another extension.** As many characters as the extension
has are taken off the end of the path – up to the dot, if the name stands
there – and the other extension is set. What is left of `..x` has no name,
so nothing is set there. -/
def withExtension (path extension : String) : String :=
  let cut := ((extension? path).getD "").toList.length
  setExtension (String.ofList (path.toList.take (path.toList.length - cut))) extension

end PageSlots.Files

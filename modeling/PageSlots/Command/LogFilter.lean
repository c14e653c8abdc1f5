import PageSlots.Log
import PageSlots.Markup.Entity
import PageSlots.Text.Alphanumeric
import PageSlots.Text.Blank
import PageSlots.Text.Search

/-!
# Which log entries are written

A filter is written as directives between commas. A directive is a level,
or the beginning of the name of a source with or without a level: with
none, everything from there is written. Of the directives for a source the
one that names it most closely decides, and of two for the same name the
last one. A directive in square brackets is about spans of time; no entry
of this library lies in one, so it admits nothing.
-/

namespace PageSlots.Command

open PageSlots.Markup PageSlots.Text

/-- **A directive**: the entries of some sources are written up to a
verbosity. -/
structure LogDirective where
  /-- What the names of the sources begin with. -/
  target : String
  /-- The verbosity. -/
  verbosity : Nat
  deriving DecidableEq, Repr

/-- **A filter of log entries**, the last directive first. -/
structure LogFilter where
  /-- The directives. -/
  directives : List LogDirective
  deriving DecidableEq, Repr

/-- The filter that admits everything up to a level. -/
def LogFilter.upTo (level : LogLevel) : LogFilter where
  directives := [{ target := "", verbosity := level.verbosity }]

/-- The verbosity of a level that is given by its number or its name, in
either case. -/
def verbosityOf? (text : List Char) : Option Nat :=
  if !text.isEmpty && text.all Char.isDigit then
    let number := numeral 10 text
    if number ≤ 5 then some number else none
  else
    match String.ofList (asciiLower text) with
    | "off" => some 0
    | "error" => some 1
    | "warn" => some 2
    | "info" => some 3
    | "debug" => some 4
    | "trace" => some 5
    | _ => none

/-- The verbosity that stands behind a name, if one may stand there:
everything if there is no level. -/
def verbosityBehind? : List Char → Option Nat
  | [] => some 5
  | '=' :: level => if level.isEmpty then some 5 else verbosityOf? level
  | _ => none

/-- Whether a directive can begin with a character. -/
def beginsDirective (c : Char) : Bool :=
  isAlphanumeric c || c == '-' || c == ':' || c == '_'

/-- Read a directive: the directive, unless it is about spans. A text that
is none gives nothing. -/
def readDirective? (text : List Char) : Option (Option LogDirective) :=
  let text := trim text
  match text with
  | [] => none
  | c :: _ =>
    if text.contains '[' then
      match text.dropWhile (· != ']') with
      | _ :: rest => if c == '[' || beginsDirective c then
          (verbosityBehind? rest).map fun _ => none else none
      | [] => none
    else if !beginsDirective c then none
    else
      match verbosityOf? text with
      | some verbosity => some (some { target := "", verbosity })
      | none =>
        let target := String.ofList (text.takeWhile (· != '='))
        (verbosityBehind? (text.dropWhile (· != '='))).map fun verbosity =>
          some { target, verbosity }

/-- **Read a filter.** One without directives admits errors. -/
def LogFilter.read? (text : String) : Option LogFilter := do
  let parts := (text.toList.splitOnP (· == ',')).filter (· ≠ [])
  let directives ← parts.mapM readDirective?
  if directives.isEmpty then pure (LogFilter.upTo .error)
  else pure { directives := (directives.filterMap id).reverse }

/-- Whether a directive is about a source. -/
def LogDirective.concerns (d : LogDirective) (source : LogSource) : Bool :=
  d.target.toList.isPrefixOf source.name.toList

/-- The directive that decides on a source: the longest that is about it,
and the first of those. -/
def LogFilter.deciding? (f : LogFilter) (source : LogSource) : Option LogDirective :=
  (f.directives.filter (·.concerns source)).foldl (fun best d =>
    match best with
    | none => some d
    | some b => if b.target.length < d.target.length then some d else some b) none

/-- **Whether a filter admits an entry.** -/
def LogFilter.admits (f : LogFilter) (e : LogEntry) : Bool :=
  match f.deciding? e.source with
  | none => false
  | some d => e.level.verbosity ≤ d.verbosity

end PageSlots.Command

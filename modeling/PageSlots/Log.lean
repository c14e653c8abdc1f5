import PageSlots.Text.Quoted

/-!
# Log entries

What happens to a page while it is read and resolved is told in log
entries. An entry is data: its level, the part of the program that tells
it, a message and named fields. Writing an entry as a line belongs to
this module; choosing which entries are written belongs to
`PageSlots.Command.LogFilter`.
-/

namespace PageSlots

open PageSlots.Text

/-- How much an entry matters. -/
inductive LogLevel where
  | error | warn | info | debug | trace
  deriving DecidableEq, Repr

/-- How talkative one has to be to tell an entry of a level. -/
def LogLevel.verbosity : LogLevel → Nat
  | .error => 1
  | .warn => 2
  | .info => 3
  | .debug => 4
  | .trace => 5

/-- The name of a level. -/
def LogLevel.name : LogLevel → String
  | .error => "ERROR"
  | .warn => "WARN"
  | .info => "INFO"
  | .debug => "DEBUG"
  | .trace => "TRACE"

/-- The part of the program that tells an entry. -/
inductive LogSource where
  /-- Reading a fragment of markup. -/
  | fragment
  /-- Normalizing slot markers. -/
  | slots
  /-- Applying component rules to children and flags. -/
  | components
  /-- Resolving a page. -/
  | pages
  /-- Reading the settings. -/
  | settings
  /-- The render command. -/
  | command
  deriving DecidableEq, Repr

/-- The name under which a source is shown and filtered. -/
def LogSource.name : LogSource → String
  | .fragment => "docslot_dom::parser"
  | .slots => "docslot_core::slot"
  | .components => "docslot_core::components"
  | .pages => "docslot_core::processor"
  | .settings => "docslot_config"
  | .command => "docslot::commands::render"

/-- The value of a field. -/
inductive LogValue where
  /-- A value shown as it is. -/
  | shown (text : String)
  /-- A text, quoted in a line. -/
  | text (text : String)
  deriving DecidableEq, Repr

/-- The text of a value, without quotes. -/
def LogValue.plain : LogValue → String
  | .shown t => t
  | .text t => t

/-- The text of a value in a line. -/
def LogValue.inLine : LogValue → String
  | .shown t => t
  | .text t => quoted t

/-- **An entry of the log.** -/
structure LogEntry where
  /-- How much it matters. -/
  level : LogLevel
  /-- Who tells it. -/
  source : LogSource
  /-- What happened. -/
  message : String
  /-- The circumstances, in order. -/
  fields : List (String × LogValue)
  deriving DecidableEq, Repr

/-- The entries of a run, in the order in which they were told. -/
abbrev Log := List LogEntry

/-- An entry as a line, without the time that stands before it: the level,
right-aligned, the source, the message and the fields. -/
def LogEntry.line (e : LogEntry) : String :=
  let pad := String.ofList (List.replicate (5 - e.level.name.length) ' ')
  pad ++ e.level.name ++ " " ++ e.source.name ++ ": " ++ e.message ++
    String.join (e.fields.map fun (name, value) => " " ++ name ++ "=" ++ value.inLine)

end PageSlots

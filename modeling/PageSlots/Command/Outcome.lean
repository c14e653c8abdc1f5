import PageSlots.Command.LogFilter
import PageSlots.Files.FileTree

/-!
# Outcomes

What a run of the program leaves behind is its `Outcome`: how it ended,
what it wrote to its two outputs, and the files. Between the messages for
the reader, the second output has the admitted entries of the log, each
behind the time at which it was told. No part of the library knows the
time, so it is put in when the messages are written.
-/

namespace PageSlots.Command

open PageSlots.Files

/-- **How a run ends.** -/
inductive ExitStatus where
  | success
  /-- Something was asked for that could not be done. -/
  | failure
  /-- Nothing that can be done was asked for. -/
  | misuse
  deriving DecidableEq, Repr

/-- The number by which a run tells how it ended. -/
def ExitStatus.code : ExitStatus → Nat
  | .success => 0
  | .failure => 1
  | .misuse => 2

/-- **What is told while a run goes on.** -/
inductive Message where
  /-- An entry of the log. -/
  | entry (entry : LogEntry)
  /-- A line for the reader. -/
  | line (text : String)
  deriving DecidableEq, Repr

/-- Whether a filter admits a message. It concerns the log only. -/
def Message.isAdmitted (f : LogFilter) : Message → Bool
  | .entry e => f.admits e
  | .line _ => true

/-- A message as a line, with the time if it is an entry of the log. -/
def Message.text (time : String) : Message → String
  | .entry e => time ++ " " ++ e.line ++ "\n"
  | .line text => text ++ "\n"

/-- **What a run leaves behind.** -/
structure Outcome where
  /-- How the run ended. -/
  status : ExitStatus
  /-- What was written to the first output. -/
  output : String := ""
  /-- What was told on the second output, in order. -/
  messages : List Message := []
  /-- The files. -/
  workspace : Workspace

/-- The text of the second output, with the same time for every entry. -/
def Outcome.told (o : Outcome) (time : String) : String :=
  String.join (o.messages.map (·.text time))

end PageSlots.Command

/-
This file holds the journal of a session: what was noted, how urgent it was, and which part of the
program noted it.
-/

import ScriptMachine.Fault

namespace ScriptMachine

inductive Level where
  | debug
  | warning
  | error
deriving DecidableEq

def Level.text : Level → String
  | .debug => "DEBUG"
  | .warning => "WARNING"
  | .error => "ERROR"

/-- The part of the program that an entry comes from. -/
inductive Topic where
  | failure
  | continuation
  | machine
  | node
  | value
  | operation
deriving DecidableEq

def Topic.label : Topic → String
  | .failure => "jscesk.errors"
  | .continuation => "jscesk.kont"
  | .machine => "jscesk.machine"
  | .node => "jscesk.nodes"
  | .value => "jscesk.values"
  | .operation => "jscesk.abstract_ops"

structure Entry where
  level : Level
  topic : Topic
  message : String
deriving DecidableEq

/-- A line names the topic of an entry. -/
def Entry.line (entry : Entry) : String :=
  entry.topic.label ++ ": " ++ entry.message

def Entry.leveledLine (entry : Entry) : String :=
  entry.level.text ++ " " ++ entry.line

/-- Reported failures are noted, apart from texts that cannot be parsed. -/
def Fault.entry? : Fault → Option Entry
  | .unsupported cause =>
      some ⟨.error, .failure, "unimplemented functionality: " ++ cause.message⟩
  | .unparsable _ => none
  | fault => fault.report.map fun (_, text) => ⟨.error, .failure, "ERROR: " ++ text⟩

end ScriptMachine

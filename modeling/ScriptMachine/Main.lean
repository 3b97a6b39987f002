/-
This file is the command line. A program file holds the syntax tree of a program as JSON text, and
it is run on a new machine.
-/

import ScriptMachine.CommandLine
import ScriptMachine.Tree.Json

namespace ScriptMachine.CommandLine

def usage : String := "usage: jscesk [-h] [-d] [--inverted-truthiness] file\n"

def parseProgram (text : String) : Except Fault Tree :=
  match Json.parse? text with
  | some tree => .ok tree
  | none => .error (.unparsable "the file does not hold a tree")

def explain (fault : Fault) : String :=
  fault.message?.getD (match fault with
    | .missingFile => "no such file"
    | .notAFile => "not a file"
    | .notAFolder => "not a folder"
    | .unnameable => "not a file name"
    | .nameTooLong => "file name too long"
    | .undecodable => "the file is not UTF-8 text"
    | .overflow => "integer too large for a double"
    | _ => "malformed tree")

def beginProgram (machine : Machine) (text : String) : Action Machine.Progress := do
  machine.begin (← Action.fromExcept (parseProgram text))

/-- What a session has gathered for the user is shown, and the session goes on without it. -/
def release (session : Session) : IO Session := do
  IO.print session.output
  IO.eprint (journalText session)
  return { session with output := "", journal := #[] }

def perform {A : Type} (action : Action A) (session : Session) :
    IO (Except Fault A × Session) := do
  match action.attempt session with
  | .ok outcome next => return (outcome, ← release next)
  | .error fault next => return (.error fault, ← release next)

partial def finish (machine : Machine) (progress : Machine.Progress) (session : Session) :
    IO (Except Fault Unit) := do
  if progress.state.isDone then return .ok ()
  else
    match ← perform (machine.advance 1000 progress) session with
    | (.ok progress, session) => finish machine progress session
    | (.error fault, _) => return .error fault

def runText (config : Config) (text : String) : IO (Except Fault Unit) := do
  let machine : Machine := ⟨config, none⟩
  match ← perform (beginProgram machine text) (.start config.debug) with
  | (.ok progress, session) => finish machine progress session
  | (.error fault, _) => return .error fault

def readText (file : String) : IO (Except Fault String) := do
  try
    return decode (← IO.FS.readBinFile file)
  catch _ =>
    return .error .missingFile

def report (fault : Fault) : IO UInt32 := do
  IO.eprint (explain fault ++ "\n")
  return 1

def runFile (options : Options) (config : Config) : IO UInt32 := do
  match ← readText options.file with
  | .error fault => report fault
  | .ok text =>
      let started ← IO.monoNanosNow
      match ← runText config text with
      | .error fault => report fault
      | .ok _ => do
          let ended ← IO.monoNanosNow
          IO.eprint (closingLine options.file (elapsedText (ended - started)))
          return 0

end ScriptMachine.CommandLine

def main (arguments : List String) : IO UInt32 := do
  match ScriptMachine.CommandLine.parse arguments with
  | .rejected => do
      IO.eprint ScriptMachine.CommandLine.usage
      return 2
  | .help => do
      IO.print ScriptMachine.CommandLine.usage
      return 0
  | .run options => do
      let debug ← IO.getEnv "JSCESK_DEBUG"
      let inverted ← IO.getEnv "JSCESK_INVERTED_TRUTHINESS"
      let settings := [("JSCESK_DEBUG", debug), ("JSCESK_INVERTED_TRUTHINESS", inverted)]
      ScriptMachine.CommandLine.runFile options
        (options.config fun name => (settings.lookup name).join)

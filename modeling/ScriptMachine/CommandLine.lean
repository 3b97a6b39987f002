/-
This file reads command lines and prepares the session that they ask for.
-/

import ScriptMachine.Machine
import ScriptMachine.Text.Digit
import ScriptMachine.Text.Newline

namespace ScriptMachine.CommandLine

structure Options where
  file : String
  debug : Bool
  invertedTruth : Bool
deriving DecidableEq

/-- A command line asks for a run or for help, or it is rejected. -/
inductive Request where
  | run (options : Options)
  | help
  | rejected
deriving DecidableEq

inductive Switch where
  | help
  | debug
  | invertedTruth
deriving DecidableEq

def longSwitches : List (String × Switch) :=
  [("--help", .help), ("--debug", .debug), ("--inverted-truthiness", .invertedTruth)]

def shortSwitches : List (Char × Switch) := [('h', .help), ('d', .debug)]

/-- What a single word means: text for the file, switches that may be followed by something
unknown, a switch with a value that it does not take, or the beginning of several switches. -/
inductive Word where
  | plain
  | switches (found : List Switch) (surplus : Bool)
  | valued
  | ambiguous
deriving DecidableEq

/-- Short switches may share one dash. The first unknown letter ends them, and neither a value nor
a dash may follow one of them. -/
def cluster (found : List Switch) : List Char → Word
  | [] => .switches found false
  | letter :: rest =>
      if letter == '=' || letter == '-' then .valued
      else match shortSwitches.lookup letter with
        | some switch => cluster (found ++ [switch]) rest
        | none => .switches found true

/-- A long switch may be cut off where only one switch begins that way. A full name comes before
longer ones. -/
def longWord (letters : List Char) : Word :=
  let name := letters.takeWhile fun letter => letter != '='
  let valued := letters.contains '='
  let exact := longSwitches.filter fun switch => switch.1.toList == name
  let begun := longSwitches.filter fun switch => name.isPrefixOf switch.1.toList
  match (if exact.isEmpty then begun else exact), valued with
  | [], _ => if letters.contains ' ' then .plain else .switches [] true
  | [switch], false => .switches [switch.2] false
  | [_], true => .valued
  | _, _ => .ambiguous

/-- The digits of any script make a whole or fractional negative number, which is no switch. A line
feed may end it. -/
def isNegativeNumber (letters : List Char) : Bool :=
  let number := if letters.getLast? == some '\n' then letters.dropLast else letters
  let whole := number.takeWhile Text.isDecimalDigit
  match number.dropWhile Text.isDecimalDigit with
  | [] => !whole.isEmpty
  | '.' :: fraction => !fraction.isEmpty && fraction.all Text.isDecimalDigit
  | _ => false

def shortWord (letters : List Char) : Word :=
  match letters with
  | [] => .plain
  | letter :: rest =>
      match shortSwitches.lookup letter with
      | some switch => cluster [switch] rest
      | none =>
          if isNegativeNumber letters || letters.contains ' ' then .plain else .switches [] true

def classify (word : String) : Word :=
  match word.toList with
  | '-' :: '-' :: rest => longWord ('-' :: '-' :: rest)
  | '-' :: rest => shortWord rest
  | _ => .plain

/-- What has been gathered from the words so far. -/
structure Gathered where
  file : Option String
  debug : Bool
  invertedTruth : Bool
  surplus : Bool

def Gathered.none : Gathered := ⟨Option.none, false, false, false⟩

def Gathered.add (gathered : Gathered) : Switch → Gathered
  | .debug => { gathered with debug := true }
  | .invertedTruth => { gathered with invertedTruth := true }
  | .help => gathered

/-- The first plain word is the file, and there is no room for a second one. -/
def Gathered.place (gathered : Gathered) (word : String) : Gathered :=
  match gathered.file with
  | Option.none => { gathered with file := some word }
  | some _ => { gathered with surplus := true }

def Gathered.request (gathered : Gathered) : Request :=
  match gathered.file, gathered.surplus with
  | some file, false => .run ⟨file, gathered.debug, gathered.invertedTruth⟩
  | _, _ => .rejected

/-- Two dashes end the switches. They stand next to the file, before or after it. -/
def gather (gathered : Gathered) (afterFile : Bool) : List String → Request
  | [] => gathered.request
  | word :: rest =>
      if word == "--" then
        if gathered.file.isSome && !afterFile then .rejected
        else (rest.foldl Gathered.place gathered).request
      else match classify word with
        | .plain => gather (gathered.place word) true rest
        | .switches found surplus =>
            let added := found.foldl Gathered.add gathered
            if found.contains .help then .help
            else gather { added with surplus := added.surplus || surplus } false rest
        | .valued | .ambiguous => .rejected

def switchWords (words : List String) : List String := words.takeWhile fun word => word != "--"

/-- An ambiguous word is noticed before any switch takes effect. -/
def parse (words : List String) : Request :=
  if (switchWords words).any fun word => classify word == .ambiguous then .rejected
  else gather .none false words

/-- Switches add to what the environment variables ask for. -/
def Options.config (options : Options) (lookup : String → Option String) : Config :=
  let config := Config.fromVariables lookup
  ⟨config.debug || options.debug, config.invertedTruth || options.invertedTruth,
    config.outline || options.debug⟩

/-- The text of a file, given its bytes. -/
def decode (bytes : ByteArray) : Except Fault String :=
  match String.fromUTF8? bytes with
  | some text => .ok (Text.unifyNewlines text)
  | none => .error .undecodable

/-- The lines that a session leaves for the user. -/
def journalText (session : Session) : String :=
  "".intercalate (session.journal.toList.map fun entry => entry.line ++ "\n")

/-- Milliseconds are written with three places. -/
def elapsedText (nanoseconds : Nat) : String :=
  let micro := (nanoseconds + 500) / 1000
  let places := toString (micro % 1000)
  toString (micro / 1000) ++ "." ++ "".pushn '0' (3 - places.length) ++ places

/-- The last line names the file and the time it took. -/
def closingLine (file time : String) : String :=
  "runcesk " ++ file ++ ": " ++ time ++ "ms\n"

end ScriptMachine.CommandLine

/-
This file holds the settings of a session and reads them from environment variables.
-/

import ScriptMachine.Text.Blank

namespace ScriptMachine

/-- Debugging notes every step, inverted truth changes what numbers and texts count as, and the
outline notes the linked program before it runs. -/
structure Config where
  debug : Bool
  invertedTruth : Bool
  outline : Bool
deriving DecidableEq

namespace Config

def default : Config := ⟨false, false, false⟩

def trueTexts : List String := ["1", "true", "yes", "on"]

/-- The texts to compare with are plain letters, which no other character becomes in lower case. -/
def isTrueText (text : String) : Bool :=
  trueTexts.contains (Text.trim text).toLower

/-- A variable that is not set leaves a flag at its default. -/
def flag (lookup : String → Option String) (name : String) (unset : Bool) : Bool :=
  match lookup name with
  | none => unset
  | some text => isTrueText text

def fromVariables (lookup : String → Option String) : Config :=
  let debug := flag lookup "JSCESK_DEBUG" false
  ⟨debug, flag lookup "JSCESK_INVERTED_TRUTHINESS" false, debug⟩

end Config

end ScriptMachine

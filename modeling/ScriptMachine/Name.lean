/-
This file holds the names that programs bind and look up. Main statement: a text is a key of its own.
-/

import ScriptMachine.Decimal.Binary
import ScriptMachine.Fault
import ScriptMachine.Tree.Text

namespace ScriptMachine

/-- A name is the data that a tree gives for it, usually a text, together with the number of the
node that gives it. -/
structure Name where
  written : Tree
  occurrence : Int

/-- What names are compared by. Equal numbers are one key, whether they are written as integers, as
doubles or as truth values, and what is not a number equals only its own occurrence. -/
inductive Key where
  | missing
  | whole (value : Int)
  | fractional (bits : UInt64)
  | unordered (occurrence : Int)
  | text (value : String)
deriving DecidableEq

namespace Key

def ofFloat (occurrence : Int) (number : Float) : Key :=
  let binary := Decimal.Binary.ofFloat number
  if number.isNaN then .unordered occurrence
  else if number.isInf || !binary.isIntegral then .fractional number.toBits
  else .whole (if binary.negative then -binary.floor else binary.floor)

end Key

namespace Name

def ofText (text : String) : Name := ⟨.text text, 0⟩

/-- Lists and records cannot be bound or looked up. -/
def key (name : Name) : Except Fault Key :=
  match name.written with
  | .null => .ok .missing
  | .bool value => .ok (.whole (if value then 1 else 0))
  | .int value => .ok (.whole value)
  | .float value => .ok (.ofFloat name.occurrence value)
  | .text value => .ok (.text value)
  | .list _ | .record .. => .error .malformed

def shown (name : Name) : String := name.written.shown

@[simp] theorem key_ofText (text : String) : (Name.ofText text).key = .ok (.text text) := rfl

end Name

end ScriptMachine

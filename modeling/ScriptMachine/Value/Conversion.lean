/-
This file converts values: to primitives, truth values, numbers and texts. Conversions that the
subset leaves out are refused.
-/

import ScriptMachine.Value

namespace ScriptMachine.Value

/-- Objects, closures and built-in functions do not convert to primitives. -/
def objectToPrimitive : Except Fault Value :=
  .error (.unsupported .objectToPrimitive)

def toPrimitive : Value → Except Fault Value
  | .object _ | .function _ | .builtin .. => objectToPrimitive
  | .reference _ address => .error (.unsupported (.primitive (shownAddress address)))
  | value => .ok value

/-- No value carries conversion methods. -/
def method (_value : Value) (_key : String) : Value := .undefined

/-- Inverted truth reads zero, numbers that are none, and the empty text as true, and all other
numbers and texts as false. -/
def toBoolean (inverted : Bool) : Value → Except Fault Bool
  | .boolean value => .ok value
  | .undefined | .null => .ok false
  | .number value => .ok ((value.isNaN || value == 0) == inverted)
  | .string value => .ok (value.isEmpty == inverted)
  | .object _ | .function _ | .builtin .. | .symbol .. => .ok true
  | .reference .. => .error (.unsupported .truth)

def toNumber : Value → Except Fault Float
  | .undefined => .ok (0 / 0)
  | .null => .ok 0
  | .boolean value => .ok (if value then 1 else 0)
  | .number value => .ok value
  | _ => .error (.unsupported .number)

/-- A reference has no text of its own and reads as undefined. -/
def toText : Value → Except Fault String
  | .object _ | .function _ | .builtin .. => .error (.unsupported .objectToString)
  | .symbol .. => .error (.unsupported .symbolToString)
  | .string value => .ok value
  | .number value => .ok (Decimal.numberText value)
  | .boolean value => .ok (if value then "true" else "false")
  | .null => .ok "null"
  | .undefined | .reference .. => .ok "undefined"

end ScriptMachine.Value

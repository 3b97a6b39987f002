/-
This file holds the values of programs and how they are shown.
-/

import ScriptMachine.Node
import ScriptMachine.Session
import ScriptMachine.Tree.Text

namespace ScriptMachine

/-- The own properties of an object are the innermost frame of its scope, and the properties of its
prototypes are the frames around it. No two objects share their innermost frame. -/
structure Object where
  proto : Address
  properties : Scope
deriving DecidableEq

/-- A closure is a function together with the scope it was defined in. -/
structure Closure where
  identity : Nat
  code : Code
  scope : Scope

mutual
/-- A reference is the address of a value. The store may hold one, although programs never put it
there. -/
inductive Value where
  | undefined
  | null
  | boolean (value : Bool)
  | number (value : Float)
  | string (value : String)
  | symbol (identity : Nat) (description : String)
  | object (object : Object)
  | function (closure : Closure)
  | builtin (identity : Nat) (arity : Int) (name : Tree) (routine : Routine)
  | reference (identity : Nat) (address : Address)

/-- What a built-in function does when it is called. -/
inductive Routine where
  | print
  | ownPropertyTest
  | describe
  | answer (value : Value)
  | answerData (data : Tree)
end

/-- An address is shown as a reference to it. -/
def shownAddress (address : Address) : String :=
  "Address(" ++ toString address ++ ")"

/-- How a value is shown in messages. -/
def Value.shown : Value → String
  | .undefined => "Undefined()"
  | .null => "Null()"
  | .boolean value => if value then "Boolean(true)" else "Boolean(false)"
  | .number value => "Number(" ++ Decimal.floatText value ++ ")"
  | .string value => "String(" ++ Text.quoted value ++ ")"
  | .symbol _ description => "Symbol(" ++ description ++ ")"
  | .object _ => "Object"
  | .function closure => "Function " ++ closure.code.displayName.shown
  | .builtin _ arity name _ =>
      "BuiltinFunction(" ++ toString arity ++ ", " ++ (name.orText "callback").shown ++ ")"
  | .reference _ address => shownAddress address

/-- How a value is printed by a program. A reference cannot be passed to a built-in function. -/
def Value.display? : Value → Option String
  | .undefined => some "undefined"
  | .null => some "null"
  | .boolean value => some (if value then "true" else "false")
  | .number value => some (Decimal.numberText value)
  | .string value => some value
  | .symbol _ description => some ("Symbol(" ++ description ++ ")")
  | .object _ => some "[object Object]"
  | .function closure => some ("function " ++ closure.code.displayName.shown)
  | .builtin _ _ name _ => some ("function " ++ (name.orText "builtin").shown)
  | .reference .. => none

/-- How plain data is printed by a program. -/
def Tree.display : Tree → String
  | .null => "null"
  | .bool value => if value then "true" else "false"
  | .float value => Decimal.numberText value
  | tree => tree.shown

/-- An integer becomes the nearest double, which has to be finite. -/
def numberOfInt (value : Int) : Except Fault Float :=
  let magnitude := Float.ofScientific value.natAbs false 0
  if magnitude.isInf then .error .overflow
  else .ok (if value < 0 then -magnitude else magnitude)

/-- The value of a literal. -/
def Tree.literal : Tree → Except Fault Value
  | .null => .ok .null
  | .bool value => .ok (.boolean value)
  | .int value => (numberOfInt value).map Value.number
  | .float value => .ok (.number value)
  | .text value => .ok (.string value)
  | .list _ | .record .. => .error (.unsupported .literal)

/-- Plain data that a built-in function answers becomes a value, null being no answer. -/
def Tree.answer (data : Tree) : Except Fault Value :=
  match data with
  | .null => .ok .undefined
  | .list _ | .record .. => .error (.unsupported (.hostValue data.spelled))
  | _ => data.literal

/-- A built-in function cannot answer a reference. -/
def Value.answer (value : Value) : Except Fault Value :=
  match value with
  | .reference _ address => .error (.unsupported (.hostValue (shownAddress address)))
  | _ => .ok value

/-- Two values are the same when they are of one kind and have the same content. Values with an
identity are the same only as themselves, and references by their address. -/
def Value.same : Value → Value → Bool
  | .undefined, .undefined => true
  | .null, .null => true
  | .boolean left, .boolean right => left == right
  | .number left, .number right => left == right
  | .string left, .string right => left == right
  | .symbol left _, .symbol right _ => left == right
  | .object left, .object right => left.properties.inner == right.properties.inner
  | .function left, .function right => left.identity == right.identity
  | .builtin left _ _ _, .builtin right _ _ _ => left == right
  | .reference _ left, .reference _ right => left == right
  | _, _ => false

end ScriptMachine

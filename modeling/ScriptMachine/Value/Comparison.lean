/-
This file compares values. Main statement: a text is identical only to itself.
-/

import ScriptMachine.Value.Conversion

namespace ScriptMachine.Value

/-- The first code points that differ decide. Nothing is decided where one of the texts ends first. -/
def firstDifference? : List Char → List Char → Option Bool
  | left :: lefts, right :: rights =>
      if left = right then firstDifference? lefts rights
      else some (decide (left.toNat < right.toNat))
  | _, _ => none

/-- A text does not precede what it begins with, and it precedes what begins with it. -/
def textLess? (left right : String) : Option Bool :=
  if right.toList.isPrefixOf left.toList then some false
  else if left.toList.isPrefixOf right.toList then some true
  else firstDifference? left.toList right.toList

/-- No answer is given when a side is not a number. -/
def numberLess? (left right : Value) : Except Fault (Option Bool) := do
  let leftNumber ← left.toNumber
  let rightNumber ← right.toNumber
  if leftNumber.isNaN || rightNumber.isNaN then pure none
  else pure (some (decide (leftNumber < rightNumber)))

/-- Two texts are ordered by code points, everything else as numbers, and so would be two texts whose
code points do not decide. -/
def primitiveLess? (left right : Value) : Except Fault (Option Bool) :=
  match left, right with
  | .string leftText, .string rightText =>
      match textLess? leftText rightText with
      | some precedes => .ok (some precedes)
      | none => numberLess? left right
  | _, _ => numberLess? left right

/-- Operands are converted to primitives in the given order. -/
def less? (left right : Value) (leftFirst : Bool) : Except Fault (Option Bool) := do
  if leftFirst then
    let leftPrimitive ← left.toPrimitive
    let rightPrimitive ← right.toPrimitive
    primitiveLess? leftPrimitive rightPrimitive
  else
    let rightPrimitive ← right.toPrimitive
    let leftPrimitive ← left.toPrimitive
    primitiveLess? leftPrimitive rightPrimitive

/-- Equality with conversions always fails. -/
def looselyEqual (_left _right : Value) : Bool := false

/-- Values of one kind are identical when their contents are equal, and values with an identity
only to themselves. -/
def identical : Value → Value → Bool
  | .reference left _, .reference right _ => left == right
  | left, right => left.same right

theorem identical_string (left right : String) :
    identical (.string left) (.string right) = (left == right) := rfl

end ScriptMachine.Value

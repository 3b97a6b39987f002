/-
This file gives the operators their meaning on values.
-/

import ScriptMachine.Value.Comparison

namespace ScriptMachine

/-- Division by zero gives an infinity or no number. -/
def quotient (dividend divisor : Float) : Float := dividend / divisor

/-- The exact remainder of a division toward zero, for finite operands. -/
def finiteRemainder (dividend divisor : Float) : Float :=
  let left := Decimal.Binary.ofFloat dividend
  let right := Decimal.Binary.ofFloat divisor
  let exponent := min left.exponent right.exponent
  let aligned := fun (binary : Decimal.Binary) =>
    binary.significand * Nat.pow 2 (binary.exponent - exponent).toNat
  let rest := aligned left % aligned right
  let magnitude :=
    if 0 ≤ exponent then Float.ofScientific (rest * Nat.pow 2 exponent.toNat) false 0
    else Float.ofScientific (rest * Nat.pow 5 exponent.natAbs) true exponent.natAbs
  if left.negative then -magnitude else magnitude

/-- The remainder has the sign of the dividend, and an infinite divisor leaves the dividend. -/
def remainder (dividend divisor : Float) : Float :=
  if dividend.isNaN || divisor.isNaN || dividend.isInf || divisor == 0 then 0 / 0
  else if divisor.isInf then dividend
  else finiteRemainder dividend divisor

namespace BinaryOperator

/-- A sum with a text is a text, any other sum is a number. -/
def sum (left right : Value) : Except Fault Value := do
  let leftPrimitive ← left.toPrimitive
  let rightPrimitive ← right.toPrimitive
  match leftPrimitive, rightPrimitive with
  | .string _, _ | _, .string _ =>
      let leftText ← leftPrimitive.toText
      let rightText ← rightPrimitive.toText
      pure (.string (leftText ++ rightText))
  | _, _ =>
      let leftNumber ← leftPrimitive.toNumber
      let rightNumber ← rightPrimitive.toNumber
      pure (.number (leftNumber + rightNumber))

def arithmetic (compute : Float → Float → Float) (left right : Value) : Except Fault Value := do
  let leftNumber ← left.toNumber
  let rightNumber ← right.toNumber
  pure (.number (compute leftNumber rightNumber))

/-- An operand that is not a number makes every comparison false. -/
def ordering (holds : Bool → Bool) (answer : Except Fault (Option Bool)) : Except Fault Value := do
  match ← answer with
  | none => pure (.boolean false)
  | some precedes => pure (.boolean (holds precedes))

def apply (operator : BinaryOperator) (left right : Value) : Except Fault Value :=
  match operator with
  | .add => sum left right
  | .subtract => arithmetic (fun dividend divisor => dividend - divisor) left right
  | .multiply => arithmetic (fun dividend divisor => dividend * divisor) left right
  | .divide => arithmetic quotient left right
  | .remainder => arithmetic ScriptMachine.remainder left right
  | .less => ordering (fun precedes => precedes) (left.less? right true)
  | .greater => ordering (fun precedes => precedes) (right.less? left false)
  | .lessOrEqual => ordering (fun precedes => !precedes) (right.less? left false)
  | .greaterOrEqual => ordering (fun precedes => !precedes) (left.less? right true)
  | .equal => .ok (.boolean (left.looselyEqual right))
  | .notEqual => .ok (.boolean (!left.looselyEqual right))
  | .identical => .ok (.boolean (left.identical right))
  | .notIdentical => .ok (.boolean (!left.identical right))
  | .other written => .error (.unsupported (.binaryOperator written.shown))

/-- What the comparison of two values leaves in the journal. -/
def remark? (operator : BinaryOperator) (left right : Value) : Option String :=
  match operator with
  | .equal | .notEqual =>
      some ("abstract equality is stubbed: " ++ left.shown ++ " == " ++ right.shown ++ " -> false")
  | .identical | .notIdentical => some ("comparing " ++ left.shown ++ " with " ++ right.shown)
  | _ => none

end BinaryOperator

def UnaryOperator.apply (operator : UnaryOperator) (inverted : Bool) (value : Value) :
    Except Fault Value :=
  match operator with
  | .not => (value.toBoolean inverted).map fun truth => .boolean (!truth)
  | .negate => value.toNumber.map fun number => .number (-number)
  | .toNumber => value.toNumber.map Value.number
  | .discard => .ok .undefined
  | .other written => .error (.unsupported (.unaryOperator written.shown))

end ScriptMachine

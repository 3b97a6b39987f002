/-
This file evaluates expressions. An expression gives a value, or the address that a value is read
from and written to. Calls are not evaluated here: a call in the middle of an expression fails.
-/

import ScriptMachine.Globals
import ScriptMachine.Value.Operation

namespace ScriptMachine

/-- What an expression denotes before it is read. -/
inductive Operand where
  | location (address : Address)
  | value (value : Value)

namespace Operand

def address? : Operand → Option Address
  | .location address | .value (.reference _ address) => some address
  | .value _ => none

/-- Reading looks an address up in a store and passes every other value on. -/
def readFrom (operand : Operand) (store : Store) : Value :=
  match operand with
  | .location address | .value (.reference _ address) => store.get address
  | .value held => held

def read (operand : Operand) : Draft Value := return operand.readFrom (← Draft.store)

/-- Only an address can be written to. -/
def write (operand : Operand) (value : Value) : Draft Unit :=
  match operand.address? with
  | some address => Draft.extend address value
  | none => Draft.fail (.badWrite .notReference)

end Operand

/-- The machine's own allocator. -/
def Session.machineAllocator : Nat := 0

def Code.close (code : Code) (scope : Scope) : Action Value := do
  return .function ⟨← Action.newIdentity, code, scope⟩

/-- A property is looked up under the text of its selector. -/
def Object.select (object : Object) (selector : Value) : Draft Operand := do
  let primitive ← selector.toPrimitive
  let key ← primitive.toText
  return .location (← object.locate (.ofText key))

def BinaryOperator.perform (operator : BinaryOperator) (left right : Value) : Draft Operand := do
  match operator.remark? left right with
  | some message => Action.note .operation fun _ => message
  | none => pure ()
  return .value (← operator.apply left right)

mutual
/-- Operands are evaluated from left to right, and both sides of a logical expression always are. -/
def Node.evaluate (inverted : Bool) (scope : Scope) : Node → Draft Operand
  | .identifier ident => return .location (← scope.resolve ident.name)
  | .literal _ value => return .value (← value.literal)
  | .functionExpression place name params body =>
      return .value (← (Code.ofExpression place name params body).close scope)
  | .object _ properties => do
      let proto ← scope.resolve Globals.objectPrototype
      let object ← Object.create proto (← Draft.store) Session.machineAllocator
      Node.evaluateProperties inverted scope object properties
      return .value (.object object)
  | .member _ holder selector _ => do
      let held ← (← holder.evaluate inverted scope).read
      match held with
      | .object found => do
          let selected ← (← selector.evaluate inverted scope).read
          found.select selected
      | _ => Draft.fail (.mistyped .notObject)
  | .binary _ operator left right => do
      let leftValue ← (← left.evaluate inverted scope).read
      let rightValue ← (← right.evaluate inverted scope).read
      operator.perform leftValue rightValue
  | .unary _ operator argument => do
      let value ← (← argument.evaluate inverted scope).read
      return .value (← operator.apply inverted value)
  | .logical _ operator left right => do
      let leftValue ← (← left.evaluate inverted scope).read
      let _ ← leftValue.toBoolean inverted
      let rightValue ← (← right.evaluate inverted scope).read
      let _ ← rightValue.toBoolean inverted
      Draft.refuse (.logicalOperator operator.shown)
  | .assignment _ (.other written) _ _ => Draft.refuse (.assignmentOperator written.shown)
  | .assignment _ .assign left right => do
      let target ← left.evaluate inverted scope
      if right.isCall then Draft.fail (.mistyped .callInExpression)
      else
        let value ← (← right.evaluate inverted scope).read
        target.write value
        return .value value
  | .call .. => Draft.fail (.mistyped .callInExpression)
  | .absent => Draft.fail .malformed
  | node => Draft.refuse (.evaluating node.kindText)

/-- Every property is bound in the new object's frame as soon as its value is known. A literal that
stands in the place of a property offers its content as an expression, which is none. -/
def Node.evaluateProperties (inverted : Bool) (scope : Scope) (object : Object) :
    List Node → Draft Unit
  | [] => pure ()
  | .property _ key value :: rest => do
      let held ← (← value.evaluate inverted scope).read
      Draft.extend (← object.properties.declare key) held
      Node.evaluateProperties inverted scope object rest
  | .literal _ (.record .attributes fields) :: _ =>
      match fields.lookup "kind" with
      | some kind => Draft.refuse (.evaluating kind.shown)
      | none => Draft.fail .malformed
  | _ => Draft.fail .malformed
end

/-- The value of an expression. -/
def Node.value (inverted : Bool) (scope : Scope) (node : Node) : Draft Value := do
  (← node.evaluate inverted scope).read

def Node.truth (inverted : Bool) (scope : Scope) (node : Node) : Draft Bool := do
  (← node.value inverted scope).toBoolean inverted

end ScriptMachine

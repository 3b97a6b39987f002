/-
This file holds the bindings that every program starts with, and what the built-in functions do.
-/

import ScriptMachine.Object

namespace ScriptMachine

/-- What a built-in function answers when it is called. -/
def Routine.call (routine : Routine) (arguments : List Value) : Action Value :=
  match routine with
  | .print => do
      Action.print (" ".intercalate (arguments.filterMap Value.display?) ++ "\n")
      return .undefined
  | .ownPropertyTest => Action.refuse .ownPropertyTest
  | .describe => do
      Action.print "[object Object]\n"
      return .undefined
  | .answer value => Action.fromExcept value.answer
  | .answerData data => Action.fromExcept data.answer

namespace Globals

/-- The global under which object literals find their prototype. -/
def objectPrototype : Name := .ofText "%ObjectPrototype%"

def builtin (name : String) (routine : Routine) : Draft Value := do
  return .builtin (← Action.newIdentity) 1 (.text name) routine

def define (scope : Scope) (name : Name) (value : Value) : Draft Unit := do
  Draft.extend (← scope.declare name) value

/-- A method of the prototype is found through an address of its own. -/
def defineMethod (allocator : Nat) (prototype : Object) (name : String) (routine : Routine) :
    Draft Unit := do
  let address ← Action.fresh allocator
  Draft.extend address (← builtin name routine)
  prototype.properties.bind (.ofText name) address

/-- The globals are bound in a frame and in the private store. -/
def install (scope : Scope) : Draft Object := do
  let allocator := (← get).session.allocatorOf scope.inner
  define scope (.ofText "print") (← builtin "print" .print)
  define scope (.ofText "undefined") .undefined
  let prototype ← Object.create 0 (← Draft.store) allocator
  define scope objectPrototype (.object prototype)
  defineMethod allocator prototype "hasOwnProperty" .ownPropertyTest
  defineMethod allocator prototype "toString" .describe
  return prototype

end Globals

end ScriptMachine

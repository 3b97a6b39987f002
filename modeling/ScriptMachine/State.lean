/-
This file holds continuations and the states of the machine.
-/

import ScriptMachine.Node.Control
import ScriptMachine.Store

namespace ScriptMachine

/-- Where the value of a call goes: into a slot of the caller's frame, to an address that was
resolved before the call, or nowhere. -/
inductive Target where
  | slot (name : Name)
  | location (address : Address)
  | discard

/-- A name comes before an address, unless it counts as false. -/
def Target.choose (name : Name) (address : Option Address) : Target :=
  if name.written.truthy then .slot name
  else match address with
    | some address => .location address
    | none => .discard

/-- What is still to be done: hand the value of a call to the caller, leave a scope, or leave the
protection of a handler. -/
inductive Pending where
  | call (target : Target) (resume : Control) (scope : Scope)
  | scope (resume : Control) (outer : Scope)
  | handler (clause : Node) (scope : Scope) (resume : Control)

/-- The innermost pending work comes first, and below the last one the machine halts. -/
abbrev Continuation := List Pending

def Pending.label : Pending → String
  | .call .. => "AssignKont"
  | .scope .. => "LeaveScopeKont"
  | .handler .. => "HandlerKont"

def Continuation.labels (continuation : Continuation) : List String :=
  continuation.map Pending.label ++ ["HaltKont"]

/-- A run is active at a statement, or it has ended, possibly by a value that no handler caught. -/
inductive State where
  | active (node : Node) (next : Control) (scope : Scope) (store : Store)
      (continuation : Continuation)
  | halted (scope : Scope) (store : Store) (continuation : Continuation)
  | uncaught (value : Value) (store : Store)

namespace State

def store : State → Store
  | .active _ _ _ store _ | .halted _ store _ | .uncaught _ store => store

def withStore : State → Store → State
  | .active node next scope _ continuation, store => .active node next scope store continuation
  | .halted scope _ continuation, store => .halted scope store continuation
  | .uncaught value _, store => .uncaught value store

def scope? : State → Option Scope
  | .active _ _ scope _ _ | .halted scope _ _ => some scope
  | .uncaught .. => none

/-- The end of the program counts as a statement that is shown. -/
def control : State → Control
  | .active node next _ _ _ => .visit node next
  | .halted .. | .uncaught .. => .done

def continuation : State → Continuation
  | .active _ _ _ _ continuation | .halted _ _ continuation => continuation
  | .uncaught .. => []

/-- Once a value went uncaught, not even halting is pending. -/
def pendingLabels : State → List String
  | .uncaught .. => []
  | state => Continuation.labels state.continuation

def isDone : State → Bool
  | .active .. => false
  | .halted .. | .uncaught .. => true

def uncaught? : State → Option Value
  | .uncaught value _ => some value
  | _ => none

def kindText : State → String
  | .active node _ _ _ _ => node.kindText
  | .halted .. | .uncaught .. => "Done"

def label : State → String
  | .active node _ _ _ _ => node.label
  | .halted .. | .uncaught .. => "Done#-1"

/-- Control that leads nowhere makes no state. -/
def resume (control : Control) (scope : Scope) (store : Store) (continuation : Continuation) :
    Action State :=
  match control with
  | .nowhere => throw (.unreachable .noNode)
  | .done => pure (.halted scope store continuation)
  | .visit node next => pure (.active node next scope store continuation)

end State

end ScriptMachine

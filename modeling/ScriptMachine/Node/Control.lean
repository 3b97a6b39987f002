/-
This file says where control goes from a statement, given what follows it.
-/

import ScriptMachine.Node

namespace ScriptMachine

/-- Control stands at a statement together with everything that follows it, at the end of the
program, or nowhere, which is what follows the body of a function. -/
inductive Control where
  | nowhere
  | done
  | visit (node : Node) (next : Control)

/-- The statements of a body run in order and then control goes on. -/
def Control.through : List Node → Control → Control
  | [], next => next
  | statement :: rest, next => .visit statement (.through rest next)

/-- A body that owns an exit point flows into it. -/
def Control.exiting (exit : Option Nat) (next : Control) : Control :=
  match exit with
  | none => next
  | some id => .visit (.scopeExit id) next

/-- The statements of a block, or of a program in the place of one, with the exit they flow into. -/
def Node.sequence? : Node → Option (List Node × Option Nat)
  | .program _ body => some (body, none)
  | .block _ body exit => some (body, exit)
  | _ => none

/-- A try statement enters its protected block at the first statement. An empty block is passed
over, and so is a clause without a body in its place. -/
def Node.enterProtected (guarded : Node) (exit : Nat) (next : Control) : Control :=
  match guarded.sequence? with
  | none | some ([], _) => next
  | some (first :: rest, inner) =>
      .visit first (.through rest (.exiting inner (.visit (.handlerExit exit) next)))

/-- Where control goes from a statement itself, given what follows it. -/
def Node.next (node : Node) (following : Control) : Control :=
  match node with
  | .program _ body => .through body following
  | .block _ body exit => .through body (.exiting exit following)
  | .returnStatement .. | .throwStatement .. => .nowhere
  | .tryStatement _ guarded _ _ exit => guarded.enterProtected exit following
  | _ => following

@[simp] theorem Control.through_nil (next : Control) : Control.through [] next = next := rfl

@[simp] theorem Control.through_cons (statement : Node) (rest : List Node) (next : Control) :
    Control.through (statement :: rest) next = .visit statement (.through rest next) := rfl

end ScriptMachine

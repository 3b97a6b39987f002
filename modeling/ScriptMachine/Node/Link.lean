/-
This file links the statements of a tree. Linking is one pass over the tree that gives a successor to
every statement and to every exit point, going backwards through each body.
-/

import ScriptMachine.Fault
import ScriptMachine.Node
import Std.Data.TreeMap.Lemmas

namespace ScriptMachine

/-- What a statement goes on to: nothing, the end of the program, or a node. -/
inductive Successor where
  | nowhere
  | done
  | visit (node : Node)

def Successor.label? : Successor → Option String
  | .nowhere => none
  | .done => some "Done#-1"
  | .visit node => some node.label

/-- A body is entered at its first statement, and an empty body is passed over. -/
def Successor.first (body : List Node) (next : Successor) : Successor :=
  match body with
  | [] => next
  | statement :: _ => .visit statement

/-- The last statement of a body that owns an exit point flows into it. -/
def Successor.exiting (exit : Option Nat) (next : Successor) : Successor :=
  match exit with
  | none => next
  | some id => .visit (.scopeExit id)

/-- Successors, by the numbers of the nodes that hold them. -/
structure Links where
  bindings : Std.TreeMap Int Successor

namespace Links

def empty : Links := ⟨{}⟩

/-- A node that was never linked goes nowhere. -/
def next (links : Links) (node : Node) : Successor :=
  links.bindings[node.place.id]?.getD .nowhere

/-- The successor that a node held before is lost. -/
def set (links : Links) (node : Node) (successor : Successor) : Links :=
  ⟨links.bindings.insert node.place.id successor⟩

/-- The exit point that a body owns goes on to what follows the body. -/
def leave (links : Links) (exit : Option Nat) (next : Successor) : Links :=
  match exit with
  | none => links
  | some id => links.set (.scopeExit id) next

theorem next_set_self {links : Links} {node other : Node} {successor : Successor}
    (same : other.place.id = node.place.id) : (links.set node successor).next other = successor := by
  simp [next, set, same]

theorem next_set_of_ne {links : Links} {node other : Node} {successor : Successor}
    (different : other.place.id ≠ node.place.id) :
    (links.set node successor).next other = links.next other := by
  simp [next, set, Std.TreeMap.getElem?_insert, Ne.symm different]

end Links

/-- What stands in the place of a protected block must have a body that is empty or a list. -/
def Node.hasProtectedBody : Node → Bool
  | .program .. | .block .. | .catchClause _ _ .absent => true
  | _ => false

/-- A try statement enters its protected block at the first statement. -/
def Node.entry (guarded : Node) (next : Successor) : Successor :=
  match guarded with
  | .program _ body | .block _ body _ => .first body next
  | _ => next

mutual
/-- A statement is linked together with the statements that it holds. Linking fails on an absent
statement and on parts that have no body to link. -/
def Node.link (node : Node) (next : Successor) (links : Links) : Except Fault Links :=
  match node with
  | .absent => .error .malformed
  | .program _ body => do
      let links ← Node.linkAll body next links
      return links.set node (.first body next)
  | .block _ body exit => do
      let links ← Node.linkAll body (.exiting exit next) (links.leave exit next)
      return links.set node (.first body next)
  | .ifStatement _ _ consequent alternate => do
      let links ← consequent.link next links
      let links ← if alternate.isAbsent then pure links else alternate.link next links
      return links.set node next
  | .whileStatement _ _ body => do
      let links ← body.link (.visit node) links
      return links.set node next
  | .functionDeclaration _ _ _ body => do
      let links ← body.link .nowhere links
      return links.set node next
  | .returnStatement .. | .throwStatement .. => return links.set node .nowhere
  | .tryStatement _ guarded handler _ exit => do
      let links ← handler.linkBody next links
      let links ← guarded.link (.visit (.handlerExit exit)) links
      let links := links.set (.handlerExit exit) next
      if guarded.hasProtectedBody then return links.set node (guarded.entry next)
      else throw .malformed
  | _ => return links.set node next

/-- The body of a handler is linked, the handler itself is not. -/
def Node.linkBody (handler : Node) (next : Successor) (links : Links) : Except Fault Links :=
  match handler with
  | .catchClause _ _ body | .whileStatement _ _ body | .functionDeclaration _ _ _ body
  | .functionExpression _ _ _ body => body.link next links
  | _ => .error .malformed

/-- The last statement of a body is linked first, so that each statement finds the one after it. -/
def Node.linkAll (body : List Node) (next : Successor) (links : Links) : Except Fault Links :=
  match body with
  | [] => return links
  | statement :: rest => do
      let links ← Node.linkAll rest next links
      statement.link (.first rest next) links
end

mutual
/-- The body of a function expression is linked as soon as the expression has been read, with nothing
after it. So the functions inside it are linked before it. -/
def Node.linkFunctions (node : Node) (links : Links) : Except Fault Links :=
  match node with
  | .absent | .scopeExit _ | .handlerExit _ | .emptyStatement _ | .identifier _ | .literal .. =>
      return links
  | .program _ parts | .block _ parts _ | .declaration _ parts _ | .object _ parts
  | .array _ parts => Node.linkFunctionsOf parts links
  | .expressionStatement _ part | .declarator _ _ part | .returnStatement _ part
  | .throwStatement _ part | .catchClause _ _ part | .unary _ _ part | .property _ _ part =>
      part.linkFunctions links
  | .functionDeclaration _ first _ second | .whileStatement _ first second
  | .binary _ _ first second | .logical _ _ first second | .assignment _ _ first second
  | .member _ first second _ => do
      let links ← first.linkFunctions links
      second.linkFunctions links
  | .ifStatement _ test consequent alternate => do
      let links ← test.linkFunctions links
      let links ← consequent.linkFunctions links
      alternate.linkFunctions links
  | .tryStatement _ guarded handler others _ => do
      let links ← guarded.linkFunctions links
      let links ← handler.linkFunctions links
      Node.linkFunctionsOf others links
  | .call _ callee arguments => do
      let links ← callee.linkFunctions links
      Node.linkFunctionsOf arguments links
  | .functionExpression _ name _ body => do
      let links ← name.linkFunctions links
      let links ← body.linkFunctions links
      body.link .nowhere links

def Node.linkFunctionsOf (nodes : List Node) (links : Links) : Except Fault Links :=
  match nodes with
  | [] => return links
  | node :: rest => do
      let links ← node.linkFunctions links
      Node.linkFunctionsOf rest links
end

/-- A tree that was read has its functions linked, and is then linked itself to what follows it. -/
def Node.linked (root : Node) (next : Successor) : Except Fault Links := do
  root.link next (← root.linkFunctions .empty)

end ScriptMachine

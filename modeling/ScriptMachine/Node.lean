/-
This file holds the nodes of a program. A node is built for every position of a tree that the
subset accepts, also where the position is not one its kind belongs in.
-/

import ScriptMachine.Name
import ScriptMachine.Node.Kind
import ScriptMachine.Node.Operator

namespace ScriptMachine

/-- A node has a number of its own and remembers the source range it was given. -/
structure Place where
  id : Int
  range : Tree

structure Ident where
  place : Place
  name : Name

/-- An absent node stands for a position that holds null. A block owns the exit point that its last
statement flows into exactly when it has statements, and a try statement always owns one. -/
inductive Node where
  | absent
  | scopeExit (id : Nat)
  | handlerExit (id : Nat)
  | program (place : Place) (body : List Node)
  | block (place : Place) (body : List Node) (exit : Option Nat)
  | emptyStatement (place : Place)
  | expressionStatement (place : Place) (expression : Node)
  | declarator (place : Place) (target : Ident) (init : Node)
  | declaration (place : Place) (declarators : List Node) (keyword : Tree)
  | functionDeclaration (place : Place) (name : Node) (params : List Ident) (body : Node)
  | returnStatement (place : Place) (argument : Node)
  | ifStatement (place : Place) (test consequent alternate : Node)
  | whileStatement (place : Place) (test body : Node)
  | throwStatement (place : Place) (argument : Node)
  | catchClause (place : Place) (param : Ident) (body : Node)
  | tryStatement (place : Place) (guarded handler : Node) (otherHandlers : List Node) (exit : Nat)
  | identifier (ident : Ident)
  | literal (place : Place) (value : Tree)
  | binary (place : Place) (operator : BinaryOperator) (left right : Node)
  | unary (place : Place) (operator : UnaryOperator) (argument : Node)
  | logical (place : Place) (operator : Tree) (left right : Node)
  | assignment (place : Place) (operator : AssignmentOperator) (left right : Node)
  | call (place : Place) (callee : Node) (arguments : List Node)
  | member (place : Place) (holder selector : Node) (computed : Bool)
  | property (place : Place) (key : Name) (value : Node)
  | object (place : Place) (properties : List Node)
  | array (place : Place) (elements : List Node)
  | functionExpression (place : Place) (name : Node) (params : List Ident) (body : Node)

def Node.kind? : Node → Option Kind
  | .absent => none
  | .scopeExit .. => some .scopeExit
  | .handlerExit .. => some .handlerExit
  | .program .. => some .program
  | .block .. => some .blockStatement
  | .emptyStatement .. => some .emptyStatement
  | .expressionStatement .. => some .expressionStatement
  | .declarator .. => some .variableDeclarator
  | .declaration .. => some .variableDeclaration
  | .functionDeclaration .. => some .functionDeclaration
  | .returnStatement .. => some .returnStatement
  | .ifStatement .. => some .ifStatement
  | .whileStatement .. => some .whileStatement
  | .throwStatement .. => some .throwStatement
  | .catchClause .. => some .catchClause
  | .tryStatement .. => some .tryStatement
  | .identifier .. => some .identifier
  | .literal .. => some .literal
  | .binary .. => some .binaryExpression
  | .unary .. => some .unaryExpression
  | .logical .. => some .logicalExpression
  | .assignment .. => some .assignmentExpression
  | .call .. => some .callExpression
  | .member .. => some .memberExpression
  | .property .. => some .property
  | .object .. => some .objectExpression
  | .array .. => some .arrayExpression
  | .functionExpression .. => some .functionExpression

/-- Exit points have no range, and an absent node has the number zero only for want of another. -/
def Node.place : Node → Place
  | .absent => ⟨0, .null⟩
  | .scopeExit id | .handlerExit id => ⟨id, .null⟩
  | .identifier ident => ident.place
  | .program place .. | .block place .. | .emptyStatement place | .expressionStatement place ..
  | .declarator place .. | .declaration place .. | .functionDeclaration place ..
  | .returnStatement place .. | .ifStatement place .. | .whileStatement place ..
  | .throwStatement place .. | .catchClause place .. | .tryStatement place ..
  | .literal place .. | .binary place .. | .unary place .. | .logical place ..
  | .assignment place .. | .call place .. | .member place .. | .property place ..
  | .object place .. | .array place .. | .functionExpression place .. => place

def Node.kindText (node : Node) : String :=
  (node.kind?.map Kind.text).getD "None"

/-- A node is shown as its kind and its number. -/
def Node.label (node : Node) : String :=
  match node.kind? with
  | none => "None"
  | some kind => kind.text ++ "#" ++ toString node.place.id

def Node.isAbsent : Node → Bool
  | .absent => true
  | _ => false

def Node.isCall : Node → Bool
  | .call .. => true
  | _ => false

def Node.isProgram : Node → Bool
  | .program .. => true
  | _ => false

/-- The name that a node declares. An anonymous function expression declares a missing name, and
most nodes have none to ask for. -/
def Node.declaredName? : Node → Option Name
  | .identifier ident => some ident.name
  | .declarator _ target _ => some target.name
  | .functionDeclaration _ name _ _ => name.declaredName?
  | .functionExpression place .absent _ _ => some ⟨.null, place.id⟩
  | .functionExpression _ name _ _ => name.declaredName?
  | _ => none

/-- The code of a function: where it stands, what it is called, and what it binds and runs. -/
structure Code where
  kind : Kind
  id : Int
  name : Tree
  params : List Ident
  body : Node

/-- A function whose name node declares no name runs without one. -/
def Node.codeName (node : Node) : Tree := (node.declaredName?.map Name.written).getD .null

def Code.ofDeclaration (place : Place) (name : Node) (params : List Ident) (body : Node) : Code :=
  let node := Node.functionDeclaration place name params body
  ⟨.functionDeclaration, place.id, node.codeName, params, body⟩

def Code.ofExpression (place : Place) (name : Node) (params : List Ident) (body : Node) : Code :=
  let node := Node.functionExpression place name params body
  ⟨.functionExpression, place.id, node.codeName, params, body⟩

def Code.label (code : Code) : String :=
  code.kind.text ++ "#" ++ toString code.id

/-- A function without a name is shown by a stand-in. -/
def Code.displayName (code : Code) : Tree :=
  code.name.orText "anon"

end ScriptMachine

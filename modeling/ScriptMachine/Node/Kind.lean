/-
This file holds the kinds of nodes and the texts that name them.
-/

namespace ScriptMachine

/-- The last two kinds are exit points, which no tree contains. -/
inductive Kind where
  | program
  | blockStatement
  | emptyStatement
  | expressionStatement
  | variableDeclaration
  | variableDeclarator
  | functionDeclaration
  | returnStatement
  | ifStatement
  | whileStatement
  | throwStatement
  | tryStatement
  | catchClause
  | identifier
  | literal
  | binaryExpression
  | unaryExpression
  | logicalExpression
  | assignmentExpression
  | callExpression
  | memberExpression
  | objectExpression
  | property
  | arrayExpression
  | functionExpression
  | scopeExit
  | handlerExit
deriving DecidableEq

def Kind.text : Kind → String
  | .program => "Program"
  | .blockStatement => "BlockStatement"
  | .emptyStatement => "EmptyStatement"
  | .expressionStatement => "ExpressionStatement"
  | .variableDeclaration => "VariableDeclaration"
  | .variableDeclarator => "VariableDeclarator"
  | .functionDeclaration => "FunctionDeclaration"
  | .returnStatement => "ReturnStatement"
  | .ifStatement => "IfStatement"
  | .whileStatement => "WhileStatement"
  | .throwStatement => "ThrowStatement"
  | .tryStatement => "TryStatement"
  | .catchClause => "CatchClause"
  | .identifier => "Identifier"
  | .literal => "Literal"
  | .binaryExpression => "BinaryExpression"
  | .unaryExpression => "UnaryExpression"
  | .logicalExpression => "LogicalExpression"
  | .assignmentExpression => "AssignmentExpression"
  | .callExpression => "CallExpression"
  | .memberExpression => "MemberExpression"
  | .objectExpression => "ObjectExpression"
  | .property => "Property"
  | .arrayExpression => "ArrayExpression"
  | .functionExpression => "FunctionExpression"
  | .scopeExit => "LeaveScope"
  | .handlerExit => "LeaveHandler"

/-- The kinds that a tree may contain. -/
def Kind.readable : List Kind :=
  [.program, .blockStatement, .emptyStatement, .expressionStatement, .variableDeclaration,
   .variableDeclarator, .functionDeclaration, .returnStatement, .ifStatement, .whileStatement,
   .throwStatement, .tryStatement, .catchClause, .identifier, .literal, .binaryExpression,
   .unaryExpression, .logicalExpression, .assignmentExpression, .callExpression,
   .memberExpression, .objectExpression, .property, .arrayExpression, .functionExpression]

def Kind.ofText? (text : String) : Option Kind :=
  Kind.readable.find? fun kind => kind.text == text

theorem Kind.text_of_ofText {text : String} {kind : Kind} (found : Kind.ofText? text = some kind) :
    kind.text = text := by
  simpa using List.find?_some found

theorem Kind.ofText_text {kind : Kind} (member : kind ∈ Kind.readable) :
    Kind.ofText? kind.text = some kind := by
  revert member
  cases kind <;> decide

end ScriptMachine

/-
This file shows a node part by part.
-/

import ScriptMachine.Node

namespace ScriptMachine

inductive Field where
  | node (child : Node)
  | nodes (children : List Node)
  | data (value : Tree)

def Field.name (name : Name) : Field := .data name.written

def Field.exit (exit : Option Nat) : Field :=
  .node ((exit.map Node.scopeExit).getD .absent)

def Field.params (params : List Ident) : Field :=
  .nodes (params.map Node.identifier)

/-- The parts of a node under the names of their positions. -/
def Node.fields (node : Node) : List (String × Field) :=
  match node with
  | .absent | .scopeExit _ | .handlerExit _ | .emptyStatement _ => []
  | .program _ body => [("body", .nodes body)]
  | .block _ body exit => [("body", .nodes body), ("exit", .exit exit)]
  | .expressionStatement _ expression => [("expression", .node expression)]
  | .declarator _ target init => [("id", .node (.identifier target)), ("init", .node init)]
  | .declaration _ declarators keyword =>
      [("declarations", .nodes declarators), ("declaration_kind", .data keyword)]
  | .functionDeclaration _ name params body | .functionExpression _ name params body =>
      [("id", .node name), ("params", .params params), ("body", .node body)]
  | .returnStatement _ argument | .throwStatement _ argument => [("argument", .node argument)]
  | .ifStatement _ test consequent alternate =>
      [("test", .node test), ("consequent", .node consequent), ("alternate", .node alternate)]
  | .whileStatement _ test body => [("test", .node test), ("body", .node body)]
  | .catchClause _ param body => [("param", .node (.identifier param)), ("body", .node body)]
  | .tryStatement _ guarded handler others exit =>
      [("block", .node guarded), ("handlers", .nodes (handler :: others)),
       ("handler_exit", .node (.handlerExit exit))]
  | .identifier ident => [("name", .name ident.name)]
  | .literal _ value => [("value", .data value)]
  | .binary _ operator left right =>
      [("operator", .data operator.toTree), ("left", .node left), ("right", .node right)]
  | .unary _ operator argument =>
      [("operator", .data operator.toTree), ("argument", .node argument)]
  | .logical _ operator left right =>
      [("operator", .data operator), ("left", .node left), ("right", .node right)]
  | .assignment _ operator left right =>
      [("operator", .data operator.toTree), ("left", .node left), ("right", .node right)]
  | .call _ callee arguments => [("callee", .node callee), ("arguments", .nodes arguments)]
  | .member _ holder selector computed =>
      [("object", .node holder), ("property", .node selector), ("computed", .data (.bool computed))]
  | .property _ key value => [("key", .name key), ("value", .node value)]
  | .object _ properties => [("properties", .nodes properties)]
  | .array _ elements => [("elements", .nodes elements)]

end ScriptMachine

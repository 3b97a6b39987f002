/-
This file outlines a linked tree statement by statement, each line with the successor of its
statement.
-/

import ScriptMachine.Node.Excerpt
import ScriptMachine.Node.Link

namespace ScriptMachine

/-- A line of an outline fails when the range of its statement cannot be read. -/
abbrev Outline := List (Except Fault String)

def Node.isShownWithSource : Node → Bool
  | .expressionStatement .. | .declaration .. | .returnStatement .. | .throwStatement .. => true
  | _ => false

/-- A negative indent indents nothing, but deeper lines count from it. -/
def Outline.pad (indent : Int) : String := String.ofList (List.replicate indent.toNat ' ')

def Node.outlineLine (source : Option String) (indent : Int) (links : Links) (node : Node) :
    Except Fault String := do
  let shown ← if node.isShownWithSource then (node.excerpt source).map fun text => " " ++ text
    else pure ""
  return Outline.pad indent ++ toString node.place.id ++ ": " ++ node.kindText ++ shown ++ " -> " ++
    ((links.next node).label?).getD "-"

def Outline.heading (indent : Int) (title : String) : Except Fault String :=
  .ok (Outline.pad indent ++ "  " ++ title)

mutual
/-- Nested statements are indented below the statement that holds them. -/
def Node.outline (source : Option String) (indent : Int) (links : Links) (node : Node) : Outline :=
  match node with
  | .absent => []
  | .program _ body | .block _ body _ =>
      node.outlineLine source indent links :: Node.outlineBody source (indent + 2) links body
  | .ifStatement _ _ consequent alternate =>
      node.outlineLine source indent links ::
        Outline.heading indent "then:" :: consequent.outline source (indent + 2) links ++
        (if alternate.isAbsent then []
        else Outline.heading indent "else:" :: alternate.outline source (indent + 2) links)
  | .whileStatement _ _ body | .functionDeclaration _ _ _ body =>
      node.outlineLine source indent links :: body.outline source (indent + 2) links
  | .tryStatement _ guarded handler _ _ =>
      node.outlineLine source indent links :: guarded.outline source (indent + 2) links ++
        Outline.heading indent "catch:" :: handler.outlineHandler source (indent + 2) links
  | _ => [node.outlineLine source indent links]

/-- The body of a handler follows the block that it protects. -/
def Node.outlineHandler (source : Option String) (indent : Int) (links : Links) : Node → Outline
  | .catchClause _ _ body | .whileStatement _ _ body | .functionDeclaration _ _ _ body
  | .functionExpression _ _ _ body => body.outline source indent links
  | _ => [.error .malformed]

def Node.outlineBody (source : Option String) (indent : Int) (links : Links) : List Node → Outline
  | [] => []
  | statement :: rest =>
      statement.outline source indent links ++ Node.outlineBody source indent links rest
end

end ScriptMachine

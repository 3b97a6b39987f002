/-
This file reads the source range of a node and shows the source text there.
-/

import ScriptMachine.Fault
import ScriptMachine.Node
import ScriptMachine.Text.Blank
import ScriptMachine.Text.Slice

namespace ScriptMachine

/-- The first two members of a range are its bounds. The bounds of a text are its characters. -/
def Tree.span? : Tree → Except Fault (Option (Tree × Tree))
  | .null => .ok none
  | .list (start :: stop :: _) => .ok (some (start, stop))
  | .text value =>
      match value.toList with
      | start :: stop :: _ => .ok (some (.text start.toString, .text stop.toString))
      | _ => .error .malformed
  | _ => .error .malformed

def Place.span? (place : Place) : Except Fault (Option (Tree × Tree)) :=
  place.range.span?

/-- A bound is a whole number, or missing. -/
def Tree.position? : Tree → Except Fault (Option Int)
  | .null => .ok none
  | .int value => .ok (some value)
  | .bool value => .ok (some (if value then 1 else 0))
  | _ => .error .malformed

/-- The source text of a node on one line, or its kind where there is no source or no range. -/
def Node.excerpt (node : Node) (source : Option String) : Except Fault String := do
  match source, ← node.place.span? with
  | some text, some (start, stop) =>
      return Text.collapse (Text.slice text (← start.position?) (← stop.position?))
  | _, _ => return node.kindText

end ScriptMachine

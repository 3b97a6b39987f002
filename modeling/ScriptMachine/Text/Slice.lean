/-
This file cuts excerpts out of a text by code point positions.
-/

namespace ScriptMachine.Text

/-- A negative position counts from the end, and every position is clipped to the text. -/
def clip (length : Nat) (position : Int) : Nat :=
  if position < 0 then (position + length).toNat else min position.toNat length

/-- A missing bound stands for the corresponding end of the text. -/
def slice (text : String) (start stop : Option Int) : String :=
  let characters := text.toList
  let lower := (start.map (clip characters.length)).getD 0
  let upper := (stop.map (clip characters.length)).getD characters.length
  String.ofList ((characters.take upper).drop lower)

end ScriptMachine.Text

/-
This file turns the line endings of a file into line feeds.
-/

namespace ScriptMachine.Text

/-- A carriage return, with the line feed after it if there is one, becomes one line feed. -/
def lineFeeds : List Char → List Char
  | [] => []
  | '\r' :: '\n' :: rest => '\n' :: lineFeeds rest
  | '\r' :: rest => '\n' :: lineFeeds rest
  | character :: rest => character :: lineFeeds rest

/-- The text of a file has no carriage returns. -/
def unifyNewlines (text : String) : String :=
  String.ofList (lineFeeds text.toList)

end ScriptMachine.Text

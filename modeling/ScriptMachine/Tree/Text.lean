/-
This file writes plain data as text.
-/

import ScriptMachine.Decimal.Layout
import ScriptMachine.Text.Quoted
import ScriptMachine.Tree

namespace ScriptMachine

mutual
/-- Data is spelled with quoted texts, and lists and records show their members in order. An
attribute without a name is not shown. -/
def Tree.spelled : Tree → String
  | .null => "None"
  | .bool value => if value then "True" else "False"
  | .int value => toString value
  | .float value => Decimal.floatText value
  | .text value => Text.quoted value
  | .list items => "[" ++ ", ".intercalate (Tree.spelledItems items) ++ "]"
  | .record .dictionary fields =>
      "\x7b" ++ ", ".intercalate (Tree.spelledFields fields) ++ "\x7d"
  | .record .attributes fields =>
      "namespace(" ++ ", ".intercalate (Tree.spelledAttributes fields) ++ ")"

def Tree.spelledItems : List Tree → List String
  | [] => []
  | item :: rest => item.spelled :: Tree.spelledItems rest

def Tree.spelledFields : List (String × Tree) → List String
  | [] => []
  | (name, value) :: rest =>
      (Text.quoted name ++ ": " ++ value.spelled) :: Tree.spelledFields rest

def Tree.spelledAttributes : List (String × Tree) → List String
  | [] => []
  | (name, value) :: rest =>
      if name.isEmpty then Tree.spelledAttributes rest
      else (name ++ "=" ++ value.spelled) :: Tree.spelledAttributes rest
end

/-- A text on its own is shown without quotes. -/
def Tree.shown : Tree → String
  | .text value => value
  | tree => tree.spelled

end ScriptMachine

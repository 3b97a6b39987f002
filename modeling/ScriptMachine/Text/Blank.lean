/-
This file holds white space: which characters are blank, how the blanks around a text are removed,
and how the blanks inside it are collapsed.
-/

namespace ScriptMachine.Text

/-- A blank is any white space of Unicode, the information separators included. -/
def isBlank (character : Char) : Bool :=
  let code := character.toNat
  (9 ≤ code && code ≤ 13) || (28 ≤ code && code ≤ 32) || code == 0x85 || code == 0xA0 ||
    code == 0x1680 || (0x2000 ≤ code && code ≤ 0x200A) || code == 0x2028 || code == 0x2029 ||
    code == 0x202F || code == 0x205F || code == 0x3000

/-- A character either ends the word before it or extends the word after it. -/
def wordStep (character : Char) : List (List Char) → List (List Char)
  | [] => if isBlank character then [[]] else [[character]]
  | word :: rest => if isBlank character then [] :: word :: rest else (character :: word) :: rest

/-- The words are the maximal runs of characters that are not blank. -/
def words (text : List Char) : List (List Char) :=
  (text.foldr wordStep []).filter fun word => !word.isEmpty

/-- The words of a text are joined by single spaces. -/
def collapse (text : String) : String :=
  " ".intercalate ((words text.toList).map String.ofList)

/-- Blanks at both ends of a text are removed. -/
def trim (text : String) : String :=
  String.ofList ((text.toList.dropWhile isBlank).reverse.dropWhile isBlank).reverse

end ScriptMachine.Text

/-
This file reads trees that are written as JSON text. Whole numbers become integers, and numbers with
a fraction or an exponent become doubles.
-/

import ScriptMachine.Tree

namespace ScriptMachine.Json

def isSpace (character : Char) : Bool :=
  character == ' ' || character == '\n' || character == '\r' || character == '\t'

def skipSpace (input : List Char) : List Char := input.dropWhile isSpace

def hexDigit? (character : Char) : Option Nat :=
  if character.isDigit then some (character.toNat - '0'.toNat)
  else if 'a' ≤ character ∧ character ≤ 'f' then some (character.toNat - 'a'.toNat + 10)
  else if 'A' ≤ character ∧ character ≤ 'F' then some (character.toNat - 'A'.toNat + 10)
  else none

def hexNumber? (digits : List Char) : Option Nat :=
  digits.foldlM (fun total digit => (hexDigit? digit).map fun value => total * 16 + value) 0

def escaped? : Char → Option Nat
  | 'b' => some 8
  | 'f' => some 12
  | 'n' => some 10
  | 'r' => some 13
  | 't' => some 9
  | character =>
      if character == '"' || character == '\\' || character == '/' then some character.toNat
      else none

/-- Control characters have to be escaped. -/
def plain? (character : Char) : Option Nat :=
  if character.toNat < 32 then none else some character.toNat

/-- The code units of a string up to its closing quote, and the text after it. -/
def units : List Char → Option (List Nat × List Char)
  | [] => none
  | '"' :: rest => some ([], rest)
  | '\\' :: 'u' :: first :: second :: third :: fourth :: rest => do
      let unit ← hexNumber? [first, second, third, fourth]
      let (found, left) ← units rest
      return (unit :: found, left)
  | '\\' :: character :: rest => do
      let unit ← escaped? character
      let (found, left) ← units rest
      return (unit :: found, left)
  | character :: rest => do
      let unit ← plain? character
      let (found, left) ← units rest
      return (unit :: found, left)

/-- Two surrogate units make one character, and a surrogate that stands alone is replaced. -/
def joinUnits : List Nat → List Char
  | [] => []
  | high :: low :: rest =>
      if 0xD800 ≤ high ∧ high < 0xDC00 ∧ 0xDC00 ≤ low ∧ low < 0xE000 then
        Char.ofNat (0x10000 + (high - 0xD800) * 0x400 + (low - 0xDC00)) :: joinUnits rest
      else (if 0xD800 ≤ high ∧ high < 0xE000 then '�' else Char.ofNat high) ::
        joinUnits (low :: rest)
  | [unit] => [if 0xD800 ≤ unit ∧ unit < 0xE000 then '�' else Char.ofNat unit]

def string (input : List Char) : Option (String × List Char) :=
  (units input).map fun (found, left) => (String.ofList (joinUnits found), left)

def digitsValue (digits : List Char) : Nat :=
  digits.foldl (fun total digit => total * 10 + (digit.toNat - '0'.toNat)) 0

def digitRun (input : List Char) : List Char × List Char :=
  (input.takeWhile Char.isDigit, input.dropWhile Char.isDigit)

/-- The digits after the point, and whether there was one. -/
def fraction (input : List Char) : Option (Option (List Char) × List Char) :=
  match input with
  | '.' :: rest =>
      let (digits, left) := digitRun rest
      if digits.isEmpty then none else some (some digits, left)
  | _ => some (none, input)

/-- A power of ten, and whether one was written. -/
def power (input : List Char) : Option (Option Int × List Char) :=
  let signed := fun (negative : Bool) (rest : List Char) =>
    let (digits, left) := digitRun rest
    if digits.isEmpty then none
    else some (some (if negative then -(digitsValue digits : Int) else digitsValue digits), left)
  match input with
  | 'e' :: '-' :: rest | 'E' :: '-' :: rest => signed true rest
  | 'e' :: '+' :: rest | 'E' :: '+' :: rest => signed false rest
  | 'e' :: rest | 'E' :: rest => signed false rest
  | _ => some (none, input)

/-- The double nearest to a decimal. -/
def double (negative : Bool) (digits : Nat) (exponent : Int) : Float :=
  let magnitude := Float.ofScientific digits (exponent < 0) exponent.natAbs
  if negative then -magnitude else magnitude

def number (input : List Char) : Option (Tree × List Char) := do
  let negative := input.head? == some '-'
  let (whole, afterWhole) := digitRun (if negative then input.tail else input)
  if whole.isEmpty || (whole.length > 1 && whole.head? == some '0') then none
  else
    let (places, afterPlaces) ← fraction afterWhole
    let (exponent, left) ← power afterPlaces
    match places, exponent with
    | none, none =>
        let value : Int := digitsValue whole
        return (.int (if negative then -value else value), left)
    | _, _ =>
        let decimals := places.getD []
        let shifted := exponent.getD 0 - decimals.length
        return (.float (double negative (digitsValue (whole ++ decimals)) shifted), left)

def word (text : String) (tree : Tree) (input : List Char) : Option (Tree × List Char) :=
  if text.toList.isPrefixOf input then some (tree, input.drop text.length) else none

/-- Of two fields with one name the later one counts. -/
def addField (name : String) (tree : Tree) (later : List (String × Tree)) :
    List (String × Tree) :=
  if later.any fun field => field.1 == name then later else (name, tree) :: later

mutual
/-- A value takes at least one character, so the length of the text is enough fuel for it. -/
def value : Nat → List Char → Option (Tree × List Char)
  | 0, _ => none
  | fuel + 1, input =>
      match skipSpace input with
      | 'n' :: rest => word "null" .null ('n' :: rest)
      | 't' :: rest => word "true" (.bool true) ('t' :: rest)
      | 'f' :: rest => word "false" (.bool false) ('f' :: rest)
      | '"' :: rest => (string rest).map fun (text, left) => (.text text, left)
      | '[' :: rest =>
          match skipSpace rest with
          | ']' :: left => some (.list [], left)
          | _ => (items fuel rest).map fun (found, left) => (.list found, left)
      | '\x7b' :: rest =>
          match skipSpace rest with
          | '\x7d' :: left => some (.record .dictionary [], left)
          | _ => (fields fuel rest).map fun (found, left) => (.record .dictionary found, left)
      | rest => number rest

def items : Nat → List Char → Option (List Tree × List Char)
  | 0, _ => none
  | fuel + 1, input => do
      let (first, afterFirst) ← value fuel input
      match skipSpace afterFirst with
      | ']' :: left => return ([first], left)
      | ',' :: rest => do
          let (others, left) ← items fuel rest
          return (first :: others, left)
      | _ => none

def fields : Nat → List Char → Option (List (String × Tree) × List Char)
  | 0, _ => none
  | fuel + 1, input => do
      match skipSpace input with
      | '"' :: rest =>
          let (name, afterName) ← string rest
          match skipSpace afterName with
          | ':' :: afterColon => do
              let (first, afterFirst) ← value fuel afterColon
              match skipSpace afterFirst with
              | '\x7d' :: left => return ([(name, first)], left)
              | ',' :: others => do
                  let (found, left) ← fields fuel others
                  return (addField name first found, left)
              | _ => none
          | _ => none
      | _ => none
end

/-- A text is one value with nothing but space around it. -/
def parse? (text : String) : Option Tree :=
  match value (2 * text.length + 1) text.toList with
  | some (tree, left) => if (skipSpace left).isEmpty then some tree else none
  | none => none

end ScriptMachine.Json

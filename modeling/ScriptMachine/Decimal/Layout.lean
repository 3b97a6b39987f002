/-
This file lays out the digits of a double as text, positionally or with an exponent.
-/

import ScriptMachine.Decimal.Shortest

namespace ScriptMachine.Decimal

/-- Numbers whose leading power lies in the half-open range are written positionally, and an
exponent has at least the given number of digits. -/
structure Style where
  positionalFrom : Int
  positionalBelow : Int
  exponentWidth : Nat

/-- Numbers from 0.0001 up to 10^16 are positional, and exponents have two digits. -/
def Style.plain : Style := ⟨-4, 16, 2⟩

def zeros (count : Nat) : List Char :=
  List.replicate count '0'

def digitsOf (number : Nat) : List Char :=
  Nat.toDigits 10 number

/-- The point stands after the given number of digits, which may be negative or too large. -/
def positional (digits : List Char) (point : Int) : List Char :=
  if point ≤ 0 then '0' :: '.' :: zeros (-point).toNat ++ digits
  else if point < digits.length then
    digits.take point.toNat ++ '.' :: digits.drop point.toNat
  else digits ++ zeros (point.toNat - digits.length) ++ ['.', '0']

def exponentText (style : Style) (power : Int) : List Char :=
  let digits := digitsOf power.natAbs
  (if power < 0 then '-' else '+') :: zeros (style.exponentWidth - digits.length) ++ digits

def scientific (style : Style) (digits : List Char) (power : Int) : List Char :=
  let mantissa := match digits with
    | [] => []
    | [digit] => [digit]
    | digit :: rest => digit :: '.' :: rest
  mantissa ++ 'e' :: exponentText style power

def Style.layout (style : Style) (decimal : Numeral) : List Char :=
  let digits := digitsOf decimal.digits
  let point := decimal.exponent + digits.length
  if style.positionalFrom ≤ point - 1 ∧ point - 1 < style.positionalBelow then
    positional digits point
  else scientific style digits (point - 1)

/-- A number is written with the fewest digits that read back as it. -/
def floatText (number : Float) : String :=
  if number.isNaN then "nan"
  else if number.isInf then if 0 < number then "inf" else "-inf"
  else
    let binary := Binary.ofFloat number
    let sign := if binary.negative then "-" else ""
    if binary.significand == 0 then sign ++ "0.0"
    else sign ++ String.ofList (Style.plain.layout (shortest number.abs))

/-- Integral values below 10^21 are written exactly, all others with the shortest digits. -/
def numberText (number : Float) : String :=
  if number.isNaN then "NaN"
  else if number.isInf then if 0 < number then "Infinity" else "-Infinity"
  else
    let binary := Binary.ofFloat number
    if binary.significand == 0 then "0"
    else if binary.isIntegral && binary.floor < Nat.pow 10 21 then
      String.ofList ((if binary.negative then ['-'] else []) ++ digitsOf binary.floor)
    else floatText number

end ScriptMachine.Decimal

/-
This file finds the fewest decimal digits that read back as a given double. Main statement: the
digits found on a grid read back as the double they were found for.
-/

import ScriptMachine.Decimal.Binary

namespace ScriptMachine.Decimal

/-- A numeral stands for its digits times a power of ten. -/
structure Numeral where
  digits : Nat
  exponent : Int
deriving DecidableEq

/-- The double nearest to a numeral. -/
def Numeral.toFloat (numeral : Numeral) : Float :=
  Float.ofScientific numeral.digits (numeral.exponent < 0) numeral.exponent.natAbs

def Numeral.readsBack (numeral : Numeral) (number : Float) : Bool :=
  numeral.toFloat.toBits == number.toBits

def digitCount (number : Nat) : Nat :=
  (Nat.toDigits 10 number).length

/-- The power of ten of the first significant digit of a nonzero magnitude. -/
def leadingPower (binary : Binary) : Int :=
  if binary.denominator ≤ binary.numerator then digitCount binary.floor - 1
  else -digitCount (binary.denominator / binary.numerator)

/-- A point of a grid is written with one digit fewer when it is the power of ten above the grid. -/
def gridPoint (count : Nat) (digits : Nat) (exponent : Int) : Numeral :=
  if digits == Nat.pow 10 count then ⟨Nat.pow 10 (count - 1), exponent + 1⟩ else ⟨digits, exponent⟩

/-- The two neighbours of a magnitude on the grid of a digit count, the nearer one first. A tie
goes to the even neighbour. -/
def neighbours (binary : Binary) (count : Nat) : List Numeral :=
  let exponent := leadingPower binary - count + 1
  let numerator := binary.numerator * Nat.pow 10 (-exponent).toNat
  let denominator := binary.denominator * Nat.pow 10 exponent.toNat
  let below := numerator / denominator
  let twice := 2 * (numerator % denominator)
  let lower := gridPoint count below exponent
  let upper := gridPoint count (below + 1) exponent
  if twice < denominator || (twice == denominator && below % 2 == 0) then [lower, upper]
  else [upper, lower]

/-- Every magnitude has a finite decimal expansion. -/
def expansion (binary : Binary) : Numeral :=
  if 0 ≤ binary.exponent then ⟨binary.numerator, 0⟩
  else ⟨binary.significand * Nat.pow 5 (-binary.exponent).toNat, binary.exponent⟩

/-- The first grid that holds a neighbour which reads back gives the shortest numeral. Grids of
one to seventeen digits are tried. -/
def shortest? (magnitude : Float) : Option Numeral :=
  let binary := Binary.ofFloat magnitude
  (List.range' 1 17).findSome? fun count =>
    (neighbours binary count).find? fun numeral => numeral.readsBack magnitude

def shortest (magnitude : Float) : Numeral :=
  (shortest? magnitude).getD (expansion (Binary.ofFloat magnitude))

theorem readsBack_of_shortest {magnitude : Float} {numeral : Numeral}
    (found : shortest? magnitude = some numeral) : numeral.readsBack magnitude := by
  obtain ⟨_, _, hit⟩ := List.exists_of_findSome?_eq_some found
  simpa using List.find?_some hit

end ScriptMachine.Decimal

/-
This file reads a double as an exact significand and power of two.
-/

namespace ScriptMachine.Decimal

/-- The magnitude of a finite double is its significand times a power of two. -/
structure Binary where
  negative : Bool
  significand : Nat
  exponent : Int
deriving DecidableEq

/-- The eleven bits of the exponent follow the sign, and the fraction comes last. -/
def Binary.ofFloat (number : Float) : Binary :=
  let bits := number.toBits.toNat
  let negative := bits / Nat.pow 2 63 == 1
  let biased : Nat := bits / Nat.pow 2 52 % Nat.pow 2 11
  let fraction : Nat := bits % Nat.pow 2 52
  if biased == 0 then ⟨negative, fraction, -1074⟩
  else ⟨negative, Nat.pow 2 52 + fraction, biased - 1075⟩

def Binary.numerator (binary : Binary) : Nat :=
  binary.significand * Nat.pow 2 binary.exponent.toNat

def Binary.denominator (binary : Binary) : Nat :=
  Nat.pow 2 (-binary.exponent).toNat

/-- The integer part of the magnitude. -/
def Binary.floor (binary : Binary) : Nat :=
  binary.numerator / binary.denominator

def Binary.isIntegral (binary : Binary) : Bool :=
  binary.numerator % binary.denominator == 0

theorem Binary.denominator_pos (binary : Binary) : 0 < binary.denominator :=
  Nat.two_pow_pos _

theorem Binary.floor_mul_denominator {binary : Binary} (integral : binary.isIntegral) :
    binary.floor * binary.denominator = binary.numerator := by
  simp only [isIntegral, beq_iff_eq] at integral
  exact Nat.div_mul_cancel (Nat.dvd_of_mod_eq_zero integral)

end ScriptMachine.Decimal

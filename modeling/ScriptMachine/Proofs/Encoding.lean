/-
This file relates the bits of a double to its significand and exponent. Main statements: a double has a
canonical magnitude, which determines it together with its sign, and packing a canonical magnitude gives the
double that has it.
-/

import Mathlib
import ScriptMachine.Proofs.Nearest

namespace ScriptMachine.Decimal

open Float.Model
open UnpackedFloat (Sign packComponents)

namespace Binary

/-- The sign, the exponent and the fraction of the bits of a double. -/
theorem ofFloat_eq {number : Float} {negative : Bool} {biased fraction : ℕ}
    (bits : number.toBits.toNat = negative.toNat * 2 ^ 63 + biased * 2 ^ 52 + fraction)
    (exponents : biased < 2 ^ 11) (fractions : fraction < 2 ^ 52) :
    ofFloat number =
      if biased = 0 then ⟨negative, fraction, -1074⟩ else ⟨negative, 2 ^ 52 + fraction, biased - 1075⟩ := by
  have sign : (number.toBits.toNat / Nat.pow 2 63 == 1) = negative := by
    rw [bits, Nat.pow_eq]
    cases negative with
    | false =>
        rw [Bool.toNat_false, beq_eq_false_iff_ne]
        omega
    | true =>
        rw [Bool.toNat_true, beq_iff_eq]
        omega
  have middle : number.toBits.toNat / Nat.pow 2 52 % Nat.pow 2 11 = biased := by
    simp only [Nat.pow_eq]
    cases negative <;> simp only [Bool.toNat_false, Bool.toNat_true] at bits <;> omega
  have last : number.toBits.toNat % Nat.pow 2 52 = fraction := by
    simp only [Nat.pow_eq]
    cases negative <;> simp only [Bool.toNat_false, Bool.toNat_true] at bits <;> omega
  simp only [ofFloat, sign, middle, last, beq_iff_eq, Nat.pow_eq]

/-- The bits of a double consist of its sign, its exponent and its fraction. -/
theorem exists_bits (number : Float) :
    ∃ (negative : Bool) (biased fraction : ℕ),
      number.toBits.toNat = negative.toNat * 2 ^ 63 + biased * 2 ^ 52 + fraction ∧
      biased < 2 ^ 11 ∧ fraction < 2 ^ 52 := by
  have bounded := number.toBits.toNat_lt
  refine ⟨decide (2 ^ 63 ≤ number.toBits.toNat), number.toBits.toNat / 2 ^ 52 % 2 ^ 11,
    number.toBits.toNat % 2 ^ 52, ?_, by omega, by omega⟩
  by_cases high : 2 ^ 63 ≤ number.toBits.toNat
  · simp only [high, decide_true, Bool.toNat_true]
    omega
  · simp only [high, decide_false, Bool.toNat_false]
    omega

theorem canonical_ofFloat (number : Float) : (ofFloat number).Canonical := by
  obtain ⟨negative, biased, fraction, bits, exponents, fractions⟩ := exists_bits number
  rw [ofFloat_eq bits exponents fractions]
  split
  · exact ⟨by simp only; omega, by simp only; omega, .inr rfl⟩
  · exact ⟨by simp only; omega, by simp only; omega, .inl (by simp only; omega)⟩

/-- A double is determined by its sign, its significand and its exponent. -/
theorem toBits_eq_of_ofFloat_eq {first second : Float} (same : ofFloat first = ofFloat second) :
    first.toBits = second.toBits := by
  obtain ⟨negative, biased, fraction, bits, exponents, fractions⟩ := exists_bits first
  obtain ⟨negative', biased', fraction', bits', exponents', fractions'⟩ := exists_bits second
  rw [ofFloat_eq bits exponents fractions, ofFloat_eq bits' exponents' fractions'] at same
  apply UInt64.toNat_inj.mp
  rw [bits, bits']
  split at same <;> split at same <;> rw [Binary.mk.injEq] at same <;> obtain ⟨rfl, _, _⟩ := same <;> omega

end Binary

/-- The sign that a bit stands for. -/
def signOf (negative : Bool) : Sign :=
  if negative then .negative else .positive

/-- The components stand side by side in the bits. -/
theorem toNat_packComponents (negative : Bool) (exponent : BitVec 11) (mantissa : BitVec 52) :
    (packComponents .binary64 (signOf negative) exponent mantissa).toNat =
      negative.toNat * 2 ^ 63 + exponent.toNat * 2 ^ 52 + mantissa.toNat := by
  change ((signOf negative).toBitVec ++ exponent ++ mantissa).toNat = _
  rw [BitVec.toNat_append, BitVec.toNat_append, ← Nat.shiftLeft_add_eq_or_of_lt exponent.isLt,
    ← Nat.shiftLeft_add_eq_or_of_lt mantissa.isLt, Nat.shiftLeft_eq, Nat.shiftLeft_eq]
  cases negative with
  | false =>
      change (0 * 2 ^ 11 + exponent.toNat) * 2 ^ 52 + mantissa.toNat = 0 * 2 ^ 63 + _ + _
      omega
  | true =>
      change (1 * 2 ^ 11 + exponent.toNat) * 2 ^ 52 + mantissa.toNat = 1 * 2 ^ 63 + _ + _
      omega

namespace Binary

variable {negative : Bool} {biased fraction : ℕ} {exponent : ℤ}

/-- A double whose parts were packed has the significand and the exponent that they stand for. -/
theorem ofFloat_packComponents {packed : Float.Model}
    (bits : packed.toBits.toBitVec =
      packComponents .binary64 (signOf negative) (.ofNat 11 biased) (.ofNat 52 fraction))
    (exponents : biased < 2 ^ 11) :
    ofFloat (.ofModel packed) =
      if biased = 0 then ⟨negative, fraction % 2 ^ 52, -1074⟩
      else ⟨negative, 2 ^ 52 + fraction % 2 ^ 52, biased - 1075⟩ := by
  refine ofFloat_eq ?_ exponents (Nat.mod_lt _ (Nat.two_pow_pos 52))
  change packed.toBits.toBitVec.toNat = _
  rw [bits, toNat_packComponents, BitVec.toNat_ofNat, BitVec.toNat_ofNat, Nat.mod_eq_of_lt exponents]

variable {mantissa : ℕ} {number : Float}

/-- Packing a number overflows, or sets its fields. -/
theorem pack_finite (sign : Sign) (exponent : ℤ) (positive : 0 < mantissa) :
    UnpackedFloat.pack .binary64 (.finite sign mantissa exponent positive) =
      if 2 ^ 11 ≤ (exponent + 1075).toNat + 1 then UnpackedFloat.packedInfinity .binary64 sign
      else if mantissa.log2 + 1 = 53 then
        packComponents .binary64 sign (.ofNat 11 (exponent + 1075).toNat) (.ofNat 52 mantissa)
      else packComponents .binary64 sign (.ofNat 11 0) (.ofNat 52 mantissa) := by
  have biased :
      (exponent + Format.binary64.exponentBias + Format.binary64.mantissaBitsWithoutImplicit).toNat =
        (exponent + 1075).toNat := by
    change (exponent + (1023 : ℕ) + (52 : ℕ)).toNat = _
    omega
  rw [UnpackedFloat.pack, biased]
  rfl

/-- Packing a canonical magnitude that is not too large gives the double that has it. -/
theorem ofFloat_pack (positive : 0 < mantissa)
    (canonical : (⟨false, mantissa, exponent⟩ : Binary).Canonical) (finite : exponent ≤ 971) :
    ofFloat (.ofModel (.pack (.finite .positive mantissa exponent positive))) =
      ⟨false, mantissa, exponent⟩ := by
  obtain ⟨bounded, fine, full⟩ := canonical
  simp only at bounded fine full
  have packed := pack_finite (signOf false) exponent positive
  rw [if_neg (by omega)] at packed
  by_cases normal : 2 ^ 52 ≤ mantissa
  · have width : mantissa.log2 = 52 := (Nat.log2_eq_iff positive.ne').mpr ⟨normal, bounded⟩
    rw [width, if_pos rfl] at packed
    rw [ofFloat_packComponents packed (by omega), if_neg (by omega), Binary.mk.injEq]
    exact ⟨rfl, by omega, by omega⟩
  · have width : mantissa.log2 < 52 := (Nat.log2_lt positive.ne').mpr (not_le.mp normal)
    rw [if_neg (by omega)] at packed
    rw [ofFloat_packComponents packed (by omega), if_pos rfl, Binary.mk.injEq]
    exact ⟨rfl, by omega, by omega⟩

/-- The exponents of infinite doubles are too large. -/
theorem exponent_ofFloat_infinity (sign : Sign) :
    (ofFloat (.ofModel (.pack (.infinity sign)))).exponent = 972 := by
  cases sign <;> decide +kernel

/-- Too large an exponent is packed as infinity. -/
theorem exponent_ofFloat_pack_of_lt (sign : Sign) (positive : 0 < mantissa) (large : 971 < exponent) :
    (ofFloat (.ofModel (.pack (.finite sign mantissa exponent positive)))).exponent = 972 := by
  have packed : Float.Model.pack (.finite sign mantissa exponent positive) = .pack (.infinity sign) := by
    have bits := pack_finite sign exponent positive
    rw [if_pos (by omega)] at bits
    simp only [Float.Model.pack, bits]
    rfl
  rw [packed, exponent_ofFloat_infinity]

theorem toBitVec_eq (bits : number.toBits.toNat = negative.toNat * 2 ^ 63 + biased * 2 ^ 52 + fraction)
    (exponents : biased < 2 ^ 11) (fractions : fraction < 2 ^ 52) :
    number.toModel.toBits.toBitVec =
      packComponents .binary64 (signOf negative) (.ofNat 11 biased) (.ofNat 52 fraction) := by
  apply BitVec.eq_of_toNat_eq
  rw [toNat_packComponents, BitVec.toNat_ofNat, BitVec.toNat_ofNat, Nat.mod_eq_of_lt exponents,
    Nat.mod_eq_of_lt fractions]
  exact bits

/-- What a finite double unpacks to. -/
theorem unpack_of_finite (finite : (ofFloat number).exponent ≤ 971) :
    number.toModel.unpack =
      if zero : (ofFloat number).significand = 0 then .zero (signOf (ofFloat number).negative)
      else .finite (signOf (ofFloat number).negative) (ofFloat number).significand (ofFloat number).exponent
        (Nat.pos_of_ne_zero zero) := by
  obtain ⟨negative, biased, fraction, bits, exponents, fractions⟩ := exists_bits number
  have encoded := ofFloat_eq bits exponents fractions
  rw [encoded] at finite
  have exponentNat : (BitVec.ofNat 11 biased).toNat = biased := by
    rw [BitVec.toNat_ofNat, Nat.mod_eq_of_lt exponents]
  have fractionNat : (BitVec.ofNat 52 fraction).toNat = fraction := by
    rw [BitVec.toNat_ofNat, Nat.mod_eq_of_lt fractions]
  have proper : BitVec.ofNat 11 biased ≠ -1#11 := by
    intro full
    have := congrArg BitVec.toNat full
    rw [exponentNat, show (-1#11).toNat = 2047 from rfl] at this
    subst this
    simp at finite
  rw [Float.Model.unpack, toBitVec_eq bits exponents fractions, UnpackedFloat.unpack]
  simp only [UnpackedFloat.unpackMantissa_packComponents, UnpackedFloat.unpackExponent_packComponents,
    UnpackedFloat.unpackSign_packComponents, Sign.ofBitVec_toBitVec, if_neg proper, encoded]
  by_cases subnormal : biased = 0
  · subst subnormal
    rw [if_pos rfl]
    by_cases zero : fraction = 0
    · subst zero
      rfl
    · have some : BitVec.ofNat 52 fraction ≠ 0#52 := fun none => zero (by rw [← fractionNat, none]; rfl)
      simp only [some, zero, dite_false, if_true, fractionNat]
      rfl
  -- Otherwise the fraction has a leading one in front.
  · have normal : BitVec.ofNat 11 biased ≠ 0#11 := fun none => subnormal (by rw [← exponentNat, none]; rfl)
    have appended : (1#1 ++ BitVec.ofNat 52 fraction).toNat = 2 ^ 52 + fraction := by
      rw [BitVec.toNat_append, ← Nat.shiftLeft_add_eq_or_of_lt (BitVec.isLt _), fractionNat]
      rfl
    rw [if_neg normal]
    simp only [subnormal, if_false, appended, exponentNat]
    rw [dif_neg (by omega)]
    rfl

/-- A finite number's exponent is bounded. -/
theorem exponent_le_of_isFinite (finite : number.isFinite = true) : (ofFloat number).exponent ≤ 971 := by
  obtain ⟨negative, biased, fraction, bits, exponents, fractions⟩ := exists_bits number
  rw [ofFloat_eq bits exponents fractions]
  by_cases full : biased = 2047
  · subst full
    change number.toModel.unpack.isFinite = true at finite
    rw [Float.Model.unpack, toBitVec_eq bits exponents fractions, UnpackedFloat.unpack] at finite
    simp only [UnpackedFloat.unpackMantissa_packComponents, UnpackedFloat.unpackExponent_packComponents,
      show BitVec.ofNat 11 2047 = -1#11 from rfl, if_true] at finite
    split at finite <;> cases finite
  · split
    · simp
    · simp only
      omega

section

variable {number : Float} (finite : (ofFloat number).exponent ≤ 971)
include finite

theorem isNaN_of_finite : number.isNaN = false := by
  change number.toModel.unpack.isNaN = false
  rw [unpack_of_finite finite]
  split <;> rfl

theorem isInf_of_finite : number.isInf = false := by
  change number.toModel.unpack.isInf = false
  rw [unpack_of_finite finite]
  split <;> rfl

/-- A number other than zero has a significand. -/
theorem significand_ne_zero_of_finite (nonzero : (number == 0) = false) :
    (ofFloat number).significand ≠ 0 := by
  intro zero
  have compared : number.toModel.unpack.beq (.zero .positive) = false := nonzero
  rw [unpack_of_finite finite, dif_pos zero] at compared
  cases compared

/-- The absolute value keeps the magnitude. -/
theorem ofFloat_abs (nonzero : (ofFloat number).significand ≠ 0) :
    ofFloat number.abs = ⟨false, (ofFloat number).significand, (ofFloat number).exponent⟩ := by
  have unpacked := unpack_of_finite finite
  rw [dif_neg nonzero] at unpacked
  change ofFloat (.ofModel (.pack number.toModel.unpack.abs)) = _
  rw [unpacked]
  obtain ⟨bounded, fine, full⟩ := canonical_ofFloat number
  exact ofFloat_pack _ ⟨bounded, fine, full⟩ finite

end

end Binary

end ScriptMachine.Decimal

/-
This file shows that a numeral is read as the nearest double. Main statement: a numeral reads back as a double
exactly if the double is the nearest to the value of the numeral.
-/

import ScriptMachine.Decimal.Shortest
import ScriptMachine.Proofs.Encoding

namespace ScriptMachine.Decimal

open Float.Model
open UnpackedFloat (Accuracy ExtendedMantissa shiftToExponent shiftToTargetExponent roundWithAccuracy)

/-- Where a number lies between a mantissa and the next one. -/
def Places (mantissa : ℕ) (number : ℚ) : Accuracy → Prop
  | .exact => number = mantissa
  | .inexact .lt => mantissa < number ∧ number < mantissa + 1 / 2
  | .inexact .eq => number = mantissa + 1 / 2
  | .inexact .gt => mantissa + 1 / 2 < number ∧ number < mantissa + 1

section

variable {mantissa : ℕ} {number : ℚ} {accuracy : Accuracy}

/-- A number lies between its mantissa and the next one. -/
theorem Places.bounds (places : Places mantissa number accuracy) :
    (mantissa : ℚ) ≤ number ∧ number < mantissa + 1 := by
  match accuracy, places with
  | .exact, places | .inexact .lt, places | .inexact .eq, places | .inexact .gt, places =>
      unfold Places at places
      grind

/-- Rounding to even goes by what was cut off. -/
theorem Places.rounds (places : Places mantissa number accuracy) :
    Rounds number (accuracy.roundToNearestEven mantissa) := by
  match accuracy, places with
  | .exact, whole =>
      obtain rfl : number = mantissa := whole
      exact .of_lt (by norm_num [Accuracy.roundToNearestEven])
  | .inexact .lt, ⟨above, below⟩ =>
      simp only [Accuracy.roundToNearestEven]
      exact .of_lt (abs_sub_lt_iff.mpr ⟨by linarith, by linarith⟩)
  | .inexact .eq, half =>
      obtain rfl : number = mantissa + 1 / 2 := half
      obtain even | odd := Nat.mod_two_eq_zero_or_one mantissa
      · simp only [Accuracy.roundToNearestEven, even]
        exact ⟨by norm_num, fun _ => even⟩
      · simp only [Accuracy.roundToNearestEven, odd]
        exact ⟨by norm_num, fun _ => by omega⟩
  | .inexact .gt, ⟨above, below⟩ =>
      simp only [Accuracy.roundToNearestEven]
      refine .of_lt (abs_sub_lt_iff.mpr ?_)
      push_cast
      exact ⟨by linarith, by linarith⟩

end

/-- An extended mantissa describes a number by its residual bits. -/
def Describes (extended : ExtendedMantissa) (number : ℚ) : Prop :=
  Places extended.mantissa number extended.accuracy

variable {mantissa first second : ℕ} {number target : ℚ} {accuracy : Accuracy} {extended : ExtendedMantissa}
  {exponent power scale : ℤ} {float : UnpackedFloat}

/-- A mantissa and its accuracy describe a number. -/
theorem describes_ofMantissaAndAccuracy (places : Places mantissa number accuracy) :
    Describes (.ofMantissaAndAccuracy mantissa accuracy) number := by
  match accuracy, places with
  | .exact, places | .inexact .lt, places | .inexact .eq, places | .inexact .gt, places => exact places

/-- A shift by one place halves the number. -/
theorem Describes.shiftRightOne (describes : Describes extended number) :
    Describes extended.shiftRightOne (number / 2) := by
  obtain ⟨mantissa, roundBit, stickyBit⟩ := extended
  have halves : ((2 * (mantissa / 2) + mantissa % 2 : ℕ) : ℚ) = mantissa := by rw [Nat.div_add_mod]
  obtain even | odd := Nat.mod_two_eq_zero_or_one mantissa
  all_goals
    cases roundBit <;> cases stickyBit <;>
      simp_all [Describes, Places, ExtendedMantissa.shiftRightOne, ExtendedMantissa.accuracy] <;> grind

/-- Shifting to the right halves the number that is described. -/
theorem Describes.shiftRight (describes : Describes extended number) (places : ℕ) :
    Describes (extended >>> places) (number / 2 ^ places) := by
  induction places with
  | zero =>
      rw [pow_zero, div_one]
      exact describes
  | succ places step =>
      rw [pow_succ, ← div_div]
      exact step.shiftRightOne

/-- Double precision keeps 53 digits, and none below the least exponent. -/
theorem targetExponent_binary64 (total : ℤ) :
    Format.binary64.targetExponent total = max (total - 53) (-1074) :=
  rfl

/-- A mantissa of 53 bits or more is never shifted to a lower exponent. -/
theorem low_of_wide (wide : 2 ^ 52 ≤ mantissa) (exponent : ℤ) :
    exponent ≤ Format.binary64.targetExponent (totalExponent mantissa exponent) := by
  have bits : 52 ≤ mantissa.log2 := (Nat.le_log2 (by omega)).mpr wide
  rw [targetExponent_binary64, totalExponent]
  omega

/-- The first shift keeps 53 bits, or as many as there are above the last position of all. -/
theorem exists_shiftToTargetExponent (places : Places mantissa number accuracy)
    (low : exponent ≤ Format.binary64.targetExponent (totalExponent mantissa exponent)) :
    ∃ extended power scaled,
      shiftToTargetExponent .binary64 mantissa exponent accuracy = (extended, power) ∧
      Describes extended scaled ∧ scaled * 2 ^ power = number * 2 ^ exponent ∧
      -1074 ≤ power ∧ scaled < 2 ^ 53 ∧ (2 ^ 52 ≤ scaled ∨ power = -1074) := by
  obtain ⟨above, below⟩ := places.bounds
  rw [targetExponent_binary64, totalExponent] at low
  let power := max ((mantissa.log2 : ℤ) + 1 + exponent - 53) (-1074)
  obtain ⟨shift, distance⟩ : ∃ shift : ℕ, power = exponent + shift :=
    ⟨(power - exponent).toNat, by omega⟩
  have scale : (2 : ℚ) ^ power = 2 ^ exponent * 2 ^ shift := by
    rw [distance, zpow_add₀ two_ne_zero, zpow_natCast]
  refine ⟨_, power, number / 2 ^ shift, ?_, (describes_ofMantissaAndAccuracy places).shiftRight shift, ?_,
    le_max_right _ _, ?_, ?_⟩
  · have amount : (power - exponent).toNat = shift := by omega
    simp only [shiftToTargetExponent, shiftToExponent, targetExponent_binary64, totalExponent]
    rw [show max _ _ = power from rfl, amount, distance]
  · rw [scale, mul_comm (2 ^ exponent), ← mul_assoc, div_mul_cancel₀ _ (by positivity)]
  · rw [div_lt_iff₀ (by positivity), ← pow_add]
    have width : mantissa + 1 ≤ 2 ^ (53 + shift) :=
      Nat.lt_of_lt_of_le Nat.lt_log2_self (Nat.pow_le_pow_right (by decide) (by omega))
    exact below.trans_le (by exact_mod_cast width)
  · by_cases least : power = -1074
    · exact .inr least
    · left
      have width : 2 ^ (52 + shift) ≤ mantissa := by
        rw [show 52 + shift = mantissa.log2 by omega]
        exact Nat.log2_self_le fun zero => by simp [power, zero] at *; omega
      rw [le_div_iff₀ (by positivity), ← pow_add]
      exact le_trans (by exact_mod_cast width) above

/-- A mantissa that has 53 bits stays as it is in the second shift. -/
theorem shiftToTargetExponent_of_lt (bounded : mantissa < 2 ^ 53) (fine : -1074 ≤ power) :
    shiftToTargetExponent .binary64 mantissa power .exact = (⟨mantissa, false, false⟩, power) := by
  have width : mantissa.log2 < 53 := by
    by_cases zero : mantissa = 0
    · simp [zero]
    · exact (Nat.log2_lt zero).mpr bounded
  have still : (Format.binary64.targetExponent (totalExponent mantissa power) - power).toNat = 0 := by
    rw [targetExponent_binary64, totalExponent]
    omega
  simp only [shiftToTargetExponent, shiftToExponent, still, Int.natCast_zero, add_zero]
  rfl

/-- A mantissa that was rounded up to 54 bits loses the last one. -/
theorem shiftToTargetExponent_of_eq (fine : -1074 ≤ power) :
    shiftToTargetExponent .binary64 (2 ^ 53) power .exact = (⟨2 ^ 52, false, false⟩, power + 1) := by
  have one : (Format.binary64.targetExponent (totalExponent (2 ^ 53) power) - power).toNat = 1 := by
    rw [targetExponent_binary64, totalExponent, Nat.log2_two_pow]
    omega
  simp only [shiftToTargetExponent, shiftToExponent, one]
  rfl

/-- An unpacked float approximates a positive number if it is the nearest to it. Numbers that no double is the
nearest to may become infinite. -/
def Approximates (target : ℚ) : UnpackedFloat → Prop
  | .finite .positive mantissa exponent _ =>
      (⟨false, mantissa, exponent⟩ : Binary).Canonical ∧ (⟨false, mantissa, exponent⟩ : Binary).Nearest target
  | .zero .positive => (⟨false, 0, -1074⟩ : Binary).Nearest target
  | .infinity .positive => 2 ^ (1024 : ℤ) ≤ target
  | _ => False

/-- Rounding shifts, rounds, and shifts once more if a digit was carried. -/
theorem roundWithAccuracy_eq {last : ℤ} {final : ExtendedMantissa}
    (shifted : shiftToTargetExponent .binary64 mantissa exponent accuracy = (extended, power))
    (again : shiftToTargetExponent .binary64 extended.roundedMantissa power .exact = (final, last)) :
    roundWithAccuracy .binary64 .positive mantissa exponent accuracy =
      if zero : final.mantissa = 0 then .zero .positive
      else .finite .positive final.mantissa last (Nat.pos_of_ne_zero zero) := by
  simp only [roundWithAccuracy, shifted, again]

/-- What was cut off is rounded once. -/
theorem approximates_roundWithAccuracy (places : Places mantissa number accuracy)
    (low : exponent ≤ Format.binary64.targetExponent (totalExponent mantissa exponent)) :
    Approximates (number * 2 ^ exponent)
      (roundWithAccuracy .binary64 .positive mantissa exponent accuracy) := by
  obtain ⟨extended, power, scaled, shifted, describes, same, fine, bounded, full⟩ :=
    exists_shiftToTargetExponent places low
  have rounds : Rounds scaled extended.roundedMantissa := describes.rounds
  have nearest := rounds.nearest full false
  obtain ⟨above, below⟩ := abs_sub_le_iff.mp rounds.close
  have large : 2 ^ 52 ≤ extended.roundedMantissa ∨ power = -1074 := by
    refine full.imp_left fun full => Nat.le_of_lt_succ ?_
    have : (2 ^ 52 : ℚ) < extended.roundedMantissa + 1 := by linarith
    exact_mod_cast this
  rw [← same]
  by_cases less : extended.roundedMantissa < 2 ^ 53
  · rw [roundWithAccuracy_eq shifted (shiftToTargetExponent_of_lt less fine)]
    split
    · rename_i zero
      obtain rfl := large.resolve_left (by simp only at zero; omega)
      simp only at zero
      rw [zero] at nearest
      exact nearest
    · exact ⟨⟨less, fine, large⟩, nearest⟩
  · -- Rounding up carried into a 54th bit, and the significand is even.
    have carried : extended.roundedMantissa = 2 ^ 53 := by
      have : (extended.roundedMantissa : ℚ) < 2 ^ 53 + 1 := by linarith
      have : extended.roundedMantissa < 2 ^ 53 + 1 := by exact_mod_cast this
      omega
    rw [roundWithAccuracy_eq shifted (carried ▸ shiftToTargetExponent_of_eq fine)]
    refine ⟨⟨by simp only; decide, by simp only; omega, .inl le_rfl⟩,
      nearest.of_value_eq ?_ (by simp only; decide)⟩
    rw [Binary.value, Binary.value, carried]
    simp only [Nat.cast_pow, Nat.cast_ofNat]
    rw [zpow_add_one₀ two_ne_zero]
    ring

/-- Multiplication rounds once. -/
theorem approximates_mul (positive : 0 < first) (above : 0 < second)
    (low : power + scale ≤ Format.binary64.targetExponent (totalExponent (first * second) (power + scale))) :
    Approximates (first * 2 ^ power * (second * 2 ^ scale))
      (UnpackedFloat.mul .binary64 (.finite .positive first power positive)
        (.finite .positive second scale above)) := by
  have product : (first * 2 ^ power * (second * 2 ^ scale) : ℚ) =
      ((first * second : ℕ) : ℚ) * 2 ^ (power + scale) := by
    rw [zpow_add₀ two_ne_zero, Nat.cast_mul]
    ring
  rw [product]
  have places : Places (first * second) (first * second : ℕ) .exact := rfl
  exact approximates_roundWithAccuracy places low

/-- The accuracy of a fraction says where the quotient lies. -/
theorem places_div {number divisor : ℕ} (positive : 0 < divisor) :
    Places (number / divisor) (number / divisor : ℚ)
      (UnpackedFloat.accuracyOfFraction (number % divisor) divisor) := by
  have scale : (0 : ℚ) < divisor := by exact_mod_cast positive
  have quotient : (number / divisor : ℚ) =
      ((number / divisor : ℕ) : ℚ) + ((number % divisor : ℕ) : ℚ) / divisor := by
    rw [div_eq_iff scale.ne', add_mul, div_mul_cancel₀ _ scale.ne']
    exact_mod_cast (Nat.div_add_mod' number divisor).symm
  have less : ((number % divisor : ℕ) : ℚ) / divisor < 1 := by
    rw [div_lt_one scale]
    exact_mod_cast Nat.mod_lt number positive
  rw [quotient, UnpackedFloat.accuracyOfFraction]
  generalize number % divisor = rest at less ⊢
  split
  · rename_i none
    simp [Places, none]
  · rename_i some
    have part : (0 : ℚ) < rest / divisor := div_pos (by exact_mod_cast Nat.pos_of_ne_zero some) scale
    obtain below | half | above := Nat.lt_trichotomy (2 * rest) divisor
    · rw [Nat.compare_eq_lt.mpr below]
      have below : (2 * rest : ℚ) < divisor := by exact_mod_cast below
      have : (rest / divisor : ℚ) < 1 / 2 := by rw [div_lt_div_iff₀ scale two_pos]; linarith
      exact ⟨by linarith, by linarith⟩
    · rw [Nat.compare_eq_eq.mpr half]
      have half : (2 * rest : ℚ) = divisor := by exact_mod_cast half
      have : (rest / divisor : ℚ) = 1 / 2 := by rw [div_eq_div_iff scale.ne' two_ne_zero]; linarith
      rw [this]
      rfl
    · rw [Nat.compare_eq_gt.mpr above]
      have above : (divisor : ℚ) < 2 * rest := by exact_mod_cast above
      have : (1 / 2 : ℚ) < rest / divisor := by rw [div_lt_div_iff₀ two_pos scale]; linarith
      exact ⟨by linarith, by linarith⟩

/-- The quotient has 53 bits unless its exponent is the least one, since the dividend is shifted far enough. -/
theorem div_low {shift : ℕ} {target : ℤ} (positive : 0 < first) (above : 0 < second)
    (bounded : target ≤
      Format.binary64.targetExponent (totalExponent first power - totalExponent second scale))
    (distance : power - scale = target + shift) :
    target ≤ Format.binary64.targetExponent (totalExponent (first <<< shift / second) target) := by
  by_cases least : target ≤ -1074
  · exact least.trans (le_max_right _ _)
  rw [targetExponent_binary64, totalExponent, totalExponent] at bounded
  refine low_of_wide ?_ target
  rw [Nat.le_div_iff_mul_le above, Nat.shiftLeft_eq]
  calc 2 ^ 52 * second ≤ 2 ^ 52 * 2 ^ (second.log2 + 1) := Nat.mul_le_mul_left _ Nat.lt_log2_self.le
    _ ≤ 2 ^ first.log2 * 2 ^ shift := by
        rw [← Nat.pow_add, ← Nat.pow_add]
        exact Nat.pow_le_pow_right (by decide) (by omega)
    _ ≤ first * 2 ^ shift := Nat.mul_le_mul_right _ (Nat.log2_self_le positive.ne')

/-- Division rounds once. -/
theorem approximates_div (positive : 0 < first) (above : 0 < second) :
    Approximates (first * 2 ^ power / (second * 2 ^ scale))
      (UnpackedFloat.div .binary64 (.finite .positive first power positive)
        (.finite .positive second scale above)) := by
  let target := min (power - scale)
    (Format.binary64.targetExponent (totalExponent first power - totalExponent second scale))
  obtain ⟨shift, distance⟩ : ∃ shift : ℕ, power - scale = target + shift :=
    ⟨(power - scale - target).toNat, by omega⟩
  have amount : (power - scale - target).toNat = shift := by omega
  have quotient : (first * 2 ^ power / (second * 2 ^ scale) : ℚ) =
      ((first <<< shift : ℕ) / second : ℚ) * 2 ^ target := by
    have scales : (2 : ℚ) ^ power = 2 ^ target * 2 ^ shift * 2 ^ scale := by
      rw [← zpow_natCast, ← zpow_add₀ two_ne_zero, ← zpow_add₀ two_ne_zero]
      congr 1
      omega
    have nonzero : (second : ℚ) ≠ 0 := by exact_mod_cast above.ne'
    rw [Nat.shiftLeft_eq, Nat.cast_mul, Nat.cast_pow, Nat.cast_ofNat, scales]
    field_simp
  have rounded := approximates_roundWithAccuracy (places_div above)
    (div_low positive above (min_le_right _ _) distance)
  rw [quotient]
  rw [← amount] at rounded ⊢
  exact rounded

/-- Numbers below half of the least magnitude are rounded to zero. -/
theorem nearest_zero (positive : 0 ≤ target) (small : target < 2 ^ (-1075 : ℤ)) :
    (⟨false, 0, -1074⟩ : Binary).Nearest target := by
  have rounds : Rounds (target * 2 ^ (1074 : ℤ)) 0 := by
    refine .of_lt ?_
    rw [Nat.cast_zero, zero_sub, abs_neg, abs_of_nonneg (by positivity)]
    calc target * 2 ^ (1074 : ℤ) < 2 ^ (-1075 : ℤ) * 2 ^ (1074 : ℤ) := by gcongr
      _ = 1 / 2 := by
        rw [← zpow_add₀ two_ne_zero]
        norm_num
  have scaled : target = target * 2 ^ (1074 : ℤ) * 2 ^ (-1074 : ℤ) := by
    rw [mul_assoc, ← zpow_add₀ two_ne_zero, show (1074 + -1074 : ℤ) = 0 by rfl, zpow_zero, mul_one]
  rw [scaled]
  exact rounds.nearest (.inr rfl) false

/-- Numerals whose exponent is too low to compute the power are below all doubles. -/
theorem mul_ten_zpow_lt {digits : ℕ} (low : exponent < -((2 ^ 11 : ℤ) + digits.log2)) :
    (digits * 10 ^ exponent : ℚ) < 2 ^ (-1075 : ℤ) := by
  have width : (digits : ℚ) < 2 ^ (digits.log2 + 1 : ℤ) := by exact_mod_cast Nat.lt_log2_self
  calc (digits * 10 ^ exponent : ℚ) < 2 ^ (digits.log2 + 1 : ℤ) * 10 ^ exponent := by gcongr
    _ ≤ 2 ^ (digits.log2 + 1 : ℤ) * 2 ^ exponent := by
        gcongr
        obtain ⟨power, rfl⟩ : ∃ power : ℕ, exponent = -power := ⟨(-exponent).toNat, by omega⟩
        rw [zpow_neg, zpow_neg, zpow_natCast, zpow_natCast]
        gcongr
        norm_num
    _ ≤ 2 ^ (-1075 : ℤ) := by
        rw [← zpow_add₀ two_ne_zero]
        exact zpow_le_zpow_right₀ one_le_two (by omega)

/-- Numerals whose exponent is too high to compute the power are above all doubles. -/
theorem le_mul_ten_zpow {digits : ℕ} (nonzero : digits ≠ 0) (high : 2 ^ 11 < exponent) :
    (2 : ℚ) ^ (1024 : ℤ) ≤ digits * 10 ^ exponent := by
  have one : (1 : ℚ) ≤ digits := by exact_mod_cast Nat.one_le_iff_ne_zero.mpr nonzero
  calc (2 : ℚ) ^ (1024 : ℤ) ≤ 2 ^ exponent := zpow_le_zpow_right₀ one_le_two (by omega)
    _ ≤ 10 ^ exponent := zpow_le_zpow_left₀ (by omega) (by norm_num) (by norm_num)
    _ ≤ digits * 10 ^ exponent := le_mul_of_one_le_left (by positivity) one

/-- A scientific literal is rounded once. -/
theorem approximates_ofScientific (digits : ℕ) (exponent : ℤ) :
    Approximates (digits * 10 ^ exponent) (UnpackedFloat.ofScientific .binary64 digits exponent) := by
  unfold UnpackedFloat.ofScientific
  split
  · rename_i zero
    rw [zero, Nat.cast_zero, zero_mul]
    exact nearest_zero le_rfl (two_zpow_pos _)
  rename_i nonzero
  split
  · rename_i high
    exact le_mul_ten_zpow nonzero high
  split
  · rename_i low
    exact nearest_zero (by positivity) (mul_ten_zpow_lt low)
  split
  · rename_i natural
    obtain ⟨power, rfl⟩ := Int.eq_ofNat_of_zero_le natural
    have wide : 2 ^ 52 ≤ digits <<< 53 * 10 ^ power := by
      have : 1 ≤ digits * 10 ^ power := Nat.mul_pos (Nat.pos_of_ne_zero nonzero) (Nat.pow_pos (by decide))
      rw [Nat.shiftLeft_eq]
      nlinarith
    have value : (digits * 10 ^ (power : ℤ) : ℚ) =
        (digits <<< 53 : ℕ) * 2 ^ (-53 : ℤ) * ((10 ^ power : ℕ) * 2 ^ (0 : ℤ)) := by
      have cancel : (2 : ℚ) ^ 53 * 2 ^ (-53 : ℤ) = 1 := by norm_num
      rw [Nat.shiftLeft_eq, Nat.cast_mul, Nat.cast_pow, Nat.cast_pow, Nat.cast_ofNat, mul_assoc (digits : ℚ),
        Nat.cast_ofNat, cancel, mul_one, zpow_zero, mul_one, zpow_natCast]
    rw [value]
    exact approximates_mul _ _ (low_of_wide wide _)
  · obtain ⟨power, rfl⟩ : ∃ power : ℕ, exponent = -power := ⟨(-exponent).toNat, by omega⟩
    have value : (digits * 10 ^ (-power : ℤ) : ℚ) =
        digits * 2 ^ (0 : ℤ) / ((10 ^ (- -(power : ℤ)).toNat : ℕ) * 2 ^ (0 : ℤ)) := by
      rw [neg_neg, Int.toNat_natCast, zpow_zero, mul_one, mul_one, zpow_neg, zpow_natCast, Nat.cast_pow,
        Nat.cast_ofNat, div_eq_mul_inv]
    rw [value]
    exact approximates_div _ _

/-- The least canonical magnitude above all doubles. -/
def Binary.bound : Binary :=
  ⟨false, 2 ^ 52, 972⟩

variable {binary : Binary}

theorem Binary.canonical_bound : bound.Canonical :=
  ⟨by decide, by decide, .inl (by decide)⟩

/-- The bound is the first power of two that is too large. -/
theorem Binary.value_bound : bound.value = 2 ^ (1024 : ℤ) := by
  simp only [bound, value, Nat.cast_pow, Nat.cast_ofNat]
  rw [← zpow_natCast, ← zpow_add₀ two_ne_zero]
  rfl

/-- Finite numbers stay below the bound. -/
theorem Binary.Canonical.value_lt_bound (canonical : binary.Canonical) (finite : binary.exponent ≤ 971) :
    binary.value < 2 ^ (1024 : ℤ) :=
  value_bound ▸ canonical_bound.value_lt canonical (Int.lt_of_le_of_lt finite (by decide))

/-- No double is the nearest to a number from the bound on, since the bound is nearer. -/
theorem Binary.Canonical.not_nearest (canonical : binary.Canonical) (finite : binary.exponent ≤ 971)
    (large : 2 ^ (1024 : ℤ) ≤ target) : ¬binary.Nearest target := by
  intro nearest
  have below := canonical.value_lt_bound finite
  have least := nearest.least _ canonical_bound
  rw [value_bound, abs_of_nonpos (by linarith), abs_of_nonpos (by linarith)] at least
  linarith

/-- What approximates a number is finite, zero or infinite, and not negative. -/
theorem Approximates.shape (approximates : Approximates target float) :
    (∃ mantissa exponent above, float = .finite .positive mantissa exponent above) ∨
      float = .zero .positive ∨ float = .infinity .positive := by
  cases float with
  | finite sign mantissa exponent above =>
      cases sign with
      | positive => exact .inl ⟨mantissa, exponent, above, rfl⟩
      | negative => exact False.elim approximates
  | zero sign =>
      cases sign with
      | positive => exact .inr (.inl rfl)
      | negative => exact False.elim approximates
  | infinity sign =>
      cases sign with
      | positive => exact .inr (.inr rfl)
      | negative => exact False.elim approximates
  | _ => exact False.elim approximates

/-- A double becomes the packed form of an approximation exactly if it is the nearest. -/
theorem Approximates.toBits_eq_iff {number : Float} (approximates : Approximates target float)
    (positive : (Binary.ofFloat number).negative = false) (finite : (Binary.ofFloat number).exponent ≤ 971)
    (nonzero : (Binary.ofFloat number).significand ≠ 0) :
    (Float.ofModel (.pack float)).toBits = number.toBits ↔ (Binary.ofFloat number).Nearest target := by
  have proper := Binary.canonical_ofFloat number
  have decoded : (Float.ofModel (.pack float)).toBits = number.toBits →
      Binary.ofFloat (.ofModel (.pack float)) = Binary.ofFloat number := by
    intro same
    simp only [Binary.ofFloat, same]
  obtain ⟨mantissa, exponent, above, rfl⟩ | rfl | rfl := approximates.shape
  · obtain ⟨canonical, nearest⟩ := approximates
    by_cases fits : exponent ≤ 971
    · have encoded := Binary.ofFloat_pack above canonical fits
      refine ⟨fun same => ?_, fun rival => Binary.toBits_eq_of_ofFloat_eq ?_⟩
      · rw [← decoded same, encoded]
        exact nearest
      · obtain ⟨significands, exponents⟩ := nearest.unique rival canonical proper
        simp only at significands exponents
        rw [encoded, ← positive, ← significands, ← exponents]
    · have encoded := Binary.exponent_ofFloat_pack_of_lt .positive above (not_le.mp fits)
      refine ⟨fun same => ?_, fun rival => ?_⟩
      · rw [decoded same] at encoded
        omega
      · have exponents := (nearest.unique rival canonical proper).2
        simp only at exponents
        omega
  · have encoded : Binary.ofFloat (.ofModel (.pack (.zero .positive))) = ⟨false, 0, -1074⟩ := by
      decide +kernel
    refine ⟨fun same => ?_, fun rival => ?_⟩
    · rw [decoded same] at encoded
      exact absurd (congrArg Binary.significand encoded) nonzero
    · exact absurd (Binary.Nearest.unique approximates rival ⟨by decide, by decide, .inr rfl⟩ proper).1 nonzero
  · have encoded := Binary.exponent_ofFloat_infinity .positive
    refine ⟨fun same => ?_, fun rival => absurd rival (proper.not_nearest finite approximates)⟩
    rw [decoded same] at encoded
    omega

/-- A double represents a number if it is equal to it and has no minus sign. -/
structure Represents (number : Float) (value : ℚ) : Prop where
  positive : (Binary.ofFloat number).negative = false
  finite : (Binary.ofFloat number).exponent ≤ 971
  exact : (Binary.ofFloat number).value = value

/-- A number that is represented is unpacked to itself. -/
theorem Represents.unpack {number : Float} {value : ℚ} (represents : Represents number value) :
    value = 0 ∧ number.toModel.unpack = .zero .positive ∨
    ∃ positive, number.toModel.unpack =
      .finite .positive (Binary.ofFloat number).significand (Binary.ofFloat number).exponent positive := by
  have unpacked := Binary.unpack_of_finite represents.finite
  rw [represents.positive] at unpacked
  by_cases zero : (Binary.ofFloat number).significand = 0
  · rw [dif_pos zero] at unpacked
    exact .inl ⟨by rw [← represents.exact, Binary.value, zero, Nat.cast_zero, zero_mul], unpacked⟩
  · rw [dif_neg zero] at unpacked
    exact .inr ⟨Nat.pos_of_ne_zero zero, unpacked⟩

/-- The exponent of a product of canonical magnitudes is not too large. -/
theorem Binary.Canonical.mul_low {first second : Binary} (canonical : first.Canonical)
    (proper : second.Canonical) (positive : 0 < first.significand) (above : 0 < second.significand) :
    first.exponent + second.exponent ≤ Format.binary64.targetExponent
      (totalExponent (first.significand * second.significand) (first.exponent + second.exponent)) := by
  by_cases wide : 2 ^ 52 ≤ first.significand * second.significand
  · exact low_of_wide wide _
  · have least := canonical.full.resolve_left (by nlinarith)
    have last := proper.full.resolve_left (by nlinarith)
    rw [targetExponent_binary64]
    omega

/-- A double is rounded to itself. -/
theorem Approximates.represents (approximates : Approximates binary.value float)
    (canonical : binary.Canonical) (finite : binary.exponent ≤ 971) (nonzero : binary.significand ≠ 0) :
    Represents (.ofModel (.pack float)) binary.value := by
  obtain ⟨mantissa, exponent, above, rfl⟩ | rfl | rfl := approximates.shape
  · obtain ⟨proper, nearest⟩ := approximates
    have same := nearest.value_eq canonical
    have fits : exponent ≤ 971 := (canonical.unique proper same).2.trans_le finite
    have encoded := Binary.ofFloat_pack above proper fits
    exact ⟨by rw [encoded], by rw [encoded]; exact fits, by rw [encoded]; exact same⟩
  · have same := Binary.Nearest.value_eq approximates canonical
    rw [Binary.value, Nat.cast_zero, zero_mul] at same
    exact absurd same (Binary.value_pos nonzero).ne
  · exact absurd approximates (canonical.value_lt_bound finite).not_ge

/-- A natural number is rounded once. -/
theorem approximates_round (positive : 0 < mantissa) :
    Approximates mantissa (UnpackedFloat.round .binary64 .positive mantissa 0) := by
  let target := Format.binary64.targetExponent (totalExponent mantissa 0)
  let shift := (0 - target).toNat
  have low : 0 - (shift : ℤ) ≤
      Format.binary64.targetExponent (totalExponent (mantissa <<< shift) (0 - shift)) := by
    have bits : mantissa.log2 + shift ≤ (mantissa <<< shift).log2 := by
      rw [Nat.shiftLeft_eq, Nat.le_log2 (by positivity), Nat.pow_add]
      exact Nat.mul_le_mul_right _ (Nat.log2_self_le positive.ne')
    have bound : target = max _ _ := targetExponent_binary64 _
    rw [totalExponent] at bound
    rw [targetExponent_binary64, totalExponent]
    omega
  have places : Places (mantissa <<< shift) (mantissa <<< shift : ℕ) .exact := rfl
  have value : (mantissa : ℚ) = (mantissa <<< shift : ℕ) * 2 ^ (0 - shift : ℤ) := by
    rw [Nat.shiftLeft_eq, Nat.cast_mul, Nat.cast_pow, Nat.cast_ofNat, mul_assoc, zero_sub, zpow_neg,
      zpow_natCast, mul_inv_cancel₀ (by positivity), mul_one]
  rw [value]
  exact approximates_roundWithAccuracy places low

/-- Natural numbers below 2^53 are doubles. -/
theorem represents_toFloat {count : ℕ} (bounded : count < 2 ^ 53) :
    Represents count.toUInt64.toFloat count := by
  obtain rfl | positive := Nat.eq_zero_or_pos count
  · have encoded : Binary.ofFloat (0 : ℕ).toUInt64.toFloat = ⟨false, 0, -1074⟩ := by decide +kernel
    exact ⟨by rw [encoded], by rw [encoded]; decide, by rw [encoded]; simp [Binary.value]⟩
  obtain ⟨binary, canonical, exponents, value⟩ :=
    Binary.exists_canonical bounded (show (-1074 : ℤ) ≤ 0 by decide)
  rw [zpow_zero, mul_one] at value
  have nonzero : binary.significand ≠ 0 := by
    intro zero
    rw [Binary.value, zero, Nat.cast_zero, zero_mul] at value
    exact positive.ne (by exact_mod_cast value)
  have converted : count.toUInt64.toFloat =
      .ofModel (.pack (UnpackedFloat.round .binary64 .positive count 0)) := by
    have bits : count.toUInt64.toNat = count := Nat.mod_eq_of_lt (by omega)
    change Float.ofModel (.pack (.normalize .binary64 (count.toUInt64.toNat : ℤ) 0 .positive)) = _
    rw [bits, UnpackedFloat.normalize, Int.compare_eq_gt.mpr (by omega)]
    rfl
  rw [converted, ← value]
  exact (value ▸ approximates_round positive).represents canonical (by omega) nonzero

/-- The table of powers of ten is exact. -/
theorem table_exact : ∀ index : Fin Float.exactlyRepresentablePowersOfTen.size,
    (Binary.ofFloat Float.exactlyRepresentablePowersOfTen[index]).negative = false ∧
    (Binary.ofFloat Float.exactlyRepresentablePowersOfTen[index]).exponent ≤ 971 ∧
    (Binary.ofFloat Float.exactlyRepresentablePowersOfTen[index]).numerator =
      10 ^ index.val * (Binary.ofFloat Float.exactlyRepresentablePowersOfTen[index]).denominator := by
  decide +kernel

/-- The powers of ten in the table are doubles. -/
theorem represents_power {power : ℕ} (bounded : power < Float.exactlyRepresentablePowersOfTen.size) :
    Represents Float.exactlyRepresentablePowersOfTen[power] (10 ^ power) := by
  obtain ⟨positive, finite, exact⟩ := table_exact ⟨power, bounded⟩
  refine ⟨positive, finite, ?_⟩
  have scaled := Binary.value_mul_denominator (Binary.ofFloat Float.exactlyRepresentablePowersOfTen[power])
  have denominator : ((Binary.ofFloat Float.exactlyRepresentablePowersOfTen[power]).denominator : ℚ) ≠ 0 := by
    exact_mod_cast (Binary.denominator_pos _).ne'
  apply mul_right_cancel₀ denominator
  rw [scaled]
  exact_mod_cast exact

section

variable {first second : Float} {value other : ℚ} (represents : Represents first value)
  (divides : Represents second other) (nonzero : other ≠ 0)
include represents divides nonzero

/-- The product of two floats approximates the product of their values. -/
theorem Represents.approximates_mul :
    Approximates (value * other) (.mul .binary64 first.toModel.unpack second.toModel.unpack) := by
  obtain ⟨above, factor⟩ := divides.unpack.resolve_left fun none => nonzero none.1
  obtain ⟨rfl, zero⟩ | ⟨positive, unpacked⟩ := represents.unpack
  · rw [zero, factor, zero_mul]
    exact nearest_zero le_rfl (two_zpow_pos _)
  · rw [unpacked, factor, ← represents.exact, ← divides.exact]
    exact Decimal.approximates_mul positive above
      ((Binary.canonical_ofFloat first).mul_low (Binary.canonical_ofFloat second) positive above)

/-- The quotient of two floats approximates the quotient of their values. -/
theorem Represents.approximates_div :
    Approximates (value / other) (.div .binary64 first.toModel.unpack second.toModel.unpack) := by
  obtain ⟨above, divisor⟩ := divides.unpack.resolve_left fun none => nonzero none.1
  obtain ⟨rfl, zero⟩ | ⟨positive, unpacked⟩ := represents.unpack
  · rw [zero, divisor, zero_div]
    exact nearest_zero le_rfl (two_zpow_pos _)
  · rw [unpacked, divisor, ← represents.exact, ← divides.exact]
    exact Decimal.approximates_div positive above

end

/-- The number that a numeral stands for. -/
def Numeral.value (numeral : Numeral) : ℚ :=
  numeral.digits * 10 ^ numeral.exponent

/-- Reading a numeral approximates its value: short ones by one operation on doubles, all others exactly. -/
theorem Numeral.exists_approximates (numeral : Numeral) :
    ∃ float, numeral.toFloat = .ofModel (.pack float) ∧ Approximates numeral.value float := by
  obtain ⟨digits, exponent⟩ := numeral
  unfold toFloat Float.ofScientific value
  simp only
  split
  · rename_i short
    have represents := represents_toFloat short.1
    have power := represents_power (show exponent.natAbs < Float.exactlyRepresentablePowersOfTen.size by
      change _ < 23; omega)
    split
    · rename_i negative
      refine ⟨_, rfl, ?_⟩
      have quotient : (digits * 10 ^ exponent : ℚ) = digits / 10 ^ exponent.natAbs := by
        rw [div_eq_mul_inv, ← zpow_natCast, ← zpow_neg]
        congr 2
        simp only [decide_eq_true_eq] at negative
        omega
      rw [quotient]
      exact represents.approximates_div power (by positivity)
    · rename_i natural
      refine ⟨_, rfl, ?_⟩
      have product : (digits * 10 ^ exponent : ℚ) = digits * 10 ^ exponent.natAbs := by
        rw [← zpow_natCast]
        congr 2
        simp only [decide_eq_true_eq] at natural
        omega
      rw [product]
      exact represents.approximates_mul power (by positivity)
  · refine ⟨.ofScientific .binary64 digits exponent, ?_, approximates_ofScientific digits exponent⟩
    have signed : (if decide (exponent < 0) then Int.negOfNat exponent.natAbs
        else Int.ofNat exponent.natAbs) = exponent := by
      rw [Int.negOfNat_eq, Int.ofNat_eq_natCast]
      simp only [decide_eq_true_eq]
      omega
    rw [signed]
    rfl

/-- A numeral reads back as a double exactly if the double is the nearest to its value. -/
theorem Numeral.readsBack_iff {numeral : Numeral} {number : Float}
    (positive : (Binary.ofFloat number).negative = false)
    (finite : (Binary.ofFloat number).exponent ≤ 971) (nonzero : (Binary.ofFloat number).significand ≠ 0) :
    numeral.readsBack number = true ↔ (Binary.ofFloat number).Nearest numeral.value := by
  obtain ⟨float, read, approximates⟩ := numeral.exists_approximates
  rw [readsBack, read, beq_iff_eq]
  exact approximates.toBits_eq_iff positive finite nonzero

end ScriptMachine.Decimal

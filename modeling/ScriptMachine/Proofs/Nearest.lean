/-
This file says which double is the nearest to a rational number. Main statements: a number has at most one
nearest double, a double stays the nearest to all numbers between it and one that it is the nearest to, and a
number rounded at the position of its last bit is the nearest.
-/

import Mathlib.Algebra.Order.Field.Power
import Mathlib.Algebra.Order.Field.Rat
import Mathlib.Data.Rat.Cast.Order
import Mathlib.Tactic.Linarith
import Mathlib.Tactic.Positivity
import Mathlib.Tactic.Ring
import ScriptMachine.Decimal.Binary

namespace ScriptMachine.Decimal

/-- The exact magnitude. -/
def Binary.value (binary : Binary) : ℚ :=
  binary.significand * 2 ^ binary.exponent

/-- The significand has 53 bits, unless the exponent is the least one. Exponents have no upper bound here:
magnitudes beyond the largest double compete with it, which is how they overflow. -/
structure Binary.Canonical (binary : Binary) : Prop where
  bounded : binary.significand < 2 ^ 53
  fine : -1074 ≤ binary.exponent
  full : 2 ^ 52 ≤ binary.significand ∨ binary.exponent = -1074

/-- No canonical magnitude is nearer to the target, and a tie goes to the even significand. -/
structure Binary.Nearest (binary : Binary) (target : ℚ) : Prop where
  least : ∀ other : Binary, other.Canonical → |binary.value - target| ≤ |other.value - target|
  even : ∀ other : Binary, other.Canonical → other.value ≠ binary.value →
    |binary.value - target| = |other.value - target| → binary.significand % 2 = 0

theorem two_zpow_pos (power : ℤ) : (0 : ℚ) < 2 ^ power :=
  zpow_pos two_pos power

theorem two_zpow_eq_double (power : ℤ) : (2 : ℚ) ^ power = 2 * 2 ^ (power - 1) := by
  rw [zpow_sub_one₀ two_ne_zero]
  ring

/-- A power is a multiple of each lower one. -/
theorem zpow_eq_mul {base : ℚ} (nonzero : base ≠ 0) {low high : ℤ} (below : low ≤ high) :
    base ^ high = base ^ (high - low).toNat * base ^ low := by
  rw [← zpow_natCast, Int.toNat_of_nonneg (by omega), ← zpow_add₀ nonzero]
  congr 1
  omega

theorem two_zpow_eq_mul {low high : ℤ} (below : low ≤ high) :
    (2 : ℚ) ^ high = ((2 ^ (high - low).toNat : ℕ) : ℚ) * 2 ^ low := by
  rw [zpow_eq_mul two_ne_zero below, Nat.cast_pow, Nat.cast_ofNat]

theorem one_le_abs_sub {first second : ℕ} (different : first ≠ second) :
    (1 : ℚ) ≤ |(first : ℚ) - second| := by
  have apart := Int.one_le_abs (show (first : ℤ) - second ≠ 0 by omega)
  exact_mod_cast apart

namespace Binary

variable {binary other : Binary} {target between : ℚ}

theorem value_pos (nonzero : binary.significand ≠ 0) : 0 < binary.value :=
  mul_pos (by exact_mod_cast Nat.pos_of_ne_zero nonzero) (two_zpow_pos _)

theorem value_mul_denominator (binary : Binary) :
    binary.value * binary.denominator = binary.numerator := by
  unfold value denominator numerator
  simp only [Nat.pow_eq, Nat.cast_mul, Nat.cast_pow, Nat.cast_ofNat]
  rw [mul_assoc, ← zpow_natCast, ← zpow_natCast, ← zpow_add₀ two_ne_zero]
  congr 2
  omega

/-- A magnitude with a higher exponent is a multiple of the power of two of a lower one. -/
theorem exists_value_eq_mul {power : ℤ} (above : power ≤ binary.exponent) :
    ∃ count : ℕ, binary.value = count * 2 ^ power :=
  ⟨binary.significand * 2 ^ (binary.exponent - power).toNat, by
    rw [value, two_zpow_eq_mul above, Nat.cast_mul, mul_assoc]⟩

/-- A canonical magnitude with a lower exponent stays below the least full significand. -/
theorem Canonical.value_add_le {power : ℤ} (canonical : other.Canonical) (below : other.exponent < power) :
    other.value + 2 ^ (power - 1) ≤ 2 ^ 52 * 2 ^ power := by
  have scale : (2 : ℚ) ^ other.exponent ≤ 2 ^ (power - 1) :=
    zpow_le_zpow_right₀ one_le_two (by omega)
  have bounded : (other.significand : ℚ) + 1 ≤ 2 ^ 53 := by
    exact_mod_cast Nat.succ_le_of_lt canonical.bounded
  calc other.value + 2 ^ (power - 1)
      ≤ other.significand * 2 ^ (power - 1) + 2 ^ (power - 1) := by
        unfold value
        gcongr
    _ = (other.significand + 1) * 2 ^ (power - 1) := by ring
    _ ≤ 2 ^ 53 * 2 ^ (power - 1) := by gcongr
    _ = 2 ^ 52 * 2 ^ power := by
        rw [two_zpow_eq_double power]
        ring

/-- Above the least exponent the significand is full. -/
theorem Canonical.le_value (canonical : binary.Canonical) (above : -1074 < binary.exponent) :
    2 ^ 52 * 2 ^ binary.exponent ≤ binary.value := by
  have full : (2 ^ 52 : ℚ) ≤ binary.significand := by
    exact_mod_cast canonical.full.resolve_right (by omega)
  unfold value
  gcongr

/-- The exponents of canonical magnitudes are in their order. -/
theorem Canonical.value_lt (canonical : binary.Canonical) (rival : other.Canonical)
    (below : other.exponent < binary.exponent) : other.value < binary.value := by
  have less := rival.value_add_le below
  have full := canonical.le_value (by have := rival.fine; omega)
  linarith [two_zpow_pos (binary.exponent - 1)]

/-- A canonical magnitude has one significand and one exponent. -/
theorem Canonical.unique (canonical : binary.Canonical) (rival : other.Canonical)
    (same : other.value = binary.value) :
    other.significand = binary.significand ∧ other.exponent = binary.exponent := by
  have exponents : other.exponent = binary.exponent := by
    by_contra different
    obtain below | above := Int.lt_or_gt_of_ne different
    · exact absurd same (canonical.value_lt rival below).ne
    · exact absurd same (rival.value_lt canonical above).ne'
  refine ⟨?_, exponents⟩
  unfold value at same
  rw [exponents] at same
  exact_mod_cast mul_right_cancel₀ (two_zpow_pos _).ne' same

/-- A canonical magnitude is at least the 53rd binary place of it away from all others. -/
theorem Canonical.gap (canonical : binary.Canonical) (rival : other.Canonical)
    (different : other.value ≠ binary.value) : binary.value ≤ 2 ^ 53 * |other.value - binary.value| := by
  have unit := two_zpow_pos binary.exponent
  by_cases above : binary.exponent ≤ other.exponent
  · obtain ⟨count, multiple⟩ := exists_value_eq_mul above
    have apart : (1 : ℚ) ≤ |(count : ℚ) - binary.significand| :=
      one_le_abs_sub fun same => different (by rw [multiple, same, value])
    have bounded : (binary.significand : ℚ) ≤ 2 ^ 53 := by exact_mod_cast canonical.bounded.le
    calc binary.value ≤ 2 ^ 53 * 2 ^ binary.exponent := by
          unfold value
          gcongr
      _ ≤ 2 ^ 53 * (|(count : ℚ) - binary.significand| * 2 ^ binary.exponent) := by
          gcongr
          exact le_mul_of_one_le_left unit.le apart
      _ = 2 ^ 53 * |other.value - binary.value| := by
          rw [multiple, value, ← sub_mul, abs_mul, abs_of_pos unit]
  · -- The other magnitude lies below all full significands of this exponent.
    have below := rival.value_add_le (not_le.mp above)
    have full := canonical.le_value (by have := rival.fine; omega)
    have half := two_zpow_eq_double binary.exponent
    rw [abs_sub_comm, abs_of_pos (sub_pos.mpr (canonical.value_lt rival (not_le.mp above)))]
    linarith

/-- A magnitude is the nearest to all numbers that differ from it in less than the 54th binary place. -/
theorem Canonical.nearest (canonical : binary.Canonical)
    (near : 2 ^ 54 * |binary.value - target| < binary.value) : binary.Nearest target := by
  have farther : ∀ other : Binary, other.Canonical → other.value ≠ binary.value →
      |binary.value - target| < |other.value - target| := by
    intro other rival different
    have gap := canonical.gap rival different
    have path : |other.value - binary.value| ≤ |other.value - target| + |binary.value - target| := by
      rw [abs_sub_comm binary.value target]
      exact abs_sub_le _ _ _
    linarith
  refine ⟨fun other rival => ?_, fun other rival different tie => ?_⟩
  · by_cases same : other.value = binary.value
    · rw [same]
    · exact (farther other rival same).le
  · exact absurd tie (farther other rival different).ne

/-- A magnitude that is the nearest to a number is the nearest to all numbers between the two. -/
theorem Nearest.of_between (nearest : binary.Nearest target)
    (within : target ≤ between ∧ between ≤ binary.value ∨ binary.value ≤ between ∧ between ≤ target) :
    binary.Nearest between := by
  refine ⟨fun other rival => ?_, fun other rival different tie => ?_⟩
  · have least := nearest.least other rival
    grind
  · have least := nearest.least other rival
    apply nearest.even other rival different
    grind

/-- A canonical number is the nearest to itself only. -/
theorem Nearest.value_eq (nearest : binary.Nearest other.value) (canonical : other.Canonical) :
    binary.value = other.value := by
  have least := nearest.least other canonical
  rw [sub_self, abs_zero] at least
  exact sub_eq_zero.mp (abs_nonpos_iff.mp least)

/-- Which magnitude is the nearest does not depend on how it is written if the significand is even. -/
theorem Nearest.of_value_eq (nearest : binary.Nearest target) (same : other.value = binary.value)
    (even : other.significand % 2 = 0) : other.Nearest target :=
  ⟨fun rival canonical => same ▸ nearest.least rival canonical, fun _ _ _ _ => even⟩

/-- Each significand of at most 53 bits has a canonical form. -/
theorem exists_canonical {count : ℕ} {power : ℤ} (bounded : count < 2 ^ 53) (fine : -1074 ≤ power) :
    ∃ binary : Binary, binary.Canonical ∧ binary.exponent ≤ power ∧ binary.value = count * 2 ^ power := by
  by_cases zero : count = 0
  · exact ⟨⟨false, 0, -1074⟩, ⟨by decide, by decide, .inr rfl⟩, fine, by simp [value, zero]⟩
  have width : count.log2 < 53 := (Nat.log2_lt zero).mpr bounded
  let shift := min (52 - count.log2) (power + 1074).toNat
  refine ⟨⟨false, count * 2 ^ shift, power - shift⟩, ⟨?_, ?_, ?_⟩, by simp only; omega, ?_⟩
  · calc count * 2 ^ shift < 2 ^ (count.log2 + 1) * 2 ^ shift := by
          exact Nat.mul_lt_mul_of_pos_right Nat.lt_log2_self (Nat.two_pow_pos _)
      _ ≤ 2 ^ 53 := by
          rw [← Nat.pow_add]
          exact Nat.pow_le_pow_right (by decide) (by omega)
  · simp only
    omega
  · by_cases narrow : (power + 1074).toNat < 52 - count.log2
    · right
      simp only
      omega
    · left
      calc 2 ^ 52 = 2 ^ count.log2 * 2 ^ shift := by
            rw [← Nat.pow_add]
            congr 1
            omega
        _ ≤ count * 2 ^ shift := Nat.mul_le_mul_right _ (Nat.log2_self_le zero)
  · simp only [value, Nat.cast_mul, Nat.cast_pow, Nat.cast_ofNat]
    rw [mul_assoc, ← zpow_natCast, ← zpow_add₀ two_ne_zero]
    congr 2
    omega

/-- The next canonical magnitude above an even one. -/
def next (binary : Binary) : Binary :=
  ⟨binary.negative, binary.significand + 1, binary.exponent⟩

theorem value_next (binary : Binary) : binary.next.value = binary.value + 2 ^ binary.exponent := by
  simp only [next, value, Nat.cast_add, Nat.cast_one]
  ring

/-- The next number is canonical where the significand is even. -/
theorem Canonical.next (canonical : binary.Canonical) (even : binary.significand % 2 = 0) :
    binary.next.Canonical :=
  ⟨by have := canonical.bounded; simp only [Binary.next]; omega, canonical.fine,
    canonical.full.imp_left fun full => by simp only [Binary.next]; omega⟩

/-- No canonical magnitude lies between one and the next. -/
theorem Canonical.next_le (canonical : binary.Canonical) (rival : other.Canonical)
    (less : binary.value < other.value) : binary.next.value ≤ other.value := by
  have above : binary.exponent ≤ other.exponent := by
    by_contra below
    exact less.asymm (canonical.value_lt rival (not_le.mp below))
  obtain ⟨count, multiple⟩ := exists_value_eq_mul above
  rw [multiple] at less ⊢
  have more : binary.significand < count := by
    exact_mod_cast lt_of_mul_lt_mul_right less (two_zpow_pos _).le
  have reached : ((binary.significand + 1 : ℕ) : ℚ) ≤ count := by exact_mod_cast more
  exact mul_le_mul_of_nonneg_right reached (two_zpow_pos _).le

/-- Of two magnitudes that are the nearest to a number, none is less: the lower one would be even, and the
next above it would be odd and as near as the higher one. -/
theorem Nearest.not_value_lt (canonical : binary.Canonical) (rival : other.Canonical)
    (nearest : binary.Nearest target) (equal : other.Nearest target) : ¬binary.value < other.value := by
  intro less
  have tie := le_antisymm (nearest.least other rival) (equal.least binary canonical)
  have even := nearest.even other rival less.ne' tie
  have successor := canonical.next even
  have reached := canonical.next_le rival less
  have farther := equal.least _ successor
  have step := value_next binary
  have unit := two_zpow_pos binary.exponent
  have same : other.value = binary.next.value := by grind
  have odd := equal.even binary canonical less.ne tie.symm
  rw [(successor.unique rival same).1] at odd
  change (binary.significand + 1) % 2 = 0 at odd
  omega

/-- A number has at most one nearest canonical magnitude. -/
theorem Nearest.unique (nearest : binary.Nearest target) (equal : other.Nearest target)
    (canonical : binary.Canonical) (rival : other.Canonical) :
    other.significand = binary.significand ∧ other.exponent = binary.exponent :=
  canonical.unique rival (le_antisymm (not_lt.mp (nearest.not_value_lt canonical rival equal))
    (not_lt.mp (equal.not_value_lt rival canonical nearest)))

end Binary

/-- A natural number is a number rounded to the nearest, and a half to the even one. -/
structure Rounds (number : ℚ) (rounded : ℕ) : Prop where
  close : |(rounded : ℚ) - number| ≤ 1 / 2
  even : |(rounded : ℚ) - number| = 1 / 2 → rounded % 2 = 0

/-- A whole number closer than a half is the rounding. -/
theorem Rounds.of_lt {number : ℚ} {rounded : ℕ} (close : |(rounded : ℚ) - number| < 1 / 2) :
    Rounds number rounded :=
  ⟨close.le, fun tie => absurd tie close.ne⟩

section

variable {number : ℚ} {rounded : ℕ} (rounds : Rounds number rounded)
include rounds

/-- Each other natural number is half a unit away or more. -/
theorem Rounds.half_le {other : ℕ} (different : other ≠ rounded) : 1 / 2 ≤ |(other : ℚ) - number| := by
  have apart := one_le_abs_sub different
  have close := rounds.close
  grind

/-- A rounding is among the closest. -/
theorem Rounds.least (other : ℕ) : |(rounded : ℚ) - number| ≤ |(other : ℚ) - number| := by
  by_cases same : other = rounded
  · rw [same]
  · exact rounds.close.trans (rounds.half_le same)

/-- A number rounded at the position of its 53rd bit, or at the last position of all, has the nearest
canonical magnitude. -/
theorem Rounds.nearest {power : ℤ} (full : 2 ^ 52 ≤ number ∨ power = -1074) (negative : Bool) :
    (⟨negative, rounded, power⟩ : Binary).Nearest (number * 2 ^ power) := by
  have unit := two_zpow_pos power
  have scaled : ∀ count : ℕ,
      |(count : ℚ) * 2 ^ power - number * 2 ^ power| = |(count : ℚ) - number| * 2 ^ power := by
    intro count
    rw [← sub_mul, abs_mul, abs_of_pos unit]
  have farther : ∀ other : Binary, other.Canonical → other.exponent < power →
      |(rounded : ℚ) * 2 ^ power - number * 2 ^ power| < |other.value - number * 2 ^ power| := by
    intro other rival below
    have large := full.resolve_right (by have := rival.fine; omega)
    have bounded := rival.value_add_le below
    have least := rounds.least (2 ^ 52)
    rw [Nat.cast_pow, Nat.cast_ofNat, abs_of_nonpos (sub_nonpos.mpr large)] at least
    rw [scaled, abs_sub_comm other.value]
    refine lt_of_lt_of_le ?_ (le_abs_self _)
    calc |(rounded : ℚ) - number| * 2 ^ power ≤ -(2 ^ 52 - number) * 2 ^ power := by gcongr
      _ < number * 2 ^ power - other.value := by linarith [two_zpow_pos (power - 1)]
  refine ⟨fun other rival => ?_, fun other rival different tie => ?_⟩
  all_goals
    by_cases above : power ≤ other.exponent
  · obtain ⟨count, multiple⟩ := Binary.exists_value_eq_mul above
    rw [multiple, scaled, Binary.value, scaled]
    exact mul_le_mul_of_nonneg_right (rounds.least count) unit.le
  · exact (farther other rival (not_le.mp above)).le
  · obtain ⟨count, multiple⟩ := Binary.exists_value_eq_mul above
    rw [multiple, scaled, Binary.value, scaled] at tie
    apply rounds.even
    apply le_antisymm rounds.close
    rw [mul_right_cancel₀ unit.ne' tie]
    exact rounds.half_le fun same => different (by rw [multiple, same, Binary.value])
  · exact absurd tie (farther other rival (not_le.mp above)).ne

end

end ScriptMachine.Decimal

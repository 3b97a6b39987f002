/-
This file shows that the numeral found for a double is a shortest one. Main statements: if a numeral reads
back as a double, so does a neighbour of the double with as many digits, and a neighbour with seventeen digits
always reads back. The double is therefore the nearest to the numeral found, and to none with fewer digits.
-/

import ScriptMachine.Proofs.Rounding

namespace ScriptMachine.Decimal

section Digits

variable {number count : ℕ}

theorem digitCount_pos (number : ℕ) : 0 < digitCount number :=
  Nat.length_toDigits_pos

/-- The digits fit exactly when the number is below the power. -/
theorem digitCount_le_iff (positive : 0 < count) : digitCount number ≤ count ↔ number < 10 ^ count :=
  Nat.length_toDigits_le_iff (by decide) positive

theorem lt_pow_digitCount (number : ℕ) : number < 10 ^ digitCount number :=
  (digitCount_le_iff (digitCount_pos number)).mp le_rfl

theorem lt_digitCount_iff (nonzero : number ≠ 0) : count < digitCount number ↔ 10 ^ count ≤ number := by
  obtain rfl | positive := Nat.eq_zero_or_pos count
  · simp only [digitCount_pos, pow_zero, true_iff]
    omega
  · rw [← not_le, digitCount_le_iff positive, not_lt]

/-- Between two powers of ten the digits are counted exactly. -/
theorem digitCount_eq (low : 10 ^ (count - 1) ≤ number) (high : number < 10 ^ count) (positive : 0 < count) :
    digitCount number = count := by
  have nonzero : number ≠ 0 := by
    have := Nat.pow_pos (n := count - 1) (show 0 < 10 by decide)
    omega
  have more := (lt_digitCount_iff nonzero).mpr low
  have less := (digitCount_le_iff positive).mpr high
  omega

/-- The digits of a quotient say between which multiples of the divisor the dividend lies. -/
theorem digitCount_div_bounds {divisor : ℕ} (positive : 0 < divisor) (large : divisor ≤ number) :
    10 ^ (digitCount (number / divisor) - 1) * divisor ≤ number ∧
    number < 10 ^ digitCount (number / divisor) * divisor := by
  have nonzero : number / divisor ≠ 0 := (Nat.div_pos large positive).ne'
  have some := digitCount_pos (number / divisor)
  refine ⟨?_, (Nat.div_lt_iff_lt_mul positive).mp (lt_pow_digitCount _)⟩
  calc 10 ^ (digitCount (number / divisor) - 1) * divisor ≤ number / divisor * divisor :=
        Nat.mul_le_mul_right _ ((lt_digitCount_iff nonzero).mp (by omega))
    _ ≤ number := Nat.div_mul_le_self _ _

end Digits

theorem ten_zpow_pos (power : ℤ) : (0 : ℚ) < 10 ^ power :=
  zpow_pos (by norm_num) power

variable {low high : ℤ} {binary : Binary}

theorem ten_zpow_eq_mul (below : low ≤ high) :
    (10 : ℚ) ^ high = ((10 ^ (high - low).toNat : ℕ) : ℚ) * 10 ^ low := by
  rw [zpow_eq_mul (by norm_num) below, Nat.cast_pow, Nat.cast_ofNat]

theorem ten_zpow_le_iff : (10 : ℚ) ^ low ≤ 10 ^ high ↔ low ≤ high :=
  zpow_le_zpow_iff_right₀ (by norm_num)

theorem ten_zpow_lt_iff : (10 : ℚ) ^ low < 10 ^ high ↔ low < high :=
  zpow_lt_zpow_iff_right₀ (by norm_num)

namespace Numeral

/-- The number of digits before the decimal point. -/
def point (numeral : Numeral) : ℤ :=
  numeral.exponent + digitCount numeral.digits

/-- The point says between which powers of ten the value lies. -/
theorem value_bounds {numeral : Numeral} (nonzero : numeral.digits ≠ 0) :
    (10 : ℚ) ^ (numeral.point - 1) ≤ numeral.value ∧ numeral.value < 10 ^ numeral.point := by
  have unit := ten_zpow_pos numeral.exponent
  have positive := digitCount_pos numeral.digits
  rw [ten_zpow_eq_mul (show numeral.exponent ≤ numeral.point - 1 by rw [point]; omega),
    ten_zpow_eq_mul (show numeral.exponent ≤ numeral.point by rw [point]; omega), value,
    mul_le_mul_iff_left₀ unit, mul_lt_mul_iff_left₀ unit, Nat.cast_le, Nat.cast_lt,
    ← lt_digitCount_iff nonzero, ← digitCount_le_iff (by rw [point]; omega), point]
  omega

end Numeral

theorem Binary.numerator_pos (nonzero : binary.significand ≠ 0) : 0 < binary.numerator :=
  Nat.mul_pos (Nat.pos_of_ne_zero nonzero) (Nat.two_pow_pos _)

/-- No magnitude below one is a power of ten. -/
theorem Binary.denominator_ne_mul (less : binary.numerator < binary.denominator) (power : ℕ) :
    binary.denominator ≠ 10 ^ power * binary.numerator := by
  intro same
  cases power with
  | zero => omega
  | succ power =>
      have divides : 5 ∣ 2 ^ (-binary.exponent).toNat := by
        refine ⟨2 * 10 ^ power * binary.numerator, ?_⟩
        change binary.denominator = _
        rw [same]
        ring
      exact absurd (Nat.prime_five.dvd_of_dvd_pow divides) (by decide)

/-- The leading power is the one of the first digit. -/
theorem leadingPower_bounds (nonzero : binary.significand ≠ 0) :
    (10 : ℚ) ^ leadingPower binary ≤ binary.value ∧ binary.value < 10 ^ (leadingPower binary + 1) := by
  have above := Binary.numerator_pos nonzero
  have under : (0 : ℚ) < binary.denominator := by exact_mod_cast binary.denominator_pos
  have fraction : binary.value = binary.numerator / binary.denominator :=
    (eq_div_iff under.ne').mpr binary.value_mul_denominator
  rw [fraction, le_div_iff₀ under, div_lt_iff₀ under]
  unfold leadingPower
  split
  · rename_i large
    obtain ⟨low, high⟩ := digitCount_div_bounds binary.denominator_pos large
    have some := digitCount_pos binary.floor
    rw [show (digitCount binary.floor : ℤ) - 1 = (digitCount binary.floor - 1 : ℕ) by omega, zpow_natCast,
      show ((digitCount binary.floor - 1 : ℕ) : ℤ) + 1 = digitCount binary.floor by omega, zpow_natCast]
    exact ⟨by exact_mod_cast low, by exact_mod_cast high⟩
  · rename_i small
    have less := not_le.mp small
    obtain ⟨high, low⟩ := digitCount_div_bounds above less.le
    have high := lt_of_le_of_ne high (Binary.denominator_ne_mul less _).symm
    have some := digitCount_pos (binary.denominator / binary.numerator)
    generalize digitCount (binary.denominator / binary.numerator) = digits at some low high ⊢
    rw [show (-digits : ℤ) + 1 = -((digits - 1 : ℕ) : ℤ) by omega, zpow_neg, zpow_neg, zpow_natCast,
      zpow_natCast, inv_mul_le_iff₀ (by positivity), lt_inv_mul_iff₀ (by positivity)]
    exact ⟨by exact_mod_cast low.le, by exact_mod_cast high⟩

/-- A point of a grid keeps its value and has the digits of the grid, also if it is the power of ten above. -/
theorem gridPoint_facts {count digits : ℕ} (exponent : ℤ) (low : 10 ^ (count - 1) ≤ digits)
    (high : digits ≤ 10 ^ count) (positive : 0 < count) :
    (gridPoint count digits exponent).value = digits * 10 ^ exponent ∧
    digitCount (gridPoint count digits exponent).digits = count ∧
    exponent ≤ (gridPoint count digits exponent).exponent := by
  unfold gridPoint
  split
  · rename_i power
    rw [beq_iff_eq, Nat.pow_eq] at power
    subst power
    refine ⟨?_, digitCount_eq le_rfl (Nat.pow_lt_pow_right (by decide) (by omega)) positive, by simp⟩
    obtain ⟨less, rfl⟩ := Nat.exists_eq_add_of_lt positive
    simp only [Numeral.value, Nat.pow_eq, Nat.cast_pow, Nat.cast_ofNat]
    rw [zpow_add_one₀ (by norm_num)]
    simp only [zero_add, Nat.add_sub_cancel, pow_succ]
    ring
  · rename_i other
    rw [beq_iff_eq, Nat.pow_eq] at other
    exact ⟨rfl, digitCount_eq low (lt_of_le_of_ne high other) positive, le_rfl⟩

/-- What is known of the neighbours of a magnitude on the grid of a digit count. -/
structure Neighbours (binary : Binary) (count : ℕ) (lower upper : Numeral) : Prop where
  below : lower.value ≤ binary.value
  above : binary.value < upper.value
  step : upper.value = lower.value + 10 ^ (leadingPower binary - count + 1)
  multiple : ∃ digits : ℕ, 10 ^ (count - 1) ≤ digits ∧
    lower.value = digits * 10 ^ (leadingPower binary - count + 1)
  counts : digitCount lower.digits = count ∧ digitCount upper.digits = count
  exponents : leadingPower binary - count + 1 ≤ lower.exponent ∧
    leadingPower binary - count + 1 ≤ upper.exponent
  ordered : neighbours binary count = [lower, upper] ∧
      2 * (binary.value - lower.value) ≤ 10 ^ (leadingPower binary - count + 1) ∨
    neighbours binary count = [upper, lower] ∧
      2 * (upper.value - binary.value) ≤ 10 ^ (leadingPower binary - count + 1)

section Division

variable {numerator denominator : ℕ} {value unit : ℚ} (positive : 0 < denominator) (above : 0 < unit)
  (scaled : value * denominator = numerator * unit)
include scaled

/-- The remainder is the distance to the quotient. -/
theorem sub_div_mul_eq :
    (value - (numerator / denominator : ℕ) * unit) * denominator = (numerator % denominator : ℕ) * unit := by
  have divided : (numerator : ℚ) =
      (numerator / denominator : ℕ) * denominator + (numerator % denominator : ℕ) := by
    exact_mod_cast (Nat.div_add_mod' numerator denominator).symm
  calc (value - (numerator / denominator : ℕ) * unit) * denominator
      = (numerator - (numerator / denominator : ℕ) * denominator) * unit := by
        rw [sub_mul, scaled]
        ring
    _ = (numerator % denominator : ℕ) * unit := by
        rw [sub_eq_of_eq_add' divided]

include positive above

/-- The quotient is at most the value. -/
theorem div_mul_le : ((numerator / denominator : ℕ) : ℚ) * unit ≤ value := by
  have scale : (0 : ℚ) < denominator := by exact_mod_cast positive
  refine sub_nonneg.mp (nonneg_of_mul_nonneg_left ?_ scale)
  rw [sub_div_mul_eq scaled]
  positivity

/-- The next quotient is above the value. -/
theorem lt_div_add_one_mul : value < ((numerator / denominator + 1 : ℕ) : ℚ) * unit := by
  have scale : (0 : ℚ) < denominator := by exact_mod_cast positive
  have less : ((numerator % denominator : ℕ) : ℚ) < denominator := by
    exact_mod_cast Nat.mod_lt numerator positive
  rw [Nat.cast_add, Nat.cast_one, add_mul, one_mul, ← sub_lt_iff_lt_add']
  refine lt_of_mul_lt_mul_right ?_ scale.le
  rw [sub_div_mul_eq scaled, mul_comm unit]
  gcongr

theorem two_mul_sub_le (near : 2 * (numerator % denominator) ≤ denominator) :
    2 * (value - (numerator / denominator : ℕ) * unit) ≤ unit := by
  have scale : (0 : ℚ) < denominator := by exact_mod_cast positive
  have near : (2 * (numerator % denominator : ℕ) : ℚ) ≤ denominator := by exact_mod_cast near
  refine le_of_mul_le_mul_right ?_ scale
  rw [mul_assoc, sub_div_mul_eq scaled, ← mul_assoc, mul_comm unit]
  gcongr

theorem two_mul_add_one_sub_le (far : denominator ≤ 2 * (numerator % denominator)) :
    2 * ((numerator / denominator + 1 : ℕ) * unit - value) ≤ unit := by
  have scale : (0 : ℚ) < denominator := by exact_mod_cast positive
  have far : (denominator : ℚ) ≤ 2 * (numerator % denominator : ℕ) := by exact_mod_cast far
  have rest := sub_div_mul_eq scaled
  refine le_of_mul_le_mul_right ?_ scale
  push_cast at rest ⊢
  nlinarith

end Division

/-- Every nonzero number lies between two decimals of a length. -/
theorem exists_neighbours {count : ℕ} (nonzero : binary.significand ≠ 0) (positive : 0 < count) :
    ∃ lower upper, Neighbours binary count lower upper := by
  -- In units of the last digit, the neighbours are the whole part of the value and the number after it.
  let exponent := leadingPower binary - count + 1
  let numerator := binary.numerator * Nat.pow 10 (-exponent).toNat
  let denominator := binary.denominator * Nat.pow 10 exponent.toNat
  have under : 0 < denominator := Nat.mul_pos binary.denominator_pos (Nat.pow_pos (by decide))
  have unit := ten_zpow_pos exponent
  have scaled : binary.value * denominator = numerator * 10 ^ exponent := by
    have powers : (10 : ℚ) ^ exponent.toNat = 10 ^ (-exponent).toNat * 10 ^ exponent := by
      rw [← zpow_natCast, ← zpow_natCast, ← zpow_add₀ (by norm_num)]
      congr 1
      omega
    simp only [denominator, numerator, Nat.pow_eq, Nat.cast_mul, Nat.cast_pow, Nat.cast_ofNat, powers]
    rw [← binary.value_mul_denominator]
    ring
  have lowest := div_mul_le under unit scaled
  have highest := lt_div_add_one_mul under unit scaled
  obtain ⟨low, high⟩ := leadingPower_bounds nonzero
  have atLeast : 10 ^ (count - 1) ≤ numerator / denominator := by
    rw [ten_zpow_eq_mul (show exponent ≤ leadingPower binary by omega)] at low
    have reached := lt_of_mul_lt_mul_right (low.trans_lt highest) unit.le
    rw [show (leadingPower binary - exponent).toNat = count - 1 by omega] at reached
    exact Nat.le_of_lt_succ (by exact_mod_cast reached)
  have atMost : numerator / denominator < 10 ^ count := by
    rw [ten_zpow_eq_mul (show exponent ≤ leadingPower binary + 1 by omega)] at high
    have reached := lt_of_mul_lt_mul_right (lowest.trans_lt high) unit.le
    rw [show (leadingPower binary + 1 - exponent).toNat = count by omega] at reached
    exact_mod_cast reached
  obtain ⟨lowerValue, lowerCount, lowerExponent⟩ := gridPoint_facts exponent atLeast atMost.le positive
  obtain ⟨upperValue, upperCount, upperExponent⟩ :=
    gridPoint_facts exponent (atLeast.trans (Nat.le_succ _)) atMost positive
  refine ⟨_, _, lowerValue.trans_le lowest, highest.trans_eq upperValue.symm, ?_, ⟨_, atLeast, lowerValue⟩,
    ⟨lowerCount, upperCount⟩, ⟨lowerExponent, upperExponent⟩, ?_⟩
  · rw [lowerValue, upperValue]
    push_cast
    ring
  · rw [lowerValue, upperValue]
    -- The rest of the division says which of them is nearer, and a tie goes to the even one.
    by_cases near : (2 * (numerator % denominator) < denominator ||
        (2 * (numerator % denominator) == denominator && numerator / denominator % 2 == 0)) = true
    · refine .inl ⟨if_pos near, two_mul_sub_le under unit scaled ?_⟩
      simp only [Bool.or_eq_true, decide_eq_true_eq, Bool.and_eq_true, beq_iff_eq] at near
      omega
    · refine .inr ⟨if_neg near, two_mul_add_one_sub_le under unit scaled ?_⟩
      simp only [Bool.or_eq_true, decide_eq_true_eq, Bool.and_eq_true, beq_iff_eq] at near
      omega

namespace Neighbours

variable {binary : Binary} {count : ℕ} {lower upper : Numeral}
  (neighbours : Neighbours binary count lower upper)
include neighbours

theorem mem_iff {numeral : Numeral} :
    numeral ∈ Decimal.neighbours binary count ↔ numeral = lower ∨ numeral = upper := by
  obtain ⟨listed, _⟩ | ⟨listed, _⟩ := neighbours.ordered
  · simp [listed]
  · simp [listed, or_comm]

theorem digits_ne_zero : lower.digits ≠ 0 ∧ upper.digits ≠ 0 := by
  have unit := ten_zpow_pos (leadingPower binary - count + 1)
  obtain ⟨multiple, least, lowerValue⟩ := neighbours.multiple
  have some : (0 : ℚ) < multiple := by
    exact_mod_cast (Nat.pow_pos (show 0 < 10 by decide)).trans_le least
  have positive : 0 < lower.value := lowerValue ▸ mul_pos some unit
  have higher : 0 < upper.value := by linarith [neighbours.below, neighbours.above]
  constructor <;> intro none
  · simp [Numeral.value, none] at positive
  · simp [Numeral.value, none] at higher

/-- A numeral with as many digits is at most the lower neighbour or at least the upper one. -/
theorem outside {other : Numeral} (nonzero : other.digits ≠ 0) (digits : digitCount other.digits = count) :
    other.value ≤ lower.value ∨ upper.value ≤ other.value := by
  have unit := ten_zpow_pos (leadingPower binary - count + 1)
  obtain ⟨multiple, least, lowerValue⟩ := neighbours.multiple
  by_cases fine : leadingPower binary - count + 1 ≤ other.exponent
  · -- The numeral lies on the grid.
    have onGrid : other.value =
        ((other.digits * 10 ^ (other.exponent - (leadingPower binary - count + 1)).toNat : ℕ) : ℚ) *
          10 ^ (leadingPower binary - count + 1) := by
      rw [Numeral.value, ten_zpow_eq_mul fine]
      push_cast
      ring
    rw [neighbours.step, onGrid, lowerValue]
    generalize other.digits * 10 ^ (other.exponent - (leadingPower binary - count + 1)).toNat = point
    obtain less | more := Nat.lt_or_ge multiple point
    · right
      have more : ((multiple + 1 : ℕ) : ℚ) ≤ point := by exact_mod_cast less
      push_cast at more
      nlinarith
    · left
      gcongr
  · -- The numeral is below the power of ten of the first digit.
    left
    have positive : 0 < count := digits ▸ digitCount_pos other.digits
    calc other.value ≤ 10 ^ other.point := (other.value_bounds nonzero).2.le
      _ ≤ 10 ^ leadingPower binary := by
          rw [ten_zpow_le_iff, Numeral.point]
          omega
      _ ≤ lower.value := by
          rw [lowerValue,
            ten_zpow_eq_mul (show leadingPower binary - count + 1 ≤ leadingPower binary by omega),
            show (leadingPower binary - (leadingPower binary - count + 1)).toNat = count - 1 by omega]
          gcongr

/-- If a numeral reads back as a magnitude, so does a neighbour with as many digits. -/
theorem exists_nearest {other : Numeral} (nonzero : other.digits ≠ 0)
    (digits : digitCount other.digits = count) (nearest : binary.Nearest other.value) :
    binary.Nearest lower.value ∨ binary.Nearest upper.value := by
  obtain less | more := neighbours.outside nonzero digits
  · exact .inl (nearest.of_between (.inl ⟨less, neighbours.below⟩))
  · exact .inr (nearest.of_between (.inr ⟨neighbours.above.le, more⟩))

end Neighbours

/-- A neighbour with seventeen digits reads back. -/
theorem exists_nearest_seventeen (canonical : binary.Canonical) (nonzero : binary.significand ≠ 0) :
    ∃ numeral ∈ neighbours binary 17, binary.Nearest numeral.value := by
  obtain ⟨lower, upper, facts⟩ := exists_neighbours nonzero (show 0 < 17 by decide)
  have unit := ten_zpow_pos (leadingPower binary - (17 : ℕ) + 1)
  have large : 10 ^ 16 * 10 ^ (leadingPower binary - (17 : ℕ) + 1) ≤ binary.value := by
    refine le_trans (le_of_eq ?_) (leadingPower_bounds nonzero).1
    rw [← zpow_natCast, ← zpow_add₀ (by norm_num)]
    congr 1
    omega
  obtain ⟨listed, near⟩ | ⟨listed, near⟩ := facts.ordered
  · refine ⟨lower, by simp [listed], canonical.nearest ?_⟩
    rw [abs_of_nonneg (sub_nonneg.mpr facts.below)]
    linarith
  · refine ⟨upper, by simp [listed], canonical.nearest ?_⟩
    rw [abs_sub_comm, abs_of_pos (sub_pos.mpr facts.above)]
    linarith

/-- A shortest numeral of a magnitude: the magnitude is the nearest to it, and to none with fewer digits. -/
structure Numeral.Shortest (numeral : Numeral) (binary : Binary) : Prop where
  nonzero : numeral.digits ≠ 0
  nearest : binary.Nearest numeral.value
  least : ∀ other : Numeral, other.digits ≠ 0 → binary.Nearest other.value →
    digitCount numeral.digits ≤ digitCount other.digits

section

variable {magnitude : Float} (positive : (Binary.ofFloat magnitude).negative = false)
  (finite : (Binary.ofFloat magnitude).exponent ≤ 971) (nonzero : (Binary.ofFloat magnitude).significand ≠ 0)
include positive finite nonzero

/-- The numeral found is a neighbour on a grid, and no neighbour on a coarser grid reads back. -/
theorem exists_shortest :
    ∃ numeral count, shortest? magnitude = some numeral ∧ 0 < count ∧ count ≤ 17 ∧
      numeral ∈ neighbours (Binary.ofFloat magnitude) count ∧
      (Binary.ofFloat magnitude).Nearest numeral.value ∧
      ∀ fewer, 0 < fewer → fewer < count → ∀ other ∈ neighbours (Binary.ofFloat magnitude) fewer,
        ¬(Binary.ofFloat magnitude).Nearest other.value := by
  have reads : ∀ numeral : Numeral,
      numeral.readsBack magnitude = true ↔ (Binary.ofFloat magnitude).Nearest numeral.value :=
    fun _ => Numeral.readsBack_iff positive finite nonzero
  have found : ∃ numeral, shortest? magnitude = some numeral := by
    obtain ⟨numeral, member, nearest⟩ :=
      exists_nearest_seventeen (Binary.canonical_ofFloat magnitude) nonzero
    rw [← Option.isSome_iff_exists, shortest?, List.findSome?_isSome_iff]
    refine ⟨17, by decide, ?_⟩
    rw [List.find?_isSome]
    exact ⟨numeral, member, (reads numeral).mpr nearest⟩
  obtain ⟨numeral, found⟩ := found
  have split := found
  rw [shortest?, List.findSome?_eq_some_iff] at split
  obtain ⟨before, count, after, listed, hit, missed⟩ := split
  obtain ⟨fewer, _, rfl, rest⟩ := List.range'_eq_append_iff.mp listed
  obtain ⟨rfl, some, _⟩ := List.range'_eq_cons_iff.mp rest.symm
  refine ⟨numeral, _, found, by omega, by omega, List.mem_of_find?_eq_some hit,
    (reads numeral).mp (readsBack_of_shortest found), ?_⟩
  intro count positive less other member nearest
  have none := missed count (List.mem_range'_1.mpr ⟨by omega, by omega⟩)
  exact List.find?_eq_none.mp none other member ((reads other).mpr nearest)

/-- The numeral found is a shortest one, and its last digit is not behind the grid of its digits. -/
theorem shortest_facts :
    (shortest magnitude).Shortest (Binary.ofFloat magnitude) ∧
    leadingPower (Binary.ofFloat magnitude) - digitCount (shortest magnitude).digits + 1 ≤
      (shortest magnitude).exponent := by
  obtain ⟨numeral, count, found, some, bounded, member, nearest, missed⟩ :=
    exists_shortest positive finite nonzero
  rw [shortest, found, Option.getD_some]
  obtain ⟨lower, upper, facts⟩ := exists_neighbours nonzero some
  have digits : numeral.digits ≠ 0 ∧ digitCount numeral.digits = count ∧
      leadingPower (Binary.ofFloat magnitude) - count + 1 ≤ numeral.exponent := by
    obtain rfl | rfl := facts.mem_iff.mp member
    · exact ⟨facts.digits_ne_zero.1, facts.counts.1, facts.exponents.1⟩
    · exact ⟨facts.digits_ne_zero.2, facts.counts.2, facts.exponents.2⟩
  obtain ⟨present, rfl, exponents⟩ := digits
  refine ⟨⟨present, nearest, fun other present' nearest' => ?_⟩, exponents⟩
  by_contra fewer
  obtain ⟨lower, upper, coarse⟩ := exists_neighbours nonzero (digitCount_pos other.digits)
  have hit := missed _ (digitCount_pos other.digits) (not_le.mp fewer)
  obtain low | high := coarse.exists_nearest present' rfl nearest'
  · exact hit lower (coarse.mem_iff.mpr (.inl rfl)) low
  · exact hit upper (coarse.mem_iff.mpr (.inr rfl)) high

end

end ScriptMachine.Decimal

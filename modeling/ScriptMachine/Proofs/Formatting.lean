/-
This file compares the text of a number with the layout that the standard prescribes for its digits. Main
statement: an integer below 10^21 is written as prescribed exactly if its shortest digits are exact, and every
other number exactly if its point is not between 4 and 8 places before its first digit.
-/

import ScriptMachine.Proofs.Brevity
import ScriptMachine.Proofs.Spelling

namespace ScriptMachine.Decimal

/-- The first digit, followed by a point if there are more. -/
def pointed (digits : List Char) : List Char :=
  digits.take 1 ++ if 1 < digits.length then '.' :: digits.drop 1 else []

/-- The layout that the standard prescribes for the digits of a number. -/
def Numeral.prescribed (numeral : Numeral) : List Char :=
  let digits := digitsOf numeral.digits
  let point := numeral.point
  if digits.length ≤ point ∧ point ≤ 21 then digits ++ zeros (point - digits.length).toNat
  else if 0 < point ∧ point ≤ 21 then digits.take point.toNat ++ '.' :: digits.drop point.toNat
  else if -6 < point ∧ point ≤ 0 then '0' :: '.' :: zeros (-point).toNat ++ digits
  else pointed digits ++ 'e' :: (if point - 1 < 0 then '-' else '+') :: digitsOf (point - 1).natAbs

/-- The text of a number with a sign and a layout. -/
def signed (negative : Bool) (layout : List Char) : String :=
  String.ofList ((if negative then ['-'] else []) ++ layout)

theorem signed_inj {negative : Bool} {first second : List Char} :
    signed negative first = signed negative second ↔ first = second := by
  rw [signed, signed, String.ofList_inj, List.append_right_inj]

section Layout

variable {numeral : Numeral}

theorem digitsOf_ne_nil (number : ℕ) : digitsOf number ≠ [] :=
  Nat.toDigits_ne_nil

theorem length_digitsOf (number : ℕ) : (digitsOf number).length = digitCount number :=
  rfl

/-- Different numbers have different digits. -/
theorem digitsOf_injective {first second : ℕ} (same : digitsOf first = digitsOf second) : first = second := by
  have read := congrArg (Nat.ofDigitChars 10 · 0) same
  simpa [digitsOf] using read

/-- A power of ten appends zeros. -/
theorem digitsOf_mul_pow {number : ℕ} (nonzero : number ≠ 0) (power : ℕ) :
    digitsOf (number * 10 ^ power) = digitsOf number ++ zeros power := by
  induction power with
  | zero => simp [zeros]
  | succ power step =>
      have positive : 0 < number * 10 ^ power :=
        Nat.mul_pos (Nat.pos_of_ne_zero nonzero) (Nat.pow_pos (by decide))
      have shifted := Nat.toDigits_append_toDigits (show 1 < 10 by decide) positive (show 0 < 10 by decide)
      rw [show number * 10 ^ (power + 1) = 10 * (number * 10 ^ power) + 0 by ring, digitsOf, ← shifted]
      change digitsOf _ ++ ['0'] = _
      rw [step, zeros, zeros, List.replicate_succ', List.append_assoc]

theorem scientific_eq (digits : List Char) (power : ℤ) :
    scientific Style.plain digits power =
      pointed digits ++ 'e' :: (if power < 0 then '-' else '+') ::
        (zeros (2 - (digitsOf power.natAbs).length) ++ digitsOf power.natAbs) := by
  match digits with
  | [] => rfl
  | [_] => rfl
  | _ :: _ :: _ => simp [scientific, pointed, exponentText, Style.plain]

/-- An exponent of two digits or more needs no zero. -/
theorem scientific_of_wide {power : ℤ} (wide : 10 ≤ power.natAbs) (digits : List Char) :
    scientific Style.plain digits power =
      pointed digits ++ 'e' :: (if power < 0 then '-' else '+') :: digitsOf power.natAbs := by
  have width : 1 < (digitsOf power.natAbs).length := (lt_digitCount_iff (by omega)).mpr wide
  rw [scientific_eq, show 2 - (digitsOf power.natAbs).length = 0 by omega]
  rfl

/-- An exponent of one digit is filled up with a zero. -/
theorem scientific_of_narrow {power : ℤ} (narrow : power.natAbs < 10) (digits : List Char) :
    scientific Style.plain digits power =
      pointed digits ++ 'e' :: (if power < 0 then '-' else '+') :: '0' :: digitsOf power.natAbs := by
  have width : (digitsOf power.natAbs).length = 1 := by rw [digitsOf, Nat.toDigits_of_lt_base narrow]; rfl
  rw [scientific_eq, width]
  rfl

/-- The layout is positional in the middle range alone. -/
theorem layout_eq (numeral : Numeral) :
    Style.plain.layout numeral =
      if -4 ≤ numeral.point - 1 ∧ numeral.point - 1 < 16 then
        positional (digitsOf numeral.digits) numeral.point
      else scientific Style.plain (digitsOf numeral.digits) (numeral.point - 1) :=
  rfl

/-- Numbers with a digit behind the point and numbers that are too large to be positional are laid out as
prescribed, unless the point is between 4 and 8 places before the first digit. -/
theorem layout_eq_prescribed {numeral : Numeral}
    (range : numeral.exponent < 0 ∧ numeral.point ≤ 16 ∨ 22 ≤ numeral.point)
    (outside : ¬(-8 ≤ numeral.point ∧ numeral.point ≤ -4)) :
    Style.plain.layout numeral = numeral.prescribed := by
  have length : (digitsOf numeral.digits).length = numeral.point - numeral.exponent := by
    rw [length_digitsOf, Numeral.point]
    omega
  have some := digitCount_pos numeral.digits
  rw [← length_digitsOf] at some
  rw [layout_eq]
  unfold Numeral.prescribed
  dsimp only
  obtain ⟨fraction, bounded⟩ | large := range
  · by_cases above : 0 < numeral.point
    · rw [if_pos (by omega), if_neg (by omega), if_pos (by omega), positional, if_neg (by omega),
        if_pos (by omega)]
    · by_cases near : -4 < numeral.point
      · rw [if_pos (by omega), if_neg (by omega), if_neg (by omega), if_pos (by omega), positional,
          if_pos (by omega)]
      · rw [if_neg (by omega), if_neg (by omega), if_neg (by omega), if_neg (by omega),
          scientific_of_wide (by omega)]
  · rw [if_neg (by omega), if_neg (by omega), if_neg (by omega), if_neg (by omega),
      scientific_of_wide (by omega)]

section

variable {numeral : Numeral} (between : -8 ≤ numeral.point ∧ numeral.point ≤ -4)
include between

/-- Just below the threshold the exponent has a leading zero. -/
theorem layout_of_between :
    Style.plain.layout numeral =
      pointed (digitsOf numeral.digits) ++ 'e' :: '-' :: '0' :: digitsOf (1 - numeral.point).toNat := by
  rw [layout_eq, if_neg (by omega), scientific_of_narrow (by omega), if_pos (by omega),
    show (numeral.point - 1).natAbs = (1 - numeral.point).toNat by omega]

theorem layout_ne_prescribed : Style.plain.layout numeral ≠ numeral.prescribed := by
  have some := digitCount_pos numeral.digits
  rw [← length_digitsOf] at some
  rw [layout_of_between between]
  unfold Numeral.prescribed
  dsimp only
  rw [if_neg (by omega), if_neg (by omega)]
  by_cases positional : -6 < numeral.point
  · -- Only one of the layouts has an exponent.
    rw [if_pos (by omega)]
    intro same
    have member : 'e' ∈ '0' :: '.' :: zeros (-numeral.point).toNat ++ digitsOf numeral.digits := by
      rw [← same]
      simp
    simp only [zeros, List.cons_append, List.mem_cons, List.mem_append, List.mem_replicate] at member
    obtain impossible | impossible | ⟨_, impossible⟩ | member := member
    · cases impossible
    · cases impossible
    · cases impossible
    · exact absurd (Nat.isDigit_of_mem_toDigits (by decide) (by decide) member) (by decide)
  · -- The exponents have different numbers of digits.
    rw [if_neg (by omega), show (numeral.point - 1).natAbs = (1 - numeral.point).toNat by omega]
    intro same
    have lengths := congrArg List.length same
    simp at lengths

end

end Layout

namespace Binary

variable {binary bound : Binary}

/-- A magnitude below a canonical one is only the nearest to numbers below that. -/
theorem Nearest.lt_of_lt {target : ℚ} (nearest : binary.Nearest target) (canonical : bound.Canonical)
    (less : binary.value < bound.value) : target < bound.value := by
  by_contra more
  have between := nearest.of_between (.inr ⟨less.le, not_lt.mp more⟩)
  exact less.ne (between.value_eq canonical)

theorem floor_le_value (binary : Binary) : (binary.floor : ℚ) ≤ binary.value := by
  have scaled : binary.value * binary.denominator = binary.numerator * 1 := by
    rw [mul_one, binary.value_mul_denominator]
  simpa [floor] using div_mul_le binary.denominator_pos one_pos scaled

theorem value_eq_floor (integral : binary.isIntegral = true) : binary.value = binary.floor := by
  have scale : (binary.denominator : ℚ) ≠ 0 := by exact_mod_cast binary.denominator_pos.ne'
  apply mul_right_cancel₀ scale
  rw [binary.value_mul_denominator]
  exact_mod_cast (floor_mul_denominator integral).symm

/-- A value that is a count is integral. -/
theorem isIntegral_of_value_eq {count : ℕ} (same : binary.value = count) : binary.isIntegral = true := by
  have product := binary.value_mul_denominator
  rw [same] at product
  have product : count * binary.denominator = binary.numerator := by exact_mod_cast product
  rw [isIntegral, ← product, Nat.mul_mod_left]
  rfl

/-- Magnitudes with a fraction have less than 53 bits before the point. -/
theorem Canonical.value_lt_of_not_isIntegral (canonical : binary.Canonical)
    (fraction : binary.isIntegral = false) : binary.value < 2 ^ 53 := by
  have negative : binary.exponent < 0 := by
    by_contra natural
    have one : binary.denominator = 1 := by
      rw [denominator, show (-binary.exponent).toNat = 0 by omega, Nat.pow_eq, pow_zero]
    rw [isIntegral, one, Nat.mod_one] at fraction
    exact absurd fraction (by decide)
  have bounded : (binary.significand : ℚ) < 2 ^ 53 := by exact_mod_cast canonical.bounded
  calc binary.value ≤ binary.significand * 1 := by
        unfold value
        gcongr
        exact zpow_le_one_of_nonpos₀ one_le_two negative.le
    _ < 2 ^ 53 := by rwa [mul_one]

end Binary

section Point

variable {binary : Binary} {numeral : Numeral} (canonical : binary.Canonical)
  (shortest : numeral.Shortest binary)
include canonical shortest

/-- A shortest numeral of a magnitude with a fraction has a fraction, and at most 16 digits before the point. -/
theorem fraction_of_not_isIntegral (fraction : binary.isIntegral = false) :
    numeral.exponent < 0 ∧ numeral.point ≤ 16 := by
  have less := canonical.value_lt_of_not_isIntegral fraction
  have small : numeral.value < 2 ^ 53 := by
    obtain ⟨bound, proper, _, value⟩ :=
      Binary.exists_canonical (show 2 ^ 52 < 2 ^ 53 by decide) (show (-1074 : ℤ) ≤ 1 by decide)
    have value : bound.value = 2 ^ 53 := by rw [value]; norm_num
    rw [← value] at less ⊢
    exact shortest.nearest.lt_of_lt proper less
  constructor
  · by_contra natural
    obtain ⟨power, natural⟩ := Int.eq_ofNat_of_zero_le (not_lt.mp natural)
    have integer : numeral.value = (numeral.digits * 10 ^ power : ℕ) := by
      rw [Numeral.value, natural, zpow_natCast]
      push_cast
      rfl
    rw [integer] at small
    have small : numeral.digits * 10 ^ power < 2 ^ 53 := by exact_mod_cast small
    obtain ⟨exact, proper, _, value⟩ := Binary.exists_canonical small (show (-1074 : ℤ) ≤ 0 by decide)
    rw [zpow_zero, mul_one, ← integer] at value
    have same := (value ▸ shortest.nearest).value_eq proper
    rw [value, integer] at same
    rw [Binary.isIntegral_of_value_eq same] at fraction
    cases fraction
  · have low := (numeral.value_bounds shortest.nonzero).1
    have below : (10 : ℚ) ^ (numeral.point - 1) < 10 ^ (16 : ℤ) := by
      refine low.trans_lt (small.trans ?_)
      norm_num
    rw [ten_zpow_lt_iff] at below
    omega

/-- A shortest numeral of an integer below 10^21 is an integer below 10^21. -/
theorem integer_of_isSmallInteger (nonzero : binary.significand ≠ 0)
    (grid : leadingPower binary - digitCount numeral.digits + 1 ≤ numeral.exponent)
    (small : binary.isSmallInteger = true) : 0 ≤ numeral.exponent ∧ numeral.point ≤ 21 := by
  simp only [Binary.isSmallInteger, Bool.and_eq_true, decide_eq_true_eq] at small
  obtain ⟨integral, below⟩ := small
  have positive := Binary.value_pos nonzero
  have value := Binary.value_eq_floor integral
  rw [value] at positive
  have some : 0 < binary.floor := by exact_mod_cast positive
  constructor
  · -- The integer itself is a numeral with as many digits as there are before the point.
    have itself : (⟨binary.floor, 0⟩ : Numeral).value = binary.value := by
      rw [value, Numeral.value, zpow_zero, mul_one]
    have fewer := shortest.least ⟨binary.floor, 0⟩ some.ne' (canonical.nearest (by
      rw [itself, sub_self, abs_zero, mul_zero, value]
      exact positive))
    have high := (leadingPower_bounds nonzero).2
    have one : (10 : ℚ) ^ (0 : ℤ) ≤ binary.value := by
      rw [zpow_zero, value]
      exact_mod_cast some
    have natural := ten_zpow_lt_iff.mp (one.trans_lt high)
    obtain ⟨power, leading⟩ := Int.eq_ofNat_of_zero_le natural.le
    rw [leading, zpow_natCast, value] at high
    have digits : digitCount binary.floor ≤ power :=
      (digitCount_le_iff (by omega)).mpr (by exact_mod_cast high)
    simp only at fewer
    omega
  · obtain ⟨bound, proper, _, ten⟩ :=
      Binary.exists_canonical (show 5 ^ 21 < 2 ^ 53 by decide) (show (-1074 : ℤ) ≤ 21 by decide)
    have ten : bound.value = 10 ^ 21 := by rw [ten]; norm_num
    have less := shortest.nearest.lt_of_lt proper (by
      rw [ten, value]
      exact_mod_cast below)
    have low := (numeral.value_bounds shortest.nonzero).1
    rw [ten] at less
    have bounded : (10 : ℚ) ^ (numeral.point - 1) < 10 ^ (21 : ℤ) := low.trans_lt (by exact_mod_cast less)
    rw [ten_zpow_lt_iff] at bounded
    omega

end Point

section Text

variable {number : Float} (finite : (Binary.ofFloat number).exponent ≤ 971)
  (nonzero : (Binary.ofFloat number).significand ≠ 0)
include finite nonzero

/-- The digits of a number are a shortest numeral of its magnitude. -/
theorem shortest_abs_facts :
    (shortest number.abs).Shortest (Binary.ofFloat number) ∧
    leadingPower (Binary.ofFloat number) - digitCount (shortest number.abs).digits + 1 ≤
      (shortest number.abs).exponent := by
  have magnitude := Binary.ofFloat_abs finite nonzero
  obtain ⟨facts, grid⟩ := shortest_facts (show (Binary.ofFloat number.abs).negative = false by rw [magnitude])
    (by rw [magnitude]; exact finite) (by rw [magnitude]; exact nonzero)
  rw [magnitude] at facts grid
  exact ⟨⟨facts.nonzero, ⟨facts.nearest.least, facts.nearest.even⟩,
    fun other some nearest => facts.least other some ⟨nearest.least, nearest.even⟩⟩, grid⟩

/-- A finite number is shown by its shortest decimal. -/
theorem floatText_of_finite :
    floatText number =
      signed (Binary.ofFloat number).negative (Style.plain.layout (shortest number.abs)) := by
  unfold floatText
  rw [Binary.isNaN_of_finite finite, Binary.isInf_of_finite finite]
  simp only [Bool.false_eq_true, if_false, beq_iff_eq, nonzero]
  rw [signed, String.ofList_append]
  cases (Binary.ofFloat number).negative <;> rfl

/-- A small integer is written as prescribed exactly if its shortest digits are exact. -/
theorem digitsOf_floor_eq_prescribed_iff (small : (Binary.ofFloat number).isSmallInteger = true) :
    digitsOf (Binary.ofFloat number).floor = (shortest number.abs).prescribed ↔
      (shortest number.abs).value = (Binary.ofFloat number).value := by
  obtain ⟨facts, grid⟩ := shortest_abs_facts finite nonzero
  obtain ⟨natural, bounded⟩ :=
    integer_of_isSmallInteger (Binary.canonical_ofFloat number) facts nonzero grid small
  generalize shortest number.abs = numeral at facts natural bounded ⊢
  obtain ⟨power, exponent⟩ := Int.eq_ofNat_of_zero_le natural
  have integral : (Binary.ofFloat number).isIntegral = true := (Bool.and_eq_true_iff.mp small).1
  have value : numeral.value = (numeral.digits * 10 ^ power : ℕ) := by
    rw [Numeral.value, exponent, zpow_natCast]
    push_cast
    rfl
  have layout : numeral.prescribed = digitsOf (numeral.digits * 10 ^ power) := by
    have length : ((digitsOf numeral.digits).length : ℤ) = numeral.point - power := by
      rw [length_digitsOf, Numeral.point]
      omega
    unfold Numeral.prescribed
    dsimp only
    rw [if_pos (by omega), digitsOf_mul_pow facts.nonzero,
      show (numeral.point - (digitsOf numeral.digits).length).toNat = power by omega]
  rw [layout, value, Binary.value_eq_floor integral, Nat.cast_inj]
  exact ⟨fun same => (digitsOf_injective same).symm, fun same => by rw [same]⟩

/-- All other numbers have a digit behind the point, or more than 21 before it. -/
theorem range_of_not_isSmallInteger (large : (Binary.ofFloat number).isSmallInteger = false) :
    (shortest number.abs).exponent < 0 ∧ (shortest number.abs).point ≤ 16 ∨
      22 ≤ (shortest number.abs).point := by
  obtain ⟨facts, grid⟩ := shortest_abs_facts finite nonzero
  obtain fraction | large := Bool.and_eq_false_iff.mp large
  · exact .inl (fraction_of_not_isIntegral (Binary.canonical_ofFloat number) facts fraction)
  · right
    have above : 10 ^ 21 ≤ (Binary.ofFloat number).floor := by simpa using large
    have reached : (10 : ℚ) ^ (21 : ℤ) ≤ (Binary.ofFloat number).value :=
      le_trans (by exact_mod_cast above) (Binary.ofFloat number).floor_le_value
    have leading := ten_zpow_lt_iff.mp (reached.trans_lt (leadingPower_bounds nonzero).2)
    rw [Numeral.point]
    omega

end Text

/-- How a finite number other than zero is written, in terms of a shortest numeral. -/
structure Numeral.Renders (numeral : Numeral) (number : Float) : Prop where
  prescribed : numberText number = signed (Binary.ofFloat number).negative numeral.prescribed ↔
    if (Binary.ofFloat number).isSmallInteger then numeral.value = (Binary.ofFloat number).value
    else ¬(-8 ≤ numeral.point ∧ numeral.point ≤ -4)
  integer : (Binary.ofFloat number).isSmallInteger = true →
    numberText number = signed (Binary.ofFloat number).negative (digitsOf (Binary.ofFloat number).floor)
  padded : (Binary.ofFloat number).isSmallInteger = false → -8 ≤ numeral.point ∧ numeral.point ≤ -4 →
    numberText number = signed (Binary.ofFloat number).negative
      (pointed (digitsOf numeral.digits) ++ 'e' :: '-' :: '0' :: digitsOf (1 - numeral.point).toNat)

/-- Every finite number other than zero is written with a shortest numeral. The text is the prescribed one
except for small integers, which are written exactly, and for points between 4 and 8 places before the first
digit, where an exponent of two digits is written. -/
theorem numberText_renders (number : Float) (finite : number.isFinite = true)
    (nonzero : (number == 0) = false) :
    ∃ numeral : Numeral, numeral.Shortest (Binary.ofFloat number) ∧ numeral.Renders number := by
  have finite := Binary.exponent_le_of_isFinite finite
  have nonzero := Binary.significand_ne_zero_of_finite finite nonzero
  have counts := Binary.isNaN_of_finite finite
  have bounded := Binary.isInf_of_finite finite
  obtain ⟨facts, grid⟩ := shortest_abs_facts finite nonzero
  refine ⟨shortest number.abs, facts, ?_⟩
  cases small : (Binary.ofFloat number).isSmallInteger with
  | true =>
      have text : numberText number =
          signed (Binary.ofFloat number).negative (digitsOf (Binary.ofFloat number).floor) := by
        rw [numberText_of_isSmallInteger counts bounded small,
          Binary.toString_integer (Bool.and_eq_true_iff.mp small).1 nonzero]
        rfl
      refine ⟨?_, fun _ => text, fun large => ?_⟩
      · rw [text, signed_inj, small, if_pos rfl]
        exact digitsOf_floor_eq_prescribed_iff finite nonzero small
      · rw [small] at large
        cases large
  | false =>
      have text : numberText number =
          signed (Binary.ofFloat number).negative (Style.plain.layout (shortest number.abs)) := by
        rw [numberText_of_not_isSmallInteger counts bounded small, floatText_of_finite finite nonzero]
      have range := range_of_not_isSmallInteger finite nonzero small
      refine ⟨?_, fun whole => ?_, fun _ between => ?_⟩
      · rw [text, signed_inj, small, if_neg (by decide)]
        exact ⟨fun same between => layout_ne_prescribed between same, layout_eq_prescribed range⟩
      · rw [small] at whole
        cases whole
      · rw [text, layout_of_between between]

/-- No layout has an exponent that begins with a zero. -/
theorem Numeral.prescribed_ne_padded (numeral : Numeral) :
    numeral.prescribed ≠ ['1', 'e', '-', '0', '7'] := by
  have plain : 'e' ∉ digitsOf numeral.digits := fun member =>
    absurd (Nat.isDigit_of_mem_toDigits (by decide) (by decide) member) (by decide)
  have some := digitsOf_ne_nil numeral.digits
  intro same
  unfold prescribed at same
  dsimp only at same
  generalize digitsOf numeral.digits = digits at plain some same
  split at same
  · have member : 'e' ∈ digits ++ zeros (numeral.point - digits.length).toNat := by
      rw [same]
      decide
    simp [plain, zeros] at member
  split at same
  · have member : '.' ∈ ['1', 'e', '-', '0', '7'] := by
      rw [← same]
      simp
    exact absurd member (by decide)
  split at same
  · simp at same
  · match digits with
    | [digit] =>
        have tail : digitsOf (numeral.point - 1).natAbs = ['0', '7'] := (List.cons.inj (List.cons.inj
          (List.cons.inj same).2).2).2
        have seven : (numeral.point - 1).natAbs = 7 := by
          rw [← Nat.ofDigitChars_ten_toDigits (n := (numeral.point - 1).natAbs), ← digitsOf, tail]
          decide
        rw [seven] at tail
        exact absurd tail (by decide)
    | _ :: _ :: _ => simp [pointed] at same

theorem numberText_renders_of_millionth :
    (-1e-6 : Float).isFinite = true ∧ ((-1e-6 : Float) == 0) = false ∧
    ∃ numeral : Numeral, numeral.Shortest (Binary.ofFloat (-1e-6)) ∧ numeral.Renders (-1e-6) :=
  ⟨by decide +kernel, by decide +kernel, numberText_renders (-1e-6) (by decide +kernel) (by decide +kernel)⟩

/-- An exponent of one digit is written with a zero, which is prescribed for no numeral. -/
theorem numberText_ne_prescribed :
    (1e-7 : Float).isFinite = true ∧ ((1e-7 : Float) == 0) = false ∧
    (Binary.ofFloat 1e-7).negative = false ∧ (⟨1, -7⟩ : Numeral).Shortest (Binary.ofFloat 1e-7) ∧
    (⟨1, -7⟩ : Numeral).prescribed = ['1', 'e', '-', '7'] ∧
    ∀ numeral : Numeral, numberText 1e-7 ≠ signed false numeral.prescribed := by
  refine ⟨by decide +kernel, by decide +kernel, by decide +kernel, ⟨by decide, ?_, ?_⟩, by decide +kernel, ?_⟩
  · refine (Numeral.readsBack_iff ?_ ?_ ?_).mp ?_
    all_goals decide +kernel
  · exact fun other _ _ => digitCount_pos other.digits
  · intro numeral
    rw [show numberText 1e-7 = signed false ['1', 'e', '-', '0', '7'] by decide +kernel, Ne, signed_inj]
    exact fun same => numeral.prescribed_ne_padded same.symm

end ScriptMachine.Decimal

/-
This file reads the texts of numbers back. Main statement: two numbers have one text exactly if they are
equal, or both of them are NaN.
-/

import ScriptMachine.Proofs.Formatting

namespace ScriptMachine.Decimal

open Float.Model

/-- Numbers that are equal, or that are both NaN. -/
def SameNumber (first second : Float) : Prop :=
  first.isNaN = true ∧ second.isNaN = true ∨ (first == second) = true

instance (first second : Float) : Decidable (SameNumber first second) :=
  inferInstanceAs (Decidable (_ ∨ _))

section Comparison

/-- Numbers are equal if they are the same, or both of them are zero. -/
theorem beq_unpacked_iff {first second : UnpackedFloat} :
    first.beq second = true ↔ first.isNaN = false ∧ (first = second ∨
      ∃ sign other, first = .zero sign ∧ second = .zero other) := by
  rcases first with ⟨_ | _⟩ | _ | ⟨_ | _⟩ | ⟨_ | _, mantissa, exponent, positive⟩ <;>
    rcases second with ⟨_ | _⟩ | _ | ⟨_ | _⟩ | ⟨_ | _, digits, power, above⟩ <;>
    simp [UnpackedFloat.beq, UnpackedFloat.compare, UnpackedFloat.isNaN, and_comm]
  -- What is left compares the sign of an infinite number with itself.
  all_goals rfl

/-- Numbers are the same up to the sign of zero. -/
theorem sameNumber_iff {first second : Float} :
    SameNumber first second ↔ first.toModel.unpack = second.toModel.unpack ∨
      ∃ sign other, first.toModel.unpack = .zero sign ∧ second.toModel.unpack = .zero other := by
  have unfolded : SameNumber first second ↔
      first.toModel.unpack.isNaN = true ∧ second.toModel.unpack.isNaN = true ∨
        first.toModel.unpack.beq second.toModel.unpack = true := Iff.rfl
  rw [unfolded, beq_unpacked_iff]
  cases first.toModel.unpack <;> cases second.toModel.unpack <;> simp [UnpackedFloat.isNaN]

end Comparison

/-- The digits behind the point. -/
def fractionOf (mantissa : List Char) : List Char := (mantissa.dropWhile (· != '.')).drop 1

/-- The power of ten that an exponent stands for, which begins with a mark and a sign. -/
def powerOf : List Char → ℤ
  | _ :: '-' :: digits => -(Nat.ofDigitChars 10 digits 0 : ℤ)
  | _ :: '+' :: digits => Nat.ofDigitChars 10 digits 0
  | _ => 0

/-- The numeral that a text of digits stands for, which may have a point and an exponent. -/
def Numeral.ofText (text : List Char) : Numeral :=
  let mantissa := text.takeWhile (· != 'e')
  ⟨Nat.ofDigitChars 10 (mantissa.filter (· != '.')) 0,
    powerOf (text.dropWhile (· != 'e')) - (fractionOf mantissa).length⟩

section Digits

theorem isDigit_of_mem_digitsOf {number : ℕ} {digit : Char} (member : digit ∈ digitsOf number) :
    digit.isDigit = true :=
  Nat.isDigit_of_mem_toDigits (by decide) (by decide) member

theorem isDigit_of_mem_zeros {count : ℕ} {digit : Char} (member : digit ∈ zeros count) :
    digit.isDigit = true := by
  rw [List.eq_of_mem_replicate member]
  rfl

/-- Reading the digits gives the number back. -/
theorem ofDigitChars_digitsOf (number : ℕ) : Nat.ofDigitChars 10 (digitsOf number) 0 = number :=
  Nat.ofDigitChars_ten_toDigits

/-- Zeros before a number do not change it. -/
theorem ofDigitChars_zeros (count : ℕ) (digits : List Char) :
    Nat.ofDigitChars 10 (zeros count ++ digits) 0 = Nat.ofDigitChars 10 digits 0 := by
  rw [Nat.ofDigitChars_append, zeros, Nat.ofDigitChars_replicate_zero, Nat.mul_zero]

theorem ne_of_isDigit {digit mark : Char} (isDigit : digit.isDigit = true) (isMark : mark.isDigit = false) :
    (digit != mark) = true := by
  rw [bne_iff_ne]
  rintro rfl
  rw [isDigit] at isMark
  cases isMark

variable {whole fraction : List Char} (counts : ∀ digit ∈ whole, digit.isDigit = true)
  (divides : ∀ digit ∈ fraction, digit.isDigit = true)
include counts

theorem filter_of_digits : whole.filter (· != '.') = whole :=
  List.filter_eq_self.mpr fun digit member => ne_of_isDigit (counts digit member) rfl

theorem fractionOf_of_digits : fractionOf whole = [] := by
  rw [fractionOf, List.dropWhile_eq_nil_iff.mpr fun digit member => ne_of_isDigit (counts digit member) rfl]
  rfl

theorem fractionOf_append : fractionOf (whole ++ '.' :: fraction) = fraction := by
  rw [fractionOf, List.dropWhile_append_of_pos fun digit member => ne_of_isDigit (counts digit member) rfl]
  rfl

/-- Digits alone are read as a whole number. -/
theorem Numeral.ofText_of_digits : ofText whole = ⟨Nat.ofDigitChars 10 whole 0, 0⟩ := by
  have mantissa : ∀ digit ∈ whole, (digit != 'e') = true := fun digit member =>
    ne_of_isDigit (counts digit member) rfl
  rw [ofText, List.takeWhile_eq_self_iff.mpr mantissa, List.dropWhile_eq_nil_iff.mpr mantissa,
    fractionOf_of_digits counts, filter_of_digits counts]
  rfl

include divides

/-- A point stands between the digits of a numeral. -/
theorem Numeral.ofText_pointed :
    ofText (whole ++ '.' :: fraction) =
      ⟨Nat.ofDigitChars 10 (whole ++ fraction) 0, -(fraction.length : ℤ)⟩ := by
  have mantissa : ∀ digit ∈ whole ++ '.' :: fraction, (digit != 'e') = true := by
    intro digit member
    obtain among | rfl | among := by simpa using member
    · exact ne_of_isDigit (counts digit among) rfl
    · rfl
    · exact ne_of_isDigit (divides digit among) rfl
  rw [ofText, List.takeWhile_eq_self_iff.mpr mantissa, List.dropWhile_eq_nil_iff.mpr mantissa,
    fractionOf_append counts, List.filter_append, filter_of_digits counts,
    List.filter_cons_of_neg (by decide), filter_of_digits divides]
  simp [powerOf]

end Digits

section Layout

variable {numeral : Numeral}

/-- The digits of a mantissa with an exponent, and its power. -/
theorem Numeral.ofText_scientific {digits exponent : List Char} (sign : Char)
    (counts : ∀ digit ∈ digits, digit.isDigit = true) :
    ofText (pointed digits ++ 'e' :: sign :: exponent) =
      ⟨Nat.ofDigitChars 10 digits 0, powerOf ('e' :: sign :: exponent) - (digits.length - 1 : ℕ)⟩ := by
  have first : ∀ digit ∈ digits.take 1, digit.isDigit = true := fun digit member =>
    counts digit (List.mem_of_mem_take member)
  have others : ∀ digit ∈ digits.drop 1, digit.isDigit = true := fun digit member =>
    counts digit (List.mem_of_mem_drop member)
  have mantissa : ∀ digit ∈ pointed digits, (digit != 'e') = true := by
    intro digit member
    unfold pointed at member
    obtain among | among := List.mem_append.mp member
    · exact ne_of_isDigit (first digit among) rfl
    · split at among
      · obtain rfl | among := List.mem_cons.mp among
        · rfl
        · exact ne_of_isDigit (others digit among) rfl
      · cases among
  have plain : (pointed digits).filter (· != '.') = digits := by
    unfold pointed
    split
    · rw [List.filter_append, filter_of_digits first, List.filter_cons_of_neg (by decide),
        filter_of_digits others, List.take_append_drop]
    · rw [List.append_nil, filter_of_digits first, List.take_of_length_le (by omega)]
  have fraction : (fractionOf (pointed digits)).length = digits.length - 1 := by
    unfold pointed
    split
    · rw [fractionOf_append first, List.length_drop]
    · rw [List.append_nil, fractionOf_of_digits first, List.length_nil]
      omega
  rw [ofText, List.takeWhile_append_of_pos mantissa, List.takeWhile_cons_of_neg (by decide),
    List.append_nil, List.dropWhile_append_of_pos mantissa, List.dropWhile_cons_of_neg (by decide), plain,
    fraction]

/-- The zeros before an exponent are read over. -/
theorem powerOf_eq (power : ℤ) (count : ℕ) :
    powerOf ('e' :: (if power < 0 then '-' else '+') :: (zeros count ++ digitsOf power.natAbs)) = power := by
  split
  · rw [powerOf, ofDigitChars_zeros, ofDigitChars_digitsOf]
    omega
  · rw [powerOf, ofDigitChars_zeros, ofDigitChars_digitsOf]
    omega

/-- A numeral can be read from its layout if it has a fraction, or is too large to be positional. -/
theorem Numeral.ofText_layout (range : numeral.exponent < 0 ∨ 17 ≤ numeral.point) :
    ofText (Style.plain.layout numeral) = numeral := by
  have counts : ∀ digit ∈ digitsOf numeral.digits, digit.isDigit = true := fun _ => isDigit_of_mem_digitsOf
  have length : ((digitsOf numeral.digits).length : ℤ) = numeral.point - numeral.exponent := by
    rw [length_digitsOf, Numeral.point]
    omega
  have some := digitCount_pos numeral.digits
  rw [← length_digitsOf] at some
  rw [layout_eq]
  split
  · unfold positional
    split
    · -- The point stands before all digits.
      have zeroes : ∀ digit ∈ ['0'], digit.isDigit = true := by simp
      have behind : ∀ digit ∈ zeros (-numeral.point).toNat ++ digitsOf numeral.digits,
          digit.isDigit = true := by
        intro digit member
        obtain among | among := List.mem_append.mp member
        · exact isDigit_of_mem_zeros among
        · exact counts digit among
      have read := ofText_pointed zeroes behind
      have shift : ['0'] ++ (zeros (-numeral.point).toNat ++ digitsOf numeral.digits) =
          zeros ((-numeral.point).toNat + 1) ++ digitsOf numeral.digits := rfl
      rw [shift, ofDigitChars_zeros, ofDigitChars_digitsOf, List.length_append, zeros,
        List.length_replicate] at read
      refine read.trans (congrArg (Numeral.mk _) ?_)
      push_cast
      omega
    split
    · -- The point stands between two digits.
      have before : ∀ digit ∈ (digitsOf numeral.digits).take numeral.point.toNat, digit.isDigit = true :=
        fun digit member => counts digit (List.mem_of_mem_take member)
      have behind : ∀ digit ∈ (digitsOf numeral.digits).drop numeral.point.toNat, digit.isDigit = true :=
        fun digit member => counts digit (List.mem_of_mem_drop member)
      have read := ofText_pointed before behind
      rw [List.take_append_drop, ofDigitChars_digitsOf, List.length_drop] at read
      refine read.trans (congrArg (Numeral.mk _) ?_)
      omega
    · omega
  · rw [scientific_eq, ofText_scientific _ counts, powerOf_eq, ofDigitChars_digitsOf]
    refine congrArg (Numeral.mk _) ?_
    omega

end Layout

section Beginning

theorem exists_digitsOf_eq (number : ℕ) :
    ∃ first rest, digitsOf number = first :: rest ∧ first.isDigit = true := by
  obtain ⟨first, rest, digits⟩ := List.exists_cons_of_ne_nil (digitsOf_ne_nil number)
  have member : first ∈ digitsOf number := by
    rw [digits]
    exact List.mem_cons_self
  exact ⟨first, rest, digits, isDigit_of_mem_digitsOf member⟩

/-- A layout begins with a digit. -/
theorem exists_layout_eq (numeral : Numeral) :
    ∃ first rest, Style.plain.layout numeral = first :: rest ∧ first.isDigit = true := by
  obtain ⟨first, rest, digits, isDigit⟩ := exists_digitsOf_eq numeral.digits
  simp only [layout_eq, digits]
  split
  · unfold positional
    split
    · exact ⟨'0', _, rfl, rfl⟩
    split
    · obtain ⟨before, position⟩ := Nat.exists_eq_succ_of_ne_zero (show numeral.point.toNat ≠ 0 by omega)
      rw [position]
      exact ⟨first, _, rfl, isDigit⟩
    · exact ⟨first, _, rfl, isDigit⟩
  · cases rest <;> exact ⟨first, _, rfl, isDigit⟩

end Beginning

/-- The numeral that a text stands for, unless it is a word. -/
def Numeral.ofText? : List Char → Option Numeral
  | 'I' :: _ => none
  | text => some (.ofText text)

/-- The sign and the numeral that the text of a number shows: neither of them if it is NaN, and no numeral if
it is infinite. -/
def reading : List Char → Option (Bool × Option Numeral)
  | 'N' :: _ => none
  | '-' :: text => some (true, Numeral.ofText? text)
  | text => some (false, Numeral.ofText? text)

/-- A signed numeral is read back with its sign. -/
theorem reading_signed {first : Char} (isDigit : first.isDigit = true) (negative : Bool) (rest : List Char) :
    reading (signed negative (first :: rest)).toList = some (negative, some (.ofText (first :: rest))) := by
  have isNumber : first ≠ 'N' := bne_iff_ne.mp (ne_of_isDigit isDigit rfl)
  have isPositive : first ≠ '-' := bne_iff_ne.mp (ne_of_isDigit isDigit rfl)
  have isFinite : first ≠ 'I' := bne_iff_ne.mp (ne_of_isDigit isDigit rfl)
  cases negative <;> simp [signed, reading, Numeral.ofText?, isNumber, isPositive, isFinite]

section Finite

variable {number : Float} (finite : number.isFinite = true)
  (nonzero : (Binary.ofFloat number).significand ≠ 0)
include finite nonzero

/-- The text of a finite number other than zero shows its sign, and a numeral that reads back as it. -/
theorem exists_numberText_eq :
    ∃ first rest, numberText number = signed (Binary.ofFloat number).negative (first :: rest) ∧
      first.isDigit = true ∧ (Binary.ofFloat number).Nearest (Numeral.ofText (first :: rest)).value := by
  have fits := Binary.exponent_le_of_isFinite finite
  have counts := Binary.isNaN_of_finite fits
  have bounded := Binary.isInf_of_finite fits
  cases small : (Binary.ofFloat number).isSmallInteger with
  | true =>
      obtain ⟨first, rest, digits, isDigit⟩ := exists_digitsOf_eq (Binary.ofFloat number).floor
      have integral := (Bool.and_eq_true_iff.mp small).1
      refine ⟨first, rest, ?_, isDigit, (Binary.canonical_ofFloat number).nearest ?_⟩
      · rw [numberText_of_isSmallInteger counts bounded small, Binary.toString_integer integral nonzero, digits]
        rfl
      · have exact : (Numeral.mk (Binary.ofFloat number).floor 0).value = (Binary.ofFloat number).value := by
          rw [Binary.value_eq_floor integral, Numeral.value, zpow_zero, mul_one]
        rw [← digits, Numeral.ofText_of_digits fun _ => isDigit_of_mem_digitsOf, ofDigitChars_digitsOf, exact,
          sub_self, abs_zero, mul_zero]
        exact Binary.value_pos nonzero
  | false =>
      obtain ⟨first, rest, digits, isDigit⟩ := exists_layout_eq (shortest number.abs)
      refine ⟨first, rest, ?_, isDigit, ?_⟩
      · rw [numberText_of_not_isSmallInteger counts bounded small, floatText_of_finite fits nonzero, digits]
      · rw [← digits, Numeral.ofText_layout ((range_of_not_isSmallInteger fits nonzero small).imp And.left
          (by omega))]
        exact (shortest_abs_facts fits nonzero).1.nearest

end Finite

/-- What a number unpacks to, and what is read from its text. Zero has no sign. -/
inductive Shows (number : Float) : UnpackedFloat → Option (Bool × Option Numeral) → Prop where
  | none (text : numberText number = "NaN") : Shows number .notANumber none
  | infinite {sign : UnpackedFloat.Sign} {negative : Bool} (isSign : sign = signOf negative)
      (text : numberText number = signed negative ['I', 'n', 'f', 'i', 'n', 'i', 't', 'y']) :
      Shows number (.infinity sign) (some (negative, none))
  | zero {sign : UnpackedFloat.Sign} (text : numberText number = "0") :
      Shows number (.zero sign) (some (false, some ⟨0, 0⟩))
  | finite {sign : UnpackedFloat.Sign} {negative : Bool} {significand : ℕ} {exponent : ℤ}
      {positive : 0 < significand} {numeral : Numeral} (isSign : sign = signOf negative)
      (parts : Binary.ofFloat number = ⟨negative, significand, exponent⟩)
      (nearest : (Binary.ofFloat number).Nearest numeral.value) :
      Shows number (.finite sign significand exponent positive) (some (negative, some numeral))

section Sameness

variable {first second number : Float}

/-- A finite number's text is read back as it. -/
theorem shows_of_isFinite (finite : number.isFinite = true) :
    Shows number number.toModel.unpack (reading (numberText number).toList) := by
  have fits := Binary.exponent_le_of_isFinite finite
  rw [Binary.unpack_of_finite fits]
  split
  · rename_i zero
    have text : numberText number = "0" := by
      unfold numberText
      simp only [Binary.isNaN_of_finite fits, Binary.isInf_of_finite fits, zero, Bool.false_eq_true, if_false,
        beq_self_eq_true, if_true]
    rw [text]
    exact .zero text
  · rename_i nonzero
    obtain ⟨first, rest, text, isDigit, nearest⟩ := exists_numberText_eq finite nonzero
    rw [text, reading_signed isDigit]
    exact .finite rfl rfl nearest

/-- The text of a number shows what it unpacks to. -/
theorem shows (number : Float) :
    Shows number number.toModel.unpack (reading (numberText number).toList) := by
  cases unpacked : number.toModel.unpack with
  | notANumber =>
      have counts : number.isNaN = true := congrArg UnpackedFloat.isNaN unpacked
      have text : numberText number = "NaN" := by rw [numberText, if_pos counts]
      rw [text]
      exact .none text
  | infinity sign =>
      have counts : number.isNaN = false := congrArg UnpackedFloat.isNaN unpacked
      have bounded : number.isInf = true := congrArg UnpackedFloat.isInf unpacked
      have compared : 0 < number ↔ (0 : Float).toModel.unpack.lt number.toModel.unpack = true :=
        decide_eq_true_iff
      have text : numberText number =
          if (0 : Float).toModel.unpack.lt (.infinity sign) = true then "Infinity" else "-Infinity" := by
        unfold numberText
        simp only [counts, bounded, compared, unpacked, Bool.false_eq_true, if_false, if_true]
      rw [text]
      cases sign with
      | negative => exact .infinite rfl text
      | positive => exact .infinite rfl text
  | zero | finite =>
      rw [← unpacked]
      exact shows_of_isFinite (congrArg UnpackedFloat.isFinite unpacked)

/-- The significand, exponent and sign determine the number. -/
theorem eq_of_ofFloat_eq (same : Binary.ofFloat first = Binary.ofFloat second) : first = second := by
  have bits := Binary.toBits_eq_of_ofFloat_eq same
  obtain ⟨⟨bitsOfFirst, valid⟩⟩ := first
  obtain ⟨⟨bitsOfSecond, validAgain⟩⟩ := second
  cases (show bitsOfFirst = bitsOfSecond from bits)
  rfl

theorem signOf_inj {negative other : Bool} (same : signOf negative = signOf other) : negative = other := by
  cases negative with
  | false =>
      cases other with
      | false => rfl
      | true => cases same
  | true =>
      cases other with
      | false => cases same
      | true => rfl

/-- A numeral that reads back as a number other than zero is not zero. -/
theorem not_nearest_zero {binary : Binary} (nonzero : binary.significand ≠ 0) :
    ¬binary.Nearest (Numeral.mk 0 0).value := by
  intro nearest
  have canonical : (Binary.mk false 0 (-1074)).Canonical := ⟨by decide, by decide, .inr rfl⟩
  have zero : (Binary.mk false 0 (-1074)).value = (Numeral.mk 0 0).value := by
    simp [Binary.value, Numeral.value]
  rw [← zero] at nearest
  have positive := Binary.value_pos nonzero
  rw [nearest.value_eq canonical, zero] at positive
  simp [Numeral.value] at positive

/-- From the text of a number can be read which number it is. -/
theorem sameNumber_of_numberText_eq (same : numberText first = numberText second) :
    SameNumber first second := by
  have shown := shows first
  have shownAgain := shows second
  rw [← same] at shownAgain
  rw [sameNumber_iff]
  generalize first.toModel.unpack = unpacked, reading (numberText first).toList = read at shown shownAgain ⊢
  generalize second.toModel.unpack = unpackedAgain at shownAgain ⊢
  cases shown with
  | none =>
      cases shownAgain
      exact .inl rfl
  | infinite isSign =>
      cases shownAgain with
      | infinite isSignAgain => exact .inl (by rw [isSign, isSignAgain])
  | zero =>
      cases shownAgain with
      | zero => exact .inr ⟨_, _, rfl, rfl⟩
      | @finite _ _ _ _ positive _ _ parts nearest =>
          rw [parts] at nearest
          exact absurd nearest (not_nearest_zero positive.ne')
  | @finite _ _ _ _ positive _ isSign parts nearest =>
      rw [parts] at nearest
      cases shownAgain with
      | zero => exact absurd nearest (not_nearest_zero positive.ne')
      | finite isSignAgain partsAgain nearestAgain =>
          have canonical := Binary.canonical_ofFloat first
          have canonicalAgain := Binary.canonical_ofFloat second
          rw [parts] at canonical
          rw [partsAgain] at canonicalAgain nearestAgain
          obtain ⟨rfl, rfl⟩ := nearestAgain.unique nearest canonicalAgain canonical
          exact .inl (by rw [isSign, isSignAgain])

/-- Two numbers have one text exactly if they are the same number. -/
theorem numberText_eq_iff (first second : Float) :
    numberText first = numberText second ↔ SameNumber first second := by
  refine ⟨sameNumber_of_numberText_eq, fun same => ?_⟩
  have shown := shows first
  have shownAgain := shows second
  obtain same | ⟨sign, other, zero, zeroAgain⟩ := sameNumber_iff.mp same
  · rw [← same] at shownAgain
    generalize first.toModel.unpack = unpacked at shown shownAgain
    generalize reading (numberText first).toList = read at shown
    generalize reading (numberText second).toList = readAgain at shownAgain
    cases shown with
    | none text =>
        cases shownAgain with
        | none textAgain => rw [text, textAgain]
    | infinite isSign text =>
        cases shownAgain with
        | infinite isSignAgain textAgain => rw [text, textAgain, signOf_inj (isSign.symm.trans isSignAgain)]
    | zero text =>
        cases shownAgain with
        | zero textAgain => rw [text, textAgain]
    | finite isSign parts =>
        cases shownAgain with
        | finite isSignAgain partsAgain =>
            rw [signOf_inj (isSign.symm.trans isSignAgain), ← partsAgain] at parts
            rw [eq_of_ofFloat_eq parts]
  · rw [zero] at shown
    rw [zeroAgain] at shownAgain
    generalize reading (numberText first).toList = read at shown
    generalize reading (numberText second).toList = readAgain at shownAgain
    cases shown with
    | zero text =>
        cases shownAgain with
        | zero textAgain => rw [text, textAgain]

end Sameness

end ScriptMachine.Decimal

/-
This file compares the two texts of a number: the one that it is shown with in a tree, and the one that its
value converts to. Main statement: the texts of a literal key agree exactly if it is a text, an integer below
10^21 that is a double itself, or a double that is no integer below 10^21.
-/

import ScriptMachine.Value.Conversion
import Std.Data.String.ToInt

namespace ScriptMachine

namespace Decimal

/-- The integer part, with its sign. -/
def Binary.integer (binary : Binary) : Int :=
  if binary.negative then -binary.floor else binary.floor

/-- These are the numbers that are written without a point and an exponent. -/
def Binary.isSmallInteger (binary : Binary) : Bool :=
  binary.isIntegral && decide (binary.floor < Nat.pow 10 21)

variable {binary : Binary} {character : Char}

theorem Binary.integer_of_significand (zero : binary.significand = 0) : binary.integer = 0 := by
  simp [integer, floor, numerator, zero]

/-- An integer other than zero is written with its sign and its digits. -/
theorem Binary.toString_integer (integral : binary.isIntegral = true) (nonzero : binary.significand ≠ 0) :
    toString binary.integer =
      String.ofList ((if binary.negative then ['-'] else []) ++ digitsOf binary.floor) := by
  have positive : binary.floor ≠ 0 := by
    intro none
    have product := floor_mul_denominator integral
    rw [none, Nat.zero_mul] at product
    exact absurd product.symm (Nat.mul_ne_zero nonzero (Nat.ne_of_gt (Nat.two_pow_pos _)))
  obtain ⟨less, floor⟩ := Nat.exists_eq_succ_of_ne_zero positive
  refine String.toList_injective ?_
  rw [String.toList_ofList, digitsOf, ← Nat.toList_repr, integer, floor]
  cases binary.negative with
  | false => rfl
  | true => exact String.toList_append

/-- Whether a character is a point or begins an exponent. -/
def isMark (character : Char) : Bool := character == '.' || character == 'e'

theorem not_isMark_of_isDigit (digit : character.isDigit = true) : isMark character = false := by
  unfold isMark
  rw [Bool.or_eq_false_iff, beq_eq_false_iff_ne, beq_eq_false_iff_ne]
  constructor <;> (rintro rfl; revert digit; decide)

theorem not_isMark_of_mem_repr {number : Nat} (member : character ∈ number.repr.toList) :
    isMark character = false := by
  rw [Nat.toList_repr] at member
  exact not_isMark_of_isDigit (Nat.isDigit_of_mem_toDigits (by decide) (by decide) member)

theorem not_isMark_of_mem_toString {number : Int} (member : character ∈ (toString number).toList) :
    isMark character = false := by
  cases number with
  | ofNat number => exact not_isMark_of_mem_repr member
  | negSucc number =>
      have split : (toString (Int.negSucc number)).toList = '-' :: number.succ.repr.toList :=
        String.toList_append
      rw [split, List.mem_cons] at member
      obtain rfl | member := member
      · rfl
      · exact not_isMark_of_mem_repr member

/-- Every layout has a mark. -/
theorem exists_mark_of_layout (style : Style) (numeral : Numeral) :
    ∃ character ∈ style.layout numeral, isMark character = true := by
  unfold Style.layout
  dsimp only
  split
  · refine ⟨'.', ?_, rfl⟩
    unfold positional
    split
    · simp
    · split <;> simp
  · refine ⟨'e', ?_, rfl⟩
    simp [scientific]

section

variable {number : Float} (counts : number.isNaN = false) (bounded : number.isInf = false)
include counts bounded

/-- A finite double is never shown like an integer. -/
theorem floatText_ne_toString (integer : Int) : floatText number ≠ toString integer := by
  have marked : ∃ character ∈ (floatText number).toList, isMark character = true := by
    unfold floatText
    rw [counts, bounded]
    simp only [Bool.false_eq_true, if_false]
    split
    · exact ⟨'.', by simp, rfl⟩
    · obtain ⟨character, member, mark⟩ := exists_mark_of_layout Style.plain (shortest number.abs)
      exact ⟨character, by simp [member], mark⟩
  intro same
  obtain ⟨character, member, mark⟩ := marked
  rw [same] at member
  rw [not_isMark_of_mem_toString member] at mark
  cases mark

/-- A small integer converts to its digits. -/
theorem numberText_of_isSmallInteger (small : (Binary.ofFloat number).isSmallInteger = true) :
    numberText number = toString (Binary.ofFloat number).integer := by
  unfold numberText
  rw [counts, bounded]
  generalize Binary.ofFloat number = binary at small ⊢
  simp only [Binary.isSmallInteger, Bool.and_eq_true, decide_eq_true_eq] at small
  simp only [Bool.false_eq_true, if_false, small.1, small.2, decide_true, Bool.and_self, if_true]
  split
  · rename_i zero
    rw [Binary.integer_of_significand (eq_of_beq zero)]
    rfl
  · rename_i nonzero
    exact (Binary.toString_integer small.1 (by simpa using nonzero)).symm

/-- All other finite numbers convert to the text that they are shown with. -/
theorem numberText_of_not_isSmallInteger (large : (Binary.ofFloat number).isSmallInteger = false) :
    numberText number = floatText number := by
  have nonzero : ((Binary.ofFloat number).significand == 0) = false := by
    rw [beq_eq_false_iff_ne]
    intro zero
    simp [Binary.isSmallInteger, Binary.isIntegral, Binary.floor, Binary.numerator, zero] at large
  unfold numberText
  rw [counts, bounded]
  unfold Binary.isSmallInteger at large
  simp only [Bool.false_eq_true, if_false, nonzero, large]

end

end Decimal

/-- The double that a numeric key stands for. -/
def Tree.numeric? : Tree → Option Float
  | .int value => (numberOfInt value).toOption
  | .float value => some value
  | _ => none

/-- The keys of object literals: texts, and numbers that are finite. -/
def Tree.isKey : Tree → Bool
  | .text _ => true
  | key => key.numeric?.any fun number => !number.isNaN && !number.isInf

/-- The text that a member access with a literal key looks for. -/
def Tree.sought (key : Tree) : Except Fault String := do
  (← (← key.literal).toPrimitive).toText

/-- An integer is shown as it is converted if it is small and a double itself, a double if it is no small
integer. -/
def Tree.isFaithful (key : Tree) : Bool :=
  match key, key.numeric? with
  | .int value, some number =>
      (Decimal.Binary.ofFloat number).isSmallInteger && (Decimal.Binary.ofFloat number).integer == value
  | .float number, _ => !(Decimal.Binary.ofFloat number).isSmallInteger
  | _, _ => true

variable {key : Tree}

/-- What is known of a key. -/
theorem Tree.cases_of_isKey (valid : key.isKey = true) :
    (∃ value, key = .text value) ∨
    (∃ value number, key = .int value ∧ numberOfInt value = .ok number ∧
      number.isNaN = false ∧ number.isInf = false) ∨
    ∃ number, key = .float number ∧ number.isNaN = false ∧ number.isInf = false := by
  cases key with
  | text value => exact .inl ⟨value, rfl⟩
  | int value =>
      simp only [isKey, numeric?] at valid
      cases rounded : numberOfInt value with
      | error fault =>
          rw [rounded] at valid
          cases valid
      | ok number =>
          rw [rounded] at valid
          exact .inr (.inl ⟨value, number, rfl, rounded, by simpa [Except.toOption] using valid⟩)
  | float number => exact .inr (.inr ⟨number, rfl, by simpa [isKey, numeric?] using valid⟩)
  | null => cases valid
  | bool _ => cases valid
  | list _ => cases valid
  | record _ _ => cases valid

/-- An integer key is sought by its number's text. -/
theorem Tree.sought_int {value : Int} {number : Float} (rounded : numberOfInt value = .ok number) :
    (Tree.int value).sought = .ok (Decimal.numberText number) := by
  rw [sought, literal, rounded]
  rfl

/-- Every key can be looked for. -/
theorem Tree.exists_sought (valid : key.isKey = true) : ∃ text, key.sought = .ok text := by
  obtain ⟨value, rfl⟩ | ⟨value, number, rfl, rounded, _⟩ | ⟨number, rfl, _⟩ := cases_of_isKey valid
  · exact ⟨value, rfl⟩
  · exact ⟨_, sought_int rounded⟩
  · exact ⟨Decimal.numberText number, rfl⟩

/-- A key of an object literal has the text that a member access looks for exactly if it is faithful. -/
theorem Tree.sought_eq_shown_iff (valid : key.isKey = true) :
    key.sought = .ok key.shown ↔ key.isFaithful = true := by
  obtain ⟨value, rfl⟩ | ⟨value, number, rfl, rounded, counts, bounded⟩ | ⟨number, rfl, counts, bounded⟩ :=
    cases_of_isKey valid
  · exact ⟨fun _ => rfl, fun _ => rfl⟩
  · have faithful : (Tree.int value).isFaithful =
        ((Decimal.Binary.ofFloat number).isSmallInteger &&
          (Decimal.Binary.ofFloat number).integer == value) := by
      simp only [isFaithful, numeric?, rounded, Except.toOption]
    rw [sought_int rounded, Except.ok.injEq, faithful]
    show Decimal.numberText number = toString value ↔ _
    cases small : (Decimal.Binary.ofFloat number).isSmallInteger with
    | true =>
        rw [Decimal.numberText_of_isSmallInteger counts bounded small]
        exact Int.repr_inj.trans (by simp)
    | false =>
        rw [Decimal.numberText_of_not_isSmallInteger counts bounded small]
        exact ⟨fun same => absurd same (Decimal.floatText_ne_toString counts bounded value),
          fun impossible => by cases impossible⟩
  · show Except.ok (Decimal.numberText number) = .ok (Decimal.floatText number) ↔ _
    rw [Except.ok.injEq, isFaithful]
    cases small : (Decimal.Binary.ofFloat number).isSmallInteger with
    | true =>
        rw [Decimal.numberText_of_isSmallInteger counts bounded small]
        exact ⟨fun same => absurd same.symm (Decimal.floatText_ne_toString counts bounded _),
          fun impossible => by cases impossible⟩
    | false =>
        rw [Decimal.numberText_of_not_isSmallInteger counts bounded small]
        exact ⟨fun _ => rfl, fun _ => rfl⟩

end ScriptMachine

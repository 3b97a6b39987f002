/-
This file orders values. Main statement: texts are ordered by their code points, and the four relational
operators agree on every two values, which they compare all or none.
-/

import ScriptMachine.Proofs.Refusal
import Mathlib.Data.String.Basic

namespace ScriptMachine

/-- A text precedes another one that goes on where it ends, or that differs from it first in a greater code
point. -/
def Text.Precedes (left right : String) : Prop :=
  (∃ character rest, right.toList = left.toList ++ character :: rest) ∨
    ∃ shared first second lefts rights, left.toList = shared ++ first :: lefts ∧
      right.toList = shared ++ second :: rights ∧ first.toNat < second.toNat

namespace Text

/-- Lists of characters are in lexicographic order exactly if one goes on where the other ends, or if the
first characters that differ are in order. -/
theorem lt_iff_exists {left right : List Char} :
    left < right ↔ (∃ character rest, right = left ++ character :: rest) ∨
      ∃ shared first second lefts rights, left = shared ++ first :: lefts ∧
        right = shared ++ second :: rights ∧ first.toNat < second.toNat := by
  induction left generalizing right with
  | nil =>
      cases right with
      | nil => simp
      | cons character rest => simp
  | cons first lefts ih =>
      cases right with
      | nil => simp
      | cons second rights =>
          rw [List.cons_lt_cons_iff, ih]
          constructor
          · rintro (less | ⟨rfl, ⟨character, rest, rfl⟩ | ⟨shared, left, right, rest, others, rfl, rfl, less⟩⟩)
            · exact .inr ⟨[], first, second, lefts, rights, rfl, rfl, less⟩
            · exact .inl ⟨character, rest, rfl⟩
            · exact .inr ⟨first :: shared, left, right, rest, others, rfl, rfl, less⟩
          · rintro (⟨character, rest, same⟩ | ⟨shared, left, right, rest, others, same, again, less⟩)
            · cases same
              exact .inr ⟨rfl, .inl ⟨character, rest, rfl⟩⟩
            · cases shared with
              | nil =>
                  cases same
                  cases again
                  exact .inl less
              | cons head shared =>
                  cases same
                  cases again
                  exact .inr ⟨rfl, .inr ⟨shared, left, right, rest, others, rfl, rfl, less⟩⟩

/-- The order by characters is that of texts. -/
theorem precedes_iff_lt {left right : String} : Precedes left right ↔ left < right :=
  lt_iff_exists.symm.trans String.lt_iff_toList_lt.symm

end Text

namespace Value

/-- Where neither text begins with the other one, there are code points that differ. -/
theorem firstDifference?_eq {left right : List Char} (notAfter : ¬right <+: left) (notBefore : ¬left <+: right) :
    firstDifference? left right = some (decide (left < right)) := by
  induction left generalizing right with
  | nil => exact absurd List.nil_prefix notBefore
  | cons first lefts ih =>
      cases right with
      | nil => exact absurd List.nil_prefix notAfter
      | cons second rights =>
          unfold firstDifference?
          by_cases same : first = second
          · subst same
            rw [List.prefix_cons_inj] at notAfter notBefore
            rw [if_pos rfl, ih notAfter notBefore]
            simp
          · rw [if_neg same, Option.some.injEq, decide_eq_decide, List.cons_lt_cons_iff]
            exact ⟨.inl, fun less => less.resolve_right fun both => same both.1⟩

/-- The code points of two texts always decide. -/
theorem textLess?_eq (left right : String) : textLess? left right = some (decide (left < right)) := by
  unfold textLess?
  simp only [List.isPrefixOf_iff_prefix]
  by_cases after : right.toList <+: left.toList
  · have notLess : ¬left < right := by
      rw [String.lt_iff_toList_lt]
      exact List.not_lt.mpr (List.IsPrefix.le after)
    rw [if_pos after, decide_eq_false notLess]
  · rw [if_neg after]
    by_cases before : left.toList <+: right.toList
    · have less : left < right := by
        obtain ⟨rest, joined⟩ := before
        rw [String.lt_iff_toList_lt, ← joined]
        cases rest with
        | nil => exact absurd ⟨[], by simpa using joined.symm⟩ after
        | cons character rest => exact Text.lt_iff_exists.mpr (.inl ⟨character, rest, rfl⟩)
      rw [if_pos before, decide_eq_true less]
    · rw [if_neg before, firstDifference?_eq after before, Option.some.injEq, decide_eq_decide,
        String.lt_iff_toList_lt]

variable {left right value : Value}

/-- Primitives are compared as they are, whichever side is converted first. -/
theorem less?_primitives (isLeft : left.toPrimitive = .ok left) (isRight : right.toPrimitive = .ok right)
    (leftFirst : Bool) : left.less? right leftFirst = left.primitiveLess? right := by
  unfold less?
  rw [isLeft, isRight]
  cases leftFirst <;> rfl

theorem less?_texts (left right : String) (leftFirst : Bool) :
    less? (.string left) (.string right) leftFirst = .ok (some (decide (left < right))) := by
  rw [less?_primitives rfl rfl]
  unfold primitiveLess?
  dsimp only
  rw [textLess?_eq]

/-- A value that converts to something that is not a number. -/
def IsUnordered (value : Value) : Prop := ∃ number, value.toNumber = .ok number ∧ number.isNaN = true

/-- Two values are comparable if they are texts or if both convert to numbers. -/
def Comparable (left right : Value) : Prop :=
  (∃ leftText rightText, left = .string leftText ∧ right = .string rightText) ∨
    ∃ leftNumber rightNumber, left.toNumber = .ok leftNumber ∧ right.toNumber = .ok rightNumber

theorem Comparable.symm (comparable : left.Comparable right) : right.Comparable left := by
  rcases comparable with ⟨leftText, rightText, rfl, rfl⟩ | ⟨leftNumber, rightNumber, isLeft, isRight⟩
  · exact .inl ⟨rightText, leftText, rfl, rfl⟩
  · exact .inr ⟨rightNumber, leftNumber, isRight, isLeft⟩

theorem not_isUnordered_string (text : String) : ¬(Value.string text).IsUnordered := by
  rintro ⟨number, impossible, -⟩
  cases impossible

/-- A value is unordered exactly when its number is not one. -/
theorem isUnordered_iff {number : Float} (isNumber : value.toNumber = .ok number) :
    value.IsUnordered ↔ number.isNaN = true := by
  constructor
  · rintro ⟨other, same, unordered⟩
    cases isNumber.symm.trans same
    exact unordered
  · exact fun unordered => ⟨number, isNumber, unordered⟩

/-- What converts to a number is a primitive other than a text. -/
theorem primitive_of_toNumber {number : Float} (isNumber : value.toNumber = .ok number) :
    value.toPrimitive = .ok value ∧ ∀ text, value ≠ .string text := by
  cases value with
  | undefined | null | boolean _ | number _ => exact ⟨rfl, nofun⟩
  | _ => cases isNumber

/-- Values that convert to numbers are compared as these. -/
theorem less?_numbers {leftNumber rightNumber : Float} (isLeft : left.toNumber = .ok leftNumber)
    (isRight : right.toNumber = .ok rightNumber) (leftFirst : Bool) :
    left.less? right leftFirst = .ok (if leftNumber.isNaN || rightNumber.isNaN then none
      else some (decide (leftNumber < rightNumber))) := by
  obtain ⟨primitive, notText⟩ := primitive_of_toNumber isLeft
  rw [less?_primitives primitive (primitive_of_toNumber isRight).1]
  have numbers : left.primitiveLess? right = left.numberLess? right := by
    unfold primitiveLess?
    split
    · exact absurd rfl (notText _)
    · rfl
  rw [numbers]
  unfold numberLess?
  rw [isLeft, isRight]
  dsimp only [bind, Except.bind]
  split <;> rfl

/-- What compares as numbers is comparable. -/
theorem comparable_of_numberLess? {answer : Option Bool} (answered : left.numberLess? right = .ok answer) :
    left.Comparable right := by
  unfold numberLess? at answered
  cases isLeft : left.toNumber with
  | error fault =>
      rw [isLeft] at answered
      cases answered
  | ok leftNumber =>
      cases isRight : right.toNumber with
      | error fault =>
          rw [isLeft, isRight] at answered
          cases answered
      | ok rightNumber => exact .inr ⟨leftNumber, rightNumber, isLeft, isRight⟩

theorem toPrimitive_eq {primitive : Value} (converted : value.toPrimitive = .ok primitive) :
    primitive = value := by
  cases value <;> cases converted <;> rfl

/-- Only comparable values have an answer. -/
theorem comparable_of_less? {leftFirst : Bool} {answer : Option Bool}
    (answered : left.less? right leftFirst = .ok answer) : left.Comparable right := by
  have primitives : left.toPrimitive = .ok left ∧ right.toPrimitive = .ok right := by
    unfold less? at answered
    cases isLeft : left.toPrimitive with
    | error fault =>
        rw [isLeft] at answered
        cases leftFirst with
        | true => cases answered
        | false => cases isRight : right.toPrimitive <;> rw [isRight] at answered <;> cases answered
    | ok leftPrimitive =>
        cases isRight : right.toPrimitive with
        | error fault =>
            rw [isLeft, isRight] at answered
            cases leftFirst <;> cases answered
        | ok rightPrimitive => exact ⟨by rw [toPrimitive_eq isLeft], by rw [toPrimitive_eq isRight]⟩
  rw [less?_primitives primitives.1 primitives.2] at answered
  unfold primitiveLess? at answered
  split at answered
  · exact .inl ⟨_, _, rfl, rfl⟩
  · exact comparable_of_numberLess? answered

/-- Values that are not comparable are refused, whichever side is converted first. -/
theorem less?_refused (incomparable : ¬left.Comparable right) (leftFirst : Bool) :
    ∃ cause, left.less? right leftFirst = .error (.unsupported cause) := by
  have orderly := Value.less_orderly left right leftFirst
  cases answered : left.less? right leftFirst with
  | ok answer => exact absurd (comparable_of_less? answered) incomparable
  | error fault =>
      rw [answered] at orderly
      obtain ⟨cause, rfl⟩ := orderly
      exact ⟨cause, rfl⟩

/-- Comparable values have an answer whichever side is converted first, and it is missing exactly if a side
is unordered. -/
theorem Comparable.exists_answer (comparable : left.Comparable right) :
    ∃ answer, (∀ leftFirst, left.less? right leftFirst = .ok answer) ∧
      (answer = none ↔ left.IsUnordered ∨ right.IsUnordered) := by
  rcases comparable with ⟨leftText, rightText, rfl, rfl⟩ | ⟨leftNumber, rightNumber, isLeft, isRight⟩
  · refine ⟨_, less?_texts leftText rightText, ?_⟩
    simp [not_isUnordered_string]
  · refine ⟨_, less?_numbers isLeft isRight, ?_⟩
    rw [isUnordered_iff isLeft, isUnordered_iff isRight]
    cases leftNumber.isNaN <;> simp

end Value

namespace BinaryOperator

/-- A relational operator refuses two values. -/
def Refuses (operator : BinaryOperator) (left right : Value) : Prop :=
  ∃ cause, operator.apply left right = .error (.unsupported cause)

/-- A relational operator answers with a truth value. -/
def Answers (operator : BinaryOperator) (left right : Value) (truth : Bool) : Prop :=
  operator.apply left right = .ok (.boolean truth)

/-- A refused comparison is a refused operator. -/
theorem refuses_ordering {holds : Bool → Bool} {answer : Except Fault (Option Bool)}
    (refused : ∃ cause, answer = .error (.unsupported cause)) :
    ∃ cause, ordering holds answer = .error (.unsupported cause) := by
  obtain ⟨cause, rfl⟩ := refused
  exact ⟨cause, rfl⟩

theorem ordering_ok (holds : Bool → Bool) (answer : Option Bool) :
    ordering holds (.ok answer) = .ok (.boolean (answer.any holds)) := by
  cases answer <;> rfl

/-- The relational operators are a lawful order. Of two texts the one precedes that the order by code points
says, so that exactly one of them precedes the other or they are identical, and what precedes a text precedes
all that it precedes. The four operators refuse the same values. If they do not refuse, they are all false
where a side is unordered, and elsewhere each of them is given by which side precedes the other. -/
theorem relational_lawful :
    (∀ (left right : String) (leftFirst : Bool), ∃ precedes,
      Value.less? (.string left) (.string right) leftFirst = .ok (some precedes) ∧
        (precedes = true ↔ Text.Precedes left right)) ∧
    (∀ left right : String, ∃ before after same,
      Answers .less (.string left) (.string right) before ∧
        Answers .less (.string right) (.string left) after ∧
        Answers .identical (.string left) (.string right) same ∧
        [before, after, same].count true = 1) ∧
    (∀ left middle right : String, Answers .less (.string left) (.string middle) true →
      Answers .less (.string middle) (.string right) true →
      Answers .less (.string left) (.string right) true) ∧
    ∀ left right : Value,
      (∀ operator ∈ [less, greater, lessOrEqual, greaterOrEqual], operator.Refuses left right) ∨
        ∃ before after, Answers .less left right before ∧ Answers .less right left after ∧
          ((left.IsUnordered ∨ right.IsUnordered) →
            ∀ operator ∈ [less, greater, lessOrEqual, greaterOrEqual], operator.Answers left right false) ∧
          (¬(left.IsUnordered ∨ right.IsUnordered) → Answers .greater left right after ∧
            Answers .lessOrEqual left right (!after) ∧ Answers .greaterOrEqual left right (!before)) := by
  have texts : ∀ left right : String, Answers .less (.string left) (.string right) (decide (left < right)) := by
    intro left right
    show ordering _ (Value.less? (.string left) (.string right) true) = _
    rw [Value.less?_texts, ordering_ok]
    rfl
  refine ⟨?_, ?_, ?_, ?_⟩
  · intro left right leftFirst
    exact ⟨_, Value.less?_texts left right leftFirst, by rw [Text.precedes_iff_lt, decide_eq_true_iff]⟩
  · intro left right
    refine ⟨_, _, _, texts left right, texts right left, rfl, ?_⟩
    rw [Value.identical_string]
    rcases lt_trichotomy left right with less | rfl | less
    · simp [less, not_lt_of_gt less, ne_of_lt less]
    · simp
    · simp [less, not_lt_of_gt less, ne_of_gt less]
  · intro left middle right first second
    have leads : ∀ left right : String, Answers .less (.string left) (.string right) true → left < right := by
      intro left right answers
      have same := (texts left right).symm.trans answers
      simpa using same
    have through := lt_trans (leads left middle first) (leads middle right second)
    have answers := texts left right
    rwa [decide_eq_true through] at answers
  · intro left right
    by_cases comparable : left.Comparable right
    · refine .inr ?_
      obtain ⟨answer, answers, missing⟩ := comparable.exists_answer
      obtain ⟨back, answersBack, missingBack⟩ := comparable.symm.exists_answer
      have before : Answers .less left right (answer.any fun precedes => precedes) := by
        show ordering _ (left.less? right true) = _
        rw [answers, ordering_ok]
      have after : Answers .less right left (back.any fun precedes => precedes) := by
        show ordering _ (right.less? left true) = _
        rw [answersBack, ordering_ok]
      have notBefore : Answers .greaterOrEqual left right (answer.any fun precedes => !precedes) := by
        show ordering _ (left.less? right true) = _
        rw [answers, ordering_ok]
      have greater : Answers .greater left right (back.any fun precedes => precedes) := by
        show ordering _ (right.less? left false) = _
        rw [answersBack, ordering_ok]
      have notAfter : Answers .lessOrEqual left right (back.any fun precedes => !precedes) := by
        show ordering _ (right.less? left false) = _
        rw [answersBack, ordering_ok]
      refine ⟨_, _, before, after, fun unordered => ?_, fun ordered => ?_⟩
      · obtain rfl := missing.mpr unordered
        obtain rfl := missingBack.mpr unordered.symm
        simpa using ⟨before, greater, notAfter, notBefore⟩
      · cases answer with
        | none => exact absurd (missing.mp rfl) ordered
        | some precedes =>
            cases back with
            | none => exact absurd (missingBack.mp rfl).symm ordered
            | some follows => exact ⟨greater, notAfter, notBefore⟩
    · refine .inl ?_
      have forward := Value.less?_refused comparable
      have backward := Value.less?_refused fun swapped => comparable (Value.Comparable.symm swapped)
      simpa using ⟨refuses_ordering (forward true), refuses_ordering (backward false),
        refuses_ordering (backward false), refuses_ordering (forward true)⟩

/-- Three texts in a row, and null against a truth value and against something that is not a number. -/
theorem relational_lawful_of_words :
    Answers .less (.string "a") (.string "ab") true ∧ Answers .less (.string "ab") (.string "b") true ∧
      Answers .less (.string "a") (.string "b") true ∧
      Value.IsUnordered .undefined ∧ Answers .lessOrEqual .null .undefined false ∧
      ¬(Value.IsUnordered .null ∨ Value.IsUnordered (.boolean true)) ∧
      Answers .lessOrEqual .null (.boolean true) true := by
  have first : Answers .less (.string "a") (.string "ab") true := rfl
  have second : Answers .less (.string "ab") (.string "b") true := rfl
  have unordered : Value.IsUnordered .undefined := ⟨_, rfl, by decide +kernel⟩
  have ordered : ¬(Value.IsUnordered .null ∨ Value.IsUnordered (.boolean true)) := by
    rintro (⟨number, ⟨⟩, impossible⟩ | ⟨number, ⟨⟩, impossible⟩)
    · revert impossible
      decide +kernel
    · revert impossible
      decide +kernel
  obtain ⟨-, -, through, compared⟩ := relational_lawful
  refine ⟨first, second, through _ _ _ first second, unordered, ?_, ordered, ?_⟩
  · rcases compared .null .undefined with refused | ⟨_, _, -, -, never, -⟩
    · obtain ⟨cause, impossible⟩ := refused .less (by simp)
      cases impossible
    · exact never (.inr unordered) .lessOrEqual (by simp)
  · rcases compared .null (.boolean true) with refused | ⟨_, after, -, back, -, given⟩
    · obtain ⟨cause, impossible⟩ := refused .less (by simp)
      cases impossible
    · obtain ⟨-, answers, -⟩ := given ordered
      have notAfter : Answers .less (.boolean true) .null false := rfl
      cases back.symm.trans notAfter
      exact answers

end BinaryOperator

end ScriptMachine

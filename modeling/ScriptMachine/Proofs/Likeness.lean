/-
This file says when values of two runs are alike. Main statement: conversions and operators make no
difference between values that are alike.
-/

import ScriptMachine.Proofs.Propriety
import ScriptMachine.Proofs.Renaming

namespace ScriptMachine

/-- Which frame and which identity of one run stands for which of another run. -/
structure Pairing where
  frame : Nat → Nat
  identity : Nat → Nat
  frame_injective : ∀ {first second}, frame first = frame second → first = second
  identity_injective : ∀ {first second}, identity first = identity second → first = second

theorem Pairing.beq_frame (pairing : Pairing) (first second : Nat) :
    (pairing.frame first == pairing.frame second) = (first == second) := by
  rw [Bool.eq_iff_iff, beq_iff_eq, beq_iff_eq]
  exact ⟨pairing.frame_injective, congrArg pairing.frame⟩

theorem Pairing.beq_identity (pairing : Pairing) (first second : Nat) :
    (pairing.identity first == pairing.identity second) = (first == second) := by
  rw [Bool.eq_iff_iff, beq_iff_eq, beq_iff_eq]
  exact ⟨pairing.identity_injective, congrArg pairing.identity⟩

def Pairing.scope (pairing : Pairing) (scope : Scope) : Scope :=
  ⟨pairing.frame scope.inner, scope.outer.map pairing.frame⟩

theorem Pairing.chain_scope (pairing : Pairing) (scope : Scope) :
    (pairing.scope scope).chain = scope.chain.map pairing.frame := rfl

/-- Values that differ in the frames and identities of their run at most. -/
inductive Value.Like (pairing : Pairing) : Value → Value → Prop where
  | plain {value : Value} (isPlain : value.isPlain = true) : Like pairing value value
  | object (proto : Address) (properties : Scope) :
      Like pairing (.object ⟨proto, properties⟩) (.object ⟨proto, pairing.scope properties⟩)
  | function (closure : Closure) :
      Like pairing (.function closure) (.function ⟨pairing.identity closure.identity, closure.code,
        pairing.scope closure.scope⟩)
  | builtin (identity : Nat) (arity : Int) (name : Tree) {routine : Routine}
      (own : routine.isOwn = true) :
      Like pairing (.builtin identity arity name routine)
        (.builtin (pairing.identity identity) arity name routine)

/-- Values that differ in the frames and identities of their run at most, and in the names that the code
of functions uses. -/
inductive Value.Akin (pairing : Pairing) (naming : Naming) : Value → Value → Prop where
  | plain {value : Value} (isPlain : value.isPlain = true) : Akin pairing naming value value
  | object (proto : Address) (properties : Scope) :
      Akin pairing naming (.object ⟨proto, properties⟩) (.object ⟨proto, pairing.scope properties⟩)
  | function (closure : Closure) :
      Akin pairing naming (.function closure) (.function ⟨pairing.identity closure.identity,
        naming.code closure.code, pairing.scope closure.scope⟩)
  | builtin (identity : Nat) (arity : Int) (name : Tree) {routine : Routine}
      (own : routine.isOwn = true) :
      Akin pairing naming (.builtin identity arity name routine)
        (.builtin (pairing.identity identity) arity name routine)

/-- Alike values are akin with nothing renamed. -/
theorem Value.Like.akin {pairing : Pairing} {value other : Value} (like : value.Like pairing other) :
    value.Akin pairing none other := by
  cases like with
  | plain isPlain => exact .plain isPlain
  | object proto properties => exact .object proto properties
  | function closure => exact .function closure
  | builtin identity arity name own => exact .builtin identity arity name own

/-- What an operator computes depends on what its operands convert to, and on whether they are identical. -/
theorem BinaryOperator.apply_congr (operator : BinaryOperator) {left right leftOther rightOther : Value}
    (leftPrimitive : leftOther.toPrimitive = left.toPrimitive)
    (rightPrimitive : rightOther.toPrimitive = right.toPrimitive)
    (leftNumber : leftOther.toNumber = left.toNumber) (rightNumber : rightOther.toNumber = right.toNumber)
    (identical : leftOther.identical rightOther = left.identical right) :
    operator.apply leftOther rightOther = operator.apply left right := by
  unfold BinaryOperator.apply
  cases operator with
  | add =>
      unfold BinaryOperator.sum
      rw [leftPrimitive, rightPrimitive]
  | subtract | multiply | divide | remainder =>
      unfold BinaryOperator.arithmetic
      rw [leftNumber, rightNumber]
  | less | greaterOrEqual | greater | lessOrEqual =>
      unfold Value.less?
      rw [leftPrimitive, rightPrimitive]
  | equal | notEqual | other written => rfl
  | identical | notIdentical =>
      dsimp only
      rw [identical]

/-- An operator sees its operand's number and truth alone. -/
theorem UnaryOperator.apply_congr (operator : UnaryOperator) {inverted : Bool} {value other : Value}
    (number : other.toNumber = value.toNumber) (truth : other.toBoolean inverted = value.toBoolean inverted) :
    operator.apply inverted other = operator.apply inverted value := by
  unfold UnaryOperator.apply
  cases operator with
  | not => rw [truth]
  | negate | toNumber => rw [number]
  | discard | other written => rfl

def Value.isFunction : Value → Bool
  | .function _ => true
  | _ => false

namespace Value.Akin

variable {pairing : Pairing} {naming : Naming} {value other left right leftOther rightOther : Value}

theorem toPrimitive (akin : value.Akin pairing naming other) : other.toPrimitive = value.toPrimitive := by
  cases akin <;> rfl

theorem toNumber (akin : value.Akin pairing naming other) : other.toNumber = value.toNumber := by
  cases akin <;> rfl

theorem toBoolean (akin : value.Akin pairing naming other) (inverted : Bool) :
    other.toBoolean inverted = value.toBoolean inverted := by
  cases akin <;> rfl

/-- Only functions are displayed by a name that may have changed. -/
theorem display (akin : value.Akin pairing naming other)
    (unchanged : naming = none ∨ value.isFunction = false) : other.display? = value.display? := by
  cases akin with
  | function closure =>
      obtain rfl : naming = none := unchanged.resolve_right nofun
      rfl
  | plain | object | builtin => rfl

/-- Values are identical exactly when the values akin to them are. -/
theorem identical (first : left.Akin pairing naming leftOther)
    (second : right.Akin pairing naming rightOther) :
    leftOther.identical rightOther = left.identical right := by
  cases first with
  | plain firstPlain =>
      cases second with
      | plain secondPlain => rfl
      | object | function | builtin =>
          cases left <;> simp_all [Value.isPlain, Value.identical, Value.same]
  | object proto properties =>
      cases second with
      | plain secondPlain => cases right <;> simp_all [Value.isPlain, Value.identical, Value.same]
      | object => exact pairing.beq_frame _ _
      | function | builtin => rfl
  | function closure =>
      cases second with
      | plain secondPlain => cases right <;> simp_all [Value.isPlain, Value.identical, Value.same]
      | function => exact pairing.beq_identity _ _
      | object | builtin => rfl
  | builtin identity arity name own =>
      cases second with
      | plain secondPlain => cases right <;> simp_all [Value.isPlain, Value.identical, Value.same]
      | builtin => exact pairing.beq_identity _ _
      | object | function => rfl

/-- Akin operands give the same result. -/
theorem apply (operator : BinaryOperator) (first : left.Akin pairing naming leftOther)
    (second : right.Akin pairing naming rightOther) :
    operator.apply leftOther rightOther = operator.apply left right :=
  operator.apply_congr first.toPrimitive second.toPrimitive first.toNumber second.toNumber
    (first.identical second)

/-- An akin operand gives the same result. -/
theorem applyUnary (operator : UnaryOperator) (inverted : Bool) (akin : value.Akin pairing naming other) :
    operator.apply inverted other = operator.apply inverted value :=
  operator.apply_congr akin.toNumber (akin.toBoolean inverted)

end Value.Akin

end ScriptMachine

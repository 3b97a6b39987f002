/-
This file says how evaluation may fail. Main statements: conversions and operators fail only by being
refused, and what operators and literals make are plain values.
-/

import ScriptMachine.Proofs.Grammar
import ScriptMachine.Store
import ScriptMachine.Value.Operation

namespace ScriptMachine

/-- How a well-formed program may fail while it runs. Only a program that is not plain can hold a name
that cannot be looked up, or a literal without a value. -/
def Fault.permitted (plain : Bool) : Fault → Bool
  | .unsupported _ | .unresolved _ | .notCallable | .badWrite _ | .mistyped _ => true
  | .malformed | .overflow => !plain
  | _ => false

variable {plain : Bool} {fault : Fault}

/-- A fitting name is refused for a permitted reason only. -/
theorem Name.permitted_of_fits {name : Name} (fits : name.fits plain = true)
    (refused : name.key = .error fault) : fault.permitted plain = true := by
  obtain ⟨written, occurrence⟩ := name
  cases written with
  | list items =>
      cases refused
      simpa [Name.fits, Name.isText, Fault.permitted] using fits
  | record shape fields =>
      cases refused
      simpa [Name.fits, Name.isText, Fault.permitted] using fits
  | _ => cases refused

/-- A write to the store is refused for a permitted reason only. -/
theorem Store.permitted_of_extend {store : Store} {address : Address} {value : Value}
    (refused : store.extend address value = .error fault) : fault.permitted plain = true := by
  unfold Store.extend at refused
  split at refused
  · cases refused
    rfl
  · cases refused

/-- Values that are what they are, whatever the session. -/
def Value.isPlain : Value → Bool
  | .undefined | .null | .boolean _ | .number _ | .string _ => true
  | _ => false

/-- An outcome that is refused at worst. -/
def Orderly {A : Type} (good : A → Prop) : Except Fault A → Prop
  | .ok result => good result
  | .error fault => ∃ cause, fault = .unsupported cause

section

variable {A B : Type} {good : A → Prop} {outcome : Except Fault A}

theorem Orderly.permitted (orderly : Orderly good outcome) (plain : Bool) (fault : Fault)
    (refused : outcome = .error fault) : fault.permitted plain = true := by
  subst refused
  obtain ⟨cause, rfl⟩ := orderly
  rfl

theorem Orderly.of_ok (orderly : Orderly good outcome) (result : A) (ended : outcome = .ok result) :
    good result := by
  subst ended
  exact orderly

/-- Orderly steps in sequence are orderly. -/
theorem Orderly.bind {onward : A → Except Fault B} {wanted : B → Prop}
    (orderly : Orderly good outcome) (continues : ∀ result, good result → Orderly wanted (onward result)) :
    Orderly wanted (outcome >>= onward) := by
  cases outcome with
  | error fault => exact orderly
  | ok result => exact continues result orderly

theorem Orderly.map {transform : A → B} {wanted : B → Prop} (orderly : Orderly good outcome)
    (continues : ∀ result, good result → wanted (transform result)) :
    Orderly wanted (outcome.map transform) := by
  cases outcome with
  | error fault => exact orderly
  | ok result => exact continues result orderly

end

theorem Value.toPrimitive_orderly (value : Value) : Orderly (fun _ => True) value.toPrimitive := by
  cases value <;> simp [Orderly, Value.toPrimitive, Value.objectToPrimitive]

theorem Value.toNumber_orderly (value : Value) : Orderly (fun _ => True) value.toNumber := by
  cases value <;> simp [Orderly, Value.toNumber]

theorem Value.toText_orderly (value : Value) : Orderly (fun _ => True) value.toText := by
  cases value <;> simp [Orderly, Value.toText]

theorem Value.toBoolean_orderly (inverted : Bool) (value : Value) :
    Orderly (fun _ => True) (value.toBoolean inverted) := by
  cases value <;> simp [Orderly, Value.toBoolean]

theorem Value.numberLess_orderly (left right : Value) :
    Orderly (fun _ => True) (left.numberLess? right) := by
  refine left.toNumber_orderly.bind fun leftNumber _ => ?_
  refine right.toNumber_orderly.bind fun rightNumber _ => ?_
  split <;> trivial

theorem Value.primitiveLess_orderly (left right : Value) :
    Orderly (fun _ => True) (left.primitiveLess? right) := by
  unfold Value.primitiveLess?
  split
  · split
    · trivial
    · exact Value.numberLess_orderly _ _
  · exact Value.numberLess_orderly _ _

/-- Comparing is orderly. -/
theorem Value.less_orderly (left right : Value) (leftFirst : Bool) :
    Orderly (fun _ => True) (left.less? right leftFirst) := by
  unfold Value.less?
  split
  · exact left.toPrimitive_orderly.bind fun _ _ => right.toPrimitive_orderly.bind fun _ _ =>
      Value.primitiveLess_orderly _ _
  · exact right.toPrimitive_orderly.bind fun _ _ => left.toPrimitive_orderly.bind fun _ _ =>
      Value.primitiveLess_orderly _ _

/-- A sum is a plain value or a permitted refusal. -/
theorem BinaryOperator.sum_orderly (left right : Value) :
    Orderly (fun value => value.isPlain = true) (BinaryOperator.sum left right) := by
  refine left.toPrimitive_orderly.bind fun leftPrimitive _ => ?_
  refine right.toPrimitive_orderly.bind fun rightPrimitive _ => ?_
  split
  · exact (Value.toText_orderly _).bind fun _ _ => (Value.toText_orderly _).bind fun _ _ => rfl
  · exact (Value.toText_orderly _).bind fun _ _ => (Value.toText_orderly _).bind fun _ _ => rfl
  · exact leftPrimitive.toNumber_orderly.bind fun _ _ =>
      rightPrimitive.toNumber_orderly.bind fun _ _ => rfl

theorem BinaryOperator.arithmetic_orderly (compute : Float → Float → Float) (left right : Value) :
    Orderly (fun value => value.isPlain = true) (BinaryOperator.arithmetic compute left right) :=
  left.toNumber_orderly.bind fun _ _ => right.toNumber_orderly.bind fun _ _ => rfl

theorem BinaryOperator.ordering_orderly (judge : Bool → Bool) {answer : Except Fault (Option Bool)}
    (orderly : Orderly (fun _ => True) answer) :
    Orderly (fun value => value.isPlain = true) (BinaryOperator.ordering judge answer) := by
  refine orderly.bind fun precedes _ => ?_
  cases precedes <;> rfl

/-- Operators make plain values. -/
theorem BinaryOperator.apply_orderly (operator : BinaryOperator) (left right : Value) :
    Orderly (fun value => value.isPlain = true) (operator.apply left right) := by
  cases operator with
  | add => exact BinaryOperator.sum_orderly left right
  | subtract | multiply | divide | remainder => exact BinaryOperator.arithmetic_orderly _ left right
  | less | greaterOrEqual => exact BinaryOperator.ordering_orderly _ (Value.less_orderly left right _)
  | greater | lessOrEqual => exact BinaryOperator.ordering_orderly _ (Value.less_orderly right left _)
  | equal | notEqual | identical | notIdentical => rfl
  | other written => exact ⟨_, rfl⟩

/-- A unary operator gives a plain value or a permitted refusal. -/
theorem UnaryOperator.apply_orderly (operator : UnaryOperator) (inverted : Bool) (value : Value) :
    Orderly (fun value => value.isPlain = true) (operator.apply inverted value) := by
  cases operator with
  | not => exact (value.toBoolean_orderly inverted).map fun _ _ => rfl
  | negate | toNumber => exact value.toNumber_orderly.map fun _ _ => rfl
  | discard => rfl
  | other written => exact ⟨_, rfl⟩

/-- A literal of a plain program has a value, and any value of a literal is plain. -/
theorem Tree.permitted_of_literal {tree : Tree} (denotes : (!plain || tree.denotes) = true)
    (refused : tree.literal = .error fault) : fault.permitted plain = true := by
  cases plain with
  | true =>
      obtain ⟨value, valued⟩ := Tree.literal_of_denotes (by simpa using denotes)
      rw [valued] at refused
      cases refused
  | false =>
      cases tree with
      | int value =>
          simp only [Tree.literal, numberOfInt] at refused
          split at refused
          · cases refused
            rfl
          · cases refused
      | list items | record shape fields =>
          cases refused
          rfl
      | _ => cases refused

/-- A literal's value is plain. -/
theorem Tree.isPlain_of_literal {tree : Tree} {value : Value} (valued : tree.literal = .ok value) :
    value.isPlain = true := by
  cases tree with
  | int number =>
      simp only [Tree.literal, Except.map] at valued
      split at valued
      · cases valued
      · cases valued
        rfl
  | list items | record shape fields => cases valued
  | _ =>
      cases valued
      rfl

end ScriptMachine

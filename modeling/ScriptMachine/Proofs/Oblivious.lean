/-
This file says which work calls nothing. Two values are twins if they differ at most in what happens when
they are called, and work is oblivious if it does the same on twins and prints nothing. Main statements:
evaluating an expression is oblivious, and so is every step of a statement that is no call.
-/

import Mathlib.Data.List.Forall2
import ScriptMachine.Proofs.Likeness
import ScriptMachine.Proofs.Request

namespace ScriptMachine

/-- Values that differ at most in what a built-in function does or in what a function consists of. -/
inductive Value.Twin : Value → Value → Prop where
  | self (value : Value) : Twin value value
  | builtin (identity : Nat) (arity : Int) (name : Tree) (routine other : Routine) :
      Twin (.builtin identity arity name routine) (.builtin identity arity name other)
  | function (closure : Closure) (params : List Ident) (body : Node) :
      Twin (.function closure) (.function { closure with code := { closure.code with params, body } })

namespace Value.Twin

variable {value other left right leftOther rightOther : Value}

/-- Twins are shown alike. -/
theorem shown (twin : value.Twin other) : other.shown = value.shown := by
  cases twin <;> rfl

/-- Twins convert to the same primitive value. -/
theorem toPrimitive (twin : value.Twin other) : other.toPrimitive = value.toPrimitive := by
  cases twin <;> rfl

/-- Twins convert to the same number. -/
theorem toNumber (twin : value.Twin other) : other.toNumber = value.toNumber := by
  cases twin <;> rfl

/-- Twins count alike as true or false. -/
theorem toBoolean (twin : value.Twin other) (inverted : Bool) :
    other.toBoolean inverted = value.toBoolean inverted := by
  cases twin <;> rfl

/-- Twins are identical to the same values. -/
theorem identical (first : left.Twin leftOther) (second : right.Twin rightOther) :
    leftOther.identical rightOther = left.identical right := by
  cases first with
  | self =>
      cases second with
      | self => rfl
      | builtin | function => cases left <;> rfl
  | builtin | function =>
      cases second with
      | self => cases right <;> rfl
      | builtin | function => rfl

/-- Operators do not tell twins apart. -/
theorem apply (operator : BinaryOperator) (first : left.Twin leftOther)
    (second : right.Twin rightOther) :
    operator.apply leftOther rightOther = operator.apply left right :=
  operator.apply_congr first.toPrimitive second.toPrimitive first.toNumber second.toNumber
    (first.identical second)

/-- Unary operators do not tell twins apart. -/
theorem applyUnary (operator : UnaryOperator) (inverted : Bool) (twin : value.Twin other) :
    operator.apply inverted other = operator.apply inverted value :=
  operator.apply_congr twin.toNumber (twin.toBoolean inverted)

/-- What is noted about an operation does not tell twins apart. -/
theorem remark? (operator : BinaryOperator) (first : left.Twin leftOther)
    (second : right.Twin rightOther) :
    operator.remark? leftOther rightOther = operator.remark? left right := by
  unfold BinaryOperator.remark?
  rw [first.shown, second.shown]

end Value.Twin

/-- Stores that hold twins. -/
def Store.Twin (store other : Store) : Prop := ∀ address, (store.get address).Twin (other.get address)

/-- Scratches with one session, and with twins in their stores. -/
structure Scratch.Twin (scratch other : Scratch) : Prop where
  session : other.session = scratch.session
  store : scratch.store.Twin other.store

inductive Operand.Twin : Operand → Operand → Prop where
  | location (address : Address) : Twin (.location address) (.location address)
  | value {value other : Value} (twin : value.Twin other) : Twin (.value value) (.value other)

/-- States that differ at most in the twins that they hold. -/
inductive State.Twin : State → State → Prop where
  | active (node : Node) (next : Control) (scope : Scope) {store other : Store}
      (continuation : Continuation) (twin : store.Twin other) :
      Twin (.active node next scope store continuation) (.active node next scope other continuation)
  | halted (scope : Scope) {store other : Store} (continuation : Continuation) (twin : store.Twin other) :
      Twin (.halted scope store continuation) (.halted scope other continuation)
  | uncaught {value other : Value} {store copy : Store} (twin : value.Twin other)
      (twins : store.Twin copy) : Twin (.uncaught value store) (.uncaught other copy)

/-- What work is done on: which starts belong together, and what has been printed. -/
structure Aspect (S : Type) where
  Tied : S → S → Prop
  output : S → String

def Aspect.session : Aspect Session := ⟨fun session other => other = session, Session.output⟩

def Aspect.scratch : Aspect Scratch := ⟨Scratch.Twin, fun scratch => scratch.session.output⟩

/-- Two pieces of work that come to the same from starts that belong together, and print nothing. -/
def Aspect.Oblivious {S A B : Type} (aspect : Aspect S) (related : A → B → Prop)
    (first : EStateM Fault S A) (second : EStateM Fault S B) : Prop :=
  ∀ start other, aspect.Tied start other →
    Ends first start
      (fun result final => Ends second other (fun again last => related result again ∧
        aspect.Tied final last ∧ aspect.output final = aspect.output start) fun _ _ => False)
      fun fault final => Ends second other (fun _ _ => False) fun again last => again = fault ∧
        aspect.Tied final last ∧ aspect.output final = aspect.output start

abbrev Action.Oblivious {A B : Type} (related : A → B → Prop) (first : Action A) (second : Action B) :
    Prop :=
  Aspect.session.Oblivious related first second

abbrev Draft.Oblivious {A B : Type} (related : A → B → Prop) (first : Draft A) (second : Draft B) : Prop :=
  Aspect.scratch.Oblivious related first second

namespace Aspect

variable {S A B C D : Type} {aspect : Aspect S} {related : A → B → Prop}

/-- Results that are related are handed on in silence. -/
theorem oblivious_pure {result : A} {again : B} (holds : related result again) :
    aspect.Oblivious related (pure result) (pure again) :=
  fun _ _ tied => ⟨holds, tied, rfl⟩

/-- Failing calls nothing. -/
theorem oblivious_throw (fault : Fault) :
    aspect.Oblivious related (throw fault : EStateM Fault S A) (throw fault : EStateM Fault S B) :=
  fun _ _ tied => ⟨rfl, tied, rfl⟩

/-- Work in two parts is oblivious if both parts are. -/
theorem oblivious_bind {first : EStateM Fault S C} {second : EStateM Fault S D}
    {firstOn : C → EStateM Fault S A} {secondOn : D → EStateM Fault S B} {middle : C → D → Prop}
    (begins : aspect.Oblivious middle first second)
    (goesOn : ∀ value again, middle value again → aspect.Oblivious related (firstOn value) (secondOn again)) :
    aspect.Oblivious related (first >>= firstOn) (second >>= secondOn) := by
  intro start other tied
  simp only [ends_bind]
  refine (begins start other tied).weaken ?_ ?_
  · intro value final ends
    refine Ends.intro ?_ ?_
    · intro result after ended
      refine ends.weaken ?_ fun _ _ never => never
      rintro again last ⟨holds, tiedAgain, silent⟩
      rw [← silent]
      exact (goesOn value again holds final last tiedAgain).of_ok ended
    · intro fault after ended
      refine ends.weaken ?_ fun _ _ never => never.elim
      rintro again last ⟨holds, tiedAgain, silent⟩
      rw [← silent]
      exact (goesOn value again holds final last tiedAgain).of_error ended
  · intro fault final ends
    exact ends.weaken (fun _ _ never => never.elim) fun _ _ same => same

/-- Work that comes to the same on both sides hands on one value. -/
theorem oblivious_same {first second : EStateM Fault S C} {firstOn : C → EStateM Fault S A}
    {secondOn : C → EStateM Fault S B} (begins : aspect.Oblivious Eq first second)
    (goesOn : ∀ value, aspect.Oblivious related (firstOn value) (secondOn value)) :
    aspect.Oblivious related (first >>= firstOn) (second >>= secondOn) := by
  refine oblivious_bind begins ?_
  rintro value _ rfl
  exact goesOn value

end Aspect

/-- An action that prints nothing, whether it fails or not. -/
class Silent {A : Type} (action : Action A) : Prop where
  ends : ∀ session, Ends action session (fun _ after => after.output = session.output)
    fun _ after => after.output = session.output

instance (scope : Scope) (name : Name) : Silent (scope.resolve name) := by
  refine ⟨fun session => ?_⟩
  rw [ends_resolve]
  cases name.key with
  | error fault => rfl
  | ok key => cases found : session.resolve? scope key <;> simp [found]

instance (scope : Scope) (name : Name) : Silent (scope.declare name) := by
  refine ⟨fun session => ?_⟩
  rw [ends_declare]
  cases name.key with
  | error fault => rfl
  | ok key => exact session.output_declare _ _ _

instance (object : Object) (name : Name) : Silent (object.locate name) := by
  refine ⟨fun session => ?_⟩
  rw [ends_locate]
  cases name.key with
  | error fault => rfl
  | ok key => exact session.output_locate _ _ _

instance (topic : Topic) (message : Session → String) : Silent (Action.note topic message) := by
  refine ⟨fun session => ?_⟩
  rw [ends_note]
  split <;> rfl

instance (topic : Topic) (message : String) : Silent (Action.warn topic message) := ⟨fun _ => rfl⟩

instance (code : Code) (scope : Scope) : Silent (code.close scope) := ⟨fun _ => rfl⟩

instance (scope : Scope) : Silent scope.push := ⟨fun _ => rfl⟩

instance (allocator : Nat) (outer : List Nat) : Silent (Scope.enter allocator outer) := ⟨fun _ => rfl⟩

instance (proto : Address) (store : Store) (allocator : Nat) :
    Silent (Object.create proto store allocator) := by
  refine ⟨fun session => ?_⟩
  rw [ends_create]
  rfl

namespace Action

variable {A : Type}

/-- A silent action does the same as itself. -/
theorem oblivious_self {action : Action A} [silent : Silent action] : Action.Oblivious Eq action action := by
  intro session other tied
  obtain rfl : other = session := tied
  refine Ends.intro (fun result after ended => ?_) fun fault after ended => ?_
  · unfold Ends
    rw [ended]
    exact ⟨rfl, rfl, (silent.ends other).of_ok ended⟩
  · unfold Ends
    rw [ended]
    exact ⟨rfl, rfl, (silent.ends other).of_error ended⟩

/-- Of the prototype of a new object only the frames are looked at. -/
theorem oblivious_create (proto : Address) {store other : Store} (twin : store.Twin other)
    (allocator : Nat) :
    Action.Oblivious Eq (Object.create proto store allocator) (Object.create proto other allocator) := by
  have same : Object.create proto other allocator = Object.create proto store allocator := by
    have twinned := twin proto
    unfold Object.create
    generalize store.get proto = held at twinned
    generalize other.get proto = again at twinned
    cases twinned <;> rfl
  rw [same]
  exact oblivious_self

end Action

variable {store other : Store} {values copies : List Value}

/-- Reading twin operands from twin stores gives twins. -/
theorem Operand.Twin.readFrom {operand other : Operand} (twin : operand.Twin other) {copy : Store}
    (twins : store.Twin copy) : (operand.readFrom store).Twin (other.readFrom copy) := by
  cases twin with
  | location address => exact twins address
  | value same =>
      cases same with
      | self =>
          rename_i held
          cases held with
          | reference identity address => exact twins address
          | _ => exact .self _
      | builtin identity arity name routine other => exact .builtin identity arity name routine other
      | function closure params body => exact .function closure params body

/-- Twin operands stand for the same address. -/
theorem Operand.Twin.address? {operand other : Operand} (twin : operand.Twin other) :
    other.address? = operand.address? := by
  cases twin with
  | location address => rfl
  | value same => cases same <;> rfl

/-- Twins are written where there is no null. -/
theorem Store.Twin.extend (twins : store.Twin other) (address : Address) {value again : Value}
    (twin : value.Twin again) :
    (∃ fault, store.extend address value = .error fault ∧ other.extend address again = .error fault) ∨
      ∃ next copy, store.extend address value = .ok next ∧ other.extend address again = .ok copy ∧
        next.Twin copy := by
  by_cases null : address = 0
  · subst null
    exact .inl ⟨_, rfl, rfl⟩
  · refine .inr ⟨_, _, Store.extend_of_ne null, Store.extend_of_ne null, fun found => ?_⟩
    by_cases same : found = address
    · subst same
      rw [Store.get_extend_self (Store.extend_of_ne null), Store.get_extend_self (Store.extend_of_ne null)]
      exact twin
    · rw [Store.get_insert_of_ne null same, Store.get_insert_of_ne null same]
      exact twins found

/-- Twins are stored in twin stores. -/
theorem Action.oblivious_extend (twins : store.Twin other) (address : Address) {value again : Value}
    (twin : value.Twin again) :
    Action.Oblivious Store.Twin (Action.fromExcept (store.extend address value))
      (Action.fromExcept (other.extend address again)) := by
  obtain ⟨fault, refused, refusedAgain⟩ | ⟨next, copy, extended, extendedAgain, same⟩ :=
    twins.extend address twin
  · rw [refused, refusedAgain]
    exact Aspect.oblivious_throw fault
  · rw [extended, extendedAgain]
    exact Aspect.oblivious_pure same

namespace Draft

variable {A B : Type}

/-- What is oblivious on its own is oblivious inside a draft. -/
theorem oblivious_lift {related : A → B → Prop} {first : Action A} {second : Action B}
    (oblivious : Action.Oblivious related first second) :
    Draft.Oblivious related (liftM first) (liftM second) := by
  intro start other twin
  simp only [ends_liftAction]
  refine (oblivious start.session other.session twin.session).weaken ?_ ?_
  · intro result final ends
    refine ends.weaken ?_ fun _ _ never => never
    rintro again last ⟨holds, same, silent⟩
    exact ⟨holds, ⟨same, twin.store⟩, silent⟩
  · intro fault final ends
    refine ends.weaken (fun _ _ never => never) ?_
    rintro again last ⟨matched, same, silent⟩
    exact ⟨matched, ⟨same, twin.store⟩, silent⟩

/-- A silent action is oblivious inside a draft, too. -/
theorem oblivious_act {action : Action A} [Silent action] :
    Draft.Oblivious Eq (liftM action) (liftM action) :=
  oblivious_lift Action.oblivious_self

/-- Conversions with one outcome hand on one value. -/
theorem oblivious_outcome {outcome again : Except Fault A} (same : again = outcome) :
    Draft.Oblivious Eq (liftM outcome) (liftM again) := by
  subst same
  cases again with
  | ok result => exact Aspect.oblivious_pure rfl
  | error fault => exact Aspect.oblivious_throw fault

/-- Looking at the store gives twin stores. -/
theorem oblivious_store : Draft.Oblivious Store.Twin Draft.store Draft.store :=
  fun _ _ twin => ⟨twin.store, twin, rfl⟩

/-- Reading twin operands gives twins. -/
theorem oblivious_read {operand other : Operand} (twin : operand.Twin other) :
    Draft.Oblivious Value.Twin operand.read other.read :=
  fun _ _ twins => ⟨twin.readFrom twins.store, twins, rfl⟩

/-- Writing twins at one address keeps stores twins. -/
theorem oblivious_extend (address : Address) {value other : Value} (twin : value.Twin other) :
    Draft.Oblivious (fun _ _ => True) (Draft.extend address value) (Draft.extend address other) := by
  intro start copy twins
  simp only [ends_extend]
  obtain ⟨fault, refused, refusedAgain⟩ | ⟨next, again, extended, extendedAgain, same⟩ :=
    twins.store.extend address twin
  · rw [refused, refusedAgain]
    exact ⟨rfl, twins, trivial⟩
  · rw [extended, extendedAgain]
    exact ⟨trivial, ⟨twins.session, same⟩, rfl⟩

/-- Assigning twins to twin operands keeps stores twins. -/
theorem oblivious_write {operand other : Operand} (same : operand.Twin other) {value again : Value}
    (twin : value.Twin again) :
    Draft.Oblivious (fun _ _ => True) (operand.write value) (other.write again) := by
  unfold Operand.write
  rw [same.address?]
  cases operand.address? with
  | none => exact Aspect.oblivious_throw _
  | some address => exact oblivious_extend address twin

/-- A property is selected by what its selector converts to. -/
theorem oblivious_select (object : Object) {selector other : Value} (twin : selector.Twin other) :
    Draft.Oblivious Operand.Twin (object.select selector) (object.select other) := by
  refine Aspect.oblivious_same (oblivious_outcome twin.toPrimitive) fun primitive => ?_
  refine Aspect.oblivious_same (oblivious_outcome rfl) fun key => ?_
  refine Aspect.oblivious_same Draft.oblivious_act fun address => ?_
  exact Aspect.oblivious_pure (.location address)

/-- An operator notes and computes the same on twins. -/
theorem oblivious_perform (operator : BinaryOperator) {left right leftOther rightOther : Value}
    (first : left.Twin leftOther) (second : right.Twin rightOther) :
    Draft.Oblivious Operand.Twin (operator.perform left right) (operator.perform leftOther rightOther) := by
  have applied : Draft.Oblivious Operand.Twin
      (do return Operand.value (← operator.apply left right) : Draft Operand)
      (do return Operand.value (← operator.apply leftOther rightOther) : Draft Operand) := by
    refine Aspect.oblivious_same (oblivious_outcome (first.apply operator second)) fun value => ?_
    exact Aspect.oblivious_pure (.value (.self value))
  unfold BinaryOperator.perform
  rw [first.remark? operator second]
  dsimp only
  split
  · exact Aspect.oblivious_same Draft.oblivious_act fun _ => applied
  · exact applied

/-- Everything after an operand goes on with twins. -/
theorem oblivious_operand {A B : Type} {related : A → B → Prop} {evaluation other : Draft Operand}
    {onward : Value → Draft A} {again : Value → Draft B}
    (evaluates : Draft.Oblivious Operand.Twin evaluation other)
    (goesOn : ∀ value copy, value.Twin copy → Draft.Oblivious related (onward value) (again copy)) :
    Draft.Oblivious related (evaluation >>= fun operand => operand.read >>= onward)
      (other >>= fun operand => operand.read >>= again) := by
  refine Aspect.oblivious_bind evaluates fun operand copy twin => ?_
  exact Aspect.oblivious_bind (oblivious_read twin) goesOn

end Draft

mutual
/-- Evaluating an expression calls nothing. -/
theorem Node.oblivious_evaluate (inverted : Bool) (scope : Scope) (node : Node) :
    Draft.Oblivious Operand.Twin (node.evaluate inverted scope) (node.evaluate inverted scope) := by
  cases node with
  | identifier ident =>
      rw [Node.evaluate]
      refine Aspect.oblivious_same Draft.oblivious_act fun address => ?_
      exact Aspect.oblivious_pure (.location address)
  | literal place value =>
      rw [Node.evaluate]
      refine Aspect.oblivious_same (Draft.oblivious_outcome rfl) fun literal => ?_
      exact Aspect.oblivious_pure (.value (.self literal))
  | functionExpression place name params body =>
      rw [Node.evaluate]
      refine Aspect.oblivious_same Draft.oblivious_act fun closure => ?_
      exact Aspect.oblivious_pure (.value (.self closure))
  | object place properties =>
      rw [Node.evaluate]
      refine Aspect.oblivious_same Draft.oblivious_act fun proto => ?_
      refine Aspect.oblivious_bind Draft.oblivious_store fun store copy twin => ?_
      refine Aspect.oblivious_same (Draft.oblivious_lift (Action.oblivious_create _ twin _)) fun object => ?_
      refine Aspect.oblivious_bind (oblivious_evaluateProperties inverted scope object properties) ?_
      exact fun _ _ _ => Aspect.oblivious_pure (.value (.self _))
  | member place holder selector computed =>
      rw [Node.evaluate]
      refine Draft.oblivious_operand (oblivious_evaluate inverted scope holder) ?_
      intro held again twin
      cases twin with
      | self =>
          cases held with
          | object found =>
              refine Draft.oblivious_operand (oblivious_evaluate inverted scope selector) ?_
              exact fun selected copy same => Draft.oblivious_select found same
          | _ => exact Aspect.oblivious_throw _
      | builtin | function => exact Aspect.oblivious_throw _
  | binary place operator left right =>
      rw [Node.evaluate]
      refine Draft.oblivious_operand (oblivious_evaluate inverted scope left) ?_
      intro leftValue leftCopy first
      refine Draft.oblivious_operand (oblivious_evaluate inverted scope right) ?_
      exact fun rightValue rightCopy second => Draft.oblivious_perform operator first second
  | unary place operator argument =>
      rw [Node.evaluate]
      refine Draft.oblivious_operand (oblivious_evaluate inverted scope argument) ?_
      intro value copy twin
      refine Aspect.oblivious_same (Draft.oblivious_outcome (twin.applyUnary operator inverted)) fun result => ?_
      exact Aspect.oblivious_pure (.value (.self result))
  | logical place operator left right =>
      rw [Node.evaluate]
      refine Draft.oblivious_operand (oblivious_evaluate inverted scope left) ?_
      intro leftValue leftCopy first
      refine Aspect.oblivious_bind (Draft.oblivious_outcome (first.toBoolean inverted)) fun _ _ _ => ?_
      refine Draft.oblivious_operand (oblivious_evaluate inverted scope right) ?_
      intro rightValue rightCopy second
      refine Aspect.oblivious_bind (Draft.oblivious_outcome (second.toBoolean inverted)) fun _ _ _ => ?_
      exact Aspect.oblivious_throw _
  | assignment place operator left right =>
      cases operator with
      | other written =>
          rw [Node.evaluate]
          exact Aspect.oblivious_throw _
      | assign =>
          rw [Node.evaluate]
          refine Aspect.oblivious_bind (oblivious_evaluate inverted scope left) ?_
          intro target again same
          split
          · exact Aspect.oblivious_throw _
          · refine Draft.oblivious_operand (oblivious_evaluate inverted scope right) ?_
            intro value copy twin
            refine Aspect.oblivious_bind (Draft.oblivious_write same twin) ?_
            exact fun _ _ _ => Aspect.oblivious_pure (.value twin)
  | _ =>
      rw [Node.evaluate]
      · exact Aspect.oblivious_throw _
      all_goals simp

/-- The properties of an object are evaluated without a call. -/
theorem Node.oblivious_evaluateProperties (inverted : Bool) (scope : Scope) (object : Object)
    (properties : List Node) :
    Draft.Oblivious (fun _ _ => True) (Node.evaluateProperties inverted scope object properties)
      (Node.evaluateProperties inverted scope object properties) := by
  match properties with
  | [] =>
      rw [Node.evaluateProperties]
      exact Aspect.oblivious_pure trivial
  | other :: rest =>
      by_cases property : ∃ place key value, other = .property place key value
      · obtain ⟨place, key, value, rfl⟩ := property
        rw [Node.evaluateProperties]
        refine Draft.oblivious_operand (oblivious_evaluate inverted scope value) ?_
        intro held copy twin
        refine Aspect.oblivious_same Draft.oblivious_act fun address => ?_
        refine Aspect.oblivious_bind (Draft.oblivious_extend address twin) ?_
        exact fun _ _ _ => oblivious_evaluateProperties inverted scope object rest
      · obtain ⟨fault, refused⟩ := Node.exists_evaluateProperties_eq_throw inverted
          (fun place key value same => property ⟨place, key, value, same⟩) rest
        rw [refused]
        exact Aspect.oblivious_throw _
end

/-- Lists of twins. -/
abbrev Value.Twins : List Value → List Value → Prop := List.Forall₂ Value.Twin

/-- Requests for calls of twins. -/
inductive Request.Twin : Request → Request → Prop where
  | builtin (routine other : Routine) {values copies : List Value} (twins : Value.Twins values copies) :
      Twin (.builtin routine values) (.builtin other copies)
  | closure {closure other : Closure} {values copies : List Value}
      (twin : (Value.function closure).Twin (.function other)) (twins : Value.Twins values copies) :
      Twin (.closure closure values) (.closure other copies)

section

variable (inverted : Bool) (scope : Scope)

/-- The value of an expression comes about without a call. -/
theorem Node.oblivious_value (node : Node) :
    Draft.Oblivious Value.Twin (node.value inverted scope) (node.value inverted scope) :=
  Aspect.oblivious_bind (node.oblivious_evaluate inverted scope) fun _ _ twin => Draft.oblivious_read twin

/-- A test is decided alike on twins. -/
theorem Node.oblivious_truth (node : Node) :
    Draft.Oblivious Eq (node.truth inverted scope) (node.truth inverted scope) :=
  Aspect.oblivious_bind (node.oblivious_value inverted scope) fun _ _ twin =>
    Draft.oblivious_outcome (twin.toBoolean inverted)

/-- Arguments are evaluated without a call. -/
theorem Node.oblivious_values (arguments : List Node) :
    Draft.Oblivious Value.Twins (Node.values inverted scope arguments)
      (Node.values inverted scope arguments) := by
  induction arguments with
  | nil => exact Aspect.oblivious_pure .nil
  | cons argument rest ih =>
      refine Aspect.oblivious_bind (argument.oblivious_value inverted scope) fun value copy twin => ?_
      refine Aspect.oblivious_bind ih fun values copies twins => ?_
      exact Aspect.oblivious_pure (.cons twin twins)

/-- Arguments of built-in functions are evaluated without a call. -/
theorem Node.oblivious_plainValues (arguments : List Node) :
    Draft.Oblivious Value.Twins (Node.plainValues inverted scope arguments)
      (Node.plainValues inverted scope arguments) := by
  induction arguments with
  | nil => exact Aspect.oblivious_pure .nil
  | cons argument rest ih =>
      have goesOn : ∀ {value copy : Value}, value.Twin copy → Draft.Oblivious Value.Twins
          (do return value :: (← Node.plainValues inverted scope rest))
          (do return copy :: (← Node.plainValues inverted scope rest)) := by
        intro value copy twin
        refine Aspect.oblivious_bind ih fun values copies twins => ?_
        exact Aspect.oblivious_pure (.cons twin twins)
      refine Aspect.oblivious_bind (argument.oblivious_value inverted scope) fun value copy twin => ?_
      cases twin with
      | self =>
          cases value with
          | reference identity address => exact Aspect.oblivious_throw _
          | _ => exact goesOn (.self _)
      | builtin identity arity name routine other => exact goesOn (.builtin identity arity name routine other)
      | function closure params body => exact goesOn (.function closure params body)

/-- The target of a call is found without calling it. -/
theorem Taker.oblivious_target (taker : Taker) :
    Draft.Oblivious Eq (taker.target inverted scope) (taker.target inverted scope) := by
  cases taker with
  | nobody => exact Aspect.oblivious_pure rfl
  | operand left =>
      refine Aspect.oblivious_bind (left.oblivious_evaluate inverted scope) fun operand copy twin => ?_
      rw [twin.address?]
      cases operand.address? with
      | none => exact Aspect.oblivious_throw _
      | some address => exact Aspect.oblivious_pure rfl
  | slot name => exact Aspect.oblivious_pure rfl

/-- A function is not entered before its arguments have values. -/
theorem Calling.oblivious_prepare (calling : Calling) :
    Draft.Oblivious Request.Twin (calling.prepare inverted scope) (calling.prepare inverted scope) := by
  have builtin : ∀ routine other, Draft.Oblivious Request.Twin
      (do return Request.builtin routine (← Node.plainValues inverted scope calling.arguments))
      (do return Request.builtin other (← Node.plainValues inverted scope calling.arguments)) := by
    intro routine other
    refine Aspect.oblivious_bind (Node.oblivious_plainValues inverted scope _) fun values copies twins => ?_
    exact Aspect.oblivious_pure (.builtin routine other twins)
  have closure : ∀ {closure other : Closure}, (Value.function closure).Twin (.function other) →
      Draft.Oblivious Request.Twin
        (do return Request.closure closure (← Node.values inverted scope calling.arguments))
        (do return Request.closure other (← Node.values inverted scope calling.arguments)) := by
    intro closure other twin
    refine Aspect.oblivious_bind (Node.oblivious_values inverted scope _) fun values copies twins => ?_
    exact Aspect.oblivious_pure (.closure twin twins)
  refine Aspect.oblivious_bind (calling.callee.oblivious_value inverted scope) fun value copy twin => ?_
  cases twin with
  | self =>
      cases value with
      | builtin identity arity name routine => exact builtin routine routine
      | function called =>
          refine Aspect.oblivious_same Draft.oblivious_act fun _ => ?_
          exact closure (.self _)
      | _ =>
          refine Aspect.oblivious_same Draft.oblivious_act fun _ => ?_
          exact Aspect.oblivious_throw _
  | builtin identity arity name routine other => exact builtin routine other
  | function called params body =>
      refine Aspect.oblivious_same Draft.oblivious_act fun _ => ?_
      exact closure (.function called params body)

/-- A request is made up without answering it. -/
theorem Calling.oblivious_request (calling : Calling) :
    Draft.Oblivious (fun result again => again.1 = result.1 ∧ result.2.Twin again.2)
      (calling.request inverted scope) (calling.request inverted scope) := by
  refine Aspect.oblivious_same (calling.taker.oblivious_target inverted scope) fun target => ?_
  refine Aspect.oblivious_bind (calling.oblivious_prepare inverted scope) fun request again twin => ?_
  exact Aspect.oblivious_pure ⟨rfl, twin⟩

end

/-- Control goes on alike with twin stores. -/
theorem State.oblivious_resume (control : Control) (scope : Scope) (twin : store.Twin other)
    (continuation : Continuation) :
    Action.Oblivious State.Twin (State.resume control scope store continuation)
      (State.resume control scope other continuation) := by
  cases control with
  | nowhere => exact Aspect.oblivious_throw _
  | done => exact Aspect.oblivious_pure (.halted scope continuation twin)
  | visit node next => exact Aspect.oblivious_pure (.active node next scope continuation twin)

namespace Continuation

variable {store other : Store} (twins : store.Twin other) {value copy : Value} (twin : value.Twin copy)
include twins

include twin in
/-- Binding the value of a call calls nothing further. -/
theorem oblivious_bindResult (target : Target) (scope : Scope) :
    Action.Oblivious Store.Twin (bindResult target scope value store) (bindResult target scope copy other) := by
  cases target with
  | slot name =>
      refine Aspect.oblivious_same Action.oblivious_self fun address => ?_
      exact Action.oblivious_extend twins address twin
  | location address => exact Action.oblivious_extend twins address twin
  | discard => exact Aspect.oblivious_pure twins

include twin in
/-- Returning a value calls nothing. -/
theorem oblivious_returned (continuation : Continuation) :
    Action.Oblivious State.Twin (returned value store continuation) (returned copy other continuation) := by
  induction continuation with
  | nil => exact Aspect.oblivious_throw _
  | cons pending rest ih =>
      cases pending with
      | call target resume scope =>
          refine Aspect.oblivious_bind (oblivious_bindResult twins twin target scope) ?_
          exact fun bound again same => State.oblivious_resume resume scope same rest
      | scope resume outer => exact ih
      | handler clause scope resume => exact ih

/-- Leaving a scope calls nothing. -/
theorem oblivious_leftScope (continuation : Continuation) :
    Action.Oblivious State.Twin (leftScope store continuation) (leftScope other continuation) := by
  induction continuation with
  | nil => exact Aspect.oblivious_throw _
  | cons pending rest ih =>
      cases pending with
      | call target resume scope => exact ih
      | scope resume outer =>
          cases resume with
          | nowhere => exact oblivious_returned twins (.self _) rest
          | done => exact State.oblivious_resume .done outer twins rest
          | visit node next => exact State.oblivious_resume (.visit node next) outer twins rest
      | handler clause scope resume => exact ih

/-- Leaving a protected block calls nothing. -/
theorem oblivious_leftHandler (continuation : Continuation) :
    Action.Oblivious State.Twin (leftHandler store continuation) (leftHandler other continuation) := by
  induction continuation with
  | nil => exact Aspect.oblivious_throw _
  | cons pending rest ih =>
      cases pending with
      | call target resume scope => exact ih
      | scope resume outer => exact ih
      | handler clause scope resume => exact State.oblivious_resume resume scope twins rest

include twin in
/-- Entering a clause calls nothing. -/
theorem oblivious_enterClause (param : Ident) (body : Node) (scope : Scope) (resume : Control)
    (rest : Continuation) :
    Action.Oblivious State.Twin (enterClause param body scope resume value store rest)
      (enterClause param body scope resume copy other rest) := by
  refine Aspect.oblivious_same Action.oblivious_self fun inner => ?_
  refine Aspect.oblivious_same Action.oblivious_self fun address => ?_
  refine Aspect.oblivious_bind (Action.oblivious_extend twins address twin) ?_
  intro bound again same
  split
  · exact State.oblivious_resume _ inner same _
  · exact Aspect.oblivious_throw _

include twin in
/-- Throwing a value calls nothing. -/
theorem oblivious_thrown (continuation : Continuation) :
    Action.Oblivious State.Twin (thrown value store continuation) (thrown copy other continuation) := by
  induction continuation with
  | nil =>
      unfold thrown
      rw [twin.shown]
      refine Aspect.oblivious_same Action.oblivious_self fun _ => ?_
      exact Aspect.oblivious_pure (.uncaught twin twins)
  | cons pending rest ih =>
      cases pending with
      | call target resume scope => exact ih
      | scope resume outer => exact ih
      | handler clause scope resume =>
          unfold thrown caught
          split
          · exact Aspect.oblivious_throw _
          · exact State.oblivious_resume resume scope twins rest
          · split
            · exact oblivious_enterClause twins twin _ _ scope resume rest
            · exact Aspect.oblivious_throw _

end Continuation

/-- A draft is run on twin stores. -/
theorem Draft.oblivious_run {A B : Type} {related : A → B → Prop} {first : Draft A} {second : Draft B}
    (oblivious : Draft.Oblivious related first second) (twins : store.Twin other) :
    Action.Oblivious (fun result again => related result.1 again.1 ∧ result.2.Twin again.2)
      (first.run store) (second.run other) := by
  intro session copy same
  simp only [ends_run]
  refine (oblivious ⟨session, store⟩ ⟨copy, other⟩ ⟨same, twins⟩).weaken ?_ ?_
  · intro result final ends
    refine ends.weaken ?_ fun _ _ never => never
    rintro again last ⟨holds, twin, silent⟩
    exact ⟨⟨holds, twin.store⟩, twin.session, silent⟩
  · intro fault final ends
    refine ends.weaken (fun _ _ never => never) ?_
    rintro again last ⟨matched, twin, silent⟩
    exact ⟨matched, twin.session, silent⟩

/-- Binding parameters calls nothing. -/
theorem oblivious_bindParams (scope : Scope) (params : List Ident) (twins : Value.Twins values copies) :
    Draft.Oblivious (fun _ _ => True) (bindParams scope params values) (bindParams scope params copies) := by
  induction params generalizing values copies with
  | nil => exact Aspect.oblivious_pure trivial
  | cons param rest ih =>
      refine Aspect.oblivious_same Draft.oblivious_act fun address => ?_
      have parts : (values.headD .undefined).Twin (copies.headD .undefined) ∧
          Value.Twins values.tail copies.tail := by
        cases twins with
        | nil => exact ⟨.self _, .nil⟩
        | cons twin rest => exact ⟨twin, rest⟩
      refine Aspect.oblivious_bind (Draft.oblivious_extend address parts.1) ?_
      exact fun _ _ _ => ih parts.2

/-- A function that is entered enters no other one, and calls nothing. -/
theorem Closure.oblivious_enter (closure : Closure) (twins : Value.Twins values copies) (site : CallSite) :
    Draft.Oblivious State.Twin (closure.enter values site) (closure.enter copies site) := by
  refine Aspect.oblivious_same Draft.oblivious_act fun scope => ?_
  refine Aspect.oblivious_bind (oblivious_bindParams scope _ twins) fun _ _ _ => ?_
  split
  · exact Aspect.oblivious_throw _
  · refine Aspect.oblivious_bind Draft.oblivious_store fun store copy twin => ?_
    exact Draft.oblivious_lift (Continuation.oblivious_returned twin (.self _) site.pending)
  · refine Aspect.oblivious_bind Draft.oblivious_store fun store copy twin => ?_
    exact Draft.oblivious_lift (State.oblivious_resume _ scope twin site.pending)

/-- A statement that does not enter a call goes on. -/
inductive Effect.Stays : Effect → Effect → Prop where
  | operand (first second : Operand) : Stays (.operand first) (.operand second)

namespace Machine

variable (machine : Machine)

/-- An initial value comes about without a call. -/
theorem oblivious_initialValue (scope : Scope) (init : Node) :
    Draft.Oblivious Value.Twin (machine.initialValue scope init) (machine.initialValue scope init) := by
  unfold initialValue
  split
  · exact Aspect.oblivious_pure (.self _)
  · exact init.oblivious_value _ scope

/-- Declaring names without a call calls nothing. -/
theorem oblivious_declareAll (scope : Scope) (keyword : Tree) (declarators : List Node) :
    Draft.Oblivious (fun _ _ => True) (machine.declareAll scope keyword declarators)
      (machine.declareAll scope keyword declarators) := by
  induction declarators with
  | nil => exact Aspect.oblivious_pure trivial
  | cons declarator rest ih =>
      cases declarator with
      | declarator place target init =>
          rw [declareAll_cons]
          refine Aspect.oblivious_bind (machine.oblivious_initialValue scope init) fun value copy twin => ?_
          rw [twin.shown]
          refine Aspect.oblivious_same Draft.oblivious_act fun _ => ?_
          refine Aspect.oblivious_same Draft.oblivious_act fun address => ?_
          exact Aspect.oblivious_bind (Draft.oblivious_extend address twin) fun _ _ _ => ih
      | _ => exact Aspect.oblivious_throw _

section

variable (next : Control) (scope : Scope) {store other : Store} (twins : store.Twin other)
  (continuation : Continuation)
include twins

/-- A statement that enters no call goes on alike. -/
theorem oblivious_proceed {draft : Draft Effect} (oblivious : Draft.Oblivious Effect.Stays draft draft) :
    Action.Oblivious State.Twin (proceed draft next scope store continuation)
      (proceed draft next scope other continuation) := by
  refine Aspect.oblivious_bind (Draft.oblivious_run oblivious twins) ?_
  rintro ⟨effect, arrived⟩ ⟨again, last⟩ ⟨⟨first, second⟩, same⟩
  exact State.oblivious_resume next scope same continuation

/-- A choice or a loop goes the same way. -/
theorem oblivious_tested {node test : Node} (tests : node.test? = some test) :
    Action.Oblivious State.Twin (machine.stepActive node next scope store continuation)
      (machine.stepActive node next scope other continuation) := by
  rw [machine.stepActive_of_test _ _ _ _ tests, machine.stepActive_of_test _ _ _ _ tests]
  refine Aspect.oblivious_bind (Draft.oblivious_run (test.oblivious_truth _ scope) twins) ?_
  rintro ⟨truth, arrived⟩ ⟨_, last⟩ ⟨rfl, same⟩
  exact State.oblivious_resume _ scope same continuation

/-- A step of a statement that is no call calls nothing. -/
theorem oblivious_stepActive {node : Node} (calls : node.calling? = none) :
    Action.Oblivious State.Twin (machine.stepActive node next scope store continuation)
      (machine.stepActive node next scope other continuation) := by
  cases node with
  | program place body => exact State.oblivious_resume _ scope twins continuation
  | emptyStatement place => exact State.oblivious_resume _ scope twins continuation
  | block place body exit =>
      unfold stepActive
      dsimp only
      split
      · exact State.oblivious_resume next scope twins continuation
      · refine Aspect.oblivious_same Action.oblivious_self fun inner => ?_
        exact State.oblivious_resume _ inner twins _
  | scopeExit id => exact Continuation.oblivious_leftScope twins continuation
  | handlerExit id => exact Continuation.oblivious_leftHandler twins continuation
  | functionDeclaration place name params body =>
      unfold stepActive
      dsimp only
      split
      · exact Aspect.oblivious_throw _
      · refine Aspect.oblivious_same Action.oblivious_self fun address => ?_
        refine Aspect.oblivious_same Action.oblivious_self fun value => ?_
        refine Aspect.oblivious_bind (Action.oblivious_extend twins address (.self value)) ?_
        exact fun bound again same => State.oblivious_resume next scope same continuation
  | declaration place declarators keyword =>
      unfold stepActive declaration
      dsimp only
      split
      · cases calls
      · exact oblivious_proceed next scope twins continuation (Aspect.oblivious_throw _)
      · exact oblivious_proceed next scope twins continuation (Aspect.oblivious_throw _)
      · refine oblivious_proceed next scope twins continuation ?_
        refine Aspect.oblivious_bind (machine.oblivious_declareAll scope keyword declarators) ?_
        exact fun _ _ _ => Aspect.oblivious_pure (.operand _ _)
  | expressionStatement place expression =>
      unfold stepActive
      dsimp only
      rw [Node.evaluateStatement]
      · refine oblivious_proceed next scope twins continuation ?_
        refine Aspect.oblivious_bind (expression.oblivious_evaluate machine.invertedTruth scope) ?_
        exact fun _ _ _ => Aspect.oblivious_pure (.operand _ _)
      · rintro callPlace callee arguments rfl
        cases calls
      · rintro inner left callPlace callee arguments rfl
        cases calls
  | ifStatement | whileStatement => exact machine.oblivious_tested next scope twins continuation rfl
  | returnStatement place argument =>
      rw [stepActive_returnStatement, stepActive_returnStatement]
      refine Aspect.oblivious_bind (Draft.oblivious_run (machine.oblivious_initialValue scope _) twins) ?_
      exact fun result again same => Continuation.oblivious_returned same.2 same.1 continuation
  | throwStatement place argument =>
      refine Aspect.oblivious_bind (Draft.oblivious_run (argument.oblivious_value _ scope) twins) ?_
      exact fun result again same => Continuation.oblivious_thrown same.2 same.1 continuation
  | tryStatement place guarded handler others exit =>
      unfold stepActive
      dsimp only
      split
      · exact Aspect.oblivious_throw _
      · exact State.oblivious_resume next scope twins continuation
      · refine Aspect.oblivious_same Action.oblivious_self fun inner => ?_
        exact State.oblivious_resume _ inner twins _
  | _ => exact Aspect.oblivious_throw _

end

end Machine

end ScriptMachine

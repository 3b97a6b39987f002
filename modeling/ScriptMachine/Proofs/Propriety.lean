/-
This file says what well-formed expressions come to. A program comes by no values but data, its own
functions and the built-in ones. Main statement: evaluating a well-formed expression in a store of such
values leaves such values behind, or fails in one of a few ways.
-/

import ScriptMachine.Proofs.Primitive
import ScriptMachine.Proofs.Refusal
import ScriptMachine.Proofs.Stack

namespace ScriptMachine

/-- The routines of the built-in functions that a program starts with. -/
def Routine.isOwn : Routine → Bool
  | .print | .ownPropertyTest | .describe => true
  | .answer _ | .answerData _ => false

/-- Values that a program can come by: its own functions and the built-in ones, and no references. -/
def Value.Proper (program : Node) : Value → Prop
  | .function closure => closure.code.Belongs program
  | .builtin _ _ _ routine => routine.isOwn = true
  | .reference .. => False
  | _ => True

/-- A store that holds proper values only. -/
def Store.Proper (program : Node) (store : Store) : Prop :=
  ∀ address, (store.get address).Proper program

/-- What an expression denotes is an address or a proper value. -/
def Operand.Proper (program : Node) : Operand → Prop
  | .location _ => True
  | .value held => held.Proper program

/-- Work that ends with a good result, or fails as a well-formed program may. -/
def Safe {S A : Type} (plain : Bool) (start : S) (work : EStateM Fault S A) (good : A → S → Prop) : Prop :=
  Ends work start good fun fault _ => fault.permitted plain = true

/-- A safe draft that leaves a proper store behind. -/
def Draft.Keeps (program : Node) (plain : Bool) {A : Type} (scratch : Scratch) (work : Draft A)
    (good : A → Prop) : Prop :=
  Safe plain scratch work fun result final => final.store.Proper program ∧ good result

variable {program : Node} {plain : Bool}

/-- Data are proper values. -/
theorem Value.proper_of_isPlain {value : Value} (isPlain : value.isPlain = true) : value.Proper program := by
  cases value <;> simp_all [Value.isPlain, Value.Proper]

/-- A store that binds a further proper value is proper. -/
theorem Store.Proper.extend {store next : Store} {address : Address} {value : Value}
    (proper : store.Proper program) (good : value.Proper program)
    (extended : store.extend address value = .ok next) : next.Proper program := by
  intro other
  rw [Store.get_extend extended]
  split
  · exact good
  · exact proper other

/-- Safe work may be followed by safe work. -/
theorem Safe.bind {S A B : Type} {start : S} {first : EStateM Fault S B} {second : B → EStateM Fault S A}
    {middle : B → S → Prop} {good : A → S → Prop} (begins : Safe plain start first middle)
    (continues : ∀ result next, middle result next → Safe plain next (second result) good) :
    Safe plain start (first >>= second) good := by
  unfold Safe
  rw [ends_bind]
  exact begins.weaken continues fun _ _ permitted => permitted

section

variable {session : Session} {scope : Scope} {name : Name}

/-- A name that fits is resolved or is not bound. -/
theorem safe_resolve (fits : name.fits plain = true) :
    Safe plain session (scope.resolve name) fun _ _ => True := by
  unfold Safe
  rw [ends_resolve]
  cases named : name.key with
  | error fault => exact Name.permitted_of_fits fits named
  | ok key => cases found : session.resolve? scope key <;> simp [found, Fault.permitted]

/-- A name that fits can be bound. -/
theorem safe_declare (fits : name.fits plain = true) :
    Safe plain session (scope.declare name) fun _ _ => True := by
  unfold Safe
  rw [ends_declare]
  cases named : name.key with
  | error fault => exact Name.permitted_of_fits fits named
  | ok key => trivial

end

namespace Draft

variable {A : Type} {good : A → Prop} {scratch : Scratch}

section

variable (proper : scratch.store.Proper program)
include proper

/-- An action inside a draft leaves the private store alone. -/
theorem keeps_action {action : Action A} (safe : Safe plain scratch.session action fun result _ => good result) :
    Keeps program plain scratch (liftM action) good := by
  unfold Keeps Safe
  rw [ends_liftAction]
  exact safe.weaken (fun _ _ inOrder => ⟨proper, inOrder⟩) fun _ _ permitted => permitted

theorem keeps_note (topic : Topic) (message : Session → String) :
    Keeps program plain scratch (liftM (Action.note topic message)) fun _ => True :=
  keeps_action proper ((ends_note topic message).mpr trivial)

/-- What is computed without a session may only be refused as it may. -/
theorem keeps_outcome {outcome : Except Fault A}
    (refused : ∀ fault, outcome = .error fault → fault.permitted plain = true)
    (inOrder : ∀ result, outcome = .ok result → good result) :
    Keeps program plain scratch (liftM outcome) good := by
  unfold Keeps Safe
  rw [ends_liftExcept]
  cases outcome with
  | error fault => exact refused fault rfl
  | ok result => exact ⟨proper, inOrder result rfl⟩

/-- Conversions and operators are refused at worst. -/
theorem keeps_orderly {outcome : Except Fault A} (orderly : Orderly good outcome) :
    Keeps program plain scratch (liftM outcome) good :=
  keeps_outcome proper (orderly.permitted plain) orderly.of_ok

variable {value : Value} {operand : Operand}

/-- Any address but the one of null can be written to. -/
theorem keeps_extend {address : Address} (good : value.Proper program) :
    Keeps program plain scratch (Draft.extend address value) fun _ => True := by
  unfold Keeps Safe
  rw [ends_extend]
  cases extended : scratch.store.extend address value with
  | error fault => exact Store.permitted_of_extend extended
  | ok next => exact ⟨proper.extend good extended, trivial⟩

/-- Reading a proper operand gives a proper value. -/
theorem keeps_read (denotes : operand.Proper program) :
    Keeps program plain scratch operand.read (Value.Proper program) := by
  cases operand with
  | location address => exact ⟨proper, proper address⟩
  | value value =>
      cases value with
      | reference identity address => exact absurd denotes id
      | _ => exact ⟨proper, denotes⟩

/-- Writing a proper value keeps the store proper. -/
theorem keeps_write (denotes : operand.Proper program) (good : value.Proper program) :
    Keeps program plain scratch (operand.write value) fun _ => True := by
  cases operand with
  | location address => exact keeps_extend proper good
  | value held =>
      cases held with
      | reference identity address => exact absurd denotes id
      | _ => exact rfl

/-- A property may be made by looking for it. -/
theorem keeps_select {object : Object} (selector : Value) :
    Keeps program plain scratch (object.select selector) (Operand.Proper program) := by
  refine Safe.bind (keeps_orderly proper selector.toPrimitive_orderly) ?_
  rintro primitive next ⟨kept, -⟩
  refine Safe.bind (keeps_orderly kept primitive.toText_orderly) ?_
  rintro text last ⟨keeps, -⟩
  unfold Safe
  simp only [ends_bind, ends_liftAction, ends_locate, Name.key_ofText, ends_pure]
  exact ⟨keeps, trivial⟩

/-- Operators keep their operands company only in the journal. -/
theorem keeps_perform {operator : BinaryOperator} {left right : Value} :
    Keeps program plain scratch (operator.perform left right) (Operand.Proper program) := by
  have applied : ∀ {scratch : Scratch}, scratch.store.Proper program → Keeps program plain scratch
      (do return Operand.value (← operator.apply left right) : Draft Operand) (Operand.Proper program) := by
    intro scratch proper
    refine Safe.bind (keeps_orderly proper (operator.apply_orderly left right)) ?_
    rintro value next ⟨kept, isPlain⟩
    exact ⟨kept, Value.proper_of_isPlain isPlain⟩
  unfold BinaryOperator.perform
  dsimp only
  split
  · refine Safe.bind (keeps_note proper _ _) ?_
    rintro _ next ⟨kept, -⟩
    exact applied kept
  · exact applied proper

/-- A new object has the prototype that its scope sees. -/
theorem keeps_create {scope : Scope} {onward : Object → Draft A}
    (continues : ∀ object next, next.store.Proper program → Keeps program plain next (onward object) good) :
    Keeps program plain scratch (do
      let proto ← scope.resolve Globals.objectPrototype
      let object ← Object.create proto (← Draft.store) Session.machineAllocator
      onward object) good := by
  refine Safe.bind (keeps_action proper (safe_resolve (by cases plain <;> rfl))) ?_
  rintro proto next ⟨kept, -⟩
  unfold Safe
  simp only [ends_bind, ends_store, ends_liftAction, ends_create]
  exact continues _ _ kept

end

section

variable {node : Node} {inverted : Bool} {scope : Scope}
  (evaluates : Keeps program plain scratch (node.evaluate inverted scope) (Operand.Proper program))
include evaluates

theorem keeps_reading : Keeps program plain scratch (node.value inverted scope) (Value.Proper program) :=
  Safe.bind evaluates fun _ _ kept => keeps_read kept.1 kept.2

theorem keeps_testing : Keeps program plain scratch (node.truth inverted scope) fun _ => True :=
  Safe.bind (keeps_reading evaluates) fun value _ kept => keeps_orderly kept.1 (value.toBoolean_orderly inverted)

end

mutual
/-- Evaluating a well-formed expression gives an address or a proper value. -/
theorem keeps_evaluate (inverted : Bool) {scope : Scope} (node : Node) (formed : node.isExpression plain = true)
    (belongs : ∀ code ∈ node.codes, code.Belongs program) {scratch : Scratch}
    (proper : scratch.store.Proper program) :
    Keeps program plain scratch (node.evaluate inverted scope) (Operand.Proper program) := by
  cases node with
  | identifier ident =>
      rw [Node.evaluate]
      have fits : ident.name.fits plain = true := by simpa [Node.isExpression, Ident.fits] using formed
      exact Safe.bind (keeps_action proper (safe_resolve fits)) fun _ _ kept => ⟨kept.1, trivial⟩
  | literal place value =>
      rw [Node.evaluate]
      have denotes : (!plain || value.denotes) = true := by simpa [Node.isExpression] using formed
      refine Safe.bind (keeps_outcome proper (fun _ => Tree.permitted_of_literal denotes)
        fun _ => Tree.isPlain_of_literal) ?_
      rintro literal next ⟨kept, isPlain⟩
      exact ⟨kept, Value.proper_of_isPlain isPlain⟩
  | functionExpression place name params body =>
      rw [Node.evaluate]
      have belonging := belongs (.ofExpression place name params body) (by simp [Node.codes])
      exact ⟨proper, belonging⟩
  | object place properties =>
      rw [Node.evaluate]
      refine keeps_create proper fun object next kept => ?_
      refine Safe.bind (keeps_evaluateProperties inverted object properties
        (by simpa [Node.isExpression] using formed) (by simpa [Node.codes] using belongs) kept) ?_
      rintro _ last ⟨keeps, -⟩
      exact ⟨keeps, trivial⟩
  | member place holder selector computed =>
      rw [Node.evaluate_member]
      simp only [Node.isExpression, Bool.and_eq_true] at formed
      simp only [Node.codes, List.forall_mem_append] at belongs
      refine Safe.bind (keeps_reading (keeps_evaluate inverted holder formed.1 belongs.1 proper)) ?_
      rintro held next ⟨kept, -⟩
      cases held with
      | object found =>
          refine Safe.bind (keeps_reading (keeps_evaluate inverted selector formed.2 belongs.2 kept)) ?_
          rintro selected last ⟨keeps, -⟩
          exact keeps_select keeps selected
      | _ => exact rfl
  | binary place operator left right =>
      rw [Node.evaluate_binary]
      simp only [Node.isExpression, Bool.and_eq_true] at formed
      simp only [Node.codes, List.forall_mem_append] at belongs
      refine Safe.bind (keeps_reading (keeps_evaluate inverted left formed.1 belongs.1 proper)) ?_
      rintro leftValue next ⟨kept, -⟩
      refine Safe.bind (keeps_reading (keeps_evaluate inverted right formed.2 belongs.2 kept)) ?_
      rintro rightValue last ⟨keeps, -⟩
      exact keeps_perform keeps
  | unary place operator argument =>
      rw [Node.evaluate_unary]
      simp only [Node.isExpression] at formed
      simp only [Node.codes] at belongs
      refine Safe.bind (keeps_reading (keeps_evaluate inverted argument formed belongs proper)) ?_
      rintro value next ⟨kept, -⟩
      refine Safe.bind (keeps_orderly kept (operator.apply_orderly inverted value)) ?_
      rintro result last ⟨keeps, isPlain⟩
      exact ⟨keeps, Value.proper_of_isPlain isPlain⟩
  | logical place operator left right =>
      rw [Node.evaluate_logical]
      simp only [Node.isExpression, Bool.and_eq_true] at formed
      simp only [Node.codes, List.forall_mem_append] at belongs
      refine Safe.bind (keeps_testing (keeps_evaluate inverted left formed.1 belongs.1 proper)) ?_
      rintro _ next ⟨kept, -⟩
      exact Safe.bind (keeps_testing (keeps_evaluate inverted right formed.2 belongs.2 kept)) fun _ _ _ => rfl
  | assignment place operator left right =>
      cases operator with
      | other written =>
          rw [Node.evaluate]
          exact rfl
      | assign =>
          rw [Node.evaluate_assignment]
          simp only [Node.isExpression, Bool.and_eq_true] at formed
          simp only [Node.codes, List.forall_mem_append] at belongs
          refine Safe.bind (keeps_evaluate inverted left formed.1 belongs.1 proper) ?_
          rintro target next ⟨kept, denotes⟩
          refine Safe.bind (keeps_reading (keeps_evaluate inverted right formed.2 belongs.2 kept)) ?_
          rintro value last ⟨keeps, good⟩
          exact Safe.bind (keeps_write keeps denotes good) fun _ _ stays => ⟨stays.1, good⟩
  | call | array =>
      rw [Node.evaluate]
      · exact rfl
      all_goals simp
  | _ => simp [Node.isExpression] at formed

/-- Filling in the properties keeps the store proper. -/
theorem keeps_evaluateProperties (inverted : Bool) {scope : Scope} (object : Object) (properties : List Node)
    (formed : Node.areProperties plain properties = true)
    (belongs : ∀ code ∈ Node.codesOf properties, code.Belongs program) {scratch : Scratch}
    (proper : scratch.store.Proper program) :
    Keeps program plain scratch (Node.evaluateProperties inverted scope object properties) fun _ => True := by
  match properties with
  | [] =>
      rw [Node.evaluateProperties]
      exact ⟨proper, trivial⟩
  | .property _ key value :: rest =>
      rw [Node.evaluateProperties_cons]
      simp only [Node.areProperties, Bool.and_eq_true] at formed
      simp only [Node.codesOf, Node.codes, List.forall_mem_append] at belongs
      refine Safe.bind (keeps_reading (keeps_evaluate inverted value formed.1.2 belongs.1 proper)) ?_
      rintro held next ⟨kept, good⟩
      refine Safe.bind (keeps_action kept (safe_declare formed.1.1)) ?_
      rintro address last ⟨keeps, -⟩
      refine Safe.bind (keeps_extend keeps good) ?_
      rintro _ final ⟨stays, -⟩
      exact keeps_evaluateProperties inverted object rest formed.2 belongs.2 stays
end

end Draft

end ScriptMachine

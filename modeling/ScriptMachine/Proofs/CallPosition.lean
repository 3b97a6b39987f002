/-
This file says where calls are made. Evaluation goes from an expression on to its parts, and stops at the
first call that it comes to. Main statement: an expression calls nothing, and a step makes at most the one
call that its statement stands for.
-/

import ScriptMachine.Proofs.Keys
import ScriptMachine.Proofs.Oblivious

namespace ScriptMachine

/-- Evaluation of an expression goes on to a part of it, once everything before the part is evaluated. -/
inductive Node.Turns (inverted : Bool) (scope : Scope) : Node → Scratch → Node → Scratch → Prop where
  | holder (place : Place) (holder selector : Node) (computed : Bool) (start : Scratch) :
      Turns inverted scope (.member place holder selector computed) start holder start
  | selector (place : Place) {holder : Node} (selector : Node) (computed : Bool) {found : Object}
      {start middle : Scratch} (held : holder.value inverted scope start = .ok (.object found) middle) :
      Turns inverted scope (.member place holder selector computed) start selector middle
  | left (place : Place) (operator : BinaryOperator) (left right : Node) (start : Scratch) :
      Turns inverted scope (.binary place operator left right) start left start
  | right (place : Place) (operator : BinaryOperator) {left : Node} (right : Node) {value : Value}
      {start middle : Scratch} (held : left.value inverted scope start = .ok value middle) :
      Turns inverted scope (.binary place operator left right) start right middle
  | argument (place : Place) (operator : UnaryOperator) (argument : Node) (start : Scratch) :
      Turns inverted scope (.unary place operator argument) start argument start
  | either (place : Place) (operator : Tree) (left right : Node) (start : Scratch) :
      Turns inverted scope (.logical place operator left right) start left start
  | other (place : Place) (operator : Tree) {left : Node} (right : Node) {truth : Bool}
      {start middle : Scratch} (held : left.truth inverted scope start = .ok truth middle) :
      Turns inverted scope (.logical place operator left right) start right middle
  | target (place : Place) (left right : Node) (start : Scratch) :
      Turns inverted scope (.assignment place .assign left right) start left start
  | assigned (place : Place) {left : Node} (right : Node) {operand : Operand} {start middle : Scratch}
      (evaluated : left.evaluate inverted scope start = .ok operand middle) :
      Turns inverted scope (.assignment place .assign left right) start right middle
  | property (place inner : Place) (key : Name) (value : Node) {before after : List Node} {object : Object}
      {start created middle : Scratch} (begun : scope.beginObject start = .ok object created)
      (filled : Node.evaluateProperties inverted scope object before created = .ok () middle) :
      Turns inverted scope (.object place (before ++ .property inner key value :: after)) start value middle

/-- Evaluation of an expression comes to another one inside it, at any depth. -/
inductive Node.Reaches (inverted : Bool) (scope : Scope) : Node → Scratch → Node → Scratch → Prop where
  | self (node : Node) (start : Scratch) : Reaches inverted scope node start node start
  | part {node part last : Node} {start middle moment : Scratch}
      (turns : node.Turns inverted scope start part middle)
      (onward : Reaches inverted scope part middle last moment) :
      Reaches inverted scope node start last moment

namespace Node

section

variable {inverted : Bool} {scope : Scope} {start middle final : Scratch} {node : Node} {fault : Fault}

/-- Properties that are all bound leave the rest of them to be bound. -/
theorem evaluateProperties_append {object : Object} {before : List Node} (after : List Node)
    (filled : Node.evaluateProperties inverted scope object before start = .ok () middle) :
    Node.evaluateProperties inverted scope object (before ++ after) start =
      Node.evaluateProperties inverted scope object after middle := by
  induction before generalizing start with
  | nil =>
      cases filled
      rfl
  | cons node rest ih =>
      by_cases property : ∃ place key value, node = .property place key value
      · obtain ⟨place, key, value, rfl⟩ := property
        rw [evaluateProperties_cons] at filled
        obtain ⟨held, arrived, valued, bound⟩ := exists_of_bind filled
        obtain ⟨address, declared, declares, extends_⟩ := exists_of_bind bound
        obtain ⟨_, extended, written, rest⟩ := exists_of_bind extends_
        rw [List.cons_append, evaluateProperties_cons, bind_of_ok valued, bind_of_ok declares,
          bind_of_ok written, ih rest]
      · obtain ⟨fault, refused⟩ := exists_evaluateProperties_eq_throw inverted
          (fun place key value same => property ⟨place, key, value, same⟩) rest
        rw [refused] at filled
        cases filled

/-- A part that fails makes the whole fail. -/
theorem Turns.evaluate_of_error {part : Node} (turns : node.Turns inverted scope start part middle)
    (failed : part.evaluate inverted scope middle = .error fault final) :
    node.evaluate inverted scope start = .error fault final := by
  have unread : part.value inverted scope middle = .error fault final := bind_of_error failed
  have undecided : part.truth inverted scope middle = .error fault final := bind_of_error unread
  cases turns with
  | holder => rw [evaluate_member, bind_of_error unread]
  | selector _ _ _ held =>
      rw [evaluate_member, bind_of_ok held]
      exact bind_of_error unread
  | left => rw [evaluate_binary, bind_of_error unread]
  | right _ _ _ held => rw [evaluate_binary, bind_of_ok held, bind_of_error unread]
  | argument => rw [evaluate_unary, bind_of_error unread]
  | either => rw [evaluate_logical, bind_of_error undecided]
  | other _ _ _ held => rw [evaluate_logical, bind_of_ok held, bind_of_error undecided]
  | target => rw [evaluate_assignment, bind_of_error failed]
  | assigned _ _ evaluated => rw [evaluate_assignment, bind_of_ok evaluated, bind_of_error unread]
  | property _ _ _ _ begun filled =>
      rw [evaluate_object, bind_of_ok begun]
      refine bind_of_error ?_
      rw [evaluateProperties_append _ filled, evaluateProperties_cons, bind_of_error unread]

/-- Whatever is reached and fails makes the whole fail. -/
theorem Reaches.evaluate_of_error {last : Node} {moment : Scratch}
    (reaches : node.Reaches inverted scope start last moment)
    (failed : last.evaluate inverted scope moment = .error fault final) :
    node.evaluate inverted scope start = .error fault final := by
  induction reaches with
  | self => exact failed
  | part turns _ ih => exact turns.evaluate_of_error (ih failed)

end

end Node

/-- A bad name is not blamed on a call. -/
theorem Name.ne_of_key (name : Name) {fault : Fault} (refused : name.key = .error fault) :
    fault ≠ .mistyped .callInExpression := by
  unfold Name.key at refused
  split at refused <;> cases refused <;> exact Fault.noConfusion

/-- Work that fails, if at all, for another reason than a call. -/
def Draft.Innocent {A : Type} (draft : Draft A) : Prop :=
  ∀ start, Ends draft start (fun _ _ => True) fun fault _ => fault ≠ .mistyped .callInExpression

namespace Draft

variable {A B : Type}

/-- A result that is there blames no call. -/
theorem innocent_pure (result : A) : Draft.Innocent (pure result) := fun _ => trivial

/-- Work in two parts blames no call if neither part does. -/
theorem Innocent.bind {first : Draft B} {second : B → Draft A} (begins : first.Innocent)
    (goesOn : ∀ value, (second value).Innocent) : (first >>= second).Innocent := by
  intro start
  rw [ends_bind]
  exact (begins start).weaken (fun value middle _ => goesOn value middle) fun _ _ different => different

/-- Conversions blame no call. -/
theorem innocent_outcome {good : A → Prop} {outcome : Except Fault A} (orderly : Orderly good outcome) :
    Draft.Innocent (liftM outcome) := by
  intro start
  rw [ends_liftExcept]
  cases outcome with
  | ok result => trivial
  | error fault =>
      obtain ⟨cause, rfl⟩ := orderly
      exact Fault.noConfusion

/-- Literals blame no call. -/
theorem innocent_literal (tree : Tree) : Draft.Innocent (liftM tree.literal) := by
  intro start
  rw [ends_liftExcept]
  cases tree with
  | int value =>
      unfold Tree.literal numberOfInt
      dsimp only
      by_cases infinite : (Float.ofScientific value.natAbs false 0).isInf = true
      · rw [if_pos infinite]
        exact Fault.noConfusion
      · rw [if_neg infinite]
        trivial
  | _ => simp [Tree.literal]

/-- Making a function blames no call. -/
theorem innocent_close (code : Code) (scope : Scope) : Draft.Innocent (liftM (code.close scope)) :=
  fun _ => trivial

/-- Looking up a name blames no call. -/
theorem innocent_resolve (scope : Scope) (name : Name) : Draft.Innocent (liftM (scope.resolve name)) := by
  intro start
  rw [ends_liftAction, ends_resolve]
  cases named : name.key with
  | error fault => exact name.ne_of_key named
  | ok key => cases found : start.session.resolve? scope key <;> simp [found]

/-- Declaring a name blames no call. -/
theorem innocent_declare (scope : Scope) (name : Name) : Draft.Innocent (liftM (scope.declare name)) := by
  intro start
  rw [ends_liftAction, ends_declare]
  cases named : name.key with
  | error fault => exact name.ne_of_key named
  | ok key => trivial

/-- Looking for a property blames no call. -/
theorem innocent_locate (object : Object) (name : Name) :
    Draft.Innocent (liftM (object.locate name)) := by
  intro start
  rw [ends_liftAction, ends_locate]
  cases named : name.key with
  | error fault => exact name.ne_of_key named
  | ok key => trivial

/-- Writing blames no call. -/
theorem innocent_extend (address : Address) (value : Value) :
    Draft.Innocent (Draft.extend address value) := by
  intro start
  rw [ends_extend]
  by_cases null : address = 0
  · subst null
    exact Fault.noConfusion
  · rw [Store.extend_of_ne null]
    trivial

/-- Assigning blames no call. -/
theorem innocent_write (operand : Operand) (value : Value) : (operand.write value).Innocent := by
  unfold Operand.write
  split
  · exact innocent_extend _ value
  · exact fun _ => Fault.noConfusion

/-- Selecting a property blames no call. -/
theorem innocent_select (object : Object) (selector : Value) : (object.select selector).Innocent := by
  refine (innocent_outcome selector.toPrimitive_orderly).bind fun primitive => ?_
  refine (innocent_outcome primitive.toText_orderly).bind fun text => ?_
  exact (innocent_locate object _).bind fun address => innocent_pure _

/-- Operators blame no call. -/
theorem innocent_perform (operator : BinaryOperator) (left right : Value) :
    (operator.perform left right).Innocent := by
  have applied : Draft.Innocent (do return Operand.value (← operator.apply left right)) :=
    (innocent_outcome (operator.apply_orderly left right)).bind fun _ => innocent_pure _
  unfold BinaryOperator.perform
  dsimp only
  split
  · exact Innocent.bind (fun _ => trivial) fun _ => applied
  · exact applied

/-- Beginning an object blames no call. -/
theorem innocent_beginObject (scope : Scope) : scope.beginObject.Innocent := by
  refine (innocent_resolve scope _).bind fun proto => ?_
  refine Innocent.bind (fun _ => trivial) fun store start => ?_
  rw [ends_liftAction, ends_create]
  trivial

/-- What is no property is refused for what it is. -/
theorem innocent_evaluateProperties (inverted : Bool) (scope : Scope) (object : Object) {node : Node}
    (notProperty : ∀ place key value, node ≠ .property place key value) (rest : List Node) :
    (Node.evaluateProperties inverted scope object (node :: rest)).Innocent := by
  intro start
  rw [Node.evaluateProperties.eq_def]
  split
  · rename_i impossible
    cases impossible
  · rename_i same
    cases same
    exact absurd rfl (notProperty _ _ _)
  · split <;> exact Fault.noConfusion
  · exact Fault.noConfusion

end Draft

namespace Node

/-- A call has been reached, if that is the fault. -/
def Blames (inverted : Bool) (scope : Scope) (node : Node) (start : Scratch) (fault : Fault)
    (final : Scratch) : Prop :=
  fault = .mistyped .callInExpression →
    ∃ place callee arguments, node.Reaches inverted scope start (.call place callee arguments) final

section

variable {inverted : Bool} {scope : Scope} {node part : Node} {start middle : Scratch} {A : Type}

/-- What a part is to blame for, the whole is. -/
theorem Turns.ends_bind (turns : node.Turns inverted scope start part middle) {onward : Operand → Draft A}
    (blamed : Ends (part.evaluate inverted scope) middle (fun _ _ => True) (part.Blames inverted scope middle))
    (goesOn : ∀ operand after, part.evaluate inverted scope middle = .ok operand after →
      Ends (onward operand) after (fun _ _ => True) (node.Blames inverted scope start)) :
    Ends (part.evaluate inverted scope >>= onward) middle (fun _ _ => True)
      (node.Blames inverted scope start) := by
  rw [ScriptMachine.ends_bind]
  refine Ends.intro goesOn fun fault final failed called => ?_
  obtain ⟨place, callee, arguments, reaches⟩ := blamed.of_error failed called
  exact ⟨place, callee, arguments, .part turns reaches⟩

/-- A part whose turn it is carries its blame to the whole. -/
theorem Turns.ends_value (turns : node.Turns inverted scope start part middle) {onward : Value → Draft A}
    (blamed : Ends (part.evaluate inverted scope) middle (fun _ _ => True) (part.Blames inverted scope middle))
    (goesOn : ∀ value after, part.value inverted scope middle = .ok value after →
      Ends (onward value) after (fun _ _ => True) (node.Blames inverted scope start)) :
    Ends (part.value inverted scope >>= onward) middle (fun _ _ => True)
      (node.Blames inverted scope start) := by
  unfold Node.value
  rw [bind_assoc]
  refine turns.ends_bind blamed fun operand after evaluated => ?_
  rw [ScriptMachine.ends_bind, ends_read]
  exact goesOn _ after (bind_of_ok evaluated)

/-- Innocent work blames nothing. -/
theorem ends_of_innocent {draft : Draft A} (innocent : draft.Innocent) (moment : Scratch) :
    Ends draft moment (fun _ _ => True) (node.Blames inverted scope start) :=
  (innocent moment).weaken (fun _ _ _ => trivial) fun _ _ different called => (different called).elim

/-- Innocent work carries no blame to what follows. -/
theorem ends_bind_of_innocent {B : Type} {first : Draft B} {second : B → Draft A} {moment : Scratch}
    (innocent : first.Innocent)
    (goesOn : ∀ value after, first moment = .ok value after →
      Ends (second value) after (fun _ _ => True) (node.Blames inverted scope start)) :
    Ends (first >>= second) moment (fun _ _ => True) (node.Blames inverted scope start) := by
  rw [ScriptMachine.ends_bind]
  exact Ends.intro goesOn fun fault final failed => (ends_of_innocent innocent moment).of_error failed

/-- A test whose turn it is carries its blame to the whole. -/
theorem Turns.ends_truth (turns : node.Turns inverted scope start part middle) {onward : Bool → Draft A}
    (blamed : Ends (part.evaluate inverted scope) middle (fun _ _ => True) (part.Blames inverted scope middle))
    (goesOn : ∀ truth after, part.truth inverted scope middle = .ok truth after →
      Ends (onward truth) after (fun _ _ => True) (node.Blames inverted scope start)) :
    Ends (part.truth inverted scope >>= onward) middle (fun _ _ => True)
      (node.Blames inverted scope start) := by
  unfold Node.truth
  rw [bind_assoc]
  refine turns.ends_value blamed fun value arrived valued => ?_
  refine ends_bind_of_innocent (Draft.innocent_outcome (value.toBoolean_orderly inverted)) ?_
  intro truth after decided
  exact goesOn truth after ((bind_of_ok valued).trans decided)

end

mutual
/-- Evaluation complains of a call only where it comes to one. -/
theorem blames_of_evaluate (inverted : Bool) (scope : Scope) (node : Node) (start : Scratch) :
    Ends (node.evaluate inverted scope) start (fun _ _ => True) (node.Blames inverted scope start) := by
  cases node with
  | identifier ident =>
      rw [Node.evaluate]
      exact ends_of_innocent ((Draft.innocent_resolve scope _).bind fun _ => Draft.innocent_pure _) start
  | literal place value =>
      rw [Node.evaluate]
      exact ends_of_innocent ((Draft.innocent_literal value).bind fun _ => Draft.innocent_pure _) start
  | functionExpression place name params body =>
      rw [Node.evaluate]
      exact ends_of_innocent ((Draft.innocent_close _ scope).bind fun _ => Draft.innocent_pure _) start
  | object place properties =>
      rw [evaluate_object]
      refine ends_bind_of_innocent (Draft.innocent_beginObject scope) fun object created begun => ?_
      rw [ScriptMachine.ends_bind]
      exact blames_of_evaluateProperties inverted scope place [] properties begun rfl
  | member place holder selector computed =>
      rw [evaluate_member]
      refine (Turns.holder place holder selector computed start).ends_value
        (blames_of_evaluate inverted scope holder start) fun held middle valued => ?_
      cases held with
      | object found =>
          refine (Turns.selector place selector computed valued).ends_value
            (blames_of_evaluate inverted scope selector middle) fun selected after _ => ?_
          exact ends_of_innocent (Draft.innocent_select found selected) after
      | _ => exact fun called => Fault.noConfusion called Mistyped.noConfusion
  | binary place operator left right =>
      rw [evaluate_binary]
      refine (Turns.left place operator left right start).ends_value
        (blames_of_evaluate inverted scope left start) fun leftValue middle valued => ?_
      refine (Turns.right place operator right valued).ends_value
        (blames_of_evaluate inverted scope right middle) fun rightValue after _ => ?_
      exact ends_of_innocent (Draft.innocent_perform operator leftValue rightValue) after
  | unary place operator argument =>
      rw [evaluate_unary]
      refine (Turns.argument place operator argument start).ends_value
        (blames_of_evaluate inverted scope argument start) fun value middle _ => ?_
      exact ends_of_innocent ((Draft.innocent_outcome (operator.apply_orderly inverted value)).bind
        fun _ => Draft.innocent_pure _) middle
  | logical place operator left right =>
      rw [evaluate_logical]
      refine (Turns.either place operator left right start).ends_truth
        (blames_of_evaluate inverted scope left start) fun _ middle decided => ?_
      refine (Turns.other place operator right decided).ends_truth
        (blames_of_evaluate inverted scope right middle) fun _ after _ => ?_
      exact fun called => Fault.noConfusion called
  | assignment place operator left right =>
      cases operator with
      | other written =>
          rw [Node.evaluate]
          exact fun called => Fault.noConfusion called
      | assign =>
          rw [evaluate_assignment]
          refine (Turns.target place left right start).ends_bind
            (blames_of_evaluate inverted scope left start) fun target middle evaluated => ?_
          refine (Turns.assigned place right evaluated).ends_value
            (blames_of_evaluate inverted scope right middle) fun value after _ => ?_
          exact ends_of_innocent ((Draft.innocent_write target value).bind fun _ => Draft.innocent_pure _) after
  | call place callee arguments =>
      rw [Node.evaluate]
      exact fun _ => ⟨place, callee, arguments, .self _ start⟩
  | _ =>
      rw [Node.evaluate]
      · exact fun called => Fault.noConfusion called
      all_goals simp

/-- The properties before are bound, and the rest of them are to follow. -/
theorem blames_of_evaluateProperties (inverted : Bool) (scope : Scope) (place : Place)
    (before rest : List Node) {object : Object} {start created moment : Scratch}
    (begun : scope.beginObject start = .ok object created)
    (filled : Node.evaluateProperties inverted scope object before created = .ok () moment) :
    Ends (Node.evaluateProperties inverted scope object rest) moment (fun _ _ => True)
      ((Node.object place (before ++ rest)).Blames inverted scope start) := by
  match rest with
  | [] => exact trivial
  | other :: others =>
      by_cases property : ∃ inner key value, other = .property inner key value
      · obtain ⟨inner, key, value, rfl⟩ := property
        rw [evaluateProperties_cons]
        refine (Turns.property place inner key value begun filled).ends_value
          (blames_of_evaluate inverted scope value moment) fun held arrived valued => ?_
        refine ends_bind_of_innocent (Draft.innocent_declare _ key) fun address declared declares => ?_
        refine ends_bind_of_innocent (Draft.innocent_extend address held) fun _ final written => ?_
        have further : Node.evaluateProperties inverted scope object (before ++ [.property inner key value])
            created = .ok () final := by
          rw [evaluateProperties_append _ filled, evaluateProperties_cons, bind_of_ok valued,
            bind_of_ok declares, bind_of_ok written]
          rfl
        rw [List.append_cons]
        exact blames_of_evaluateProperties inverted scope place _ others begun further
      · exact ends_of_innocent (Draft.innocent_evaluateProperties inverted scope object
          (fun inner key value same => property ⟨inner, key, value, same⟩) others) moment
end

end Node

/-- A call anywhere inside an expression is never made: evaluation stops where it comes to the call. -/
theorem Node.reaches_call_iff (inverted : Bool) (scope : Scope) (node : Node) (start moment : Scratch) :
    (∃ place callee arguments, node.Reaches inverted scope start (.call place callee arguments) moment) ↔
      node.evaluate inverted scope start = .error (.mistyped .callInExpression) moment := by
  constructor
  · rintro ⟨place, callee, arguments, reaches⟩
    exact reaches.evaluate_of_error (by rw [Node.evaluate]; rfl)
  · exact fun failed => (blames_of_evaluate inverted scope node start).of_error failed rfl

/-- Arguments get their values one after the other. -/
inductive Node.Valued (inverted : Bool) (scope : Scope) :
    List Node → Scratch → List Value → Scratch → Prop where
  | nil (start : Scratch) : Valued inverted scope [] start [] start
  | cons {argument : Node} {rest : List Node} {value : Value} {values : List Value}
      {start middle final : Scratch} (evaluated : argument.value inverted scope start = .ok value middle)
      (others : Valued inverted scope rest middle values final) :
      Valued inverted scope (argument :: rest) start (value :: values) final

section

variable {inverted : Bool} {scope : Scope} {arguments : List Node} {start final : Scratch}

/-- Arguments that have values were evaluated in turn. -/
theorem Node.valued_of_values {values : List Value}
    (ended : Node.values inverted scope arguments start = .ok values final) :
    Node.Valued inverted scope arguments start values final := by
  induction arguments generalizing start values with
  | nil =>
      cases ended
      exact .nil _
  | cons argument rest ih =>
      obtain ⟨value, middle, evaluated, onward⟩ := exists_of_bind ended
      obtain ⟨others, last, valued, result⟩ := exists_of_bind onward
      cases result
      exact .cons evaluated (ih valued)

/-- Arguments of built-in functions were evaluated in turn. -/
theorem Node.valued_of_plainValues {values : List Value}
    (ended : Node.plainValues inverted scope arguments start = .ok values final) :
    Node.Valued inverted scope arguments start values final := by
  induction arguments generalizing start values with
  | nil =>
      cases ended
      exact .nil _
  | cons argument rest ih =>
      obtain ⟨value, middle, evaluated, onward⟩ := exists_of_bind ended
      split at onward
      · cases onward
      · obtain ⟨others, last, valued, result⟩ := exists_of_bind onward
        cases result
        exact .cons evaluated (ih valued)

def Request.values : Request → List Value
  | .builtin _ values | .closure _ values => values

/-- All arguments have values when a request is made, and nothing happens after the last of them. -/
theorem Calling.exists_valued {calling : Calling} {ready : Scratch} {target : Target} {request : Request}
    (made : calling.request inverted scope start = .ok (target, request) ready) :
    ∃ before, Node.Valued inverted scope calling.arguments before request.values ready := by
  obtain ⟨found, targeted, -, onward⟩ := exists_of_bind made
  obtain ⟨prepared, final, prepares, result⟩ := exists_of_bind onward
  cases result
  obtain ⟨value, called, -, goesOn⟩ := exists_of_bind prepares
  cases value with
  | builtin identity arity name routine =>
      obtain ⟨values, last, valued, result⟩ := exists_of_bind goesOn
      cases result
      exact ⟨called, Node.valued_of_plainValues valued⟩
  | function closure =>
      obtain ⟨_, noted, -, further⟩ := exists_of_bind goesOn
      obtain ⟨values, last, valued, result⟩ := exists_of_bind further
      cases result
      exact ⟨noted, Node.valued_of_values valued⟩
  | _ =>
      obtain ⟨_, noted, -, refused⟩ := exists_of_bind goesOn
      cases refused

end

/-- What is left to do once a built-in function has answered. -/
def CallSite.settle (site : CallSite) (answer : Value) : Draft State := do
  Continuation.returned answer (← Draft.store) site.pending

/-- Settling an answer calls nothing. -/
theorem CallSite.oblivious_settle (site : CallSite) {answer other : Value} (twin : answer.Twin other) :
    Draft.Oblivious State.Twin (site.settle answer) (site.settle other) := by
  refine Aspect.oblivious_bind Draft.oblivious_store fun store copy twins => ?_
  exact Draft.oblivious_lift (Continuation.oblivious_returned twins twin site.pending)

/-- A request is answered by one call: after a built-in function has answered nothing is called, and
nothing is called while a function is entered. -/
def Request.AnsweredOnce (request : Request) (site : CallSite) : Prop :=
  match request with
  | .builtin routine values =>
      request.answer site = liftM (routine.call values) >>= site.settle ∧
        ∀ answer other, answer.Twin other →
          Draft.Oblivious State.Twin (site.settle answer) (site.settle other)
  | .closure called values =>
      request.answer site = called.enter values site ∧
        ∀ copies, Value.Twins values copies →
          Draft.Oblivious State.Twin (called.enter values site) (called.enter copies site)

/-- Every request is answered by one call. -/
theorem Request.answeredOnce (request : Request) (site : CallSite) : request.AnsweredOnce site := by
  cases request with
  | builtin routine values => exact ⟨rfl, fun answer other twin => site.oblivious_settle twin⟩
  | closure called values => exact ⟨rfl, fun copies twins => called.oblivious_enter twins site⟩

/-- The call that the next step of a state is to make. -/
def State.calling? : State → Option Calling
  | .active node _ _ _ _ => node.calling?
  | .halted .. | .uncaught .. => none

namespace Machine

variable (machine : Machine) {state other : State}

/-- Announcing a step calls nothing. -/
theorem oblivious_announce (twin : state.Twin other) :
    Action.Oblivious Eq (machine.announce state) (machine.announce other) := by
  have same : machine.announce other = machine.announce state := by
    cases twin <;> rfl
  rw [same, announce_eq]
  split
  · cases state.excerpt machine.source with
    | error fault => exact Aspect.oblivious_throw fault
    | ok shown => exact @Action.oblivious_self _ (Action.note _ _) inferInstance
  · exact Aspect.oblivious_pure rfl

/-- A step that is to make no call makes none. -/
theorem oblivious_step (twin : state.Twin other) (calls : state.calling? = none) :
    Action.Oblivious State.Twin (machine.step state) (machine.step other) := by
  refine Aspect.oblivious_bind (machine.oblivious_announce twin) fun _ _ _ => ?_
  cases twin with
  | active node next scope continuation twins =>
      exact machine.oblivious_stepActive next scope twins continuation calls
  | halted => exact Aspect.oblivious_throw _
  | uncaught => exact Aspect.oblivious_throw _

/-- A step that is to make a call makes its request, and comes to the answer. -/
theorem step_eq_answer {node : Node} {calling : Calling} (calls : node.calling? = some calling)
    (next : Control) (scope : Scope) (store : Store) (continuation : Continuation) :
    machine.step (.active node next scope store continuation) = (do
      machine.announce (.active node next scope store continuation)
      fun session => Draft.outcome (calling.request machine.invertedTruth scope >>=
        fun (target, request) => request.answer ⟨target, next, scope, continuation⟩) ⟨session, store⟩) := by
  unfold step
  congr 1
  funext _ session
  exact machine.stepActive_eq_answer calls next scope store continuation session

/-- Calls are made by statements only. An expression calls nothing and prints nothing, and a call that is
reached inside it is a type error, whatever is called. A step makes no call unless its statement is one, and
then makes one call, once all arguments have values. -/
theorem calls_in_position :
    (∀ (scope : Scope) (node : Node),
      Draft.Oblivious Operand.Twin (node.evaluate machine.invertedTruth scope)
        (node.evaluate machine.invertedTruth scope) ∧
      ∀ start moment,
        (∃ place callee arguments,
          node.Reaches machine.invertedTruth scope start (.call place callee arguments) moment) ↔
        node.evaluate machine.invertedTruth scope start = .error (.mistyped .callInExpression) moment) ∧
    (Fault.mistyped .callInExpression).report.map Prod.fst = some "E_TYPE" ∧
    (∀ state other, State.Twin state other → state.calling? = none →
      Action.Oblivious State.Twin (machine.step state) (machine.step other)) ∧
    ∀ (node : Node) (calling : Calling) (next : Control) (scope : Scope) (store : Store)
      (continuation : Continuation), node.calling? = some calling →
      (machine.step (.active node next scope store continuation) = (do
        machine.announce (.active node next scope store continuation)
        fun session => Draft.outcome (calling.request machine.invertedTruth scope >>=
          fun (target, request) => request.answer ⟨target, next, scope, continuation⟩) ⟨session, store⟩)) ∧
      Draft.Oblivious (fun made again => again.1 = made.1 ∧ made.2.Twin again.2)
        (calling.request machine.invertedTruth scope) (calling.request machine.invertedTruth scope) ∧
      ∀ start target request ready,
        calling.request machine.invertedTruth scope start = .ok (target, request) ready →
        (∃ before, Node.Valued machine.invertedTruth scope calling.arguments before request.values ready) ∧
        request.AnsweredOnce ⟨target, next, scope, continuation⟩ := by
  refine ⟨fun scope node => ⟨node.oblivious_evaluate _ scope, node.reaches_call_iff _ scope⟩, rfl, ?_, ?_⟩
  · exact fun state other twin calls => machine.oblivious_step twin calls
  · intro node calling next scope store continuation calls
    refine ⟨machine.step_eq_answer calls next scope store continuation,
      calling.oblivious_request machine.invertedTruth scope, ?_⟩
    exact fun start target request ready made => ⟨Calling.exists_valued made, request.answeredOnce _⟩

/-- A call that prints a text. -/
def printing : Calling :=
  ⟨.nobody, .identifier ⟨⟨2, .null⟩, .ofText "print"⟩, [.literal ⟨3, .null⟩ (.text "a")]⟩

/-- What is called inside a sum is not even looked up. A call that is a statement has a value for its
argument before it is made, and prints it. -/
theorem calls_in_position_of_sum :
    (Node.binary ⟨0, .null⟩ .add (.literal ⟨1, .null⟩ (.text "a"))
      (.call ⟨2, .null⟩ (.identifier ⟨⟨3, .null⟩, .ofText "missing"⟩) [])).evaluate false ⟨0, []⟩
        ⟨Session.start false, .empty⟩ =
      .error (.mistyped .callInExpression) ⟨Session.start false, .empty⟩ ∧
    ∃ state session target request before ready,
      state = firstState (.expressionStatement ⟨0, .null⟩
        (.call ⟨1, .null⟩ printing.callee printing.arguments)) (Session.start false) ∧
      session = begun (Session.start false) ∧ state.calling? = some printing ∧
      printing.request false (globalScope (Session.start false)) ⟨session, state.store⟩ =
        .ok (target, request) ready ∧
      Node.Valued false (globalScope (Session.start false)) printing.arguments before request.values ready ∧
      request.values.map Value.display? = [some "a"] ∧
      request.AnsweredOnce ⟨target, .done, globalScope (Session.start false), []⟩ ∧
      Ends (Machine.step ⟨.default, none⟩ state) session (fun _ after => after.output = "a\n")
        fun _ _ => False := by
  have positions := calls_in_position ⟨.default, none⟩
  constructor
  · have held : (Node.literal ⟨1, .null⟩ (.text "a")).value false ⟨0, []⟩ ⟨Session.start false, .empty⟩ =
        .ok (.string "a") ⟨Session.start false, .empty⟩ := by
      unfold Node.value
      rw [Node.evaluate]
      rfl
    exact ((positions.1 ⟨0, []⟩ _).2 _ _).mp ⟨_, _, _, .part (.right _ .add _ held) (.self _ _)⟩
  · obtain ⟨made, ready, requests, shown⟩ : ∃ made ready,
        printing.request false (globalScope (Session.start false))
            ⟨begun (Session.start false), Globals.store (Session.start false)⟩ = .ok made ready ∧
          made.2.values.map Value.display? = [some "a"] := Ends.exists_ok (by decide +kernel)
    obtain ⟨stepped, -, once⟩ := positions.2.2.2 (.expressionStatement ⟨0, .null⟩
      (.call ⟨1, .null⟩ printing.callee printing.arguments)) printing .done
      (globalScope (Session.start false)) (Globals.store (Session.start false)) [] rfl
    obtain ⟨⟨before, valued⟩, answered⟩ := once _ _ _ _ requests
    refine ⟨_, _, made.1, made.2, before, ready, rfl, rfl, rfl, requests, valued, shown, answered, ?_⟩
    unfold firstState
    rw [stepped]
    decide +kernel

end Machine

end ScriptMachine

/-
This file writes down what a run does to properties and addresses, in the order in which it happens. A
history holds the addresses that keys of objects were resolved to, with what they held at that moment, and
the values that were written to addresses. Main statement: the store that a history comes to holds at every
address what was written there last.
-/

import ScriptMachine.Proofs.Grounding
import ScriptMachine.Proofs.Member
import ScriptMachine.Proofs.Request

namespace ScriptMachine

inductive Access where
  | resolved (object : Object) (key : String) (address : Address) (held : Value)
  | wrote (address : Address) (value : Value)

abbrev History := List Access

/-- Only writing changes a store. -/
def Access.onto (store : Store) : Access → Store
  | .resolved .. => store
  | .wrote address value => store.insert address value

namespace History

/-- What happens after work, which is nothing if the work fails. -/
def after {S A : Type} (work : EStateM Fault S A) (start : S) (onward : A → S → History) : History :=
  match work start with
  | .ok result final => onward result final
  | .error .. => []

section

variable {S A : Type} {work : EStateM Fault S A} {start final : S}

theorem after_of_ok {result : A} (ended : work start = .ok result final) (onward : A → S → History) :
    after work start onward = onward result final := by
  unfold after
  rw [ended]

theorem after_of_error {fault : Fault} (ended : work start = .error fault final)
    (onward : A → S → History) : after work start onward = [] := by
  unfold after
  rw [ended]

end

theorem after_silent {S A : Type} (work : EStateM Fault S A) (start : S) :
    (after work start fun _ _ => []) = [] := by
  unfold after
  split <;> rfl

theorem after_liftM {A : Type} (action : Action A) (scratch : Scratch) (onward : A → Scratch → History) :
    after (liftM action : Draft A) scratch onward =
      after action scratch.session fun result session => onward result ⟨session, scratch.store⟩ := by
  change after (Draft.ofAction action) scratch onward = _
  unfold after Draft.ofAction
  cases action scratch.session <;> rfl

/-- The address of null is not written to. -/
def writing (address : Address) (value : Value) : History :=
  if address = 0 then [] else [.wrote address value]

/-- The store that a history comes to. -/
def replay (history : History) : Store := history.foldl Access.onto .empty

/-- The last value that was written to an address. -/
def lastWritten? : History → Address → Option Value
  | [], _ => none
  | .resolved .. :: rest, address => lastWritten? rest address
  | .wrote written value :: rest, address =>
      match lastWritten? rest address with
      | some later => some later
      | none => if written = address then some value else none

/-- What is read at an address at the end of a history. -/
def valueAt (history : History) (address : Address) : Value :=
  if address = 0 then .null else (history.lastWritten? address).getD .undefined

/-- A key of an object is resolved to one address throughout, which holds what was written there last. -/
def Consistent (history : History) : Prop :=
  ∀ (before : History) object key address held after,
    history = before ++ .resolved object key address held :: after →
      (∀ earlier found, .resolved object key earlier found ∈ before → earlier = address) ∧
        held = valueAt before address

section

variable (history : History)

@[simp] theorem replay_append_resolved (object : Object) (key : String) (address : Address) (held : Value) :
    replay (history ++ [.resolved object key address held]) = history.replay := by
  simp [replay, Access.onto]

@[simp] theorem replay_append_wrote (address : Address) (value : Value) :
    replay (history ++ [.wrote address value]) = history.replay.insert address value := by
  simp [replay, Access.onto]

/-- The store holds what was written last. -/
theorem get_foldl (store : Store) {address : Address} (notNull : address ≠ 0) :
    (history.foldl Access.onto store).get address =
      (history.lastWritten? address).getD (store.get address) := by
  induction history generalizing store with
  | nil => rfl
  | cons access rest ih =>
      rw [List.foldl_cons, ih]
      cases access with
      | resolved object key found held => rfl
      | wrote written value =>
          rw [lastWritten?]
          cases lastWritten? rest address with
          | some later => rfl
          | none =>
              by_cases same : written = address
              · simp [Access.onto, same, notNull, Store.get, Store.insert]
              · simp [Access.onto, same, notNull, Store.get, Store.insert, Std.TreeMap.getElem?_insert]

/-- The store that a history comes to holds what was written last. -/
theorem get_replay (address : Address) : history.replay.get address = history.valueAt address := by
  unfold valueAt
  by_cases null : address = 0
  · simp [null, Store.get]
  · rw [if_neg null, replay, get_foldl history _ null]
    simp [null, Store.get, Store.empty]

end

section

variable {history : History}

theorem consistent_nil : Consistent [] := by
  intro before object key address held after same
  simp at same

/-- A history that ends otherwise than it is asked about was there before. -/
theorem exists_append_of_append {before after : History} {last access : Access}
    (same : history ++ [last] = before ++ access :: after) :
    (before = history ∧ access = last ∧ after = []) ∨
      ∃ rest, history = before ++ access :: rest ∧ after = rest ++ [last] := by
  rcases List.eq_nil_or_concat after with rfl | ⟨rest, other, rfl⟩
  · obtain ⟨rfl, single⟩ := List.append_inj' same rfl
    exact .inl ⟨rfl, (List.cons.inj single).1.symm, rfl⟩
  · have split : history ++ [last] = (before ++ access :: rest) ++ [other] := by simpa using same
    obtain ⟨rfl, single⟩ := List.append_inj' split rfl
    exact .inr ⟨rest, rfl, by rw [(List.cons.inj single).1]; simp⟩

/-- A write keeps the history consistent. -/
theorem Consistent.wrote (consistent : history.Consistent) (address : Address) (value : Value) :
    Consistent (history ++ [.wrote address value]) := by
  intro before object key found held after same
  obtain ⟨-, impossible, -⟩ | ⟨rest, earlier, -⟩ := exists_append_of_append same
  · cases impossible
  · exact consistent before object key found held rest earlier

/-- A stable resolution keeps the history consistent. -/
theorem Consistent.resolved (consistent : history.Consistent) {object : Object} {key : String}
    {address : Address}
    (stable : ∀ earlier held, .resolved object key earlier held ∈ history → earlier = address) :
    Consistent (history ++ [.resolved object key address (history.replay.get address)]) := by
  intro before other found located held after same
  obtain ⟨rfl, ⟨⟩, -⟩ | ⟨rest, earlier, -⟩ := exists_append_of_append same
  · exact ⟨stable, get_replay before address⟩
  · exact consistent before other found located held rest earlier

/-- What was resolved once is resolved to the same address later on. -/
theorem Consistent.again {before rest : History} {object : Object} {key : String} {address again : Address}
    {held found : Value} (consistent : Consistent (before ++ .resolved object key address held :: rest))
    (later : .resolved object key again found ∈ rest) : again = address := by
  obtain ⟨between, others, rfl⟩ := List.append_of_mem later
  have split : before ++ .resolved object key address held ::
      (between ++ .resolved object key again found :: others) =
      (before ++ .resolved object key address held :: between) ++
        .resolved object key again found :: others := by simp
  exact ((consistent _ _ _ _ _ _ split).1 address held (by simp)).symm

end

end History

/-- A key is looked for under the text of the selector. -/
def Object.history (object : Object) (selector : Value) (start : Scratch) : History :=
  match selector.toPrimitive.bind Value.toText with
  | .ok key =>
      let address := (start.session.located object key).1
      [.resolved object key address (start.store.get address)]
  | .error _ => []

/-- A value is written to the address of a name. -/
def Scope.history (scope : Scope) (name : Name) (value : Value) (start : Scratch) : History :=
  History.after (scope.declare name) start.session fun address _ => .writing address value

mutual
/-- What evaluating an expression does. -/
def Node.history (inverted : Bool) (scope : Scope) : Node → Scratch → History
  | .object _ properties, start =>
      .after scope.beginObject start fun object created =>
        Node.propertiesHistory inverted scope object properties created
  | .member _ holder selector _, start =>
      holder.history inverted scope start ++
        .after (holder.value inverted scope) start fun held middle =>
          match held with
          | .object found =>
              selector.history inverted scope middle ++
                .after (selector.value inverted scope) middle fun selected final =>
                  found.history selected final
          | _ => []
  | .binary _ _ left right, start =>
      left.history inverted scope start ++
        .after (left.value inverted scope) start fun _ middle => right.history inverted scope middle
  | .logical _ _ left right, start =>
      left.history inverted scope start ++
        .after (left.truth inverted scope) start fun _ middle => right.history inverted scope middle
  | .unary _ _ argument, start => argument.history inverted scope start
  | .assignment _ .assign left right, start =>
      left.history inverted scope start ++
        .after (left.evaluate inverted scope) start fun target middle =>
          right.history inverted scope middle ++
            .after (right.value inverted scope) middle fun value _ =>
              match target.address? with
              | some address => .writing address value
              | none => []
  | _, _ => []

def Node.propertiesHistory (inverted : Bool) (scope : Scope) (object : Object) :
    List Node → Scratch → History
  | .property _ key value :: rest, start =>
      value.history inverted scope start ++
        .after (value.value inverted scope) start fun held middle =>
          object.properties.history key held middle ++
            .after (Globals.define object.properties key held) middle fun _ final =>
              Node.propertiesHistory inverted scope object rest final
  | _, _ => []
end

section

variable (inverted : Bool) (scope : Scope)

def Node.valuesHistory : List Node → Scratch → History
  | [], _ => []
  | argument :: rest, start =>
      argument.history inverted scope start ++
        .after (argument.value inverted scope) start fun _ middle => Node.valuesHistory rest middle

/-- The arguments after a reference are not evaluated. -/
def Node.plainHistory : List Node → Scratch → History
  | [], _ => []
  | argument :: rest, start =>
      argument.history inverted scope start ++
        .after (argument.value inverted scope) start fun value middle =>
          match value with
          | .reference .. => []
          | _ => Node.plainHistory rest middle

def Taker.history (taker : Taker) (start : Scratch) : History :=
  match taker with
  | .operand left => left.history inverted scope start
  | .nobody | .slot _ => []

/-- A call of a function is noted before its arguments are evaluated. -/
def Closure.mention (closure : Closure) : Draft Unit :=
  Action.note .machine fun session =>
    "calling JS function " ++ (Value.function closure).shown ++ " in context of " ++
      session.shownScope closure.scope

/-- What a statement does before its call. -/
def Calling.history (calling : Calling) (start : Scratch) : History :=
  calling.taker.history inverted scope start ++
    .after (calling.taker.target inverted scope) start fun _ aimed =>
      calling.callee.history inverted scope aimed ++
        .after (calling.callee.value inverted scope) aimed fun called middle =>
          match called with
          | .builtin .. => Node.plainHistory inverted scope calling.arguments middle
          | .function closure =>
              .after closure.mention middle fun _ noted =>
                Node.valuesHistory inverted scope calling.arguments noted
          | _ => []

end

def paramsHistory (scope : Scope) : List Ident → List Value → Scratch → History
  | [], _, _ => []
  | param :: params, arguments, start =>
      scope.history param.name (arguments.headD .undefined) start ++
        .after (Globals.define scope param.name (arguments.headD .undefined)) start fun _ final =>
          paramsHistory scope params arguments.tail final

def Target.history (target : Target) (scope : Scope) (value : Value) (session : Session) : History :=
  match target with
  | .slot name => .after (scope.declare name) session fun address _ => .writing address value
  | .location address => .writing address value
  | .discard => []

namespace Continuation

def returnedHistory (value : Value) (session : Session) : Continuation → History
  | [] => []
  | .call target _ scope :: _ => target.history scope value session
  | _ :: rest => returnedHistory value session rest

def leftScopeHistory (session : Session) : Continuation → History
  | [] => []
  | .scope .nowhere _ :: rest => returnedHistory .undefined session rest
  | .scope .. :: _ => []
  | _ :: rest => leftScopeHistory session rest

def caughtHistory (clause : Node) (scope : Scope) (thrown : Value) (session : Session) : History :=
  match clause.ownBody?.bind Node.emptyBody?, clause with
  | some false, .catchClause _ param _ =>
      .after scope.push session fun inner pushed =>
        .after (inner.declare param.name) pushed fun address _ => .writing address thrown
  | _, _ => []

def thrownHistory (value : Value) (session : Session) : Continuation → History
  | [] => []
  | .handler clause scope _ :: _ => caughtHistory clause scope value session
  | _ :: rest => thrownHistory value session rest

end Continuation

/-- What entering a function does, and returning from it at once if its body is empty. -/
def Closure.history (closure : Closure) (values : List Value) (site : CallSite) (start : Scratch) :
    History :=
  .after (liftM (Scope.enter Session.machineAllocator closure.scope.chain) : Draft Scope) start
    fun scope entered =>
      paramsHistory scope closure.code.params values entered ++
        .after (bindParams scope closure.code.params values) entered fun _ bound =>
          match closure.code.body.emptyBody? with
          | some true => Continuation.returnedHistory .undefined bound.session site.pending
          | _ => []

def Request.history (request : Request) (site : CallSite) (start : Scratch) : History :=
  match request with
  | .builtin routine values =>
      .after (routine.call values) start.session fun answer answered =>
        Continuation.returnedHistory answer answered site.pending
  | .closure called values => called.history values site start

namespace Machine

variable (machine : Machine)

def declaratorsHistory (scope : Scope) (keyword : Tree) : List Node → Scratch → History
  | .declarator _ target init :: rest, start =>
      init.history machine.invertedTruth scope start ++
        .after (machine.initialValue scope init) start fun value middle =>
          .after (Action.note .machine fun _ =>
              keyword.shown ++ " " ++ target.name.shown ++ " = " ++ value.shown : Draft Unit) middle
            fun _ noted =>
              scope.history target.name value noted ++
                .after (Globals.define scope target.name value) noted fun _ final =>
                  declaratorsHistory scope keyword rest final
  | _, _ => []

/-- A call among other declarators is refused before any of them is bound. -/
def declarationHistory (scope : Scope) (keyword : Tree) (declarators : List Node) (start : Scratch) :
    History :=
  match declarators with
  | .declarator _ _ (.call ..) :: _ => []
  | _ => machine.declaratorsHistory scope keyword declarators start

/-- What a step from an active state does. -/
def activeHistory (node : Node) (next : Control) (scope : Scope) (store : Store)
    (continuation : Continuation) (session : Session) : History :=
  match node.calling? with
  | some calling =>
      calling.history machine.invertedTruth scope ⟨session, store⟩ ++
        .after (calling.request machine.invertedTruth scope) ⟨session, store⟩ fun (target, request) ready =>
          request.history ⟨target, next, scope, continuation⟩ ready
  | none =>
      match node with
      | .scopeExit _ => Continuation.leftScopeHistory session continuation
      | .functionDeclaration place name params body =>
          match node.declaredName? with
          | none => []
          | some declared =>
              .after (scope.declare declared) session fun address bound =>
                .after ((Code.ofDeclaration place name params body).close scope) bound fun value _ =>
                  .writing address value
      | .declaration _ declarators keyword =>
          machine.declarationHistory scope keyword declarators ⟨session, store⟩
      | .expressionStatement _ expression | .ifStatement _ expression _ _
      | .whileStatement _ expression _ =>
          expression.history machine.invertedTruth scope ⟨session, store⟩
      | .returnStatement _ .absent => Continuation.returnedHistory .undefined session continuation
      | .returnStatement _ argument =>
          argument.history machine.invertedTruth scope ⟨session, store⟩ ++
            .after (argument.value machine.invertedTruth scope) ⟨session, store⟩ fun value final =>
              Continuation.returnedHistory value final.session continuation
      | .throwStatement _ argument =>
          argument.history machine.invertedTruth scope ⟨session, store⟩ ++
            .after (argument.value machine.invertedTruth scope) ⟨session, store⟩ fun value final =>
              Continuation.thrownHistory value final.session continuation
      | _ => []

/-- What a step does. -/
def stepHistory (state : State) (session : Session) : History :=
  .after (machine.announce state) session fun _ announced =>
    match state with
    | .active node next scope store continuation =>
        machine.activeHistory node next scope store continuation announced
    | .halted .. | .uncaught .. => []

/-- What a run does, as far as the given number of steps takes it. -/
def history : Nat → State → Session → History
  | 0, _, _ => []
  | steps + 1, state, session =>
      if state.isDone then []
      else machine.stepHistory state session ++
        .after (machine.step state) session fun next final => history steps next final

end Machine

/-- The globals are written before a run begins. -/
def Globals.history (base : Session) : History :=
  [.wrote 1 (.builtin base.identities 1 (.text "print") .print), .wrote 2 .undefined,
    .wrote 3 (.object (Globals.prototype base)),
    .wrote 4 (.builtin (base.identities + 1) 1 (.text "hasOwnProperty") .ownPropertyTest),
    .wrote 5 (.builtin (base.identities + 2) 1 (.text "toString") .describe)]

/-- The globals' history gives their store. -/
theorem Globals.replay_history (base : Session) : (Globals.history base).replay = Globals.store base := rfl

end ScriptMachine

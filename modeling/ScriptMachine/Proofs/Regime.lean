/-
This file describes what holds throughout the runs of any program, well formed or not, and in whatever
order its states are stepped. An inquiry says which frames, stores and values are in order, and that
everything that evaluation does keeps them so. A regime says so of everything that a program can do. Main
statement: evaluating an expression keeps every inquiry, whether it ends with a result or with a fault.
-/

import ScriptMachine.Proofs.Equation
import ScriptMachine.Proofs.Flow
import ScriptMachine.Proofs.Propriety

namespace ScriptMachine

/-- What is said about the states of a run. A world remembers what is known at a moment, and later
worlds know more. Nothing is said about a session and a store together, so that a store that was in
order once is in order for good. -/
structure Account where
  World : Type
  Later : World → World → Prop
  Frames : World → Session → Prop
  Stores : World → Store → Prop
  Good : World → Value → Prop
  Readable : World → Address → Prop
  Writable : World → Address → Prop
  Sees : World → Scope → Node → Prop
  Stands : World → Control → Scope → Prop
  Binds : World → Scope → Key → Prop
  Building : World → Object → Prop
  Assigned : Key → Prop
  Rebinds : Prop

namespace Account

variable (account : Account)

/-- A later world in which a session is in order, and something else is the case. -/
def Reaches (world : account.World) (session : Session) (also : account.World → Prop) : Prop :=
  ∃ later, account.Later world later ∧ account.Frames later session ∧ also later

/-- A scope is ready to bind the names of some parameters. -/
def Expects (world : account.World) (scope : Scope) (params : List Ident) : Prop :=
  ∀ param ∈ params, ∀ key, param.name.key = .ok key → account.Binds world scope key

/-- A member may be assigned to if every key may be that its selector can come to, and a variable if names
may be bound again. -/
def Assignable : Node → Prop
  | .member _ _ (.literal _ (.text text)) _ => account.Assigned (.text text)
  | .member .. => ∀ key, account.Assigned key
  | .identifier _ => account.Rebinds
  | _ => True

/-- What an expression denotes is in order. -/
def Denotes (world : account.World) (node : Node) : Operand → Prop
  | .location address => account.Readable world address ∧
      (account.Assignable node → account.Writable world address)
  | .value value => account.Good world value

end Account

/-- An account that every primitive action of an evaluation keeps. -/
structure Inquiry extends Account where
  later_refl : ∀ world, Later world world
  later_trans : ∀ {first second third}, Later first second → Later second third → Later first third
  stores_later : ∀ {world later store}, Later world later → Stores world store → Stores later store
  good_later : ∀ {world later value}, Later world later → Good world value → Good later value
  readable_later : ∀ {world later address}, Later world later → Readable world address →
    Readable later address
  writable_later : ∀ {world later address}, Later world later → Writable world address →
    Writable later address
  sees_later : ∀ {world later scope node}, Later world later → Sees world scope node →
    Sees later scope node
  building_later : ∀ {world later object}, Later world later → Building world object →
    Building later object
  plain : ∀ {world value}, value.isPlain = true → Good world value
  direct : ∀ {world identity address}, ¬ Good world (.reference identity address)
  read : ∀ {world store address}, Stores world store → Readable world address →
    Good world (store.get address)
  write : ∀ {world store address value next}, Stores world store → Writable world address →
    Good world value → store.extend address value = .ok next → Stores world next
  report : ∀ {world session} (output : String) (journal : Array Entry), Frames world session →
    Frames world { session with output, journal }
  sees_operand : ∀ {world scope node part}, Sees world scope node → part ∈ node.operands →
    Sees world scope part
  assigned : ∀ {world scope place left right}, Sees world scope (.assignment place .assign left right) →
    toAccount.Assignable left
  close : ∀ {world session scope node code}, Frames world session → Sees world scope node →
    code ∈ node.codes → toAccount.Reaches world session.identify fun later =>
      Good later (.function ⟨session.identities, code, scope⟩)
  resolve : ∀ {world session scope ident key address}, Frames world session →
    Sees world scope (.identifier ident) → ident.name.key = .ok key →
    session.resolve? scope key = some address →
    Readable world address ∧ (Rebinds → Writable world address)
  create : ∀ {world session store scope place properties proto}, Frames world session →
    Stores world store → Sees world scope (.object place properties) →
    session.resolve? scope (.text "%ObjectPrototype%") = some proto →
    toAccount.Reaches world (session.addObject Session.machineAllocator proto) fun later =>
      Building later ⟨proto, ⟨session.frames.size, store.prototypeChain proto⟩⟩
  fill : ∀ {world session scope object place key name value} written, Frames world session →
    Building world object → Sees world scope (.property place name value) → name.key = .ok key →
    toAccount.Reaches world (session.declare object.properties.inner key written).2 fun later =>
      Writable later (session.declare object.properties.inner key written).1
  finish : ∀ {world object}, Building world object → Good world (.object object)
  locate : ∀ {world session object key} written, Frames world session → Good world (.object object) →
    toAccount.Reaches world (session.locate object.properties key written).2 fun later =>
      Readable later (session.locate object.properties key written).1 ∧
        (Assigned key → Writable later (session.locate object.properties key written).1)

/-- An account that every primitive action of a program keeps. -/
structure Regime extends Inquiry where
  stands_later : ∀ {world later control scope}, Later world later → Stands world control scope →
    Stands later control scope
  binds_later : ∀ {world later scope key}, Later world later → Binds world scope key →
    Binds later scope key
  own : ∀ {world identity arity name routine},
    Good world (.builtin identity arity name routine) → routine.isOwn = true
  sees_of_stands : ∀ {world node next scope}, Stands world (.visit node next) scope →
    Sees world scope node
  binds_of_stands : ∀ {world node next scope name key}, Stands world (.visit node next) scope →
    name ∈ node.declares → name.key = .ok key → Binds world scope key
  flow : ∀ {world control further scope}, Stands world control scope → control.Flows further →
    Stands world further scope
  declare : ∀ {world session scope key} written, Frames world session → Binds world scope key →
    toAccount.Reaches world (session.declare scope.inner key written).2 fun later =>
      Writable later (session.declare scope.inner key written).1
  opens : ∀ {world session control scope params entered}, Frames world session →
    Stands world control scope → control.Opens params entered →
    toAccount.Reaches world (session.addFrame (session.allocatorOf scope.inner)) fun later =>
      Stands later entered ⟨session.frames.size, scope.chain⟩ ∧
        toAccount.Expects later ⟨session.frames.size, scope.chain⟩ params
  enter : ∀ {world session closure}, Frames world session → Good world (.function closure) →
    toAccount.Reaches world (session.addFrame Session.machineAllocator) fun later =>
      Stands later (.visit closure.code.body .nowhere) ⟨session.frames.size, closure.scope.chain⟩ ∧
        toAccount.Expects later ⟨session.frames.size, closure.scope.chain⟩ closure.code.params

/-- An action that ends in a later world. A fault leaves a session in order behind. -/
def Account.Makes (account : Account) {A : Type} (world : account.World) (session : Session)
    (work : Action A) (good : account.World → A → Prop) : Prop :=
  Ends work session (fun result after => account.Reaches world after fun later => good later result)
    (fun _ after => account.Reaches world after fun _ => True)

/-- A draft that ends in a later world, whatever store it was working on. -/
def Account.Yields (account : Account) {A : Type} (world : account.World) (scratch : Scratch)
    (work : Draft A) (good : account.World → Store → A → Prop) : Prop :=
  Ends work scratch
    (fun result final =>
      account.Reaches world final.session fun later => good later final.store result)
    (fun _ final => account.Reaches world final.session fun _ => True)

/-- A draft that keeps its private store in order, too, whether it fails or not. -/
def Account.Keeps (account : Account) {A : Type} (world : account.World) (scratch : Scratch)
    (work : Draft A) (good : account.World → A → Prop) : Prop :=
  Ends work scratch
    (fun result final => account.Reaches world final.session fun later =>
      account.Stores later final.store ∧ good later result)
    (fun _ final => account.Reaches world final.session fun later => account.Stores later final.store)

/-- A scratch in order. -/
structure Account.Holds (account : Account) (world : account.World) (scratch : Scratch) : Prop where
  frames : account.Frames world scratch.session
  stores : account.Stores world scratch.store

namespace Inquiry

variable (inquiry : Inquiry) {world later : inquiry.World} {scratch : Scratch} {session : Session}
  {also : inquiry.World → Prop} {scope : Scope} {selector : Node} {place : Place}

/-- What is reached from a later world is reached from an earlier one. -/
theorem reaches_trans (passed : inquiry.Later world later) (reaches : inquiry.Reaches later session also) :
    inquiry.Reaches world session also := by
  obtain ⟨last, further, frames, rest⟩ := reaches
  exact ⟨last, inquiry.later_trans passed further, frames, rest⟩

theorem reaches_self (frames : inquiry.Frames world session) (holds : also world) :
    inquiry.Reaches world session also :=
  ⟨world, inquiry.later_refl world, frames, holds⟩

variable {node : Node} {A : Type} {good : inquiry.World → A → Prop}

/-- What was denoted is denoted later. -/
theorem denotes_later {operand : Operand} (passed : inquiry.Later world later)
    (denotes : inquiry.Denotes world node operand) : inquiry.Denotes later node operand := by
  cases operand with
  | location address =>
      exact ⟨inquiry.readable_later passed denotes.1,
        fun assignable => inquiry.writable_later passed (denotes.2 assignable)⟩
  | value value => exact inquiry.good_later passed denotes

section

variable {A B : Type} {good : inquiry.World → A → Prop}

/-- A result in order is handed on. -/
theorem keeps_pure {result : A} (holds : inquiry.Holds world scratch) (inOrder : good world result) :
    inquiry.Keeps world scratch (pure result) good :=
  inquiry.reaches_self holds.frames ⟨holds.stores, inOrder⟩

variable {fault : Fault} {work : Draft A}

theorem yields_fail {good : inquiry.World → Store → A → Prop} (holds : inquiry.Holds world scratch) :
    inquiry.Yields world scratch (Draft.fail fault : Draft A) good :=
  inquiry.reaches_self holds.frames trivial

theorem keeps_fail (holds : inquiry.Holds world scratch) :
    inquiry.Keeps world scratch (Draft.fail fault : Draft A) good :=
  inquiry.reaches_self holds.frames holds.stores

/-- A draft that keeps its store in order ends in a later world. -/
theorem yields_of_keeps (keeps : inquiry.Keeps world scratch work good) :
    inquiry.Yields world scratch work fun later store result =>
      inquiry.Stores later store ∧ good later result := by
  refine keeps.weaken (fun _ _ reaches => reaches) ?_
  rintro fault final ⟨later, passed, frames, -⟩
  exact ⟨later, passed, frames, trivial⟩

variable {first : Draft B} {second : B → Draft A} {middle : inquiry.World → B → Prop}

/-- A draft that keeps an inquiry may be followed by one that ends in a later world. If either fails, it
leaves a store of which as much is said. -/
theorem ends_bind_of_keeps {good : inquiry.World → Store → A → Prop} {left : inquiry.World → Store → Prop}
    (begins : inquiry.Keeps world scratch first middle)
    (leaves : ∀ later store, inquiry.Stores later store → left later store)
    (continues : ∀ later next result, inquiry.Later world later → inquiry.Holds later next →
      middle later result → Ends (second result) next
        (fun value final => inquiry.Reaches later final.session fun last => good last final.store value)
        fun _ final => inquiry.Reaches later final.session fun last => left last final.store) :
    Ends (first >>= second) scratch
      (fun value final => inquiry.Reaches world final.session fun last => good last final.store value)
      fun _ final => inquiry.Reaches world final.session fun last => left last final.store := by
  rw [ends_bind]
  refine begins.weaken ?_ ?_
  · rintro result next ⟨later, passed, frames, stores, inOrder⟩
    refine (continues later next result passed ⟨frames, stores⟩ inOrder).weaken ?_ ?_
    · intro value final reaches
      exact inquiry.reaches_trans passed reaches
    · intro fault final reaches
      exact inquiry.reaches_trans passed reaches
  · rintro fault final ⟨later, passed, frames, stores⟩
    exact ⟨later, passed, frames, leaves later final.store stores⟩

/-- A draft that keeps its store in order may be followed by any other. -/
theorem yields_bind {good : inquiry.World → Store → A → Prop}
    (begins : inquiry.Keeps world scratch first middle)
    (continues : ∀ later next result, inquiry.Later world later → inquiry.Holds later next →
      middle later result → inquiry.Yields later next (second result) good) :
    inquiry.Yields world scratch (first >>= second) good :=
  inquiry.ends_bind_of_keeps begins (fun _ _ _ => trivial) continues

/-- Work in two parts keeps an inquiry if both parts do. -/
theorem keeps_bind (begins : inquiry.Keeps world scratch first middle)
    (continues : ∀ later next result, inquiry.Later world later → inquiry.Holds later next →
      middle later result → inquiry.Keeps later next (second result) good) :
    inquiry.Keeps world scratch (first >>= second) good :=
  @ends_bind_of_keeps inquiry world scratch A B first second middle
    (fun later store result => inquiry.Stores later store ∧ good later result) inquiry.Stores begins
    (fun _ _ stores => stores) continues

theorem keeps_weaken {wider : inquiry.World → A → Prop} (keeps : inquiry.Keeps world scratch work good)
    (weaker : ∀ later result, good later result → wider later result) :
    inquiry.Keeps world scratch work wider := by
  refine keeps.weaken ?_ fun fault final failed => failed
  rintro result final ⟨later, passed, frames, stores, inOrder⟩
  exact ⟨later, passed, frames, stores, weaker later result inOrder⟩

end

section

variable {session : Session} {scope : Scope} (frames : inquiry.Frames world session)
include frames

/-- A name that is looked up may be read. -/
theorem makes_resolve {ident : Ident} (sees : inquiry.Sees world scope (.identifier ident)) :
    inquiry.Makes world session (scope.resolve ident.name) fun later address =>
      inquiry.Readable later address ∧ (inquiry.Rebinds → inquiry.Writable later address) := by
  unfold Account.Makes
  rw [ends_resolve]
  cases named : ident.name.key with
  | error fault => exact inquiry.reaches_self frames trivial
  | ok key =>
      cases found : session.resolve? scope key with
      | none =>
          simp only [found]
          exact inquiry.reaches_self frames trivial
      | some address =>
          simp only [found]
          exact inquiry.reaches_self frames (inquiry.resolve frames sees named found)

/-- A property that is bound may be written. -/
theorem makes_fill {object : Object} {place : Place} {name : Name} {value : Node}
    (building : inquiry.Building world object)
    (sees : inquiry.Sees world scope (.property place name value)) :
    inquiry.Makes world session (object.properties.declare name) fun later address =>
      inquiry.Writable later address := by
  unfold Account.Makes
  rw [ends_declare]
  cases named : name.key with
  | error fault => exact inquiry.reaches_self frames trivial
  | ok key => exact inquiry.fill name.written frames building sees named

/-- Notes change the journal at most. -/
theorem makes_note (topic : Topic) (message : Session → String) :
    inquiry.Makes world session (Action.note topic message) fun _ _ => True := by
  unfold Account.Makes
  rw [ends_note]
  refine inquiry.reaches_self ?_ trivial
  split
  · exact inquiry.report _ _ frames
  · exact frames

/-- A function that is made is good. -/
theorem makes_close {code : Code} (sees : inquiry.Sees world scope node) (made : code ∈ node.codes) :
    inquiry.Makes world session (code.close scope) fun later value => inquiry.Good later value := by
  unfold Account.Makes
  rw [ends_close]
  exact inquiry.close frames sees made

end

/-- An action inside a draft leaves the private store alone. -/
theorem keeps_action {action : Action A} (holds : inquiry.Holds world scratch)
    (makes : inquiry.Makes world scratch.session action good) :
    inquiry.Keeps world scratch (liftM action) good := by
  unfold Account.Keeps
  rw [ends_liftAction]
  refine makes.weaken ?_ ?_
  · rintro result after ⟨later, passed, frames, inOrder⟩
    exact ⟨later, passed, frames, inquiry.stores_later passed holds.stores, inOrder⟩
  · rintro fault after ⟨later, passed, frames, -⟩
    exact ⟨later, passed, frames, inquiry.stores_later passed holds.stores⟩

section

variable (holds : inquiry.Holds world scratch)
include holds
variable {value : Value} {operand : Operand}

/-- Good values are written where they may be. -/
theorem keeps_extend {address : Address} (writable : inquiry.Writable world address)
    (good : inquiry.Good world value) :
    inquiry.Keeps world scratch (Draft.extend address value) fun _ _ => True := by
  unfold Account.Keeps
  rw [ends_extend]
  cases extended : scratch.store.extend address value with
  | error fault => exact inquiry.reaches_self holds.frames holds.stores
  | ok next =>
      exact inquiry.reaches_self holds.frames
        ⟨inquiry.write holds.stores writable good extended, trivial⟩

/-- Whatever is read is good. -/
theorem keeps_read (denotes : inquiry.Denotes world node operand) :
    inquiry.Keeps world scratch operand.read fun later value => inquiry.Good later value := by
  unfold Account.Keeps
  rw [ends_read]
  refine inquiry.reaches_self holds.frames ⟨holds.stores, ?_⟩
  cases operand with
  | location address => exact inquiry.read holds.stores denotes.1
  | value value =>
      cases value with
      | reference identity address => exact absurd denotes inquiry.direct
      | _ => exact denotes

/-- Good values are assigned where they may be. -/
theorem keeps_write (denotes : inquiry.Denotes world node operand) (assignable : inquiry.Assignable node)
    (good : inquiry.Good world value) :
    inquiry.Keeps world scratch (operand.write value) fun _ _ => True := by
  cases operand with
  | location address => exact inquiry.keeps_extend holds (denotes.2 assignable) good
  | value held =>
      cases held with
      | reference identity address => exact absurd denotes inquiry.direct
      | _ => exact inquiry.keeps_fail holds

/-- Conversions and operators do not touch the session. -/
theorem keeps_outcome {outcome : Except Fault A} {good : A → Prop}
    (inOrder : ∀ result, outcome = .ok result → good result) :
    inquiry.Keeps world scratch (liftM outcome) fun _ result => good result := by
  unfold Account.Keeps
  rw [ends_liftExcept]
  cases outcome with
  | error fault => exact inquiry.reaches_self holds.frames holds.stores
  | ok result => exact inquiry.reaches_self holds.frames ⟨holds.stores, inOrder result rfl⟩

end

section

variable {inverted : Bool} (evaluates : inquiry.Keeps world scratch (node.evaluate inverted scope)
  fun later operand => inquiry.Denotes later node operand)
include evaluates

/-- The value of an expression is good. -/
theorem keeps_reading :
    inquiry.Keeps world scratch (node.value inverted scope) fun later value => inquiry.Good later value :=
  inquiry.keeps_bind evaluates fun _ _ _ _ held denotes => inquiry.keeps_read held denotes

theorem keeps_testing : inquiry.Keeps world scratch (node.truth inverted scope) fun _ _ => True :=
  inquiry.keeps_bind (inquiry.keeps_reading evaluates) fun _ _ value _ held _ =>
    inquiry.keeps_outcome held (value.toBoolean_orderly inverted).of_ok

end

/-- A property may be made by looking for it. A selector that is a text is the key itself. -/
theorem keeps_select {object : Object} {selector : Value} (holds : inquiry.Holds world scratch)
    (good : inquiry.Good world (.object object)) :
    inquiry.Keeps world scratch (object.select selector) fun later operand =>
      ∃ text address, operand = .location address ∧ inquiry.Readable later address ∧
        (inquiry.Assigned (.text text) → inquiry.Writable later address) ∧
        ∀ written, selector = .string written → text = written := by
  have converts : ∀ primitive, selector.toPrimitive = .ok primitive →
      ∀ written, selector = .string written → primitive = .string written := by
    rintro primitive converted written rfl
    cases converted
    rfl
  refine inquiry.keeps_bind (inquiry.keeps_outcome holds converts) ?_
  intro later next primitive passed held spelled
  have spells : ∀ text, primitive.toText = .ok text →
      ∀ written, selector = .string written → text = written := by
    intro text converted written same
    rw [spelled written same] at converted
    cases converted
    rfl
  refine inquiry.keeps_bind (inquiry.keeps_outcome held spells) ?_
  intro last final text further kept known
  have object := inquiry.good_later further (inquiry.good_later passed good)
  unfold Account.Keeps
  simp only [ends_bind, ends_liftAction, ends_locate, Name.key_ofText, ends_pure]
  obtain ⟨after, onward, frames, readable, writable⟩ := inquiry.locate (.text text) kept.frames object
  exact ⟨after, onward, frames, inquiry.stores_later onward kept.stores, text, _, rfl, readable,
    writable, known⟩

/-- A literal that is a text denotes that text. -/
theorem evaluate_text (inverted : Bool) (scope : Scope) (place : Place) (text : String) :
    (Node.literal place (.text text)).evaluate inverted scope = pure (.value (.string text)) := by
  rw [Node.evaluate]
  rfl

/-- A selector that is written as a text comes to that text. -/
theorem keeps_selector {inverted : Bool} (holds : inquiry.Holds world scratch)
    (evaluates : inquiry.Keeps world scratch (selector.evaluate inverted scope) fun later operand =>
      inquiry.Denotes later selector operand) :
    inquiry.Keeps world scratch (selector.value inverted scope) fun _ value =>
      ∀ place text, selector = .literal place (.text text) → value = .string text := by
  by_cases spelled : ∃ place text, selector = .literal place (.text text)
  · obtain ⟨place, text, rfl⟩ := spelled
    rw [Node.value, evaluate_text]
    refine inquiry.keeps_pure holds ?_
    rintro other written ⟨⟩
    rfl
  · refine inquiry.keeps_weaken (inquiry.keeps_reading evaluates) ?_
    rintro later value _ place text rfl
    exact absurd ⟨place, text, rfl⟩ spelled

/-- The key that a selector comes to is among those that may be assigned to. -/
theorem assigned_of_member {holder : Node} {computed : Bool} {text : String}
    (assignable : inquiry.Assignable (.member place holder selector computed))
    (known : ∀ place written, selector = .literal place (.text written) → text = written) :
    inquiry.Assigned (.text text) := by
  unfold Account.Assignable at assignable
  split at assignable
  · rename_i same
    cases same
    rw [known _ _ rfl]
    exact assignable
  · exact assignable _
  · rename_i same
    cases same
  · rename_i other _
    exact absurd rfl (other _ _ _ _)

/-- Operators keep their operands company only in the journal. -/
theorem keeps_perform {operator : BinaryOperator} {left right : Value} (holds : inquiry.Holds world scratch) :
    inquiry.Keeps world scratch (operator.perform left right) fun later operand =>
      inquiry.Denotes later node operand := by
  have computes := operator.apply_orderly left right
  have applied : ∀ {world : inquiry.World} {scratch : Scratch}, inquiry.Holds world scratch →
      inquiry.Keeps world scratch
        (do return Operand.value (← operator.apply left right) : Draft Operand)
        fun later operand => inquiry.Denotes later node operand := by
    intro world scratch holds
    refine inquiry.keeps_bind (inquiry.keeps_outcome holds computes.of_ok) ?_
    intro later next value _ held plainValue
    exact inquiry.keeps_pure held (inquiry.plain plainValue)
  unfold BinaryOperator.perform
  dsimp only
  split
  · refine inquiry.keeps_bind (inquiry.keeps_action holds (inquiry.makes_note holds.frames _ _)) ?_
    intro later next _ _ held _
    exact applied held
  · exact applied holds

/-- A new object has the prototype that its scope finds. -/
theorem keeps_create {properties : List Node} {onward : Object → Draft A}
    (holds : inquiry.Holds world scratch) (sees : inquiry.Sees world scope (.object place properties))
    (continues : ∀ later next object, inquiry.Later world later → inquiry.Holds later next →
      inquiry.Building later object → inquiry.Keeps later next (onward object) good) :
    inquiry.Keeps world scratch (do
      let proto ← scope.resolve Globals.objectPrototype
      let object ← Object.create proto (← Draft.store) Session.machineAllocator
      onward object) good := by
  have created : inquiry.Keeps world scratch (do
      let proto ← scope.resolve Globals.objectPrototype
      Object.create proto (← Draft.store) Session.machineAllocator)
      fun later object => inquiry.Building later object := by
    unfold Account.Keeps
    simp only [ends_bind, ends_liftAction, ends_resolve, Globals.objectPrototype, Name.key_ofText,
      ends_store, ends_create]
    split
    · rename_i proto found
      obtain ⟨later, passed, frames, building⟩ := inquiry.create holds.frames holds.stores sees found
      exact ⟨later, passed, frames, inquiry.stores_later passed holds.stores, building⟩
    · exact inquiry.reaches_self holds.frames holds.stores
  simpa only [bind_assoc] using inquiry.keeps_bind created continues

mutual
/-- Evaluating an expression keeps an inquiry. -/
theorem evaluate (inverted : Bool) {scope : Scope} (node : Node) {world : inquiry.World}
    {scratch : Scratch} (holds : inquiry.Holds world scratch) (sees : inquiry.Sees world scope node) :
    inquiry.Keeps world scratch (node.evaluate inverted scope) fun later operand =>
      inquiry.Denotes later node operand := by
  have operands : ∀ part ∈ node.operands, ∀ {later}, inquiry.Later world later →
      inquiry.Sees later scope part :=
    fun part member later passed => inquiry.sees_later passed (inquiry.sees_operand sees member)
  have now := inquiry.later_refl world
  cases node with
  | identifier ident =>
      rw [Node.evaluate]
      refine inquiry.keeps_bind (inquiry.keeps_action holds (inquiry.makes_resolve holds.frames sees)) ?_
      intro later next address _ held denotes
      exact inquiry.keeps_pure held denotes
  | literal place value =>
      rw [Node.evaluate]
      refine inquiry.keeps_bind (inquiry.keeps_outcome holds (fun _ => Tree.isPlain_of_literal)) ?_
      intro later next literal _ held plainValue
      exact inquiry.keeps_pure held (inquiry.plain plainValue)
  | functionExpression place name params body =>
      rw [Node.evaluate]
      refine inquiry.keeps_bind
        (inquiry.keeps_action holds (inquiry.makes_close holds.frames sees (by simp [Node.codes]))) ?_
      intro later next closure _ held good
      exact inquiry.keeps_pure held good
  | object place properties =>
      rw [Node.evaluate]
      refine inquiry.keeps_create holds sees fun later next object passed held building => ?_
      refine inquiry.keeps_bind (evaluateProperties inverted object properties
        (fun property member => operands property member passed) held building) ?_
      intro last final _ further kept _
      exact inquiry.keeps_pure kept (inquiry.finish (inquiry.building_later further building))
  | member place holder selector computed =>
      rw [Node.evaluate_member]
      refine inquiry.keeps_bind (inquiry.keeps_reading (evaluate inverted holder holds
        (operands holder (by simp [Node.operands]) now))) ?_
      intro later next held passed kept good
      cases held with
      | object found =>
          refine inquiry.keeps_bind (inquiry.keeps_selector kept (evaluate inverted selector kept
            (operands selector (by simp [Node.operands]) passed))) ?_
          intro last final selected further keeps spelled
          refine inquiry.keeps_weaken
            (inquiry.keeps_select keeps (inquiry.good_later further good)) ?_
          rintro after operand ⟨text, address, rfl, readable, writable, known⟩
          refine ⟨readable, fun assignable => writable (inquiry.assigned_of_member assignable ?_)⟩
          intro place written same
          exact known written (spelled place written same)
      | _ => exact inquiry.keeps_fail kept
  | binary place operator left right =>
      rw [Node.evaluate_binary]
      refine inquiry.keeps_bind (inquiry.keeps_reading (evaluate inverted left holds
        (operands left (by simp [Node.operands]) now))) ?_
      intro later next leftValue passed held _
      refine inquiry.keeps_bind (inquiry.keeps_reading (evaluate inverted right held
        (operands right (by simp [Node.operands]) passed))) ?_
      intro last final rightValue _ kept _
      exact inquiry.keeps_perform kept
  | unary place operator argument =>
      rw [Node.evaluate_unary]
      refine inquiry.keeps_bind (inquiry.keeps_reading (evaluate inverted argument holds
        (operands argument (by simp [Node.operands]) now))) ?_
      intro later next value passed held _
      refine inquiry.keeps_bind
        (inquiry.keeps_outcome held (operator.apply_orderly inverted value).of_ok) ?_
      intro last final result _ kept plainValue
      exact inquiry.keeps_pure kept (inquiry.plain plainValue)
  | logical place operator left right =>
      rw [Node.evaluate_logical]
      refine inquiry.keeps_bind (inquiry.keeps_testing (evaluate inverted left holds
        (operands left (by simp [Node.operands]) now))) ?_
      intro later next _ passed held _
      refine inquiry.keeps_bind (inquiry.keeps_testing (evaluate inverted right held
        (operands right (by simp [Node.operands]) passed))) ?_
      intro last final _ _ kept _
      exact inquiry.keeps_fail kept
  | assignment place operator left right =>
      cases operator with
      | other written =>
          rw [Node.evaluate]
          exact inquiry.keeps_fail holds
      | assign =>
          rw [Node.evaluate_assignment]
          have assignable := inquiry.assigned sees
          refine inquiry.keeps_bind (evaluate inverted left holds
            (operands left (by simp [Node.operands]) now)) ?_
          intro later next target passed held denotes
          refine inquiry.keeps_bind (inquiry.keeps_reading (evaluate inverted right held
            (operands right (by simp [Node.operands]) passed))) ?_
          intro last final value further kept good
          refine inquiry.keeps_bind (inquiry.keeps_write kept (inquiry.denotes_later further denotes)
            assignable good) ?_
          intro after settled _ onward stays _
          exact inquiry.keeps_pure stays (inquiry.good_later onward good)
  | _ =>
      rw [Node.evaluate]
      · exact inquiry.keeps_fail holds
      all_goals simp

/-- The properties of an object that is being built are bound one after the other. -/
theorem evaluateProperties (inverted : Bool) {scope : Scope} (object : Object) (properties : List Node)
    {world : inquiry.World} {scratch : Scratch}
    (sees : ∀ property ∈ properties, inquiry.Sees world scope property)
    (holds : inquiry.Holds world scratch) (building : inquiry.Building world object) :
    inquiry.Keeps world scratch (Node.evaluateProperties inverted scope object properties)
      fun _ _ => True := by
  match properties with
  | [] =>
      rw [Node.evaluateProperties]
      exact inquiry.keeps_pure holds trivial
  | property :: rest =>
      by_cases isProperty : ∃ place key value, property = .property place key value
      · obtain ⟨place, key, value, rfl⟩ := isProperty
        rw [Node.evaluateProperties_cons]
        have seen := sees (.property place key value) List.mem_cons_self
        refine inquiry.keeps_bind (inquiry.keeps_reading (evaluate inverted value holds
          (inquiry.sees_operand seen (by simp [Node.operands])))) ?_
        intro later next held passed kept good
        have filled := inquiry.makes_fill kept.frames (inquiry.building_later passed building)
          (inquiry.sees_later passed seen)
        refine inquiry.keeps_bind (inquiry.keeps_action kept filled) ?_
        intro last final address further keeps writable
        refine inquiry.keeps_bind
          (inquiry.keeps_extend keeps writable (inquiry.good_later further good)) ?_
        intro after settled _ onward stays _
        have since := inquiry.later_trans passed (inquiry.later_trans further onward)
        exact evaluateProperties inverted object rest
          (fun other member => inquiry.sees_later since (sees other (List.mem_cons_of_mem _ member)))
          stays (inquiry.building_later since building)
      · obtain ⟨fault, refused⟩ := Node.exists_evaluateProperties_eq_throw inverted
          (fun place key value same => isProperty ⟨place, key, value, same⟩) rest
        rw [refused]
        exact inquiry.keeps_fail holds
end

end Inquiry

namespace Regime

variable (regime : Regime) {world : regime.World} {scope : Scope}

/-- What a scope expects to bind it may bind later. -/
theorem expects_later {later : regime.World} {params : List Ident} (passed : regime.Later world later)
    (expects : regime.Expects world scope params) : regime.Expects later scope params :=
  fun param member key named => regime.binds_later passed (expects param member key named)

/-- A name that is declared may be written. -/
theorem makes_declare {session : Session} {name : Name} (frames : regime.Frames world session)
    (binds : ∀ key, name.key = .ok key → regime.Binds world scope key) :
    regime.Makes world session (scope.declare name) fun later address =>
      regime.Writable later address := by
  unfold Account.Makes
  rw [ends_declare]
  cases named : name.key with
  | error fault => exact regime.reaches_self frames trivial
  | ok key => exact regime.declare name.written frames (binds key named)

end Regime

end ScriptMachine

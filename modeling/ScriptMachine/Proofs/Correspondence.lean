/-
This file compares two runs of the same expressions, where the names in the second run may have changed.
A correspondence says which sessions, stores, values and addresses of the runs belong together, and that
everything a program can do keeps them together. Main statement: two evaluations of an expression in
sessions that belong together end in the same way.
-/

import ScriptMachine.Proofs.Likeness
import ScriptMachine.Proofs.Parallel

namespace ScriptMachine

/-- What evaluating an expression asks of the session: a name that is looked up, an object that is
made, a property that is selected. -/
inductive Need where
  | name (name : Name)
  | create
  | select

mutual
/-- What evaluating an expression needs. A function that is made or called does not run yet. -/
def Node.needs : Node → List Need
  | .identifier ident => [.name ident.name]
  | .binary _ _ left right | .logical _ _ left right | .assignment _ _ left right =>
      left.needs ++ right.needs
  | .unary _ _ argument => argument.needs
  | .member _ holder selector _ => .select :: (holder.needs ++ selector.needs)
  | .object _ properties => .create :: .name Globals.objectPrototype :: Node.needsOf properties
  | .property _ _ value => value.needs
  | .call _ callee arguments => callee.needs ++ Node.needsOf arguments
  | _ => []

def Node.needsOf : List Node → List Need
  | [] => []
  | node :: rest => node.needs ++ Node.needsOf rest
end

/-- What belongs together in two runs. A world remembers what is known at a moment, and later worlds
know more. Scopes of the first run stand for their pairs in the second one, and names for what they are
called there. Names are looked up in scopes where the runs are at home, and a key may be asked for where
both runs find the same. What is printed is the same where the runs show it. -/
structure Ties extends Pairing, Terms where
  naming : Naming
  World : Type
  Later : World → World → Prop
  Agrees : World → Scratch → Scratch → Prop
  Same : World → Value → Value → Prop
  Located : World → Address → Address → Prop
  Seen : World → Scope → Prop
  Home : World → Scope → Prop
  Asked : World → Scope → Key → Prop
  Built : World → Object → Object → Prop
  creates : Prop
  selects : Prop
  shows : Prop

/-- A later world in which two scratches belong together, and something else is the case. -/
def Ties.Reaches (ties : Ties) (world : ties.World) (first second : Scratch)
    (also : ties.World → Prop) : Prop :=
  ∃ later, ties.Later world later ∧ ties.Agrees later first second ∧ also later

/-- What every primitive action keeps together. -/
structure Correspondence extends Ties where
  later_refl : ∀ world, Later world world
  later_trans : ∀ {first second third}, Later first second → Later second third → Later first third
  same_later : ∀ {world later value other}, Later world later → Same world value other →
    Same later value other
  located_later : ∀ {world later address other}, Later world later →
    Located world address other → Located later address other
  seen_later : ∀ {world later scope}, Later world later → Seen world scope → Seen later scope
  home_later : ∀ {world later scope}, Later world later → Home world scope → Home later scope
  seen_of_home : ∀ {world scope}, Home world scope → Seen world scope
  asked_later : ∀ {world later scope key}, Later world later → Asked world scope key →
    Asked later scope key
  built_later : ∀ {world later object other}, Later world later → Built world object other →
    Built later object other
  akin : ∀ {world value other}, Same world value other → value.Akin toPairing naming other
  plain : ∀ {world value}, value.isPlain = true → Same world value value
  callable : ∀ {world closure other}, Same world (.function closure) other →
    Seen world closure.scope
  read : ∀ {world first second address other}, Agrees world first second →
    Located world address other → Same world (first.store.get address) (second.store.get other)
  null : ∀ {world address other}, Located world address other → (address = 0 ↔ other = 0)
  write : ∀ {world first second address other value again store copy}, Agrees world first second →
    Located world address other → Same world value again →
    first.store.extend address value = .ok store → second.store.extend other again = .ok copy →
    Agrees world ⟨first.session, store⟩ ⟨second.session, copy⟩
  report : ∀ {world session other store copy} (journal again : Array Entry),
    Agrees world ⟨session, store⟩ ⟨other, copy⟩ →
    Agrees world ⟨{ session with journal }, store⟩ ⟨{ other with journal := again }, copy⟩
  print : ∀ {world session other store copy} (text again : String), (shows → again = text) →
    Agrees world ⟨session, store⟩ ⟨other, copy⟩ →
    Agrees world ⟨session.write text, store⟩ ⟨other.write again, copy⟩
  close : ∀ {world session other store copy scope} (code : Code),
    Agrees world ⟨session, store⟩ ⟨other, copy⟩ → Seen world scope →
    toTies.Reaches world ⟨session.identify, store⟩ ⟨other.identify, copy⟩ fun later =>
      Same later (.function ⟨session.identities, code, scope⟩)
        (.function ⟨other.identities, naming.code code, toPairing.scope scope⟩)
  resolve : ∀ {world first second scope key address}, Agrees world first second →
    Home world scope → Asked world scope key → first.session.resolve? scope key = some address →
    ∃ other, second.session.resolve? (toPairing.scope scope) (naming.key key) = some other ∧
      Located world address other
  unresolved : ∀ {world first second scope key}, strict → Agrees world first second →
    Home world scope → Asked world scope key → first.session.resolve? scope key = none →
    second.session.resolve? (toPairing.scope scope) (naming.key key) = none
  missing : ∀ name : Name, Matches (.unresolved name.shown) (.unresolved (naming.name name).shown)
  nest : ∀ {world session other store copy scope} (ofScope : Bool),
    Agrees world ⟨session, store⟩ ⟨other, copy⟩ → Seen world scope →
    other.frames.size = frame session.frames.size ∧
    toTies.Reaches world
      ⟨session.addFrame (if ofScope then session.allocatorOf scope.inner else
        Session.machineAllocator), store⟩
      ⟨other.addFrame (if ofScope then other.allocatorOf (frame scope.inner) else
        Session.machineAllocator), copy⟩ fun later =>
      Seen later ⟨session.frames.size, scope.chain⟩
  declare : ∀ {world session other store copy scope} key written,
    Agrees world ⟨session, store⟩ ⟨other, copy⟩ → Seen world scope →
    Allowed (session.declare scope.inner key written).2 →
    toTies.Reaches world ⟨(session.declare scope.inner key written).2, store⟩
      ⟨(other.declare (frame scope.inner) (naming.key key) (naming.written written)).2, copy⟩
      fun later => Located later (session.declare scope.inner key written).1
        (other.declare (frame scope.inner) (naming.key key) (naming.written written)).1 ∧
      (Home world scope → Asked later scope key)
  create : ∀ {world session other store copy scope proto again}, creates →
    Agrees world ⟨session, store⟩ ⟨other, copy⟩ → Home world scope →
    Asked world scope (.text "%ObjectPrototype%") →
    session.resolve? scope (.text "%ObjectPrototype%") = some proto →
    other.resolve? (toPairing.scope scope) (.text "%ObjectPrototype%") = some again →
    toTies.Reaches world ⟨session.addObject Session.machineAllocator proto, store⟩
      ⟨other.addObject Session.machineAllocator again, copy⟩ fun later =>
      Built later ⟨proto, ⟨session.frames.size, store.prototypeChain proto⟩⟩
        ⟨again, ⟨other.frames.size, copy.prototypeChain again⟩⟩
  fill : ∀ {world session other store copy object again} key written,
    Agrees world ⟨session, store⟩ ⟨other, copy⟩ → Built world object again →
    Allowed (session.declare object.properties.inner key written).2 →
    toTies.Reaches world ⟨(session.declare object.properties.inner key written).2, store⟩
      ⟨(other.declare again.properties.inner key written).2, copy⟩ fun later =>
      Located later (session.declare object.properties.inner key written).1
        (other.declare again.properties.inner key written).1
  finish : ∀ {world first second object again}, Agrees world first second →
    Built world object again →
    toTies.Reaches world first second fun later => Same later (.object object) (.object again)
  locate : ∀ {world session other store copy object again} key written, selects →
    Agrees world ⟨session, store⟩ ⟨other, copy⟩ → Same world (.object object) (.object again) →
    Allowed (session.locate object.properties key written).2 →
    toTies.Reaches world ⟨(session.locate object.properties key written).2, store⟩
      ⟨(other.locate again.properties key written).2, copy⟩ fun later =>
      Located later (session.locate object.properties key written).1
        (other.locate again.properties key written).1

namespace Ties

variable (ties : Ties)

/-- What two expressions denote belongs together. -/
inductive Denotes (world : ties.World) : Operand → Operand → Prop where
  | location {address other : Address} (located : ties.Located world address other) :
      Denotes world (.location address) (.location other)
  | value {value other : Value} (same : ties.Same world value other) :
      Denotes world (.value value) (.value other)

/-- What is needed is granted. -/
def Grants (world : ties.World) (scope : Scope) (needs : List Need) : Prop :=
  ∀ need ∈ needs, match need with
    | .name name => ∀ key, name.key = .ok key → ties.Asked world scope key
    | .create => ties.creates
    | .select => ties.selects

variable {ties} {world : ties.World} {scope : Scope} {first second : List Need}

theorem Grants.left (grants : ties.Grants world scope (first ++ second)) : ties.Grants world scope first :=
  fun need member => grants need (List.mem_append_left _ member)

theorem Grants.right (grants : ties.Grants world scope (first ++ second)) : ties.Grants world scope second :=
  fun need member => grants need (List.mem_append_right _ member)

/-- Sessions that belong together with some stores. -/
def Alike (session other : Session) : Prop :=
  ∃ world store copy, ties.Agrees world ⟨session, store⟩ ⟨other, copy⟩

/-- Two pieces of work that end in the same way, in a later world. -/
def Joins {S A B : Type} (view : S → Session) (world : ties.World) (first : EStateM Fault S A)
    (second : EStateM Fault S B) (start other : S) (good : ties.World → A → S → B → S → Prop) : Prop :=
  ties.toTerms.Pairs view first second start other
    (fun result final again last => ∃ later, ties.Later world later ∧ good later result final again last)
    ties.Alike

/-- Two drafts that end in the same way, with scratches that belong together. -/
def Keeps {A B : Type} (world : ties.World) (first : Draft A) (second : Draft B)
    (start other : Scratch) (good : ties.World → A → B → Prop) : Prop :=
  ties.Joins Scratch.session world first second start other fun later result final again last =>
    ties.Agrees later final last ∧ good later result again

end Ties

namespace Correspondence

variable (both : Correspondence) {world later : both.World} {start other : Scratch} {also : both.World → Prop}
  {scope : Scope} {A B : Type} {good : both.World → A → B → Prop}

theorem reaches_self (agrees : both.Agrees world start other) (holds : also world) :
    both.Reaches world start other also :=
  ⟨world, both.later_refl world, agrees, holds⟩

/-- What denotes the same goes on doing so. -/
theorem denotes_later {operand again : Operand} (passed : both.Later world later)
    (denotes : both.Denotes world operand again) : both.Denotes later operand again := by
  cases denotes with
  | location located => exact .location (both.located_later passed located)
  | value same => exact .value (both.same_later passed same)

/-- What was granted stays granted. -/
theorem grants_later {needs : List Need} (passed : both.Later world later)
    (grants : both.Grants world scope needs) : both.Grants later scope needs := by
  intro need member
  have granted := grants need member
  cases need with
  | name name => exact fun key named => both.asked_later passed (granted key named)
  | create => exact granted
  | select => exact granted

/-- Scratches that belong together have sessions that do. -/
theorem alike_of_agrees (agrees : both.Agrees world start other) :
    both.Alike start.session other.session :=
  ⟨world, start.store, other.store, agrees⟩

section

variable {S A B C D : Type} {view : S → Session} {begun ended : S} {first : EStateM Fault S C}
  {second : EStateM Fault S D} {firstOn : C → EStateM Fault S A} {secondOn : D → EStateM Fault S B}
  {middle : both.World → C → S → D → S → Prop} {good : both.World → A → S → B → S → Prop}

/-- What follows a piece of work may use what the work came to. -/
theorem joins_ran (grows : ∀ value, Expands view (firstOn value))
    (begins : both.Joins view world first second begun ended middle)
    (goesOn : ∀ later value next again last, first begun = .ok value next → both.Later world later →
      middle later value next again last →
      both.Joins view later (firstOn value) (secondOn again) next last good) :
    both.Joins view world (first >>= firstOn) (second >>= secondOn) begun ended good := by
  refine Terms.pairs_bind grows begins.ran ?_
  rintro value next again last ⟨ran, later, passed, between⟩
  refine (goesOn later value next again last ran passed between).weaken ?_
  rintro result final repeated left ⟨after, onward, holds⟩
  exact ⟨after, both.later_trans passed onward, holds⟩

/-- Work in two parts stays together part by part. -/
theorem joins_bind [grows : ∀ value, Expands view (firstOn value)]
    (begins : both.Joins view world first second begun ended middle)
    (goesOn : ∀ later value next again last, both.Later world later →
      middle later value next again last →
      both.Joins view later (firstOn value) (secondOn again) next last good) :
    both.Joins view world (first >>= firstOn) (second >>= secondOn) begun ended good :=
  both.joins_ran grows begins fun later value next again last _ => goesOn later value next again last

end

/-- Results that belong together are handed on. -/
theorem keeps_pure {result : A} {again : B} (agrees : both.Agrees world start other)
    (holds : good world result again) :
    both.Keeps world (pure result) (pure again) start other good :=
  fun _ => both.reaches_self agrees holds

/-- Both sides fail alike. -/
theorem joins_fail {good : both.World → A → Scratch → B → Scratch → Prop} (fault : Fault)
    (agrees : both.Agrees world start other) :
    both.Joins Scratch.session world (Draft.fail fault) (Draft.fail fault) start other good :=
  fun _ _ => ⟨both.matches_refl fault, both.alike_of_agrees agrees⟩

/-- Actions inside drafts leave the private stores alone. -/
theorem keeps_lift {first : Action A} {second : Action B} :
    both.Keeps world (liftM first) (liftM second) start other good ↔
      both.Joins id world first second start.session other.session fun later result final again last =>
        both.Agrees later ⟨final, start.store⟩ ⟨last, other.store⟩ ∧ good later result again :=
  Terms.pairs_lift

section

variable (agrees : both.Agrees world start other)
include agrees

/-- Conversions come to the same on both sides. -/
theorem keeps_outcome {A : Type} {outcome again : Except Fault A} (same : again = outcome)
    {good : A → Prop} (holds : ∀ result, outcome = .ok result → good result) :
    both.Keeps world (liftM outcome : Draft A) (liftM again : Draft A) start other
      fun _ result repeated => repeated = result ∧ good result :=
  Terms.pairs_outcome same
    (fun result ended => both.reaches_self agrees ⟨rfl, holds result ended⟩)
    fun _ => both.alike_of_agrees agrees

variable {value copy again : Value} {scope : Scope} {operand : Operand} {address : Address} {name : Name}
  {object : Object}

omit agrees in
/-- Values that belong together are no references, so they are read as they are. -/
theorem readFrom_of_same (same : both.Same world value again) (store copy : Store) :
    (Operand.value value).readFrom store = value ∧ (Operand.value again).readFrom copy = again := by
  cases both.akin same with
  | plain isPlain => cases value <;> simp_all [Value.isPlain, Operand.readFrom]
  | object | function | builtin => exact ⟨rfl, rfl⟩

omit agrees in
/-- Values that belong together are no places to assign to. -/
theorem address?_of_same (same : both.Same world value again) :
    (Operand.value value).address? = none ∧ (Operand.value again).address? = none := by
  cases both.akin same with
  | plain isPlain => cases value <;> simp_all [Value.isPlain, Operand.address?]
  | object | function | builtin => exact ⟨rfl, rfl⟩

/-- What is read belongs together. -/
theorem keeps_read {again : Operand} (denotes : both.Denotes world operand again) :
    both.Keeps world operand.read again.read start other both.Same := by
  intro _
  apply both.reaches_self agrees
  cases denotes with
  | location located => exact both.read agrees located
  | value same =>
      obtain ⟨first, second⟩ := both.readFrom_of_same same start.store other.store
      rw [first, second]
      exact same

/-- Writing at addresses that belong together is refused on both sides or on none. -/
theorem extend_cases {again : Address} (located : both.Located world address again)
    (same : both.Same world value copy) :
    (∃ fault, start.store.extend address value = .error fault ∧
      other.store.extend again copy = .error fault) ∨
    ∃ store next, start.store.extend address value = .ok store ∧
      other.store.extend again copy = .ok next ∧
      both.Agrees world ⟨start.session, store⟩ ⟨other.session, next⟩ := by
  have null := both.null located
  by_cases zero : address = 0
  · have zeroAgain := null.mp zero
    exact .inl ⟨.badWrite .nullAddress, by simp [Store.extend, zero],
      by simp [Store.extend, zeroAgain]⟩
  · have present : again ≠ 0 := fun zeroAgain => zero (null.mpr zeroAgain)
    have extended := @Store.extend_of_ne start.store address value zero
    have extendedAgain := @Store.extend_of_ne other.store again copy present
    exact .inr ⟨_, _, extended, extendedAgain,
      both.write agrees located same extended extendedAgain⟩

/-- Both sides write what belongs together. -/
theorem keeps_extend {again : Address} (located : both.Located world address again)
    (same : both.Same world value copy) :
    both.Keeps world (Draft.extend address value) (Draft.extend again copy) start other
      fun _ _ _ => True := by
  unfold Ties.Keeps Ties.Joins Terms.Pairs
  rw [ends_extend]
  obtain ⟨fault, refused, refusedAgain⟩ | ⟨store, next, extended, extendedAgain, agree⟩ :=
    both.extend_cases agrees located same
  · rw [refused]
    intro _ _
    rw [ends_extend, refusedAgain]
    exact ⟨both.matches_refl fault, both.alike_of_agrees agrees⟩
  · rw [extended]
    intro _
    rw [ends_extend, extendedAgain]
    exact both.reaches_self agree trivial

/-- Both sides assign, or neither does. -/
theorem keeps_write {again : Operand} (denotes : both.Denotes world operand again)
    (same : both.Same world value copy) :
    both.Keeps world (operand.write value) (again.write copy) start other fun _ _ _ => True := by
  cases denotes with
  | location located => exact both.keeps_extend agrees located same
  | value held =>
      obtain ⟨firstNone, secondNone⟩ := both.address?_of_same held
      unfold Operand.write
      rw [firstNone, secondNone]
      exact both.joins_fail _ agrees

/-- Notes may differ, since journals are not compared. -/
theorem keeps_note (topic : Topic) (message again : Session → String) :
    both.Keeps world (liftM (Action.note topic message)) (liftM (Action.note topic again)) start other
      fun _ _ _ => True := by
  apply both.keeps_lift.mpr
  intro _
  apply both.reaches_self _ trivial
  dsimp only
  rw [Session.note_eq, Session.note_eq]
  exact both.report _ _ agrees

/-- Both sides look up a name and find what belongs together. -/
theorem keeps_resolve (home : both.Home world scope)
    (asked : ∀ key, name.key = .ok key → both.Asked world scope key) :
    both.Keeps world (liftM (scope.resolve name))
      (liftM ((both.scope scope).resolve (both.naming.name name))) start other
      both.Located := by
  have keyed := both.naming.key_name name
  apply both.keeps_lift.mpr
  unfold Ties.Joins Terms.Pairs
  rw [ends_resolve]
  cases named : name.key with
  | error fault =>
      intro _ _
      rw [ends_resolve, keyed, named]
      exact ⟨both.matches_refl fault, both.alike_of_agrees agrees⟩
  | ok key =>
      rw [named] at keyed
      dsimp only
      cases found : start.session.resolve? scope key with
      | none =>
          intro strict _
          have missing := both.unresolved strict agrees home (asked key named) found
          rw [ends_resolve, keyed]
          dsimp only [Except.map]
          rw [missing]
          exact ⟨both.missing name, both.alike_of_agrees agrees⟩
      | some address =>
          intro _
          obtain ⟨again, foundAgain, located⟩ := both.resolve agrees home (asked key named) found
          rw [ends_resolve, keyed]
          dsimp only [Except.map]
          rw [foundAgain]
          exact both.reaches_self agrees located

/-- Both sides declare a name. -/
theorem keeps_declare (seen : both.Seen world scope) :
    both.Keeps world (liftM (scope.declare name))
      (liftM ((both.scope scope).declare (both.naming.name name))) start other
      fun later address again => both.Located later address again ∧
        ∀ key, name.key = .ok key → both.Home world scope → both.Asked later scope key := by
  have keyed := both.naming.key_name name
  apply both.keeps_lift.mpr
  unfold Ties.Joins Terms.Pairs
  rw [ends_declare]
  cases named : name.key with
  | error fault =>
      intro _ _
      rw [ends_declare, keyed, named]
      exact ⟨both.matches_refl fault, both.alike_of_agrees agrees⟩
  | ok key =>
      intro allowed
      obtain ⟨later, passed, agree, located, asked⟩ :=
        both.declare key name.written agrees seen allowed
      rw [ends_declare, keyed, named, both.naming.written_name]
      refine ⟨later, passed, agree, located, ?_⟩
      intro again same
      cases same
      exact asked

/-- Both sides make a function. -/
theorem keeps_close (code : Code) (seen : both.Seen world scope) :
    both.Keeps world (liftM (code.close scope))
      (liftM ((both.naming.code code).close (both.scope scope))) start other both.Same := by
  apply both.keeps_lift.mpr
  intro _
  exact both.close code agrees seen

/-- A key is bound in the frame of an object that is being built. -/
theorem keeps_fill {again : Object} (key : Name) (built : both.Built world object again) :
    both.Keeps world (liftM (object.properties.declare key)) (liftM (again.properties.declare key)) start
      other both.Located := by
  apply both.keeps_lift.mpr
  unfold Ties.Joins Terms.Pairs
  rw [ends_declare]
  cases named : key.key with
  | error fault =>
      intro _ _
      rw [ends_declare, named]
      exact ⟨both.matches_refl fault, both.alike_of_agrees agrees⟩
  | ok found =>
      intro allowed
      rw [ends_declare, named]
      exact both.fill found key.written agrees built allowed

/-- Both sides find a property, or add it. -/
theorem keeps_locate {again : Object} (key : Name) (selects : both.selects)
    (same : both.Same world (.object object) (.object again)) :
    both.Keeps world (liftM (object.locate key)) (liftM (again.locate key)) start other
      both.Located := by
  apply both.keeps_lift.mpr
  unfold Ties.Joins Terms.Pairs
  rw [ends_locate]
  cases named : key.key with
  | error fault =>
      intro _ _
      rw [ends_locate, named]
      exact ⟨both.matches_refl fault, both.alike_of_agrees agrees⟩
  | ok found =>
      intro allowed
      rw [ends_locate, named]
      exact both.locate found key.written selects agrees same allowed

/-- A new object has the prototype that its scope sees. -/
theorem keeps_make (creates : both.creates) (home : both.Home world scope)
    (asked : both.Asked world scope (.text "%ObjectPrototype%")) :
    both.Keeps world
      (do
        let proto ← scope.resolve Globals.objectPrototype
        Object.create proto (← Draft.store) Session.machineAllocator)
      (do
        let proto ← (both.scope scope).resolve Globals.objectPrototype
        Object.create proto (← Draft.store) Session.machineAllocator) start other both.Built := by
  unfold Ties.Keeps Ties.Joins Terms.Pairs
  simp only [ends_bind, ends_liftAction, ends_resolve, Globals.objectPrototype, Name.key_ofText,
    ends_store, ends_create]
  cases found : start.session.resolve? scope (.text "%ObjectPrototype%") with
  | none =>
      intro strict _
      have missing := both.unresolved strict agrees home asked found
      rw [both.naming.key_prototype] at missing
      rw [missing]
      exact ⟨both.matches_refl _, both.alike_of_agrees agrees⟩
  | some proto =>
      intro _
      obtain ⟨again, foundAgain, located⟩ := both.resolve agrees home asked found
      rw [both.naming.key_prototype] at foundAgain
      rw [foundAgain]
      exact both.create creates agrees home asked found foundAgain

end

section

variable {node repeated : Node} {inverted : Bool} {scope twin : Scope}
  (evaluates : both.Keeps world (node.evaluate inverted scope) (repeated.evaluate inverted twin) start other
    both.Denotes)
include evaluates

theorem keeps_reading : both.Keeps world (node.value inverted scope) (repeated.value inverted twin) start
    other both.Same :=
  both.joins_bind evaluates fun _ _ _ _ _ _ held => both.keeps_read held.1 held.2

theorem keeps_testing : both.Keeps world (node.truth inverted scope) (repeated.truth inverted twin) start
    other fun _ truth again => again = truth ∧ True :=
  both.joins_bind (both.keeps_reading evaluates) fun _ _ _ _ _ _ held =>
    both.keeps_outcome held.1 ((both.akin held.2).toBoolean inverted) fun _ _ => trivial

end

/-- Selectors that are alike select the same property. -/
theorem keeps_select {object again : Object} {selector copy : Value} (selects : both.selects)
    (agrees : both.Agrees world start other)
    (object_same : both.Same world (.object object) (.object again))
    (selector_same : both.Same world selector copy) :
    both.Keeps world (object.select selector) (again.select copy) start other both.Denotes := by
  have converts := (both.akin selector_same).toPrimitive
  refine both.joins_bind (both.keeps_outcome agrees converts fun _ _ => trivial) ?_
  rintro later _ next primitive last passed ⟨agree, rfl, -⟩
  refine both.joins_bind (both.keeps_outcome agree rfl fun _ _ => trivial) ?_
  rintro after _ further text final onward ⟨agreed, rfl, -⟩
  have since := both.later_trans passed onward
  refine both.joins_bind (both.keeps_locate agreed (.ofText text) selects (both.same_later since object_same)) ?_
  rintro settled address rest found ends _ ⟨kept, located⟩
  exact both.keeps_pure kept (.location located)

/-- Operators come to the same on both sides. -/
theorem keeps_perform (operator : BinaryOperator) {left leftAgain right rightAgain : Value}
    (agrees : both.Agrees world start other) (leftSame : both.Same world left leftAgain)
    (rightSame : both.Same world right rightAgain) :
    both.Keeps world (operator.perform left right) (operator.perform leftAgain rightAgain) start other
      both.Denotes := by
  have same := (both.akin leftSame).apply operator (both.akin rightSame)
  have computes := operator.apply_orderly left right
  have applied : ∀ {world : both.World} {start other : Scratch}, both.Agrees world start other →
      both.Keeps world (do return Operand.value (← operator.apply left right) : Draft Operand)
        (do return Operand.value (← operator.apply leftAgain rightAgain) : Draft Operand) start other
        both.Denotes := by
    intro world start other agrees
    refine both.joins_bind (both.keeps_outcome agrees same
      computes.of_ok) ?_
    rintro later value next _ last passed ⟨agree, rfl, plain⟩
    exact both.keeps_pure agree (.value (both.plain plain))
  have noted : ∀ message again, both.Keeps world
      (do
        Action.note .operation fun _ => message
        return Operand.value (← operator.apply left right))
      (do
        Action.note .operation fun _ => again
        return Operand.value (← operator.apply leftAgain rightAgain)) start other both.Denotes := by
    intro message again
    refine both.joins_bind (both.keeps_note agrees _ _ _) ?_
    rintro later _ next _ last passed ⟨agree, -⟩
    exact applied agree
  cases operator with
  | equal | notEqual | identical | notIdentical => exact noted _ _
  | _ => exact applied agrees

/-- Both sides go on with a new object. -/
theorem keeps_create {firstOn : Object → Draft A} {secondOn : Object → Draft B}
    [∀ object, Expands Scratch.session (firstOn object)] (creates : both.creates)
    (agrees : both.Agrees world start other) (home : both.Home world scope)
    (asked : both.Asked world scope (.text "%ObjectPrototype%"))
    (goesOn : ∀ later object next again last, both.Later world later →
      both.Agrees later next last ∧ both.Built later object again →
      both.Keeps later (firstOn object) (secondOn again) next last good) :
    both.Keeps world
      (do
        let proto ← scope.resolve Globals.objectPrototype
        let object ← Object.create proto (← Draft.store) Session.machineAllocator
        firstOn object)
      (do
        let proto ← (both.scope scope).resolve Globals.objectPrototype
        let object ← Object.create proto (← Draft.store) Session.machineAllocator
        secondOn object) start other good := by
  have continued : both.Keeps world _ _ start other good :=
    both.joins_bind (both.keeps_make agrees creates home asked) goesOn
  simpa only [bind_assoc] using continued

mutual
/-- Two evaluations of an expression end in the same way. -/
theorem evaluate (inverted : Bool) {scope : Scope} (node : Node) {world : both.World}
    {start other : Scratch} (grants : both.Grants world scope node.needs)
    (agrees : both.Agrees world start other) (home : both.Home world scope) :
    both.Keeps world (node.evaluate inverted scope)
      ((both.naming.node node).evaluate inverted (both.scope scope)) start other
      both.Denotes := by
  cases node with
  | identifier ident =>
      rw [Naming.node_eq, Node.evaluate, Node.evaluate, Naming.name_ident]
      have asked := grants (.name ident.name) (by simp [Node.needs])
      refine both.joins_bind (both.keeps_resolve agrees home asked) ?_
      rintro later address next again last _ ⟨agree, located⟩
      exact both.keeps_pure agree (.location located)
  | literal place value =>
      rw [Naming.node_eq, Node.evaluate, Node.evaluate]
      refine both.joins_bind (both.keeps_outcome agrees rfl fun _ => Tree.isPlain_of_literal) ?_
      rintro later literal next _ last _ ⟨agree, rfl, plain⟩
      exact both.keeps_pure agree (.value (both.plain plain))
  | functionExpression place name params body =>
      rw [Naming.node_eq, Node.evaluate, Node.evaluate, ← Naming.code_ofExpression]
      have seen := both.seen_of_home home
      refine both.joins_bind (both.keeps_close agrees _ seen) ?_
      rintro later closure next again last _ ⟨agree, same⟩
      exact both.keeps_pure agree (.value same)
  | object place properties =>
      rw [Naming.node_eq, Node.evaluate, Node.evaluate]
      simp only [Node.needs] at grants
      have creates := grants .create (by simp)
      have asked := grants (.name Globals.objectPrototype) (by simp) _ rfl
      refine both.keeps_create creates agrees home asked ?_
      rintro later object next again last passed ⟨agree, built⟩
      have granted : both.Grants later scope (Node.needsOf properties) :=
        both.grants_later passed fun need member => grants need (by simp [member])
      refine both.joins_bind (evaluateProperties inverted object again properties granted agree
        (both.home_later passed home) built) ?_
      rintro after _ further _ final onward ⟨agreed, -⟩
      obtain ⟨last, moved, stays, same⟩ := both.finish agreed (both.built_later onward built)
      exact fun _ => ⟨last, moved, stays, .value same⟩
  | member place holder selector computed =>
      rw [Naming.node_eq, Node.evaluate_member, Node.evaluate_member]
      simp only [Node.needs] at grants
      have selects := grants .select (by simp)
      have rest : both.Grants world scope (holder.needs ++ selector.needs) :=
        fun need member => grants need (List.mem_cons_of_mem _ member)
      refine both.joins_ran (fun value => by cases value <;> infer_instance)
        (both.keeps_reading (evaluate inverted holder rest.left agrees home)) ?_
      rintro later value next again last _ passed ⟨agree, same⟩
      cases both.akin same with
      | plain isPlain =>
          cases value with
          | object found => cases isPlain
          | _ => exact both.joins_fail _ agree
      | object proto properties =>
          refine both.joins_bind (both.keeps_reading (evaluate inverted selector
            (both.grants_later passed rest.right) agree (both.home_later passed home))) ?_
          rintro after selected further repeated final onward ⟨agreed, chosen⟩
          exact both.keeps_select selects agreed (both.same_later onward same) chosen
      | function closure => exact both.joins_fail _ agree
      | builtin identity arity name own => exact both.joins_fail _ agree
  | binary place operator left right =>
      rw [Naming.node_eq, Node.evaluate_binary, Node.evaluate_binary]
      simp only [Node.needs] at grants
      refine both.joins_bind (both.keeps_reading (evaluate inverted left grants.left agrees home)) ?_
      rintro later leftValue next leftAgain last passed ⟨agree, leftSame⟩
      refine both.joins_bind (both.keeps_reading (evaluate inverted
        right (both.grants_later passed grants.right) agree (both.home_later passed home))) ?_
      rintro after rightValue further rightAgain final onward ⟨agreed, rightSame⟩
      exact both.keeps_perform operator agreed (both.same_later onward leftSame) rightSame
  | unary place operator argument =>
      rw [Naming.node_eq, Node.evaluate_unary, Node.evaluate_unary]
      simp only [Node.needs] at grants
      refine both.joins_bind (both.keeps_reading (evaluate inverted argument grants agrees home)) ?_
      rintro later value next again last passed ⟨agree, same⟩
      have computes := operator.apply_orderly inverted value
      refine both.joins_bind (both.keeps_outcome agree
        ((both.akin same).applyUnary operator inverted) computes.of_ok) ?_
      rintro after result further _ final onward ⟨agreed, rfl, plain⟩
      exact both.keeps_pure agreed (.value (both.plain plain))
  | logical place operator left right =>
      rw [Naming.node_eq, Node.evaluate_logical, Node.evaluate_logical]
      simp only [Node.needs] at grants
      refine both.joins_bind (both.keeps_testing (evaluate inverted left grants.left agrees home)) ?_
      rintro later _ next _ last passed ⟨agree, -⟩
      refine both.joins_bind (both.keeps_testing (evaluate inverted
        right (both.grants_later passed grants.right) agree (both.home_later passed home))) ?_
      rintro after _ further _ final _ ⟨agreed, -⟩
      exact both.joins_fail _ agreed
  | assignment place operator left right =>
      cases operator with
      | other written =>
          rw [Naming.node_eq, Node.evaluate, Node.evaluate]
          exact both.joins_fail _ agrees
      | assign =>
          rw [Naming.node_eq, Node.evaluate_assignment, Node.evaluate_assignment]
          simp only [Node.needs] at grants
          refine both.joins_bind (evaluate inverted left grants.left agrees home) ?_
          rintro later target next targetAgain last passed ⟨agree, denotes⟩
          refine both.joins_bind (both.keeps_reading (evaluate inverted right
            (both.grants_later passed grants.right) agree (both.home_later passed home))) ?_
          rintro after value further again final onward ⟨agreed, same⟩
          have assigned := both.denotes_later onward denotes
          refine both.joins_bind (both.keeps_write agreed assigned same) ?_
          rintro settled _ rest _ ends moved ⟨stays, -⟩
          exact both.keeps_pure stays (.value (both.same_later moved same))
  | _ =>
      rw [Naming.node_eq]
      simp only [Node.evaluate]
      exact both.joins_fail _ agrees

/-- Both sides bind the properties of an object in turn. -/
theorem evaluateProperties (inverted : Bool) {scope : Scope} (object again : Object)
    (properties : List Node) {world : both.World} {start other : Scratch}
    (grants : both.Grants world scope (Node.needsOf properties))
    (agrees : both.Agrees world start other) (home : both.Home world scope)
    (built : both.Built world object again) :
    both.Keeps world (Node.evaluateProperties inverted scope object properties)
      (Node.evaluateProperties inverted (both.scope scope) again
        (both.naming.nodes properties)) start other fun _ _ _ => True := by
  match properties with
  | [] =>
      rw [Naming.nodes_nil, Node.evaluateProperties, Node.evaluateProperties]
      exact both.keeps_pure agrees trivial
  | node :: rest =>
      by_cases property : ∃ place key value, node = .property place key value
      · obtain ⟨place, key, value, rfl⟩ := property
        rw [Naming.nodes_cons, Naming.node_eq, Node.evaluateProperties_cons, Node.evaluateProperties_cons]
        simp only [Node.needsOf, Node.needs] at grants
        refine both.joins_bind (both.keeps_reading (evaluate inverted value grants.left agrees home)) ?_
        rintro later held next heldAgain last passed ⟨agree, same⟩
        refine both.joins_bind (both.keeps_fill agree key (both.built_later passed built)) ?_
        rintro after address further copy final onward ⟨agreed, located⟩
        refine both.joins_bind (both.keeps_extend agreed located (both.same_later onward same)) ?_
        rintro settled _ moved _ left lasts ⟨stays, -⟩
        have since := both.later_trans passed (both.later_trans onward lasts)
        exact evaluateProperties inverted object again rest (both.grants_later since grants.right)
          stays (both.home_later since home) (both.built_later since built)
      · have notProperty : ∀ place key value, node ≠ .property place key value :=
          fun place key value same => property ⟨place, key, value, same⟩
        obtain ⟨fault, refused⟩ := Node.exists_evaluateProperties_eq_throw inverted notProperty rest
        rw [Naming.nodes_cons, both.naming.evaluateProperties_node notProperty, refused, refused]
        exact both.joins_fail fault agrees
end

end Correspondence

end ScriptMachine

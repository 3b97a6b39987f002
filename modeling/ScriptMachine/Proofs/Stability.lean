/-
This file says that the properties of objects stay where they are. At a steady moment of a run every key
that was resolved is still resolved to the same address, and no object that the run has come by stands
inside an object that is not finished yet. Main statement: evaluating an expression from a steady moment
leads to a steady moment, whatever it reads, writes and creates.
-/

import ScriptMachine.Proofs.History
import ScriptMachine.Proofs.Keys

namespace ScriptMachine

/-- An object none of whose frames is among those of unfinished objects. -/
def Object.Avoids (object : Object) (unfinished : List Nat) : Prop :=
  ∀ frame ∈ object.properties.chain, frame ∉ unfinished

/-- A value that a run has come by, and that is finished. -/
def Layout.Fine (layout : Layout) (unfinished : List Nat) (value : Value) : Prop :=
  layout.Good value ∧ ∀ object, value = .object object → object.Avoids unfinished

/-- What an expression denotes before it is read. -/
def Operand.Fine (layout : Layout) (unfinished : List Nat) : Operand → Prop
  | .location address => layout.Handed address
  | .value held => layout.Fine unfinished held

/-- What finished objects have resolved they still resolve. -/
structure Session.Persists (layout : Layout) (unfinished : List Nat) (session after : Session) : Prop where
  size : session.frames.size ≤ after.frames.size
  resolves : ∀ object key address, layout.Good (.object object) → object.Avoids unfinished →
    session.resolve? object.properties key = some address →
    after.resolve? object.properties key = some address

namespace Layout

variable {since session : Session} {layout : Layout} {unfinished : List Nat} {value : Value}

/-- Values without parts are finished. -/
theorem Fine.of_isPlain (isPlain : value.isPlain = true) : layout.Fine unfinished value := by
  refine ⟨good_of_isPlain isPlain, ?_⟩
  rintro object rfl
  cases isPlain

theorem Fine.later {later : Layout} (passed : layout.Later later) (fine : layout.Fine unfinished value) :
    later.Fine unfinished value :=
  ⟨fine.1.later passed, fine.2⟩

variable {frame : Nat} {after : Session} {object : Object}

/-- What is finished among more unfinished objects is finished among fewer. -/
theorem Fine.fewer (fine : layout.Fine (frame :: unfinished) value) : layout.Fine unfinished value :=
  ⟨fine.1, fun object same other member inside =>
    fine.2 object same other member (List.mem_cons_of_mem _ inside)⟩

/-- An object that is begun now has its frame to itself. -/
theorem Fine.more (laid : Frames since layout session) (fine : layout.Fine unfinished value) :
    layout.Fine (session.frames.size :: unfinished) value := by
  refine ⟨fine.1, ?_⟩
  rintro object rfl frame member inside
  rcases List.mem_cons.mp inside with rfl | earlier
  · have small := (laid.native_of_chained fine.1.chained _ member).lt
    rw [laid.size] at small
    exact Nat.lt_irrefl _ small
  · exact fine.2 object rfl frame member earlier

theorem Later.operand {later : Layout} (passed : layout.Later later) {operand : Operand}
    (fine : operand.Fine layout unfinished) : operand.Fine later unfinished := by
  cases operand with
  | location address => exact Handed.later passed fine
  | value held => exact Fine.later passed fine

/-- Sessions with the same frames resolve alike. -/
theorem persists_of_frames (same : after.frames = session.frames) :
    session.Persists layout unfinished after := by
  have slots : ∀ frame, after.slots frame = session.slots frame := by
    intro frame
    unfold Session.slots
    rw [same]
  refine ⟨Nat.le_of_eq (by rw [same]), fun object key address _ _ found => ?_⟩
  rw [← found]
  exact Session.resolve?_congr fun frame _ => by rw [slots]

/-- What is added to the frames stands around no object yet. -/
theorem Frames.persists_of_slots (laid : Frames since layout session)
    (size : session.frames.size ≤ after.frames.size)
    (slots : ∀ frame, frame ≠ session.frames.size → after.slots frame = session.slots frame) :
    session.Persists layout unfinished after := by
  refine ⟨size, fun object key address good _ found => ?_⟩
  rw [← found]
  refine Session.resolve?_congr fun frame member => ?_
  have inside : frame < session.frames.size := by
    rw [← laid.size]
    exact (laid.native_of_chained good.chained frame member).lt
  rw [slots frame (Nat.ne_of_lt inside)]

/-- Adding an object moves no property. -/
theorem Frames.persists_addObject (laid : Frames since layout session) (allocator : Nat) (proto : Address) :
    session.Persists layout unfinished (session.addObject allocator proto) :=
  laid.persists_of_slots (by simp) fun _ other => session.slots_addObject_of_ne _ _ other

/-- Adding a frame moves no property. -/
theorem Frames.persists_addFrame (laid : Frames since layout session) (allocator : Nat) :
    session.Persists layout unfinished (session.addFrame allocator) :=
  laid.persists_of_slots (by simp) fun _ other => session.slots_addFrame_of_ne _ other

/-- A name that is declared outside the frames of finished objects does not concern them. -/
theorem persists_declare (key : Key) (written : Tree)
    (outside : ∀ object, layout.Good (.object object) → object.Avoids unfinished →
      frame ∉ object.properties.chain) :
    session.Persists layout unfinished (session.declare frame key written).2 := by
  refine ⟨Nat.le_of_eq (by simp), fun object found address good avoids resolved => ?_⟩
  rw [← resolved]
  refine Session.resolve?_congr fun other member => ?_
  refine session.address?_declare_of_ne written (.inl ?_)
  rintro rfl
  exact outside object good avoids member

/-- An object is given a property where it and its prototypes have none, so that an object which inherits
from it and has resolved the key has found it before. -/
theorem Frames.findSome?_locate (laid : Frames since layout session) (good : layout.Good (.object object))
    {key found : Key} (written : Tree) {address : Address} {chain : List Nat}
    (chained : layout.Chained chain)
    (resolved : chain.findSome? (fun frame => (session.slots frame).address? found) = some address) :
    chain.findSome? (fun frame =>
      ((session.locate object.properties key written).2.slots frame).address? found) = some address := by
  unfold Session.locate
  split
  · exact resolved
  · rename_i missing
    induction chain with
    | nil => cases resolved
    | cons frame outer ih =>
        obtain ⟨proto, role⟩ := chained
        by_cases same : frame = object.properties.inner ∧ found = key
        · obtain ⟨rfl, rfl⟩ := same
          cases role.symm.trans good
          cases resolved.symm.trans missing
        · rw [List.findSome?_cons] at resolved ⊢
          rw [session.address?_declare_of_ne written (Decidable.not_and_iff_or_not.mp same)]
          cases bound : (session.slots frame).address? found with
          | some held =>
              rw [bound] at resolved
              exact resolved
          | none =>
              rw [bound] at resolved
              exact ih (laid.closed frame proto outer role).1 resolved

/-- Looking for a property moves no other one. -/
theorem Frames.persists_locate (laid : Frames since layout session) (good : layout.Good (.object object))
    (key : Key) (written : Tree) :
    session.Persists layout unfinished (session.locate object.properties key written).2 := by
  refine ⟨(session.grows_locate _ key written).size, fun other found address otherGood _ resolved => ?_⟩
  exact laid.findSome?_locate good written otherGood.chained resolved

end Layout

/-- A moment of a run. The history so far accounts for the store, and every key that was resolved in it is
still resolved to the same address. -/
structure Scratch.Steady (since : Session) (unfinished : List Nat) (past : History) (layout : Layout)
    (scratch : Scratch) : Prop where
  laid : Layout.Frames since layout scratch.session
  stored : Layout.Stores .empty layout scratch.store
  apart : ∀ address, layout.Fine unfinished (scratch.store.get address)
  opened : ∀ frame ∈ unfinished, since.frames.size ≤ frame ∧ frame < scratch.session.frames.size
  resolved : ∀ object key address held, .resolved object key address held ∈ past →
    layout.Fine unfinished (.object object) ∧
      scratch.session.resolve? object.properties (.text key) = some address
  replayed : scratch.store = past.replay
  consistent : past.Consistent

namespace Scratch.Steady

variable {since session : Session} {unfinished : List Nat} {past : History} {layout : Layout}
  {scratch : Scratch} {store : Store}

section

variable (steady : Steady since unfinished past layout ⟨session, store⟩)
include steady

/-- A moment stays steady while its session changes, as long as what was resolved is resolved. -/
theorem pass {later : Layout} {after : Session} (passed : layout.Later later)
    (laid : Layout.Frames since later after) (persists : session.Persists layout unfinished after) :
    Steady since unfinished past later ⟨after, store⟩ where
  laid
  stored := steady.stored.later passed
  apart address := (steady.apart address).later passed
  opened frame member :=
    ⟨(steady.opened frame member).1, Nat.lt_of_lt_of_le (steady.opened frame member).2 persists.size⟩
  resolved object key address held member := by
    obtain ⟨fine, found⟩ := steady.resolved object key address held member
    exact ⟨fine.later passed, persists.resolves object _ address fine.1 (fine.2 object rfl) found⟩
  replayed := steady.replayed
  consistent := steady.consistent

/-- A value is written to an address. -/
theorem write {address : Address} {value : Value} {next : Store} (handed : layout.Handed address)
    (fine : layout.Fine unfinished value) (extended : store.extend address value = .ok next) :
    Steady since unfinished (past ++ [.wrote address value]) layout ⟨session, next⟩ where
  laid := steady.laid
  stored := steady.stored.extend handed fine.1 extended
  apart other := by
    rw [Store.get_extend extended]
    split
    · exact fine
    · exact steady.apart other
  opened := steady.opened
  resolved object key found held member := by
    rcases List.mem_append.mp member with earlier | last
    · exact steady.resolved object key found held earlier
    · cases List.mem_singleton.mp last
  replayed := by
    have notNull := Store.ne_of_extend extended
    rw [Store.extend_of_ne notNull] at extended
    cases extended
    rw [History.replay_append_wrote, ← steady.replayed]
  consistent := steady.consistent.wrote address value

/-- A key that has been looked for is resolved from then on. -/
theorem resolve {object : Object} (fine : layout.Fine unfinished (.object object)) (key : String) :
    ∃ later, layout.Later later ∧ later.Handed (session.located object key).1 ∧
      Steady since unfinished
        (past ++ [.resolved object key (session.located object key).1
          (store.get (session.located object key).1)])
        later ⟨(session.located object key).2, store⟩ := by
  obtain ⟨later, passed, laid, -, handed⟩ :=
    @Layout.reaches_locate since session .empty layout object (.text key) (.text key) steady.laid fine.1
  have after := steady.pass passed laid (steady.laid.persists_locate fine.1 (.text key) (.text key))
  refine ⟨later, passed, handed, ?_⟩
  exact {
    laid
    stored := after.stored
    apart := after.apart
    opened := after.opened
    resolved := by
      intro other found address held member
      rcases List.mem_append.mp member with earlier | last
      · exact after.resolved other found address held earlier
      · cases List.mem_singleton.mp last
        exact ⟨fine.later passed, steady.laid.resolve?_located fine.1 key⟩
    replayed := by
      rw [History.replay_append_resolved]
      exact steady.replayed
    consistent := by
      have stable : ∀ earlier held, .resolved object key earlier held ∈ past →
          earlier = (session.located object key).1 := by
        intro earlier held member
        rw [Session.located_of_found (steady.resolved object key earlier held member).2]
      rw [show store = past.replay from steady.replayed]
      exact steady.consistent.resolved stable }

end

/-- Fewer objects are unfinished. -/
theorem finish {frame : Nat} (steady : Steady since (frame :: unfinished) past layout scratch) :
    Steady since unfinished past layout scratch where
  laid := steady.laid
  stored := steady.stored
  apart address := (steady.apart address).fewer
  opened other member := steady.opened other (List.mem_cons_of_mem _ member)
  resolved object key address held member := by
    obtain ⟨fine, found⟩ := steady.resolved object key address held member
    exact ⟨fine.fewer, found⟩
  replayed := steady.replayed
  consistent := steady.consistent

/-- An object that is begun is unfinished. -/
theorem beginObject (steady : Steady since unfinished past layout scratch) {scope : Scope}
    (visible : layout.Visible scope) :
    Ends scope.beginObject scratch (fun object created => ∃ later, layout.Later later ∧
      Steady since (object.properties.inner :: unfinished) past later created ∧
        later.Fine unfinished (.object object)) fun _ _ => True := by
  obtain ⟨session, store⟩ := scratch
  unfold Scope.beginObject
  simp only [ends_bind, ends_liftAction, ends_resolve, Globals.objectPrototype, Name.key_ofText, ends_store,
    ends_create]
  split
  · rename_i proto found
    obtain ⟨later, passed, laid, -, building⟩ :=
      Layout.reaches_addObject steady.laid steady.stored visible found
    have after := steady.pass passed laid (steady.laid.persists_addObject _ proto)
    refine ⟨later, passed, ?_, building.1, ?_⟩
    · exact {
        laid
        stored := after.stored
        apart := fun address => ((steady.apart address).more steady.laid).later passed
        opened := by
          intro frame member
          rcases List.mem_cons.mp member with rfl | earlier
          · exact ⟨building.2, by simp⟩
          · exact after.opened frame earlier
        resolved := fun object key address held member =>
          ⟨((steady.resolved object key address held member).1.more steady.laid).later passed,
            (after.resolved object key address held member).2⟩
        replayed := steady.replayed
        consistent := steady.consistent }
    · rintro object ⟨⟩ frame member inside
      -- The frame of the object is new, and the frames of its prototype belong to a value that is stored.
      rcases List.mem_cons.mp member with rfl | outer
      · exact Nat.lt_irrefl _ (steady.opened _ inside).2
      · have fine := steady.apart proto
        unfold Store.prototypeChain at outer
        split at outer
        · rename_i held same
          exact fine.2 held same frame outer inside
        · cases outer
  · trivial

end Scratch.Steady

/-- Work that does what a history tells. If it fails, what it did before was consistent. -/
def Draft.Recounts {A : Type} (past : History) (layout : Layout) (scratch : Scratch) (work : Draft A)
    (log : History) (good : History → Layout → Scratch → A → Prop) : Prop :=
  Ends work scratch
    (fun result final => ∃ later, layout.Later later ∧ good (past ++ log) later final result)
    fun _ _ => History.Consistent (past ++ log)

/-- Work that leads from a steady moment to a steady moment, and does what a history tells. -/
def Draft.Tells {A : Type} (since : Session) (unfinished : List Nat) (past : History) (layout : Layout)
    (scratch : Scratch) (work : Draft A) (log : History) (good : Layout → A → Prop) : Prop :=
  Draft.Recounts past layout scratch work log fun told later final result =>
    final.Steady since unfinished told later ∧ good later result

namespace Draft

variable {since : Session} {unfinished : List Nat} {past log : History} {layout : Layout}
  {scratch : Scratch} {A B : Type} {good : Layout → A → Prop} {middle : Layout → B → Prop}

/-- Handing on a result has nothing to tell. -/
theorem tells_pure {result : A} (steady : scratch.Steady since unfinished past layout)
    (holds : good layout result) : Draft.Tells since unfinished past layout scratch (pure result) [] good :=
  ⟨layout, .refl layout, by rwa [List.append_nil], holds⟩

theorem recounts_fail {good : History → Layout → Scratch → A → Prop} (fault : Fault)
    (consistent : past.Consistent) :
    Draft.Recounts past layout scratch (Draft.fail fault : Draft A) [] good := by
  show History.Consistent (past ++ [])
  rwa [List.append_nil]

/-- Failing has nothing to tell. -/
theorem tells_fail (fault : Fault) (steady : scratch.Steady since unfinished past layout) :
    Draft.Tells since unfinished past layout scratch (Draft.fail fault : Draft A) [] good :=
  recounts_fail fault steady.consistent

variable {first : Draft B} {second : B → Draft A} {onward : B → Scratch → History}

/-- Work in two parts does what its first part does, and then what its second part does. -/
theorem Tells.recounts {good : History → Layout → Scratch → A → Prop}
    (begins : Draft.Tells since unfinished past layout scratch first log middle)
    (goesOn : ∀ value next later, layout.Later later →
      next.Steady since unfinished (past ++ log) later → middle later value →
      Draft.Recounts (past ++ log) later next (second value) (onward value next) good) :
    Draft.Recounts past layout scratch (first >>= second) (log ++ .after first scratch onward) good := by
  unfold Draft.Recounts Ends
  cases ended : first scratch with
  | error fault final =>
      rw [bind_of_error ended, History.after_of_error ended, List.append_nil]
      exact Ends.of_error begins ended
  | ok value next =>
      obtain ⟨later, passed, steady, holds⟩ := Ends.of_ok begins ended
      rw [bind_of_ok ended, History.after_of_ok ended, ← List.append_assoc]
      refine Ends.weaken (goesOn value next later passed steady holds) ?_ fun _ _ consistent => consistent
      rintro result final ⟨last, further, inOrder⟩
      exact ⟨last, passed.trans further, inOrder⟩

/-- Work in two parts tells of one after the other. -/
theorem Tells.bind (begins : Draft.Tells since unfinished past layout scratch first log middle)
    (goesOn : ∀ value next later, layout.Later later →
      next.Steady since unfinished (past ++ log) later → middle later value →
      Draft.Tells since unfinished (past ++ log) later next (second value) (onward value next) good) :
    Draft.Tells since unfinished past layout scratch (first >>= second)
      (log ++ .after first scratch onward) good :=
  begins.recounts goesOn

/-- Work that begins with nothing to tell. -/
theorem Tells.recounts_of_silent {good : History → Layout → Scratch → A → Prop}
    (begins : Draft.Tells since unfinished past layout scratch first [] middle)
    (goesOn : ∀ value next later, layout.Later later → next.Steady since unfinished past later →
      middle later value → Draft.Recounts past later next (second value) (onward value next) good) :
    Draft.Recounts past layout scratch (first >>= second) (.after first scratch onward) good := by
  refine Tells.recounts begins ?_
  rw [List.append_nil]
  exact goesOn

theorem Tells.follow (begins : Draft.Tells since unfinished past layout scratch first [] middle)
    (goesOn : ∀ value next later, layout.Later later → next.Steady since unfinished past later →
      middle later value →
      Draft.Tells since unfinished past later next (second value) (onward value next) good) :
    Draft.Tells since unfinished past layout scratch (first >>= second) (.after first scratch onward) good :=
  begins.recounts_of_silent goesOn

/-- Work that ends with nothing to tell. -/
theorem Tells.close (begins : Draft.Tells since unfinished past layout scratch first log middle)
    (goesOn : ∀ value next later, layout.Later later →
      next.Steady since unfinished (past ++ log) later → middle later value →
      Draft.Tells since unfinished (past ++ log) later next (second value) [] good) :
    Draft.Tells since unfinished past layout scratch (first >>= second) log good := by
  have both : Draft.Tells since unfinished past layout scratch (first >>= second)
      (log ++ .after first scratch fun _ _ => []) good := Tells.bind begins goesOn
  rwa [History.after_silent, List.append_nil] at both

section

variable (steady : scratch.Steady since unfinished past layout)
include steady

/-- Conversions and operators have nothing to tell. -/
theorem tells_outcome {outcome : Except Fault A} {wanted : A → Prop}
    (inOrder : ∀ result, outcome = .ok result → wanted result) :
    Draft.Tells since unfinished past layout scratch (liftM outcome) [] fun _ result => wanted result := by
  cases outcome with
  | ok result => exact tells_pure steady (inOrder result rfl)
  | error fault => exact tells_fail fault steady

/-- Reading has nothing to tell. -/
theorem tells_read {operand : Operand} (fine : operand.Fine layout unfinished) :
    Draft.Tells since unfinished past layout scratch operand.read []
      fun later value => later.Fine unfinished value := by
  refine ⟨layout, .refl layout, by rwa [List.append_nil], ?_⟩
  cases operand with
  | location address => exact steady.apart address
  | value held =>
      cases held with
      | reference identity address => exact nomatch fine.1
      | _ => exact fine

/-- An action that leaves what was resolved as it is has nothing to tell. -/
theorem tells_action {action : Action A}
    (acts : Ends action scratch.session (fun result after => ∃ later, layout.Later later ∧
      Layout.Frames since later after ∧ scratch.session.Persists layout unfinished after ∧ good later result)
      fun _ _ => True) :
    Draft.Tells since unfinished past layout scratch (liftM action) [] good := by
  unfold Draft.Tells Draft.Recounts
  rw [ends_liftAction, List.append_nil]
  refine acts.weaken ?_ fun _ _ _ => steady.consistent
  rintro result after ⟨later, passed, laid, persists, holds⟩
  exact ⟨later, passed, steady.pass passed laid persists, holds⟩

/-- Noting has nothing to tell. -/
theorem tells_note (topic : Topic) (message : Session → String) :
    Draft.Tells since unfinished past layout scratch (liftM (Action.note topic message)) []
      fun _ _ => True := by
  refine tells_action steady ?_
  rw [ends_note]
  split
  · exact ⟨layout, .refl layout, steady.laid.report _ _, Layout.persists_of_frames rfl, trivial⟩
  · exact ⟨layout, .refl layout, steady.laid, Layout.persists_of_frames rfl, trivial⟩

variable {scope : Scope} {value : Value}

/-- Looking up a name has nothing to tell. -/
theorem tells_resolve (visible : layout.Visible scope) (name : Name) :
    Draft.Tells since unfinished past layout scratch (liftM (scope.resolve name)) []
      fun later address => later.Handed address := by
  refine tells_action steady ?_
  rw [ends_resolve]
  split
  · split
    · rename_i address found
      exact ⟨layout, .refl layout, steady.laid, Layout.persists_of_frames rfl,
        steady.laid.handed_of_visible visible found⟩
    · trivial
  · trivial

/-- Making a function has nothing to tell. -/
theorem tells_close (visible : layout.Visible scope) (code : Code) :
    Draft.Tells since unfinished past layout scratch (liftM (code.close scope)) []
      fun later value => later.Fine unfinished value := by
  refine tells_action steady ?_
  rw [ends_close]
  refine ⟨_, .identify layout, steady.laid.identify, Layout.persists_of_frames rfl,
    ⟨?_, visible.later (.identify layout)⟩, fun object impossible => Value.noConfusion impossible⟩
  rw [steady.laid.identities]
  exact Nat.lt_succ_self _

/-- A value is written to an address that has been handed out. -/
theorem tells_extend {address : Address} (handed : layout.Handed address)
    (fine : layout.Fine unfinished value) :
    Draft.Tells since unfinished past layout scratch (Draft.extend address value)
      (.writing address value) fun _ _ => True := by
  unfold Draft.Tells Draft.Recounts History.writing
  rw [ends_extend]
  by_cases null : address = 0
  · subst null
    show History.Consistent (past ++ [])
    rw [List.append_nil]
    exact steady.consistent
  · rw [Store.extend_of_ne null, if_neg null]
    exact ⟨layout, .refl layout, steady.write handed fine (Store.extend_of_ne null), trivial⟩

/-- Assigning tells what is written and where. -/
theorem tells_write {operand : Operand} (denotes : operand.Fine layout unfinished)
    (fine : layout.Fine unfinished value) :
    Draft.Tells since unfinished past layout scratch (operand.write value)
      (match operand.address? with
        | some address => .writing address value
        | none => []) fun _ _ => True := by
  cases operand with
  | location address => exact tells_extend steady denotes fine
  | value held =>
      cases held with
      | reference identity address => exact nomatch denotes.1
      | _ => exact tells_fail _ steady

variable {object : Object}

/-- A property that is looked for is told with its address. -/
theorem tells_select (fine : layout.Fine unfinished (.object object)) (selector : Value) :
    Draft.Tells since unfinished past layout scratch (object.select selector)
      (object.history selector scratch) fun later operand => operand.Fine later unfinished := by
  have failed : History.Consistent (past ++ []) := by
    rw [List.append_nil]
    exact steady.consistent
  unfold Draft.Tells Draft.Recounts Object.select Object.history
  simp only [ends_bind, ends_liftExcept, ends_liftAction, ends_locate, Name.key_ofText, ends_pure]
  cases selector.toPrimitive with
  | error fault => exact failed
  | ok primitive =>
      simp only [Except.bind]
      cases primitive.toText with
      | error fault => exact failed
      | ok key =>
          obtain ⟨later, passed, handed, after⟩ := steady.resolve fine key
          exact ⟨later, passed, after, handed⟩

/-- A value is bound to a name outside the frames of finished objects. -/
theorem tells_define {name : Name}
    (declares : ∀ key, ∃ later, layout.Later later ∧
      Layout.Frames since later (scratch.session.declare scope.inner key name.written).2 ∧
        later.Handed (scratch.session.declare scope.inner key name.written).1)
    (outside : ∀ object, layout.Good (.object object) → object.Avoids unfinished →
      scope.inner ∉ object.properties.chain)
    (fine : layout.Fine unfinished value) :
    Draft.Tells since unfinished past layout scratch (Globals.define scope name value)
      (scope.history name value scratch) fun _ _ => True := by
  have declared : Draft.Tells since unfinished past layout scratch (liftM (scope.declare name)) []
      fun later address => layout.Later later ∧ later.Handed address := by
    refine tells_action steady ?_
    rw [ends_declare]
    split
    · rename_i key _
      obtain ⟨later, passed, laid, handed⟩ := declares key
      exact ⟨later, passed, laid, Layout.persists_declare key _ outside, passed, handed⟩
    · trivial
  have told := Tells.follow declared fun address next later _ kept holds =>
    tells_extend kept holds.2 (fine.later holds.1)
  rwa [History.after_liftM] at told

/-- A name is bound in a scope. -/
theorem tells_bind (visible : layout.Visible scope) (name : Name) (fine : layout.Fine unfinished value) :
    Draft.Tells since unfinished past layout scratch (Globals.define scope name value)
      (scope.history name value scratch) fun _ _ => True := by
  refine tells_define steady (fun key => ?_) (fun object good _ member => ?_) fine
  · obtain ⟨later, passed, laid, -, handed⟩ :=
      @Layout.reaches_bind since scratch.session .empty layout scope key name.written steady.laid visible
    exact ⟨later, passed, laid, handed⟩
  · obtain ⟨proto, outer, role⟩ := steady.laid.exists_outer good.chained _ member
    rw [visible scope.inner List.mem_cons_self] at role
    cases role

/-- A property is bound in an object that is not finished yet. -/
theorem tells_fill (good : layout.Good (.object object)) (growing : object.properties.inner ∈ unfinished)
    (name : Name) (fine : layout.Fine unfinished value) :
    Draft.Tells since unfinished past layout scratch (Globals.define object.properties name value)
      (object.properties.history name value scratch) fun _ _ => True := by
  refine tells_define steady (fun key => ?_) (fun other _ avoids member => avoids _ member growing) fine
  obtain ⟨later, passed, laid, -, handed⟩ := @Layout.reaches_fill since scratch.session .empty layout object
    key name.written steady.laid ⟨good, (steady.opened _ growing).1⟩
  exact ⟨later, passed, laid, handed⟩

/-- An object is unfinished while its properties are evaluated. -/
theorem tells_object (visible : layout.Visible scope) {fill : Object → Draft A}
    {onward : Object → Scratch → History}
    (fills : ∀ object created later, layout.Later later →
      Scratch.Steady since (object.properties.inner :: unfinished) past later created →
      later.Fine unfinished (.object object) →
      Draft.Tells since (object.properties.inner :: unfinished) past later created (fill object)
        (onward object created) good) :
    Draft.Tells since unfinished past layout scratch (scope.beginObject >>= fill)
      (.after scope.beginObject scratch onward) good := by
  unfold Draft.Tells Draft.Recounts Ends
  cases begun : scope.beginObject scratch with
  | error fault final =>
      rw [bind_of_error begun, History.after_of_error begun, List.append_nil]
      exact steady.consistent
  | ok object created =>
      obtain ⟨later, passed, growing, fine⟩ := (steady.beginObject visible).of_ok begun
      rw [bind_of_ok begun, History.after_of_ok begun]
      refine Ends.weaken (fills object created later passed growing fine) ?_ fun _ _ consistent => consistent
      rintro result final ⟨last, further, keeps, holds⟩
      exact ⟨last, passed.trans further, keeps.finish, holds⟩

/-- Operators have nothing to tell. -/
theorem tells_perform (operator : BinaryOperator) (left right : Value) :
    Draft.Tells since unfinished past layout scratch (operator.perform left right) []
      fun later operand => operand.Fine later unfinished := by
  have applied : ∀ {layout : Layout} {scratch : Scratch}, scratch.Steady since unfinished past layout →
      Draft.Tells since unfinished past layout scratch
        (do return Operand.value (← operator.apply left right) : Draft Operand) []
        fun later operand => operand.Fine later unfinished := by
    intro layout scratch steady
    refine Tells.close (tells_outcome steady (operator.apply_orderly left right).of_ok) ?_
    intro value next later _ kept isPlain
    exact tells_pure kept (.of_isPlain isPlain)
  unfold BinaryOperator.perform
  dsimp only
  split
  · refine Tells.close (tells_note steady _ _) ?_
    intro _ next later _ kept _
    rw [List.append_nil] at kept ⊢
    exact applied kept
  · exact applied steady

end

end Draft

section

variable {since : Session} {scope : Scope} (inverted : Bool) {unfinished : List Nat} {past log : History}
  {layout : Layout} {scratch : Scratch} {node : Node}

/-- The value of an expression tells what the expression tells. -/
theorem Node.tells_value
    (tells : Draft.Tells since unfinished past layout scratch (node.evaluate inverted scope) log
      fun later operand => operand.Fine later unfinished) :
    Draft.Tells since unfinished past layout scratch (node.value inverted scope) log
      fun later value => later.Fine unfinished value :=
  Draft.Tells.close tells fun _ _ _ _ kept fine => Draft.tells_read kept fine

/-- A test tells what its expression tells. -/
theorem Node.tells_truth
    (tells : Draft.Tells since unfinished past layout scratch (node.evaluate inverted scope) log
      fun later operand => operand.Fine later unfinished) :
    Draft.Tells since unfinished past layout scratch (node.truth inverted scope) log fun _ _ => True :=
  Draft.Tells.close (Node.tells_value inverted tells) fun value _ _ _ kept _ =>
    Draft.tells_outcome kept (value.toBoolean_orderly inverted).of_ok

mutual
/-- Evaluating an expression leads from a steady moment to a steady moment. -/
theorem Node.tells_evaluate (node : Node) {unfinished : List Nat} {past : History} {layout : Layout}
    {scratch : Scratch} (steady : scratch.Steady since unfinished past layout)
    (visible : layout.Visible scope) :
    Draft.Tells since unfinished past layout scratch (node.evaluate inverted scope)
      (node.history inverted scope scratch) fun later operand => operand.Fine later unfinished := by
  cases node with
  | identifier ident =>
      rw [Node.evaluate, Node.history]
      · refine Draft.Tells.close (Draft.tells_resolve steady visible _) ?_
        intro address next later _ kept handed
        exact Draft.tells_pure kept handed
      all_goals simp
  | literal place value =>
      rw [Node.evaluate, Node.history]
      · refine Draft.Tells.close (Draft.tells_outcome steady fun _ => Tree.isPlain_of_literal) ?_
        intro literal next later _ kept isPlain
        exact Draft.tells_pure kept (.of_isPlain isPlain)
      all_goals simp
  | functionExpression place name params body =>
      rw [Node.evaluate, Node.history]
      · refine Draft.Tells.close (Draft.tells_close steady visible _) ?_
        intro closure next later _ kept fine
        exact Draft.tells_pure kept fine
      all_goals simp
  | object place properties =>
      rw [Node.evaluate_object, Node.history]
      refine Draft.tells_object steady visible fun object created later passed growing fine => ?_
      refine Draft.Tells.close (tells_evaluateProperties object properties growing (visible.later passed)
        fine.1 List.mem_cons_self) ?_
      intro _ final last further keeps _
      exact Draft.tells_pure keeps (fine.later further)
  | member place holder selector computed =>
      rw [Node.evaluate_member, Node.history]
      refine Draft.Tells.bind (Node.tells_value inverted (tells_evaluate holder steady visible)) ?_
      intro held next later passed kept fine
      cases held with
      | object found =>
          refine Draft.Tells.bind
            (Node.tells_value inverted (tells_evaluate selector kept (visible.later passed))) ?_
          intro selected final last further keeps _
          exact Draft.tells_select keeps (fine.later further) selected
      | _ => exact Draft.tells_fail _ kept
  | binary place operator left right =>
      rw [Node.evaluate_binary, Node.history]
      refine Draft.Tells.bind (Node.tells_value inverted (tells_evaluate left steady visible)) ?_
      intro leftValue next later passed kept _
      refine Draft.Tells.close
        (Node.tells_value inverted (tells_evaluate right kept (visible.later passed))) ?_
      intro rightValue final last _ keeps _
      exact Draft.tells_perform keeps operator leftValue rightValue
  | unary place operator argument =>
      rw [Node.evaluate_unary, Node.history]
      refine Draft.Tells.close (Node.tells_value inverted (tells_evaluate argument steady visible)) ?_
      intro value next later _ kept _
      refine Draft.Tells.close (Draft.tells_outcome kept (operator.apply_orderly inverted value).of_ok) ?_
      intro result final last _ keeps isPlain
      exact Draft.tells_pure keeps (.of_isPlain isPlain)
  | logical place operator left right =>
      rw [Node.evaluate_logical, Node.history]
      refine Draft.Tells.bind (Node.tells_truth inverted (tells_evaluate left steady visible)) ?_
      intro _ next later passed kept _
      refine Draft.Tells.close
        (Node.tells_truth inverted (tells_evaluate right kept (visible.later passed))) ?_
      intro _ final last _ keeps _
      exact Draft.tells_fail _ keeps
  | assignment place operator left right =>
      cases operator with
      | other written =>
          rw [Node.evaluate, Node.history]
          · exact Draft.tells_fail _ steady
          all_goals simp
      | assign =>
          rw [Node.evaluate_assignment, Node.history]
          refine Draft.Tells.bind (tells_evaluate left steady visible) ?_
          intro target next later passed kept denotes
          refine Draft.Tells.bind
            (Node.tells_value inverted (tells_evaluate right kept (visible.later passed))) ?_
          intro value final last further keeps fine
          refine Draft.Tells.close (Draft.tells_write keeps (further.operand denotes) fine) ?_
          intro _ settled after onward stays _
          exact Draft.tells_pure stays (fine.later onward)
  | _ =>
      rw [Node.evaluate, Node.history]
      · exact Draft.tells_fail _ steady
      all_goals simp

/-- The properties of an object that is not finished yet are bound one after the other. -/
theorem Node.tells_evaluateProperties (object : Object) (properties : List Node) {unfinished : List Nat}
    {past : History} {layout : Layout} {scratch : Scratch}
    (steady : scratch.Steady since unfinished past layout) (visible : layout.Visible scope)
    (good : layout.Good (.object object)) (growing : object.properties.inner ∈ unfinished) :
    Draft.Tells since unfinished past layout scratch
      (Node.evaluateProperties inverted scope object properties)
      (Node.propertiesHistory inverted scope object properties scratch)
      fun _ _ => True := by
  match properties with
  | [] =>
      rw [Node.evaluateProperties, Node.propertiesHistory]
      · exact Draft.tells_pure steady trivial
      all_goals simp
  | first :: rest =>
      by_cases isProperty : ∃ place key value, first = .property place key value
      · obtain ⟨place, key, value, rfl⟩ := isProperty
        rw [Node.evaluateProperties_cons, Node.propertiesHistory]
        refine Draft.Tells.bind (Node.tells_value inverted (tells_evaluate value steady visible)) ?_
        intro held next later passed kept fine
        rw [← bind_assoc]
        refine Draft.Tells.bind (Draft.tells_fill kept (good.later passed) growing key fine) ?_
        intro _ final last further keeps _
        have since := passed.trans further
        exact tells_evaluateProperties object rest keeps (visible.later since) (good.later since) growing
      · obtain ⟨fault, refused⟩ := Node.exists_evaluateProperties_eq_throw inverted
          (fun place key value same => isProperty ⟨place, key, value, same⟩) rest
        rw [refused, Node.propertiesHistory]
        · exact Draft.tells_fail fault steady
        · rintro place key value others ⟨⟩
          exact isProperty ⟨place, key, value, rfl⟩
end

end

end ScriptMachine

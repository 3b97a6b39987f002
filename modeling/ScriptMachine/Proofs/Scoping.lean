/-
This file says that scoping is static. Main statement: in every run of a well-formed program, the scope
of a state, of pending work and of a function has one frame for every static scope around the place that
it belongs to, and a frame binds only names that are declared in its static scope.
-/

import ScriptMachine.Proofs.Layout
import ScriptMachine.Proofs.StaticScope

namespace ScriptMachine

/-- Frames stand for static scopes, one for each. Inner frames are newer than those around them. -/
inductive Aligned (stands : Nat → StaticScope → Prop) : List Nat → List StaticScope → Prop where
  | nil : Aligned stands [] []
  | cons {frame : Nat} {outer : List Nat} {scope : StaticScope} {scopes : List StaticScope}
      (inner : stands frame scope) (newest : ∀ other ∈ outer, other < frame)
      (rest : Aligned stands outer scopes) : Aligned stands (frame :: outer) (scope :: scopes)

variable {stands : Nat → StaticScope → Prop} {chain : List Nat} {scopes : List StaticScope}

theorem Aligned.imp {wider : Nat → StaticScope → Prop}
    (weaker : ∀ frame scope, stands frame scope → wider frame scope) (aligned : Aligned stands chain scopes) :
    Aligned wider chain scopes := by
  induction aligned with
  | nil => exact .nil
  | cons inner newest _ ih =>
      exact .cons (weaker _ _ inner) newest ih

theorem Aligned.exists_of_mem (aligned : Aligned stands chain scopes) :
    ∀ frame ∈ chain, ∃ scope, stands frame scope := by
  induction aligned with
  | nil => exact fun frame member => absurd member List.not_mem_nil
  | cons inner _ _ ih =>
      exact List.forall_mem_cons.mpr ⟨⟨_, inner⟩, ih⟩

/-- The static scopes that frames stand for. Frames of objects, and those of others, stand for none. -/
abbrev Labels := List (Option StaticScope)

namespace Labels

def Marks (labels : Labels) (frame : Nat) (scope : StaticScope) : Prop :=
  labels[frame]? = some (some scope)

/-- Frames bind names that are declared in the scopes that they stand for. -/
structure Frames (labels : Labels) (session : Session) : Prop where
  size : labels.length = session.frames.size
  declared : ∀ frame scope, labels.Marks frame scope → ∀ key address,
    (session.slots frame).address? key = some address → scope.Declares key

/-- Functions have the scopes of the places where they were made. -/
def Good (program : Node) (labels : Labels) : Value → Prop
  | .function closure => ∃ node scopes, Enclosed program node scopes ∧ closure.code ∈ node.codes ∧
      Aligned labels.Marks closure.scope.chain scopes
  | .object object => labels[object.properties.inner]? = some none
  | .builtin _ _ _ routine => routine.isOwn = true
  | value => value.isPlain = true

section

variable {labels later : Labels} (passed : labels <+: later)
include passed

/-- A frame's label is never changed. -/
theorem known_later {frame : Nat} {label : Option StaticScope} (known : labels[frame]? = some label) :
    later[frame]? = some label := by
  obtain ⟨added, rfl⟩ := passed
  rw [List.getElem?_append_left (List.getElem?_eq_some_iff.mp known).1]
  exact known

theorem aligned_later {chain : List Nat} {scopes : List StaticScope}
    (aligned : Aligned labels.Marks chain scopes) : Aligned later.Marks chain scopes :=
  aligned.imp fun _ _ marked => known_later passed marked

theorem good_later {program : Node} {value : Value} (good : labels.Good program value) :
    later.Good program value := by
  cases value with
  | function closure =>
      obtain ⟨node, scopes, enclosed, made, aligned⟩ := good
      exact ⟨node, scopes, enclosed, made, aligned_later passed aligned⟩
  | object object =>
      have known : labels[object.properties.inner]? = some none := good
      exact known_later passed known
  | _ => exact good

end

namespace Frames

variable {labels : Labels} {session after : Session} (frames : labels.Frames session)
include frames

/-- A new frame that stands for a static scope binds nothing yet. -/
theorem push {label : Option StaticScope} (size : after.frames.size = session.frames.size + 1)
    (slots : ∀ frame, frame ≠ session.frames.size → after.slots frame = session.slots frame)
    (fresh : label ≠ none → after.slots session.frames.size = []) :
    Frames (labels ++ [label]) after where
  size := by rw [List.length_append, List.length_singleton, frames.size, size]
  declared frame scope marked key address bound := by
    by_cases inside : frame < labels.length
    · have before : labels.Marks frame scope := by
        unfold Labels.Marks at marked
        rw [List.getElem?_append_left inside] at marked
        exact marked
      rw [slots frame (frames.size ▸ Nat.ne_of_lt inside)] at bound
      exact frames.declared frame scope before key address bound
    · have last : frame = labels.length := by
        have limit := (List.getElem?_eq_some_iff.mp marked).1
        rw [List.length_append, List.length_singleton] at limit
        omega
      subst last
      unfold Labels.Marks at marked
      rw [List.getElem?_append_right (Nat.le_refl _), Nat.sub_self] at marked
      have present : label ≠ none := by
        rintro rfl
        cases marked
      rw [frames.size, fresh present] at bound
      cases bound

variable {frame : Nat} {key : Key}

/-- Declaring what the scope declares keeps the labels. -/
theorem declare (written : Tree) (declares : ∀ scope, labels.Marks frame scope → scope.Declares key) :
    labels.Frames (session.declare frame key written).2 where
  size := by rw [session.size_declare, frames.size]
  declared other scope marked found address bound := by
    by_cases same : other = frame ∧ found = key
    · obtain ⟨rfl, rfl⟩ := same
      exact declares scope marked
    · rw [session.address?_declare_of_ne written (Decidable.not_and_iff_or_not.mp same)] at bound
      exact frames.declared other scope marked found address bound

/-- The frame of an object may bind any name. -/
theorem declare_object (written : Tree) (object : labels[frame]? = some none) :
    labels.Frames (session.declare frame key written).2 := by
  refine frames.declare written fun scope marked => ?_
  unfold Labels.Marks at marked
  rw [object] at marked
  cases marked

/-- A scope that is opened inside another one has a frame for one more static scope. -/
theorem aligned_push {chain : List Nat} {scopes : List StaticScope} (scope : StaticScope)
    (aligned : Aligned labels.Marks chain scopes) :
    Aligned (Labels.Marks (labels ++ [some scope])) (session.frames.size :: chain) (scope :: scopes) := by
  refine .cons ?_ ?_ (aligned_later (List.prefix_append _ _) aligned)
  · unfold Labels.Marks
    rw [← frames.size, List.getElem?_append_right (Nat.le_refl _), Nat.sub_self]
    rfl
  · intro other member
    obtain ⟨known, marked⟩ := aligned.exists_of_mem other member
    rw [← frames.size]
    exact (List.getElem?_eq_some_iff.mp marked).1

end Frames

end Labels

/-- What is said about the scopes of a program. -/
def Account.scoping (program : Node) : Account where
  World := Labels
  Later labels later := labels <+: later
  Frames := Labels.Frames
  Stores labels store := ∀ address, labels.Good program (store.get address)
  Good := Labels.Good program
  Readable _ _ := True
  Writable _ _ := True
  Sees labels scope node := ∃ place scopes, Enclosed program place scopes ∧
    Aligned labels.Marks scope.chain scopes ∧ ∀ code ∈ node.codes, code ∈ place.codes
  Stands labels control scope :=
    ∃ scopes, control.Lies program scopes ∧ Aligned labels.Marks scope.chain scopes
  Binds labels scope key := ∃ static, labels.Marks scope.inner static ∧ static.Declares key
  Building labels object := labels[object.properties.inner]? = some none
  Assigned _ := True
  Rebinds := True

namespace Labels

variable {program : Node} {labels : Labels} {session : Session} {allocator : Nat}

/-- A new frame stands for the static scope that is entered, and expects its names. -/
theorem reaches_addFrame {outer : List Nat} {scopes : List StaticScope} {entered : Control}
    {params : List Ident} (frames : labels.Frames session) (scope : StaticScope)
    (aligned : Aligned labels.Marks outer scopes) (lies : entered.Lies program (scope :: scopes))
    (named : ∀ param ∈ params, param.name ∈ scope.names) :
    (Account.scoping program).Reaches labels (session.addFrame allocator) fun later =>
      (Account.scoping program).Stands later entered ⟨session.frames.size, outer⟩ ∧
        (Account.scoping program).Expects later ⟨session.frames.size, outer⟩ params := by
  have around := frames.aligned_push scope aligned
  refine ⟨labels ++ [some scope], List.prefix_append _ _, ?_, ⟨_, lies, around⟩, ?_⟩
  · exact frames.push (session.size_addFrame _) (fun _ => session.slots_addFrame_of_ne _)
      fun _ => session.slots_addFrame_self _
  · intro param member key keyed
    cases around with
    | cons inner _ _ => exact ⟨scope, inner, param.name, named param member, keyed⟩

/-- The frame of a new object stands for no static scope. -/
theorem reaches_addObject (frames : labels.Frames session) (proto : Address) (outer : List Nat) :
    (Account.scoping program).Reaches labels (session.addObject allocator proto) fun later =>
      (Account.scoping program).Building later ⟨proto, ⟨session.frames.size, outer⟩⟩ := by
  refine ⟨labels ++ [none], List.prefix_append _ _, ?_, ?_⟩
  · exact frames.push (session.size_addObject _ _) (fun _ => session.slots_addObject_of_ne _ _)
      fun present => absurd rfl present
  · show (labels ++ [none])[session.frames.size]? = some none
    rw [← frames.size, List.getElem?_append_right (Nat.le_refl _), Nat.sub_self]
    rfl

end Labels

/-- Well-formed programs keep their scopes static. -/
def Regime.scoping {program : Node} {plain : Bool} (formed : program.isWellFormed plain = true)
    (owns : program.OwnsExits) : Regime where
  toAccount := .scoping program
  later_refl := List.prefix_refl
  later_trans := List.IsPrefix.trans
  stores_later passed stores address := Labels.good_later passed (stores address)
  good_later passed good := Labels.good_later passed good
  readable_later _ _ := trivial
  writable_later _ _ := trivial
  sees_later := by
    rintro labels later scope node passed ⟨place, scopes, enclosed, aligned, codes⟩
    exact ⟨place, scopes, enclosed, Labels.aligned_later passed aligned, codes⟩
  stands_later := by
    rintro labels later control scope passed ⟨scopes, lies, aligned⟩
    exact ⟨scopes, lies, Labels.aligned_later passed aligned⟩
  binds_later := by
    rintro labels later scope key passed ⟨static, marked, declares⟩
    exact ⟨static, Labels.known_later passed marked, declares⟩
  building_later passed building := Labels.known_later passed building
  plain {_ value} isPlain := by cases value <;> simp_all [Value.isPlain, Account.scoping, Labels.Good]
  own good := good
  direct bad := nomatch bad
  read stores _ := stores _
  write {labels store found value next} stores _ good extended := by
    intro other
    rw [Store.get_extend extended]
    split
    · exact good
    · exact stores other
  report _ _ frames := ⟨frames.size, frames.declared⟩
  sees_operand := by
    rintro labels scope node part ⟨place, scopes, enclosed, aligned, codes⟩ operand
    exact ⟨place, scopes, enclosed, aligned, fun code made =>
      codes code (Node.mem_codes_of_operand operand made)⟩
  sees_of_stands := by
    rintro labels node next scope ⟨scopes, lies, aligned⟩
    exact ⟨node, scopes, lies.1, aligned, fun code made => made⟩
  binds_of_stands := by
    rintro labels node next scope name key ⟨scopes, lies, aligned⟩ declared named
    obtain ⟨first, rest, rfl, known⟩ := lies.1.declares formed (Node.mem_declaredDirectly declared)
    cases aligned with
    | cons inner _ _ => exact ⟨first, inner, name, known, named⟩
  flow := by
    rintro labels control further scope ⟨scopes, lies, aligned⟩ flows
    exact ⟨scopes, lies.flows formed flows, aligned⟩
  assigned {_ _ _ left _} _ := by
    unfold Account.Assignable
    split
    · trivial
    · exact fun _ => trivial
    · trivial
    · trivial
  close := by
    rintro labels session scope node code frames ⟨place, scopes, enclosed, aligned, codes⟩ made
    exact ⟨labels, List.prefix_refl _, ⟨frames.size, frames.declared⟩, place, scopes, enclosed,
      codes code made, aligned⟩
  resolve _ _ _ _ := ⟨trivial, fun _ => trivial⟩
  declare := by
    rintro labels session scope key written frames ⟨static, marked, declares⟩
    refine ⟨labels, List.prefix_refl _, frames.declare written fun other known => ?_, trivial⟩
    cases marked.symm.trans known
    exact declares
  opens := by
    rintro labels session control scope params entered frames ⟨scopes, lies, aligned⟩ opens
    obtain ⟨static, inside, named⟩ := lies.opens formed owns opens
    exact Labels.reaches_addFrame frames static aligned inside named
  enter := by
    rintro labels session closure frames ⟨node, scopes, enclosed, made, aligned⟩
    exact Labels.reaches_addFrame frames (.params closure.code) aligned
      (enclosed.lies_functionBody formed made) fun param member => List.mem_map_of_mem member
  create := by
    intro labels session store scope place properties proto frames _ _ _
    exact Labels.reaches_addObject frames proto _
  fill written frames building _ _ :=
    ⟨_, List.prefix_refl _, frames.declare_object written building, trivial⟩
  finish building := building
  locate := by
    intro labels session object key written frames good
    refine ⟨labels, List.prefix_refl _, ?_, trivial, fun _ => trivial⟩
    unfold Session.locate
    split
    · exact frames
    · exact frames.declare_object written good

namespace Labels

variable {place : Place} {body : List Node} {base : Session}

/-- The labels that a run begins with: the globals stand for the program. -/
def initial (base : Session) (body : List Node) : Labels :=
  List.replicate base.frames.size none ++ [some (.program body), none]

theorem known_initial {frame : Nat} {label : Option StaticScope}
    (known : (initial base body)[frame]? = some label) :
    label = none ∨ frame = base.frames.size ∧ label = some (.program body) := by
  rcases Machine.noted_begun known with foreign | globals | ⟨-, prototype⟩
  · exact .inl foreign
  · exact .inr globals
  · exact .inl prototype

/-- The first frames bear the first labels. -/
theorem frames_begun : (initial base body).Frames (Machine.begun base) where
  size := by simp [initial, Machine.begun, Globals.underway]
  declared frame scope marked key address bound := by
    obtain impossible | ⟨rfl, same⟩ := known_initial marked
    · cases impossible
    · cases same
      rw [Layout.slots_begun_globals] at bound
      obtain ⟨slot, member, rfl, -⟩ := Slots.exists_of_address? bound
      obtain ⟨name, listed, named⟩ : ∃ name ∈ ["print", "undefined", "%ObjectPrototype%"].map Name.ofText,
          name.key = .ok slot.key := by
        simp only [Globals.ownSlots, List.mem_cons, List.not_mem_nil, or_false] at member
        rcases member with rfl | rfl | rfl <;> exact ⟨.ofText _, by simp, rfl⟩
      exact ⟨name, List.mem_append_left _ listed, named⟩

theorem good_begun {program : Node} (address : Address) :
    (initial base body).Good program ((Globals.store base).get address) := by
  refine Globals.forall_get_store base ?_ ?_ (fun _ own => own) address
  · intro value isPlain
    cases value <;> simp_all [Value.isPlain, Good]
  · simp [Good, initial, Globals.prototype]

theorem aligned_begun :
    Aligned (initial base body).Marks (Machine.globalScope base).chain [.program body] := by
  refine .cons ?_ (fun other member => absurd member List.not_mem_nil) .nil
  simp [Marks, initial, Machine.globalScope]

end Labels

/-- There is one frame in a scope for every static scope, and it binds names that are declared there. -/
def Session.Mirrors (session : Session) (scope : Scope) (scopes : List StaticScope) : Prop :=
  Aligned (fun frame static => ∀ key address,
    (session.slots frame).address? key = some address → static.Declares key) scope.chain scopes

/-- A scope mirrors the static scopes around the place where control stands. -/
def Session.MirrorsAt (session : Session) (program : Node) (control : Control) (scope : Scope) : Prop :=
  ∃ scopes, control.Enclosed program scopes ∧ session.Mirrors scope scopes

/-- Pending work goes on inside of the static scopes that its scope mirrors. A handler belongs to a try
statement there. -/
def Pending.Mirrored (session : Session) (program : Node) : Pending → Prop
  | .call _ resume saved | .scope resume saved => session.MirrorsAt program resume saved
  | .handler clause saved resume => ∃ scopes place guarded others exit,
      Enclosed program (.tryStatement place guarded clause others exit) scopes ∧
        resume.Enclosed program scopes ∧ session.Mirrors saved scopes

/-- Scopes are static in a state: its own, those of its pending work, and those of the functions that it
holds. -/
structure State.Mirrored (session : Session) (program : Node) (state : State) : Prop where
  own : ∀ scope, state.scope? = some scope → session.MirrorsAt program state.control scope
  pending : ∀ pending ∈ state.continuation, pending.Mirrored session program
  functions : ∀ address closure, state.store.get address = .function closure →
    ∃ node scopes, Enclosed program node scopes ∧ closure.code ∈ node.codes ∧
      session.Mirrors closure.scope scopes

namespace Labels

variable {program : Node} {labels : Labels} {session : Session} {plain : Bool}
  (frames : labels.Frames session)
include frames
variable {scope : Scope}

/-- An aligned chain mirrors its scopes. -/
theorem mirrors {scopes : List StaticScope} (aligned : Aligned labels.Marks scope.chain scopes) :
    session.Mirrors scope scopes :=
  aligned.imp fun frame static marked key address bound =>
    frames.declared frame static marked key address bound

theorem mirrorsAt {control : Control} (stands : (Account.scoping program).Stands labels control scope) :
    session.MirrorsAt program control scope := by
  obtain ⟨scopes, lies, aligned⟩ := stands
  exact ⟨scopes, lies.enclosed, mirrors frames aligned⟩

theorem mirrored_of_awaits {pending : Pending} (awaits : (Account.scoping program).Awaits labels pending) :
    pending.Mirrored session program := by
  cases pending with
  | call target resume scope => exact mirrorsAt frames awaits.2
  | scope resume outer => exact mirrorsAt frames awaits
  | handler clause scope resume =>
      obtain ⟨place, guarded, others, exit, scopes, lies, aligned⟩ := awaits
      exact ⟨scopes, place, guarded, others, exit, lies.1, (lies.onward rfl).enclosed,
        mirrors frames aligned⟩

/-- States in order have static scopes. -/
theorem mirrored_of_sound {state : State} (sound : (Account.scoping program).Sound labels state) :
    state.Mirrored session program := by
  have stores : ∀ address, labels.Good program (state.store.get address) := by
    cases state <;> exact sound.1
  have pends : (Account.scoping program).Pends labels state.continuation := by
    cases state with
    | active | halted => exact sound.2.2
    | uncaught => exact fun pending member => absurd member List.not_mem_nil
  refine ⟨?_, fun pending member => mirrored_of_awaits frames (pends pending member), ?_⟩
  · intro scope known
    cases state with
    | active | halted =>
        cases known
        exact mirrorsAt frames sound.2.1
    | uncaught => cases known
  · intro address closure stored
    have good := stores address
    rw [stored] at good
    obtain ⟨node, scopes, enclosed, made, aligned⟩ := good
    exact ⟨node, scopes, enclosed, made, mirrors frames aligned⟩

end Labels

/-- A function that catches what it throws and makes a function of it, and a call. -/
def Sample.nesting : Tree :=
  let inner := node "FunctionExpression" [("id", .null), ("params", .list []),
    ("body", block [node "ReturnStatement" [("argument", name "e")]])]
  let clause := node "CatchClause" [("param", name "e"), ("body", block
    [declare "g" inner, node "ReturnStatement" [("argument", name "g")]])]
  let guarded := node "TryStatement"
    [("block", block [node "ThrowStatement" [("argument", name "a")]]), ("handler", clause)]
  program [function "f" ["a"] [guarded], declare "x" (call "f" [literal "one"])]

namespace Machine

variable {machine : Machine} {tree : Tree} {program : Node} {base : Session} {held : Exploration}
  {count counted : Nat} {plain : Bool}

/-- Scopes are static in every state of a well-formed program. -/
theorem Explored.mirrored (explored : machine.Explored program base held)
    (reads : tree.read count = .ok program counted) (formed : program.isWellFormed plain = true) :
    ∀ state ∈ held.states, state.Mirrored held.session program := by
  have owns := Tree.ownsExits_of_read reads
  obtain ⟨place, body, rfl⟩ : ∃ place body, program = .program place body := by
    cases program with
    | program place body => exact ⟨place, body, rfl⟩
    | _ => simp [Node.isWellFormed] at formed
  have stands : (Account.scoping (.program place body)).Stands (Labels.initial base body)
      (.visit (.program place body) .done) (globalScope base) :=
    ⟨_, ⟨.program rfl, place, body, rfl, rfl⟩, Labels.aligned_begun⟩
  obtain ⟨labels, -, frames, sound⟩ := (Regime.scoping formed owns).explored explored fun _ =>
    ⟨Labels.frames_begun, Labels.good_begun, stands⟩
  exact fun state member => Labels.mirrored_of_sound frames (sound state member)

/-- In a clause inside of a function, there are frames for the clause, for the body of the function, for
its parameters and for the program. -/
theorem Explored.mirrored_of_nesting :
    ∃ program counted held state, Sample.nesting.read 0 = .ok program counted ∧
      program.isWellFormed true = true ∧
      Explored ⟨.default, none⟩ program (Session.start false) held ∧ state ∈ held.states ∧
      state.scope? = some ⟨5, [3, 2, 0]⟩ ∧
      state.pendingLabels = ["LeaveScopeKont", "LeaveScopeKont", "AssignKont", "HaltKont"] ∧
      state.Mirrored held.session program := by
  obtain ⟨program, counted, reads, formed⟩ : ∃ program counted,
      Sample.nesting.read 0 = .ok program counted ∧ program.isWellFormed true = true :=
    Ends.exists_ok (by decide +kernel)
  obtain ⟨progress, after, ran, scope, labels⟩ : ∃ progress after,
      Machine.run ⟨.default, none⟩ 7 Sample.nesting (Session.start false) = .ok progress after ∧
        progress.state.scope? = some ⟨5, [3, 2, 0]⟩ ∧ progress.state.pendingLabels =
          ["LeaveScopeKont", "LeaveScopeKont", "AssignKont", "HaltKont"] :=
    Ends.exists_ok (by decide +kernel)
  obtain ⟨states, member, explored⟩ := explored_of_run rfl reads ran
  exact ⟨program, counted, _, progress.state, reads, formed, explored, member, scope, labels,
    explored.mirrored reads formed progress.state member⟩

end Machine

end ScriptMachine

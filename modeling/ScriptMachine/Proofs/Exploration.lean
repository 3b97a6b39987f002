/-
This file explores the runs of a program. Every state that has been reached is held and may be stepped
again, so that runs branch, but all of them share one session. Main statement: what a regime says of the
initial state it says of every state that an exploration holds.
-/

import ScriptMachine.Proofs.Beginning
import ScriptMachine.Proofs.Conduct
import ScriptMachine.Proofs.Growth
import ScriptMachine.Proofs.Outcome
import ScriptMachine.Proofs.Placement

namespace ScriptMachine

/-- The states that are held, and the session that they share. -/
structure Exploration where
  states : List State
  session : Session

namespace Sample

/-- Small programs are made of trees like those that are loaded. -/
def node (kind : String) (fields : List (String × Tree)) : Tree :=
  .record .dictionary (("type", .text kind) :: fields)

def name (text : String) : Tree := node "Identifier" [("name", .text text)]

def literal (text : String) : Tree := node "Literal" [("value", .text text)]

def object (properties : List (String × Tree)) : Tree :=
  let property := fun (entry : String × Tree) =>
    node "Property" [("key", name entry.1), ("value", entry.2)]
  node "ObjectExpression" [("properties", .list (properties.map property))]

def declare (declared : String) (value : Tree) : Tree :=
  node "VariableDeclaration" [("kind", .text "let"), ("declarations",
    .list [node "VariableDeclarator" [("id", name declared), ("init", value)]])]

/-- An assignment to a member of the object that a variable holds. -/
def assign (holder key : String) (value : Tree) : Tree :=
  let member := node "MemberExpression" [("object", name holder), ("property", name key)]
  node "ExpressionStatement" [("expression", node "AssignmentExpression"
    [("operator", .text "="), ("left", member), ("right", value)])]

def call (function : String) (arguments : List Tree) : Tree :=
  node "CallExpression" [("callee", name function), ("arguments", .list arguments)]

def block (body : List Tree) : Tree := node "BlockStatement" [("body", .list body)]

def function (called : String) (params : List String) (body : List Tree) : Tree :=
  node "FunctionDeclaration"
    [("id", name called), ("params", .list (params.map name)), ("body", block body)]

def program (body : List Tree) : Tree := node "Program" [("body", .list body)]

/-- A function that makes an object, and two calls of it. -/
def activations : Tree := program
  [function "f" ["a"] [declare "o" (object [("k", name "a")]),
      node "ReturnStatement" [("argument", name "o")]],
    declare "x" (call "f" [literal "one"]), declare "y" (call "f" [literal "two"])]

end Sample

namespace Machine

variable {machine : Machine} {start held last : Exploration}

/-- Any state that is held may be stepped. What it leads to is held from then on, and a failure leaves
its session behind. -/
inductive Explores (machine : Machine) (start : Exploration) : Exploration → Prop where
  | refl : Explores machine start start
  | step {held : Exploration} {state next : State} {after : Session}
      (explores : Explores machine start held) (member : state ∈ held.states)
      (stepped : machine.step state held.session = .ok next after) :
      Explores machine start ⟨next :: held.states, after⟩
  | fail {held : Exploration} {state : State} {fault : Fault} {after : Session}
      (explores : Explores machine start held) (member : state ∈ held.states)
      (failed : machine.step state held.session = .error fault after) :
      Explores machine start ⟨held.states, after⟩

/-- What an exploration of a program holds that began with a given session. -/
def Explored (machine : Machine) (program : Node) (base : Session) (held : Exploration) : Prop :=
  ∃ state after, initialState program base = .ok state after ∧ machine.Explores ⟨[state], after⟩ held

/-- Exploring composes. -/
theorem Explores.trans (before : machine.Explores start held) (after : machine.Explores held last) :
    machine.Explores start last := by
  induction after with
  | refl => exact before
  | step _ member stepped ih => exact ih.step member stepped
  | fail _ member failed ih => exact ih.fail member failed

/-- Sessions grow while states are explored. -/
theorem Explores.grows (explores : machine.Explores start held) : start.session.Grows held.session := by
  induction explores with
  | refl => exact .refl _
  | step _ _ stepped ih =>
      exact ih.trans ((machine.grows_step _ _).of_ok stepped)
  | fail _ _ failed ih =>
      exact ih.trans ((machine.grows_step _ _).of_error failed)

variable {steps counted : Nat} {session after : Session} {tree : Tree}

/-- A run is explored by stepping its last state each time. -/
theorem explores_advance {progress later : Progress}
    (advanced : machine.advance steps progress session = .ok later after)
    (explores : machine.Explores start held) (member : progress.state ∈ held.states)
    (same : held.session = session) :
    ∃ states, later.state ∈ states ∧ machine.Explores start ⟨states, after⟩ := by
  induction steps generalizing progress session held with
  | zero =>
      cases advanced
      subst same
      exact ⟨held.states, member, explores⟩
  | succ steps ih =>
      cases ended : progress.state.isDone with
      | true =>
          rw [advance_of_isDone machine _ ended] at advanced
          cases advanced
          subst same
          exact ⟨held.states, member, explores⟩
      | false =>
          rw [advance_succ ended] at advanced
          subst same
          cases stepped : machine.step progress.state held.session with
          | error fault last =>
              rw [stepped] at advanced
              cases advanced
          | ok next last =>
              rw [stepped] at advanced
              exact ih advanced (explores.step member stepped) List.mem_cons_self rfl

/-- A program is loaded without a trace unless it is outlined. -/
theorem ends_load_quiet (quiet : machine.config.outline = false) {program : Node}
    (reads : tree.read 0 = .ok program counted) (session : Session) :
    Ends (machine.load tree) session (fun loaded after => loaded = program ∧ after = session)
      fun _ _ => True := by
  unfold load readTree
  rw [reads, ends_bind, ends_pure]
  dsimp only
  split
  · trivial
  · simp only [quiet, Bool.false_eq_true, if_false, ends_bind, ends_fromExcept, ends_pure, and_self]
    split <;> trivial

/-- The last state of a run is explored. -/
theorem explored_of_run (quiet : machine.config.outline = false) {program : Node} {last : Progress}
    (reads : tree.read 0 = .ok program counted) (ran : machine.run steps tree session = .ok last after) :
    ∃ states, last.state ∈ states ∧ machine.Explored program session ⟨states, after⟩ := by
  have ends : Ends (machine.run steps tree) session (fun last after =>
      ∃ states, last.state ∈ states ∧ machine.Explored program session ⟨states, after⟩)
      fun _ _ => True := by
    unfold run begin
    simp only [ends_bind, ends_pure]
    refine (ends_load_quiet quiet reads session).weaken ?_ fun _ _ _ => trivial
    rintro loaded loadedSession ⟨rfl, rfl⟩
    refine Ends.intro (fun state begun started => ?_) fun _ _ _ => trivial
    refine Ends.intro (fun later final advanced => ?_) fun _ _ _ => trivial
    have starts : machine.Explores ⟨[state], begun⟩ ⟨[state], begun⟩ := .refl
    obtain ⟨states, member, explores⟩ := explores_advance advanced starts List.mem_cons_self rfl
    exact ⟨states, member, state, begun, started, explores⟩
  exact ends.of_ok ran

end Machine

namespace Regime

variable (regime : Regime) {machine : Machine} {start held : Exploration} {world : regime.World}

/-- What is in order stays in order while states are explored. -/
theorem explores (explores : machine.Explores start held) (frames : regime.Frames world start.session)
    (sound : ∀ state ∈ start.states, regime.Sound world state) :
    regime.Reaches world held.session fun later => ∀ state ∈ held.states, regime.Sound later state := by
  induction explores with
  | refl => exact regime.reaches_self frames sound
  | step _ member stepped ih =>
      obtain ⟨later, passed, kept, sounds⟩ := ih
      obtain ⟨last, further, keeps, next⟩ :=
        (regime.leads_step machine kept (sounds _ member)).of_ok stepped
      refine ⟨last, regime.later_trans passed further, keeps, List.forall_mem_cons.mpr ⟨next, ?_⟩⟩
      exact fun state held => regime.sound_later further (sounds state held)
  | fail _ member failed ih =>
      obtain ⟨later, passed, kept, sounds⟩ := ih
      obtain ⟨last, further, keeps, -⟩ :=
        (regime.leads_step machine kept (sounds _ member)).of_error failed
      refine ⟨last, regime.later_trans passed further, keeps, ?_⟩
      exact fun state held => regime.sound_later further (sounds state held)

/-- What is in order initially is in order in all that is explored. -/
theorem explored {program : Node} {base : Session} (explored : machine.Explored program base held)
    (begins : Session.machineAllocator < base.allocators.size →
      regime.Frames world (Machine.begun base) ∧ regime.Stores world (Globals.store base) ∧
        regime.Stands world (.visit program .done) (Machine.globalScope base)) :
    regime.Reaches world held.session fun later => ∀ state ∈ held.states, regime.Sound later state := by
  obtain ⟨state, after, started, explores⟩ := explored
  obtain ⟨allocates, rfl, rfl⟩ := Machine.initialState_eq started
  obtain ⟨frames, stores, stands⟩ := begins allocates
  refine regime.explores explores frames ?_
  intro state member
  obtain rfl := List.mem_singleton.mp member
  exact ⟨stores, stands, fun pending member => absurd member List.not_mem_nil⟩

end Regime

end ScriptMachine

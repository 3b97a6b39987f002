/-
This file follows control through programs that have no loops and no functions. Main statement: control
never comes to a node of such a program twice, so that its run ends, and has no more states than the
program has statements and exits, and one.
-/

import ScriptMachine.Proofs.Independence
import ScriptMachine.Proofs.Linking
import ScriptMachine.Proofs.Move
import ScriptMachine.Proofs.Vetting

namespace ScriptMachine

/-- The number of the node that control stands at. The end of the program has a number as well. -/
def Control.mark? : Control → Option Int
  | .nowhere => none
  | .done => some (-1)
  | .visit node _ => some node.place.id

/-- Loops, functions and returns take control elsewhere than on. -/
def Node.isLoopFree : Node → Bool
  | .whileStatement .. | .functionDeclaration .. | .functionExpression .. | .returnStatement .. => false
  | _ => true

/-- Control passes a node without loops, and leaves its blocks through their exits. -/
def Node.isPassable (node : Node) : Bool := node.isLoopFree && node.ownsExit

mutual
/-- The places of the statements that a statement is made of, of the exits of its blocks and of the exits
of its handlers, in the order in which they are read. -/
def Node.stops : Node → List Place
  | .program place body => place :: Node.allStops body
  | .block place body exit => place :: (Node.allStops body ++ exit.toList.map Place.ofExit)
  | .ifStatement place _ consequent alternate => place :: (consequent.stops ++ alternate.stops)
  | .tryStatement place guarded handler _ exit =>
      place :: (guarded.stops ++ (handler.stops ++ [.ofExit exit]))
  | .whileStatement place _ body | .functionDeclaration place _ _ body => place :: body.stops
  | .emptyStatement place | .expressionStatement place _ | .declaration place _ _
  | .returnStatement place _ | .throwStatement place _ => [place]
  | .scopeExit id | .handlerExit id => [.ofExit id]
  | .catchClause _ _ body => body.stops
  | _ => []

def Node.allStops : List Node → List Place
  | [] => []
  | statement :: rest => statement.stops ++ Node.allStops rest
end

mutual
/-- The stops of a node are among its places. -/
theorem Node.stops_sublist_places (node : Node) : node.stops.Sublist node.places := by
  cases node with
  | program place body => exact (Node.allStops_sublist_allPlaces body).cons_cons place
  | block place body exit =>
      exact ((Node.allStops_sublist_allPlaces body).append_right _).cons_cons place
  | ifStatement place test consequent alternate =>
      have branches := (Node.stops_sublist_places consequent).append (Node.stops_sublist_places alternate)
      exact (branches.trans (List.sublist_append_right _ _)).cons_cons place
  | tryStatement place guarded handler others exit =>
      have exits : [Place.ofExit exit].Sublist (Node.allPlaces others ++ [.ofExit exit]) :=
        List.sublist_append_right _ _
      exact ((Node.stops_sublist_places guarded).append
        ((Node.stops_sublist_places handler).append exits)).cons_cons place
  | whileStatement place test body =>
      exact ((Node.stops_sublist_places body).trans (List.sublist_append_right _ _)).cons_cons place
  | functionDeclaration place name params body =>
      have inside := (List.sublist_append_right (params.map Ident.place) body.places).trans
        (List.sublist_append_right name.places _)
      exact ((Node.stops_sublist_places body).trans inside).cons_cons place
  | catchClause place param body =>
      exact ((Node.stops_sublist_places body).cons param.place).cons place
  | emptyStatement place | expressionStatement place _ | declaration place _ _ | returnStatement place _
  | throwStatement place _ =>
      exact (List.nil_sublist _).cons_cons place
  | scopeExit id | handlerExit id => exact .refl _
  | _ => exact List.nil_sublist _

theorem Node.allStops_sublist_allPlaces (statements : List Node) :
    (Node.allStops statements).Sublist (Node.allPlaces statements) := by
  match statements with
  | [] => exact .refl _
  | statement :: rest =>
      exact (Node.stops_sublist_places statement).append (Node.allStops_sublist_allPlaces rest)
end

/-- The places that control may still come to, in their order, from where it stands and with the work
that is pending. Control that falls off a body leaves its scope, and control that falls off a protected
block leaves the clause behind. -/
inductive Route (plain : Bool) : Control → Continuation → List Place → Prop where
  | ended : Route plain .done [] []
  | program {place : Place} {body : List Node} (formed : Node.areStatements plain false body = true) :
      Route plain (.visit (.program place body) .done) [] (place :: Node.allStops body)
  | statement {node : Node} {next : Control} {continuation : Continuation} {onward : List Place}
      (formed : node.isStatement plain false = true) (route : Route plain next continuation onward) :
      Route plain (.visit node next) continuation (node.stops ++ onward)
  | scopeExit {id : Nat} {next : Control} {outer : Scope} {continuation : Continuation}
      {onward : List Place} (route : Route plain next continuation onward) :
      Route plain (.visit (.scopeExit id) next) (.scope next outer :: continuation) (.ofExit id :: onward)
  | handlerExit {id : Nat} {clause : Node} {next : Control} {outer : Scope} {continuation : Continuation}
      {onward : List Place} (formed : clause.isClause plain false = true)
      (route : Route plain next continuation onward) :
      Route plain (.visit (.handlerExit id) next) (.handler clause outer next :: continuation)
        (clause.stops ++ .ofExit id :: onward)

namespace Route

variable {plain : Bool} {control next : Control} {continuation : Continuation} {onward : List Place}

/-- A row of statements comes before what follows it. -/
theorem through {statements : List Node} (formed : Node.areStatements plain false statements = true)
    (route : Route plain next continuation onward) :
    Route plain (.through statements next) continuation (Node.allStops statements ++ onward) := by
  induction statements with
  | nil => exact route
  | cons statement rest ih =>
      rw [Node.areStatements, Bool.and_eq_true] at formed
      rw [Control.through_cons, Node.allStops, List.append_assoc]
      exact .statement formed.1 (ih formed.2)

variable {outer : Scope}

/-- A row of statements in a scope of its own is left through its exit. -/
theorem body {body : List Node} {id : Nat} (formed : Node.areStatements plain false body = true)
    (route : Route plain next continuation onward) :
    Route plain (.through body (.exiting (some id) next)) (.scope next outer :: continuation)
      (Node.allStops body ++ .ofExit id :: onward) :=
  .through formed (.scopeExit route)

/-- Control stands at a place that is still to be come to. -/
theorem place_mem {node : Node} (route : Route plain (.visit node next) continuation onward) :
    node.place ∈ onward := by
  cases route with
  | program formed => exact List.mem_cons_self
  | statement formed route =>
      apply List.mem_append_left
      cases node <;> simp_all [Node.isStatement, Node.stops, Node.place]
  | scopeExit route => exact List.mem_cons_self
  | handlerExit formed route => exact List.mem_append_right _ List.mem_cons_self

/-- A handler that is pending goes on behind its try statement. The places of its clause come before. -/
theorem behind {above rest : Continuation} {clause : Node} {resume : Control}
    (route : Route plain control continuation onward)
    (split : continuation = above ++ .handler clause outer resume :: rest) :
    clause.isClause plain false = true ∧ ∃ later, Route plain resume rest later ∧
      (clause.stops ++ later).Sublist onward := by
  induction route generalizing above with
  | ended | program formed => simp at split
  | statement formed route ih =>
      obtain ⟨isClause, later, follows, inside⟩ := ih split
      exact ⟨isClause, later, follows, inside.trans (List.sublist_append_right _ _)⟩
  | scopeExit route ih =>
      cases above with
      | nil => simp at split
      | cons pending above =>
          obtain ⟨isClause, later, follows, inside⟩ := ih (List.cons.inj split).2
          exact ⟨isClause, later, follows, inside.cons _⟩
  | handlerExit formed route ih =>
      cases above with
      | nil =>
          obtain ⟨same, rfl⟩ := List.cons.inj split
          cases same
          exact ⟨formed, _, route, (List.sublist_cons_self _ _).append_left _⟩
      | cons pending above =>
          obtain ⟨isClause, later, follows, inside⟩ := ih (List.cons.inj split).2
          exact ⟨isClause, later, follows, (inside.cons _).trans (List.sublist_append_right _ _)⟩

end Route

/-- Control has passed a place, and the places before it are among those that came after that place. -/
def State.Passes (plain : Bool) (place : Place) (places : List Place) (state : State) : Prop :=
  ∃ onward, Route plain state.control state.continuation onward ∧ (place :: onward).Sublist places

theorem Node.isPassable_of_isExit {node : Node} (exit : node.isExit = true) : node.isPassable = true := by
  cases node with
  | scopeExit | handlerExit => rfl
  | _ => cases exit

/-- A block with statements has an exit. -/
theorem Node.exists_exit {place : Place} {body : List Node} {exit : Option Nat}
    (passable : (Node.block place body exit).isPassable = true) (filled : body.isEmpty = false) :
    ∃ id, exit = some id := by
  rw [Node.isPassable, Bool.and_eq_true] at passable
  have owned : exit.isSome = !body.isEmpty := eq_of_beq passable.2
  exact Option.isSome_iff_exists.mp (by simp [owned, filled])

/-- Where there are no functions, no value is one. -/
theorem Value.Vetted.not_function {closure : Closure} :
    ¬ (Value.function closure).Vetted Node.isPassable := by
  rintro ⟨node, every, made⟩
  obtain ⟨function, inside, isCode⟩ := Node.exists_of_mem_codes node closure.code made
  have passable := every function inside
  cases function with
  | functionExpression | functionDeclaration => simp [Node.isPassable, Node.isLoopFree] at passable
  | _ => cases isCode

namespace Machine

variable {machine : Machine} {plain : Bool} {node : Node} {next : Control} {scope : Scope} {store : Store}
  {continuation : Continuation} {session : Session} {places : List Place}

/-- What control comes to has been checked. -/
def passing : Regime := .vetting @Node.isPassable_of_isExit

section

variable {site : CallSite} {scratch : Scratch} {inverted : Bool} {callee : Node} {arguments : List Node}

/-- Without functions, a call answers at once. -/
theorem ends_callFrom_passing (holds : passing.Holds () scratch) (sees : callee.Every Node.isPassable) :
    Ends (callFrom inverted site callee arguments) scratch
      (fun state _ => state.control = site.resume ∧ state.continuation = site.continuation)
      fun _ _ => True := by
  rw [callFrom_eq, ends_bind]
  refine (passing.keeps_value inverted holds sees).weaken ?_ fun _ _ _ => trivial
  rintro value after ⟨_, -, -, -, vetted⟩
  cases value with
  | builtin identity arity name routine =>
      refine ends_then fun values _ => ends_then fun answer _ => ends_then fun arrived _ => ?_
      rw [ends_liftAction]
      exact ends_returned_pending answer arrived
  | function closure => exact absurd vetted Value.Vetted.not_function
  | _ => exact ends_then fun _ _ => trivial

/-- A statement whose call is over goes on like one without a call. -/
def Resumes (next : Control) (continuation : Continuation) : Effect → Prop
  | .operand _ => True
  | .entered state => state.control = next ∧ state.continuation = continuation

/-- A passable call goes straight on. -/
theorem resumes_callFrom {target : Target} (holds : passing.Holds () scratch)
    (sees : callee.Every Node.isPassable) :
    Ends (callFrom inverted ⟨target, next, scope, continuation⟩ callee arguments >>=
        fun state => pure (Effect.entered state)) scratch
      (fun effect _ => Resumes next continuation effect) fun _ _ => True := by
  rw [ends_bind]
  exact ends_callFrom_passing holds sees

theorem resumes_evaluateStatement {expression : Node} (holds : passing.Holds () scratch)
    (sees : expression.Every Node.isPassable) :
    Ends (expression.evaluateStatement inverted scope continuation next) scratch
      (fun effect _ => Resumes next continuation effect) fun _ _ => True := by
  have parts := (Node.every_iff.mp sees).2
  unfold Node.evaluateStatement
  split
  · exact resumes_callFrom holds (parts _ (by simp [Node.parts]))
  · rename_i place left called callee arguments
    have call := parts (.call called callee arguments) (by simp [Node.parts])
    have callable := (Node.every_iff.mp call).2 callee (by simp [Node.parts])
    rw [ends_bind]
    refine (passing.evaluate inverted left holds (parts left (by simp [Node.parts]))).weaken ?_
      fun _ _ _ => trivial
    rintro operand after ⟨_, -, frames, stores, -⟩
    split
    · trivial
    · exact resumes_callFrom ⟨frames, stores⟩ callable
  · exact ends_then fun _ _ => trivial

theorem resumes_declaration {declarators : List Node} {keyword : Tree} (holds : passing.Holds () scratch)
    (sees : ∀ declarator ∈ declarators, declarator.Every Node.isPassable) :
    Ends (machine.declaration declarators keyword next scope continuation) scratch
      (fun effect _ => Resumes next continuation effect) fun _ _ => True := by
  unfold declaration
  split
  · rename_i place target called callee arguments
    have declarator := sees _ List.mem_cons_self
    have call := (Node.every_iff.mp declarator).2 (.call called callee arguments) (by simp [Node.parts])
    exact resumes_callFrom holds ((Node.every_iff.mp call).2 callee (by simp [Node.parts]))
  · trivial
  · trivial
  · exact ends_then fun _ _ => trivial

end

variable {place : Place} {onward : List Place}

/-- Resuming passes the places ahead. -/
theorem passes_resume {control : Control} (route : Route plain control continuation onward)
    (inside : (place :: onward).Sublist places) :
    Ends (State.resume control scope store continuation) session
      (fun state _ => state.Passes plain place places) fun _ _ => True := by
  apply Ends.intro
  · intro state after resumed
    have stands := (State.standsAt_of_resume resumed).1
    refine ⟨onward, ?_, inside⟩
    rw [stands.control, stands.continuation]
    exact route
  · intros
    trivial

theorem passes_proceed {draft : Draft Effect} (route : Route plain next continuation onward)
    (resumes : Ends draft ⟨session, store⟩ (fun effect _ => Resumes next continuation effect)
      fun _ _ => True) :
    Ends (proceed draft next scope store continuation) session
      (fun state _ => state.Passes plain place (place :: onward)) fun _ _ => True := by
  unfold proceed
  rw [ends_bind, ends_run]
  refine resumes.weaken ?_ fun _ _ _ => trivial
  intro effect arrived resumes
  cases effect with
  | operand operand => exact passes_resume route (.refl _)
  | entered state =>
      refine ⟨onward, ?_, .refl _⟩
      rw [resumes.1, resumes.2]
      exact route

variable {value : Value}

/-- A value that is caught passes over the rest of the protected block. -/
theorem passes_caught {clause : Node} {outer : Scope} {resume : Control} {rest : Continuation}
    (formed : clause.isClause plain false = true) (passable : clause.Every Node.isPassable)
    (route : Route plain resume rest onward) (inside : (place :: (clause.stops ++ onward)).Sublist places) :
    Ends (Continuation.caught clause outer resume value store rest) session
      (fun state _ => state.Passes plain place places) fun _ _ => True := by
  obtain ⟨clausePlace, param, _, rfl, -, isBlock⟩ := Node.exists_of_isClause formed
  obtain ⟨blockPlace, body, exit, rfl, statements⟩ := Node.exists_of_isBlock isBlock
  have checked := passable (.block blockPlace body exit) (.part .self (by simp [Node.parts]))
  cases body with
  | nil =>
      have passed : (place :: onward).Sublist places :=
        ((List.sublist_append_right _ _).cons_cons place).trans inside
      exact passes_resume route passed
  | cons first following =>
      obtain ⟨id, rfl⟩ := Node.exists_exit checked rfl
      refine ends_then fun inner _ => ends_then fun address _ => ends_then fun bound _ => ?_
      refine passes_resume (.body statements route) (List.Sublist.trans ?_ inside)
      simp [Node.stops]

/-- A throw passes the places ahead. -/
theorem passes_thrown (route : Route plain next continuation onward) (pends : passing.Pends () continuation) :
    Ends (Continuation.thrown value store continuation) session
      (fun state _ => state.Passes plain place (place :: onward)) fun _ _ => True := by
  refine Ends.intro (fun state after thrown => ?_) fun _ _ _ => trivial
  rcases Continuation.cases_of_thrown thrown with
    ⟨above, clause, outer, resume, rest, rfl, -, caught⟩ | ⟨-, rfl⟩
  · obtain ⟨formed, later, follows, inside⟩ := route.behind rfl
    obtain ⟨_, guarded, others, exit, stands, -⟩ := pends (.handler clause outer resume) (by simp)
    have passable := (Node.every_iff.mp stands).2 clause (by simp [Node.parts])
    exact (passes_caught formed passable follows (inside.cons_cons place)).of_ok caught
  · exact ⟨[], .ended, (List.nil_sublist _).cons_cons place⟩

/-- A try statement enters its block at the first statement, inside a scope and a handler. -/
theorem passes_tryStatement {guarded handler : Node} {others : List Node} {exit : Nat}
    (formed : (Node.tryStatement place guarded handler others exit).isStatement plain false = true)
    (passable : guarded.Every Node.isPassable) (route : Route plain next continuation onward) :
    Ends (machine.stepActive (.tryStatement place guarded handler others exit) next scope store
        continuation) session
      (fun state _ => state.Passes plain place
        ((Node.tryStatement place guarded handler others exit).stops ++ onward)) fun _ _ => True := by
  rw [Node.isStatement, Bool.and_eq_true] at formed
  obtain ⟨inner, body, innerExit, rfl, statements⟩ := Node.exists_of_isBlock formed.1
  cases body with
  | nil => exact passes_resume route ((List.sublist_append_right _ _).cons_cons place)
  | cons first following =>
      obtain ⟨id, rfl⟩ := Node.exists_exit (passable _ .self) rfl
      refine ends_then fun opened _ => ?_
      refine passes_resume (.body statements (.handlerExit formed.2 route)) ?_
      simp [Node.stops]

/-- A step from a place leads to the places behind it. -/
theorem passes_stepActive (route : Route plain (.visit node next) continuation places)
    (stores : passing.Stores () store) (stands : passing.Stands () (.visit node next) scope)
    (pends : passing.Pends () continuation) :
    Ends (machine.stepActive node next scope store continuation) session
      (fun state _ => state.Passes plain node.place places) fun _ _ => True := by
  have holds : passing.Holds () ⟨session, store⟩ := ⟨trivial, stores⟩
  have passable : node.isPassable = true := stands.1 node .self
  have parts := (Node.every_iff.mp stands.1).2
  cases route with
  | @program place body formed =>
      have onward := Route.ended.through formed
      rw [List.append_nil] at onward
      exact passes_resume onward (.refl _)
  | scopeExit route =>
      cases next with
      | nowhere => cases route
      | done | visit => exact passes_resume route (.refl _)
  | handlerExit formed route => exact passes_resume route (List.sublist_append_right _ _)
  | @statement _ _ _ onward formed route =>
      cases node with
      | emptyStatement place => exact passes_resume route (.refl _)
      | block place body exit =>
          cases body with
          | nil => exact passes_resume route ((List.sublist_append_right _ _).cons_cons place)
          | cons first following =>
              obtain ⟨id, rfl⟩ := Node.exists_exit passable rfl
              refine ends_then fun inner _ => ?_
              refine passes_resume (.body (by simpa only [Node.isStatement] using formed) route) ?_
              simp [Node.stops, Node.place]
      | expressionStatement place expression =>
          exact passes_proceed route (resumes_evaluateStatement holds (parts expression (by simp [Node.parts])))
      | declaration place declarators keyword =>
          exact passes_proceed route (resumes_declaration holds parts)
      | ifStatement place test consequent alternate =>
          simp only [Node.isStatement, Bool.and_eq_true, Bool.or_eq_true] at formed
          refine ends_then fun result _ => ?_
          obtain ⟨truth, arrived⟩ := result
          cases truth with
          | true =>
              refine passes_resume (.statement formed.1.2 route) ?_
              simp [Node.stops, Node.place]
          | false =>
              dsimp only
              split
              · exact passes_resume route ((List.sublist_append_right _ _).cons_cons place)
              · rename_i present
                refine passes_resume (.statement (formed.2.resolve_left present) route) ?_
                simp [Node.stops, Node.place]
      | throwStatement place argument =>
          exact ends_then fun result _ => passes_thrown route pends
      | tryStatement place guarded handler others exit =>
          exact passes_tryStatement formed (parts guarded (by simp [Node.parts])) route
      | whileStatement | functionDeclaration | returnStatement =>
          simp [Node.isPassable, Node.isLoopFree] at passable
      | _ => simp [Node.isStatement] at formed

end Machine

/-- A state that has checked code to run, and some places before it. -/
structure State.Heads (plain : Bool) (places : List Place) (state : State) : Prop where
  vetted : state.Vetted Node.isPassable
  route : Route plain state.control state.continuation places

namespace Machine

variable {machine : Machine} {plain : Bool} {places : List Place} {state : State} {session after : Session}
  {steps : Nat}

/-- A step leaves the place behind at which it was taken. -/
theorem heads_step {next : State} (heads : state.Heads plain places)
    (stepped : machine.step state session = .ok next after) :
    ∃ place onward, state.control.mark? = some place.id ∧ next.Heads plain onward ∧
      (place :: onward).Sublist places := by
  have vetted := vetted_step @Node.isPassable_of_isExit heads.vetted stepped
  obtain ⟨⟨⟩, announced, -, moved⟩ := exists_of_bind stepped
  cases state with
  | active node following scope store continuation =>
      obtain ⟨stores, stands, pends⟩ := heads.vetted
      obtain ⟨onward, route, inside⟩ :=
        (passes_stepActive heads.route stores stands pends).of_ok moved
      exact ⟨node.place, onward, rfl, ⟨vetted, route⟩, inside⟩
  | halted scope store continuation => cases moved
  | uncaught value store => cases moved

/-- A run has its places before it, and no more of them than states are still to be seen. -/
theorem heads_advance {progress last : Progress} (heads : progress.state.Heads plain places)
    (advanced : machine.advance steps progress session = .ok last after) :
    ∃ onward, last.state.Heads plain onward ∧ onward.Sublist places ∧
      last.count + onward.length ≤ progress.count + places.length := by
  induction steps generalizing progress session places with
  | zero =>
      cases advanced
      exact ⟨places, heads, .refl _, Nat.le_refl _⟩
  | succ steps ih =>
      cases ended : progress.state.isDone with
      | true =>
          rw [advance_of_isDone machine _ ended] at advanced
          cases advanced
          exact ⟨places, heads, .refl _, Nat.le_refl _⟩
      | false =>
          rw [advance_succ ended] at advanced
          cases stepped : machine.step progress.state session with
          | error fault final =>
              rw [stepped] at advanced
              cases advanced
          | ok next final =>
              rw [stepped] at advanced
              obtain ⟨place, passed, -, further, inside⟩ := heads_step heads stepped
              obtain ⟨onward, comes, within, counted⟩ := ih further advanced
              have shorter : passed.length + 1 ≤ places.length := inside.length_le
              dsimp only at counted
              exact ⟨onward, comes, within.trans (List.sublist_of_cons_sublist inside), by omega⟩

/-- A state before the end of a run has a place before it. -/
theorem places_ne_nil (heads : state.Heads plain places) (active : state.isDone = false) :
    0 < places.length := by
  cases state with
  | active node next scope store continuation => exact List.length_pos_of_mem heads.route.place_mem
  | halted scope store continuation => cases active
  | uncaught value store => cases active

/-- A state that comes later in a run stands at another node. -/
theorem mark_ne_of_advance {earlier later : Progress} {before : Session}
    (increasing : (places.map Place.id).Pairwise (· < ·)) (positive : ∀ place ∈ places, 0 ≤ place.id)
    (heads : earlier.state.Heads plain places)
    (advanced : machine.advance steps earlier before = .ok later after)
    (further : earlier.count < later.count) : later.state.control.mark? ≠ earlier.state.control.mark? := by
  cases steps with
  | zero =>
      cases advanced
      exact absurd further (Nat.lt_irrefl _)
  | succ steps =>
      cases ended : earlier.state.isDone with
      | true =>
          rw [advance_of_isDone machine _ ended] at advanced
          cases advanced
          exact absurd further (Nat.lt_irrefl _)
      | false =>
          rw [advance_succ ended] at advanced
          cases stepped : machine.step earlier.state before with
          | error fault final =>
              rw [stepped] at advanced
              cases advanced
          | ok next final =>
              rw [stepped] at advanced
              -- The places that are left after a step come behind the place of the step, and numbers increase.
              obtain ⟨place, passed, stood, comes, inside⟩ := heads_step heads stepped
              obtain ⟨onward, last, within, -⟩ := heads_advance comes advanced
              have behind := increasing.sublist (inside.map Place.id)
              rw [List.map_cons, List.pairwise_cons] at behind
              rw [stood]
              cases standing : later.state.control with
              | nowhere => simp [Control.mark?]
              | done =>
                  have counted := positive place (inside.subset List.mem_cons_self)
                  simp only [Control.mark?, ne_eq, Option.some.injEq]
                  omega
              | visit node next =>
                  have route := last.route
                  rw [standing] at route
                  have member := within.subset route.place_mem
                  have less := behind.1 node.place.id (List.mem_map_of_mem member)
                  simp only [Control.mark?, ne_eq, Option.some.injEq]
                  omega

/-- A program without loops and functions that is loaded never comes to a node twice. Its run ends, in
the end of the program or in a failure of a step, and up to there it sees one state for each of its
statements and exits at most, and one more. -/
theorem run_of_isLoopFree {tree : Tree} {program : Node} {session loaded : Session}
    (loads : machine.load tree session = .ok program loaded)
    (allocates : Session.machineAllocator < session.allocators.size)
    (formed : program.isWellFormed plain = true) (loopFree : program.Every Node.isLoopFree) :
    (∀ fewer more earlier later before after, machine.run fewer tree session = .ok earlier before →
      machine.run more tree session = .ok later after → earlier.count < later.count →
      later.state.control.mark? ≠ earlier.state.control.mark?) ∧
    ∀ steps, program.stops.length ≤ steps →
      Ends (machine.run steps tree) session
        (fun last _ => last.state.isDone = true ∧ last.count ≤ 1 + program.stops.length)
        fun fault after => ∃ fewer last before, machine.run fewer tree session = .ok last before ∧
          last.state.isDone = false ∧ last.count ≤ program.stops.length ∧
          machine.step last.state before = .error fault after := by
  obtain ⟨counted, reads⟩ := exists_read_of_load loads
  have available : Session.machineAllocator < loaded.allocators.size := by
    rw [(Action.grows_of_ok loads).allocators]
    exact allocates
  have runs := run_of_load loads available
  have numbered := Tree.numbered_of_read reads
  have inside := program.stops_sublist_places
  have increasing : (program.stops.map Place.id).Pairwise (· < ·) :=
    numbered.pairwise.sublist (inside.map Place.id)
  have positive : ∀ place ∈ program.stops, 0 ≤ place.id := by
    intro place member
    have listed := List.mem_map_of_mem (f := Place.id) (inside.subset member)
    rw [numbered.ids] at listed
    obtain ⟨id, -, same⟩ := List.mem_map.mp listed
    omega
  have begins : (firstState program loaded).Heads plain program.stops := by
    have owns := Tree.ownsExits_of_read reads
    have passable : program.Every Node.isPassable := fun node within =>
      Bool.and_eq_true_iff.mpr ⟨loopFree node within, owns node within⟩
    refine ⟨vetted_initialState passable (initialState_of_allocates available), ?_⟩
    cases program with
    | program place body => exact .program formed
    | _ => simp [Node.isWellFormed] at formed
  constructor
  · intro fewer more earlier later before after first second less
    rw [runs] at first second
    obtain ⟨onward, heads, within, -⟩ := heads_advance begins first
    rcases Nat.le_total fewer more with fits | fits
    · rw [← Nat.add_sub_of_le fits, advance_add, bind_of_ok first] at second
      refine mark_ne_of_advance (increasing.sublist (within.map Place.id)) ?_ heads second less
      exact fun place member => positive place (within.subset member)
    · rw [← Nat.add_sub_of_le fits, advance_add, bind_of_ok second] at first
      have grown := ((ends_advance machine _ later after).of_ok first).1
      omega
  · intro steps enough
    have ends := ends_advance machine steps ⟨1, firstState program loaded⟩ (begun loaded)
    apply Ends.intro
    · intro last after advanced
      rw [runs] at advanced
      obtain ⟨onward, heads, -, bounded⟩ := heads_advance begins advanced
      dsimp only at bounded
      refine ⟨?_, by omega⟩
      rcases (ends.of_ok advanced).2 with done | counted
      · exact done
      · cases active : last.state.isDone with
        | true => rfl
        | false =>
            have ahead := places_ne_nil heads active
            dsimp only at counted
            omega
    · intro fault after failed
      rw [runs] at failed
      obtain ⟨fewer, last, before, advanced, active, failing⟩ := ends.of_error failed
      obtain ⟨onward, heads, -, bounded⟩ := heads_advance begins advanced
      have ahead := places_ne_nil heads active
      dsimp only at bounded
      exact ⟨fewer, last, before, (runs fewer).trans advanced, active, by omega, failing⟩

end Machine

/-- A branch with a block, and a protected block that is left by a throw before its end. -/
def Sample.detour : Tree :=
  let print := fun (argument : Tree) =>
    node "ExpressionStatement" [("expression", call "print" [argument])]
  let thrown := node "ThrowStatement" [("argument", literal "no")]
  let clause := node "CatchClause" [("param", name "e"), ("body", block [print (name "e")])]
  program
    [node "IfStatement" [("test", literal "yes"), ("consequent", block [print (literal "one")]),
      ("alternate", node "EmptyStatement" [])],
    node "TryStatement" [("block", block [thrown, print (literal "two")]), ("handler", clause)]]

/-- A program that passes some of its statements over ends with fewer states than it has statements and
exits, and its states are at different nodes. -/
theorem Machine.run_of_isLoopFree_of_detour :
    ∃ program loaded earlier before later after,
      Machine.load ⟨.default, none⟩ Sample.detour (Session.start false) = .ok program loaded ∧
      program.isWellFormed true = true ∧ program.Every Node.isLoopFree ∧ program.stops.length = 15 ∧
      Machine.run ⟨.default, none⟩ 3 Sample.detour (Session.start false) = .ok earlier before ∧
      Machine.run ⟨.default, none⟩ 15 Sample.detour (Session.start false) = .ok later after ∧
      earlier.count = 4 ∧ later.count = 10 ∧ after.output = "one\nno\n" ∧
      later.state.control.mark? ≠ earlier.state.control.mark? ∧ later.state.isDone = true ∧
      later.count ≤ 1 + program.stops.length := by
  obtain ⟨program, loaded, loads, formed, loopFree, length⟩ : ∃ program loaded,
      Machine.load ⟨.default, none⟩ Sample.detour (Session.start false) = .ok program loaded ∧
        program.isWellFormed true = true ∧ program.all Node.isLoopFree = true ∧
        program.stops.length = 15 :=
    Ends.exists_ok (by decide +kernel)
  obtain ⟨earlier, before, first, count⟩ : ∃ earlier before,
      Machine.run ⟨.default, none⟩ 3 Sample.detour (Session.start false) = .ok earlier before ∧
        earlier.count = 4 :=
    Ends.exists_ok (by decide +kernel)
  obtain ⟨later, after, second, counted, printed⟩ : ∃ later after,
      Machine.run ⟨.default, none⟩ 15 Sample.detour (Session.start false) = .ok later after ∧
        later.count = 10 ∧ after.output = "one\nno\n" :=
    Ends.exists_ok (by decide +kernel)
  have passable := Node.every_of_all loopFree
  obtain ⟨differs, ends⟩ := run_of_isLoopFree loads (by decide) formed passable
  -- The number of steps stays a variable here, since the run would be unfolded with a number.
  have comesTo : ∀ steps, program.stops.length ≤ steps → ∀ last final,
      Machine.run ⟨.default, none⟩ steps Sample.detour (Session.start false) = .ok last final →
      last.state.isDone = true ∧ last.count ≤ 1 + program.stops.length :=
    fun steps enough last final ran => (ends steps enough).of_ok ran
  obtain ⟨done, bounded⟩ := comesTo 15 (Nat.le_of_eq length) later after second
  exact ⟨program, loaded, earlier, before, later, after, loads, formed, passable, length, first, second,
    count, counted, printed, differs 3 15 earlier later before after first second (by omega), done,
    bounded⟩

end ScriptMachine

/-
This file follows checks that all of a program passes. Main statement: control only comes to nodes that
pass the check.
-/

import ScriptMachine.Proofs.Exploration

namespace ScriptMachine

/-- The code of a function is taken from a node that passes a check with everything within it. -/
def Value.Vetted (check : Node → Bool) : Value → Prop
  | .function closure => ∃ node : Node, node.Every check ∧ closure.code ∈ node.codes
  | .builtin _ _ _ routine => routine.isOwn = true
  | .reference .. => False
  | _ => True

theorem Value.vetted_of_isPlain {check : Node → Bool} {value : Value} (plain : value.isPlain = true) :
    value.Vetted check := by
  cases value <;> simp_all [Value.isPlain, Value.Vetted]

/-- All code that is still to be run passes a check. Nothing is asked of frames and addresses. -/
def Account.vetting (check : Node → Bool) : Account where
  World := Unit
  Later _ _ := True
  Frames _ _ := True
  Stores _ store := ∀ address, (store.get address).Vetted check
  Good _ value := value.Vetted check
  Readable _ _ := True
  Writable _ _ := True
  Sees _ _ node := node.Every check
  Stands _ control _ := control.Every check
  Binds _ _ _ := True
  Building _ _ := True
  Assigned _ := True
  Rebinds := True

theorem Account.reaches_vetting {check : Node → Bool} {also : Unit → Prop} (session : Session)
    (holds : also ()) : (Account.vetting check).Reaches () session also :=
  ⟨(), trivial, trivial, holds⟩

/-- A check that exits pass, too, is passed by everything that control comes to. -/
def Regime.vetting {check : Node → Bool} (exits : ∀ node, node.isExit = true → check node = true) :
    Regime where
  toAccount := .vetting check
  later_refl _ := trivial
  later_trans _ _ := trivial
  stores_later _ stores := stores
  good_later _ good := good
  readable_later _ _ := trivial
  writable_later _ _ := trivial
  sees_later _ sees := sees
  stands_later _ stands := stands
  binds_later _ _ := trivial
  building_later _ _ := trivial
  plain isPlain := Value.vetted_of_isPlain isPlain
  own good := good
  direct bad := bad
  read stores _ := stores _
  write := by
    intro _ store address value next stores _ good extended found
    rw [Store.get_extend extended]
    split
    · exact good
    · exact stores found
  report _ _ _ := trivial
  sees_operand sees operand := (Node.every_iff.mp sees).2 _ (Node.mem_parts_of_operand operand)
  sees_of_stands stands := stands.1
  binds_of_stands _ _ _ := trivial
  flow stands flows := flows.every exits stands
  assigned := by
    intro _ _ place left right _
    unfold Account.Assignable
    split <;> intros <;> trivial
  close _ sees made := Account.reaches_vetting _ ⟨_, sees, made⟩
  resolve _ _ _ _ := ⟨trivial, fun _ => trivial⟩
  declare _ _ _ := Account.reaches_vetting _ trivial
  opens _ stands opens := Account.reaches_vetting _ ⟨(opens.every exits stands).1, fun _ _ _ _ => trivial⟩
  enter := by
    rintro _ session closure _ ⟨node, every, made⟩
    refine Account.reaches_vetting _ ⟨⟨?_, trivial⟩, fun _ _ _ _ => trivial⟩
    exact fun inner within => every inner ((Node.within_of_mem_codes node _ made).trans within)
  create _ _ _ _ := Account.reaches_vetting _ trivial
  fill _ _ _ _ _ := Account.reaches_vetting _ trivial
  finish _ := trivial
  locate _ _ _ := Account.reaches_vetting _ ⟨trivial, fun _ => trivial⟩

/-- The code that a state has still to run passes a check, with all that its store holds. -/
def State.Vetted (check : Node → Bool) (state : State) : Prop := (Account.vetting check).Sound () state

namespace Machine

variable {check : Node → Bool} {machine : Machine} {program : Node} {state next : State}
  {session after : Session}

/-- The first state is vetted. -/
theorem vetted_initialState (every : program.Every check)
    (started : initialState program session = .ok state after) : state.Vetted check := by
  obtain ⟨-, rfl, rfl⟩ := initialState_eq started
  refine ⟨?_, ⟨every, trivial⟩, fun pending member => absurd member List.not_mem_nil⟩
  exact Globals.forall_get_store session Value.vetted_of_isPlain trivial fun _ isOwn => isOwn

/-- A step keeps the state vetted. -/
theorem vetted_step (exits : ∀ node, node.isExit = true → check node = true)
    (vetted : state.Vetted check) (stepped : machine.step state session = .ok next after) :
    next.Vetted check := by
  obtain ⟨_, -, -, sound⟩ := ((Regime.vetting exits).leads_step machine trivial vetted).of_ok stepped
  exact sound

end Machine

/-- Where a state stands, the node passes the check. -/
theorem State.Vetted.check {check : Node → Bool} {node : Node} {next : Control} {scope : Scope}
    {store : Store} {continuation : Continuation}
    (vetted : (State.active node next scope store continuation).Vetted check) : check node = true :=
  vetted.2.1.1 node .self

end ScriptMachine

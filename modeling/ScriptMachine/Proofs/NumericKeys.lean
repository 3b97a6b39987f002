/-
This file says when two members of an object that are selected by numbers are one. Main statement: two
numbers have one text, and select one address of an object, exactly if they are equal or both of them are NaN.
-/

import ScriptMachine.Proofs.Decoding
import ScriptMachine.Proofs.Keys

namespace ScriptMachine

open Decimal

variable {inverted : Bool} {scope : Scope} {scratch after : Scratch} {object : Object}

/-- A member access whose selector comes to a number looks for the property that the text of the number
names. -/
theorem Node.evaluate_of_number {holder selector : Node} {number : Float}
    (selects : Node.values inverted scope [holder, selector] scratch =
      .ok [.object object, .number number] after) (place : Place) (computed : Bool) :
    (Node.member place holder selector computed).evaluate inverted scope scratch =
      .ok (.location (after.session.located object (numberText number)).1)
        ⟨(after.session.located object (numberText number)).2, after.store⟩ := by
  obtain ⟨held, reached, holds, rest⟩ := exists_of_bind selects
  obtain ⟨others, arrived, chosen, done⟩ := exists_of_bind rest
  obtain ⟨found, last, selected, ended⟩ := exists_of_bind chosen
  cases done
  cases ended
  rw [Node.evaluate_member, bind_of_ok holds]
  exact (bind_of_ok selected).trans (object.select_string (numberText number) _ _)

/-- What an object resolves it goes on to resolve while expressions are evaluated. -/
theorem Layout.resolve?_of_values {since : Session} {layout : Layout} {key : Key} {address : Address}
    {nodes : List Node} {values : List Value} (holds : (Regime.layout since .empty).Holds layout scratch)
    (visible : layout.Visible scope) (good : layout.Good (.object object))
    (found : scratch.session.resolve? object.properties key = some address)
    (ended : Node.values inverted scope nodes scratch = .ok values after) :
    ∃ later, Frames scratch.session later after.session ∧ later.Good (.object object) ∧
      after.session.resolve? object.properties key = some address := by
  let regime := Regime.layout scratch.session .empty
  have sees : ∀ node ∈ nodes, regime.Sees layout scope node := fun _ _ => visible
  obtain ⟨later, passed, frames, -⟩ :=
    (regime.keeps_values inverted ⟨holds.frames.restart, holds.stores⟩ sees).of_ok ended
  have natives := holds.frames.native_of_chained good.chained
  have handed := (holds.frames.handed_of_findSome natives found).2
  rw [← holds.frames.allocated] at handed
  have grows := Draft.grows_of_ok ended
  refine ⟨later, frames, good.later passed,
    frames.resolves (.refl _) grows (good.later passed).chained ?_ handed found⟩
  intro frame member
  rw [← holds.frames.size]
  exact (natives frame member).lt

namespace Machine

/-- Numbers are written with one text exactly if they are equal or both of them are NaN. Of two members of an
object that are selected by numbers, one after the other, the addresses are one exactly if that is so. -/
theorem Explored.numbers_agree :
    (∀ first second : Float, numberText first = numberText second ↔ SameNumber first second) ∧
    ∀ {machine : Machine} {program : Node} {base : Session} {held : Exploration} {state : State}
      {scope : Scope} {inverted : Bool} {earlier : List Node} {values : List Value} {start arrived : Scratch}
      {object : Object} {holder selector : Node} {first : Float} (place : Place) (computed : Bool),
      machine.Explored program base held → state ∈ held.states → state.Uses scope →
      Node.values inverted scope earlier ⟨held.session, state.store⟩ = .ok values start →
      Node.values inverted scope [holder, selector] start = .ok [.object object, .number first] arrived →
      ∃ address after,
        (Node.member place holder selector computed).evaluate inverted scope start =
          .ok (.location address) after ∧
        ∀ {holder selector : Node} {second : Float} {last : Scratch} (place : Place) (computed : Bool),
          Node.values inverted scope [holder, selector] after = .ok [.object object, .number second] last →
          ∃ other final,
            (Node.member place holder selector computed).evaluate inverted scope after =
              .ok (.location other) final ∧
            (address = other ↔ SameNumber first second) := by
  refine ⟨numberText_eq_iff, ?_⟩
  intro machine program base held state scope inverted earlier values start arrived object holder selector
    first place computed explored member uses evaluated selects
  obtain ⟨layout, placed⟩ := explored.placed member uses
  obtain ⟨begun, -, placed⟩ := placed.values inverted evaluated
  let regime := Regime.layout (Machine.begun base) .empty
  have sees : ∀ node ∈ [holder, selector], regime.Sees begun scope node := fun _ _ => placed.visible
  obtain ⟨later, passed, frames, stores, goods⟩ :=
    (regime.keeps_values inverted placed.laid sees).of_ok selects
  have good : later.Good (.object object) := goods _ List.mem_cons_self
  obtain ⟨settled, further, laid, -⟩ := @Layout.reaches_locate _ _ .empty _ object
    (.text (numberText first)) (.text (numberText first)) frames good
  have holds : regime.Holds settled ⟨(arrived.session.located object (numberText first)).2, arrived.store⟩ :=
    ⟨laid, stores.later further⟩
  refine ⟨_, _, Node.evaluate_of_number selects place computed, ?_⟩
  intro holder selector second last place computed selectsAgain
  refine ⟨_, _, Node.evaluate_of_number selectsAgain place computed, ?_⟩
  obtain ⟨final, frames, good, found⟩ := Layout.resolve?_of_values holds
    ((placed.visible.later passed).later further) (good.later further)
    (frames.resolve?_located good (numberText first)) selectsAgain
  have same := frames.located_eq_iff good (numberText first) (numberText second)
  rw [Session.located_of_found found, numberText_eq_iff] at same
  exact same

end Machine

namespace Sample

def holder : Node := .identifier ⟨⟨0, .null⟩, .ofText "o"⟩

def selector (number : Float) : Node := .literal ⟨0, .null⟩ (.float number)

def access (number : Float) : Node := .member ⟨0, .null⟩ holder (selector number) true

/-- The operands evaluate to the object and the number. -/
theorem values_selector {address : Address}
    (found : scratch.session.resolve? scope (.text "o") = some address)
    (holds : scratch.store.get address = .object object) (number : Float) :
    Node.values false scope [holder, selector number] scratch =
      .ok [.object object, .number number] scratch := by
  refine Ends.eq_ok ?_
  simp only [holder, selector, Node.values, Node.value, Node.evaluate, ends_bind, ends_liftAction,
    ends_resolve, Name.key_ofText, found, ends_pure]
  rw [← holds]
  exact ⟨rfl, rfl⟩

end Sample

/-- The zeros of both signs select one address, and one half selects another one. -/
theorem Machine.Explored.numbers_agree_of_zeros :
    ∃ program counted held state object address after last other final,
      Sample.misspelled.read 0 = .ok program counted ∧
      Explored ⟨.default, none⟩ program (Session.start false) held ∧ state ∈ held.states ∧
      state.Uses ⟨0, []⟩ ∧ state.store.get 7 = .object object ∧
      (Sample.access 0.0).evaluate false ⟨0, []⟩ ⟨held.session, state.store⟩ =
        .ok (.location address) after ∧
      (Sample.access (-0.0)).evaluate false ⟨0, []⟩ after = .ok (.location address) last ∧
      (Sample.access 0.5).evaluate false ⟨0, []⟩ after = .ok (.location other) final ∧ address ≠ other := by
  obtain ⟨program, counted, reads, -⟩ : ∃ program counted,
      Sample.misspelled.read 0 = .ok program counted ∧ True := Ends.exists_ok (by decide +kernel)
  obtain ⟨progress, reached, ran, made, bound, scopes⟩ : ∃ progress after,
      Machine.run ⟨.default, none⟩ 3 Sample.misspelled (Session.start false) = .ok progress after ∧
        (progress.state.store.get 7).object? = some ⟨3, ⟨2, [1]⟩⟩ ∧
        (after.slots 0).address? (.text "o") = some 7 ∧ progress.state.scopes = [⟨0, []⟩] :=
    Ends.exists_ok (by decide +kernel)
  obtain ⟨states, member, explored⟩ := explored_of_run rfl reads ran
  have uses : progress.state.Uses ⟨0, []⟩ := .inl (by simp [scopes])
  have holds := Value.eq_object made
  have resolves : ∀ session : Session, (session.slots 0).address? (.text "o") = some 7 →
      session.resolve? ⟨0, []⟩ (.text "o") = some 7 := by
    intro session bound
    simp [Session.resolve?, Scope.chain, bound]
  have selects := @Sample.values_selector ⟨0, []⟩ ⟨reached, progress.state.store⟩ _ _ (resolves _ bound)
    holds 0.0
  have begins : Node.values false ⟨0, []⟩ [] ⟨reached, progress.state.store⟩ =
      .ok [] ⟨reached, progress.state.store⟩ := rfl
  obtain ⟨address, after, evaluated, agrees⟩ :=
    Explored.numbers_agree.2 ⟨0, .null⟩ true explored member uses begins selects
  have grows := Draft.grows_of_ok evaluated
  have stores : after.store = progress.state.store := by
    rw [Node.evaluate_of_number selects] at evaluated
    cases evaluated
    rfl
  have selectsAgain := @Sample.values_selector ⟨0, []⟩ after _ _ (resolves _ (grows.kept _ _ _ bound))
    (stores ▸ holds)
  obtain ⟨same, last, zero, isSame⟩ := agrees ⟨0, .null⟩ true (selectsAgain (-0.0))
  obtain ⟨other, final, half, isOther⟩ := agrees ⟨0, .null⟩ true (selectsAgain 0.5)
  obtain rfl := isSame.mpr (by decide +kernel)
  exact ⟨program, counted, _, progress.state, _, address, after, last, other, final, reads, explored, member,
    uses, holds, evaluated, zero, half, fun shared => absurd (isOther.mp shared) (by decide +kernel)⟩

end ScriptMachine

/-
This file compares runs that differ in what they trace. Main statement: machines that differ in what
they announce take the same steps, as long as they can read what they announce.
-/

import ScriptMachine.Proofs.Company
import ScriptMachine.Proofs.Session

namespace ScriptMachine

/-- Frames and identities that stand for themselves. -/
def Pairing.same : Pairing := ⟨id, id, id, id⟩

@[simp] theorem Pairing.scope_same (scope : Scope) : Pairing.same.scope scope = scope := by
  simp [Pairing.scope, Pairing.same]

/-- Values that a program can come by. -/
def Value.IsTame (value : Value) : Prop := value.Like .same value

theorem Value.isTame_object (object : Object) : (Value.object object).IsTame := by
  have like := @Value.Like.object .same object.proto object.properties
  rw [Pairing.scope_same] at like
  exact like

theorem Value.isTame_function (closure : Closure) : (Value.function closure).IsTame := by
  have like := @Value.Like.function .same closure
  rw [Pairing.scope_same] at like
  exact like

/-- Sessions that differ in what they keep for tracing, and equal stores. -/
structure Scratch.Matches (first second : Scratch) : Prop where
  session : second.session.bare = first.session.bare
  store : second.store = first.store
  tame : ∀ address, (first.store.get address).IsTame

/-- What is the same in runs that differ in what they trace. -/
def Ties.tracing : Ties where
  toPairing := .same
  Allowed _ := True
  strict := True
  Matches fault again := again = fault
  allowed_of_grows _ _ := trivial
  matches_refl _ := rfl
  naming := none
  World := Unit
  Later _ _ := True
  Agrees _ first second := first.Matches second
  Same _ value other := other = value ∧ value.IsTame
  Located _ address other := other = address
  Seen _ _ := True
  Home _ _ := True
  Asked _ _ _ := True
  Built _ object other := other = object
  creates := True
  selects := True
  shows := True

theorem Ties.scope_tracing (scope : Scope) : Ties.tracing.toPairing.scope scope = scope :=
  Pairing.scope_same scope

namespace Scratch.Matches

variable {first second : Scratch} {session other : Session} {store copy : Store}

theorem change (matched : Scratch.Matches ⟨session, store⟩ ⟨other, copy⟩) {after last : Session}
    (same : last.bare = after.bare) : Scratch.Matches ⟨after, store⟩ ⟨last, copy⟩ :=
  ⟨same, matched.store, matched.tame⟩

/-- A tame write keeps the scratches matched. -/
theorem write (matched : first.Matches second) {address : Address} {value : Value}
    {bound kept : Store} (tame : value.IsTame) (extended : first.store.extend address value = .ok bound)
    (again : second.store.extend address value = .ok kept) :
    Scratch.Matches ⟨first.session, bound⟩ ⟨second.session, kept⟩ := by
  refine ⟨matched.session, ?_, ?_⟩
  · rw [matched.store, extended] at again
    cases again
    rfl
  · intro found
    by_cases same : found = address
    · subst same
      rw [Store.get_extend_self extended]
      exact tame
    · rw [Store.get_extend_of_ne extended same]
      exact matched.tame found

theorem frames (matched : first.Matches second) : second.session.frames = first.session.frames := by
  have same : second.session.bare.frames = first.session.bare.frames := by rw [matched.session]
  exact same

theorem identities (matched : first.Matches second) :
    second.session.identities = first.session.identities := by
  have same : second.session.bare.identities = first.session.bare.identities := by
    rw [matched.session]
  exact same

/-- Matched scratches resolve a name alike. -/
theorem resolve? (matched : first.Matches second) (scope : Scope) (key : Key) :
    second.session.resolve? scope key = first.session.resolve? scope key := by
  unfold Session.resolve? Session.slots
  rw [matched.frames]

section

variable (matched : Scratch.Matches ⟨session, store⟩ ⟨other, copy⟩)
include matched

theorem addFrame (allocator : Nat) :
    Scratch.Matches ⟨session.addFrame allocator, store⟩ ⟨other.addFrame allocator, copy⟩ :=
  matched.change (congrArg (fun held => Session.addFrame held allocator) matched.session)

theorem addObject (allocator : Nat) (proto : Address) :
    Scratch.Matches ⟨session.addObject allocator proto, store⟩ ⟨other.addObject allocator proto, copy⟩ :=
  matched.change (congrArg (fun held => Session.addObject held allocator proto) matched.session)

/-- Both sessions declare a key at the same address. -/
theorem declare (frame : Nat) (key : Key) (written : Tree) :
    Scratch.Matches ⟨(session.declare frame key written).2, store⟩
        ⟨(other.declare frame key written).2, copy⟩ ∧
      (other.declare frame key written).1 = (session.declare frame key written).1 := by
  have both := other.bare_declare frame key written
  rw [matched.session, session.bare_declare] at both
  exact ⟨matched.change (congrArg Prod.snd both).symm, (congrArg Prod.fst both).symm⟩

/-- Matched scratches locate a property alike. -/
theorem locate (scope : Scope) (key : Key) (written : Tree) :
    Scratch.Matches ⟨(session.locate scope key written).2, store⟩
        ⟨(other.locate scope key written).2, copy⟩ ∧
      (other.locate scope key written).1 = (session.locate scope key written).1 := by
  have both := other.bare_locate key written scope
  rw [matched.session, session.bare_locate] at both
  exact ⟨matched.change (congrArg Prod.snd both).symm, (congrArg Prod.fst both).symm⟩

end

end Scratch.Matches

/-- Whatever a program does, what it traces makes no difference. -/
def Correspondence.tracing : Correspondence where
  toTies := .tracing
  later_refl _ := trivial
  later_trans _ _ := trivial
  same_later _ same := same
  located_later _ located := located
  seen_later _ _ := trivial
  home_later _ _ := trivial
  seen_of_home _ := trivial
  asked_later _ _ := trivial
  built_later _ built := built
  akin := by
    rintro _ value _ ⟨rfl, tame⟩
    exact tame.akin
  plain isPlain := ⟨rfl, .plain isPlain⟩
  callable _ := trivial
  read := by
    rintro _ first second address _ matched rfl
    rw [matched.store]
    exact ⟨rfl, matched.tame _⟩
  null := by
    rintro _ address _ rfl
    rfl
  write := by
    rintro _ first second address _ value _ store copy matched rfl ⟨rfl, tame⟩ extended again
    exact matched.write tame extended again
  report _ _ matched := matched.change matched.session
  print := by
    intro _ session other store copy text again equal matched
    obtain rfl := equal trivial
    exact matched.change (congrArg (fun held => Session.write held again) matched.session)
  close := by
    intro _ session other store copy scope code matched _
    have identities : other.identities = session.identities := matched.identities
    refine ⟨(), trivial, matched.change (congrArg Session.identify matched.session), ?_,
      Value.isTame_function _⟩
    simp [identities, Ties.tracing]
  resolve := by
    intro _ first second scope key address matched _ _ found
    refine ⟨address, ?_, rfl⟩
    rw [← found, ← matched.resolve?]
    simp [Ties.tracing]
  unresolved := by
    intro _ first second scope key _ matched _ _ missing
    rw [← missing, ← matched.resolve?]
    simp [Ties.tracing]
  missing _ := rfl
  nest := by
    intro _ session other store copy scope ofScope matched _
    have frames : other.frames = session.frames := matched.frames
    refine ⟨congrArg Array.size frames, (), trivial, ?_, trivial⟩
    have allocator : other.allocatorOf scope.inner = session.allocatorOf scope.inner := by
      unfold Session.allocatorOf
      rw [frames]
    cases ofScope with
    | true =>
        simp only [if_true]
        have added := matched.addFrame (session.allocatorOf scope.inner)
        rw [← allocator] at added
        rw [← allocator]
        exact added
    | false => exact matched.addFrame _
  declare := by
    intro _ session other store copy scope key written matched _ _
    obtain ⟨after, same⟩ := matched.declare scope.inner key written
    exact ⟨(), trivial, after, same, fun _ => trivial⟩
  create := by
    intro _ session other store copy scope proto again _ matched _ _ found foundAgain
    have same : again = proto := by
      have both := matched.resolve? scope (.text "%ObjectPrototype%")
      rw [Ties.scope_tracing] at foundAgain
      simpa [found, foundAgain] using both
    subst same
    have frames : other.frames = session.frames := matched.frames
    have stores : copy = store := matched.store
    refine ⟨(), trivial, matched.addObject _ _, ?_⟩
    rw [frames, stores]
    rfl
  fill := by
    rintro _ session other store copy object _ key written matched rfl _
    obtain ⟨after, same⟩ := matched.declare _ key written
    exact ⟨(), trivial, after, same⟩
  finish := by
    rintro _ first second object _ matched rfl
    exact ⟨(), trivial, matched, rfl, Value.isTame_object _⟩
  locate := by
    rintro _ session other store copy object _ key written _ matched ⟨same, -⟩ _
    cases same
    obtain ⟨after, found⟩ := matched.locate object.properties key written
    exact ⟨(), trivial, after, found⟩

namespace Correspondence

variable {world : tracing.World} {session other : Session}

theorem tracing_scope (scope : Scope) : tracing.toPairing.scope scope = scope :=
  Pairing.scope_same scope

/-- Everything may be asked for. -/
theorem tracing_grants (scope : Scope) (needs : List Need) : tracing.Grants world scope needs := by
  intro need _
  cases need with
  | name name => exact fun _ _ => trivial
  | create => trivial
  | select => trivial

/-- Continuations that await each other are equal. -/
theorem eq_of_awaits {continuation others : Continuation}
    (awaits : tracing.Awaits world continuation others) : others = continuation := by
  induction awaits with
  | halt => rfl
  | @call target again resume scope rest others aims seen awaits ih =>
      have same : again = target := by
        cases aims with
        | slot | discard => rfl
        | location located => exact congrArg Target.location located
      rw [ih, same, tracing_scope]
      rfl
  | scope resume seen awaits ih =>
      rw [ih, tracing_scope]
      rfl
  | handler clause resume seen awaits ih =>
      rw [ih, tracing_scope]
      rfl

/-- States that belong together in this way are equal. -/
theorem eq_of_abreast {state again : State} (abreast : tracing.Abreast world session other state again) :
    again = state ∧ other.bare = session.bare := by
  cases abreast with
  | @active node next scope store copy continuation others agrees seen awaits =>
      have stores : copy = store := agrees.store
      rw [eq_of_awaits awaits, tracing_scope, stores]
      exact ⟨rfl, agrees.session⟩
  | @halted scope store copy continuation others agrees seen awaits =>
      have stores : copy = store := agrees.store
      rw [eq_of_awaits awaits, tracing_scope, stores]
      exact ⟨rfl, agrees.session⟩
  | @uncaught value again store copy agrees same =>
      have stores : copy = store := agrees.store
      rw [same.1, stores]
      exact ⟨rfl, agrees.session⟩

end Correspondence

/-- Outcomes that differ in what is kept for tracing. -/
def Outcome.Matches : Outcome → Outcome → Prop
  | .ok state session, .ok again other =>
      Correspondence.tracing.Abreast () session other state again
  | .error fault session, .error again other => again = fault ∧ other.bare = session.bare
  | _, _ => False

namespace Machine

/-- A machine can read what it announces about a state. -/
def Reads (machine : Machine) (state : State) : Prop :=
  machine.config.debug = true → ∃ text, state.excerpt machine.source = .ok text

/-- Announcing changes nothing but the trace. -/
theorem ends_announce {machine : Machine} {state : State} (reads : machine.Reads state)
    (session : Session) :
    Ends (machine.announce state) session (fun _ after => after.bare = session.bare)
      fun _ _ => False := by
  rw [announce_eq]
  split
  · rename_i debugging
    obtain ⟨text, shown⟩ := reads debugging
    rw [shown]
    simp only [ends_bind, ends_fromExcept, ends_note]
    split <;> rfl
  · rfl

variable {machine second : Machine} (truth : second.invertedTruth = machine.invertedTruth)
include truth

/-- Machines that can read what they announce take the same steps. -/
theorem coincides_step_traced {state again : State} {session other : Session}
    (reads : machine.Reads state) (readsAgain : second.Reads again)
    (abreast : Correspondence.tracing.Abreast () session other state again) :
    Correspondence.tracing.Coincides () (machine.step state session) (second.step again other) := by
  have announces : ∀ store copy, Scratch.Matches ⟨session, store⟩ ⟨other, copy⟩ →
      Correspondence.tracing.Makes () (machine.announce state) (second.announce again) session other
        fun _ _ final _ last => Scratch.Matches ⟨final, store⟩ ⟨last, copy⟩ := by
    intro store copy agrees
    refine (ends_announce reads session).weaken ?_ fun _ _ never => never.elim
    intro _ final kept _
    refine (ends_announce readsAgain other).weaken ?_ fun _ _ never => never
    intro _ last keptAgain
    exact ⟨(), trivial, agrees.change (by rw [kept, keptAgain, agrees.session])⟩
  exact Correspondence.tracing.coincides_of_leads trivial (fun _ => trivial)
    (Correspondence.tracing.leads_step truth abreast
      (fun _ _ _ _ _ _ => ⟨trivial, Correspondence.tracing_grants _ _⟩) (fun _ => .inl rfl) announces)

/-- Matched states take matched steps. -/
theorem matches_step {state again : State} {session other : Session}
    (reads : machine.Reads state) (readsAgain : second.Reads again)
    (matched : Outcome.Matches (.ok state session) (.ok again other)) :
    Outcome.Matches (machine.step state session) (second.step again other) := by
  have together := coincides_step_traced truth reads readsAgain matched
  revert together
  cases machine.step state session with
  | ok next after =>
      cases second.step again other with
      | ok copy last => exact fun ⟨_, _, abreast⟩ => abreast
      | error fault last => exact id
  | error fault after =>
      cases second.step again other with
      | ok copy last => exact id
      | error repeated last => exact fun ⟨same, _, _, _, agrees⟩ => ⟨same, agrees.session⟩

/-- Where one machine comes to, the other one comes to as well. -/
theorem Onward.matched {kept : Outcome → Prop} {start later other : Outcome}
    (keeps : ∀ state session, state.isDone = false → kept (.ok state session) →
      kept (machine.step state session))
    (reads : ∀ state session, kept (.ok state session) → machine.Reads state ∧ second.Reads state)
    (onward : machine.Onward start later) (starts : kept start) (matched : start.Matches other) :
    ∃ last, second.Onward other last ∧ later.Matches last := by
  induction onward generalizing other with
  | refl => exact ⟨other, .refl, matched⟩
  | @step state session outcome active onward ih =>
      cases other with
      | error fault after => exact absurd matched id
      | ok again after =>
          obtain ⟨rfl, -⟩ := Correspondence.eq_of_abreast matched
          obtain ⟨readable, readableAgain⟩ := reads again session starts
          have stepped := matches_step truth readable readableAgain matched
          obtain ⟨last, comes, same⟩ := ih (keeps again session active starts) stepped
          exact ⟨last, .step active comes, same⟩

end Machine

end ScriptMachine

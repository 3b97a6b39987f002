/-
This file pairs a step with the same step taken again in a later session. What was there before the
step stands for itself, and what the step adds stands for what is added again. Main statement: whatever
a program does keeps the two together, as long as what it asks for is as it was.
-/

import ScriptMachine.Proofs.Address
import ScriptMachine.Proofs.Lockstep

namespace ScriptMachine

/-- No object that was there before has been given the property since then. -/
def Session.Ungiven (before later : Session) (key : Key) : Prop :=
  ∀ frame < before.frames.size, (before.slots frame).address? Layout.protoKey ≠ none →
    (before.slots frame).address? key = none → (later.slots frame).address? key = none

instance (before later : Session) (key : Key) : Decidable (before.Ungiven later key) :=
  inferInstanceAs (Decidable (∀ frame < before.frames.size, _ → _ → _))

/-- No object that was there before a step has been given a property since then by a name that an object
made in the step has. -/
def Session.Spares (before after later : Session) : Prop :=
  ∀ made < after.frames.size, before.frames.size ≤ made →
    (after.slots made).address? Layout.protoKey ≠ none →
    ∀ slot ∈ after.slots made, before.Ungiven later slot.key

instance (before after later : Session) : Decidable (before.Spares after later) :=
  inferInstanceAs (Decidable (∀ made < after.frames.size, _ → _ → ∀ slot ∈ after.slots made, _))

/-- A step that is taken again. The sessions are those before and after it and the one in which it is
taken again, and the layouts are those of the first and the last session. -/
structure Replay where
  origin : Session
  passed : Session
  resumed : Session
  before : Layout
  after : Layout
  laid : Layout.Frames origin before origin
  laidAgain : Layout.Frames origin after resumed
  later : before.Later after
  begins : origin.Grows passed
  goes : passed.Grows resumed

namespace Replay

/-- Numbers below a limit stay, and those from there on go on from another one. -/
def shift (limit other number : Nat) : Nat :=
  if number < limit then number else number - limit + other

section

variable {limit other number : Nat}

/-- What was there before is not moved. -/
theorem shift_of_lt (below : number < limit) : shift limit other number = number := if_pos below

theorem shift_self : shift limit other limit = other := by
  unfold shift
  rw [if_neg (Nat.lt_irrefl _), Nat.sub_self, Nat.zero_add]

/-- What was added is moved behind what was added in between. -/
theorem le_shift (beyond : limit ≤ number) : other ≤ shift limit other number := by
  unfold shift
  rw [if_neg (Nat.not_lt.mpr beyond)]
  exact Nat.le_add_left _ _

/-- What was added keeps its distances. -/
theorem shift_succ (beyond : limit ≤ number) :
    shift limit other (number + 1) = shift limit other number + 1 := by
  unfold shift
  rw [if_neg (Nat.not_lt.mpr beyond), if_neg (Nat.not_lt.mpr (Nat.le_succ_of_le beyond))]
  omega

/-- Nothing is moved onto anything else. -/
theorem shift_injective (reaches : limit ≤ other) {first second : Nat}
    (same : shift limit other first = shift limit other second) : first = second := by
  unfold shift at same
  split at same <;> split at same <;> omega

end

variable (replay : Replay)

/-- The session that a step is repeated in has grown from the first. -/
theorem grows : replay.origin.Grows replay.resumed := replay.begins.trans replay.goes

def pairing : Pairing where
  frame := shift replay.origin.frames.size replay.resumed.frames.size
  identity := shift replay.origin.identities replay.resumed.identities
  frame_injective := shift_injective replay.grows.size
  identity_injective := shift_injective replay.grows.identities

/-- What is known while a step is taken again: the layouts of the two sessions, and what their frames
bind. -/
structure Moment where
  first : Layout
  second : Layout
  slots : Nat → Slots
  others : Nat → Slots

structure Moment.Later (moment later : Moment) : Prop where
  first : moment.first.Later later.first
  second : moment.second.Later later.second
  slots : ∀ frame key address, (moment.slots frame).address? key = some address →
    (later.slots frame).address? key = some address
  others : ∀ frame key address, (moment.others frame).address? key = some address →
    (later.others frame).address? key = some address

/-- Addresses that the sessions have in common: those that had been handed out before the step, and
those that frames of that time have been given by the step. -/
def Shared (moment : Moment) (address : Address) : Prop :=
  replay.before.Handed address ∨ ∃ frame key, frame < replay.origin.frames.size ∧
    moment.first.Own frame key ∧ (moment.slots frame).address? key = some address

/-- Addresses of the same slot in frames that are added by the step and added again. -/
def Fresh (moment : Moment) (address other : Address) : Prop :=
  ∃ frame key, replay.origin.frames.size ≤ frame ∧ moment.first.Own frame key ∧
    moment.second.Own (replay.pairing.frame frame) key ∧
    (moment.slots frame).address? key = some address ∧
    (moment.others (replay.pairing.frame frame)).address? key = some other ∧
    (replay.before.allocated : Int) < address ∧ (replay.after.allocated : Int) < other

def Located (moment : Moment) (address other : Address) : Prop :=
  (other = address ∧ replay.Shared moment address) ∨ replay.Fresh moment address other

def Same (moment : Moment) (value other : Value) : Prop :=
  value.Like replay.pairing other ∧ moment.first.Good value ∧ moment.second.Good other

def Seen (moment : Moment) (scope : Scope) : Prop :=
  moment.first.Visible scope ∧ moment.second.Visible (replay.pairing.scope scope)

/-- Names are looked up in frames that were there before the step. -/
def Home (moment : Moment) (scope : Scope) : Prop :=
  replay.Seen moment scope ∧ ∀ frame ∈ scope.chain, frame < replay.origin.frames.size

/-- What a key stands for when the step is taken again, it stands for already. -/
def Asked (moment : Moment) (scope : Scope) (key : Key) : Prop :=
  ∀ address, replay.resumed.resolve? scope key = some address →
    ∃ frame ∈ scope.chain, (moment.slots frame).address? key = some address

def Built (moment : Moment) (object other : Object) : Prop :=
  replay.Same moment (.object object) (.object other) ∧
    replay.origin.frames.size ≤ object.properties.inner

/-- The role of a frame that is added again. -/
def role : Role → Role
  | .object proto outer => .object proto (outer.map replay.pairing.frame)
  | role => role

/-- Sessions in which the same has been done. Frames of the time before the step bind what they will
bind when it is taken again, and are not touched then. Frames that are added bind the same keys. -/
structure Sessions (moment : Moment) (session other : Session) : Prop where
  laid : Layout.Frames replay.origin moment.first session
  laidAgain : Layout.Frames replay.resumed moment.second other
  later : replay.before.Later moment.first
  laterAgain : replay.after.Later moment.second
  grown : replay.origin.Grows session
  slots : moment.slots = session.slots
  others : moment.others = other.slots
  size : other.frames.size = replay.pairing.frame session.frames.size
  identities : other.identities = replay.pairing.identity session.identities
  ahead : ∀ frame < replay.origin.frames.size, ∀ key address,
    (session.slots frame).address? key = some address →
    (replay.resumed.slots frame).address? key = some address
  stays : ∀ frame < replay.resumed.frames.size, ∀ key,
    (other.slots frame).address? key = (replay.resumed.slots frame).address? key
  roles : ∀ frame role, replay.origin.frames.size ≤ frame → moment.first.roles[frame]? = some role →
    moment.second.roles[replay.pairing.frame frame]? = some (replay.role role)
  bound : ∀ frame key, replay.origin.frames.size ≤ frame → (session.slots frame).address? key = none →
    (other.slots (replay.pairing.frame frame)).address? key = none
  fresh : ∀ frame key address, replay.origin.frames.size ≤ frame → moment.first.Own frame key →
    (session.slots frame).address? key = some address →
    ∃ again, (other.slots (replay.pairing.frame frame)).address? key = some again ∧
      (replay.before.allocated : Int) < address ∧ (replay.after.allocated : Int) < again
  objects : ∀ frame proto outer, replay.origin.frames.size ≤ frame →
    moment.first.roles[frame]? = some (.object proto outer) → replay.Shared moment proto

/-- Stores in which the same has been done. They hold the same at addresses that belong together, and
nothing else is bound when the step is taken again. -/
structure Agrees (moment : Moment) (first second : Scratch) : Prop where
  sessions : replay.Sessions moment first.session second.session
  stored : Layout.Stores .empty moment.first first.store
  storedAgain : Layout.Stores .empty moment.second second.store
  read : ∀ address other, replay.Located moment address other →
    replay.Same moment (first.store.get address) (second.store.get other)
  held : ∀ other, second.store.contains other = true → ∃ address, replay.Located moment address other

section

variable {replay} {frame : Nat}

/-- Early frames are not moved. -/
theorem frame_of_lt (early : frame < replay.origin.frames.size) :
    replay.pairing.frame frame = frame := shift_of_lt early

/-- New frames are moved behind all frames of the second run. -/
theorem le_frame (added : replay.origin.frames.size ≤ frame) :
    replay.resumed.frames.size ≤ replay.pairing.frame frame := le_shift added

/-- Different slots stay different. -/
theorem frame_ne_or {found : Nat} {name key : Key} (different : found ≠ frame ∨ name ≠ key) :
    replay.pairing.frame found ≠ replay.pairing.frame frame ∨ name ≠ key :=
  different.imp_left fun apart same => apart (replay.pairing.frame_injective same)

/-- A chain of early frames is not moved. -/
theorem map_of_lt {chain : List Nat} (early : ∀ frame ∈ chain, frame < replay.origin.frames.size) :
    chain.map replay.pairing.frame = chain := by
  rw [List.map_congr_left fun frame member => frame_of_lt (early frame member), List.map_id']

/-- A scope of early frames is not moved. -/
theorem scope_of_lt {scope : Scope}
    (early : ∀ frame ∈ scope.chain, frame < replay.origin.frames.size) :
    replay.pairing.scope scope = scope := by
  unfold Pairing.scope
  rw [frame_of_lt (early scope.inner List.mem_cons_self),
    map_of_lt fun frame member => early frame (List.mem_cons_of_mem _ member)]

end

section

variable {replay} {moment after : Moment} (passed : moment.Later after)
include passed

theorem Shared.later {address : Address} (shared : replay.Shared moment address) :
    replay.Shared after address := by
  rcases shared with handed | ⟨frame, key, early, own, bound⟩
  · exact .inl handed
  · exact .inr ⟨frame, key, early, own.later passed.first, passed.slots frame key address bound⟩

theorem Located.later {address other : Address} (located : replay.Located moment address other) :
    replay.Located after address other := by
  rcases located with ⟨same, shared⟩ | ⟨frame, key, added, own, ownAgain, bound, boundAgain, limits⟩
  · exact .inl ⟨same, shared.later passed⟩
  · exact .inr ⟨frame, key, added, own.later passed.first, ownAgain.later passed.second,
      passed.slots frame key address bound, passed.others _ key other boundAgain, limits⟩

theorem Same.later {value other : Value} (same : replay.Same moment value other) :
    replay.Same after value other :=
  ⟨same.1, same.2.1.later passed.first, same.2.2.later passed.second⟩

theorem Seen.later {scope : Scope} (seen : replay.Seen moment scope) : replay.Seen after scope :=
  ⟨seen.1.later passed.first, seen.2.later passed.second⟩

theorem Asked.later {scope : Scope} {key : Key} (asked : replay.Asked moment scope key) :
    replay.Asked after scope key := by
  intro address found
  obtain ⟨frame, member, bound⟩ := asked address found
  exact ⟨frame, member, passed.slots frame key address bound⟩

end

theorem Moment.Later.refl (moment : Moment) : moment.Later moment :=
  ⟨.refl _, .refl _, fun _ _ _ bound => bound, fun _ _ _ bound => bound⟩

theorem Moment.Later.trans {first second third : Moment} (before : first.Later second)
    (after : second.Later third) : first.Later third :=
  ⟨before.first.trans after.first, before.second.trans after.second,
    fun frame key address bound => after.slots frame key address (before.slots frame key address bound),
    fun frame key address bound => after.others frame key address (before.others frame key address bound)⟩

namespace Sessions

variable {replay} {moment : Moment} {session other : Session}
  (sessions : replay.Sessions moment session other)
include sessions
variable {frame : Nat} {key : Key} {address again : Address}

section

variable (early : frame < replay.origin.frames.size)
include early

/-- Frames of the time before the step keep their roles. -/
theorem role_before : moment.first.roles[frame]? = replay.before.roles[frame]? := by
  rw [← replay.laid.size] at early
  exact sessions.later.roles_of_lt early

/-- The roles of early frames are known from the start. -/
theorem role_after : replay.after.roles[frame]? = moment.first.roles[frame]? := by
  rw [sessions.role_before early]
  rw [← replay.laid.size] at early
  exact replay.later.roles_of_lt early

/-- Early frames have one role in both runs. -/
theorem role_of_lt : moment.second.roles[frame]? = moment.first.roles[frame]? := by
  rw [← sessions.role_after early]
  refine sessions.laterAgain.roles_of_lt ?_
  rw [replay.laidAgain.size]
  exact Nat.lt_of_lt_of_le early replay.grows.size

/-- What an early frame may bind was settled at the start. -/
theorem own_after (own : moment.first.Own frame key) : replay.after.Own frame key := by
  unfold Layout.Own
  rw [sessions.role_after early]
  exact own

/-- An early frame may bind the same in both runs. -/
theorem own_of_lt (own : moment.first.Own frame key) : moment.second.Own frame key := by
  unfold Layout.Own
  rw [sessions.role_of_lt early]
  exact own

end

/-- A frame that was added may bind the same in both runs. -/
theorem own_frame (added : replay.origin.frames.size ≤ frame) (own : moment.first.Own frame key) :
    moment.second.Own (replay.pairing.frame frame) key := by
  rcases own with scope | ⟨⟨proto, outer, object⟩, different⟩
  · exact .inl (sessions.roles frame _ added scope)
  · exact .inr ⟨⟨proto, _, sessions.roles frame _ added object⟩, different⟩

/-- Slots of the time before the step are those of the resumed session. -/
theorem resumed_of_shared (early : frame < replay.origin.frames.size)
    (bound : (session.slots frame).address? key = some address) :
    (other.slots frame).address? key = some address := by
  rw [sessions.stays frame (Nat.lt_of_lt_of_le early replay.grows.size)]
  exact sessions.ahead frame early key address bound

/-- Addresses that belong together were handed out. -/
theorem handed (located : replay.Located moment address again) :
    moment.first.Handed address ∧ moment.second.Handed again := by
  rcases located with ⟨rfl, handed | ⟨frame, key, early, own, bound⟩⟩ |
    ⟨frame, key, added, own, ownAgain, bound, boundAgain, -⟩
  · exact ⟨handed.later sessions.later, (handed.later replay.later).later sessions.laterAgain⟩
  · rw [sessions.slots] at bound
    exact ⟨sessions.laid.slots frame own.native key _ bound, sessions.laidAgain.slots frame
      (sessions.own_of_lt early own).native key _ (sessions.resumed_of_shared early bound)⟩
  · rw [sessions.slots] at bound
    rw [sessions.others] at boundAgain
    exact ⟨sessions.laid.slots frame own.native key _ bound,
      sessions.laidAgain.slots _ ownAgain.native key _ boundAgain⟩

/-- What frames of the time before the step bind stays within what is handed out when the step is taken
again. -/
theorem le_allocated (shared : replay.Shared moment address) : address ≤ (replay.after.allocated : Int) := by
  rcases shared with handed | ⟨frame, key, early, own, bound⟩
  · exact (handed.later replay.later).2
  · rw [sessions.slots] at bound
    exact (replay.laidAgain.slots frame (sessions.own_after early own).native key address
      (sessions.ahead frame early key address bound)).2

/-- Old and new addresses are apart in both runs. -/
theorem ne_of_shared {found : Address} (shared : replay.Shared moment address)
    (fresh : replay.Fresh moment found again) : found ≠ address ∧ again ≠ address := by
  obtain ⟨frame, key, added, own, ownAgain, bound, boundAgain, low, lowAgain⟩ := fresh
  constructor
  · rintro rfl
    rcases shared with handed | ⟨earlier, name, early, ownEarlier, boundEarlier⟩
    · exact absurd handed.2 (Int.not_le.mpr low)
    · rw [sessions.slots] at bound boundEarlier
      obtain ⟨rfl, -⟩ := sessions.laid.apart _ _ _ _ _ ownEarlier own boundEarlier bound
      exact absurd early (Nat.not_lt.mpr added)
  · rintro rfl
    exact absurd (sessions.le_allocated shared) (Int.not_le.mpr lowAgain)

/-- Each address belongs to one address of the other side. -/
theorem same_iff {found twin : Address} (located : replay.Located moment address again)
    (locatedTwin : replay.Located moment found twin) : found = address ↔ twin = again := by
  rcases located with ⟨rfl, shared⟩ | fresh
  · rcases locatedTwin with ⟨rfl, -⟩ | fresh
    · rfl
    · have different := sessions.ne_of_shared shared fresh
      exact ⟨fun same => absurd same different.1, fun same => absurd same different.2⟩
  · rcases locatedTwin with ⟨rfl, shared⟩ | freshTwin
    · have different := sessions.ne_of_shared shared fresh
      exact ⟨fun same => absurd same.symm different.1, fun same => absurd same.symm different.2⟩
    · obtain ⟨frame, key, added, own, ownAgain, bound, boundAgain, -⟩ := fresh
      obtain ⟨frameTwin, keyTwin, addedTwin, ownTwin, ownAgainTwin, boundTwin, boundAgainTwin, -⟩ :=
        freshTwin
      rw [sessions.slots] at bound boundTwin
      rw [sessions.others] at boundAgain boundAgainTwin
      constructor
      · rintro rfl
        obtain ⟨rfl, rfl⟩ := sessions.laid.apart _ _ _ _ _ own ownTwin bound boundTwin
        rw [boundAgain] at boundAgainTwin
        exact (Option.some.inj boundAgainTwin).symm
      · rintro rfl
        obtain ⟨same, rfl⟩ :=
          sessions.laidAgain.apart _ _ _ _ _ ownAgain ownAgainTwin boundAgain boundAgainTwin
        obtain rfl := replay.pairing.frame_injective same
        rw [bound] at boundTwin
        exact (Option.some.inj boundTwin).symm

/-- A slot of a frame that is added is there again when the frame is added again. -/
theorem located_of_le (added : replay.origin.frames.size ≤ frame) (native : moment.first.Native frame)
    (bound : (session.slots frame).address? key = some address) :
    ∃ again, (other.slots (replay.pairing.frame frame)).address? key = some again ∧
      replay.Located moment address again := by
  by_cases own : moment.first.Own frame key
  · obtain ⟨again, boundAgain, limits⟩ := sessions.fresh frame key address added own bound
    refine ⟨again, boundAgain, .inr ⟨frame, key, added, own, sessions.own_frame added own, ?_⟩⟩
    rw [sessions.slots, sessions.others]
    exact ⟨bound, boundAgain, limits⟩
  · -- only the slot for the prototype has no address of its own
    obtain ⟨rfl, outer, known⟩ := sessions.laid.proto_of_not_own native own bound
    exact ⟨address, (sessions.laidAgain.proto _ address _ (sessions.roles frame _ added known)).1,
      .inl ⟨rfl, sessions.objects frame address outer added known⟩⟩

/-- What an early frame binds is shared. -/
theorem shared_of_lt (early : frame < replay.origin.frames.size) (native : moment.first.Native frame)
    (bound : (session.slots frame).address? key = some address) : replay.Shared moment address := by
  by_cases own : moment.first.Own frame key
  · refine .inr ⟨frame, key, early, own, ?_⟩
    rw [sessions.slots]
    exact bound
  · obtain ⟨-, outer, known⟩ := sessions.laid.proto_of_not_own native own bound
    rw [sessions.role_before early] at known
    exact .inl (replay.laid.slots frame (Layout.native_of_object known) _ address
      (replay.laid.proto frame address outer known).1)

end Sessions

/-- What is kept together when a step is taken again. -/
def ties : Ties where
  toPairing := replay.pairing
  Allowed session := session.Grows replay.passed
  strict := False
  Matches fault again := again = fault
  allowed_of_grows grows allowed := grows.trans allowed
  matches_refl _ := rfl
  naming := none
  World := Moment
  Later := Moment.Later
  Agrees := replay.Agrees
  Same := replay.Same
  Located := replay.Located
  Seen := replay.Seen
  Home := replay.Home
  Asked := replay.Asked
  Built := replay.Built
  creates := True
  selects := replay.origin.Spares replay.passed replay.resumed
  shows := False

section

variable {replay} {moment after : Moment} {session other : Session} {store copy : Store}

/-- Values without parts stand for themselves. -/
theorem same_of_isPlain {value : Value} (isPlain : value.isPlain = true) :
    replay.Same moment value value :=
  ⟨.plain isPlain, Layout.good_of_isPlain isPlain, Layout.good_of_isPlain isPlain⟩

/-- Stores stay as they are while the sessions go on, and new addresses are not bound by them. -/
theorem Agrees.move {next last : Session}
    (agrees : replay.Agrees moment ⟨session, store⟩ ⟨other, copy⟩) (passed : moment.Later after)
    (sessions : replay.Sessions after next last)
    (located : ∀ address again, replay.Located after address again →
      replay.Located moment address again ∨
        store.get address = .undefined ∧ copy.get again = .undefined) :
    replay.Agrees after ⟨next, store⟩ ⟨last, copy⟩ where
  sessions
  stored := agrees.stored.later passed.first
  storedAgain := agrees.storedAgain.later passed.second
  read address again found := by
    obtain earlier | ⟨unbound, unboundAgain⟩ := located address again found
    · exact (agrees.read address again earlier).later passed
    · dsimp only
      rw [unbound, unboundAgain]
      exact same_of_isPlain rfl
  held again contained := by
    obtain ⟨address, found⟩ := agrees.held again contained
    exact ⟨address, found.later passed⟩

end

section

variable {replay} {moment : Moment} {session other : Session} {store copy : Store} {frame : Nat}
  {key : Key}

/-- An address that a frame of the time before the step is given is bound by no store. -/
theorem Agrees.unbound (agrees : replay.Agrees moment ⟨session, store⟩ ⟨other, copy⟩)
    {address : Address} (early : frame < replay.origin.frames.size) (own : moment.first.Own frame key)
    (missing : (session.slots frame).address? key = none)
    (given : (replay.resumed.slots frame).address? key = some address) :
    copy.get address = .undefined := by
  have sessions := agrees.sessions
  have ownAfter := sessions.own_after early own
  refine Store.get_of_unbound (replay.laidAgain.present frame key address ownAfter given) ?_
  cases contained : copy.contains address with
  | false => rfl
  | true =>
      obtain ⟨found, located⟩ := agrees.held address contained
      rcases located with ⟨rfl, handed | ⟨earlier, name, earlierInside, ownEarlier, bound⟩⟩ | fresh
      · -- it was handed out after the step had begun
        have absent : (replay.origin.slots frame).address? key = none := by
          cases held : (replay.origin.slots frame).address? key with
          | none => rfl
          | some old =>
              have still := sessions.grown.kept frame key old held
              rw [missing] at still
              cases still
        have native : replay.before.Native frame := by
          obtain ⟨role, known, different⟩ := own.native
          rw [sessions.role_before early] at known
          exact ⟨role, known, different⟩
        have late := (replay.grows.fresh replay.laid.available frame early
          (replay.laid.own frame native) key _ absent given).1
        rw [replay.laid.allocated] at late
        exact absurd handed.2 (Int.not_le.mpr late)
      · rw [sessions.slots] at bound
        obtain ⟨rfl, rfl⟩ := replay.laidAgain.apart _ _ _ _ _
          (sessions.own_after earlierInside ownEarlier) ownAfter
          (sessions.ahead _ earlierInside _ _ bound) given
        rw [missing] at bound
        cases bound
      · obtain ⟨_, _, _, _, _, _, _, _, late⟩ := fresh
        exact absurd (replay.laidAgain.slots frame ownAfter.native key address given).2
          (Int.not_le.mpr late)

/-- The moment after the step has bound a key in a frame of the time before it. -/
def Moment.given (moment : Moment) (slots : Nat → Slots) : Moment :=
  { moment with first := { moment.first with allocated := moment.first.allocated + 1 }, slots }

/-- The moment after a key has been bound in a frame that is added. -/
def Moment.bound (moment : Moment) (slots others : Nat → Slots) : Moment :=
  ⟨{ moment.first with allocated := moment.first.allocated + 1 },
    { moment.second with allocated := moment.second.allocated + 1 }, slots, others⟩

namespace Sessions

variable (written : Tree) (sessions : replay.Sessions moment session other)
  (native : moment.first.Native frame) (missing : (session.slots frame).address? key = none)

section

variable (early : frame < replay.origin.frames.size)
include sessions early

omit early in
/-- A binding in an early frame makes a moment later. -/
theorem later_given : moment.Later (moment.given (session.declare frame key written).2.slots) := by
  refine ⟨.advance _, .refl _, ?_, fun _ _ _ bound => bound⟩
  rw [sessions.slots]
  exact (session.grows_declare frame key written).kept

omit sessions in
/-- A binding in an early frame leaves the new frames alone. -/
theorem slots_given {found : Nat} (added : replay.origin.frames.size ≤ found) (name : Key) :
    ((session.declare frame key written).2.slots found).address? name =
      (session.slots found).address? name :=
  session.address?_declare_of_ne written (.inl (Nat.ne_of_gt (Nat.lt_of_lt_of_le early added)))

include native missing in
/-- The step binds a key in a frame of the time before it, where the key is found again. -/
theorem given
    (unseen : ∀ proto outer, moment.first.roles[frame]? = some (.object proto outer) →
      ∀ around ∈ outer, (session.slots around).address? key = none)
    (ahead : (session.declare frame key written).2.Grows replay.resumed) :
    replay.Sessions (moment.given (session.declare frame key written).2.slots)
      (session.declare frame key written).2 other where
  laid := sessions.laid.declare written native missing fun proto outer role _ => unseen proto outer role
  laidAgain := sessions.laidAgain
  later := sessions.later.trans (.advance _)
  laterAgain := sessions.laterAgain
  grown := sessions.grown.trans (session.grows_declare frame key written)
  slots := rfl
  others := sessions.others
  size := by rw [session.size_declare]; exact sessions.size
  identities := by rw [session.identities_declare]; exact sessions.identities
  ahead found _ name address held := ahead.kept found name address held
  stays := sessions.stays
  roles := sessions.roles
  bound found name added absent := by
    rw [slots_given written early added] at absent
    exact sessions.bound found name added absent
  fresh found name address added own held := by
    rw [slots_given written early added] at held
    exact sessions.fresh found name address added own held
  objects found proto outer added role :=
    (sessions.objects found proto outer added role).later (sessions.later_given written)

/-- An early binding gives one new pair of addresses. -/
theorem located_given {address again : Address}
    (located : replay.Located (moment.given (session.declare frame key written).2.slots) address again) :
    replay.Located moment address again ∨ address = (session.declare frame key written).1 ∧
      again = (session.declare frame key written).1 := by
  rcases located with ⟨rfl, handed | ⟨found, name, foundEarly, own, held⟩⟩ |
    ⟨found, name, added, own, ownAgain, held, heldAgain, limits⟩
  · exact .inl (.inl ⟨rfl, .inl handed⟩)
  · have bound : ((session.declare frame key written).2.slots found).address? name = some again := held
    by_cases same : found = frame ∧ name = key
    · obtain ⟨rfl, rfl⟩ := same
      rw [Session.address?_declare_self name written
        (Nat.lt_of_lt_of_le early sessions.grown.size)] at bound
      exact .inr ⟨(Option.some.inj bound).symm, (Option.some.inj bound).symm⟩
    · rw [session.address?_declare_of_ne written (Decidable.not_and_iff_or_not.mp same)] at bound
      rw [← sessions.slots] at bound
      exact .inl (.inl ⟨rfl, .inr ⟨found, name, foundEarly, own, bound⟩⟩)
  · have bound : ((session.declare frame key written).2.slots found).address? name = some address := held
    rw [slots_given written early added, ← sessions.slots] at bound
    exact .inl (.inr ⟨found, name, added, own, ownAgain, bound, heldAgain, limits⟩)

end

section

variable (added : replay.origin.frames.size ≤ frame)
include sessions

/-- Bindings in two frames that belong together make a moment later. -/
theorem later_bound : moment.Later (moment.bound (session.declare frame key written).2.slots
    (other.declare (replay.pairing.frame frame) key written).2.slots) := by
  refine ⟨.advance _, .advance _, ?_, ?_⟩
  · rw [sessions.slots]
    exact (session.grows_declare frame key written).kept
  · rw [sessions.others]
    exact (other.grows_declare _ key written).kept

include native missing added

/-- Frames that belong together exist in both runs. -/
theorem inside : frame < session.frames.size ∧ replay.pairing.frame frame < other.frames.size := by
  have own := sessions.laid.own_of_missing native missing
  have native := own.native
  have nativeAgain := (sessions.own_frame added own).native
  exact ⟨sessions.laid.size ▸ native.lt, sessions.laidAgain.size ▸ nativeAgain.lt⟩

/-- The step binds a key in a frame that it has added, and the key is bound again. -/
theorem bind :
    replay.Sessions (moment.bound (session.declare frame key written).2.slots
      (other.declare (replay.pairing.frame frame) key written).2.slots)
      (session.declare frame key written).2
      (other.declare (replay.pairing.frame frame) key written).2 := by
  have own := sessions.laid.own_of_missing native missing
  have ownAgain := sessions.own_frame added own
  have missingAgain := sessions.bound frame key added missing
  obtain ⟨inside, insideAgain⟩ := sessions.inside native missing added
  exact {
    laid := sessions.laid.declare written native missing fun _ _ _ early =>
      absurd early (Nat.not_lt.mpr added)
    laidAgain := sessions.laidAgain.declare written ownAgain.native missingAgain fun _ _ _ early =>
      absurd early (Nat.not_lt.mpr (le_frame added))
    later := sessions.later.trans (.advance _)
    laterAgain := sessions.laterAgain.trans (.advance _)
    grown := sessions.grown.trans (session.grows_declare frame key written)
    slots := rfl
    others := rfl
    size := by rw [session.size_declare, other.size_declare]; exact sessions.size
    identities := by rw [session.identities_declare, other.identities_declare]; exact sessions.identities
    -- The frame is one that the step has added, so frames from before it are not concerned.
    ahead := fun found early name address held => by
      rw [session.address?_declare_of_ne written
        (.inl (Nat.ne_of_lt (Nat.lt_of_lt_of_le early added)))] at held
      exact sessions.ahead found early name address held
    stays := fun found early name => by
      rw [other.address?_declare_of_ne written
        (.inl (Nat.ne_of_lt (Nat.lt_of_lt_of_le early (le_frame added))))]
      exact sessions.stays found early name
    roles := sessions.roles
    bound := fun found name foundAdded absent => by
      by_cases same : found = frame ∧ name = key
      · obtain ⟨rfl, rfl⟩ := same
        rw [Session.address?_declare_self name written inside] at absent
        cases absent
      · have different := Decidable.not_and_iff_or_not.mp same
        rw [session.address?_declare_of_ne written different] at absent
        rw [other.address?_declare_of_ne written (frame_ne_or different)]
        exact sessions.bound found name foundAdded absent
    fresh := fun found name address foundAdded ownFound held => by
      by_cases same : found = frame ∧ name = key
      · obtain ⟨rfl, rfl⟩ := same
        rw [Session.address?_declare_self name written inside] at held
        obtain rfl := Option.some.inj held
        refine ⟨_, Session.address?_declare_self name written insideAgain, ?_, ?_⟩
        · exact Int.lt_of_le_of_lt (Int.ofNat_le.mpr sessions.later.allocated)
            (sessions.laid.lt_declare written native missing)
        · exact Int.lt_of_le_of_lt (Int.ofNat_le.mpr sessions.laterAgain.allocated)
            (sessions.laidAgain.lt_declare written ownAgain.native missingAgain)
      · have different := Decidable.not_and_iff_or_not.mp same
        rw [session.address?_declare_of_ne written different] at held
        rw [other.address?_declare_of_ne written (frame_ne_or different)]
        exact sessions.fresh found name address foundAdded ownFound held
    objects := fun found proto outer foundAdded role =>
      (sessions.objects found proto outer foundAdded role).later (sessions.later_bound written) }

/-- A binding in frames that belong together gives one new pair of addresses. -/
theorem located_bound {address again : Address}
    (located : replay.Located (moment.bound (session.declare frame key written).2.slots
      (other.declare (replay.pairing.frame frame) key written).2.slots) address again) :
    replay.Located moment address again ∨ address = (session.declare frame key written).1 ∧
      again = (other.declare (replay.pairing.frame frame) key written).1 := by
  obtain ⟨inside, insideAgain⟩ := sessions.inside native missing added
  rcases located with ⟨rfl, handed | ⟨found, name, early, own, held⟩⟩ |
    ⟨found, name, foundAdded, own, ownAgain, held, heldAgain, limits⟩
  · exact .inl (.inl ⟨rfl, .inl handed⟩)
  · have bound : ((session.declare frame key written).2.slots found).address? name = some again := held
    rw [session.address?_declare_of_ne written
      (.inl (Nat.ne_of_lt (Nat.lt_of_lt_of_le early added))), ← sessions.slots] at bound
    exact .inl (.inl ⟨rfl, .inr ⟨found, name, early, own, bound⟩⟩)
  · have bound : ((session.declare frame key written).2.slots found).address? name = some address := held
    have boundAgain : ((other.declare (replay.pairing.frame frame) key written).2.slots
      (replay.pairing.frame found)).address? name = some again := heldAgain
    by_cases same : found = frame ∧ name = key
    · obtain ⟨rfl, rfl⟩ := same
      rw [Session.address?_declare_self name written inside] at bound
      rw [Session.address?_declare_self name written insideAgain] at boundAgain
      exact .inr ⟨(Option.some.inj bound).symm, (Option.some.inj boundAgain).symm⟩
    · have different := Decidable.not_and_iff_or_not.mp same
      rw [session.address?_declare_of_ne written different, ← sessions.slots] at bound
      rw [other.address?_declare_of_ne written (frame_ne_or different), ← sessions.others] at boundAgain
      exact .inl (.inr ⟨found, name, foundAdded, own, ownAgain, bound, boundAgain, limits⟩)

end

end Sessions

/-- The step declares a key in a frame of the time before it. When it is taken again, the key is there. -/
theorem reaches_declare_of_lt (written : Tree)
    (agrees : replay.Agrees moment ⟨session, store⟩ ⟨other, copy⟩)
    (early : frame < replay.origin.frames.size) (native : moment.first.Native frame)
    (unseen : (session.slots frame).address? key = none →
      ∀ proto outer, moment.first.roles[frame]? = some (.object proto outer) →
      ∀ around ∈ outer, (session.slots around).address? key = none)
    (ahead : (session.declare frame key written).2.Grows replay.resumed) :
    (other.slots frame).address? key = some (session.declare frame key written).1 ∧
      replay.ties.Reaches moment ⟨(session.declare frame key written).2, store⟩ ⟨other, copy⟩
        fun later => replay.Located later (session.declare frame key written).1
          (session.declare frame key written).1 := by
  have sessions := agrees.sessions
  have inside := Nat.lt_of_lt_of_le early sessions.grown.size
  have declared := Session.address?_declare_self key written inside
  have given := ahead.kept frame key _ declared
  constructor
  · rw [sessions.stays frame (Nat.lt_of_lt_of_le early replay.grows.size)]
    exact given
  · cases bound : (session.slots frame).address? key with
    | some address =>
        rw [Session.declare_of_bound bound]
        exact ⟨moment, .refl moment, agrees, .inl ⟨rfl, sessions.shared_of_lt early native bound⟩⟩
    | none =>
        have own := sessions.laid.own_of_missing native bound
        refine ⟨moment.given (session.declare frame key written).2.slots, sessions.later_given written,
          agrees.move (sessions.later_given written)
            (sessions.given written native bound early (unseen bound) ahead) ?_,
          .inl ⟨rfl, .inr ⟨frame, key, early, own, declared⟩⟩⟩
        intro address again located
        refine (sessions.located_given written early located).imp_right ?_
        rintro ⟨rfl, rfl⟩
        exact ⟨agrees.stored.get_of_fresh (sessions.laid.lt_declare written native bound),
          agrees.unbound early own bound given⟩

/-- A key that the step declares in a frame that it has added is declared again. -/
theorem reaches_declare_of_le (written : Tree)
    (agrees : replay.Agrees moment ⟨session, store⟩ ⟨other, copy⟩)
    (added : replay.origin.frames.size ≤ frame) (native : moment.first.Native frame) :
    replay.ties.Reaches moment ⟨(session.declare frame key written).2, store⟩
      ⟨(other.declare (replay.pairing.frame frame) key written).2, copy⟩ fun later =>
      replay.Located later (session.declare frame key written).1
        (other.declare (replay.pairing.frame frame) key written).1 := by
  have sessions := agrees.sessions
  cases bound : (session.slots frame).address? key with
  | some address =>
      obtain ⟨again, boundAgain, located⟩ := sessions.located_of_le added native bound
      rw [Session.declare_of_bound bound, Session.declare_of_bound boundAgain]
      exact ⟨moment, .refl moment, agrees, located⟩
  | none =>
      have own := sessions.laid.own_of_missing native bound
      have ownAgain := sessions.own_frame added own
      have binds := sessions.bind written native bound added
      obtain ⟨inside, -⟩ := sessions.inside native bound added
      have declared := Session.address?_declare_self key written inside
      refine ⟨_, sessions.later_bound written, agrees.move (sessions.later_bound written) binds ?_, ?_⟩
      · intro address again located
        refine (sessions.located_bound written native bound added located).imp_right ?_
        rintro ⟨rfl, rfl⟩
        exact ⟨agrees.stored.get_of_fresh (sessions.laid.lt_declare written native bound),
          agrees.storedAgain.get_of_fresh (sessions.laidAgain.lt_declare written ownAgain.native
            (sessions.bound frame key added bound))⟩
      · obtain ⟨again, boundAgain, located⟩ := binds.located_of_le added native declared
        obtain ⟨-, insideAgain⟩ := sessions.inside native bound added
        rw [Session.address?_declare_self key written insideAgain] at boundAgain
        obtain rfl := Option.some.inj boundAgain
        exact located

end

/-- A frame of the run stays a frame of the run. -/
theorem role_ne_foreign {role : Role} (native : role ≠ .foreign) : replay.role role ≠ .foreign := by
  cases role with
  | foreign => exact native
  | scope | object => exact Role.noConfusion

/-- The moment after a frame has been added. -/
def grow (moment : Moment) (role : Role) (slots others : Nat → Slots) : Moment :=
  ⟨{ moment.first with roles := moment.first.roles ++ [role] },
    { moment.second with roles := moment.second.roles ++ [replay.role role] }, slots, others⟩

/-- What is the same about two frames that are added. The slot for the prototype of an object is the
only slot that they may have. -/
structure Adds (role : Role) (session other next last : Session) : Prop where
  native : role ≠ .foreign
  size : next.frames.size = session.frames.size + 1
  sizeAgain : last.frames.size = other.frames.size + 1
  identities : next.identities = session.identities
  identitiesAgain : last.identities = other.identities
  grows : session.Grows next
  growsAgain : other.Grows last
  slots : ∀ frame, frame ≠ session.frames.size → next.slots frame = session.slots frame
  others : ∀ frame, frame ≠ other.frames.size → last.slots frame = other.slots frame
  same : last.slots other.frames.size = next.slots session.frames.size
  bound : ∀ key address, (next.slots session.frames.size).address? key = some address →
    role ≠ .scope ∧ key = Layout.protoKey

/-- Both runs may add a scope. -/
theorem adds_scope (session other : Session) :
    Adds .scope session other (session.addFrame Session.machineAllocator)
      (other.addFrame Session.machineAllocator) where
  native := Role.noConfusion
  size := by simp
  sizeAgain := by simp
  identities := rfl
  identitiesAgain := rfl
  grows := session.grows_addFrame _
  growsAgain := other.grows_addFrame _
  slots _ := session.slots_addFrame_of_ne _
  others _ := other.slots_addFrame_of_ne _
  same := by rw [session.slots_addFrame_self, other.slots_addFrame_self]
  bound key address held := by
    rw [session.slots_addFrame_self] at held
    cases held

/-- Both runs may add an object. -/
theorem adds_object (session other : Session) (proto : Address) (outer : List Nat) :
    Adds (.object proto outer) session other (session.addObject Session.machineAllocator proto)
      (other.addObject Session.machineAllocator proto) where
  native := Role.noConfusion
  size := by simp
  sizeAgain := by simp
  identities := rfl
  identitiesAgain := rfl
  grows := session.grows_addObject _ proto
  growsAgain := other.grows_addObject _ proto
  slots _ := session.slots_addObject_of_ne _ proto
  others _ := other.slots_addObject_of_ne _ proto
  same := by rw [session.slots_addObject_self, other.slots_addObject_self]
  bound key address held := by
    rw [session.slots_addObject_self] at held
    unfold Slots.address? at held
    split at held
    · rename_i same
      exact ⟨Role.noConfusion, same.symm⟩
    · cases held

section

variable {replay} {moment : Moment} {session other next last : Session} {role : Role}

namespace Sessions

variable (sessions : replay.Sessions moment session other) (adds : Adds role session other next last)
include sessions adds

/-- New frames make a moment later. -/
theorem later_grow : moment.Later (replay.grow moment role next.slots last.slots) := by
  refine ⟨.push _ adds.native, .push _ (replay.role_ne_foreign adds.native), ?_, ?_⟩
  · rw [sessions.slots]
    exact adds.grows.kept
  · rw [sessions.others]
    exact adds.growsAgain.kept

omit sessions in
/-- A frame that has just been added has no slot with an address of its own. -/
theorem not_own {key : Key} {address : Address} {layout : Layout}
    (known : layout.roles[session.frames.size]? = some role) (own : layout.Own session.frames.size key) :
    (next.slots session.frames.size).address? key ≠ some address := by
  intro held
  obtain ⟨notScope, isProto⟩ := adds.bound key address held
  rcases own with scope | ⟨-, different⟩
  · rw [known] at scope
    exact notScope (Option.some.inj scope)
  · exact different isProto

omit adds in
/-- A new frame has the role that it was given. -/
theorem role_grow (slots others : Nat → Slots) :
    (replay.grow moment role slots others).first.roles[session.frames.size]? = some role := by
  rw [← sessions.laid.size]
  exact List.getElem?_concat_length

omit adds in
/-- The frame that belongs to a new frame has its role. -/
theorem role_grow_again (slots others : Nat → Slots) :
    (replay.grow moment role slots others).second.roles[other.frames.size]? =
      some (replay.role role) := by
  rw [← sessions.laidAgain.size]
  exact List.getElem?_concat_length

omit adds in
/-- No other frame belongs to the new one. -/
theorem frame_ne {frame : Nat} (different : frame ≠ session.frames.size) :
    replay.pairing.frame frame ≠ other.frames.size := by
  rw [sessions.size]
  exact fun same => different (replay.pairing.frame_injective same)

/-- A frame is added in the step and is added again. -/
theorem push
    (laid : Layout.Frames replay.origin (replay.grow moment role next.slots last.slots).first next)
    (laidAgain : Layout.Frames replay.resumed (replay.grow moment role next.slots last.slots).second last)
    (objects : ∀ proto outer, role = .object proto outer → replay.Shared moment proto) :
    replay.Sessions (replay.grow moment role next.slots last.slots) next last where
  laid
  laidAgain
  later := sessions.later.trans (.push _ adds.native)
  laterAgain := sessions.laterAgain.trans (.push _ (replay.role_ne_foreign adds.native))
  grown := sessions.grown.trans adds.grows
  slots := rfl
  others := rfl
  size := by
    rw [adds.size, adds.sizeAgain, sessions.size]
    exact (shift_succ sessions.grown.size).symm
  identities := by
    rw [adds.identities, adds.identitiesAgain]
    exact sessions.identities
  ahead frame early key address held := by
    rw [adds.slots frame (Nat.ne_of_lt (Nat.lt_of_lt_of_le early sessions.grown.size))] at held
    exact sessions.ahead frame early key address held
  stays frame early key := by
    have before : frame ≠ other.frames.size := by
      rw [sessions.size]
      exact Nat.ne_of_lt (Nat.lt_of_lt_of_le early (le_frame sessions.grown.size))
    rw [adds.others frame before]
    exact sessions.stays frame early key
  roles frame found added known := by
    obtain ⟨-, there⟩ | ⟨rfl, rfl⟩ := sessions.laid.role_of_append known
    · exact (Layout.Later.push _ (replay.role_ne_foreign adds.native)).role
        (sessions.roles frame found added there)
    · rw [← sessions.size]
      exact sessions.role_grow_again _ _
  bound frame key added absent := by
    by_cases same : frame = session.frames.size
    · subst same
      rw [← sessions.size, adds.same]
      exact absent
    · rw [adds.slots frame same] at absent
      rw [adds.others _ (sessions.frame_ne same)]
      exact sessions.bound frame key added absent
  fresh frame key address added own held := by
    by_cases same : frame = session.frames.size
    · subst same
      -- The one slot that a new frame may have is shared with a scope, so it is no slot of its own.
      exact absurd held (not_own adds (sessions.role_grow _ _) own)
    · rw [adds.slots frame same] at held
      rw [adds.others _ (sessions.frame_ne same)]
      exact sessions.fresh frame key address added (sessions.laid.own_of_append same own) held
  objects frame proto outer added known := by
    refine Shared.later (sessions.later_grow adds) ?_
    obtain ⟨-, there⟩ | ⟨-, same⟩ := sessions.laid.role_of_append known
    · exact sessions.objects frame proto outer added there
    · exact objects proto outer same

/-- New frames bring no new addresses. -/
theorem located_grow {address again : Address}
    (located : replay.Located (replay.grow moment role next.slots last.slots) address again) :
    replay.Located moment address again := by
  rcases located with ⟨rfl, handed | ⟨frame, key, early, own, held⟩⟩ |
    ⟨frame, key, added, own, ownAgain, held, heldAgain, limits⟩
  · exact .inl ⟨rfl, .inl handed⟩
  · have before := Nat.ne_of_lt (Nat.lt_of_lt_of_le early sessions.grown.size)
    have bound : (next.slots frame).address? key = some again := held
    rw [adds.slots frame before, ← sessions.slots] at bound
    exact .inl ⟨rfl, .inr ⟨frame, key, early, sessions.laid.own_of_append before own, bound⟩⟩
  · have bound : (next.slots frame).address? key = some address := held
    have boundAgain : (last.slots (replay.pairing.frame frame)).address? key = some again := heldAgain
    have before : frame ≠ session.frames.size := by
      rintro rfl
      exact not_own adds (sessions.role_grow _ _) own bound
    have ownBefore := sessions.laid.own_of_append before own
    rw [adds.slots frame before, ← sessions.slots] at bound
    rw [adds.others _ (sessions.frame_ne before), ← sessions.others] at boundAgain
    exact .inr ⟨frame, key, added, ownBefore, sessions.own_frame added ownBefore, bound, boundAgain,
      limits⟩

end Sessions

end

end Replay

end ScriptMachine

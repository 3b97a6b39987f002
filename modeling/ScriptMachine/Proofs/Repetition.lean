/-
This file takes a step again after further steps. Main statement: a state can be stepped again at any
time, and comes to the same place with the same values, unless what the step asks for has been bound anew.
-/

import ScriptMachine.Proofs.Replay

namespace ScriptMachine

namespace Session

variable {session : Session} {scope : Scope} {key : Key}

theorem locate_of_found {address : Address} (found : session.resolve? scope key = some address)
    (written : Tree) : session.locate scope key written = (address, session) := by
  unfold locate
  rw [found]

theorem locate_of_missing (missing : session.resolve? scope key = none) (written : Tree) :
    session.locate scope key written = session.declare scope.inner key written := by
  unfold locate
  rw [missing]

end Session

namespace Replay

variable {replay : Replay} {moment : Moment} {session other : Session} {store copy : Store}

namespace Sessions

variable (sessions : replay.Sessions moment session other)
include sessions
variable {scope : Scope} {key : Key} {address : Address} {chain : List Nat}

/-- Where a key is bound already as it will be bound, it is resolved to the same address. -/
theorem resolve?_eq (home : replay.Home moment scope) (asked : replay.Asked moment scope key) :
    session.resolve? scope key = replay.resumed.resolve? scope key := by
  have absent : ∀ frame ∈ scope.chain, (replay.resumed.slots frame).address? key = none →
      (session.slots frame).address? key = none := by
    intro frame member missing
    cases held : (session.slots frame).address? key with
    | none => rfl
    | some address =>
        rw [sessions.ahead frame (home.2 frame member) key address held] at missing
        cases missing
  cases found : replay.resumed.resolve? scope key with
  | none =>
      refine List.findSome?_eq_none_iff.mpr fun frame member => ?_
      exact absent frame member (List.findSome?_eq_none_iff.mp found frame member)
  | some address =>
      obtain ⟨frame, member, bound⟩ := asked address found
      rw [sessions.slots] at bound
      obtain ⟨inner, first, outer, chain, given, missing⟩ := List.findSome?_eq_some_iff.mp found
      have own : ∀ found ∈ scope.chain, replay.after.Own found key := fun found member =>
        sessions.own_after (home.2 found member) (.inl (home.1.1 found member))
      have firstMember : first ∈ scope.chain := by
        rw [chain]
        exact List.mem_append_right _ List.mem_cons_self
      -- the frame that has the address is the first one that has the key
      obtain ⟨rfl, -⟩ := replay.laidAgain.apart _ _ _ _ _ (own frame member) (own first firstMember)
        (sessions.ahead frame (home.2 frame member) key address bound) given
      refine List.findSome?_eq_some_iff.mpr ⟨inner, frame, outer, chain, bound, fun found before => ?_⟩
      refine absent found ?_ (missing found before)
      rw [chain]
      exact List.mem_append_left _ before

/-- An early scope resolves as in the resumed session. -/
theorem resolve?_resumed (key : Key) (early : ∀ frame ∈ scope.chain, frame < replay.origin.frames.size) :
    other.resolve? scope key = replay.resumed.resolve? scope key :=
  Session.resolve?_congr fun frame member =>
    sessions.stays frame (Nat.lt_of_lt_of_le (early frame member) replay.grows.size) key

/-- A name that is looked up again is found where it was found. -/
theorem resolves (home : replay.Home moment scope) (asked : replay.Asked moment scope key)
    (found : session.resolve? scope key = some address) :
    other.resolve? (replay.pairing.scope scope) key = some address ∧ replay.Shared moment address := by
  constructor
  · rw [scope_of_lt home.2, sessions.resolve?_resumed key home.2, ← sessions.resolve?_eq home asked]
    exact found
  · obtain ⟨frame, member, bound⟩ := List.exists_of_findSome?_eq_some found
    exact sessions.shared_of_lt (home.2 frame member) (Layout.native_of_scope (home.1.1 frame member))
      bound

/-- What an object of the time before the step has, it still has when the step is taken again. -/
theorem findSome?_of_lt (ahead : session.Grows replay.resumed) (chained : moment.first.Chained chain)
    (early : ∀ frame ∈ chain, frame < replay.origin.frames.size)
    (found : chain.findSome? (fun frame => (session.slots frame).address? key) = some address) :
    chain.findSome? (fun frame => (other.slots frame).address? key) = some address ∧
      replay.Shared moment address := by
  have natives := sessions.laid.native_of_chained chained
  have handed := (sessions.laid.handed_of_findSome natives found).2
  rw [← sessions.laid.allocated] at handed
  constructor
  · cases chain with
    | nil => cases found
    | cons frame outer =>
        have chainedAfter : replay.after.Chained (frame :: outer) := by
          obtain ⟨proto, role⟩ := chained
          exact ⟨proto, (sessions.role_after (early frame List.mem_cons_self)).trans role⟩
        have still := replay.laidAgain.resolves sessions.grown ahead chainedAfter early handed found
        have same := @resolve?_resumed replay moment session other sessions ⟨frame, outer⟩ key early
        exact same.trans still
  · obtain ⟨frame, member, bound⟩ := List.exists_of_findSome?_eq_some found
    exact sessions.shared_of_lt (early frame member) (natives frame member) bound

/-- What an object has, the object that stands for it has as well. -/
theorem exists_findSome? (ahead : session.Grows replay.resumed) (chained : moment.first.Chained chain)
    (found : chain.findSome? (fun frame => (session.slots frame).address? key) = some address) :
    ∃ again, (chain.map replay.pairing.frame).findSome?
        (fun frame => (other.slots frame).address? key) = some again ∧
      replay.Located moment address again := by
  induction chain with
  | nil => cases found
  | cons frame outer ih =>
      obtain ⟨proto, role⟩ := chained
      obtain ⟨around, below⟩ := sessions.laid.closed frame proto outer role
      by_cases early : frame < replay.origin.frames.size
      · have allEarly : ∀ found ∈ frame :: outer, found < replay.origin.frames.size := by
          refine List.forall_mem_cons.mpr ⟨early, fun found member => ?_⟩
          exact Nat.lt_trans (below found member) early
        have whole : moment.first.Chained (frame :: outer) := ⟨proto, role⟩
        obtain ⟨foundAgain, shared⟩ := sessions.findSome?_of_lt ahead whole allEarly found
        rw [map_of_lt allEarly]
        exact ⟨address, foundAgain, .inl ⟨rfl, shared⟩⟩
      · have added := Nat.not_lt.mp early
        rw [List.map_cons, List.findSome?_cons]
        rw [List.findSome?_cons] at found
        cases bound : (session.slots frame).address? key with
        | some held =>
            rw [bound] at found
            obtain rfl := Option.some.inj found
            obtain ⟨again, boundAgain, located⟩ :=
              sessions.located_of_le added (Layout.native_of_object role) bound
            rw [boundAgain]
            exact ⟨again, rfl, located⟩
        | none =>
            rw [bound] at found
            rw [sessions.bound frame key added bound]
            exact ih around found

/-- What an object lacks, the object that stands for it lacks as well, if it was given to no object that
was there before the step. -/
theorem findSome?_eq_none (chained : moment.first.Chained chain)
    (ungiven : replay.origin.Ungiven replay.resumed key)
    (missing : chain.findSome? (fun frame => (session.slots frame).address? key) = none) :
    (chain.map replay.pairing.frame).findSome? (fun frame => (other.slots frame).address? key) =
      none := by
  refine List.findSome?_eq_none_iff.mpr (List.forall_mem_map.mpr fun frame member => ?_)
  have absent : (session.slots frame).address? key = none :=
    List.findSome?_eq_none_iff.mp missing frame member
  by_cases early : frame < replay.origin.frames.size
  · rw [frame_of_lt early, sessions.stays frame (Nat.lt_of_lt_of_le early replay.grows.size)]
    refine ungiven frame early ?_ ?_
    · obtain ⟨proto, outer, role⟩ := sessions.laid.exists_outer chained frame member
      rw [sessions.role_before early] at role
      rw [(replay.laid.proto frame proto outer role).1]
      exact Option.some_ne_none proto
    · cases held : (replay.origin.slots frame).address? key with
      | none => rfl
      | some address =>
          rw [sessions.grown.kept frame key address held] at absent
          cases absent
  · exact sessions.bound frame key (Nat.not_lt.mp early) absent

/-- A function that is made has the next identity on both sides. -/
theorem identify :
    replay.Sessions { moment with
      first := { moment.first with identities := moment.first.identities + 1 }
      second := { moment.second with identities := moment.second.identities + 1 } }
      session.identify other.identify := by
  refine { sessions with
    laid := sessions.laid.identify
    laidAgain := sessions.laidAgain.identify
    later := sessions.later.trans (.identify _)
    laterAgain := sessions.laterAgain.trans (.identify _)
    grown := sessions.grown.trans (.of_eq rfl rfl (Nat.le_succ _))
    identities := ?_ }
  show other.identities + 1 = replay.pairing.identity (session.identities + 1)
  rw [sessions.identities]
  exact (shift_succ sessions.grown.identities).symm

theorem report (output outputAgain : String) (journal journalAgain : Array Entry) :
    replay.Sessions moment { session with output, journal }
      { other with output := outputAgain, journal := journalAgain } :=
  { sessions with
    laid := sessions.laid.report output journal
    laidAgain := sessions.laidAgain.report outputAgain journalAgain
    grown := sessions.grown.trans (.of_eq rfl rfl (Nat.le_refl _)) }

end Sessions

/-- The frames of a prototype stand for those of its like. -/
theorem prototypeChain_of_like {proto : Address}
    (like : (store.get proto).Like replay.pairing (copy.get proto)) :
    copy.prototypeChain proto = (store.prototypeChain proto).map replay.pairing.frame := by
  unfold Store.prototypeChain
  generalize store.get proto = value at like ⊢
  generalize copy.get proto = again at like ⊢
  cases like with
  | plain isPlain =>
      cases value with
      | object | function | builtin | reference => cases isPlain
      | _ => rfl
  | object | function | builtin => rfl

section

variable (agrees : replay.Agrees moment ⟨session, store⟩ ⟨other, copy⟩)
include agrees

/-- A new frame on both sides extends the moment. -/
theorem reaches_push {next last : Session} {role : Role} (adds : Adds role session other next last)
    {also : Moment → Prop}
    (laid : Layout.Frames replay.origin (replay.grow moment role next.slots last.slots).first next)
    (laidAgain : Layout.Frames replay.resumed (replay.grow moment role next.slots last.slots).second last)
    (objects : ∀ proto outer, role = .object proto outer → replay.Shared moment proto)
    (holds : also (replay.grow moment role next.slots last.slots)) :
    replay.ties.Reaches moment ⟨next, store⟩ ⟨last, copy⟩ also := by
  have sessions := agrees.sessions
  have passed := sessions.later_grow adds
  refine ⟨_, passed, agrees.move passed (sessions.push adds laid laidAgain objects) ?_, holds⟩
  exact fun address again located => .inl (sessions.located_grow adds located)

variable {scope : Scope}

/-- A scope gets a frame, and it gets one again. -/
theorem reaches_nest (seen : replay.Seen moment scope) :
    replay.ties.Reaches moment ⟨session.addFrame Session.machineAllocator, store⟩
      ⟨other.addFrame Session.machineAllocator, copy⟩ fun later =>
      replay.Seen later ⟨session.frames.size, scope.chain⟩ := by
  have sessions := agrees.sessions
  have adds := adds_scope session other
  have passed := sessions.later_grow adds
  refine reaches_push agrees adds sessions.laid.addFrame sessions.laidAgain.addFrame
    (fun _ _ impossible => Role.noConfusion impossible) ⟨?_, ?_⟩
  · refine List.forall_mem_cons.mpr ⟨sessions.role_grow _ _, ?_⟩
    exact seen.1.later passed.first
  · refine List.forall_mem_cons.mpr ⟨?_, seen.2.later passed.second⟩
    have inner : (replay.pairing.scope ⟨session.frames.size, scope.chain⟩).inner = other.frames.size :=
      sessions.size.symm
    rw [inner]
    exact sessions.role_grow_again _ _

/-- An object is made, and it is made again from the same prototype. -/
theorem reaches_create {proto : Address} (home : replay.Home moment scope)
    (asked : replay.Asked moment scope Layout.intrinsicKey)
    (found : session.resolve? scope Layout.intrinsicKey = some proto) :
    replay.ties.Reaches moment ⟨session.addObject Session.machineAllocator proto, store⟩
      ⟨other.addObject Session.machineAllocator proto, copy⟩ fun later =>
      replay.Built later ⟨proto, ⟨session.frames.size, store.prototypeChain proto⟩⟩
        ⟨proto, ⟨other.frames.size, copy.prototypeChain proto⟩⟩ := by
  have sessions := agrees.sessions
  obtain ⟨-, shared⟩ := sessions.resolves home asked found
  have chains := prototypeChain_of_like (agrees.read proto proto (.inl ⟨rfl, shared⟩)).1
  obtain ⟨frame, member, bound⟩ := List.exists_of_findSome?_eq_some found
  have early := home.2 frame member
  have role := home.1.1 frame member
  have roleAgain := (sessions.role_of_lt early).trans role
  have chainedAgain := agrees.storedAgain.chained proto
  rw [chains] at chainedAgain
  have laid := sessions.laid.addObject (agrees.stored.chained proto) role bound
  have laidAgain := sessions.laidAgain.addObject chainedAgain roleAgain
    (sessions.resumed_of_shared early bound)
  have adds := adds_object session other proto (store.prototypeChain proto)
  have objects : ∀ seed outer, Role.object proto (store.prototypeChain proto) = .object seed outer →
      replay.Shared moment seed := by
    rintro _ _ ⟨⟩
    exact shared
  refine reaches_push agrees adds laid laidAgain objects
    ⟨⟨?_, sessions.role_grow _ _, ?_⟩, sessions.grown.size⟩
  · rw [chains, sessions.size]
    exact .object proto ⟨session.frames.size, store.prototypeChain proto⟩
  · show _[other.frames.size]? = some (Role.object proto (copy.prototypeChain proto))
    rw [chains]
    exact sessions.role_grow_again _ _

/-- A property that is looked for again is found where the one stands that it stands for. -/
theorem reaches_locate {proto : Address} {properties : Scope} {key : Key} (written : Tree)
    (spares : replay.origin.Spares replay.passed replay.resumed)
    (good : moment.first.Good (.object ⟨proto, properties⟩))
    (allowed : (session.locate properties key written).2.Grows replay.passed) :
    replay.ties.Reaches moment ⟨(session.locate properties key written).2, store⟩
      ⟨(other.locate (replay.pairing.scope properties) key written).2, copy⟩ fun later =>
      replay.Located later (session.locate properties key written).1
        (other.locate (replay.pairing.scope properties) key written).1 := by
  have sessions := agrees.sessions
  have chained : moment.first.Chained properties.chain := good.chained
  have native := Layout.native_of_object good
  cases found : session.resolve? properties key with
  | some address =>
      rw [Session.locate_of_found found] at allowed ⊢
      obtain ⟨again, foundAgain, located⟩ :=
        sessions.exists_findSome? (allowed.trans replay.goes) chained found
      have resolved : other.resolve? (replay.pairing.scope properties) key = some again := foundAgain
      rw [Session.locate_of_found resolved]
      exact ⟨moment, .refl moment, agrees, located⟩
  | none =>
      rw [Session.locate_of_missing found] at allowed ⊢
      have absent := List.findSome?_eq_none_iff.mp found
      by_cases early : properties.inner < replay.origin.frames.size
      -- An object from before the step has kept what the step gave it, so the property is found in its
      -- own frame this time.
      · obtain ⟨there, reaches⟩ := reaches_declare_of_lt written agrees early native
          (fun _ seed outer role around member => by
            cases good.symm.trans role
            exact absent around (List.mem_cons_of_mem _ member)) (allowed.trans replay.goes)
        have resolved : other.resolve? (replay.pairing.scope properties) key =
            some (session.declare properties.inner key written).1 := by
          unfold Session.resolve?
          rw [Pairing.chain_scope, Scope.chain, List.map_cons, frame_of_lt early, List.findSome?_cons,
            there]
        rw [Session.locate_of_found resolved]
        exact reaches
      -- The object is one that the step makes. Since nothing has given its prototypes a property of
      -- this key in between, its like is given one as well.
      · have added := Nat.not_lt.mp early
        have inside := sessions.laid.size ▸ native.lt
        have declared := allowed.kept _ _ _ (Session.address?_declare_self key written inside)
        obtain ⟨slot, member, rfl, -⟩ := Slots.exists_of_address? declared
        have isObject : (replay.passed.slots properties.inner).address? Layout.protoKey ≠ none := by
          have held := (sessions.laid.proto _ _ _ good).1
          rw [((session.grows_declare _ _ written).trans allowed).kept _ _ _ held]
          exact Option.some_ne_none proto
        have missing := sessions.findSome?_eq_none chained
          (spares _ (Layout.lt_of_address? declared) added isObject slot member) found
        have unresolved : other.resolve? (replay.pairing.scope properties) slot.key = none := missing
        rw [Session.locate_of_missing unresolved]
        exact reaches_declare_of_le written agrees added native

/-- A name that a scope declares is declared again, and stands for the same from then on. -/
theorem reaches_declare {key : Key} (written : Tree) (seen : replay.Seen moment scope)
    (allowed : (session.declare scope.inner key written).2.Grows replay.passed) :
    replay.ties.Reaches moment ⟨(session.declare scope.inner key written).2, store⟩
      ⟨(other.declare (replay.pairing.frame scope.inner) key written).2, copy⟩ fun later =>
      replay.Located later (session.declare scope.inner key written).1
        (other.declare (replay.pairing.frame scope.inner) key written).1 ∧
      (replay.Home moment scope → replay.Asked later scope key) := by
  have sessions := agrees.sessions
  have role := seen.1 scope.inner List.mem_cons_self
  have native := Layout.native_of_scope role
  by_cases early : scope.inner < replay.origin.frames.size
  · have ahead := allowed.trans replay.goes
    obtain ⟨there, later, passed, agree, located⟩ := reaches_declare_of_lt written agrees early native
      (fun _ proto outer object => by cases role.symm.trans object) ahead
    rw [frame_of_lt early, Session.declare_of_bound there]
    refine ⟨later, passed, agree, located, fun _ address found => ?_⟩
    have declared := Session.address?_declare_self key written
      (Nat.lt_of_lt_of_le early sessions.grown.size)
    have first : replay.resumed.resolve? scope key =
        some (session.declare scope.inner key written).1 := by
      unfold Session.resolve?
      rw [Scope.chain, List.findSome?_cons, ahead.kept _ _ _ declared]
    rw [first] at found
    obtain rfl := Option.some.inj found
    refine ⟨scope.inner, List.mem_cons_self, ?_⟩
    rw [agree.sessions.slots]
    exact declared
  · obtain ⟨later, passed, agree, located⟩ :=
      reaches_declare_of_le written agrees (Nat.not_lt.mp early) native
    exact ⟨later, passed, agree, located, fun home => absurd (home.2 _ List.mem_cons_self) early⟩

end

end Replay

/-- Whatever a program does keeps a step and the same step taken again together. -/
def Correspondence.replay (replay : Replay) : Correspondence where
  toTies := replay.ties
  later_refl := Replay.Moment.Later.refl
  later_trans := Replay.Moment.Later.trans
  same_later passed same := same.later passed
  located_later passed located := located.later passed
  seen_later passed seen := seen.later passed
  home_later passed home := ⟨home.1.later passed, home.2⟩
  seen_of_home home := home.1
  asked_later passed asked := asked.later passed
  built_later passed built := ⟨built.1.later passed, built.2⟩
  akin same := same.1.akin
  plain isPlain := Replay.same_of_isPlain isPlain
  callable := by
    rintro moment closure _ ⟨like, good, goodAgain⟩
    cases like with
    | plain isPlain => cases isPlain
    | function => exact ⟨good.2, goodAgain.2⟩
  read agrees located := agrees.read _ _ located
  null := by
    rintro moment address other (⟨rfl, -⟩ | ⟨_, _, _, _, _, _, _, low, lowAgain⟩)
    · rfl
    · have present := Int.ne_of_gt (Int.lt_of_le_of_lt (Int.natCast_nonneg _) low)
      have presentAgain := Int.ne_of_gt (Int.lt_of_le_of_lt (Int.natCast_nonneg _) lowAgain)
      exact ⟨fun null => absurd null present, fun null => absurd null presentAgain⟩
  write := by
    intro moment first second address other value again store copy agrees located same extended
      extendedAgain
    obtain ⟨handed, handedAgain⟩ := agrees.sessions.handed located
    refine ⟨agrees.sessions, agrees.stored.extend handed same.2.1 extended,
      agrees.storedAgain.extend handedAgain same.2.2 extendedAgain, ?_, ?_⟩
    · intro found twin locatedTwin
      have iff := agrees.sessions.same_iff located locatedTwin
      by_cases here : found = address
      · rw [here, iff.mp here, Store.get_extend_self extended, Store.get_extend_self extendedAgain]
        exact same
      · rw [Store.get_extend_of_ne extended here,
          Store.get_extend_of_ne extendedAgain fun there => here (iff.mpr there)]
        exact agrees.read found twin locatedTwin
    · intro found contained
      obtain rfl | before := Store.contains_of_extend extendedAgain contained
      · exact ⟨address, located⟩
      · exact agrees.held found before
  report journal again agrees := agrees.move (.refl _)
    (agrees.sessions.report _ _ journal again) fun _ _ located => .inl located
  print text again _ agrees := agrees.move (.refl _)
    (agrees.sessions.report _ _ _ _) fun _ _ located => .inl located
  close := by
    intro moment session other store copy scope code agrees seen
    have sessions := agrees.sessions
    have passed : moment.Later { moment with
        first := { moment.first with identities := moment.first.identities + 1 }
        second := { moment.second with identities := moment.second.identities + 1 } } :=
      ⟨.identify _, .identify _, fun _ _ _ bound => bound, fun _ _ _ bound => bound⟩
    refine ⟨_, passed, agrees.move passed sessions.identify fun _ _ located => .inl located, ?_,
      ⟨?_, seen.1⟩, ?_, seen.2⟩
    · rw [sessions.identities]
      exact .function ⟨session.identities, code, scope⟩
    · rw [sessions.laid.identities]
      exact Nat.lt_succ_self _
    · rw [sessions.laidAgain.identities]
      exact Nat.lt_succ_self _
  resolve agrees home asked found := by
    obtain ⟨foundAgain, shared⟩ := agrees.sessions.resolves home asked found
    exact ⟨_, foundAgain, .inl ⟨rfl, shared⟩⟩
  unresolved strict := strict.elim
  missing _ := rfl
  nest := by
    intro moment session other store copy scope ofScope agrees seen
    have sessions := agrees.sessions
    have native := Layout.native_of_scope (seen.1 scope.inner List.mem_cons_self)
    have nativeAgain : moment.second.Native (replay.ties.frame scope.inner) :=
      Layout.native_of_scope (seen.2 _ List.mem_cons_self)
    have allocator : (if ofScope then session.allocatorOf scope.inner else Session.machineAllocator) =
        Session.machineAllocator := by
      rw [sessions.laid.own _ native, ite_self]
    have allocatorAgain : (if ofScope then other.allocatorOf (replay.ties.frame scope.inner) else
        Session.machineAllocator) = Session.machineAllocator := by
      rw [sessions.laidAgain.own _ nativeAgain, ite_self]
    refine ⟨sessions.size, ?_⟩
    rw [allocator, allocatorAgain]
    exact Replay.reaches_nest agrees seen
  declare key written agrees seen allowed := Replay.reaches_declare agrees written seen allowed
  create := by
    intro moment session other store copy scope proto again _ agrees home asked found foundAgain
    obtain ⟨same, -⟩ := agrees.sessions.resolves home asked found
    obtain rfl := Option.some.inj (same.symm.trans foundAgain)
    exact Replay.reaches_create agrees home asked found
  fill := by
    rintro moment session other store copy object again key written agrees ⟨⟨like, good, -⟩, added⟩ -
    cases like with
    | plain isPlain => cases isPlain
    | object proto properties =>
        exact Replay.reaches_declare_of_le written agrees added (Layout.native_of_object good)
  finish agrees built := ⟨_, .refl _, agrees, built.1⟩
  locate := by
    rintro moment session other store copy object again key written spares agrees ⟨like, good, -⟩ allowed
    cases like with
    | plain isPlain => cases isPlain
    | object proto properties => exact Replay.reaches_locate agrees written spares good allowed

theorem Ties.Abreast.agrees {ties : Ties} {world : ties.World} {session other : Session}
    {state again : State} (abreast : ties.Abreast world session other state again) :
    ties.Agrees world ⟨session, state.store⟩ ⟨other, again.store⟩ := by
  cases abreast <;> assumption

namespace Replay

/-- The moment at which the step begins. -/
def start (replay : Replay) : Moment :=
  ⟨replay.before, replay.after, replay.origin.slots, replay.resumed.slots⟩

variable {replay : Replay} {store : Store}

theorem address?_of_le {session : Session} {frame : Nat} (beyond : session.frames.size ≤ frame)
    (key : Key) : (session.slots frame).address? key = none := by
  cases held : (session.slots frame).address? key with
  | none => rfl
  | some address => exact absurd (Layout.lt_of_address? held) (Nat.not_lt.mpr beyond)

theorem lt_of_role {frame : Nat} {role : Role} (known : replay.before.roles[frame]? = some role) :
    frame < replay.origin.frames.size := by
  rw [← replay.laid.size]
  exact (List.getElem?_eq_some_iff.mp known).1

/-- The replay starts from matched sessions. -/
theorem sessions_start : replay.Sessions replay.start replay.origin replay.resumed where
  laid := replay.laid
  laidAgain := replay.laidAgain.restart
  later := .refl _
  laterAgain := .refl _
  grown := .refl _
  slots := rfl
  others := rfl
  size := shift_self.symm
  identities := shift_self.symm
  ahead frame _ key address := replay.grows.kept frame key address
  stays _ _ _ := rfl
  roles frame _ added known := absurd (lt_of_role known) (Nat.not_lt.mpr added)
  bound frame key added _ := address?_of_le (le_frame added) key
  fresh frame key address added _ held := by
    rw [address?_of_le added] at held
    cases held
  objects frame _ _ added known := absurd (lt_of_role known) (Nat.not_lt.mpr added)

theorem home_start {scope : Scope} (visible : replay.before.Visible scope) :
    replay.Home replay.start scope := by
  have early : ∀ frame ∈ scope.chain, frame < replay.origin.frames.size :=
    fun frame member => lt_of_role (visible frame member)
  refine ⟨⟨visible, ?_⟩, early⟩
  rw [scope_of_lt early]
  exact visible.later replay.later

theorem scope_of_visible {scope : Scope} (visible : replay.before.Visible scope) :
    replay.ties.toPairing.scope scope = scope := scope_of_lt (home_start visible).2

/-- A value of the time before the step stands for itself. -/
theorem same_start {value : Value} (good : replay.before.Good value) :
    replay.Same replay.start value value := by
  refine ⟨?_, good, good.later replay.later⟩
  cases value with
  | function closure =>
      have like := @Value.Like.function replay.pairing closure
      have identity : replay.pairing.identity closure.identity = closure.identity := by
        refine shift_of_lt ?_
        rw [replay.laid.identities]
        exact good.1
      rw [identity, scope_of_lt (home_start good.2).2] at like
      exact like
  | object object =>
      have like := @Value.Like.object replay.pairing object.proto object.properties
      have role : replay.before.roles[object.properties.inner]? =
        some (.object object.proto object.properties.outer) := good
      have below := (replay.laid.closed _ _ _ role).2
      have early : ∀ frame ∈ object.properties.chain, frame < replay.origin.frames.size := by
        refine List.forall_mem_cons.mpr ⟨lt_of_role role, fun frame member => ?_⟩
        exact Nat.lt_trans (below frame member) (lt_of_role role)
      rw [scope_of_lt early] at like
      exact like
  | builtin identity arity name routine =>
      have like := @Value.Like.builtin replay.pairing identity arity name routine good.1
      have same : replay.pairing.identity identity = identity := by
        refine shift_of_lt ?_
        rw [replay.laid.identities]
        exact good.2
      rw [same] at like
      exact like
  | _ => exact .plain good

/-- The replay starts in agreement. -/
theorem agrees_start (stored : Layout.Stores .empty replay.before store) :
    replay.Agrees replay.start ⟨replay.origin, store⟩ ⟨replay.resumed, store⟩ where
  sessions := sessions_start
  stored
  storedAgain := stored.later replay.later
  read := by
    rintro address other (⟨rfl, -⟩ | ⟨frame, key, added, -, -, bound, -⟩)
    · exact same_start (stored.good _)
    · have unbound := address?_of_le added key
      rw [show (replay.origin.slots frame).address? key = some address from bound] at unbound
      cases unbound
  held address contained := ⟨address, .inl ⟨rfl, .inl (stored.bound address contained).2⟩⟩

variable {since : Session} {kept : Store}

/-- The pending work awaits itself at the start. -/
theorem awaits_start {continuation : Continuation}
    (pends : (Account.layout since kept).Pends replay.before continuation) :
    replay.ties.Awaits replay.start continuation continuation := by
  induction continuation with
  | nil => exact .halt
  | cons pending rest ih =>
      obtain ⟨awaits, others⟩ := List.forall_mem_cons.mp pends
      have following := ih others
      cases pending with
      | call target resume scope =>
          obtain ⟨aims, visible⟩ := awaits
          have aimed : replay.ties.Aims replay.start target target := by
            cases target with
            | slot name => exact .slot name
            | location address => exact .location (.inl ⟨rfl, .inl aims⟩)
            | discard => exact .discard
          have waits := Ties.Awaits.call resume aimed (home_start visible).1 following
          rw [scope_of_visible visible] at waits
          exact waits
      | scope resume outer =>
          have visible : replay.before.Visible outer := awaits
          have waits := Ties.Awaits.scope resume (home_start visible).1 following
          rw [scope_of_visible visible] at waits
          exact waits
      | handler clause scope resume =>
          obtain ⟨_, _, _, _, visible⟩ := awaits
          have waits := Ties.Awaits.handler clause resume (home_start visible).1 following
          rw [scope_of_visible visible] at waits
          exact waits

/-- A state stands for itself when it is stepped again. -/
theorem abreast_start {state : State}
    (sound : (Account.layout since .empty).Sound replay.before state) :
    replay.ties.Abreast replay.start replay.origin replay.resumed state state := by
  cases state with
  | active node next scope store continuation =>
      obtain ⟨stored, visible, pends⟩ := sound
      have abreast := Ties.Abreast.active node next (agrees_start stored) (home_start visible).1
        (awaits_start pends)
      rw [scope_of_visible visible] at abreast
      exact abreast
  | halted scope store continuation =>
      obtain ⟨stored, visible, pends⟩ := sound
      have abreast := Ties.Abreast.halted (agrees_start stored) (home_start visible).1
        (awaits_start pends)
      rw [scope_of_visible visible] at abreast
      exact abreast
  | uncaught value store => exact .uncaught (agrees_start sound.1) (same_start sound.2)

end Replay

/-- What a step asks for is still as it was before the step. A name stands for the same address, and
objects that the step makes have no property by a name that others have been given since. -/
def Need.Kept (before after later : Session) (scope : Scope) : Need → Prop
  | .name asked => ∀ key ∈ asked.key.toOption, later.resolve? scope key = before.resolve? scope key
  | .create => True
  | .select => before.Spares after later

instance (before after later : Session) (scope : Scope) :
    (need : Need) → Decidable (need.Kept before after later scope)
  | .name asked => inferInstanceAs (Decidable (∀ key ∈ asked.key.toOption, _ = _))
  | .create => isTrue trivial
  | .select => inferInstanceAs (Decidable (before.Spares after later))

/-- All that the step of a state asks for is still as it was before the step. -/
def State.Undisturbed (before after later : Session) : State → Prop
  | .active node _ scope _ _ => ∀ need ∈ node.stepNeeds, need.Kept before after later scope
  | .halted .. | .uncaught .. => True

instance (before after later : Session) :
    (state : State) → Decidable (state.Undisturbed before after later)
  | .active node _ scope _ _ =>
      inferInstanceAs (Decidable (∀ need ∈ node.stepNeeds, need.Kept before after later scope))
  | .halted .. | .uncaught .. => isTrue trivial

namespace Sample

def declarator (declared : String) (value : Tree) : Tree :=
  node "VariableDeclarator" [("id", name declared), ("init", value)]

def member (holder key : String) : Tree :=
  node "MemberExpression" [("object", name holder), ("property", name key)]

/-- One statement that declares several names. -/
def declareAll (declared : List (String × Tree)) : Tree :=
  node "VariableDeclaration" [("kind", .text "let"),
    ("declarations", .list (declared.map fun entry => declarator entry.1 entry.2))]

/-- An object that is made in a block and asked for a property, and a further name. -/
def making : Tree := program [declare "x" (literal "one"),
  block [declareAll [("o", object [("k", name "x")]), ("y", member "o" "j")],
    declare "z" (literal "two")]]

/-- A block that uses a name and declares it afterwards. -/
def shadowing : Tree := program [declare "x" (literal "one"),
  block [declare "y" (name "x"), declare "x" (literal "two")]]

/-- One of two new objects is given a property that their prototype is given afterwards. -/
def giving : Tree :=
  let given := node "AssignmentExpression"
    [("operator", .text "="), ("left", member "o" "k"), ("right", literal "mine")]
  program [declare "g" (object []),
    declareAll [("o", object []), ("p", object []), ("r", given), ("y", member "p" "k")],
    declare "q" (member "g" "__proto__"), assign "q" "k" (literal "late")]

end Sample

namespace Machine

/-- A step of a state, from one session to another one, and the same step taken again. Frames and
identities that were there before the step stand for themselves. Both steps come to the same place with
the same work pending. What the store of the state binds, and what any frame of the run binds after the
step, has alike values after both. -/
structure Repeats (pairing : Pairing) (base before : Session) (state next : State) (after : Session)
    (again : State) (final : Session) : Prop where
  frames : ∀ frame < before.frames.size, pairing.frame frame = frame
  identities : ∀ identity < before.identities, pairing.identity identity = identity
  control : again.control = next.control
  labels : again.pendingLabels = next.pendingLabels
  scope : again.scope? = next.scope?.map pairing.scope
  stored : ∀ address, state.store.contains address = true →
    (next.store.get address).Like pairing (again.store.get address)
  bound : ∀ frame key address, base.frames.size ≤ frame →
    (after.slots frame).address? key = some address →
    ∃ other, (final.slots (pairing.frame frame)).address? key = some other ∧
      (next.store.get address).Like pairing (again.store.get other)

variable {machine : Machine} {program : Node} {base : Session} {held last : Exploration}
  {state next : State} {after : Session}

/-- A state that is held can be stepped again after any further steps, and the step comes to the same,
if what it asks for is still as it was. -/
theorem Explored.step_again (explored : machine.Explored program base held) (member : state ∈ held.states)
    (stepped : machine.step state held.session = .ok next after)
    (explores : machine.Explores ⟨next :: held.states, after⟩ last)
    (undisturbed : state.Undisturbed held.session after last.session) :
    ∃ pairing again final, machine.step state last.session = .ok again final ∧
      Repeats pairing base held.session state next after again final := by
  obtain ⟨layout, begun, laid, sound⟩ := explored.layout
  have onward : machine.Explores held last := (Explores.refl.step member stepped).trans explores
  obtain ⟨layoutAgain, later, laidAgain, -⟩ := (Regime.layout held.session .empty).explores onward
    laid.restart fun state member => sound state member
  let replay : Replay := ⟨held.session, after, last.session, layout, layoutAgain, laid.restart, laidAgain,
    later, Action.grows_of_ok stepped, explores.grows⟩
  have abreast : replay.ties.Abreast replay.start held.session last.session state state :=
    Replay.abreast_start (sound state member)
  have leads := (Correspondence.replay replay).leads_step rfl abreast ?grants (fun _ => .inl rfl)
    fun store copy agrees => (Correspondence.replay replay).makes_announce machine abreast agrees
  case grants =>
    rintro node next scope store continuation rfl
    have visible : replay.before.Visible scope := (sound _ member).2.1
    refine ⟨Replay.home_start visible, fun need needed => ?_⟩
    have kept := undisturbed need needed
    cases need with
    | name name =>
        intro key named address found
        have same := kept key (by rw [named]; rfl)
        exact List.exists_of_findSome?_eq_some (same.symm.trans found)
    | create => trivial
    | select => exact kept
  obtain ⟨again, final, steppedAgain, moment, passed, arrived⟩ :=
    (leads.of_ok stepped (Session.Grows.refl after)).exists_ok
  have agrees := arrived.agrees
  have sessions := agrees.sessions
  refine ⟨replay.pairing, again, final, steppedAgain, ?_⟩
  exact {
    frames := fun frame early => Replay.frame_of_lt early
    identities := fun identity early => Replay.shift_of_lt early
    control := by cases arrived <;> rfl
    labels := by
      cases arrived with
      | active node next agrees seen awaits | halted agrees seen awaits =>
          exact congrArg (· ++ ["HaltKont"]) ((Correspondence.replay replay).labels_of_awaits awaits)
      | uncaught => rfl
    scope := by cases arrived <;> rfl
    stored := by
      intro address contained
      have handed := ((Layout.stores_of_sound (sound state member)).bound address contained).2
      exact (agrees.read address address (.inl ⟨rfl, .inl handed⟩)).1
    bound := by
      intro frame key address created bound
      have native : moment.first.Native frame := by
        refine (begun.trans passed.first).native_of_created created ?_
        rw [sessions.laid.size]
        exact Layout.lt_of_address? bound
      by_cases early : frame < held.session.frames.size
      · have shared := sessions.shared_of_lt early native bound
        refine ⟨address, ?_, (agrees.read address address (.inl ⟨rfl, shared⟩)).1⟩
        rw [Replay.frame_of_lt early]
        exact sessions.resumed_of_shared early bound
      · obtain ⟨other, boundAgain, located⟩ :=
          sessions.located_of_le (Nat.not_lt.mp early) native bound
        exact ⟨other, boundAgain, (agrees.read address other located).1⟩ }

/-- A block makes an object and asks it for a property that it lacks. The step comes to the same after the
block has declared a further name. -/
theorem Explored.step_again_of_making :
    ∃ program counted held last state next after, Sample.making.read 0 = .ok program counted ∧
      Explored ⟨.default, none⟩ program (Session.start false) held ∧ state ∈ held.states ∧
      Machine.step ⟨.default, none⟩ state held.session = .ok next after ∧
      Explores ⟨.default, none⟩ ⟨next :: held.states, after⟩ last ∧
      (after.slots 2).address? (.text "z") = none ∧
      (last.session.slots 2).address? (.text "z") ≠ none ∧
      state.Undisturbed held.session after last.session ∧
      ∃ pairing again final, Machine.step ⟨.default, none⟩ state last.session = .ok again final ∧
        Repeats pairing (Session.start false) held.session state next after again final := by
  obtain ⟨program, counted, reads, -⟩ : ∃ program counted,
      Sample.making.read 0 = .ok program counted ∧ True := Ends.exists_ok (by decide +kernel)
  obtain ⟨progress, before, ran, goesOn⟩ : ∃ progress before,
      Machine.run ⟨.default, none⟩ 3 Sample.making (Session.start false) = .ok progress before ∧
        Ends (Machine.step ⟨.default, none⟩ progress.state) before (fun next after =>
          Ends (Machine.step ⟨.default, none⟩ next) after (fun _ later =>
            (after.slots 2).address? (.text "z") = none ∧ (later.slots 2).address? (.text "z") ≠ none ∧
              progress.state.Undisturbed before after later) fun _ _ => False) fun _ _ => False :=
    Ends.exists_ok (by decide +kernel)
  obtain ⟨states, member, explored⟩ := explored_of_run rfl reads ran
  obtain ⟨next, after, stepped, goesFurther⟩ := goesOn.exists_ok
  obtain ⟨further, later, steppedOn, unbound, bound, undisturbed⟩ := goesFurther.exists_ok
  have explores : Explores ⟨.default, none⟩ ⟨next :: states, after⟩ ⟨further :: next :: states, later⟩ :=
    Explores.refl.step List.mem_cons_self steppedOn
  exact ⟨program, counted, _, _, progress.state, next, after, reads, explored, member, stepped, explores,
    unbound, bound, undisturbed, explored.step_again member stepped explores undisturbed⟩

/-- A name that is declared in one step and again in another one, from the same session on, with values
that show differently. -/
def Differs (scope : Scope) (key : Key) (address : Address) (before : Session) (next : State)
    (after : Session) (again : State) (final : Session) : Prop :=
  next.scope? = some scope ∧ again.scope? = some scope ∧
    (before.slots scope.inner).address? key = none ∧
    after.resolve? scope key = some address ∧ final.resolve? scope key = some address ∧
    (again.store.get address).display? ≠ (next.store.get address).display?

instance (scope : Scope) (key : Key) (address : Address) (before : Session) (next : State)
    (after : Session) (again : State) (final : Session) :
    Decidable (Differs scope key address before next after again final) :=
  inferInstanceAs (Decidable (_ ∧ _ ∧ _ ∧ _ ∧ _ ∧ _))

/-- A name that a step declares comes to another value when the step is taken again. -/
def Strays (tree : Tree) : Prop :=
  ∃ program counted held last state next after again final,
    tree.read 0 = .ok program counted ∧ program.isWellFormed true = true ∧
    Explored ⟨.default, none⟩ program (Session.start false) held ∧ state ∈ held.states ∧
    Machine.step ⟨.default, none⟩ state held.session = .ok next after ∧
    Explores ⟨.default, none⟩ ⟨next :: held.states, after⟩ last ∧
    Machine.step ⟨.default, none⟩ state last.session = .ok again final ∧
    ∃ scope key address, Differs scope key address held.session next after again final

theorem strays_of_ends {tree : Tree} {steps more : Nat} {scope : Scope} {key : Key} {address : Address}
    (read : Ends tree.read 0 (fun program _ => program.isWellFormed true = true) fun _ _ => False)
    (ran : Ends (Machine.run ⟨.default, none⟩ steps tree) (Session.start false) (fun progress before =>
      Ends (Machine.step ⟨.default, none⟩ progress.state) before (fun next after =>
        Ends (Machine.advance ⟨.default, none⟩ more ⟨0, next⟩) after (fun _ later =>
          Ends (Machine.step ⟨.default, none⟩ progress.state) later
            (fun again final => Differs scope key address before next after again final)
            fun _ _ => False) fun _ _ => False) fun _ _ => False) fun _ _ => False) : Strays tree := by
  obtain ⟨program, counted, reads, formed⟩ := read.exists_ok
  obtain ⟨progress, before, ran, goesOn⟩ := ran.exists_ok
  obtain ⟨states, member, explored⟩ := explored_of_run rfl reads ran
  obtain ⟨next, after, stepped, goesFurther⟩ := goesOn.exists_ok
  obtain ⟨reached, later, advanced, returns⟩ := goesFurther.exists_ok
  obtain ⟨again, final, steppedAgain, differs⟩ := returns.exists_ok
  have starts : Explores ⟨.default, none⟩ ⟨next :: states, after⟩ ⟨next :: states, after⟩ := .refl
  obtain ⟨further, -, explores⟩ := explores_advance advanced starts List.mem_cons_self rfl
  exact ⟨program, counted, _, _, progress.state, next, after, again, final, reads, formed, explored,
    member, stepped, explores, steppedAgain, scope, key, address, differs⟩

/-- A name that is declared later in the same block hides the one that a step has looked up, and a
property that a prototype is given later is found instead of one that a new object would get. -/
theorem Explored.step_strays : Strays Sample.shadowing ∧ Strays Sample.giving :=
  ⟨@strays_of_ends _ 3 1 ⟨2, [0]⟩ (.text "y") 7 (by decide +kernel) (by decide +kernel),
    @strays_of_ends _ 2 2 ⟨0, []⟩ (.text "y") 12 (by decide +kernel) (by decide +kernel)⟩

end Machine

end ScriptMachine

/-
This file lets a run follow earlier ones in the same session. Main statement: a run that follows others
does as it would do in a session of its own, with its frames and identities behind those of the others.
-/

import ScriptMachine.Proofs.Beginning
import ScriptMachine.Proofs.Lockstep

namespace ScriptMachine

/-- Frames and identities come behind those that are there already. -/
def Pairing.behind (before : Session) : Pairing where
  frame index := before.frames.size + index
  identity index := before.identities + index
  frame_injective := Nat.add_left_cancel
  identity_injective := Nat.add_left_cancel

namespace Session

/-- A session as it would be behind another one. Addresses are counted anew. -/
def behind (before session : Session) : Session where
  frames := before.frames ++ session.frames
  allocators := session.allocators
  identities := before.identities + session.identities
  globals := session.globals.map (Pairing.behind before).scope
  output := before.output ++ session.output
  journal := session.journal
  verbose := session.verbose

section

variable (before session : Session) (frame allocator : Nat) (key : Key) (written : Tree)
  (address : Address)

/-- A session behind another has the frames of both. -/
theorem size_behind :
    (before.behind session).frames.size = (Pairing.behind before).frame session.frames.size :=
  Array.size_append

/-- Frames behind others bind what they bound. -/
theorem slots_behind :
    (before.behind session).slots ((Pairing.behind before).frame frame) = session.slots frame := by
  simp [slots, behind, Pairing.behind, Array.getElem?_append_right]

/-- Frames behind others keep their allocators. -/
theorem allocatorOf_behind :
    (before.behind session).allocatorOf ((Pairing.behind before).frame frame) =
      session.allocatorOf frame := by
  simp [allocatorOf, behind, Pairing.behind, Array.getElem?_append_right]

/-- Scopes behind others resolve what they resolved. -/
theorem resolve?_behind (scope : Scope) :
    (before.behind session).resolve? ((Pairing.behind before).scope scope) key =
      session.resolve? scope key := by
  unfold resolve?
  rw [Pairing.chain_scope, List.findSome?_map]
  congr 1
  funext frame
  exact congrArg (fun slots : Slots => slots.address? key) (before.slots_behind session frame)

/-- A frame may be added before or after others are put in front. -/
theorem addFrame_behind :
    (before.behind session).addFrame allocator = before.behind (session.addFrame allocator) := by
  simp [addFrame, behind]

/-- A binding may be made before or after. -/
theorem bind_behind :
    (before.behind session).bind ((Pairing.behind before).frame frame) key written address =
      before.behind (session.bind frame key written address) := by
  simp only [bind, behind, Session.mk.injEq, and_true]
  apply Array.ext_getElem?
  intro index
  simp only [Array.getElem?_modify, Array.getElem?_append, Pairing.behind]
  by_cases early : index < before.frames.size
  · have different : before.frames.size + frame ≠ index := by omega
    simp [early, different]
  · have same : before.frames.size + frame = index ↔ frame = index - before.frames.size := by omega
    simp [early, same]

/-- A declaration may be made before or after. -/
theorem declare_behind :
    (before.behind session).declare ((Pairing.behind before).frame frame) key written =
      ((session.declare frame key written).1, before.behind (session.declare frame key written).2) := by
  unfold declare
  rw [slots_behind, allocatorOf_behind]
  cases (session.slots frame).address? key with
  | some found => rfl
  | none =>
      have bound := before.bind_behind (session.advance (session.allocatorOf frame)) frame key written
      exact congrArg (Prod.mk _) (bound _)

/-- A property may be looked for before or after. -/
theorem locate_behind (scope : Scope) :
    (before.behind session).locate ((Pairing.behind before).scope scope) key written =
      ((session.locate scope key written).1, before.behind (session.locate scope key written).2) := by
  unfold locate
  rw [resolve?_behind]
  cases session.resolve? scope key with
  | some found => rfl
  | none => exact before.declare_behind session scope.inner key written

/-- An object may be added before or after. -/
theorem addObject_behind (proto : Address) :
    (before.behind session).addObject allocator proto =
      before.behind (session.addObject allocator proto) := by
  unfold addObject
  rw [size_behind, addFrame_behind, bind_behind]

/-- Text may be printed before or after. -/
theorem write_behind (text : String) :
    (before.behind session).write text = before.behind (session.write text) := by
  simp [write, behind, String.append_assoc]

end

end Session

/-- Two stores that bind the same addresses to values that are alike. -/
structure Store.Alike (pairing : Pairing) (store copy : Store) : Prop where
  bound : ∀ address, copy.contains address = store.contains address
  like : ∀ address, (store.get address).Like pairing (copy.get address)

namespace Store

variable {pairing : Pairing} {store copy : Store}

theorem alike_empty : Store.Alike pairing .empty .empty where
  bound _ := rfl
  like address := by
    unfold Store.get
    split <;> exact .plain rfl

/-- Values that are alike may be stored where there is no null. -/
theorem Alike.insert {address : Address} {value again : Value} (alike : store.Alike pairing copy)
    (notNull : address ≠ 0) (like : value.Like pairing again) :
    (store.insert address value).Alike pairing (copy.insert address again) where
  bound found := by
    have same : copy.bindings.contains found = store.bindings.contains found := alike.bound found
    simp [Store.contains, Store.insert, Std.TreeMap.contains_insert, same]
  like found := by
    have extended := @Store.extend_of_ne store address value notNull
    have extendedAgain := @Store.extend_of_ne copy address again notNull
    by_cases same : found = address
    · subst same
      rw [Store.get_extend_self extended, Store.get_extend_self extendedAgain]
      exact like
    · rw [Store.get_extend_of_ne extended same, Store.get_extend_of_ne extendedAgain same]
      exact alike.like found

/-- Stores that are alike stay so when they are written. -/
theorem Alike.extend {address : Address} {value again : Value} {next last : Store}
    (alike : store.Alike pairing copy) (like : value.Like pairing again)
    (extended : store.extend address value = .ok next)
    (extendedAgain : copy.extend address again = .ok last) : next.Alike pairing last := by
  by_cases null : address = 0
  · subst null
    cases extended
  · rw [Store.extend_of_ne null] at extended extendedAgain
    cases extended
    cases extendedAgain
    exact alike.insert null like

/-- Objects with prototypes that are alike have chains that are alike. -/
theorem Alike.prototypeChain (alike : store.Alike pairing copy) (proto : Address) :
    copy.prototypeChain proto = (store.prototypeChain proto).map pairing.frame := by
  have like := alike.like proto
  unfold Store.prototypeChain
  generalize store.get proto = held at like
  generalize copy.get proto = other at like
  cases like with
  | object proto properties => rfl
  | @plain value isPlain => cases held <;> simp_all [Value.isPlain]
  | function | builtin => rfl

end Store

/-- A session and a store of a run that follows others, next to those of the run on its own. They may
differ in what is kept for tracing. -/
structure Scratch.Follows (before : Session) (first second : Scratch) : Prop where
  session : second.session.bare = (before.behind first.session).bare
  store : first.store.Alike (.behind before) second.store

namespace Scratch.Follows

variable {before session other : Session} {store copy : Store}
  (follows : Scratch.Follows before ⟨session, store⟩ ⟨other, copy⟩)
include follows

/-- Whatever happens to the session, the stores stay as they are. -/
theorem change {after last : Session} (same : last.bare = (before.behind after).bare) :
    Scratch.Follows before ⟨after, store⟩ ⟨last, copy⟩ :=
  ⟨same, follows.store⟩

/-- The frames of the second session come behind those before it. -/
theorem frames : other.frames = before.frames ++ session.frames :=
  congrArg Session.frames follows.session

theorem identities : other.identities = before.identities + session.identities :=
  congrArg Session.identities follows.session

theorem allocatorOf (frame : Nat) :
    other.allocatorOf ((Pairing.behind before).frame frame) = session.allocatorOf frame := by
  rw [← before.allocatorOf_behind session]
  unfold Session.allocatorOf
  rw [follows.frames]
  rfl

/-- Both sessions resolve names alike. -/
theorem resolve? (scope : Scope) (key : Key) :
    other.resolve? ((Pairing.behind before).scope scope) key = session.resolve? scope key := by
  rw [← before.resolve?_behind session]
  unfold Session.resolve? Session.slots
  rw [follows.frames]
  rfl

/-- A frame that is added to both follows in both. -/
theorem addFrame (allocator : Nat) :
    Scratch.Follows before ⟨session.addFrame allocator, store⟩ ⟨other.addFrame allocator, copy⟩ := by
  apply follows.change
  rw [← Session.addFrame_behind]
  exact congrArg (fun held => Session.addFrame held allocator) follows.session

/-- An object that is added to both follows in both. -/
theorem addObject (allocator : Nat) (proto : Address) :
    Scratch.Follows before ⟨session.addObject allocator proto, store⟩
      ⟨other.addObject allocator proto, copy⟩ := by
  apply follows.change
  rw [← Session.addObject_behind]
  exact congrArg (fun held => Session.addObject held allocator proto) follows.session

/-- Both sessions declare a key at the same address. -/
theorem declare (frame : Nat) (key : Key) (written : Tree) :
    Scratch.Follows before ⟨(session.declare frame key written).2, store⟩
        ⟨(other.declare ((Pairing.behind before).frame frame) key written).2, copy⟩ ∧
      (other.declare ((Pairing.behind before).frame frame) key written).1 =
        (session.declare frame key written).1 := by
  have both := other.bare_declare ((Pairing.behind before).frame frame) key written
  rw [follows.session, Session.bare_declare, Session.declare_behind] at both
  exact ⟨follows.change (congrArg Prod.snd both).symm, (congrArg Prod.fst both).symm⟩

/-- A property is found at one address in both. -/
theorem locate (scope : Scope) (key : Key) (written : Tree) :
    Scratch.Follows before ⟨(session.locate scope key written).2, store⟩
        ⟨(other.locate ((Pairing.behind before).scope scope) key written).2, copy⟩ ∧
      (other.locate ((Pairing.behind before).scope scope) key written).1 =
        (session.locate scope key written).1 := by
  have both := other.bare_locate key written ((Pairing.behind before).scope scope)
  rw [follows.session, Session.bare_locate, Session.locate_behind] at both
  exact ⟨follows.change (congrArg Prod.snd both).symm, (congrArg Prod.fst both).symm⟩

end Scratch.Follows

/-- What is the same in a run that follows others. -/
def Ties.sequel (before : Session) : Ties where
  toPairing := .behind before
  Allowed _ := True
  strict := True
  Matches fault again := again = fault
  allowed_of_grows _ _ := trivial
  matches_refl _ := rfl
  naming := none
  World := Unit
  Later _ _ := True
  Agrees _ first second := first.Follows before second
  Same _ value other := value.Like (.behind before) other
  Located _ address other := other = address
  Seen _ _ := True
  Home _ _ := True
  Asked _ _ _ := True
  Built _ object other := other = ⟨object.proto, (Pairing.behind before).scope object.properties⟩
  creates := True
  selects := True
  shows := True

/-- Whatever a program does, it makes no difference what was done before. -/
def Correspondence.sequel (before : Session) : Correspondence where
  toTies := .sequel before
  later_refl _ := trivial
  later_trans _ _ := trivial
  same_later _ same := same
  located_later _ located := located
  seen_later _ _ := trivial
  home_later _ _ := trivial
  seen_of_home _ := trivial
  asked_later _ _ := trivial
  built_later _ built := built
  akin like := like.akin
  plain isPlain := .plain isPlain
  callable _ := trivial
  read := by
    rintro _ first second address _ follows rfl
    exact follows.store.like _
  null := by
    rintro _ address _ rfl
    rfl
  write := by
    rintro _ first second address _ value again store copy follows rfl like extended extendedAgain
    exact ⟨follows.session, follows.store.extend like extended extendedAgain⟩
  report _ _ follows := follows.change follows.session
  print := by
    intro _ session other store copy text again equal follows
    obtain rfl := equal trivial
    apply follows.change
    rw [← Session.write_behind]
    exact congrArg (fun held => Session.write held again) follows.session
  close := by
    intro _ session other store copy scope code follows _
    refine ⟨(), trivial, follows.change (congrArg Session.identify follows.session), ?_⟩
    rw [follows.identities]
    exact .function ⟨session.identities, code, scope⟩
  resolve := by
    intro _ first second scope key address follows _ _ found
    exact ⟨address, (follows.resolve? scope key).trans found, rfl⟩
  unresolved := by
    intro _ first second scope key _ follows _ _ missing
    exact (follows.resolve? scope key).trans missing
  missing _ := rfl
  nest := by
    intro _ session other store copy scope ofScope follows _
    have size : other.frames.size = before.frames.size + session.frames.size := by
      rw [follows.frames, Array.size_append]
    refine ⟨size, (), trivial, ?_, trivial⟩
    have allocator := follows.allocatorOf scope.inner
    cases ofScope with
    | true =>
        have added := follows.addFrame (session.allocatorOf scope.inner)
        simp only [if_true]
        rw [← allocator] at added ⊢
        exact added
    | false => exact follows.addFrame _
  declare := by
    intro _ session other store copy scope key written follows _ _
    obtain ⟨after, same⟩ := follows.declare scope.inner key written
    exact ⟨(), trivial, after, same, fun _ => trivial⟩
  create := by
    intro _ session other store copy scope proto again _ follows _ _ found foundAgain
    obtain rfl : again = proto := by
      have both := follows.resolve? scope (.text "%ObjectPrototype%")
      exact Option.some.inj (foundAgain.symm.trans (both.trans found))
    refine ⟨(), trivial, follows.addObject _ _, ?_⟩
    rw [follows.frames, Array.size_append, follows.store.prototypeChain]
    rfl
  fill := by
    rintro _ session other store copy object _ key written follows rfl _
    obtain ⟨after, same⟩ := follows.declare object.properties.inner key written
    exact ⟨(), trivial, after, same⟩
  finish := by
    rintro _ first second object _ follows rfl
    exact ⟨(), trivial, follows, .object object.proto object.properties⟩
  locate := by
    intro _ session other store copy object again key written _ follows like _
    cases like with
    | plain isPlain => cases isPlain
    | object proto properties =>
        obtain ⟨after, found⟩ := follows.locate properties key written
        exact ⟨(), trivial, after, found⟩

namespace Correspondence

variable {before : Session}

/-- Everything may be asked for. -/
theorem sequel_grants {world : (sequel before).World} (scope : Scope) (needs : List Need) :
    (sequel before).Grants world scope needs := by
  intro need _
  cases need with
  | name name => exact fun _ _ => trivial
  | create => trivial
  | select => trivial

end Correspondence

end ScriptMachine

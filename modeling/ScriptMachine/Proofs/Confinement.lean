/-
This file looks at what evaluating an expression leaves as it was. Main statement: an evaluation that
assigns nothing changes no scope and no value that was there before, whether it fails or not, and gives
the objects that were there nothing but properties without a value.
-/

import ScriptMachine.Proofs.Invariance
import ScriptMachine.Proofs.Member

namespace ScriptMachine

/-- Any name but that of the slot that an object keeps for its prototype. -/
def Name.isOrdinary (name : Name) : Bool :=
  match name.key with
  | .ok key => key ≠ Layout.protoKey
  | .error _ => true

mutual
/-- Evaluating the node meets no assignment, and no object literal that names its prototype. What the
functions do that it makes values of does not matter. -/
def Node.assignsNothing : Node → Bool
  | .assignment .. => false
  | .property _ key value => key.isOrdinary && value.assignsNothing
  | .expressionStatement _ part | .declarator _ _ part | .returnStatement _ part
  | .throwStatement _ part | .unary _ _ part | .ifStatement _ part _ _ | .whileStatement _ part _ =>
      part.assignsNothing
  | .declaration _ parts _ | .object _ parts => Node.allAssignNothing parts
  | .binary _ _ left right | .logical _ _ left right | .member _ left right _ =>
      left.assignsNothing && right.assignsNothing
  | .call _ callee arguments => callee.assignsNothing && Node.allAssignNothing arguments
  | _ => true

def Node.allAssignNothing : List Node → Bool
  | [] => true
  | node :: rest => node.assignsNothing && Node.allAssignNothing rest
end

theorem Node.allAssignNothing_iff {nodes : List Node} :
    Node.allAssignNothing nodes = true ↔ ∀ node ∈ nodes, node.assignsNothing = true := by
  induction nodes with
  | nil => simp [Node.allAssignNothing]
  | cons node rest ih => simp [Node.allAssignNothing, ih]

/-- The operands of what assigns nothing assign nothing. -/
theorem Node.assignsNothing_of_operand {node part : Node} (nothing : node.assignsNothing = true)
    (operand : part ∈ node.operands) : part.assignsNothing = true := by
  cases node with
  | declaration | object => exact Node.allAssignNothing_iff.mp nothing part operand
  | call place callee arguments =>
      rw [Node.assignsNothing, Bool.and_eq_true, Node.allAssignNothing_iff] at nothing
      rcases List.mem_cons.mp operand with rfl | argument
      · exact nothing.1
      · exact nothing.2 part argument
  | binary | logical | member =>
      rw [Node.assignsNothing, Bool.and_eq_true] at nothing
      rcases List.mem_cons.mp operand with rfl | last
      · exact nothing.1
      · obtain rfl := List.mem_singleton.mp last
        exact nothing.2
  | property place key value =>
      rw [Node.assignsNothing, Bool.and_eq_true] at nothing
      obtain rfl := List.mem_singleton.mp operand
      exact nothing.2
  | expressionStatement | declarator | returnStatement | throwStatement | unary | ifStatement
  | whileStatement =>
      obtain rfl := List.mem_singleton.mp operand
      exact nothing
  | assignment => cases nothing
  | _ => cases operand

/-- How far an evaluation has come: the layout of its frames, and the addresses of properties that it
only looked for, in objects that were there before. -/
structure Survey where
  layout : Layout
  loose : List Address

namespace Survey

/-- What is looked for later gets an address that was not handed out before. -/
structure Later (survey later : Survey) : Prop where
  layout : survey.layout.Later later.layout
  loose : ∀ address : Int, address ∈ later.loose →
    address ∈ survey.loose ∨ (survey.layout.allocated : Int) < address

/-- The frames that were there when the evaluation began have been given loose slots at most, and only
where they belong to objects that were stored. The slots of new objects are not loose. -/
structure Frames (since : Session) (kept : Store) (survey : Survey) (session : Session) : Prop where
  laid : Layout.Frames since survey.layout session
  grown : since.allocated Session.machineAllocator ≤ survey.layout.allocated
  loose : ∀ address : Int, address ∈ survey.loose →
    since.allocated Session.machineAllocator < address ∧ address ≤ survey.layout.allocated
  earlier : ∀ frame < since.frames.size, ∃ added, session.slots frame = since.slots frame ++ added ∧
    (∀ slot ∈ added, slot.address ∈ survey.loose) ∧
    (added = [] ∨ ∃ address object, kept.get address = .object object ∧ object.properties.inner = frame)
  added : ∀ frame, since.frames.size ≤ frame → ∀ key (address : Int), key ≠ Layout.protoKey →
    (session.slots frame).address? key = some address →
    since.allocated Session.machineAllocator < address ∧ address ≤ survey.layout.allocated ∧
      address ∉ survey.loose

/-- An object that is no newer than the evaluation was stored when it began. -/
structure Good (since : Session) (kept : Store) (survey : Survey) (value : Value) : Prop where
  laid : survey.layout.Good value
  known : ∀ object, value = .object object → since.frames.size ≤ object.properties.inner ∨
    ∃ address, kept.get address = .object object

/-- Stores have the values that were there, and none at a loose address. -/
structure Stores (since : Session) (kept : Store) (survey : Survey) (store : Store) : Prop where
  laid : Layout.Stores kept survey.layout store
  known : ∀ address, survey.Good since kept (store.get address)
  loose : ∀ address ∈ survey.loose, store.contains address = false
  values : ∀ address : Int, address ≤ since.allocated Session.machineAllocator →
    store.get address = kept.get address ∧ store.contains address = kept.contains address

/-- Addresses that were handed out during the evaluation, but not to a property that was only looked
for. -/
structure Writable (since : Session) (survey : Survey) (address : Int) : Prop where
  handed : survey.layout.Handed address
  fresh : since.allocated Session.machineAllocator < address
  fixed : address ∉ survey.loose

section

variable {since session : Session} {kept store : Store} {survey after : Survey}

theorem Later.refl (survey : Survey) : survey.Later survey :=
  ⟨.refl survey.layout, fun _ member => .inl member⟩

theorem Later.trans {last : Survey} (before : survey.Later after) (onward : after.Later last) :
    survey.Later last := by
  refine ⟨before.layout.trans onward.layout, fun address member => ?_⟩
  obtain early | fresh := onward.loose address member
  · exact before.loose address early
  · have grown := before.layout.allocated
    exact .inr (by omega)

/-- An address that was handed out before is not loose later unless it was so then. -/
theorem Later.not_mem (passed : survey.Later after) {address : Int}
    (handed : address ≤ survey.layout.allocated) (fixed : address ∉ survey.loose) :
    address ∉ after.loose := by
  intro member
  obtain early | fresh := passed.loose address member
  · exact fixed early
  · exact absurd handed (Int.not_le.mpr fresh)

variable {value : Value} {next : Session}

/-- A good value stays good. -/
theorem Good.later (passed : survey.Later after) (good : survey.Good since kept value) :
    after.Good since kept value :=
  ⟨good.laid.later passed.layout, good.known⟩

theorem Writable.later {address : Int} (passed : survey.Later after)
    (writable : survey.Writable since address) : after.Writable since address :=
  ⟨writable.handed.later passed.layout, writable.fresh, passed.not_mem writable.handed.2 writable.fixed⟩

theorem Stores.later (passed : survey.Later after) (stored : survey.Stores since kept store) :
    after.Stores since kept store where
  laid := stored.laid.later passed.layout
  known address := (stored.known address).later passed
  loose address member := by
    cases contained : store.contains address with
    | false => rfl
    | true =>
        have unbound : address ∉ survey.loose := by
          intro early
          rw [stored.loose address early] at contained
          cases contained
        exact absurd member (passed.not_mem (stored.laid.bound address contained).2.2 unbound)
  values := stored.values

variable {address : Address} {layout : Layout} {key : Key} {object : Object}

/-- A write to a writable address keeps the store confined. -/
theorem Stores.extend {next : Store} (stored : survey.Stores since kept store)
    (writable : survey.Writable since address) (good : survey.Good since kept value)
    (extended : store.extend address value = .ok next) :
    survey.Stores since kept next where
  laid := stored.laid.extend writable.handed good.laid extended
  known other := by
    rw [Store.get_extend extended]
    split
    · exact good
    · exact stored.known other
  loose other member := by
    rw [Store.contains_extend_of_ne extended fun same => writable.fixed (same ▸ member)]
    exact stored.loose other member
  values other early := by
    have different : other ≠ address := by
      rintro rfl
      exact absurd early (Int.not_le.mpr writable.fresh)
    rw [Store.get_extend_of_ne extended different, Store.contains_extend_of_ne extended different]
    exact stored.values other early

/-- Nothing is loose when an evaluation begins. -/
theorem Frames.start (laid : Layout.Frames since layout since) :
    Frames since kept ⟨layout, []⟩ since where
  laid := laid
  grown := Nat.le_of_eq laid.allocated
  loose _ member := absurd member List.not_mem_nil
  earlier _ _ :=
    ⟨[], (List.append_nil _).symm, fun _ member => absurd member List.not_mem_nil, .inl rfl⟩
  added frame new key address ordinary bound := by
    rw [Session.slots_of_not_lt (Nat.not_lt.mpr new)] at bound
    cases bound

/-- The kept store is confined at the start. -/
theorem Stores.start (stored : Layout.Stores kept layout kept) :
    Stores since kept ⟨layout, []⟩ kept where
  laid := stored
  known address := ⟨stored.good address, fun _ same => .inr ⟨address, same⟩⟩
  loose _ member := absurd member List.not_mem_nil
  values _ _ := ⟨rfl, rfl⟩

/-- What changes no frame that was there before, and binds fresh addresses elsewhere, keeps the survey. -/
theorem Frames.keep (frames : survey.Frames since kept session) (passed : survey.layout.Later layout)
    (laid : Layout.Frames since layout next)
    (same : ∀ frame < since.frames.size, next.slots frame = session.slots frame)
    (fresh : ∀ frame key (address : Int), key ≠ Layout.protoKey →
      (next.slots frame).address? key = some address →
      (session.slots frame).address? key = some address ∨
        survey.layout.allocated < address ∧ address ≤ layout.allocated) :
    Frames since kept ⟨layout, survey.loose⟩ next where
  laid := laid
  grown := Nat.le_trans frames.grown passed.allocated
  loose address member := by
    obtain ⟨lower, upper⟩ := frames.loose address member
    exact ⟨lower, Int.le_trans upper (Int.ofNat_le.mpr passed.allocated)⟩
  earlier frame early := by
    rw [same frame early]
    exact frames.earlier frame early
  added frame new key address ordinary bound := by
    obtain before | ⟨lower, upper⟩ := fresh frame key address ordinary bound
    · obtain ⟨late, handed, fixed⟩ := frames.added frame new key address ordinary before
      exact ⟨late, Int.le_trans handed (Int.ofNat_le.mpr passed.allocated), fixed⟩
    · refine ⟨Int.lt_of_le_of_lt (Int.ofNat_le.mpr frames.grown) lower, upper, fun member => ?_⟩
      exact absurd (frames.loose address member).2 (Int.not_le.mpr lower)

theorem later_of_layout (passed : survey.layout.Later layout) : survey.Later ⟨layout, survey.loose⟩ :=
  ⟨passed, fun _ member => .inl member⟩

theorem Frames.identify (frames : survey.Frames since kept session) :
    Frames since kept ⟨{ survey.layout with identities := survey.layout.identities + 1 }, survey.loose⟩
      session.identify :=
  frames.keep (.identify survey.layout) frames.laid.identify (fun _ _ => rfl)
    fun _ _ _ _ bound => .inl bound

/-- A new object gets a frame of its own. -/
theorem Frames.reaches_addObject {proto : Address} (frames : survey.Frames since kept session)
    (stored : survey.Stores since kept store) (visible : survey.layout.Visible scope)
    (found : session.resolve? scope Layout.intrinsicKey = some proto) :
    ∃ later, survey.Later later ∧
      later.Frames since kept (session.addObject Session.machineAllocator proto) ∧
      later.layout.Good (.object ⟨proto, ⟨session.frames.size, store.prototypeChain proto⟩⟩) := by
  obtain ⟨layout, passed, laid, -, good, -⟩ :=
    Layout.reaches_addObject frames.laid stored.laid visible found
  refine ⟨_, later_of_layout passed, frames.keep passed laid ?_ ?_, good⟩
  · intro frame early
    exact session.slots_addObject_of_ne _ _ (Nat.ne_of_lt (Nat.lt_of_lt_of_le early frames.laid.sinceSize))
  · intro frame key address ordinary bound
    by_cases last : frame = session.frames.size
    · rw [last, session.slots_addObject_self, Slots.address?] at bound
      split at bound
      · exact absurd ‹_› (Ne.symm ordinary)
      · cases bound
    · rw [session.slots_addObject_of_ne _ _ last] at bound
      exact .inl bound

/-- A frame that was not there before binds a name. -/
theorem Frames.reaches_declare {frame : Nat} (written : Tree) (frames : survey.Frames since kept session)
    (native : survey.layout.Native frame) (new : since.frames.size ≤ frame) :
    ∃ later, survey.Later later ∧ later.Frames since kept (session.declare frame key written).2 ∧
      later.layout.Handed (session.declare frame key written).1 ∧
      (key ≠ Layout.protoKey → later.Writable since (session.declare frame key written).1) := by
  obtain ⟨layout, passed, laid, -, handed⟩ := @Layout.reaches_declare since session kept survey.layout
    frame key written frames.laid native fun _ _ _ _ early => absurd early (Nat.not_lt.mpr new)
  have inside : frame < session.frames.size := by
    rw [← frames.laid.size]
    exact native.lt
  have self := @Session.address?_declare_self key written session frame inside
  have kept : Frames since kept ⟨layout, survey.loose⟩ (session.declare frame key written).2 := by
    refine frames.keep passed laid ?_ ?_
    · intro other early
      exact session.slots_declare_of_ne _ _ (Nat.ne_of_lt (Nat.lt_of_lt_of_le early new))
    · intro other found address _ bound
      by_cases same : other = frame ∧ found = key
      · obtain ⟨rfl, rfl⟩ := same
        cases self.symm.trans bound
        cases missing : (session.slots other).address? found with
        | some address =>
            rw [Session.declare_of_bound missing]
            exact .inl rfl
        | none => exact .inr ⟨frames.laid.lt_declare written native missing, handed.2⟩
      · rw [session.address?_declare_of_ne _ (Decidable.not_and_iff_or_not.mp same)] at bound
        exact .inl bound
  refine ⟨_, later_of_layout passed, kept, handed, fun ordinary => ?_⟩
  obtain ⟨fresh, -, fixed⟩ := kept.added frame new key _ ordinary self
  exact ⟨handed, fresh, fixed⟩

/-- An object that was stored before may be given a slot with the next address. The slot is loose then. -/
theorem Frames.loosen {slot : Slot} (frames : survey.Frames since kept session)
    (laid : Layout.Frames since { survey.layout with allocated := survey.layout.allocated + 1 } next)
    (stored : kept.get address = .object object) (early : object.properties.inner < since.frames.size)
    (fresh : slot.address = ((survey.layout.allocated + 1 : Nat) : Int))
    (appended : next.slots object.properties.inner = session.slots object.properties.inner ++ [slot])
    (elsewhere : ∀ {frame}, frame ≠ object.properties.inner → next.slots frame = session.slots frame) :
    Frames since kept
      ⟨{ survey.layout with allocated := survey.layout.allocated + 1 }, slot.address :: survey.loose⟩
      next where
  laid := laid
  grown := Nat.le_succ_of_le frames.grown
  loose other member := by
    have grown := frames.grown
    dsimp only
    rcases List.mem_cons.mp member with rfl | before
    · rw [fresh]
      omega
    · have between := frames.loose other before
      omega
  earlier frame there := by
    obtain ⟨added, slots, loose, origin⟩ := frames.earlier frame there
    by_cases same : frame = object.properties.inner
    · subst same
      refine ⟨added ++ [slot], ?_, ?_, .inr ⟨address, object, stored, rfl⟩⟩
      · rw [appended, slots, List.append_assoc]
      · intro other member
        rcases List.mem_append.mp member with before | last
        · exact List.mem_cons_of_mem _ (loose other before)
        · rw [List.mem_singleton.mp last]
          exact List.mem_cons_self
    · rw [elsewhere same]
      exact ⟨added, slots, fun other member => List.mem_cons_of_mem _ (loose other member), origin⟩
  added frame new key held ordinary bound := by
    -- Objects that were made since then have other slots, all with lower addresses than the new one.
    rw [elsewhere (Nat.ne_of_gt (Nat.lt_of_lt_of_le early new))] at bound
    obtain ⟨late, handed, fixed⟩ := frames.added frame new key held ordinary bound
    dsimp only
    refine ⟨late, by omega, fun member => ?_⟩
    rcases List.mem_cons.mp member with rfl | before
    · rw [fresh] at handed
      omega
    · exact fixed before

/-- A property that neither an object nor its prototypes have is given a slot by looking for it. -/
theorem Frames.reaches_loose (written : Tree) (frames : survey.Frames since kept session)
    (good : survey.layout.Good (.object object)) (stored : kept.get address = .object object)
    (early : object.properties.inner < since.frames.size)
    (missing : session.resolve? object.properties key = none) :
    ∃ later, survey.Later later ∧
      later.Frames since kept (session.declare object.properties.inner key written).2 ∧
      later.layout.Handed (session.declare object.properties.inner key written).1 := by
  have native : survey.layout.Native object.properties.inner := Layout.native_of_object good
  have absent := List.findSome?_eq_none_iff.mp missing
  have unbound := absent object.properties.inner List.mem_cons_self
  have inside := Nat.lt_of_lt_of_le early frames.laid.sinceSize
  have laid := frames.laid.declare written native unbound fun proto outer role _ other member => by
    cases good.symm.trans role
    exact absent other (List.mem_cons_of_mem _ member)
  have next := session.declare_of_unbound written unbound (frames.laid.own _ native) frames.laid.available
  rw [frames.laid.allocated] at next
  refine ⟨_, ⟨.advance survey.layout, ?_⟩, frames.loosen laid stored early next
    (Session.slots_declare_of_missing written inside unbound) (session.slots_declare_of_ne _ _), ?_⟩
  · intro other member
    rcases List.mem_cons.mp member with rfl | before
    · exact .inr (frames.laid.lt_declare written native unbound)
    · exact .inl before
  · rw [next]
    exact ⟨Int.natCast_nonneg _, Int.le_refl _⟩

/-- Locating a property keeps the frames confined. -/
theorem Frames.reaches_locate (written : Tree) (frames : survey.Frames since kept session)
    (good : survey.Good since kept (.object object)) :
    ∃ later, survey.Later later ∧
      later.Frames since kept (session.locate object.properties key written).2 ∧
      later.layout.Handed (session.locate object.properties key written).1 := by
  unfold Session.locate
  cases found : session.resolve? object.properties key with
  | some address =>
      exact ⟨survey, .refl survey, frames, frames.laid.handed_of_findSome
        (frames.laid.native_of_chained good.laid.chained) found⟩
  | none =>
      by_cases new : since.frames.size ≤ object.properties.inner
      · obtain ⟨later, passed, held, handed, -⟩ :=
          frames.reaches_declare written (Layout.native_of_object good.laid) new
        exact ⟨later, passed, held, handed⟩
      · obtain ⟨address, stored⟩ := (good.known object rfl).resolve_left new
        exact frames.reaches_loose written good.laid stored (Nat.not_le.mp new) found

end

end Survey

/-- What is said while an expression is evaluated that assigns nothing. No address that was there before
may be written, and control does not move. -/
def Account.survey (since : Session) (kept : Store) : Account where
  World := Survey
  Later := Survey.Later
  Frames := Survey.Frames since kept
  Stores := Survey.Stores since kept
  Good := Survey.Good since kept
  Readable survey address := survey.layout.Handed address
  Writable := Survey.Writable since
  Sees survey scope node := survey.layout.Visible scope ∧ node.assignsNothing = true
  Stands _ _ _ := False
  Binds _ _ _ := False
  Building survey object :=
    survey.layout.Good (.object object) ∧ since.frames.size ≤ object.properties.inner
  Assigned _ := False
  Rebinds := False

/-- Evaluation that assigns nothing leaves what was there before as it was. -/
def Inquiry.survey (since : Session) (kept : Store) : Inquiry where
  toAccount := .survey since kept
  later_refl := Survey.Later.refl
  later_trans := Survey.Later.trans
  stores_later passed stored := stored.later passed
  good_later passed good := good.later passed
  readable_later passed handed := handed.later passed.layout
  writable_later passed writable := writable.later passed
  sees_later passed sees := ⟨sees.1.later passed.layout, sees.2⟩
  building_later passed building := ⟨building.1.later passed.layout, building.2⟩
  plain isPlain := by
    refine ⟨Layout.good_of_isPlain isPlain, ?_⟩
    rintro object rfl
    cases isPlain
  direct bad := nomatch bad.laid
  read stored _ := stored.known _
  write stored writable good extended := stored.extend writable good extended
  report output journal frames :=
    frames.keep (.refl _) (frames.laid.report output journal) (fun _ _ => rfl)
      fun _ _ _ _ bound => .inl bound
  sees_operand sees operand := ⟨sees.1, Node.assignsNothing_of_operand sees.2 operand⟩
  assigned sees := nomatch sees.2
  close := by
    intro survey session scope node code frames sees _
    have passed := Layout.Later.identify survey.layout
    refine ⟨_, Survey.later_of_layout passed, frames.identify, ⟨?_, sees.1.later passed⟩, ?_⟩
    · rw [frames.laid.identities]
      exact Nat.lt_succ_self _
    · rintro object ⟨⟩
  resolve frames sees _ found := ⟨frames.laid.handed_of_visible sees.1 found, False.elim⟩
  create := by
    intro survey session store scope place properties proto frames stored sees found
    obtain ⟨later, passed, held, good⟩ := frames.reaches_addObject stored sees.1 found
    exact ⟨later, passed, held, good, frames.laid.sinceSize⟩
  fill := by
    intro survey session scope object place key name value written frames building sees named
    obtain ⟨later, passed, held, -, writable⟩ :=
      @Survey.Frames.reaches_declare since session kept survey key _ written frames
        (Layout.native_of_object building.1) building.2
    refine ⟨later, passed, held, writable ?_⟩
    have ordinary : name.isOrdinary = true := (Bool.and_eq_true_iff.mp sees.2).1
    simpa [Name.isOrdinary, named] using ordinary
  finish building := by
    refine ⟨building.1, ?_⟩
    rintro object ⟨⟩
    exact .inl building.2
  locate := by
    intro survey session object key written frames good
    obtain ⟨later, passed, held, handed⟩ := frames.reaches_locate written good
    exact ⟨later, passed, held, handed, False.elim⟩

/-- The scopes that a state goes on in, now or later, and those of the functions in its store. -/
def State.Uses (state : State) (scope : Scope) : Prop :=
  scope ∈ state.scopes ∨ ∃ address closure, state.store.get address = .function closure ∧
    closure.scope = scope

variable {account : Account} {scope : Scope} {state : State} {world : account.World}

/-- Every awaited scope stands under some control. -/
theorem Account.exists_awaits {continuation : Continuation} (pends : account.Pends world continuation)
    (home : scope ∈ continuation.map Pending.home) : ∃ control, account.Stands world control scope := by
  obtain ⟨pending, member, rfl⟩ := List.mem_map.mp home
  have awaits := pends pending member
  cases pending with
  | call target resume outer => exact ⟨resume, awaits.2⟩
  | scope resume outer => exact ⟨resume, awaits⟩
  | handler clause outer resume =>
      obtain ⟨_, _, _, _, stands⟩ := awaits
      exact ⟨_, stands⟩

theorem Account.stores_of_sound (sound : account.Sound world state) : account.Stores world state.store := by
  cases state <;> exact sound.1

/-- In every scope that a state goes on in, control stands or will stand somewhere. -/
theorem Account.exists_stands (sound : account.Sound world state) (goesOn : scope ∈ state.scopes) :
    ∃ control, account.Stands world control scope := by
  cases state with
  | active node next inner store continuation =>
      rcases List.mem_cons.mp goesOn with rfl | later
      · exact ⟨_, sound.2.1⟩
      · exact exists_awaits sound.2.2 later
  | halted inner store continuation =>
      rcases List.mem_cons.mp goesOn with rfl | later
      · exact ⟨_, sound.2.1⟩
      · exact exists_awaits sound.2.2 later
  | uncaught value store => cases goesOn

theorem Layout.visible_of_uses {since : Session} {kept : Store} {layout : Layout}
    (sound : (Account.layout since kept).Sound layout state) (uses : state.Uses scope) :
    layout.Visible scope := by
  rcases uses with goesOn | ⟨address, closure, stored, rfl⟩
  · obtain ⟨_, visible⟩ := Account.exists_stands sound goesOn
    exact visible
  · have good := (stores_of_sound sound).good address
    rw [stored] at good
    exact good.2

/-- What an evaluation in a given store leaves as it was. Scopes do not change, and neither do frames
other than those of objects in the store. A frame keeps its slots in front of those that it is given, and
these have addresses that are new and have no value. Addresses that were handed out before keep their
values, and every object of a state that is held reads as before. -/
structure Exploration.Spares (held : Exploration) (store : Store) (after : Scratch) : Prop where
  scopes : ∀ state ∈ held.states, ∀ scope, state.Uses scope → ∀ frame ∈ scope.chain,
    after.session.slots frame = held.session.slots frame
  frames : ∀ frame < held.session.frames.size,
    after.session.slots frame ≠ held.session.slots frame →
      ∃ address object, store.get address = .object object ∧ object.properties.inner = frame
  properties : ∀ frame < held.session.frames.size, ∃ added,
    after.session.slots frame = held.session.slots frame ++ added ∧ ∀ slot ∈ added,
      (held.session.allocated Session.machineAllocator : Int) < slot.address ∧
      slot.address ≤ (after.session.allocated Session.machineAllocator : Int) ∧
      after.store.contains slot.address = false
  values : ∀ address ≤ (held.session.allocated Session.machineAllocator : Int),
    after.store.get address = store.get address ∧
      after.store.contains address = store.contains address
  reads : ∀ state ∈ held.states, ∀ address object, state.store.get address = .object object →
    ∀ key, ∃ value looked lookedAfter,
      object.fetch key ⟨held.session, store⟩ = .ok value looked ∧
      object.fetch key after = .ok value lookedAfter

namespace Survey

variable {since session : Session} {kept store : Store} {layout : Layout} {survey : Survey}

/-- An object reads the same value after an evaluation. A property that it does not have is undefined,
and stays so if it is given an address in between. -/
theorem get_located {object : Object} (laid : Layout.Frames since layout since)
    (stored : Layout.Stores kept layout kept) (passed : layout.Later survey.layout)
    (frames : survey.Frames since kept session) (storedAfter : survey.Stores since kept store)
    (grows : since.Grows session) (good : layout.Good (.object object)) (key : String) :
    store.get (session.located object key).1 = kept.get (since.located object key).1 := by
  have inside : ∀ frame ∈ object.properties.chain, frame < since.frames.size := by
    intro frame member
    rw [← laid.size]
    exact (laid.native_of_chained good.chained frame member).lt
  have goodAfter := good.later passed
  cases before : since.resolve? object.properties (.text key) with
  | some address =>
      have handed := (laid.handed_of_findSome (laid.native_of_chained good.chained) before).2
      rw [← laid.allocated] at handed
      have after := frames.laid.resolves (.refl since) grows goodAfter.chained inside handed before
      rw [Session.located_of_found before, Session.located_of_found after]
      exact (storedAfter.values address handed).1
  | none =>
      rw [laid.located_of_missing good before, stored.get_of_fresh (by omega)]
      cases after : session.resolve? object.properties (.text key) with
      | none =>
          rw [frames.laid.located_of_missing goodAfter after]
          exact storedAfter.laid.get_of_fresh (by omega)
      | some address =>
          rw [Session.located_of_found after]
          -- the property was looked for in between, so that its address is loose
          obtain ⟨frame, member, bound⟩ := List.exists_of_findSome?_eq_some after
          obtain ⟨added, slots, loose, -⟩ := frames.earlier frame (inside frame member)
          rw [slots, Slots.address?_append_of_missing
            (List.findSome?_eq_none_iff.mp before frame member)] at bound
          obtain ⟨slot, among, -, rfl⟩ := Slots.exists_of_address? bound
          have late := (frames.loose slot.address (loose slot among)).1
          exact Store.get_of_unbound (Int.ne_of_gt (Int.lt_of_le_of_lt (Int.natCast_nonneg _) late))
            (storedAfter.loose slot.address (loose slot among))

/-- What is known of an evaluation when it has come to its end, or failed. -/
theorem spares {held : Exploration} {after : Scratch}
    (laid : Layout.Frames held.session layout held.session)
    (sound : ∀ state ∈ held.states, (Account.layout since kept).Sound layout state)
    (stored : Layout.Stores store layout store) (passed : layout.Later survey.layout)
    (frames : survey.Frames held.session store after.session)
    (storedAfter : survey.Stores held.session store after.store)
    (grows : held.session.Grows after.session) : held.Spares store after where
  scopes state member scope uses frame among := by
    have role := Layout.visible_of_uses (sound state member) uses frame among
    have early : frame < held.session.frames.size := by
      rw [← laid.size]
      exact (Layout.native_of_scope role).lt
    obtain ⟨added, slots, -, rfl | ⟨address, object, there, rfl⟩⟩ := frames.earlier frame early
    · rw [slots, List.append_nil]
    · -- the frame of an object is no part of a scope
      have good : layout.Good (.object object) := there ▸ stored.good address
      cases good.symm.trans role
  frames frame early changed := by
    obtain ⟨added, slots, -, rfl | object⟩ := frames.earlier frame early
    · exact absurd (slots.trans (List.append_nil _)) changed
    · exact object
  properties frame early := by
    obtain ⟨added, slots, loose, -⟩ := frames.earlier frame early
    refine ⟨added, slots, fun slot member => ?_⟩
    obtain ⟨lower, upper⟩ := frames.loose slot.address (loose slot member)
    rw [← frames.laid.allocated] at upper
    exact ⟨lower, upper, storedAfter.loose slot.address (loose slot member)⟩
  values := storedAfter.values
  reads state member address object there key := by
    have good : layout.Good (.object object) :=
      there ▸ (Layout.stores_of_sound (sound state member)).good address
    have again := object.fetch_eq key after.session after.store
    rw [get_located laid stored passed frames storedAfter grows good key] at again
    exact ⟨_, _, _, object.fetch_eq key _ _, again⟩

end Survey

/-- An object literal that asks an object for a property, and then a variable for its value. -/
def Sample.wish (other : String) : Tree := object
  [("a", node "MemberExpression" [("object", name "o"), ("property", name "k")]), ("b", name other)]

namespace Machine

variable {machine : Machine} {program : Node} {base : Session} {held : Exploration} {state : State}

/-- Evaluating an expression that assigns nothing leaves what was there as it was, whether it fails or
not. -/
theorem Explored.evaluate_spares (explored : machine.Explored program base held)
    (member : state ∈ held.states) {scope : Scope} (uses : state.Uses scope) {node : Node}
    (nothing : node.assignsNothing = true) (inverted : Bool) :
    Ends (node.evaluate inverted scope) ⟨held.session, state.store⟩
      (fun _ after => held.Spares state.store after) fun _ after => held.Spares state.store after := by
  obtain ⟨layout, -, begun, sound⟩ := explored.layout
  have laid := begun.restart
  have stored := (Layout.stores_of_sound (sound state member)).restart
  have keeps := @Inquiry.evaluate (.survey held.session state.store) inverted scope node ⟨layout, []⟩
    ⟨held.session, state.store⟩ ⟨.start laid, .start stored⟩
    ⟨Layout.visible_of_uses (sound state member) uses, nothing⟩
  have grows := (node.expands_evaluate inverted scope).ends ⟨held.session, state.store⟩
  refine Ends.intro (fun operand after ended => ?_) fun fault after ended => ?_
  · obtain ⟨survey, passed, frames, storedAfter, -⟩ := keeps.of_ok ended
    exact Survey.spares laid sound stored passed.layout frames storedAfter (grows.of_ok ended)
  · obtain ⟨survey, passed, frames, storedAfter⟩ := keeps.of_error ended
    exact Survey.spares laid sound stored passed.layout frames storedAfter (grows.of_error ended)

/-- A literal that asks an object for a property that it does not have leaves the object with a slot for
it, and does so as well if it fails afterwards. -/
theorem Explored.evaluate_spares_of_wish :
    ∃ program counted held state scope, Sample.twins.read 0 = .ok program counted ∧
      Explored ⟨.default, none⟩ program (Session.start false) held ∧ state ∈ held.states ∧
      state.Uses scope ∧
      (∃ node last operand after, (Sample.wish "p").read 0 = .ok node last ∧
        node.evaluate false scope ⟨held.session, state.store⟩ = .ok operand after ∧
        (after.session.slots 2).length = (held.session.slots 2).length + 1 ∧
        held.Spares state.store after) ∧
      ∃ node last fault after, (Sample.wish "q").read 0 = .ok node last ∧
        node.evaluate false scope ⟨held.session, state.store⟩ = .error fault after ∧
        (after.session.slots 2).length = (held.session.slots 2).length + 1 ∧
        held.Spares state.store after := by
  obtain ⟨program, counted, reads, -⟩ : ∃ program counted,
      Sample.twins.read 0 = .ok program counted ∧ True := Ends.exists_ok (by decide +kernel)
  obtain ⟨granted, last, readsGranted, nothing⟩ : ∃ node last,
      (Sample.wish "p").read 0 = .ok node last ∧ node.assignsNothing = true :=
    Ends.exists_ok (by decide +kernel)
  obtain ⟨refused, lastAgain, readsRefused, nothingAgain⟩ : ∃ node last,
      (Sample.wish "q").read 0 = .ok node last ∧ node.assignsNothing = true :=
    Ends.exists_ok (by decide +kernel)
  obtain ⟨progress, session, ran, scopes, grants, refuses⟩ : ∃ progress session,
      Machine.run ⟨.default, none⟩ 3 Sample.twins (Session.start false) = .ok progress session ∧
        progress.state.scopes = [⟨0, []⟩] ∧
        Ends (Sample.wish "p").read 0 (fun node _ =>
          Ends (node.evaluate false ⟨0, []⟩) ⟨session, progress.state.store⟩
            (fun _ after => (after.session.slots 2).length = (session.slots 2).length + 1)
            fun _ _ => False) (fun _ _ => False) ∧
        Ends (Sample.wish "q").read 0 (fun node _ =>
          Ends (node.evaluate false ⟨0, []⟩) ⟨session, progress.state.store⟩ (fun _ _ => False)
            fun _ after => (after.session.slots 2).length = (session.slots 2).length + 1)
          fun _ _ => False := Ends.exists_ok (by decide +kernel)
  obtain ⟨states, member, explored⟩ := explored_of_run rfl reads ran
  have uses : progress.state.Uses ⟨0, []⟩ := .inl (by simp [scopes])
  obtain ⟨operand, after, evaluated, longer⟩ := (grants.of_ok readsGranted).exists_ok
  refine ⟨program, counted, _, progress.state, _, reads, explored, member, uses,
    ⟨granted, last, operand, after, readsGranted, evaluated, longer,
      (explored.evaluate_spares member uses nothing false).of_ok evaluated⟩, ?_⟩
  have fails := refuses.of_ok readsRefused
  cases evaluatedAgain : refused.evaluate false ⟨0, []⟩ ⟨session, progress.state.store⟩ with
  | ok operand after => exact absurd (fails.of_ok evaluatedAgain) id
  | error fault after =>
      exact ⟨refused, lastAgain, fault, after, readsRefused, evaluatedAgain,
        fails.of_error evaluatedAgain,
        (explored.evaluate_spares member uses nothingAgain false).of_error evaluatedAgain⟩

end Machine

end ScriptMachine

/-
This file says how addresses are used. Main statement: in every run of any program, addresses that are
in use have been handed out, no two slots share one, and those that a store binds stay bound.
-/

import ScriptMachine.Proofs.Layout

namespace ScriptMachine

namespace Layout

variable {since : Session} {kept : Store} {layout : Layout} {state : State}

theorem stores_of_sound (sound : (Account.layout since kept).Sound layout state) :
    Stores kept layout state.store := by
  cases state <;> exact sound.1

/-- A state in order is so since any moment, and with its own store as the one to be kept. -/
theorem sound_restart (sound : (Account.layout since kept).Sound layout state) (again : Session) :
    (Account.layout again state.store).Sound layout state := by
  cases state with
  | active node next scope store continuation => exact ⟨sound.1.restart, sound.2⟩
  | halted scope store continuation => exact ⟨sound.1.restart, sound.2⟩
  | uncaught value store => exact ⟨sound.1.restart, sound.2⟩

end Layout

/-- How the states that are held use addresses, in their stores and in the slots of the frames that
were created since a given session. The address of null is held by prototype slots at most. -/
structure Exploration.Addressed (base : Session) (held : Exploration) : Prop where
  stored : ∀ state ∈ held.states, ∀ address, state.store.contains address = true →
    1 ≤ address ∧ address ≤ (held.session.allocated Session.machineAllocator : Int)
  slotted : ∀ frame key address, base.frames.size ≤ frame →
    (held.session.slots frame).address? key = some address →
    (1 ≤ address ∨ key = .text "__proto__" ∧ address = 0) ∧
      address ≤ (held.session.allocated Session.machineAllocator : Int)
  apart : ∀ frame key other found address, base.frames.size ≤ frame → base.frames.size ≤ other →
    key ≠ .text "__proto__" → found ≠ .text "__proto__" →
    (held.session.slots frame).address? key = some address →
    (held.session.slots other).address? found = some address → frame = other ∧ key = found

namespace Layout

variable {base : Session} {held : Exploration} {layout : Layout}

/-- A frame that binds something is there. -/
theorem lt_of_address? {session : Session} {frame : Nat} {key : Key} {address : Address}
    (found : (session.slots frame).address? key = some address) : frame < session.frames.size := by
  by_cases inside : frame < session.frames.size
  · exact inside
  · simp [Session.slots, Array.getElem?_eq_none (Nat.not_lt.mp inside), Slots.address?] at found

/-- What is laid out well uses its addresses well. -/
theorem addressed (passed : (initial base).Later layout)
    (laid : Frames (Machine.begun base) layout held.session)
    (sound : ∀ state ∈ held.states, (Account.layout (Machine.begun base) .empty).Sound layout state) :
    held.Addressed base := by
  have native : ∀ {frame key address}, base.frames.size ≤ frame →
      (held.session.slots frame).address? key = some address → layout.Native frame := by
    intro frame key address created found
    have inside := lt_of_address? found
    rw [← laid.size] at inside
    exact passed.native_of_created created inside
  exact {
    stored := by
      intro state member address contained
      obtain ⟨notNull, handed⟩ := (stores_of_sound (sound state member)).bound address contained
      rw [laid.allocated]
      exact ⟨handed.one_le notNull, handed.2⟩
    slotted := by
      intro frame key address created found
      have handed := laid.slots frame (native created found) key address found
      rw [laid.allocated]
      refine ⟨?_, handed.2⟩
      by_cases null : address = 0
      · by_cases isProto : key = protoKey
        · exact .inr ⟨isProto, null⟩
        · exact absurd null (laid.present frame key address ((native created found).own isProto) found)
      · exact .inl (handed.one_le null)
    apart := by
      intro frame key other found address created createdAgain notProto foundNotProto bound boundAgain
      exact laid.apart frame key other found address ((native created bound).own notProto)
        ((native createdAgain boundAgain).own foundNotProto) bound boundAgain }

end Layout

namespace Machine

variable {machine : Machine} {program : Node} {base : Session} {held : Exploration}

/-- Addresses in use have been handed out and belong to one slot each. A step hands out more of them
and lets go of none, and what it may hand out no store binds yet. -/
theorem Explored.addresses (explored : machine.Explored program base held) :
    held.Addressed base ∧ ∀ state ∈ held.states, ∀ next after,
      machine.step state held.session = .ok next after →
      held.session.allocated Session.machineAllocator ≤ after.allocated Session.machineAllocator ∧
      (∀ address, state.store.contains address = true → next.store.contains address = true) ∧
      ∀ address : Int, held.session.allocated Session.machineAllocator < address →
        ∀ other ∈ held.states, other.store.contains address = false := by
  obtain ⟨layout, passed, laid, sound⟩ := explored.layout
  have addressed := Layout.addressed passed laid sound
  refine ⟨addressed, fun state member next after stepped => ⟨?_, ?_, ?_⟩⟩
  · exact (Action.grows_of_ok stepped).allocated
  · intro address contained
    let regime := Regime.layout (begun base) state.store
    obtain ⟨later, -, -, settled⟩ := (regime.leads_step machine laid
      (Layout.sound_restart (sound state member) (begun base))).of_ok stepped
    exact (Layout.stores_of_sound settled).keeps address contained
  · intro address fresh other otherMember
    cases contained : other.store.contains address with
    | false => rfl
    | true =>
        have bound := (addressed.stored other otherMember address contained).2
        exact absurd fresh (Int.not_lt.mpr bound)

/-- In the second activation of a function all addresses are bound that have been handed out. -/
theorem Explored.addresses_in_second_activation :
    ∃ program counted held state, Sample.activations.read 0 = .ok program counted ∧
      Explored ⟨.default, none⟩ program (Session.start false) held ∧ state ∈ held.states ∧
      state.store.size = 13 ∧ held.session.allocated Session.machineAllocator = 13 ∧
      held.Addressed (Session.start false) ∧ ∀ next after,
        Machine.step ⟨.default, none⟩ state held.session = .ok next after →
        ∀ address, state.store.contains address = true → next.store.contains address = true := by
  obtain ⟨program, counted, reads, -⟩ : ∃ program counted,
      Sample.activations.read 0 = .ok program counted ∧ True := Ends.exists_ok (by decide +kernel)
  obtain ⟨progress, after, ran, size, allocated⟩ : ∃ progress after,
      Machine.run ⟨.default, none⟩ 9 Sample.activations (Session.start false) = .ok progress after ∧
        progress.state.store.size = 13 ∧ after.allocated Session.machineAllocator = 13 :=
    Ends.exists_ok (by decide +kernel)
  obtain ⟨states, member, explored⟩ := explored_of_run rfl reads ran
  obtain ⟨addressed, steps⟩ := explored.addresses
  exact ⟨program, counted, _, progress.state, reads, explored, member, size, allocated, addressed,
    fun next after stepped => (steps _ member next after stepped).2.1⟩

end Machine

end ScriptMachine

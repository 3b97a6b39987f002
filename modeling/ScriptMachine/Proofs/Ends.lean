/-
This file says what holds of a piece of work however it ends. Work that fails keeps what it did, so
both endings speak about the state that is left behind.
-/

import ScriptMachine.Draft

namespace ScriptMachine

/-- The first condition is for a result, the second for a fault. -/
def Ends {S A : Type} (work : EStateM Fault S A) (start : S) (good : A → S → Prop)
    (bad : Fault → S → Prop) : Prop :=
  match work start with
  | .ok result final => good result final
  | .error fault final => bad fault final

/-- An ending can be looked up by running the work. -/
instance {S A : Type} (work : EStateM Fault S A) (start : S) (good : A → S → Prop)
    (bad : Fault → S → Prop) [∀ result final, Decidable (good result final)]
    [∀ fault final, Decidable (bad fault final)] : Decidable (Ends work start good bad) :=
  match ended : work start with
  | .ok result final => decidable_of_iff (good result final) (by simp only [Ends, ended])
  | .error fault final => decidable_of_iff (bad fault final) (by simp only [Ends, ended])

section

variable {S A B : Type} {start final : S} {good : A → S → Prop} {bad : Fault → S → Prop}
  {work : EStateM Fault S A} {result : A} {first : EStateM Fault S B} {second : B → EStateM Fault S A}

theorem Ends.of_ok (ends : Ends work start good bad) (ended : work start = .ok result final) :
    good result final := by
  simpa only [Ends, ended] using ends

theorem Ends.of_error {fault : Fault} (ends : Ends work start good bad)
    (ended : work start = .error fault final) : bad fault final := by
  simpa only [Ends, ended] using ends

/-- An ending is described by looking at how the work can end. -/
theorem Ends.intro (result : ∀ value final, work start = .ok value final → good value final)
    (fault : ∀ fault final, work start = .error fault final → bad fault final) :
    Ends work start good bad := by
  unfold Ends
  cases ended : work start with
  | ok value final => exact result value final ended
  | error failure final => exact fault failure final ended

/-- Work that cannot fail has a result. -/
theorem Ends.exists_ok (ends : Ends work start good fun _ _ => False) :
    ∃ result final, work start = .ok result final ∧ good result final := by
  unfold Ends at ends
  split at ends
  · rename_i result final ended
    exact ⟨result, final, ended, ends⟩
  · exact absurd ends id

/-- Work that can only end in one way ends so. -/
theorem Ends.eq_ok
    (ends : Ends work start (fun value last => value = result ∧ last = final) fun _ _ => False) :
    work start = .ok result final := by
  obtain ⟨value, last, ended, rfl, rfl⟩ := ends.exists_ok
  exact ended

/-- Every ending may be described less exactly. -/
theorem Ends.weaken {wider : A → S → Prop} {worse : Fault → S → Prop} (ends : Ends work start good bad)
    (result : ∀ value final, good value final → wider value final)
    (fault : ∀ fault final, bad fault final → worse fault final) : Ends work start wider worse := by
  unfold Ends at ends ⊢
  split
  · rename_i ended
    rw [ended] at ends
    exact result _ _ ends
  · rename_i ended
    rw [ended] at ends
    exact fault _ _ ends

/-- Work ends in some way. -/
theorem ends_any (work : EStateM Fault S A) (start : S) :
    Ends work start (fun _ _ => True) fun _ _ => True := by
  unfold Ends
  split <;> trivial

@[simp] theorem ends_pure (value : A) :
    Ends (pure value : EStateM Fault S A) start good bad ↔ good value start := Iff.rfl

@[simp] theorem ends_throw (fault : Fault) :
    Ends (throw fault : EStateM Fault S A) start good bad ↔ bad fault start := Iff.rfl

/-- Work in two parts ends as its second part does, or with the fault of its first. -/
@[simp] theorem ends_bind (first : EStateM Fault S B) (second : B → EStateM Fault S A) :
    Ends (first >>= second) start good bad ↔
      Ends first start (fun value middle => Ends (second value) middle good bad) bad := by
  unfold Ends
  change (match EStateM.bind first second start with
    | .ok result final => good result final
    | .error fault final => bad fault final) ↔ _
  unfold EStateM.bind
  cases first start <;> rfl

/-- Work in two parts does its second part once its first part has a result. -/
theorem bind_of_ok {value : B} {middle : S} (ended : first start = .ok value middle) :
    (first >>= second) start = second value middle := by
  change EStateM.bind first second start = _
  unfold EStateM.bind
  rw [ended]

theorem bind_of_error {fault : Fault} {middle : S} (ended : first start = .error fault middle) :
    (first >>= second) start = .error fault middle := by
  change EStateM.bind first second start = _
  unfold EStateM.bind
  rw [ended]

/-- What the second part ends in whatever the first one did, the work in both parts ends in. -/
theorem ends_then (ends : ∀ value middle, Ends (second value) middle good fun _ _ => True) :
    Ends (first >>= second) start good fun _ _ => True := by
  rw [ends_bind]
  refine (ends_any first start).weaken ?_ fun _ _ _ => trivial
  intro value middle _
  exact ends value middle

/-- Work in two parts that has a result has one in each part. -/
theorem exists_of_bind (ended : (first >>= second) start = .ok result final) :
    ∃ value middle, first start = .ok value middle ∧ second value middle = .ok result final := by
  cases begun : first start with
  | error fault middle =>
      rw [bind_of_error begun] at ended
      cases ended
  | ok value middle =>
      rw [bind_of_ok begun] at ended
      exact ⟨value, middle, rfl, ended⟩

@[simp] theorem ends_get {wanted : S → S → Prop} :
    Ends (get : EStateM Fault S S) start wanted bad ↔ wanted start start := Iff.rfl

@[simp] theorem ends_modify {wanted : Unit → S → Prop} (change : S → S) :
    Ends (modify change : EStateM Fault S Unit) start wanted bad ↔ wanted () (change start) :=
  Iff.rfl

end

section

variable {A : Type} {session : Session} {good : A → Session → Prop} {bad : Fault → Session → Prop}

@[simp] theorem ends_fromExcept (outcome : Except Fault A) :
    Ends (Action.fromExcept outcome) session good bad ↔
      match outcome with
      | .ok value => good value session
      | .error fault => bad fault session := by
  cases outcome <;> rfl

end

section

variable {A : Type} {scratch : Scratch} {good : A → Scratch → Prop} {bad : Fault → Scratch → Prop}

/-- An action inside a draft sees the session and leaves the private store alone. -/
@[simp] theorem ends_liftAction (action : Action A) :
    Ends (liftM action : Draft A) scratch good bad ↔
      Ends action scratch.session (fun value session => good value ⟨session, scratch.store⟩)
        (fun fault session => bad fault ⟨session, scratch.store⟩) := by
  change Ends (Draft.ofAction action) scratch good bad ↔ _
  unfold Ends Draft.ofAction
  cases action scratch.session <;> rfl

@[simp] theorem ends_liftExcept (outcome : Except Fault A) :
    Ends (liftM outcome : Draft A) scratch good bad ↔
      match outcome with
      | .ok value => good value scratch
      | .error fault => bad fault scratch := by
  cases outcome <;> rfl

@[simp] theorem ends_store {wanted : Store → Scratch → Prop} :
    Ends Draft.store scratch wanted bad ↔ wanted scratch.store scratch := Iff.rfl

/-- Only the address of null refuses to be extended. -/
@[simp] theorem ends_extend {wanted : Unit → Scratch → Prop} (address : Address) (value : Value) :
    Ends (Draft.extend address value) scratch wanted bad ↔
      match scratch.store.extend address value with
      | .ok store => wanted () ⟨scratch.session, store⟩
      | .error fault => bad fault scratch := by
  unfold Draft.extend
  simp only [ends_bind, ends_store, ends_liftExcept]
  cases scratch.store.extend address value <;> rfl

/-- Running a draft shows the store it arrives at. -/
@[simp] theorem ends_run {session : Session} {store : Store} (draft : Draft A)
    {wanted : A × Store → Session → Prop} {failed : Fault → Session → Prop} :
    Ends (draft.run store) session wanted failed ↔
      Ends draft ⟨session, store⟩ (fun value scratch => wanted (value, scratch.store) scratch.session)
        (fun fault scratch => failed fault scratch.session) := by
  unfold Ends Draft.run
  cases draft ⟨session, store⟩ <;> rfl

end

end ScriptMachine

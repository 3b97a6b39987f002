/-
This file compares two pieces of work that are done side by side. The first one is trusted to end in a
session that is allowed, and the second one then has to end in the same way.
-/

import ScriptMachine.Proofs.Growth

namespace ScriptMachine

/-- What is asked of the first of two pieces of work. Where the comparison is strict, the second piece
also fails as the first one does, by a fault that matches. -/
structure Terms where
  Allowed : Session → Prop
  strict : Prop
  Matches : Fault → Fault → Prop
  allowed_of_grows : ∀ {session later}, session.Grows later → Allowed later → Allowed session
  matches_refl : ∀ fault, Matches fault fault

/-- Two pieces of work end in the same way. The first condition is for two results, the second for two
sessions that are left behind by faults that match. -/
def Terms.Pairs (terms : Terms) {S A B : Type} (view : S → Session) (first : EStateM Fault S A)
    (second : EStateM Fault S B) (start other : S) (good : A → S → B → S → Prop)
    (bad : Session → Session → Prop) : Prop :=
  Ends first start
    (fun result final => terms.Allowed (view final) → Ends second other (good result final)
      fun _ _ => False)
    (fun fault final => terms.strict → terms.Allowed (view final) → Ends second other
      (fun _ _ => False) fun again left => terms.Matches fault again ∧ bad (view final) (view left))

namespace Terms

variable {terms : Terms} {bad : Session → Session → Prop}

section

variable {S A B C D : Type} {view : S → Session} {start other : S}
  {good : A → S → B → S → Prop}

theorem pairs_pure {result : A} {again : B} (holds : good result start again other) :
    terms.Pairs view (pure result) (pure again) start other good bad :=
  fun _ => holds

theorem pairs_throw {fault : Fault} (left : terms.strict → bad (view start) (view other)) :
    terms.Pairs view (throw fault : EStateM Fault S A) (throw fault : EStateM Fault S B) start other
      good bad :=
  fun strict _ => ⟨terms.matches_refl fault, left strict⟩

variable {first : EStateM Fault S A} {second : EStateM Fault S B}

theorem Pairs.weaken {wider : A → S → B → S → Prop}
    (pairs : terms.Pairs view first second start other good bad)
    (weaker : ∀ result final again last, good result final again last → wider result final again last) :
    terms.Pairs view first second start other wider bad := by
  refine Ends.weaken pairs ?_ fun _ _ fails => fails
  intro result final ends allowed
  exact (ends allowed).weaken (weaker result final) fun _ _ never => never

/-- Two results are compared as the results that they are. -/
theorem Pairs.ran (pairs : terms.Pairs view first second start other good bad) :
    terms.Pairs view first second start other
      (fun result final again last => first start = .ok result final ∧ good result final again last)
      bad := by
  apply Ends.intro
  · intro result final ended allowed
    exact (Ends.of_ok pairs ended allowed).weaken (fun _ _ holds => ⟨ended, holds⟩) fun _ _ never => never
  · intro fault final ended
    exact Ends.of_error pairs ended

/-- Work in two parts is compared part by part. What the first part leads to is allowed because the
session only grows from there. -/
theorem pairs_bind {first : EStateM Fault S C} {second : EStateM Fault S D}
    {firstOn : C → EStateM Fault S A} {secondOn : D → EStateM Fault S B}
    {middle : C → S → D → S → Prop} (grows : ∀ value, Expands view (firstOn value))
    (begins : terms.Pairs view first second start other middle bad)
    (goesOn : ∀ value state again last, middle value state again last →
      terms.Pairs view (firstOn value) (secondOn again) state last good bad) :
    terms.Pairs view (first >>= firstOn) (second >>= secondOn) start other good bad := by
  unfold Terms.Pairs at begins ⊢
  rw [ends_bind]
  refine begins.weaken ?_ ?_
  · intro value state arrives
    apply Ends.intro
    · intro result final ended allowed
      rw [ends_bind]
      have reached := terms.allowed_of_grows (((grows value).ends state).of_ok ended) allowed
      refine (arrives reached).weaken ?_ fun _ _ never => never
      intro again last between
      exact (goesOn value state again last between).of_ok ended allowed
    · intro fault final ended strict allowed
      rw [ends_bind]
      have reached := terms.allowed_of_grows (((grows value).ends state).of_error ended) allowed
      refine (arrives reached).weaken ?_ fun _ _ never => never.elim
      intro again last between
      exact (goesOn value state again last between).of_error ended strict allowed
  · intro fault final fails strict allowed
    rw [ends_bind]
    exact (fails strict allowed).weaken (fun _ _ never => never.elim) fun _ _ same => same

end

section

variable {A B : Type} {start other : Scratch} {good : A → Scratch → B → Scratch → Prop}
  {first : Action A} {second : Action B}

/-- Actions inside drafts are compared by what they do to the sessions. -/
theorem pairs_lift :
    terms.Pairs Scratch.session (liftM first : Draft A) (liftM second : Draft B) start other good bad ↔
      terms.Pairs id first second start.session other.session
        (fun result final again last => good result ⟨final, start.store⟩ again ⟨last, other.store⟩) bad := by
  simp only [Terms.Pairs, ends_liftAction]
  rfl

/-- Outcomes that are the same on both sides. -/
theorem pairs_outcome {outcome again : Except Fault A} (same : again = outcome)
    {good : A → Scratch → A → Scratch → Prop}
    (holds : ∀ result, outcome = .ok result → good result start result other)
    (left : terms.strict → bad start.session other.session) :
    terms.Pairs Scratch.session (liftM outcome : Draft A) (liftM again : Draft A) start other good
      bad := by
  subst same
  cases again with
  | ok result => exact pairs_pure (holds result rfl)
  | error fault => exact pairs_throw left

end

/-- Drafts are run on a store of their own on each side. -/
theorem pairs_run {A B : Type} {session other : Session} {first : Draft A} {second : Draft B} {store copy : Store}
    {good : A × Store → Session → B × Store → Session → Prop}
    (pairs : terms.Pairs Scratch.session first second ⟨session, store⟩ ⟨other, copy⟩
      (fun result final again last =>
        good (result, final.store) final.session (again, last.store) last.session) bad) :
    terms.Pairs id (first.run store) (second.run copy) session other good bad := by
  simpa only [Terms.Pairs, ends_run, id_eq] using pairs

end Terms

end ScriptMachine

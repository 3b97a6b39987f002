/-
This file takes the traces out of a run. Main statement: where the ranges of a tree can be read, a run
comes to the same result whatever is announced, outlined and noted on the way.
-/

import ScriptMachine.Proofs.Agreement
import ScriptMachine.Proofs.Independence
import ScriptMachine.Proofs.Numbering

namespace ScriptMachine

/-- Every range that a tree holds can be read. -/
def Tree.IsRanged (tree : Tree) : Prop := ∀ range ∈ tree.ranges, range.isRange = true

/-- The ranges of a program are ranges of the tree that it was read from. -/
theorem Tree.IsRanged.isReadable {tree : Tree} {program : Node} {start next : Nat}
    (ranged : tree.IsRanged) (reads : tree.read start = .ok program next) : program.IsReadable := by
  intro node within
  cases present : node.isAbsent with
  | true =>
      cases node with
      | absent => rfl
      | _ => cases present
  | false =>
      have member : node.place ∈ program.places :=
        within.places.subset (Node.place_mem_places present)
      rcases (Tree.numbered_of_read reads).ranges node.place member with missing | held
      · rw [missing]
        rfl
      · exact ranged _ held

namespace Machine

/-- What a run comes to, apart from what was kept for tracing. -/
def untraced {A : Type} : EStateM.Result Fault Session A → EStateM.Result Fault Session A
  | .ok result session => .ok result session.bare
  | .error fault session => .error fault session.bare

theorem untraced_of_accompanies {result again : EStateM.Result Fault Session Progress}
    (together : Correspondence.tracing.Accompanies () result again) :
    untraced again = untraced result := by
  cases result with
  | ok progress session =>
      cases again with
      | error fault other => exact absurd together id
      | ok repeated other =>
          obtain ⟨count, _, _, abreast⟩ := together
          obtain ⟨states, bare⟩ := Correspondence.eq_of_abreast abreast
          have same : repeated = progress := by
            cases repeated
            cases progress
            simp_all
          rw [untraced, untraced, same, bare]
  | error fault session =>
      cases again with
      | ok repeated other => exact absurd together id
      | error repeated other =>
          obtain ⟨rfl, _, _, _, matched⟩ := together
          rw [untraced, untraced, matched.session]

variable {machine second : Machine} (truth : second.invertedTruth = machine.invertedTruth)
include truth

/-- Steps that are announced differently lead to the same results. -/
theorem untraced_advance {progress : Progress} {session other : Session}
    (vetted : progress.state.Vetted Node.hasRange)
    (abreast : Correspondence.tracing.Abreast () session other progress.state progress.state)
    (steps : Nat) :
    untraced (second.advance steps progress other) = untraced (machine.advance steps progress session) := by
  apply untraced_of_accompanies
  apply @Correspondence.accompanies_advance .tracing machine second
    (fun _ state _ => state.Vetted Node.hasRange) _ _ steps () progress progress session other vetted rfl
    abreast
  · intro _ state session next after vetted _ stepped
    exact vetted_step Node.hasRange_of_isExit vetted stepped
  · intro _ world state again session other vetted _ abreast
    obtain ⟨rfl, -⟩ := Correspondence.eq_of_abreast abreast
    exact coincides_step_traced truth (fun _ => vetted.shown machine.source)
      (fun _ => vetted.shown second.source) abreast

omit truth in
/-- Where the ranges of a tree can be read, a run comes to the same result whatever is announced, outlined
and noted: it counts as many states and ends in the same state, with the same store, frames, globals and
printed text, or it fails in the same way. -/
theorem run_untraced {tree : Tree} (ranged : tree.IsRanged) (debug outline verbose inverted : Bool)
    (source : Option String) (steps : Nat) :
    untraced (run ⟨⟨debug, inverted, outline⟩, source⟩ steps tree (Session.start verbose)) =
      untraced (run ⟨⟨false, inverted, false⟩, source⟩ steps tree (Session.start false)) := by
  have readable : ∀ program counted, tree.read 0 = .ok program counted → program.IsReadable :=
    fun program counted reads => ranged.isReadable reads
  have truth : invertedTruth ⟨⟨debug, inverted, outline⟩, source⟩ =
      invertedTruth ⟨⟨false, inverted, false⟩, source⟩ := rfl
  have allocates : ∀ {loaded : Session} {loud : Bool}, loaded.bare = (Session.start loud).bare →
      Session.machineAllocator < loaded.allocators.size := by
    intro loaded loud same
    have sizes : loaded.bare.allocators.size = (Session.start loud).bare.allocators.size := by rw [same]
    exact Nat.lt_of_lt_of_eq Nat.zero_lt_one sizes.symm
  rcases @loads_alike ⟨⟨false, inverted, false⟩, source⟩ ⟨⟨debug, inverted, outline⟩, source⟩ tree
      (Session.start false) (Session.start verbose) readable with
    ⟨program, loaded, last, loads, loadsAgain, kept, keptAgain⟩ |
    ⟨fault, loaded, last, fails, failsAgain, kept, keptAgain⟩
  · obtain ⟨counted, reads⟩ := exists_read_of_load loads
    have starts := @initialState_of_allocates program loaded (allocates kept)
    have vetted : (firstState program loaded).Vetted Node.hasRange :=
      vetted_initialState (readable program counted reads) starts
    have abreast := @matches_firstState program loaded last (keptAgain.trans kept.symm)
    obtain ⟨same, -⟩ := Correspondence.eq_of_abreast abreast
    rw [same] at abreast
    rw [run_of_load loads (allocates kept), run_of_load loadsAgain (allocates keptAgain), same]
    exact @untraced_advance _ _ truth ⟨1, firstState program loaded⟩ _ _ vetted abreast steps
  · rw [run_of_load_error fails, run_of_load_error failsAgain, untraced, untraced, kept, keptAgain]
    rfl

end Machine

/-- A block throws, and the text is printed where it is caught. -/
def Sample.rescue : Tree :=
  let range := fun (start stop : Int) => ("range", Tree.list [.int start, .int stop])
  let thrown := node "ThrowStatement" [range 6 16, ("argument", literal "no")]
  let shown := node "ExpressionStatement" [("range", .null), ("expression", call "print" [name "e"])]
  let clause := node "CatchClause" [range 19 42, ("param", name "e"), ("body", block [shown])]
  program [node "TryStatement" [range 0 42, ("block", block [thrown]), ("handler", clause)]]

def Sample.rescueText : String := "try \x7b throw 'no' \x7d catch (e) \x7b print(e) \x7d"

/-- A program is announced, outlined and noted in full, and prints what it prints without a trace. -/
theorem Machine.run_untraced_of_rescue :
    ∃ progress after, Sample.rescue.IsRanged ∧
      run ⟨⟨true, false, true⟩, some Sample.rescueText⟩ 20 Sample.rescue (Session.start true) =
        .ok progress after ∧
      progress.state.isDone = true ∧ after.output = "no\n" ∧ after.journal.isEmpty = false ∧
      untraced (run ⟨⟨false, false, false⟩, some Sample.rescueText⟩ 20 Sample.rescue
        (Session.start false)) = .ok progress after.bare := by
  have ranged : Sample.rescue.IsRanged := by
    unfold Tree.IsRanged
    decide +kernel
  obtain ⟨progress, after, ran, done, printed, noted⟩ : ∃ progress after,
      run ⟨⟨true, false, true⟩, some Sample.rescueText⟩ 20 Sample.rescue (Session.start true) =
        .ok progress after ∧
      progress.state.isDone = true ∧ after.output = "no\n" ∧ after.journal.isEmpty = false :=
    Ends.exists_ok (by decide +kernel)
  have same := run_untraced ranged true true true false (some Sample.rescueText) 20
  rw [ran] at same
  exact ⟨progress, after, ranged, ran, done, printed, noted, same.symm⟩

end ScriptMachine

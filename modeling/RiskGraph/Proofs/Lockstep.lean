import RiskGraph.Proofs.Run

/-!
# Two runs in lockstep

Two runs, of one graph or of two, end alike if they can be kept side by side.  The relation that
does so holds between the nodes that they are at and between their walks.  It is enough that nodes
side by side come to the same and lead on to nodes side by side; the numbers of turns allowed for
the two runs do not matter.
-/

namespace RiskGraph.Graph

variable [Engine] {left right : Graph}

/-- A relation that keeps two runs side by side, and one that holds between their walks after each
visit. -/
structure Lockstep (left right : Graph)
    (Abreast : Fin left.size → Walk → Fin right.size → Walk → Prop)
    (Level : Walk → Walk → Prop) : Prop where
  /-- Nodes side by side come to the same. -/
  visit_eq : ∀ {place walk other twin}, Abreast place walk other twin →
    (left.nodes[place].visit walk).1 = (right.nodes[other].visit twin).1
  /-- They leave their walks level. -/
  level : ∀ {place walk other twin}, Abreast place walk other twin →
    Level (left.nodes[place].visit walk).2 (right.nodes[other].visit twin).2
  /-- An outcome that passes leads on to nodes side by side. -/
  onward : ∀ {place walk other twin outcome}, Abreast place walk other twin →
    (left.nodes[place].visit walk).1 = .ok outcome → outcome.blocks = false →
      ∃ target next, left.exits[place].follow left.nodes[place] outcome = .ok target ∧
        right.exits[other].follow right.nodes[other] outcome = .ok next ∧
          Abreast target (left.nodes[place].visit walk).2 next (right.nodes[other].visit twin).2

/-- Two runs end alike: with the same failure, or with the decision of the same outcome, each at the
end of its own walk. -/
def EndAlike (Level : Walk → Walk → Prop) (run twin : Except Failure Decision × Walk) : Prop :=
  ∃ ending : Except Failure Outcome,
    run.1 = ending.map (fun outcome => .ofOutcome outcome run.2) ∧
      twin.1 = ending.map (fun outcome => .ofOutcome outcome twin.2) ∧ Level run.2 twin.2

namespace Lockstep

variable {Abreast : Fin left.size → Walk → Fin right.size → Walk → Prop}
  {Level : Walk → Walk → Prop} {place : Fin left.size} {other : Fin right.size}
  {walk twin : Walk}

/-- Turns side by side both end or both go on. -/
theorem turn (lockstep : Lockstep left right Abreast Level)
    (abreast : Abreast place walk other twin) :
    (∃ result final result' final', left.turn place walk = (.ended result, final) ∧
      right.turn other twin = (.ended result', final') ∧
        EndAlike Level (result, final) (result', final')) ∨
      ∃ target next walk' twin', left.turn place walk = (.onward target, walk') ∧
        right.turn other twin = (.onward next, twin') ∧ Abreast target walk' next twin' := by
  have visit_eq := lockstep.visit_eq abreast
  have level := lockstep.level abreast
  have onward := fun outcome => @lockstep.onward _ _ _ _ _ outcome abreast
  simp only [Graph.turn]
  -- the visits come to the same, so that of the four pairs of results two are left
  rcases visited : left.nodes[place].visit walk with ⟨failure | outcome, final⟩ <;>
    rcases twin_visited : right.nodes[other].visit twin with ⟨failure' | outcome', final'⟩ <;>
    simp only [visited, twin_visited] at visit_eq level onward ⊢
  · cases visit_eq
    exact Or.inl ⟨_, _, _, _, rfl, rfl, .error failure, rfl, rfl, level⟩
  · cases visit_eq
  · cases visit_eq
  · cases visit_eq
    cases blocks : outcome.blocks with
    | true => exact Or.inl ⟨_, _, _, _, rfl, rfl, .ok outcome, rfl, rfl, level⟩
    | false =>
        obtain ⟨target, next, followed, next_followed, abreast⟩ := onward outcome rfl blocks
        refine Or.inr ⟨target, next, final, final', ?_, ?_, abreast⟩
        · rw [followed]
          rfl
        · rw [next_followed]
          rfl

/-- Runs side by side end alike. -/
theorem loop (lockstep : Lockstep left right Abreast Level) {result result' final final'}
    (abreast : Abreast place walk other twin) (ran : left.Loop place walk result final)
    (twin_ran : right.Loop other twin result' final') :
    EndAlike Level (result, final) (result', final') := by
  -- the run on the left is what the induction is on, for each run that may be beside it
  induction ran generalizing other twin with
  | stop turned =>
      rcases lockstep.turn abreast with
        ⟨_, _, _, _, ended, twin_ended, alike⟩ | ⟨_, _, _, _, impossible, -⟩
      · cases turned.symm.trans ended
        cases twin_ran with
        | stop twin_turned =>
            cases twin_turned.symm.trans twin_ended
            exact alike
        | go twin_turned => nomatch twin_turned.symm.trans twin_ended
      · nomatch turned.symm.trans impossible
  | go turned _ induction =>
      rcases lockstep.turn abreast with
        ⟨_, _, _, _, impossible, -⟩ | ⟨_, _, _, _, onward, twin_onward, next_abreast⟩
      · nomatch turned.symm.trans impossible
      · cases turned.symm.trans onward
        cases twin_ran with
        | stop twin_turned => nomatch twin_turned.symm.trans twin_onward
        | go twin_turned later =>
            cases twin_turned.symm.trans twin_onward
            exact induction next_abreast later

/-- Runs that begin side by side end alike, on graphs that are sound. -/
theorem run (lockstep : Lockstep left right Abreast Level) (left_sound : left.Sound)
    (right_sound : right.Sound) (abreast : Abreast left.start walk right.start twin) :
    EndAlike Level (left.run walk) (right.run twin) := by
  obtain ⟨_, _, _, result, final, -, ran_eq, ran, -⟩ := exists_passes_run left_sound walk
  obtain ⟨_, _, _, result', final', -, twin_eq, twin_ran, -⟩ := exists_passes_run right_sound twin
  rw [ran_eq, twin_eq]
  exact lockstep.loop abreast ran twin_ran

end Lockstep
end RiskGraph.Graph

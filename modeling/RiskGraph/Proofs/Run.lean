import RiskGraph.Proofs.Passage

/-!
# Runs on built graphs

A run takes turns that go on, which make up a passage, and a last turn that ends it.  The bound on
the turns is never reached, and a run ends only with a decision, on being called off, at a node that
the walk had entered before, or with a failure of a node.
-/

namespace RiskGraph

/-! ## Turns -/

namespace Graph

variable [Engine] {graph : Graph} {place target : Fin graph.size} {walk left : Walk}

/-- A turn that goes on is a stage of a node that is new to the walk. -/
theorem turn_eq_onward (turned : graph.turn place walk = (.onward target, left)) :
    ∃ stage : Stage graph, stage.place = place ∧ stage.found = walk.features ∧
      stage.outcome.blocks = false ∧
        graph.exits[stage.place].follow stage.node stage.outcome = .ok target ∧
          left = walk.after [stage] := by
  simp only [turn] at turned
  split at turned
  · nomatch turned
  · next outcome _ visited =>
      obtain ⟨-, -, step, features, performs, rfl⟩ := Node.visit_eq_ok visited
      split at turned
      · nomatch turned
      · next passes =>
          split at turned
          · nomatch turned
          · next followed =>
              cases turned
              exact ⟨⟨place, walk.features, outcome, step, features, performs⟩, rfl, rfl,
                by simpa using passes, followed, rfl⟩

/-- A turn that ends a run is a stage that blocks, or its visit fails. -/
theorem turn_eq_ended (sound : graph.Sound) {result : Except Failure Decision}
    (turned : graph.turn place walk = (.ended result, left)) :
    (∃ stage : Stage graph, stage.place = place ∧ stage.found = walk.features ∧
      stage.outcome.blocks = true ∧ left = walk.after [stage] ∧
        result = .ok (.ofOutcome stage.outcome left)) ∨
      ∃ failure, result = .error failure ∧
        graph.nodes[place].visit walk = (.error failure, left) := by
  simp only [turn] at turned
  split at turned
  · next failure _ visited =>
      cases turned
      exact Or.inr ⟨failure, rfl, visited⟩
  · next outcome _ visited =>
      obtain ⟨-, -, step, features, performs, rfl⟩ := Node.visit_eq_ok visited
      split at turned
      · next blocks =>
          cases turned
          exact Or.inl ⟨⟨place, walk.features, outcome, step, features, performs⟩, rfl, rfl, blocks,
            rfl, rfl⟩
      · next passes =>
          obtain ⟨target, followed, -⟩ := Exits.exists_follow_eq_ok (sound.ways_suit place) performs
            (by simpa using passes)
          rw [followed] at turned
          nomatch turned

/-- A run from a node, taken turn by turn without a bound on their number. -/
inductive Loop (graph : Graph) :
    Fin graph.size → Walk → Except Failure Decision → Walk → Prop
  | stop {place : Fin graph.size} {walk final : Walk} {result : Except Failure Decision}
      (turned : graph.turn place walk = (.ended result, final)) : Loop graph place walk result final
  | go {place target : Fin graph.size} {walk left final : Walk} {result : Except Failure Decision}
      (turned : graph.turn place walk = (.onward target, left))
      (later : Loop graph target left result final) : Loop graph place walk result final

/-- A bounded run goes through stages that pass, until a turn ends it or the bound is reached. -/
theorem exists_passes_runFrom (graph : Graph) (turns : Nat) (place : Fin graph.size) (walk : Walk) :
    ∃ stages last features, graph.Passes place walk.features stages last features ∧
      (stages.length = turns ∨ ∃ result final,
        graph.turn last (walk.after stages) = (.ended result, final) ∧
          graph.runFrom turns place walk = (result, final) ∧
            graph.Loop place walk result final) := by
  induction turns generalizing place walk with
  | zero => exact ⟨[], place, walk.features, .stay _ _, Or.inl rfl⟩
  | succ turns induction =>
      rcases turned : graph.turn place walk with ⟨result | target, left⟩
      · refine ⟨[], place, walk.features, .stay _ _, Or.inr ?_⟩
        exact ⟨result, left, turned, by simp [runFrom, turned], .stop turned⟩
      · obtain ⟨stage, rfl, found_eq, unblocked, followed, rfl⟩ := turn_eq_onward turned
        obtain ⟨stages, last, features, passes, ending⟩ := induction target (walk.after [stage])
        refine ⟨stage :: stages, last, features, found_eq ▸ .pass unblocked followed passes, ?_⟩
        rcases ending with length_eq | ⟨result, final, ended, ran, loop⟩
        · exact Or.inl (congrArg Nat.succ length_eq)
        · refine Or.inr ⟨result, final, ended, ?_, .go turned loop⟩
          simpa [runFrom, turned] using ran

/-- A run on a built graph is a passage and a last visit, which blocks or fails. -/
theorem exists_passes_run (sound : graph.Sound) (walk : Walk) :
    ∃ stages last features result final,
      graph.Passes graph.start walk.features stages last features ∧
        graph.run walk = (result, final) ∧ graph.Loop graph.start walk result final ∧
          ((∃ stage : Stage graph, stage.place = last ∧ stage.found = features ∧
              stage.outcome.blocks = true ∧ final = walk.after (stages ++ [stage]) ∧
                result = .ok (.ofOutcome stage.outcome final)) ∨
            ∃ failure, result = .error failure ∧
              graph.nodes[last].visit (walk.after stages) = (.error failure, final)) := by
  obtain ⟨stages, last, features, passes, length_eq | ⟨result, final, ended, ran, loop⟩⟩ :=
    graph.exists_passes_runFrom (graph.size + 1) graph.start walk
  · have length_lt := passes.length_lt sound
    omega
  · refine ⟨stages, last, features, result, final, passes, ran, loop, ?_⟩
    rcases turn_eq_ended sound ended with ⟨stage, place_eq, found_eq, blocks, rfl, decided⟩ | failed
    · refine Or.inl ⟨stage, place_eq, ?_, blocks, (walk.after_append stages [stage]).symm, decided⟩
      rw [found_eq, passes.features_after]
    · exact Or.inr failed

/-- The nodes of a passage are entered, and the node that it leads to may be. -/
theorem Passes.exists_entered (sound : graph.Sound) {last : Fin graph.size}
    {found features : Table Value} {stages : List (Stage graph)}
    (passes : graph.Passes place found stages last features) (walk : Walk) {final : Walk}
    (trail_eq : final.trail = (walk.after stages).trail ∨
      final.trail = (walk.after stages).trail ++ [graph.nodes[last].id]) :
    ∃ places : List (Fin graph.size), places.Nodup ∧ places.length ≤ graph.size ∧
      final.trail = walk.trail ++ places.map fun place => graph.nodes[place].id := by
  have distinct := passes.nodup_places sound
  have length_lt := passes.length_lt sound
  have stages_eq : (walk.after stages).trail =
      walk.trail ++ (stages.map Stage.place).map fun place => graph.nodes[place].id := by
    rw [Walk.trail_after, List.map_map]
    rfl
  rcases trail_eq with trail_eq | trail_eq
  · refine ⟨stages.map Stage.place, distinct.of_append_left, ?_, trail_eq.trans stages_eq⟩
    simpa using length_lt.le
  · refine ⟨stages.map Stage.place ++ [last], distinct, ?_, ?_⟩
    · simpa [Nat.succ_le_iff] using length_lt
    · rw [trail_eq, stages_eq, List.map_append, List.append_assoc]
      rfl

/-- A run that comes to a decision is a passage and a stage that blocks. -/
theorem exists_stages_of_run (sound : graph.Sound) {walk final : Walk} {decision : Decision}
    (ran : graph.run walk = (.ok decision, final)) :
    ∃ (stages : List (Stage graph)) (stage : Stage graph),
      graph.Passes graph.start walk.features stages stage.place stage.found ∧
        stage.outcome.blocks = true ∧ final = walk.after (stages ++ [stage]) ∧
          decision = .ofOutcome stage.outcome final := by
  obtain ⟨stages, last, features, result, final, passes, ran_eq, -, last_visit⟩ :=
    exists_passes_run sound walk
  cases ran_eq.symm.trans ran
  rcases last_visit with ⟨stage, rfl, rfl, blocks, final_eq, decided⟩ | ⟨failure, failed, -⟩
  · exact ⟨stages, stage, passes, blocks, final_eq, Except.ok.inj decided⟩
  · nomatch failed

end Graph

/-! ## A definition with a node of each kind -/

/-- Settings that compare a feature with an integer. -/
def comparing (feature operator : String) (threshold : Int) : List (String × Json) :=
  [("feature", .text feature), ("operator", .text operator),
    ("threshold", .number (.integer threshold))]

/-- Minors get a score; a rule refuses those whose score is above the limit. -/
def minors : Definition where
  nodes := [
    { id := "request", kind := "start" },
    { id := "risk", kind := "scorecard"
      settings := .object [
        ("items", .array [.object (comparing "age" "LT" 18 ++ [("score", .number (.integer 40))])]),
        ("output", .text "score")] },
    { id := "limit", kind := "condition", settings := .object (comparing "score" "GT" 20) },
    { id := "rules", kind := "ruleset"
      settings := .object [
        ("rules", .array [.object [
          ("conditions", .array [.object (comparing "age" "LT" 18)]),
          ("decision", .object [("block", .bool true), ("tag", .text "reject")]),
          ("name", .text "minor")]])] },
    { id := "pass", kind := "end", tag := "accept" }]
  edges := [
    { source := "request", target := "risk" },
    { source := "risk", target := "limit" },
    { source := "limit", target := "rules", branch := some true },
    { source := "limit", target := "pass", branch := some false },
    { source := "rules", target := "pass" }]

/-- The features of a minor. -/
def minor : Table Value :=
  Table.ofList [("age", .int 17)]

section

open scoped Engine.Plain

theorem exists_decide_minor :
    ∃ graph decision, minors.build (Aliases.ofList []) = .ok graph ∧
      graph.decide minor = .ok decision := by
  have succeeds : ((minors.build (Aliases.ofList [])).toOption.bind fun graph =>
      (graph.decide minor).toOption).isSome = true := by
    decide +kernel
  obtain ⟨decision, found⟩ := Option.isSome_iff_exists.mp succeeds
  obtain ⟨graph, built, decided⟩ := Option.bind_eq_some_iff.mp found
  exact ⟨graph, decision, toOption_eq_some.mp built, toOption_eq_some.mp decided⟩

end

/-! ## Ends -/

namespace Graph

variable {graph : Graph} {place : Fin graph.size}

/-- How a run ends that takes up a walk. -/
inductive Ending [Engine] (graph : Graph) (walk : Walk) : Except Failure Decision → Walk → Prop
  /-- It comes to a decision. -/
  | decided (decision : Decision) (final : Walk) : Ending graph walk (.ok decision) final
  /-- A check finds the walk called off. -/
  | cancelled (id : String) (final : Walk) (off : ∃ check, walk.stopsAt check = true) :
      Ending graph walk (.error (.cancelled id)) final
  /-- It comes to a node that the walk had entered before. -/
  | revisited (id : String) (final : Walk) (before : id ∈ walk.visited) :
      Ending graph walk (.error (.revisited id)) final
  /-- The node entered last fails in its check or in its task, and not for being called off. -/
  | failed (place : Fin graph.size) (failure : Failure) (final : Walk)
      (current_eq : final.current = some graph.nodes[place].id)
      (fails : graph.nodes[place].Fails final failure)
      (going : ∀ id, failure ≠ .cancelled id) : Ending graph walk (.error failure) final

/-- What can be said of each run on a graph. -/
structure Ends [Engine] (graph : Graph) (walk : Walk) (result : Except Failure Decision)
    (final : Walk) :
    Prop where
  /-- It ends after some number of turns, and not because they are bounded. -/
  loop : graph.Loop graph.start walk result final
  /-- It enters nodes of the graph, no more than there are and none of them twice. -/
  entered : ∃ places : List (Fin graph.size), places.Nodup ∧ places.length ≤ graph.size ∧
    final.trail = walk.trail ++ places.map fun place => graph.nodes[place].id
  /-- It ends in one of four ways. -/
  ending : graph.Ending walk result final
  /-- It does not come to a node without a way on that does not end it. -/
  not_deadEnd : ∀ id, result ≠ .error (.deadEnd id)
  /-- It does not come to a node that should choose a way and does not. -/
  not_noBranch : ∀ id, result ≠ .error (.noBranch id)
  /-- It is called off only where a check finds the walk so. -/
  cancelled : ∀ id, result = .error (.cancelled id) → ∃ check, walk.stopsAt check = true
  /-- Only nodes that had been entered before the run are found entered. -/
  revisited : ∀ id, result = .error (.revisited id) → id ∈ walk.visited
  /-- A run that takes up a fresh walk finds no node entered. -/
  fresh : walk.visited = [] → ∀ id, result ≠ .error (.revisited id)

/-- A passage and a failing visit after it make up a run. -/
theorem Passes.ending [Engine] (sound : graph.Sound) {last : Fin graph.size}
    {found features : Table Value} {stages : List (Stage graph)}
    (passes : graph.Passes place found stages last features) {walk final : Walk}
    {failure : Failure}
    (failed : graph.nodes[last].visit (walk.after stages) = (.error failure, final)) :
    graph.Ending walk (.error failure) final ∧
      (final.trail = (walk.after stages).trail ∨
        final.trail = (walk.after stages).trail ++ [graph.nodes[last].id]) := by
  cases Node.breaks_of_visit failed with
  | calledOff off =>
      rw [Walk.stopsAt_after] at off
      exact ⟨.cancelled _ _ ⟨_, off⟩, Or.inl rfl⟩
  | revisited _ before =>
      have apart := (List.nodup_append.mp (passes.nodup_ids sound)).2.2
      rcases (walk.mem_visited_after stages).mp before with earlier | on_way
      · exact ⟨.revisited _ _ earlier, Or.inl rfl⟩
      · exact absurd rfl (apart _ on_way _ List.mem_cons_self)
  | fails _ fresh fails =>
      have entered := Walk.enter_eq fresh
      rcases fails.cause_or_stopped with cause | ⟨rfl, number, stopped⟩
      · rw [cause.failed_eq]
        exact ⟨.failed last failure _ (by rw [entered]) fails cause.ne_cancelled,
          Or.inr (by rw [entered])⟩
      · rw [Walk.stopsAt_enter, Walk.stopsAt_after] at stopped
        exact ⟨.cancelled _ _ ⟨_, stopped⟩, Or.inr (congrArg Walk.trail entered)⟩
  | overtaken _ _ _ off =>
      rw [Walk.stopsAt_after] at off
      exact ⟨.cancelled _ _ ⟨_, off⟩, Or.inr rfl⟩

/-- Each run on a built graph ends, and no fault of the graph ends it. -/
theorem run_ends [Engine] {definition : Definition} {pairs : List (String × String)} {graph : Graph}
    (built : definition.build (Aliases.ofList pairs) = .ok graph) (walk : Walk) :
    graph.Ends walk (graph.run walk).1 (graph.run walk).2 := by
  have sound := sound_of_build built
  obtain ⟨stages, last, features, result, final, passes, ran, loop, last_visit⟩ :=
    exists_passes_run sound walk
  rw [ran]
  have ⟨ending, trail_eq⟩ : graph.Ending walk result final ∧
      (final.trail = (walk.after stages).trail ∨
        final.trail = (walk.after stages).trail ++ [graph.nodes[last].id]) := by
    rcases last_visit with ⟨stage, rfl, -, -, rfl, rfl⟩ | ⟨failure, rfl, failed⟩
    · exact ⟨.decided _ _, Or.inr (by rw [Walk.after_append]; rfl)⟩
    · exact passes.ending sound failed
  have revisited : ∀ id, result = .error (.revisited id) → id ∈ walk.visited := by
    rintro id rfl
    cases ending with
    | revisited _ _ before => exact before
    | failed _ _ _ _ fails _ => exact fails.raised.elim
  have cancelled : ∀ id, result = .error (.cancelled id) → ∃ check, walk.stopsAt check = true := by
    rintro id rfl
    cases ending with
    | cancelled _ _ off => exact off
    | failed _ _ _ _ _ going => exact absurd rfl (going id)
  exact {
    loop, ending, cancelled, revisited
    entered := passes.exists_entered sound walk trail_eq
    not_deadEnd := by
      rintro id rfl
      cases ending with
      | failed _ _ _ _ fails _ => exact fails.raised
    not_noBranch := by
      rintro id rfl
      cases ending with
      | failed _ _ _ _ fails _ => exact fails.raised
    fresh := fun none_before id found =>
      absurd (none_before ▸ revisited id found) List.not_mem_nil }

section

open scoped Engine.Plain

theorem run_ends_minors :
    ∃ graph, minors.build (Aliases.ofList []) = .ok graph ∧
      let walk : Walk := { features := minor, visited := ["rules"] }
      graph.Ends walk (graph.run walk).1 (graph.run walk).2 := by
  obtain ⟨graph, -, built, -⟩ := exists_decide_minor
  exact ⟨graph, built, run_ends built _⟩

end

end Graph
end RiskGraph

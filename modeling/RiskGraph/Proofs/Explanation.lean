import RiskGraph.Proofs.Journey

/-!
# The explanation of a decision

The trace of a run has one step for each node on the trail.  Each step tells what its node did: the
size of the features given, a comparison that comes to the same if it is made again, the hits of the
stored outcome and the rule that blocks, or the sum as it is published.
-/

namespace RiskGraph

/-- A step tells truly what a node did on its arrival, in a run that began with the features
`given`, left `results` and went on to the node `next`. -/
def TraceStep.Tells [Engine] (definition : Definition) (given : Table Value)
    (results : Table Outcome)
    (arrival : Arrival) (next : Option String) : TraceStep → Prop
  | started id count =>
      arrival.node.task = .start ∧ id = arrival.node.id ∧ count = given.size
  | compared id feature operator threshold value outcome =>
      ∃ predicate, arrival.node.task = .condition predicate ∧ id = arrival.node.id ∧
        feature = predicate.feature ∧ operator = predicate.operator ∧
          threshold = predicate.threshold ∧ arrival.features.get? feature = some value ∧
            Comparison.apply operator value threshold = .ok outcome ∧
              ∃ target, next = some target ∧
                { source := id, target, branch := some outcome } ∈ definition.edges
  | ruled id hits blockedBy =>
      ∃ ruleset outcome, arrival.node.task = .ruleset ruleset ∧ id = arrival.node.id ∧
        results.get? id = some outcome ∧ hits = outcome.hits ∧
          (blockedBy.isSome = true ↔ outcome.blocks = true) ∧
            blockedBy = (arrival.node.blocker arrival.features).map Rule.name
  | scored id output score =>
      ∃ scorecard, arrival.node.task = .scorecard scorecard ∧ id = arrival.node.id ∧
        output = scorecard.output ∧
          (arrival.node.derive arrival.features).get? output = some score
  | ended id tag label =>
      arrival.node.task = .finish ∧ id = arrival.node.id ∧ tag = arrival.node.identity.tag ∧
        label = arrival.node.identity.label

/-- A decision and the walk that led to it are explained by the arrivals on the way. -/
structure Decision.ExplainedBy [Engine] (decision : Decision) (definition : Definition)
    (graph : Graph)
    (given : Table Value) (final : Walk) (way : List Arrival) : Prop where
  /-- The way begins at the start, with the features given. -/
  begins : way.head? = some ⟨graph.nodes[graph.start], given⟩
  /-- An edge leads from each node to the next, and the features are handed on. -/
  leads : way.IsChain (Arrival.Leads definition)
  /-- The features left are those of the last node. -/
  features_eq : ∀ last ∈ way.getLast?, final.features = last.node.derive last.features
  /-- The trail is the way. -/
  trail_eq : final.trail = way.map fun arrival => arrival.node.id
  /-- The decision bears it. -/
  decision_trail_eq : decision.trail = final.trail
  /-- There is a step for each node on the trail. -/
  nodes_eq : final.trace.map TraceStep.node = final.trail
  /-- Each step tells truly what its node did. -/
  tells : ∀ (i : Nat) (step : TraceStep), final.trace[i]? = some step →
    ∃ arrival, way[i]? = some arrival ∧
      step.Tells definition given final.results arrival final.trail[i + 1]?
  /-- The reason is made of the texts of the steps. -/
  reason_eq : decision.reason = " -> ".intercalate (final.trace.map TraceStep.text)

/-- The step that a node leaves tells what it did. -/
theorem Node.Performs.tells [Engine] {node : Node} {features derived : Table Value}
    {outcome : Outcome}
    {step : TraceStep} (performs : node.Performs features outcome step derived)
    {definition : Definition} {given : Table Value} {results : Table Outcome} {next : Option String}
    (ready : ∀ {predicate}, node.task = .condition predicate → predicate.Ready)
    (begun : node.kind = .start → features = given)
    (stored : results.get? node.id = some outcome)
    (onward : ∀ holds, outcome.branch = some holds → ∃ target, next = some target ∧
      { source := node.id, target, branch := some holds } ∈ definition.edges) :
    step.Tells definition given results { node, features } next := by
  have derived_eq := performs.derived_eq
  cases performs with
  | start task_eq =>
      obtain rfl := begun (congrArg Task.kind task_eq)
      exact ⟨task_eq, rfl, rfl⟩
  | finish task_eq => exact ⟨task_eq, rfl, rfl, rfl⟩
  | condition task_eq present evaluated =>
      rw [(ready task_eq).evaluate_eq] at evaluated
      exact ⟨_, task_eq, rfl, rfl, rfl, rfl, present, evaluated, onward _ rfl⟩
  | ruleset task_eq _ hit =>
      refine ⟨_, _, task_eq, rfl, stored, (hits_ruled _ _).symm, ?_, ?_⟩
      · rw [blocks_ruled, Option.isSome_map]
      · rw [blocker, rulesHit_eq task_eq hit]
  | scorecard task_eq =>
      refine ⟨_, task_eq, rfl, rfl, ?_⟩
      rw [← derived_eq, Table.get?_insert_self]

/-- After a stage that chooses a branch comes one at the target of the edge for it. -/
theorem Graph.Passes.exists_target [Engine] {definition : Definition} {aliases : Aliases}
    {graph : Graph}
    {place : Fin graph.size} {found : Table Value} {stages : List (Stage graph)}
    {stage chooser : Stage graph} {i : Nat} {holds : Bool} (sound : graph.Sound)
    (represents : graph.Represents definition aliases)
    (passes : graph.Passes place found stages stage.place stage.found)
    (blocks : stage.outcome.blocks = true) (here : (stages ++ [stage])[i]? = some chooser)
    (branch_eq : chooser.outcome.branch = some holds) :
    ∃ target, ((stages ++ [stage]).map fun stage => stage.node.id)[i + 1]? = some target ∧
      { source := chooser.node.id, target, branch := some holds } ∈ definition.edges := by
  obtain ⟨i_lt, here_eq⟩ := List.getElem?_eq_some_iff.mp here
  rw [List.length_append, List.length_singleton] at i_lt
  have not_last : i ≠ stages.length := by
    rintro rfl
    rw [List.getElem?_concat_length] at here
    obtain rfl := Option.some.inj here
    have unblocked := stage.performs.unblocked_of_branch branch_eq
    rw [unblocked] at blocks
    nomatch blocks
  have next_lt : i + 1 < (stages ++ [stage]).length := by
    rw [List.length_append, List.length_singleton]
    omega
  obtain ⟨way, -⟩ := List.isChain_iff_getElem.mp (passes.isChain sound) i next_lt
  rw [here_eq, branch_eq] at way
  refine ⟨(stages ++ [stage])[i + 1].node.id, ?_, represents.mem_edges way⟩
  rw [List.getElem?_map, List.getElem?_eq_getElem next_lt, Option.map_some]

/-- Each decision on fresh features is explained by its trace. -/
theorem Graph.run_explained [Engine] {definition : Definition} {pairs : List (String × String)}
    {graph : Graph} {features : Table Value} {decision : Decision} {final : Walk}
    (built : definition.build (Aliases.ofList pairs) = .ok graph)
    (ran : graph.run { features } = (.ok decision, final)) :
    ∃ way, decision.ExplainedBy definition graph features final way := by
  have sound := sound_of_build built
  have represents := represents_of_build built
  obtain ⟨stages, stage, passes, blocks, final_eq, rfl⟩ := exists_stages_of_run sound ran
  have distinct := passes.nodup_row_ids sound
  have trail_eq : final.trail = (stages ++ [stage]).map fun stage => stage.node.id := by
    rw [final_eq, Walk.trail_after, List.nil_append]
  have trace_eq : final.trace = (stages ++ [stage]).map Stage.step := by
    rw [final_eq, Walk.trace_after, List.nil_append]
  refine ⟨(stages ++ [stage]).map Stage.arrival, ?_⟩
  constructor
  case begins => exact passes.head?_arrivals
  case leads => exact passes.isChain_arrivals sound represents
  case features_eq =>
    intro last last_eq
    rw [List.map_append, List.map_singleton, List.getLast?_concat, Option.mem_some_iff] at last_eq
    rw [final_eq, Walk.after_append, ← last_eq]
    exact stage.performs.derived_eq
  case trail_eq =>
    rw [trail_eq, List.map_map]
    rfl
  case decision_trail_eq => rfl
  case nodes_eq =>
    rw [trace_eq, trail_eq, List.map_map]
    exact congrArg (List.map · _) (funext fun stage => stage.performs.step_node)
  case tells =>
    intro i step here
    rw [trace_eq, List.getElem?_map, Option.map_eq_some_iff] at here
    obtain ⟨there, here, rfl⟩ := here
    have member : there ∈ stages ++ [stage] := List.mem_of_getElem? here
    refine ⟨there.arrival, by rw [List.getElem?_map, here, Option.map_some], ?_⟩
    refine there.performs.tells (sound.conditions_ready there.place) ?_ ?_ ?_
    · exact fun kind_eq => passes.found_eq sound member ((represents.start_iff _).mp kind_eq)
    · rw [final_eq]
      exact Walk.results_after _ _ distinct member
    · intro holds branch_eq
      rw [trail_eq]
      exact passes.exists_target sound represents blocks here branch_eq
  case reason_eq =>
    rw [Decision.ofOutcome, explain, trace_eq]
    simp

section

open scoped Engine.Plain

theorem Graph.run_explained_minor :
    ∃ graph decision final, minors.build (Aliases.ofList []) = .ok graph ∧
      graph.run { features := minor } = (.ok decision, final) ∧
        ∃ way, decision.ExplainedBy minors graph minor final way := by
  obtain ⟨graph, decision, built, decided⟩ := exists_decide_minor
  have ran : graph.run { features := minor } =
      (.ok decision, (graph.run { features := minor }).2) := Prod.ext decided rfl
  exact ⟨graph, decision, _, built, ran, run_explained built ran⟩

end

end RiskGraph

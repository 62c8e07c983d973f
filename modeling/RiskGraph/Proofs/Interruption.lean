import RiskGraph.Proofs.Journey

/-!
# Runs that fail

A run that fails has completed each node that it entered but the last one, which the failure names.
What the completed nodes have left is all that the walk holds: their outcomes, steps and hits, and
the features given, overwritten by what the scorecards among them have published.
-/

namespace RiskGraph

/-! ## What nodes publish -/

/-- The table with entries set one after the other. -/
def Table.overwrite {α : Type} (table : Table α) (entries : List (String × α)) : Table α :=
  entries.foldl (fun table entry => table.insert entry.1 entry.2) table

theorem Table.overwrite_append {α : Type} (table : Table α) (entries others : List (String × α)) :
    table.overwrite (entries ++ others) = (table.overwrite entries).overwrite others :=
  List.foldl_append

/-- What a node publishes: a scorecard its sum under its output key, and other nodes nothing. -/
def Node.published [Engine] (node : Node) (features : Table Value) : List (String × Value) :=
  match node.task with
  | .scorecard scorecard =>
      match sumScores node.id features scorecard.base scorecard.items with
      | .ok total => [(scorecard.output, Scorecard.valueOf total)]
      | .error _ => []
  | _ => []

namespace Node.Performs

variable [Engine] {node : Node} {features derived : Table Value} {outcome : Outcome}
    {step : TraceStep}

/-- A task leaves the features, overwritten by what it publishes. -/
theorem derived_eq_overwrite (performs : node.Performs features outcome step derived) :
    derived = features.overwrite (node.published features) := by
  cases performs with
  | scorecard task_eq summed =>
      simp only [published, task_eq, summed]
      rfl
  | start task_eq | finish task_eq | condition task_eq | ruleset task_eq =>
      simp only [published, task_eq]
      rfl

/-- A scorecard publishes a sum. -/
theorem exists_published_eq (performs : node.Performs features outcome step derived)
    {scorecard : Scorecard} (task_eq : node.task = .scorecard scorecard) :
    ∃ total, sumScores node.id features scorecard.base scorecard.items = .ok total ∧
      node.published features = [(scorecard.output, Scorecard.valueOf total)] := by
  cases performs with
  | @scorecard _ total same_task summed =>
      obtain rfl := Task.scorecard.inj (same_task.symm.trans task_eq)
      exact ⟨total, summed, by simp only [published, task_eq, summed]⟩
  | start other | finish other | condition other | ruleset other =>
      nomatch other.symm.trans task_eq

end Node.Performs

/-- A passage leaves the features, overwritten by what its nodes publish. -/
theorem Graph.Passes.features_eq_overwrite [Engine] {graph : Graph} {place last : Fin graph.size}
    {found features : Table Value} {stages : List (Stage graph)}
    (passes : graph.Passes place found stages last features) :
    features = found.overwrite ((stages.map Stage.arrival).flatMap fun arrival =>
      arrival.node.published arrival.features) := by
  induction passes with
  | stay => rfl
  | @pass stage _ _ _ _ _ _ _ induction =>
      rw [List.map_cons, List.flatMap_cons, Table.overwrite_append, induction,
        stage.performs.derived_eq_overwrite]
      rfl

/-! ## Failures -/

/-- Nothing of a walk differs but what entering a node changes. -/
structure Walk.Keeps (walk left : Walk) : Prop where
  features_eq : left.features = walk.features
  results_eq : left.results = walk.results
  hits_eq : left.hits = walk.hits
  trace_eq : left.trace = walk.trace

theorem Walk.keeps_refl (walk : Walk) : walk.Keeps walk :=
  ⟨rfl, rfl, rfl, rfl⟩

theorem Walk.keeps_enter (walk : Walk) (id : String) : walk.Keeps (walk.enter id) := by
  unfold enter
  split <;> exact ⟨rfl, rfl, rfl, rfl⟩

/-- A task that fails has changed nothing but perhaps that the walk is called off. -/
theorem Walk.keeps_failed (walk : Walk) (failure : Failure) : walk.Keeps (walk.failed failure) := by
  cases failure <;> exact ⟨rfl, rfl, rfl, rfl⟩

theorem Walk.Keeps.trans {walk middle left : Walk} (first : walk.Keeps middle)
    (second : middle.Keeps left) : walk.Keeps left :=
  ⟨second.features_eq.trans first.features_eq, second.results_eq.trans first.results_eq,
    second.hits_eq.trans first.hits_eq, second.trace_eq.trans first.trace_eq⟩

/-- The request is called off while a node is at work, which is found when its task is done. -/
structure Node.Overtaken (node : Node) (walk : Walk) (failure : Failure) : Prop where
  failure_eq : failure = .cancelled node.id
  going : walk.stopsAt (.entering node.id) = false
  off : walk.stopsAt (.leaving node.id) = true

/-- A visit that fails has done no more than enter the node, unless it is overtaken. -/
theorem Node.keeps_of_visit [Engine] {node : Node} {walk left : Walk} {failure : Failure}
    (failed : node.visit walk = (.error failure, left)) :
    walk.Keeps left ∨ node.Overtaken walk failure := by
  cases breaks_of_visit failed with
  | calledOff => exact .inl (walk.keeps_failed (.cancelled node.id))
  | revisited => exact .inl walk.keeps_refl
  | fails =>
      have entered := walk.keeps_enter node.id
      exact .inl (entered.trans ((walk.enter node.id).keeps_failed failure))
  | overtaken going _ _ off => exact .inr ⟨rfl, going, off⟩

/-- A run of a fresh walk that fails is a passage to a node that fails on being entered. -/
theorem Graph.exists_stages_of_failure [Engine] {graph : Graph} (sound : graph.Sound)
    {features : Table Value} {failure : Failure} {final : Walk}
    (ran : graph.run { features } = (.error failure, final)) :
    ∃ (stages : List (Stage graph)) (last : Fin graph.size) (found : Table Value),
      graph.Passes graph.start features stages last found ∧
        final = (Walk.after { features } stages).enter graph.nodes[last].id ∧
          graph.nodes[last].id ∉ (Walk.after { features } stages).visited ∧
            graph.nodes[last].Fails final failure := by
  obtain ⟨stages, last, found, result, same_final, passes, same_run, -, last_visit⟩ :=
    exists_passes_run sound { features }
  cases same_run.symm.trans ran
  rcases last_visit with ⟨_, _, _, _, _, decided⟩ | ⟨same_failure, failure_eq, failed⟩
  · nomatch decided
  cases failure_eq
  refine ⟨stages, last, found, passes, ?_⟩
  -- nothing calls a fresh walk off, and a passage does not either
  have going : ∀ check, (Walk.after { features } stages).stopsAt check = false := fun check => by
    rw [Walk.stopsAt_after]
    rfl
  cases Node.breaks_of_visit failed with
  | calledOff off => nomatch (going _).symm.trans off
  | overtaken _ _ _ off => nomatch (going _).symm.trans off
  | revisited _ before =>
      have apart := (List.nodup_append.mp (passes.nodup_ids sound)).2.2
      rcases (Walk.mem_visited_after _ stages).mp before with earlier | on_way
      · nomatch earlier
      · exact absurd rfl (apart _ on_way _ List.mem_cons_self)
  | fails _ unvisited fails =>
      have final_eq : ((Walk.after { features } stages).enter graph.nodes[last].id).failed failure =
          (Walk.after { features } stages).enter graph.nodes[last].id := by
        rcases fails.cause_or_stopped with cause | ⟨-, rule, off⟩
        · exact cause.failed_eq _
        · rw [Walk.stopsAt_enter, going] at off
          nomatch off
      rw [final_eq]
      exact ⟨rfl, unvisited, fails⟩

/-- A failure ends a run at a node, and what the run leaves is what the nodes before it on the way
have come to. -/
structure Failure.Interrupts [Engine] (failure : Failure) (definition : Definition) (graph : Graph)
    (given : Table Value) (final : Walk) (way : List Arrival) (last : Arrival) : Prop where
  /-- The way begins at the start, with the features given. -/
  begins : (way ++ [last]).head? = some ⟨graph.nodes[graph.start], given⟩
  /-- An edge leads from each node to the next, for the branch chosen with the features there. -/
  leads : (way ++ [last]).IsChain (Arrival.Leads definition)
  /-- The failure names the last node, which raises it. -/
  raised : failure.node = last.node.id ∧ last.node.Fails final failure
  /-- The trail is the way and ends with the node named. -/
  trail_eq : final.trail = (way.map fun arrival => arrival.node.id) ++ [failure.node]
  /-- No node is on it twice. -/
  distinct : final.trail.Nodup
  /-- The node named is the current one. -/
  current_eq : final.current = some failure.node
  /-- Outcomes are stored for exactly the nodes before it. -/
  results_iff : ∀ id, (final.results.get? id).isSome = true ↔
    id ∈ way.map fun arrival => arrival.node.id
  /-- There is a step for each node before it, and none for it. -/
  nodes_eq : final.trace.map TraceStep.node = way.map fun arrival => arrival.node.id
  /-- The hits are those of the outcomes stored, one after the other. -/
  hits_eq : final.hits = final.trail.flatMap fun id =>
    ((final.results.get? id).map Outcome.hits).getD []
  /-- The features are those given, overwritten by what the nodes before it publish. -/
  features_eq : final.features = given.overwrite (way.flatMap fun arrival =>
    arrival.node.published arrival.features)
  /-- Each scorecard before it has published its sum. -/
  published : ∀ arrival ∈ way, ∀ scorecard, arrival.node.task = .scorecard scorecard →
    ∃ total, sumScores arrival.node.id arrival.features scorecard.base scorecard.items = .ok total ∧
      arrival.node.published arrival.features = [(scorecard.output, Scorecard.valueOf total)]

/-- The hits of a row of distinct stages are those of their outcomes as they are stored. -/
theorem Walk.flatMap_stored_hits [Engine] {graph : Graph} (walk : Walk)
    {stages : List (Stage graph)}
    (distinct : (stages.map fun stage => stage.node.id).Nodup) :
    ((stages.map fun stage => stage.node.id).flatMap fun id =>
        (((walk.after stages).results.get? id).map Outcome.hits).getD []) =
      stages.flatMap fun stage => stage.outcome.hits := by
  rw [List.flatMap_map]
  refine List.flatMap_congr fun stage member => ?_
  rw [walk.results_after stages distinct member]
  rfl

/-- A run that fails leaves what the nodes before the failing one have come to and nothing else.  A
node that fails, in whatever walk, leaves nothing: its task at most the mark that the walk is called
off, and a visit of it no more than its entry, unless the request is called off during the task. -/
theorem Graph.run_interrupted [Engine] :
    (∀ {definition : Definition} {pairs : List (String × String)} {graph : Graph}
      {features : Table Value} {failure : Failure} {final : Walk},
      definition.build (Aliases.ofList pairs) = .ok graph →
        graph.run { features } = (.error failure, final) →
          ∃ way last, failure.Interrupts definition graph features final way last) ∧
      ∀ (node : Node) (walk left : Walk) (failure : Failure),
        (node.perform walk = (.error failure, left) →
          walk.Keeps left ∧ (left = walk ∨ node.Stopped walk failure ∧ left = walk.cancel)) ∧
          (node.visit walk = (.error failure, left) →
            walk.Keeps left ∨ node.Overtaken walk failure) := by
  refine ⟨?_, fun node walk left failure => ⟨fun failed => ?_, Node.keeps_of_visit⟩⟩
  swap
  · obtain ⟨rfl, cause | stopped⟩ := Node.perform_error failed
    · exact ⟨walk.keeps_failed failure, .inl (cause.failed_eq walk)⟩
    · refine ⟨walk.keeps_failed failure, .inr ⟨stopped, ?_⟩⟩
      rw [stopped.failure_eq, Walk.failed]
  intro definition pairs graph features failure final built ran
  have sound := sound_of_build built
  have represents := represents_of_build built
  obtain ⟨stages, last, found, passes, final_eq, unvisited, fails⟩ :=
    exists_stages_of_failure sound ran
  -- the stages have left all that the walk holds; the last node has only been entered
  have keeps := (Walk.after { features } stages).keeps_enter graph.nodes[last].id
  rw [← final_eq] at keeps
  rw [Walk.enter_eq unvisited] at final_eq
  have distinct := passes.nodup_ids sound
  have names := fails.raisedBy.node_eq
  have ids_eq : ((stages.map Stage.arrival).map fun arrival => arrival.node.id) =
      stages.map fun stage => stage.node.id := by
    rw [List.map_map]
    rfl
  have trail_eq : final.trail = (stages.map fun stage => stage.node.id) ++ [failure.node] := by
    rw [final_eq, names]
    exact congrArg (· ++ _) (Walk.trail_after _ stages)
  have stored : ∀ id, id ∉ (stages.map fun stage => stage.node.id) →
      final.results.get? id = none := by
    intro id apart
    rw [keeps.results_eq, Walk.results_after_of_not_mem _ _ apart]
    rfl
  refine ⟨stages.map Stage.arrival, .mk graph.nodes[last] found, ?_⟩
  constructor
  case begins => exact passes.head?_way
  case leads => exact passes.isChain_way sound represents
  case raised => exact ⟨names, fails⟩
  case trail_eq => rw [ids_eq, trail_eq]
  case distinct => rwa [trail_eq, names]
  case current_eq => rw [final_eq, names]
  case results_iff =>
    intro id
    rw [ids_eq]
    constructor
    · intro found
      by_contra apart
      rw [stored id apart] at found
      nomatch found
    · intro member
      obtain ⟨stage, on_way, rfl⟩ := List.mem_map.mp member
      rw [keeps.results_eq, Walk.results_after _ _ distinct.of_append_left on_way]
      rfl
  case nodes_eq =>
    rw [ids_eq, keeps.trace_eq, Walk.trace_after, List.nil_append, List.map_map]
    exact congrArg (List.map · _) (funext fun stage => stage.performs.step_node)
  case hits_eq =>
    have last_apart : failure.node ∉ stages.map fun stage => stage.node.id := fun member =>
      (List.nodup_append.mp distinct).2.2 _ member _ List.mem_cons_self names
    rw [trail_eq, List.flatMap_append, List.flatMap_singleton, stored _ last_apart,
      keeps.results_eq, Walk.flatMap_stored_hits _ distinct.of_append_left, keeps.hits_eq,
      Walk.hits_after]
    simp
  case features_eq =>
    rw [keeps.features_eq, passes.features_after]
    exact passes.features_eq_overwrite
  case published =>
    intro arrival member scorecard task_eq
    obtain ⟨stage, -, rfl⟩ := List.mem_map.mp member
    exact stage.performs.exists_published_eq task_eq

/-- Minors get a score and a hit, and are then asked for an income. -/
def unearned : Definition where
  nodes := [
    { id := "request", kind := "start" },
    { id := "risk", kind := "scorecard"
      settings := .object [
        ("items", .array [.object (comparing "age" "LT" 18 ++ [("score", .number (.integer 40))])]),
        ("output", .text "score")] },
    { id := "rules", kind := "ruleset"
      settings := .object [
        ("rules", .array [.object [
          ("conditions", .array [.object (comparing "score" "GT" 20)]),
          ("name", .text "minor")]])] },
    { id := "means", kind := "condition", settings := .object (comparing "income" "GT" 0) },
    { id := "pass", kind := "end" },
    { id := "stop", kind := "end" }]
  edges := [
    { source := "request", target := "risk" },
    { source := "risk", target := "rules" },
    { source := "rules", target := "means" },
    { source := "means", target := "pass", branch := some true },
    { source := "means", target := "stop", branch := some false }]

/-- A ruleset with one rule. -/
def lookout : Node where
  identity := { id := "lookout", name := "lookout", kind := "ruleset", tag := "", label := "" }
  task := .ruleset { rules := [{ name := "any", conditions := [] }] }

section

open scoped Engine.Plain

theorem Graph.run_interrupted_unearned :
    ∃ graph final, unearned.build (Aliases.ofList []) = .ok graph ∧
      graph.run { features := minor } = (.error (.missingFeature "means" "income"), final) ∧
        (∃ way last, (Failure.missingFeature "means" "income").Interrupts unearned graph minor final
          way last) ∧
          ∃ left, lookout.perform { features := minor, cancelled := true } =
            (.error (.cancelled "lookout"), left) ∧
              Walk.Keeps { features := minor, cancelled := true } left ∧
              ∃ left, lookout.visit { features := minor, cancelled := true } =
                (.error (.cancelled "lookout"), left) ∧
                  (Walk.Keeps { features := minor, cancelled := true } left ∨
                    lookout.Overtaken { features := minor, cancelled := true }
                      (.cancelled "lookout")) := by
  have fails : ((unearned.build (Aliases.ofList [])).toOption.map fun graph =>
      graph.decide minor) = some (.error (.missingFeature "means" "income")) := by
    decide +kernel
  obtain ⟨graph, found, failed⟩ := Option.map_eq_some_iff.mp fails
  have built := toOption_eq_some.mp found
  have ran : graph.run { features := minor } =
      (.error (.missingFeature "means" "income"), (graph.run { features := minor }).2) :=
    Prod.ext failed rfl
  have performed : lookout.perform { features := minor, cancelled := true } =
      (.error (.cancelled "lookout"), { features := minor, cancelled := true }) := rfl
  have visited : lookout.visit { features := minor, cancelled := true } =
      (.error (.cancelled "lookout"), { features := minor, cancelled := true }) := rfl
  exact ⟨graph, _, built, ran, run_interrupted.1 built ran, _, performed,
    ((run_interrupted.2 _ _ _ _).1 performed).1, _, visited, (run_interrupted.2 _ _ _ _).2 visited⟩

end

end RiskGraph

import RiskGraph.Proofs.Run

/-!
# Walks in their owner's hands

A walk may be used again: its owner changes it by hand, has single nodes work on it and runs it on
one graph after the other, to an end or to a failure.  All of this keeps the entries of the walk
consistent with each other, and a run only adds to what it finds.
-/

namespace RiskGraph

open Relation

/-! ## Consistent entries -/

namespace Walk

/-- The three records of the nodes entered agree. -/
structure Consistent (walk : Walk) : Prop where
  /-- No node has been entered twice. -/
  distinct : walk.trail.Nodup
  /-- The set of nodes entered is that of the nodes on the trail. -/
  mem_visited_iff : ∀ id, id ∈ walk.visited ↔ id ∈ walk.trail
  /-- The current node is the last one on the trail. -/
  current_eq : walk.current = walk.trail.getLast?

variable {walk left : Walk}

theorem consistent_fresh (features : Table Value) : Consistent { features } where
  distinct := List.nodup_nil
  mem_visited_iff := fun _ => Iff.rfl
  current_eq := rfl

theorem Consistent.of_sameEntries (consistent : walk.Consistent)
    (same : walk.SameEntries left) : left.Consistent where
  distinct := same.trail_eq ▸ consistent.distinct
  mem_visited_iff := by
    rw [same.trail_eq, same.visited_eq]
    exact consistent.mem_visited_iff
  current_eq := by
    rw [same.trail_eq, same.current_eq]
    exact consistent.current_eq

/-- Entries that grow by one new node stay consistent. -/
theorem Consistent.of_entry {id : String} (consistent : walk.Consistent)
    (unvisited : id ∉ walk.visited) (trail_eq : left.trail = walk.trail ++ [id])
    (visited_eq : left.visited = id :: walk.visited) (current_eq : left.current = some id) :
    left.Consistent where
  distinct := by
    rw [trail_eq, ← List.concat_eq_append, List.nodup_concat]
    exact ⟨mt (consistent.mem_visited_iff id).mpr unvisited, consistent.distinct⟩
  mem_visited_iff := by
    intro other
    rw [trail_eq, visited_eq, List.mem_cons, List.mem_append, List.mem_singleton,
      consistent.mem_visited_iff, or_comm]
  current_eq := by rw [trail_eq, current_eq, List.getLast?_concat]

theorem Consistent.enter (consistent : walk.Consistent) (id : String) :
    (walk.enter id).Consistent := by
  by_cases visited : id ∈ walk.visited
  · simpa [Walk.enter, hasVisited, visited] using consistent
  · rw [enter_eq visited]
    exact consistent.of_entry visited rfl rfl rfl

end Walk

/-- A task enters no node, whether or not the walk has what it needs. -/
theorem Node.sameEntries_perform [Engine] (node : Node) (walk : Walk) :
    walk.SameEntries (node.perform walk).2 := by
  unfold perform
  split
  · exact ⟨rfl, rfl, rfl⟩
  · exact ⟨rfl, rfl, rfl⟩
  · unfold branch
    split
    · exact ⟨rfl, rfl, rfl⟩
    · split <;> exact ⟨rfl, rfl, rfl⟩
  · unfold tryRules
    split
    · exact walk.sameEntries_failed _
    · exact ⟨rfl, rfl, rfl⟩
  · unfold score
    split <;> exact ⟨rfl, rfl, rfl⟩

theorem Node.sameEntries_settle (node : Node) (outcome : Outcome) (walk : Walk) :
    walk.SameEntries (node.settle outcome walk) := by
  unfold settle
  split <;> exact ⟨rfl, rfl, rfl⟩

/-! ## What a run adds -/

/-- A walk has come from another through nodes of a graph. -/
structure Walk.Extends (walk : Walk) (graph : Graph) (final : Walk) : Prop where
  trail : walk.trail <+: final.trail
  trace : walk.trace <+: final.trace
  hits : walk.hits <+: final.hits
  /-- Only nodes newly entered have another outcome. -/
  results : ∀ id, final.results.get? id ≠ walk.results.get? id →
    id ∈ final.trail ∧ id ∉ walk.trail
  /-- Only the outputs of scorecards newly entered have another value. -/
  features : ∀ key, final.features.get? key ≠ walk.features.get? key →
    ∃ (place : Fin graph.size) (scorecard : Scorecard),
      graph.nodes[place].task = .scorecard scorecard ∧ scorecard.output = key ∧
        graph.nodes[place].id ∈ final.trail ∧ graph.nodes[place].id ∉ walk.trail

namespace Walk.Extends

variable {graph : Graph} {walk left final : Walk}

theorem refl (walk : Walk) (graph : Graph) : walk.Extends graph walk where
  trail := List.prefix_refl _
  trace := List.prefix_refl _
  hits := List.prefix_refl _
  results := fun _ changed => absurd rfl changed
  features := fun _ changed => absurd rfl changed

/-- What is new after the first part of the way is still there after the second, and what is new
after the second was not there before the first. -/
theorem trans (first : walk.Extends graph left) (second : left.Extends graph final) :
    walk.Extends graph final where
  trail := first.trail.trans second.trail
  trace := first.trace.trans second.trace
  hits := first.hits.trans second.hits
  results := by
    intro id changed
    by_cases kept : left.results.get? id = walk.results.get? id
    · obtain ⟨entered, new⟩ := second.results id (kept ▸ changed)
      exact ⟨entered, mt (first.trail.mem ·) new⟩
    · obtain ⟨entered, new⟩ := first.results id kept
      exact ⟨second.trail.mem entered, new⟩
  features := by
    intro key changed
    by_cases kept : left.features.get? key = walk.features.get? key
    · obtain ⟨place, scorecard, task_eq, output_eq, entered, new⟩ :=
        second.features key (kept ▸ changed)
      exact ⟨place, scorecard, task_eq, output_eq, entered, mt (first.trail.mem ·) new⟩
    · obtain ⟨place, scorecard, task_eq, output_eq, entered, new⟩ := first.features key kept
      exact ⟨place, scorecard, task_eq, output_eq, second.trail.mem entered, new⟩

end Walk.Extends

/-- A task leaves each feature that is not the output of its scorecard. -/
theorem Node.Performs.get?_derived [Engine] {node : Node} {features derived : Table Value}
    {outcome : Outcome} {step : TraceStep}
    (performs : node.Performs features outcome step derived) {key : String}
    (changed : derived.get? key ≠ features.get? key) :
    ∃ scorecard, node.task = .scorecard scorecard ∧ scorecard.output = key := by
  cases performs with
  | @scorecard scorecard _ task_eq =>
      refine ⟨scorecard, task_eq, ?_⟩
      by_contra other
      exact changed (Table.get?_insert_of_ne _ (Ne.symm other) _)
  | start | finish | condition | ruleset => exact absurd rfl changed

theorem Walk.Consistent.visit [Engine] {walk : Walk} (consistent : walk.Consistent) (node : Node) :
    (node.visit walk).2.Consistent := by
  rcases visited : node.visit walk with ⟨failure | outcome, left⟩
  · cases Node.breaks_of_visit visited with
    | calledOff => exact consistent.of_sameEntries ⟨rfl, rfl, rfl⟩
    | revisited => exact consistent
    | fails =>
        exact (consistent.enter node.id).of_sameEntries (Walk.sameEntries_failed _ failure)
    | overtaken _ fresh => exact consistent.of_entry fresh rfl rfl rfl
  · obtain ⟨-, unvisited, step, features, -, rfl⟩ := Node.visit_eq_ok visited
    exact consistent.of_entry unvisited rfl rfl rfl

namespace Graph

variable [Engine] {graph : Graph} {walk : Walk}

/-- A visit adds its node and what it comes to, if it does not fail before. -/
theorem extends_visit (consistent : walk.Consistent) (place : Fin graph.size) :
    walk.Extends graph (graph.nodes[place].visit walk).2 := by
  have entered : graph.nodes[place].id ∈ walk.trail ++ [graph.nodes[place].id] :=
    List.mem_append_right _ List.mem_cons_self
  have new := mt (consistent.mem_visited_iff graph.nodes[place].id).mpr
  rcases visited : graph.nodes[place].visit walk with ⟨failure | outcome, left⟩
  · cases Node.breaks_of_visit visited with
    | calledOff =>
        exact ⟨List.prefix_refl _, List.prefix_refl _, List.prefix_refl _,
          fun _ changed => absurd rfl changed, fun _ changed => absurd rfl changed⟩
    | revisited => exact .refl _ graph
    | fails _ fresh =>
        rw [Walk.enter_eq fresh]
        cases failure <;> exact ⟨List.prefix_append _ _, List.prefix_refl _, List.prefix_refl _,
          fun _ changed => absurd rfl changed, fun _ changed => absurd rfl changed⟩
    | overtaken _ fresh performs =>
        refine ⟨List.prefix_append _ _, List.prefix_append _ _, List.prefix_refl _,
          fun _ changed => absurd rfl changed, fun key changed => ?_⟩
        obtain ⟨scorecard, task_eq, output_eq⟩ := performs.get?_derived changed
        exact ⟨place, scorecard, task_eq, output_eq, entered, new fresh⟩
  · obtain ⟨-, unvisited, step, features, performs, rfl⟩ := Node.visit_eq_ok visited
    constructor
    case trail => exact List.prefix_append _ _
    case trace => exact List.prefix_append _ _
    case hits => exact List.prefix_append _ _
    case results =>
      intro id changed
      by_cases same : id = graph.nodes[place].id
      · exact same ▸ ⟨entered, new unvisited⟩
      · exact absurd (Table.get?_insert_of_ne _ same _) changed
    case features =>
      intro key changed
      obtain ⟨scorecard, task_eq, output_eq⟩ := performs.get?_derived changed
      exact ⟨place, scorecard, task_eq, output_eq, entered, new unvisited⟩

/-- A turn does to the walk what its visit does. -/
theorem turn_snd (graph : Graph) (place : Fin graph.size) (walk : Walk) :
    (graph.turn place walk).2 = (graph.nodes[place].visit walk).2 := by
  simp only [turn]
  rcases graph.nodes[place].visit walk with ⟨failure | outcome, left⟩
  · rfl
  · dsimp only
    split
    · rfl
    · split <;> rfl

/-- A run from a node keeps the entries consistent, and adds to the walk. -/
theorem runFrom_extends (graph : Graph) (turns : Nat) (place : Fin graph.size) {walk : Walk}
    (consistent : walk.Consistent) :
    (graph.runFrom turns place walk).2.Consistent ∧
      walk.Extends graph (graph.runFrom turns place walk).2 := by
  induction turns generalizing place walk with
  | zero => exact ⟨consistent, .refl walk graph⟩
  | succ turns induction =>
      have kept := consistent.visit graph.nodes[place]
      have added := extends_visit consistent place
      rw [← turn_snd] at kept added
      rcases turned : graph.turn place walk with ⟨result | target, left⟩
      · rw [turned] at kept added
        simpa only [runFrom, turned] using And.intro kept added
      · rw [turned] at kept added
        obtain ⟨later_kept, later_added⟩ := induction target kept
        simpa only [runFrom, turned] using And.intro later_kept (added.trans later_added)

/-! ## Refusals -/

/-- A run is over at once if the start cannot be visited. -/
theorem run_of_visit_start {failure : Failure} {left : Walk}
    (failed : graph.nodes[graph.start].visit walk = (.error failure, left)) :
    graph.run walk = (.error failure, left) := by
  simp only [run, runFrom, turn, failed]

theorem run_of_stopped (graph : Graph)
    (off : walk.stopsAt (.entering graph.nodes[graph.start].id) = true) :
    graph.run walk = (.error (.cancelled graph.nodes[graph.start].id), walk.cancel) :=
  run_of_visit_start (by simp only [Node.visit, off, if_true])

theorem run_of_visited (live : walk.stopsAt (.entering graph.nodes[graph.start].id) = false)
    (visited : graph.nodes[graph.start].id ∈ walk.visited) :
    graph.run walk = (.error (.revisited graph.nodes[graph.start].id), walk) :=
  run_of_visit_start (by
    have visited := List.contains_iff_mem.mpr visited
    simp only [Node.visit, Walk.hasVisited, live, visited, Bool.false_eq_true, if_false, if_true])

end Graph

/-! ## Reachable walks -/

/-- One thing that may be done with a walk.  The check of a node only reads it. -/
inductive Walk.Move [Engine] (walk : Walk) : Walk → Prop
  | publish (key : String) (value : Value) : Move walk (walk.publish key value)
  | store (id : String) (outcome : Outcome) : Move walk (walk.store id outcome)
  | enter (id : String) : Move walk (walk.enter id)
  | addHits (hits : List String) : Move walk (walk.addHits hits)
  | record (step : TraceStep) : Move walk (walk.record step)
  | cancel : Move walk walk.cancel
  /-- The request is going to be called off by certain checks. -/
  | schedule (interrupts : Check → Bool) : Move walk { walk with interrupts }
  | perform (node : Node) : Move walk (node.perform walk).2
  | settle (node : Node) (outcome : Outcome) : Move walk (node.settle outcome walk)
  | run {definition : Definition} {pairs : List (String × String)} {graph : Graph}
      (built : definition.build (Aliases.ofList pairs) = .ok graph) : Move walk (graph.run walk).2

/-- A walk is reachable that began with features only and has been through some moves. -/
def Walk.Reachable [Engine] (walk : Walk) : Prop :=
  ∃ features, ReflTransGen Walk.Move { features } walk

theorem Walk.Consistent.move [Engine] {walk left : Walk} (consistent : walk.Consistent)
    (moved : walk.Move left) : left.Consistent := by
  cases moved with
  | publish | store | addHits | record | cancel | schedule =>
      exact consistent.of_sameEntries ⟨rfl, rfl, rfl⟩
  | enter id => exact consistent.enter id
  | perform node => exact consistent.of_sameEntries (node.sameEntries_perform walk)
  | settle node outcome => exact consistent.of_sameEntries (node.sameEntries_settle outcome walk)
  | run => exact (Graph.runFrom_extends _ _ _ consistent).1

theorem Walk.Reachable.consistent [Engine] {walk : Walk} (reachable : walk.Reachable) :
    walk.Consistent := by
  obtain ⟨features, moves⟩ := reachable
  induction moves with
  | refl => exact consistent_fresh features
  | tail _ moved induction => exact induction.move moved

/-- What can be said of a run that takes up a walk. -/
structure Graph.TakesUp [Engine] (graph : Graph) (walk : Walk) : Prop where
  /-- It only adds to the walk. -/
  further : walk.Extends graph (graph.run walk).2
  /-- A walk that was called off is not begun. -/
  off : walk.cancelled = true → ∀ place : Fin graph.size, graph.nodes[place].kind = .start →
    graph.run walk = (.error (.cancelled graph.nodes[place].id), walk)
  /-- Nor is one that is found called off at once, and then it is. -/
  stopped : ∀ place : Fin graph.size, graph.nodes[place].kind = .start →
    walk.stopsAt (.entering graph.nodes[place].id) = true →
      graph.run walk = (.error (.cancelled graph.nodes[place].id), walk.cancel)
  /-- A walk that has entered the start is not begun again. -/
  again : ∀ place : Fin graph.size, graph.nodes[place].kind = .start →
    walk.stopsAt (.entering graph.nodes[place].id) = false → graph.nodes[place].id ∈ walk.visited →
      graph.run walk = (.error (.revisited graph.nodes[place].id), walk)

/-- Whatever a walk has been through, its entries are consistent and a run only adds to it. -/
theorem Walk.Reachable.takenUp [Engine] {walk : Walk} (reachable : walk.Reachable) :
    walk.Consistent ∧ ∀ {definition : Definition} {pairs : List (String × String)} {graph : Graph},
      definition.build (Aliases.ofList pairs) = .ok graph → graph.TakesUp walk := by
  refine ⟨reachable.consistent, ?_⟩
  intro definition pairs graph built
  have represents := Graph.represents_of_build built
  constructor
  case further => exact (graph.runFrom_extends _ _ reachable.consistent).2
  case off =>
    intro off place starts
    obtain rfl := (represents.start_iff place).mp starts
    have same : walk.cancel = walk := by rw [Walk.cancel, ← off]
    rw [graph.run_of_stopped (by rw [Walk.stopsAt, off, Bool.true_or]), same]
  case stopped =>
    intro place starts off
    obtain rfl := (represents.start_iff place).mp starts
    exact graph.run_of_stopped off
  case again =>
    intro place starts live visited
    obtain rfl := (represents.start_iff place).mp starts
    exact Graph.run_of_visited live visited

section

open scoped Engine.Plain

/-- A walk that has been run is not begun again, and called off it is not begun either. -/
theorem Walk.Reachable.takenUp_minors :
    ∃ graph walk, minors.build (Aliases.ofList []) = .ok graph ∧ walk.Consistent ∧
      graph.TakesUp walk ∧ graph.run walk = (.error (.revisited "request"), walk) ∧
        graph.TakesUp walk.cancel ∧
          graph.run walk.cancel = (.error (.cancelled "request"), walk.cancel) := by
  have computed : ((minors.build (Aliases.ofList [])).toOption.map fun graph =>
      let start := graph.nodes[graph.start]
      let walk := (graph.run { features := minor }).2
      (start.kind, start.id, walk.stopsAt (.entering start.id), walk.visited.contains start.id)) =
        some (.start, "request", false, true) := by
    decide +kernel
  obtain ⟨graph, found, facts⟩ := Option.map_eq_some_iff.mp computed
  simp only [Prod.mk.injEq, List.contains_iff_mem] at facts
  obtain ⟨starts, id_eq, live, visited⟩ := facts
  have built := toOption_eq_some.mp found
  have ran : Walk.Reachable (graph.run { features := minor }).2 := ⟨minor, .single (.run built)⟩
  have cancelled : Walk.Reachable (graph.run { features := minor }).2.cancel :=
    ⟨minor, .tail (.single (.run built)) .cancel⟩
  have ⟨consistent, takesUp⟩ := ran.takenUp
  have ⟨_, refuses⟩ := cancelled.takenUp
  have again := (takesUp built).again graph.start starts live visited
  have off := (refuses built).off rfl graph.start starts
  rw [id_eq] at again off
  exact ⟨graph, _, built, consistent, takesUp built, again, refuses built, off⟩

end

end RiskGraph

import RiskGraph.Proofs.Run

/-!
# The way to a decision

A run that comes to a decision is a row of arrivals at nodes, each with the features as they stand
on entry.  What a node does with these is said here outright: which features it leaves, which rules
hit, which of them blocks and for which branch the node is left.
-/

namespace RiskGraph

/-! ## What a node makes of features -/

namespace Node

variable [Engine] (node : Node) (features : Table Value)

/-- The features that a node leaves; a scorecard adds its sum. -/
def derive : Table Value :=
  match node.task with
  | .scorecard scorecard =>
      match sumScores node.id features scorecard.base scorecard.items with
      | .ok total => features.insert scorecard.output (Scorecard.valueOf total)
      | .error _ => features
  | _ => features

/-- The rules of a node that hit, in order. -/
def rulesHit : List Rule :=
  match node.task with
  | .ruleset ruleset => ruleset.rules.filter fun rule => rule.hits node.id features = .ok true
  | _ => []

/-- The first rule that hits and blocks. -/
def blocker : Option Rule :=
  (node.rulesHit features).find? fun rule => rule.verdict.blocks

/-- The branch for which a node is left; only a condition chooses one, by its predicate. -/
def Chooses (branch : Option Bool) : Prop :=
  match node.task with
  | .condition predicate =>
      ∃ value holds, features.get? predicate.feature = some value ∧
        predicate.evaluate value = .ok holds ∧ branch = some holds
  | _ => branch = none

end Node

theorem freeHits_eq_filter [Engine] {node : String} {features : Table Value} {rules hit : List Rule}
    (succeeded : freeHits node features rules = .ok hit) :
    hit = rules.filter fun rule => rule.hits node features = .ok true := by
  induction rules generalizing hit with
  | nil => exact (Except.ok.inj succeeded).symm
  | cons rule rules induction =>
      rw [freeHits_cons, bind_eq_ok] at succeeded
      obtain ⟨holds, first, rest⟩ := succeeded
      obtain ⟨others, later, equal⟩ := bind_eq_ok.mp rest
      obtain rfl := induction later
      cases equal
      cases holds <;> simp [first]

theorem Node.rulesHit_eq [Engine] {node : Node} {features : Table Value} {ruleset : Ruleset}
    {rules : List Rule} (task_eq : node.task = .ruleset ruleset)
    (hit : freeHits node.id features ruleset.rules = .ok rules) :
    node.rulesHit features = rules := by
  rw [rulesHit, task_eq, freeHits_eq_filter hit]

namespace Node.Performs

variable [Engine] {node : Node} {features derived : Table Value} {outcome : Outcome}
    {step : TraceStep}

theorem derived_eq (performs : node.Performs features outcome step derived) :
    derived = node.derive features := by
  cases performs with
  | scorecard task_eq summed => simp [derive, task_eq, summed]
  | start task_eq | finish task_eq | condition task_eq | ruleset task_eq => simp [derive, task_eq]

theorem chooses (performs : node.Performs features outcome step derived) :
    node.Chooses features outcome.branch := by
  cases performs with
  | condition task_eq present evaluated =>
      simp only [Chooses, task_eq]
      exact ⟨_, _, present, evaluated, rfl⟩
  | start task_eq | finish task_eq | scorecard task_eq | ruleset task_eq =>
      simp [Chooses, task_eq, pass]

theorem hits_eq (performs : node.Performs features outcome step derived) :
    outcome.hits = (node.rulesHit features).map Rule.name := by
  cases performs with
  | ruleset task_eq _ hit => rw [hits_ruled, rulesHit_eq task_eq hit]
  | start task_eq | finish task_eq | condition task_eq | scorecard task_eq =>
      simp [rulesHit, task_eq, pass]

theorem blocks_iff (performs : node.Performs features outcome step derived) :
    outcome.blocks = true ↔ node.kind = .finish ∨ (node.blocker features).isSome = true := by
  cases performs with
  | ruleset task_eq _ hit => simp [blocker, rulesHit_eq task_eq hit, kind, Task.kind, task_eq]
  | start task_eq | finish task_eq | condition task_eq | scorecard task_eq =>
      simp [blocker, rulesHit, kind, Task.kind, task_eq, pass]

theorem unblocked_of_branch (performs : node.Performs features outcome step derived) {holds : Bool}
    (branch_eq : outcome.branch = some holds) : outcome.blocks = false := by
  cases performs with
  | condition => rfl
  | ruleset => simp at branch_eq
  | start | finish | scorecard => nomatch branch_eq

theorem step_node (performs : node.Performs features outcome step derived) :
    step.node = node.id := by
  cases performs <;> rfl

/-- An outcome is known by the name of its node. -/
theorem known (performs : node.Performs features outcome step derived) :
    outcome.id = node.id ∧ outcome.name = node.identity.name ∧ outcome.kind = node.kind := by
  cases performs with
  | @ruleset _ rules =>
      rw [ruled]
      split <;> exact ⟨rfl, rfl, rfl⟩
  | start | finish | condition | scorecard => exact ⟨rfl, rfl, rfl⟩

/-- An outcome that blocks is marked by an end, or by the rule that blocks. -/
theorem marked (performs : node.Performs features outcome step derived)
    (blocks : outcome.blocks = true) :
    (node.kind = .finish ∧ outcome.tag = node.identity.tag ∧
        outcome.label = node.identity.label) ∨
      node.kind = .ruleset ∧ ∃ rule, node.blocker features = some rule ∧
        outcome.tag = rule.verdict.tag ∧ outcome.label = rule.verdict.label := by
  cases performs with
  | finish task_eq => exact Or.inl ⟨congrArg Task.kind task_eq, rfl, rfl⟩
  | ruleset task_eq _ hit =>
      rw [blocks_ruled, Option.isSome_iff_exists] at blocks
      obtain ⟨rule, found⟩ := blocks
      refine Or.inr ⟨congrArg Task.kind task_eq, rule, ?_, ?_⟩
      · rw [blocker, rulesHit_eq task_eq hit, found]
      · rw [ruled, found]
        exact ⟨rfl, rfl⟩
  | start | condition | scorecard => nomatch blocks

end Node.Performs

/-! ## Arrivals -/

/-- A node and the features as they stand when it is entered. -/
structure Arrival where
  node : Node
  features : Table Value

/-- An edge leads from one arrival to another, for the branch chosen at the first; the features are
those that the first leaves. -/
structure Arrival.Leads [Engine] (definition : Definition) (arrival next : Arrival) : Prop where
  edge : ∃ branch, arrival.node.Chooses arrival.features branch ∧
    { source := arrival.node.id, target := next.node.id, branch } ∈ definition.edges
  features_eq : next.features = arrival.node.derive arrival.features

/-- The arrival at which a stage begins. -/
def Stage.arrival [Engine] {graph : Graph} (stage : Stage graph) : Arrival :=
  { node := stage.node, features := stage.found }

namespace Graph.Passes

variable [Engine] {graph : Graph} {place last : Fin graph.size} {found features : Table Value}
  {stages : List (Stage graph)} {stage : Stage graph} {definition : Definition}
  {aliases : Aliases}

/-- A way is the arrivals of a passage and that at the node to which it leads. -/
theorem head?_way (passes : graph.Passes place found stages last features) :
    (stages.map Stage.arrival ++ [Arrival.mk graph.nodes[last] features]).head? =
      some ⟨graph.nodes[place], found⟩ := by
  cases passes <;> rfl

/-- Edges lead from arrival to arrival. -/
theorem isChain_way (sound : graph.Sound) (represents : graph.Represents definition aliases)
    (passes : graph.Passes place found stages last features) :
    (stages.map Stage.arrival ++ [Arrival.mk graph.nodes[last] features]).IsChain
      (Arrival.Leads definition) := by
  induction passes with
  | stay => exact List.isChain_singleton _
  | @pass stage _ _ _ _ unblocked followed later induction =>
      rw [List.map_cons, List.cons_append, List.isChain_cons, later.head?_way]
      refine ⟨?_, induction⟩
      rintro _ ⟨⟩
      have edge := represents.mem_edges (Stage.mem_ways sound unblocked followed)
      exact ⟨⟨_, stage.performs.chooses, edge⟩, stage.performs.derived_eq⟩

theorem head?_arrivals (passes : graph.Passes place found stages stage.place stage.found) :
    ((stages ++ [stage]).map Stage.arrival).head? = some ⟨graph.nodes[place], found⟩ := by
  rw [List.map_append]
  exact passes.head?_way

theorem isChain_arrivals (sound : graph.Sound) (represents : graph.Represents definition aliases)
    (passes : graph.Passes place found stages stage.place stage.found) :
    ((stages ++ [stage]).map Stage.arrival).IsChain (Arrival.Leads definition) := by
  rw [List.map_append]
  exact passes.isChain_way sound represents

end Graph.Passes

/-! ## Decisions -/

/-- A decision is what the nodes on a way come to, from the start on to the one that decides. -/
structure Decision.Follows [Engine] (decision : Decision) (definition : Definition) (graph : Graph)
    (features : Table Value) (way : List Arrival) (last : Arrival) : Prop where
  /-- The way begins at the start, with the features given. -/
  begins : (way ++ [last]).head? = some ⟨graph.nodes[graph.start], features⟩
  /-- There is one start. -/
  start_iff : ∀ place, graph.nodes[place].kind = .start ↔ place = graph.start
  /-- Its nodes are nodes of the graph. -/
  known : ∀ arrival ∈ way ++ [last], arrival.node ∈ graph.nodes.toList
  /-- An edge leads from each node to the next, for the branch chosen with the features there. -/
  leads : (way ++ [last]).IsChain (Arrival.Leads definition)
  /-- The trail is the way. -/
  trail_eq : decision.trail = (way ++ [last]).map fun arrival => arrival.node.id
  /-- No node is on it twice. -/
  distinct : decision.trail.Nodup
  /-- No node but the last one blocks. -/
  unblocked : ∀ arrival ∈ way,
    arrival.node.kind ≠ .finish ∧ arrival.node.blocker arrival.features = none ∧
      ∃ outcome, (graph.run { features }).2.results.get? arrival.node.id = some outcome ∧
        outcome.blocks = false
  /-- The decision is the last node's. -/
  decided : decision.id = last.node.id ∧ decision.name = last.node.identity.name ∧
    decision.kind = last.node.kind
  /-- An end marks the decision as itself; otherwise the first rule that hits and blocks does. -/
  marked :
    (last.node.kind = .finish ∧ decision.tag = last.node.identity.tag ∧
        decision.label = last.node.identity.label) ∨
      last.node.kind = .ruleset ∧ ∃ rule, last.node.blocker last.features = some rule ∧
        decision.tag = rule.verdict.tag ∧ decision.label = rule.verdict.label
  /-- The hits are those of the rulesets on the way, one after the other. -/
  hits_eq : decision.hits = (way ++ [last]).flatMap fun arrival =>
    (arrival.node.rulesHit arrival.features).map Rule.name

/-- Each decision of a built graph is what the nodes on a way through its definition come to. -/
theorem Graph.decide_follows [Engine] {definition : Definition} {pairs : List (String × String)}
    {graph : Graph} {features : Table Value} {decision : Decision}
    (built : definition.build (Aliases.ofList pairs) = .ok graph)
    (decided : graph.decide features = .ok decision) :
    ∃ way last, decision.Follows definition graph features way last := by
  have sound := sound_of_build built
  have represents := represents_of_build built
  have ran : graph.run { features } = (.ok decision, (graph.run { features }).2) :=
    Prod.ext decided rfl
  obtain ⟨stages, stage, passes, blocks, final_eq, rfl⟩ := exists_stages_of_run sound ran
  have row_eq : (stages ++ [stage]).map Stage.arrival =
      stages.map Stage.arrival ++ [stage.arrival] := List.map_append
  have distinct := passes.nodup_row_ids sound
  refine ⟨stages.map Stage.arrival, stage.arrival, ?_⟩
  constructor
  case begins =>
    rw [← row_eq]
    exact passes.head?_arrivals
  case start_iff => exact represents.start_iff
  case known =>
    rw [← row_eq]
    intro arrival member
    obtain ⟨stage, -, rfl⟩ := List.mem_map.mp member
    exact Array.mem_toList_iff.mpr (Array.getElem_mem _)
  case leads =>
    rw [← row_eq]
    exact passes.isChain_arrivals sound represents
  case trail_eq =>
    rw [← row_eq, List.map_map]
    simp only [Decision.ofOutcome, final_eq, Walk.trail_after, List.nil_append]
    rfl
  case distinct =>
    simpa only [Decision.ofOutcome, final_eq, Walk.trail_after, List.nil_append] using distinct
  case unblocked =>
    intro arrival member
    obtain ⟨former, on_way, rfl⟩ := List.mem_map.mp member
    have passed := passes.unblocked former on_way
    have open_way := mt former.performs.blocks_iff.mpr (by simp [passed])
    rw [not_or, Option.not_isSome_iff_eq_none] at open_way
    refine ⟨open_way.1, open_way.2, former.outcome, ?_, passed⟩
    rw [final_eq]
    exact Walk.results_after _ _ distinct (List.mem_append_left _ on_way)
  case decided => exact stage.performs.known
  case marked => exact stage.performs.marked blocks
  case hits_eq =>
    rw [← row_eq, List.flatMap_map]
    simp only [Decision.ofOutcome, final_eq, Walk.hits_after, List.nil_append]
    exact congrArg (List.flatMap · _) (funext fun stage => stage.performs.hits_eq)

section

open scoped Engine.Plain

theorem Graph.decide_follows_minor :
    ∃ graph decision, minors.build (Aliases.ofList []) = .ok graph ∧
      graph.decide minor = .ok decision ∧
        ∃ way last, decision.Follows minors graph minor way last := by
  obtain ⟨graph, decision, built, decided⟩ := exists_decide_minor
  exact ⟨graph, decision, built, decided, decide_follows built decided⟩

end

end RiskGraph

import RiskGraph.Proofs.Acceptance
import RiskGraph.Proofs.Visit

/-!
# Passages through built graphs

A passage is a row of stages, each a visit that passes and leads on to the next node.  On a built
graph each node that passes has a way on for what it came to, and no way comes back to a node, so
that a passage has fewer stages than the graph has nodes.
-/

namespace RiskGraph

open Relation

/-! ## Built graphs -/

/-- The nodes that a way leads to from a node. -/
def Graph.successors (graph : Graph) (place : Fin graph.size) : List (Fin graph.size) :=
  graph.exits[place].targets

/-- What building ensures of a graph, said without its definition. -/
structure Graph.Sound [Engine] (graph : Graph) : Prop where
  /-- No two nodes have the same identifier. -/
  id_injective : Function.Injective fun place : Fin graph.size => graph.nodes[place].id
  /-- The ways on from a node suit its kind. -/
  ways_suit : ∀ place : Fin graph.size,
    graph.nodes[place].kind.Suits (graph.exits[place].ways.map Prod.fst)
  /-- No way leads round in a circle. -/
  acyclic : ∀ place, ¬OnCycle graph.successors place
  /-- The predicate of a condition is ready for use. -/
  conditions_ready : ∀ (place : Fin graph.size) {predicate : Predicate},
    graph.nodes[place].task = .condition predicate → predicate.Ready

theorem NodeKind.Suits.perm {kind : NodeKind} {branches others : List (Option Bool)}
    (suits : kind.Suits branches) (same : others.Perm branches) : kind.Suits others := by
  cases kind with
  | condition => exact same.trans suits
  | finish => exact List.perm_nil.mp (suits ▸ same)
  | start | ruleset | scorecard => exact List.perm_singleton.mp (suits ▸ same)

theorem Plan.sound [Engine] {definition : Definition} {aliases : Aliases}
    (plan : Plan definition aliases) :
    plan.graph.Sound where
  id_injective := by
    intro left right same
    exact plan.distinct.entry_injective
      ((plan.id_nodes left).symm.trans (same.trans (plan.id_nodes right)))
  ways_suit := by
    intro (place : Fin definition.size)
    obtain ⟨suits, ways_perm⟩ := plan.exits_fit place
    have branches_perm := ways_perm.map Prod.fst
    rw [List.map_map] at branches_perm
    have kind_eq : plan.nodes[place].kind = plan.kinds[place] :=
      NodeEntry.kind_of_task (plan.nodes_settled place).2
    rw [← kind_eq] at suits
    exact suits.perm branches_perm
  acyclic := plan.acyclic
  conditions_ready := by
    intro place predicate task_eq
    have settled := (plan.nodes_settled place).2
    exact NodeEntry.ready_of_task (settled.trans (congrArg _ task_eq))

theorem Graph.sound_of_build [Engine] {definition : Definition} {aliases : Aliases} {graph : Graph}
    (built : definition.build aliases = .ok graph) : graph.Sound := by
  obtain ⟨plan, rfl⟩ := Plan.build_eq_ok_iff.mp built
  exact plan.sound

theorem Graph.represents_of_build [Engine] {definition : Definition} {aliases : Aliases}
    {graph : Graph}
    (built : definition.build aliases = .ok graph) : graph.Represents definition aliases := by
  obtain ⟨plan, rfl⟩ := Plan.build_eq_ok_iff.mp built
  exact plan.represents

namespace Graph.Represents

variable [Engine] {definition : Definition} {aliases : Aliases} {graph : Graph}

theorem exists_entry (represents : graph.Represents definition aliases)
    (place : Fin graph.size) :
    ∃ entry ∈ definition.nodes, entry.Describes aliases graph.nodes[place] := by
  obtain ⟨length_eq, describes⟩ := List.forall₂_iff_get.mp represents.nodes_described
  rw [Vector.length_toList] at length_eq
  have described := describes place (by rw [length_eq]; exact place.isLt) (by simp)
  exact ⟨_, List.getElem_mem _, by simpa using described⟩

theorem exists_place (represents : graph.Represents definition aliases)
    {entry : NodeEntry} (member : entry ∈ definition.nodes) :
    ∃ place : Fin graph.size, entry.Describes aliases graph.nodes[place] := by
  obtain ⟨length_eq, describes⟩ := List.forall₂_iff_get.mp represents.nodes_described
  rw [Vector.length_toList] at length_eq
  obtain ⟨place, rfl⟩ := List.mem_iff_get.mp member
  have described := describes place place.isLt (by simp [← length_eq])
  exact ⟨⟨place, length_eq ▸ place.isLt⟩, by simpa using described⟩

/-- A way on is an edge of the definition. -/
theorem mem_edges (represents : graph.Represents definition aliases)
    {place target : Fin graph.size} {branch : Option Bool}
    (member : (branch, target) ∈ graph.exits[place].ways) :
    { source := graph.nodes[place].id, target := graph.nodes[target].id, branch } ∈
      definition.edges := by
  have named := List.mem_map_of_mem (f := fun way => (way.1, graph.nodes[way.2].id)) member
  rw [(represents.ways_perm place).mem_iff] at named
  obtain ⟨edge, leaving, edge_eq⟩ := List.mem_map.mp named
  obtain ⟨edge_member, source_eq⟩ := List.mem_filter.mp leaving
  obtain ⟨source, other, guard⟩ := edge
  cases edge_eq
  rwa [← of_decide_eq_true source_eq]

/-- An edge of the definition is a way on. -/
theorem exists_way (represents : graph.Represents definition aliases)
    {place : Fin graph.size} {target : String} {branch : Option Bool}
    (member : { source := graph.nodes[place].id, target, branch } ∈ definition.edges) :
    ∃ next, (branch, next) ∈ graph.exits[place].ways ∧ graph.nodes[next].id = target := by
  have leaving : (branch, target) ∈
      (definition.edgesFrom graph.nodes[place].id).map fun edge => (edge.branch, edge.target) :=
    List.mem_map.mpr ⟨_, List.mem_filter.mpr ⟨member, by simp⟩, rfl⟩
  rw [← (represents.ways_perm place).mem_iff] at leaving
  obtain ⟨⟨_, next⟩, way, equal⟩ := List.mem_map.mp leaving
  cases equal
  exact ⟨next, way, rfl⟩

end Graph.Represents

/-- There is one way for a branch. -/
theorem Exits.eq_of_mem_ways {size : Nat} {exits : Exits size} {branch : Option Bool}
    {target other : Fin size} (member : (branch, target) ∈ exits.ways)
    (other_member : (branch, other) ∈ exits.ways) : target = other := by
  cases exits with
  | terminal => nomatch member
  | next => simp_all [ways]
  | branch => rcases branch with _ | _ | _ <;> simp_all [ways]

variable [Engine]

/-- An outcome that passes is followed along the way for its branch, if the ways suit the node. -/
theorem Exits.exists_follow_eq_ok {size : Nat} {exits : Exits size} {node : Node}
    {features derived : Table Value} {outcome : Outcome} {step : TraceStep}
    (suits : node.kind.Suits (exits.ways.map Prod.fst))
    (performs : node.Performs features outcome step derived) (passes : outcome.blocks = false) :
    ∃ target, exits.follow node outcome = .ok target ∧ (outcome.branch, target) ∈ exits.ways := by
  have next_of_plain : exits.ways.map Prod.fst = [none] → ∃ target, exits = .next target := by
    intro single
    cases exits <;> simp [ways] at single ⊢
  cases performs with
  | finish => cases passes
  | @condition _ _ holds task_eq =>
      rw [Node.kind, task_eq] at suits
      have length_eq := suits.length_eq
      cases exits with
      | terminal => cases length_eq
      | next target => cases length_eq
      | branch onTrue onFalse =>
          cases holds with
          | true => exact ⟨onTrue, rfl, by simp [ways]⟩
          | false => exact ⟨onFalse, rfl, by simp [ways]⟩
  | start task_eq | scorecard task_eq =>
      rw [Node.kind, task_eq] at suits
      obtain ⟨target, rfl⟩ := next_of_plain suits
      exact ⟨target, rfl, List.mem_singleton.mpr rfl⟩
  | @ruleset _ rules task_eq =>
      rw [Node.kind, task_eq] at suits
      obtain ⟨target, rfl⟩ := next_of_plain suits
      exact ⟨target, rfl, by simp [ways]⟩

/-- If the edges of one node are edges of another one, outcomes for one branch lead on from both to
nodes of one identifier. -/
theorem Graph.exists_follow_both {graph other : Graph} {definition twin : Definition}
    {aliases twinAliases : Aliases} (represents : graph.Represents definition aliases)
    (sound : graph.Sound) (twin_represents : other.Represents twin twinAliases)
    (twin_sound : other.Sound) {place : Fin graph.size} {next : Fin other.size}
    (edges : ∀ target branch,
      { source := graph.nodes[place].id, target, branch } ∈ definition.edges →
        { source := other.nodes[next].id, target, branch } ∈ twin.edges)
    {outcome : Outcome} {found left found' left' : Table Value} {step step' : TraceStep}
    (performs : graph.nodes[place].Performs found outcome step left)
    (twin_performs : other.nodes[next].Performs found' outcome step' left')
    (passes : outcome.blocks = false) :
    ∃ target next', graph.exits[place].follow graph.nodes[place] outcome = .ok target ∧
      other.exits[next].follow other.nodes[next] outcome = .ok next' ∧
        other.nodes[next'].id = graph.nodes[target].id ∧
          definition.Leads graph.nodes[place].id graph.nodes[target].id := by
  obtain ⟨target, followed, way⟩ :=
    Exits.exists_follow_eq_ok (sound.ways_suit place) performs passes
  obtain ⟨next', twin_followed, twin_way⟩ :=
    Exits.exists_follow_eq_ok (twin_sound.ways_suit next) twin_performs passes
  have edge := represents.mem_edges way
  obtain ⟨same, same_way, same_id⟩ := twin_represents.exists_way (edges _ _ edge)
  -- there is one way for a branch
  obtain rfl := Exits.eq_of_mem_ways twin_way same_way
  exact ⟨target, next', followed, twin_followed, same_id, _, edge, rfl, rfl⟩

/-! ## Stages -/

/-- One visit of a run: a node, the features that it found, and what it came to. -/
structure Stage (graph : Graph) where
  place : Fin graph.size
  /-- The features on entry. -/
  found : Table Value
  outcome : Outcome
  step : TraceStep
  /-- The features for the nodes to come. -/
  left : Table Value
  performs : graph.nodes[place].Performs found outcome step left

namespace Stage

variable {graph : Graph}

/-- The node of a stage. -/
def node (stage : Stage graph) : Node :=
  graph.nodes[stage.place]

/-- The way taken from a stage is one for its branch. -/
theorem mem_ways (sound : graph.Sound) {stage : Stage graph} {target : Fin graph.size}
    (passes : stage.outcome.blocks = false)
    (followed : graph.exits[stage.place].follow stage.node stage.outcome = .ok target) :
    (stage.outcome.branch, target) ∈ graph.exits[stage.place].ways := by
  obtain ⟨other, other_followed, member⟩ :=
    Exits.exists_follow_eq_ok (sound.ways_suit stage.place) stage.performs passes
  obtain rfl : target = other := Except.ok.inj (followed.symm.trans other_followed)
  exact member

theorem leads (sound : graph.Sound) {stage : Stage graph} {target : Fin graph.size}
    (passes : stage.outcome.blocks = false)
    (followed : graph.exits[stage.place].follow stage.node stage.outcome = .ok target) :
    Leads graph.successors stage.place target := by
  rw [Leads, Graph.successors, ← Exits.map_snd_ways]
  exact List.mem_map_of_mem (mem_ways sound passes followed)

end Stage

/-- A walk after stages. -/
def Walk.after {graph : Graph} (walk : Walk) : List (Stage graph) → Walk
  | [] => walk
  | stage :: stages =>
      (walk.past stage.node stage.outcome stage.step stage.left).after stages

namespace Walk

variable {graph : Graph} (walk : Walk) (stages : List (Stage graph))

theorem after_append (others : List (Stage graph)) :
    walk.after (stages ++ others) = (walk.after stages).after others := by
  induction stages generalizing walk with
  | nil => rfl
  | cons stage stages induction => exact induction _

theorem trail_after :
    (walk.after stages).trail = walk.trail ++ stages.map fun stage => stage.node.id := by
  induction stages generalizing walk with
  | nil => simp [after]
  | cons stage stages induction => simp [after, induction, past]

theorem trace_after : (walk.after stages).trace = walk.trace ++ stages.map Stage.step := by
  induction stages generalizing walk with
  | nil => simp [after]
  | cons stage stages induction => simp [after, induction, past]

theorem hits_after :
    (walk.after stages).hits = walk.hits ++ stages.flatMap fun stage => stage.outcome.hits := by
  induction stages generalizing walk with
  | nil => simp [after]
  | cons stage stages induction => simp [after, induction, past]

theorem mem_visited_after {id : String} :
    id ∈ (walk.after stages).visited ↔
      id ∈ walk.visited ∨ id ∈ stages.map fun stage => stage.node.id := by
  induction stages generalizing walk with
  | nil => simp [after]
  | cons stage stages induction => simp [after, induction, past, or_left_comm, or_assoc]

/-- Stages of other nodes keep a result. -/
theorem results_after_of_not_mem {id : String}
    (apart : id ∉ stages.map fun stage => stage.node.id) :
    (walk.after stages).results.get? id = walk.results.get? id := by
  induction stages generalizing walk with
  | nil => rfl
  | cons stage stages induction =>
      rw [List.map_cons, List.mem_cons, not_or] at apart
      rw [after, induction _ apart.2]
      exact Table.get?_insert_of_ne _ apart.1 _

/-- The outcome of each stage is stored, if no node has two stages. -/
theorem results_after {stage : Stage graph}
    (distinct : (stages.map fun stage => stage.node.id).Nodup) (member : stage ∈ stages) :
    (walk.after stages).results.get? stage.node.id = some stage.outcome := by
  induction stages generalizing walk with
  | nil => nomatch member
  | cons first stages induction =>
      rw [List.map_cons, List.nodup_cons] at distinct
      rcases List.mem_cons.mp member with rfl | later
      · rw [after, results_after_of_not_mem _ _ distinct.1]
        exact Table.get?_insert_self _ _ _
      · exact induction _ distinct.2 later

/-- Stages leave it open whether a walk is called off by a check. -/
theorem stopsAt_after : (walk.after stages).stopsAt = walk.stopsAt := by
  induction stages generalizing walk with
  | nil => rfl
  | cons stage stages induction => exact induction _

end Walk

/-- Stages that pass lead from one node on to another, which is still to be visited. -/
inductive Graph.Passes (graph : Graph) :
    Fin graph.size → Table Value → List (Stage graph) → Fin graph.size → Table Value → Prop
  | stay (place : Fin graph.size) (features : Table Value) :
      Passes graph place features [] place features
  | pass {stage : Stage graph} {target last : Fin graph.size} {stages : List (Stage graph)}
      {features : Table Value} (passes : stage.outcome.blocks = false)
      (followed : graph.exits[stage.place].follow stage.node stage.outcome = .ok target)
      (later : Passes graph target stage.left stages last features) :
      Passes graph stage.place stage.found (stage :: stages) last features

namespace Graph.Passes

variable {graph : Graph} {place last : Fin graph.size} {found features : Table Value}
  {stages : List (Stage graph)}

theorem features_after {walk : Walk}
    (passes : graph.Passes place walk.features stages last features) :
    (walk.after stages).features = features := by
  generalize found_eq : walk.features = found at passes
  induction passes generalizing walk with
  | stay => exact found_eq
  | pass _ _ _ induction => exact induction rfl

theorem unblocked (passes : graph.Passes place found stages last features) :
    ∀ stage ∈ stages, stage.outcome.blocks = false := by
  induction passes with
  | stay => exact fun _ => nofun
  | pass unblocked _ _ induction => exact List.forall_mem_cons.mpr ⟨unblocked, induction⟩

/-- A way leads to each node on the way. -/
theorem reaches (sound : graph.Sound) (passes : graph.Passes place found stages last features) :
    ∀ other ∈ stages.map Stage.place ++ [last],
      ReflTransGen (Leads graph.successors) place other := by
  induction passes with
  | stay => simp [ReflTransGen.refl]
  | pass unblocked followed _ induction =>
      intro other on_way
      rcases List.mem_cons.mp on_way with rfl | later
      · exact .refl
      · exact .head (Stage.leads sound unblocked followed) (induction other later)

/-- No way comes back to a node. -/
theorem nodup_places (sound : graph.Sound)
    (passes : graph.Passes place found stages last features) :
    (stages.map Stage.place ++ [last]).Nodup := by
  induction passes with
  | stay => exact List.nodup_singleton _
  | @pass stage _ _ _ _ unblocked followed later induction =>
      refine List.nodup_cons.mpr ⟨fun again => ?_, induction⟩
      exact sound.acyclic stage.place
        (.head' (Stage.leads sound unblocked followed) (later.reaches sound _ again))

theorem nodup_ids (sound : graph.Sound)
    (passes : graph.Passes place found stages last features) :
    (stages.map (fun stage => stage.node.id) ++ [graph.nodes[last].id]).Nodup := by
  have distinct := (passes.nodup_places sound).map sound.id_injective
  rwa [List.map_append, List.map_map] at distinct

theorem length_lt (sound : graph.Sound)
    (passes : graph.Passes place found stages last features) : stages.length < graph.size := by
  simpa [Nat.succ_le_iff] using (passes.nodup_places sound).length_le_card

/-- A passage and the stage after it begin where the passage does. -/
theorem exists_head {stage : Stage graph}
    (passes : graph.Passes place found stages stage.place stage.found) :
    ∃ first others, stages ++ [stage] = first :: others ∧ first.place = place ∧
      first.found = found := by
  cases passes with
  | stay => exact ⟨stage, [], rfl, rfl, rfl⟩
  | pass => exact ⟨_, _, rfl, rfl, rfl⟩

theorem nodup_row_ids {stage : Stage graph} (sound : graph.Sound)
    (passes : graph.Passes place found stages stage.place stage.found) :
    ((stages ++ [stage]).map fun stage => stage.node.id).Nodup := by
  rw [List.map_append]
  exact passes.nodup_ids sound

/-- The node of the first stage has no other stage. -/
theorem found_eq {stage other : Stage graph} (sound : graph.Sound)
    (passes : graph.Passes place found stages stage.place stage.found)
    (member : other ∈ stages ++ [stage]) (place_eq : other.place = place) :
    other.found = found := by
  obtain ⟨first, others, row_eq, first_place, first_found⟩ := passes.exists_head
  have distinct := passes.nodup_places sound
  rw [← List.map_singleton, ← List.map_append, row_eq, List.map_cons, List.nodup_cons] at distinct
  rw [row_eq] at member
  rcases List.mem_cons.mp member with rfl | later
  · exact first_found
  · have again := List.mem_map_of_mem (f := Stage.place) later
    rw [place_eq, ← first_place] at again
    exact absurd again distinct.1

/-- Each stage hands its features on to the next, along the way for its branch. -/
theorem isChain {stage : Stage graph} (sound : graph.Sound)
    (passes : graph.Passes place found stages stage.place stage.found) :
    (stages ++ [stage]).IsChain fun former next =>
      (former.outcome.branch, next.place) ∈ graph.exits[former.place].ways ∧
        next.found = former.left := by
  induction stages generalizing place found with
  | nil => exact List.isChain_singleton _
  | cons former stages induction =>
      cases passes with
      | pass unblocked followed later =>
          have chain := induction later
          obtain ⟨first, others, row_eq, rfl, found_eq⟩ := later.exists_head
          rw [row_eq] at chain
          rw [List.cons_append, row_eq, List.isChain_cons_cons]
          exact ⟨⟨Stage.mem_ways sound unblocked followed, found_eq⟩, chain⟩

end Graph.Passes
end RiskGraph

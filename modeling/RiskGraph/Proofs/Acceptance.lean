import Mathlib.Data.Set.List
import RiskGraph.Proofs.Stages

/-!
# Definitions that are decision graphs

A definition is well formed if it has the properties of a decision graph, said of its nodes and
edges by their identifiers.  A graph is built exactly for well-formed definitions, and the built
graph has the nodes and edges of its definition.
-/

namespace RiskGraph

open Relation

/-- A definition of a decision graph, under given aliases of kinds. -/
structure Definition.WellFormed [Engine] (definition : Definition) (aliases : Aliases) : Prop where
  /-- No two nodes have the same identifier. -/
  distinct : definition.Distinct
  /-- The kind of each node is known. -/
  kinds_known : ∀ entry ∈ definition.nodes, ∃ kind, aliases.resolve? entry.kind = some kind
  /-- Exactly one node is a start. -/
  single_start : ∃! place, aliases.resolve? (definition.entry place).kind = some .start
  /-- Edges leave defined nodes. -/
  sources_defined : ∀ edge ∈ definition.edges, ∃ entry ∈ definition.nodes, entry.id = edge.source
  /-- Edges enter defined nodes. -/
  targets_defined : ∀ edge ∈ definition.edges, ∃ entry ∈ definition.nodes, entry.id = edge.target
  /-- No edge enters a start. -/
  start_unentered : ∀ edge ∈ definition.edges, ∀ entry ∈ definition.nodes,
    aliases.resolve? entry.kind = some .start → edge.target ≠ entry.id
  /-- The edges that leave a node suit its kind. -/
  edges_suit : ∀ entry ∈ definition.nodes, ∀ kind, aliases.resolve? entry.kind = some kind →
    kind.Suits ((definition.edgesFrom entry.id).map EdgeEntry.branch)
  /-- No way leads round in a circle. -/
  acyclic : ∀ id, ¬TransGen definition.Leads id id
  /-- The settings of each node can be read and are sound. -/
  settings_sound : ∀ entry ∈ definition.nodes, ∀ kind, aliases.resolve? entry.kind = some kind →
    entry.HasSettings kind

/-- A node has the identity of its entry and the task that its settings describe. -/
structure NodeEntry.Describes [Engine] (entry : NodeEntry) (aliases : Aliases) (node : Node) : Prop
    where
  id_eq : node.identity.id = entry.id
  /-- The name, for which the identifier stands in. -/
  name_eq : node.identity.name = if entry.name = "" then entry.id else entry.name
  /-- The name of the kind, as it is written. -/
  kind_text_eq : node.identity.kind = entry.kind
  tag_eq : node.identity.tag = entry.tag
  label_eq : node.identity.label = entry.label
  /-- The kind that its name stands for. -/
  kind_eq : aliases.resolve? entry.kind = some node.kind
  task_eq : entry.task node.kind = .ok node.task

theorem NodeEntry.Describes.identity_eq [Engine] {entry : NodeEntry} {aliases : Aliases}
    {node : Node}
    (describes : entry.Describes aliases node) : node.identity = entry.identity := by
  obtain ⟨⟨id, name, kind, tag, label⟩, task⟩ := node
  obtain ⟨id_eq, name_eq, kind_text_eq, tag_eq, label_eq, -, -⟩ := describes
  simp only at id_eq name_eq kind_text_eq tag_eq label_eq
  simp [identity, id_eq, name_eq, kind_text_eq, tag_eq, label_eq]

/-- A graph has the nodes and edges of a definition. -/
structure Graph.Represents [Engine] (graph : Graph) (definition : Definition) (aliases : Aliases) :
    Prop where
  /-- The nodes are those of the definition, in its order. -/
  nodes_described : List.Forall₂ (fun entry node => entry.Describes aliases node)
    definition.nodes graph.nodes.toList
  /-- A node is found under its identifier, and nothing under other texts. -/
  find?_iff : ∀ id node, graph.find? id = some node ↔ node ∈ graph.nodes.toList ∧ node.id = id
  /-- The ways on from a node are its edges. -/
  ways_perm : ∀ place : Fin graph.size,
    (graph.exits[place].ways.map fun way => (way.1, graph.nodes[way.2].id)).Perm
      ((definition.edgesFrom graph.nodes[place].id).map fun edge => (edge.branch, edge.target))
  /-- Walks begin at the only start. -/
  start_iff : ∀ place, graph.nodes[place].kind = .start ↔ place = graph.start

/-- What the stages of building come to, one after the other. -/
structure Plan [Engine] (definition : Definition) (aliases : Aliases) where
  kinds : Vector NodeKind definition.size
  start : Fin definition.size
  edges : List (Edge definition.size)
  exits : Vector (Exits definition.size) definition.size
  nodes : Vector Node definition.size
  distinct : definition.Distinct
  kinds_resolved : ∀ place : Fin definition.size,
    aliases.resolve? (definition.entry place).kind = some kinds[place]
  start_iff : ∀ place : Fin definition.size, kinds[place] = .start ↔ place = start
  edges_named : definition.edges = edges.map Edge.named
  start_unentered : ∀ edge ∈ edges, edge.target ≠ start
  exits_fit : ∀ place : Fin definition.size,
    kinds[place].Suits ((edges.filter fun edge => edge.source = place).map Edge.branch) ∧
      exits[place].ways.Perm ((edges.filter fun edge => edge.source = place).map fun edge =>
        (edge.branch, edge.target))
  acyclic : ∀ place : Fin definition.size, ¬OnCycle (fun place => exits[place].targets) place
  nodes_settled : ∀ place : Fin definition.size,
    nodes[place].identity = (definition.entry place).identity ∧
      (definition.entry place).task kinds[place] = .ok nodes[place].task

namespace Plan

variable [Engine] {definition : Definition} {aliases : Aliases}

/-- The graph that a plan comes to. -/
def graph (plan : Plan definition aliases) : Graph :=
  { size := definition.size, nodes := plan.nodes, index := definition.index, exits := plan.exits
    start := plan.start }

/-- Building carries out a plan. -/
theorem build_eq_ok_iff {graph : Graph} :
    definition.build aliases = .ok graph ↔
      ∃ plan : Plan definition aliases, plan.graph = graph := by
  simp only [Definition.build, bind_eq_ok]
  constructor
  · rintro ⟨⟨⟩, checked, kinds, kinds_resolved, start, start_found, edges, resolved, exits,
      exits_given, ⟨⟩, acyclic, nodes, nodes_settled, equal⟩
    have distinct := Definition.checkDistinct_eq_ok_iff.mp checked
    have edges_eq := distinct.mapM_resolveEdge_eq_ok_iff.mp resolved
    refine ⟨{
      kinds, start, edges, exits, nodes, distinct
      kinds_resolved := fun place =>
        Definition.kindAt_eq_ok_iff.mp (collect_eq_ok.mp kinds_resolved place)
      start_iff := Definition.findStart_eq_ok_iff.mp start_found
      edges_named := edges_eq.1
      start_unentered := edges_eq.2
      exits_fit := fun place =>
        Definition.exitsAt_eq_ok_iff.mp (collect_eq_ok.mp exits_given place)
      acyclic := Definition.checkAcyclic_eq_ok_iff.mp acyclic
      nodes_settled := fun place =>
        NodeEntry.toNode_eq_ok_iff.mp (collect_eq_ok.mp nodes_settled place) }, ?_⟩
    cases equal
    rfl
  · rintro ⟨plan, rfl⟩
    exact ⟨(), Definition.checkDistinct_eq_ok_iff.mpr plan.distinct,
      plan.kinds, collect_eq_ok.mpr fun place =>
        Definition.kindAt_eq_ok_iff.mpr (plan.kinds_resolved place),
      plan.start, Definition.findStart_eq_ok_iff.mpr plan.start_iff,
      plan.edges, plan.distinct.mapM_resolveEdge_eq_ok_iff.mpr
        ⟨plan.edges_named, plan.start_unentered⟩,
      plan.exits, collect_eq_ok.mpr fun place =>
        Definition.exitsAt_eq_ok_iff.mpr (plan.exits_fit place),
      (), Definition.checkAcyclic_eq_ok_iff.mpr plan.acyclic,
      plan.nodes, collect_eq_ok.mpr fun place =>
        NodeEntry.toNode_eq_ok_iff.mpr (plan.nodes_settled place), rfl⟩

end Plan

namespace Definition

variable {definition : Definition} {edges : List (Edge definition.size)}

/-- The edges that leave a node are those with its identifier. -/
theorem Distinct.edgesFrom_eq (distinct : definition.Distinct)
    (named : definition.edges = edges.map Edge.named) (place : Fin definition.size) :
    definition.edgesFrom (definition.entry place).id =
      (edges.filter fun edge => edge.source = place).map Edge.named := by
  rw [edgesFrom, named, List.filter_map]
  congr 1
  apply List.filter_congr
  intro edge _
  have same_iff : (definition.entry edge.source).id = (definition.entry place).id ↔
      edge.source = place := ⟨distinct.entry_injective, fun same => by rw [same]⟩
  exact decide_eq_decide.mpr same_iff

/-- Ways between identifiers are ways between the nodes that have them. -/
theorem Distinct.transGen_leads_iff (distinct : definition.Distinct)
    (named : definition.edges = edges.map Edge.named)
    {successors : Fin definition.size → List (Fin definition.size)}
    (successors_iff : ∀ source target, RiskGraph.Leads successors source target ↔
      ∃ edge ∈ edges, edge.source = source ∧ edge.target = target) {first last : String} :
    TransGen definition.Leads first last ↔
      ∃ source target, (definition.entry source).id = first ∧
        (definition.entry target).id = last ∧
          TransGen (RiskGraph.Leads successors) source target := by
  have leads_iff : ∀ {first last}, definition.Leads first last ↔
      ∃ source target, (definition.entry source).id = first ∧
        (definition.entry target).id = last ∧ RiskGraph.Leads successors source target := by
    intro first last
    simp only [Leads, named, List.mem_map, successors_iff]
    constructor
    · rintro ⟨_, ⟨edge, member, rfl⟩, rfl, rfl⟩
      exact ⟨edge.source, edge.target, rfl, rfl, edge, member, rfl, rfl⟩
    · rintro ⟨_, _, rfl, rfl, edge, member, rfl, rfl⟩
      exact ⟨edge.named, ⟨edge, member, rfl⟩, rfl, rfl⟩
  constructor
  · intro way
    induction way with
    | single edge =>
        obtain ⟨source, target, source_eq, target_eq, step⟩ := leads_iff.mp edge
        exact ⟨source, target, source_eq, target_eq, .single step⟩
    | tail _ edge induction =>
        obtain ⟨source, middle, source_eq, middle_eq, front⟩ := induction
        obtain ⟨same, target, same_eq, target_eq, step⟩ := leads_iff.mp edge
        obtain rfl := distinct.entry_injective (middle_eq.trans same_eq.symm)
        exact ⟨source, target, source_eq, target_eq, front.tail step⟩
  · rintro ⟨source, target, rfl, rfl, way⟩
    exact way.lift (fun place => (definition.entry place).id) fun left right step =>
      leads_iff.mpr ⟨left, right, rfl, rfl, step⟩

/-- No way leads from an identifier back to it exactly when none leads so from a node. -/
theorem Distinct.acyclic_iff (distinct : definition.Distinct)
    (named : definition.edges = edges.map Edge.named)
    {successors : Fin definition.size → List (Fin definition.size)}
    (successors_iff : ∀ source target, RiskGraph.Leads successors source target ↔
      ∃ edge ∈ edges, edge.source = source ∧ edge.target = target) :
    (∀ id, ¬TransGen definition.Leads id id) ↔ ∀ place, ¬OnCycle successors place := by
  constructor
  · intro acyclic place cyclic
    exact acyclic (definition.entry place).id
      ((distinct.transGen_leads_iff named successors_iff).mpr ⟨place, place, rfl, rfl, cyclic⟩)
  · intro acyclic id cyclic
    obtain ⟨source, target, source_eq, target_eq, way⟩ :=
      (distinct.transGen_leads_iff named successors_iff).mp cyclic
    obtain rfl := distinct.entry_injective (source_eq.trans target_eq.symm)
    exact acyclic source way

end Definition

/-- Ways on that are the edges lead where the edges lead. -/
theorem leads_targets_iff {size : Nat} {edges : List (Edge size)} {exits : Fin size → Exits size}
    (ways_perm : ∀ place, (exits place).ways.Perm
      ((edges.filter fun edge => edge.source = place).map fun edge => (edge.branch, edge.target)))
    (source target : Fin size) :
    Leads (fun place => (exits place).targets) source target ↔
      ∃ edge ∈ edges, edge.source = source ∧ edge.target = target := by
  have targets_perm := (ways_perm source).map Prod.snd
  rw [Exits.map_snd_ways] at targets_perm
  rw [Leads, targets_perm.mem_iff]
  simp [and_assoc]

private theorem mem_toList_iff {α : Type} {size : Nat} {items : Vector α size} {item : α} :
    item ∈ items.toList ↔ ∃ place : Fin size, items[place] = item := by
  simp [Vector.mem_iff_getElem, Fin.exists_iff]

namespace Plan

variable [Engine] {definition : Definition} {aliases : Aliases}

theorem wellFormed (plan : Plan definition aliases) : definition.WellFormed aliases where
  distinct := plan.distinct
  kinds_known := by
    intro entry member
    obtain ⟨place, rfl⟩ := Definition.mem_nodes_iff.mp member
    exact ⟨_, plan.kinds_resolved place⟩
  single_start := by
    have start_iff : ∀ place : Fin definition.size,
        aliases.resolve? (definition.entry place).kind = some .start ↔ place = plan.start := by
      intro place
      rw [plan.kinds_resolved, Option.some_inj, plan.start_iff]
    exact ⟨plan.start, (start_iff _).mpr rfl, fun place => (start_iff place).mp⟩
  sources_defined := by
    intro edge member
    rw [plan.edges_named] at member
    obtain ⟨edge, -, rfl⟩ := List.mem_map.mp member
    exact ⟨_, Definition.mem_nodes_iff.mpr ⟨edge.source, rfl⟩, rfl⟩
  targets_defined := by
    intro edge member
    rw [plan.edges_named] at member
    obtain ⟨edge, -, rfl⟩ := List.mem_map.mp member
    exact ⟨_, Definition.mem_nodes_iff.mpr ⟨edge.target, rfl⟩, rfl⟩
  start_unentered := by
    intro edge member entry entry_member is_start same
    rw [plan.edges_named] at member
    obtain ⟨edge, resolved, rfl⟩ := List.mem_map.mp member
    obtain ⟨place, rfl⟩ := Definition.mem_nodes_iff.mp entry_member
    rw [plan.kinds_resolved, Option.some_inj, plan.start_iff] at is_start
    exact plan.start_unentered edge resolved ((plan.distinct.entry_injective same).trans is_start)
  edges_suit := by
    intro entry member kind kind_eq
    obtain ⟨place, rfl⟩ := Definition.mem_nodes_iff.mp member
    obtain rfl := Option.some.inj ((plan.kinds_resolved place).symm.trans kind_eq)
    rw [plan.distinct.edgesFrom_eq plan.edges_named, List.map_map]
    exact (plan.exits_fit place).1
  acyclic := (plan.distinct.acyclic_iff plan.edges_named
    (leads_targets_iff fun place => (plan.exits_fit place).2)).mpr plan.acyclic
  settings_sound := by
    intro entry member kind kind_eq
    obtain ⟨place, rfl⟩ := Definition.mem_nodes_iff.mp member
    obtain rfl := Option.some.inj ((plan.kinds_resolved place).symm.trans kind_eq)
    exact NodeEntry.exists_task_eq_ok.mp ⟨_, (plan.nodes_settled place).2⟩

theorem describes (plan : Plan definition aliases) (place : Fin definition.size) :
    (definition.entry place).Describes aliases plan.nodes[place] := by
  obtain ⟨identity_eq, task_eq⟩ := plan.nodes_settled place
  have kind_eq : plan.nodes[place].kind = plan.kinds[place] := NodeEntry.kind_of_task task_eq
  constructor
  case kind_eq => rw [kind_eq, plan.kinds_resolved]
  case task_eq => rw [kind_eq, task_eq]
  case name_eq =>
    rw [identity_eq]
    simp [NodeEntry.identity]
  all_goals rw [identity_eq, NodeEntry.identity]

theorem id_nodes (plan : Plan definition aliases) (place : Fin definition.size) :
    plan.nodes[place].id = (definition.entry place).id :=
  (plan.describes place).id_eq

theorem named_ways_perm (plan : Plan definition aliases) (place : Fin definition.size) :
    (plan.exits[place].ways.map fun way => (way.1, plan.nodes[way.2].id)).Perm
      ((definition.edgesFrom plan.nodes[place].id).map fun edge => (edge.branch, edge.target)) := by
  have ways_perm := (plan.exits_fit place).2.map fun way => (way.1, (definition.entry way.2).id)
  simp only [plan.id_nodes, plan.distinct.edgesFrom_eq plan.edges_named]
  rw [List.map_map] at ways_perm ⊢
  exact ways_perm

theorem represents (plan : Plan definition aliases) : plan.graph.Represents definition aliases where
  nodes_described := by
    rw [List.forall₂_iff_get]
    exact ⟨plan.nodes.length_toList.symm, fun i here _ => plan.describes ⟨i, here⟩⟩
  find?_iff := by
    intro id node
    have find?_eq : plan.graph.find? id =
        (definition.index.get? id).map fun place => plan.nodes[place] := rfl
    simp only [find?_eq, Option.map_eq_some_iff, plan.distinct.get?_index_eq_some_iff]
    constructor
    · rintro ⟨place, rfl, rfl⟩
      exact ⟨mem_toList_iff.mpr ⟨place, rfl⟩, plan.id_nodes place⟩
    · rintro ⟨member, rfl⟩
      obtain ⟨place, rfl⟩ := mem_toList_iff.mp member
      exact ⟨place, (plan.id_nodes place).symm, rfl⟩
  ways_perm := plan.named_ways_perm
  start_iff := by
    intro place
    have kind_eq := NodeEntry.kind_of_task (plan.nodes_settled place).2
    exact (iff_of_eq (congrArg (· = NodeKind.start) kind_eq)).trans (plan.start_iff place)

end Plan

variable [Engine]

namespace Definition.WellFormed

variable {definition : Definition} {aliases : Aliases} {edges : List (Edge definition.size)}

/-- The edges lie between places. -/
theorem exists_edges_named (wellFormed : definition.WellFormed aliases) :
    ∃ edges : List (Edge definition.size), edges.map Edge.named = definition.edges := by
  have resolvable : ∀ entry ∈ definition.edges,
      entry ∈ Set.range (@Edge.named definition) := by
    intro entry member
    obtain ⟨source, source_member, source_eq⟩ := wellFormed.sources_defined entry member
    obtain ⟨target, target_member, target_eq⟩ := wellFormed.targets_defined entry member
    obtain ⟨source, rfl⟩ := mem_nodes_iff.mp source_member
    obtain ⟨target, rfl⟩ := mem_nodes_iff.mp target_member
    exact ⟨⟨source, target, entry.branch⟩, by rw [Edge.named, source_eq, target_eq]⟩
  have row : definition.edges ∈ Set.range (List.map (@Edge.named definition)) := by
    rw [Set.range_list_map]
    exact resolvable
  exact row

/-- The edges of each place give its ways on. -/
theorem exists_exits_fit (wellFormed : definition.WellFormed aliases)
    (named : definition.edges = edges.map Edge.named) {place : Fin definition.size}
    {kind : NodeKind} (kind_eq : aliases.resolve? (definition.entry place).kind = some kind) :
    ∃ exits : Exits definition.size,
      kind.Suits ((edges.filter fun edge => edge.source = place).map Edge.branch) ∧
        exits.ways.Perm ((edges.filter fun edge => edge.source = place).map fun edge =>
          (edge.branch, edge.target)) := by
  have suits := wellFormed.edges_suit _ (mem_nodes_iff.mpr ⟨place, rfl⟩) kind kind_eq
  rw [wellFormed.distinct.edgesFrom_eq named, List.map_map] at suits
  obtain ⟨exits, -, ways_perm⟩ := Exits.exists_exitsOf_eq_ok suits
  exact ⟨exits, suits, ways_perm⟩

/-- A well-formed definition can be carried out. -/
theorem nonempty_plan (wellFormed : definition.WellFormed aliases) :
    Nonempty (Plan definition aliases) := by
  have distinct := wellFormed.distinct
  have entry_member : ∀ place, definition.entry place ∈ definition.nodes := fun place =>
    mem_nodes_iff.mpr ⟨place, rfl⟩
  choose kinds kinds_resolved using fun place => wellFormed.kinds_known _ (entry_member place)
  obtain ⟨start, start_eq, start_unique⟩ := wellFormed.single_start
  have start_iff : ∀ place, kinds place = .start ↔ place = start := by
    intro place
    rw [← Option.some_inj, ← kinds_resolved]
    exact ⟨start_unique place, fun same => same ▸ start_eq⟩
  obtain ⟨edges, named⟩ := wellFormed.exists_edges_named
  have start_unentered : ∀ edge ∈ edges, edge.target ≠ start := by
    rintro edge member rfl
    exact wellFormed.start_unentered edge.named (named ▸ List.mem_map_of_mem member) _
      (entry_member edge.target) start_eq rfl
  choose exits exits_fit using fun place =>
    wellFormed.exists_exits_fit named.symm (kinds_resolved place)
  have acyclic := (distinct.acyclic_iff named.symm
    (leads_targets_iff fun place => (exits_fit place).2)).mp wellFormed.acyclic
  choose tasks tasks_settled using fun place => NodeEntry.exists_task_eq_ok.mpr
    (wellFormed.settings_sound _ (entry_member place) _ (kinds_resolved place))
  exact ⟨{
    kinds := .ofFn kinds, start, edges, exits := .ofFn exits
    nodes := .ofFn fun place => ⟨(definition.entry place).identity, tasks place⟩
    distinct
    kinds_resolved := by simpa using kinds_resolved
    start_iff := by simpa using start_iff
    edges_named := named.symm
    start_unentered
    exits_fit := by simpa using exits_fit
    acyclic := by simpa using acyclic
    nodes_settled := by simpa using tasks_settled }⟩

end Definition.WellFormed

theorem Definition.exists_build_eq_ok_iff {definition : Definition} {aliases : Aliases} :
    (∃ graph, definition.build aliases = .ok graph) ↔ definition.WellFormed aliases := by
  simp only [Plan.build_eq_ok_iff]
  constructor
  · rintro ⟨_, plan, -⟩
    exact plan.wellFormed
  · intro wellFormed
    obtain ⟨plan⟩ := wellFormed.nonempty_plan
    exact ⟨plan.graph, plan, rfl⟩

/-- A graph is built exactly for a well-formed definition, and it has the nodes and edges of the
definition. -/
theorem build_succeeds_iff_wellFormed (definition : Definition) (pairs : List (String × String)) :
    ((∃ graph, definition.build (Aliases.ofList pairs) = .ok graph) ↔
      definition.WellFormed (Aliases.ofList pairs)) ∧
        ∀ graph, definition.build (Aliases.ofList pairs) = .ok graph →
          graph.Represents definition (Aliases.ofList pairs) := by
  refine ⟨⟨?_, ?_⟩, ?_⟩
  · rintro ⟨graph, built⟩
    obtain ⟨plan, -⟩ := Plan.build_eq_ok_iff.mp built
    exact plan.wellFormed
  · intro wellFormed
    obtain ⟨plan⟩ := wellFormed.nonempty_plan
    exact ⟨plan.graph, Plan.build_eq_ok_iff.mpr ⟨plan, rfl⟩⟩
  · intro graph built
    obtain ⟨plan, rfl⟩ := Plan.build_eq_ok_iff.mp built
    exact plan.represents

end RiskGraph

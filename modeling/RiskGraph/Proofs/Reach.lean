import RiskGraph.Proofs.Lockstep

/-!
# What lies in reach of the start

A run depends only on the nodes in reach of the start and on the edges between them, as they are
known by their identifiers.  The order in which a definition lists nodes and edges, how it writes
their kinds and what else it defines make no difference.
-/

namespace RiskGraph

open Relation

/-- Two entries define the same node, each under its own aliases of kinds. -/
structure NodeEntry.SameNode (entry : NodeEntry) (aliases : Aliases) (twin : NodeEntry)
    (twinAliases : Aliases) : Prop where
  id_eq : twin.id = entry.id
  /-- The name, for which the identifier stands in. -/
  name_eq : twin.identity.name = entry.identity.name
  tag_eq : twin.tag = entry.tag
  label_eq : twin.label = entry.label
  /-- The kind that its name stands for. -/
  kind_eq : twinAliases.resolve? twin.kind = aliases.resolve? entry.kind
  settings_eq : twin.settings = entry.settings

/-- A definition has the nodes that another one has in reach of an identifier, and the edges that
leave them. -/
structure Definition.Covers (twin : Definition) (twinAliases : Aliases) (definition : Definition)
    (aliases : Aliases) (start : String) : Prop where
  /-- The nodes in reach. -/
  nodes : ∀ entry ∈ definition.nodes, ReflTransGen definition.Leads start entry.id →
    ∃ other ∈ twin.nodes, entry.SameNode aliases other twinAliases
  /-- The edges that leave them. -/
  edges : ∀ source, ReflTransGen definition.Leads start source → ∀ target branch,
    { source, target, branch } ∈ definition.edges ↔ { source, target, branch } ∈ twin.edges

/-! ## Nodes -/

namespace NodeEntry

variable [Engine] {entry twin : NodeEntry} {aliases twinAliases : Aliases} {node other : Node}

theorem task_congr (id_eq : twin.id = entry.id) (settings_eq : twin.settings = entry.settings) :
    twin.task = entry.task := by
  funext kind
  cases kind <;> simp only [task, settle, id_eq, settings_eq]

/-- Entries of the same node describe nodes that differ only in how their kinds are written. -/
theorem SameNode.node_eq (same : entry.SameNode aliases twin twinAliases)
    (describes : entry.Describes aliases node) (twin_describes : twin.Describes twinAliases other) :
    other = { node with identity := { node.identity with kind := other.identity.kind } } := by
  have name_eq : other.identity.name = node.identity.name := by
    rw [twin_describes.identity_eq, same.name_eq, describes.identity_eq]
  have kind_eq : other.kind = node.kind := by
    rw [← Option.some_inj, ← twin_describes.kind_eq, same.kind_eq, describes.kind_eq]
  have task_eq : other.task = node.task := by
    rw [← Except.ok.injEq, ← twin_describes.task_eq, task_congr same.id_eq same.settings_eq,
      kind_eq, describes.task_eq]
  have id_eq := twin_describes.id_eq.trans (same.id_eq.trans describes.id_eq.symm)
  have tag_eq := twin_describes.tag_eq.trans (same.tag_eq.trans describes.tag_eq.symm)
  have label_eq := twin_describes.label_eq.trans (same.label_eq.trans describes.label_eq.symm)
  obtain ⟨⟨id, name, kind, tag, label⟩, task⟩ := other
  simp only at id_eq name_eq tag_eq label_eq task_eq
  rw [id_eq, name_eq, tag_eq, label_eq, task_eq]

end NodeEntry

/-- A visit does not depend on how the kind of the node is written. -/
theorem Node.visit_congr_kind [Engine] (node : Node) (kind : String) :
    { node with identity := { node.identity with kind } }.visit = node.visit :=
  rfl

/-! ## Runs -/

namespace Graph

variable [Engine] {definition twin : Definition} {aliases twinAliases : Aliases}
    {graph other : Graph}

/-- Nodes of one identifier, in reach of the start, differ only in how their kinds are written. -/
theorem node_eq_of_covers {start : String} (represents : graph.Represents definition aliases)
    (twin_represents : other.Represents twin twinAliases) (twin_sound : other.Sound)
    (covers : twin.Covers twinAliases definition aliases start) {place : Fin graph.size}
    {next : Fin other.size} (id_eq : other.nodes[next].id = graph.nodes[place].id)
    (reach : ReflTransGen definition.Leads start graph.nodes[place].id) :
    ∃ kind, other.nodes[next] = { graph.nodes[place] with
      identity := { graph.nodes[place].identity with kind } } := by
  obtain ⟨entry, member, describes⟩ := represents.exists_entry place
  have entry_id : graph.nodes[place].id = entry.id := describes.id_eq
  obtain ⟨twin_entry, twin_member, same⟩ := covers.nodes entry member (entry_id ▸ reach)
  obtain ⟨found, twin_describes⟩ := twin_represents.exists_place twin_member
  have found_id : other.nodes[found].id = twin_entry.id := twin_describes.id_eq
  obtain rfl : found = next := twin_sound.id_injective (by
    simp only [found_id, same.id_eq, id_eq, entry_id])
  exact ⟨_, same.node_eq describes twin_describes⟩

/-- Runs are kept side by side at nodes of one identifier. -/
theorem lockstep_of_covers {start : String} (represents : graph.Represents definition aliases)
    (sound : graph.Sound) (twin_represents : other.Represents twin twinAliases)
    (twin_sound : other.Sound) (covers : twin.Covers twinAliases definition aliases start) :
    Lockstep graph other
      (fun place walk next left => left = walk ∧
        other.nodes[next].id = graph.nodes[place].id ∧
          ReflTransGen definition.Leads start graph.nodes[place].id)
      (fun walk left => left = walk) := by
  have visit_eq : ∀ {place : Fin graph.size} {next : Fin other.size},
      other.nodes[next].id = graph.nodes[place].id →
      ReflTransGen definition.Leads start graph.nodes[place].id →
        other.nodes[next].visit = graph.nodes[place].visit := by
    intro place next id_eq reach
    obtain ⟨kind, node_eq⟩ :=
      node_eq_of_covers represents twin_represents twin_sound covers id_eq reach
    rw [node_eq, Node.visit_congr_kind]
  constructor
  case visit_eq =>
    rintro place walk next _ ⟨rfl, id_eq, reach⟩
    rw [visit_eq id_eq reach]
  case level =>
    rintro place walk next _ ⟨rfl, id_eq, reach⟩
    rw [visit_eq id_eq reach]
  case onward =>
    rintro place walk next _ outcome ⟨rfl, id_eq, reach⟩ came_to passes
    obtain ⟨_, _, performs⟩ := Node.exists_performs_of_visit came_to
    rw [← visit_eq id_eq reach] at came_to
    obtain ⟨_, _, twin_performs⟩ := Node.exists_performs_of_visit came_to
    have edges : ∀ target branch,
        { source := graph.nodes[place].id, target, branch } ∈ definition.edges →
          { source := other.nodes[next].id, target, branch } ∈ twin.edges := by
      intro target branch edge
      rw [id_eq]
      exact (covers.edges _ reach _ _).mp edge
    obtain ⟨target, found, followed, twin_followed, same_id, leads⟩ := exists_follow_both represents
      sound twin_represents twin_sound edges performs twin_performs passes
    exact ⟨target, found, followed, twin_followed, by rw [visit_eq id_eq reach], same_id,
      reach.tail leads⟩

/-- Definitions that have the same in reach of the start decide alike. -/
theorem run_eq_of_covers {pairs twinPairs : List (String × String)}
    (built : definition.build (Aliases.ofList pairs) = .ok graph)
    (twin_built : twin.build (Aliases.ofList twinPairs) = .ok other)
    (start_eq : other.nodes[other.start].id = graph.nodes[graph.start].id)
    (covers : twin.Covers (Aliases.ofList twinPairs) definition (Aliases.ofList pairs)
      graph.nodes[graph.start].id) :
    (∀ features, other.decide features = graph.decide features) ∧
      ∀ walk, other.run walk = graph.run walk := by
  have sound := sound_of_build built
  have twin_sound := sound_of_build twin_built
  have lockstep := lockstep_of_covers (represents_of_build built) sound
    (represents_of_build twin_built) twin_sound covers
  have run_eq : ∀ walk, other.run walk = graph.run walk := by
    intro walk
    have abreast : walk = walk ∧ other.nodes[other.start].id = graph.nodes[graph.start].id ∧
        ReflTransGen definition.Leads graph.nodes[graph.start].id graph.nodes[graph.start].id :=
      ⟨rfl, start_eq, .refl⟩
    obtain ⟨ending, ran, twin_ran, level⟩ := lockstep.run sound twin_sound abreast
    exact Prod.ext (by rw [ran, twin_ran, level]) level
  exact ⟨fun features => by rw [decide, run_eq, ← decide], run_eq⟩

end Graph

/-- The entry of `minors` under an alias, if it is an end. -/
def aliased (entry : NodeEntry) : NodeEntry :=
  if entry.kind = "end" then { entry with kind := "Verdict" } else entry

/-- The nodes and edges of `minors` in another order, and a scorecard that is out of reach. -/
def reordered : Definition where
  nodes :=
    { id := "spare", kind := "scorecard"
      settings := .object [("items", .array []), ("output", .text "score")] } ::
        (minors.nodes.map aliased).reverse
  edges := { source := "spare", target := "limit" } :: minors.edges.reverse

theorem Definition.covers_reordered :
    reordered.Covers (Aliases.ofList [("verdict", "end")]) minors (Aliases.ofList [])
      "request" := by
  have apart : ∀ source, ReflTransGen minors.Leads "request" source → source ≠ "spare" := by
    rintro source reach rfl
    rcases reach.cases_tail with impossible | ⟨_, -, edge, member, -, target_eq⟩
    · nomatch impossible
    · have spared : ∀ edge ∈ minors.edges, edge.target ≠ "spare" := by decide +kernel
      exact spared edge member target_eq
  have kinds_eq : ∀ entry ∈ minors.nodes,
      (Aliases.ofList [("verdict", "end")]).resolve? (aliased entry).kind =
        (Aliases.ofList []).resolve? entry.kind := by
    decide +kernel
  constructor
  case nodes =>
    intro entry member _
    refine ⟨aliased entry, ?_, ?_⟩
    · exact List.mem_cons_of_mem _ (List.mem_reverse.mpr (List.mem_map_of_mem member))
    · have kind_eq := kinds_eq entry member
      by_cases ends : entry.kind = "end"
      · simp only [aliased, if_pos ends] at kind_eq ⊢
        exact ⟨rfl, rfl, rfl, rfl, kind_eq, rfl⟩
      · simp only [aliased, if_neg ends] at kind_eq ⊢
        exact ⟨rfl, rfl, rfl, rfl, kind_eq, rfl⟩
  case edges =>
    intro source reach target branch
    simp [reordered, apart source reach]

section

open scoped Engine.Plain

theorem Graph.run_eq_of_covers_reordered :
    ∃ graph other, minors.build (Aliases.ofList []) = .ok graph ∧
      reordered.build (Aliases.ofList [("verdict", "end")]) = .ok other ∧
        other.nodes[other.start].id = graph.nodes[graph.start].id ∧
          reordered.Covers (Aliases.ofList [("verdict", "end")]) minors (Aliases.ofList [])
            graph.nodes[graph.start].id ∧
            (∀ features, other.decide features = graph.decide features) ∧
              ∀ walk, other.run walk = graph.run walk := by
  have starts : ((minors.build (Aliases.ofList [])).toOption.bind fun graph =>
      (reordered.build (Aliases.ofList [("verdict", "end")])).toOption.map fun other =>
        (graph.nodes[graph.start].id, other.nodes[other.start].id)) =
          some ("request", "request") := by
    decide +kernel
  obtain ⟨graph, found, starts⟩ := Option.bind_eq_some_iff.mp starts
  obtain ⟨other, twin_found, starts⟩ := Option.map_eq_some_iff.mp starts
  obtain ⟨start_eq, twin_start_eq⟩ := Prod.mk.inj starts
  have built := toOption_eq_some.mp found
  have twin_built := toOption_eq_some.mp twin_found
  have same_start := twin_start_eq.trans start_eq.symm
  have covers := Definition.covers_reordered
  rw [← start_eq] at covers
  exact ⟨graph, other, built, twin_built, same_start, covers,
    run_eq_of_covers built twin_built same_start covers⟩

end

end RiskGraph

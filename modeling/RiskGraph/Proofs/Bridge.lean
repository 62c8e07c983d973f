import RiskGraph.Proofs.Rejection

/-!
# What a defect for cycles names

A definition that is rejected for its cycles is told the nodes on them, and with these the nodes
that bridge two cycles: a way leads to them from one cycle and from them to another.  The defect
names nothing but members of cycles exactly if no edge leaves a cycle for a bridge.
-/

namespace RiskGraph

open Relation

/-- Settings are not to blame for cycles. -/
theorem NodeEntry.not_misset_cycle [Engine] {entry : NodeEntry} {kind : NodeKind}
    {ids : List String} :
    ¬entry.Misset kind (.cycle ids) := by
  intro misset
  cases kind with
  | start | finish => exact misset
  | condition | ruleset | scorecard => cases misset

namespace Definition

variable {definition : Definition} {aliases : Aliases} {ids : List String} {id : String}

/-- A way of at least one edge leads from a node back to it. -/
def Cyclic (definition : Definition) (id : String) : Prop :=
  TransGen definition.Leads id id

/-- A node is on no cycle, but on a way from one cycle to another, from which none leads back. -/
def Bridges (definition : Definition) (id : String) : Prop :=
  ¬definition.Cyclic id ∧ ∃ origin final, definition.Cyclic origin ∧ definition.Cyclic final ∧
    TransGen definition.Leads origin id ∧ TransGen definition.Leads id final ∧
      ¬TransGen definition.Leads final origin

/-- What a defect for cycles names of a definition. -/
structure NamesCycles (definition : Definition) (ids : List String) : Prop where
  /-- There is a cycle. -/
  cyclic : ∃ id, definition.Cyclic id
  /-- The identifiers are distinct, and in their order. -/
  sorted : ids.SortedLT
  /-- They are identifiers of nodes. -/
  defined : ∀ id ∈ ids, definition.Defines id
  /-- They are those on cycles and those that bridge two. -/
  mem_iff : ∀ id, id ∈ ids ↔ definition.Cyclic id ∨ definition.Bridges id
  /-- All are on cycles exactly if each edge from a cycle, beyond which there is a cycle, leads to a
  node on one. -/
  forall_cyclic_iff : (∀ id ∈ ids, definition.Cyclic id) ↔
    ∀ source target final, definition.Cyclic source → definition.Leads source target →
      TransGen definition.Leads target final → definition.Cyclic final → definition.Cyclic target

/-! ## Between cycles -/

theorem Cyclic.betweenCycles (cyclic : definition.Cyclic id) : definition.BetweenCycles id :=
  ⟨⟨id, cyclic, cyclic⟩, id, cyclic, cyclic⟩

theorem betweenCycles_iff_cyclic_or_bridges :
    definition.BetweenCycles id ↔ definition.Cyclic id ∨ definition.Bridges id := by
  constructor
  · rintro ⟨⟨origin, origin_cyclic, front⟩, final, back, final_cyclic⟩
    refine or_iff_not_imp_left.mpr fun acyclic =>
      ⟨acyclic, origin, final, origin_cyclic, final_cyclic, front, back, ?_⟩
    -- a way back would put the node on a cycle
    exact fun returns => acyclic ((back.trans returns).trans front)
  · rintro (cyclic | ⟨-, origin, final, origin_cyclic, final_cyclic, front, back, -⟩)
    · exact cyclic.betweenCycles
    · exact ⟨⟨origin, origin_cyclic, front⟩, final, back, final_cyclic⟩

/-- Nodes between cycles are all on cycles if the first one behind a cycle always is. -/
theorem forall_betweenCycles_cyclic_iff :
    (∀ id, definition.BetweenCycles id → definition.Cyclic id) ↔
      ∀ source target final, definition.Cyclic source → definition.Leads source target →
        TransGen definition.Leads target final → definition.Cyclic final →
          definition.Cyclic target := by
  constructor
  · intro kept source target final source_cyclic edge back final_cyclic
    exact kept target ⟨⟨source, source_cyclic, .single edge⟩, final, back, final_cyclic⟩
  · rintro kept id ⟨⟨origin, origin_cyclic, front⟩, final, back, final_cyclic⟩
    -- from the cycle on, each node of the way is on a cycle as the one before it is
    induction front with
    | single edge => exact kept origin _ final origin_cyclic edge back final_cyclic
    | tail _ edge induction =>
        exact kept _ _ final (induction (.head edge back)) edge back final_cyclic

theorem BetweenCycles.defines [Engine] (between : definition.BetweenCycles id)
    (joining : definition.Meets aliases .joiningEdges) : definition.Defines id := by
  obtain ⟨-, final, back, -⟩ := between
  obtain ⟨_, ⟨edge, member, rfl, -⟩, -⟩ := TransGen.head'_iff.mp back
  exact (joining edge member).source_defined

/-! ## The defect -/

/-- A definition that is rejected for cycles has met the requirements before this one. -/
theorem blames_of_build_eq_cycle [Engine]
    (rejected : definition.build aliases = .error (.cycle ids)) :
    definition.Meets aliases .joiningEdges ∧ definition.Blames aliases .noCycle (.cycle ids) := by
  obtain failed | ⟨_, checked, rejected⟩ := bind_eq_error.mp rejected
  · have blamed : definition.Blames aliases .distinctIds (.cycle ids) :=
      checkDistinct_eq_error_iff.mp failed
    cases blamed
  have distinct := checkDistinct_eq_ok_iff.mp checked
  obtain failed | ⟨kinds, resolved, rejected⟩ := bind_eq_error.mp rejected
  · cases collect_kindAt_eq_error_iff.mp failed
  have kinds_resolved := fun place => kindAt_eq_ok_iff.mp (collect_eq_ok.mp resolved place)
  obtain failed | ⟨start, found, rejected⟩ := bind_eq_error.mp rejected
  · cases (findStart_eq_error_iff kinds_resolved).mp failed
  have starts_eq := starts_eq_of_findStart kinds_resolved found
  obtain failed | ⟨edges, edges_resolved, rejected⟩ := bind_eq_error.mp rejected
  · cases (distinct.mapM_resolveEdge_eq_error_iff starts_eq).mp failed
  have joining :=
    (distinct.exists_mapM_resolveEdge_eq_ok_iff starts_eq).mp ⟨edges, edges_resolved⟩
  have named := (distinct.mapM_resolveEdge_eq_ok_iff.mp edges_resolved).1
  obtain failed | ⟨exits, given, rejected⟩ := bind_eq_error.mp rejected
  · cases (distinct.collect_exitsAt_eq_error_iff named kinds_resolved).mp failed
  have ways_perm := fun place => (exitsAt_eq_ok_iff.mp (collect_eq_ok.mp given place)).2
  refine ⟨joining, ?_⟩
  obtain failed | ⟨_, -, rejected⟩ := bind_eq_error.mp rejected
  · exact (distinct.checkAcyclic_eq_error_iff named (leads_targets_iff ways_perm)).mp failed
  -- behind the check for cycles only settings are left to fail
  obtain failed | ⟨_, -, built⟩ := bind_eq_error.mp rejected
  · cases (collect_toNode_eq_error_iff kinds_resolved).mp failed with
    | settings _ _ misset => exact absurd misset NodeEntry.not_misset_cycle
  · cases built

/-- A defect for cycles names the nodes on cycles and the bridges between them. -/
theorem namesCycles_of_build [Engine] {pairs : List (String × String)}
    (rejected : definition.build (Aliases.ofList pairs) = .error (.cycle ids)) :
    definition.NamesCycles ids := by
  obtain ⟨joining, blamed⟩ := blames_of_build_eq_cycle rejected
  cases blamed with
  | cycle cyclic sorted mem_iff =>
      constructor
      case cyclic => exact cyclic
      case sorted => exact sorted
      case defined => exact fun id member => ((mem_iff id).mp member).defines joining
      case mem_iff => exact fun id => (mem_iff id).trans betweenCycles_iff_cyclic_or_bridges
      case forall_cyclic_iff => simp only [mem_iff, forall_betweenCycles_cyclic_iff]

/-- A score that one circle of conditions leads to and that leads to another one. -/
def rescored : Definition where
  nodes := [
    { id := "request", kind := "start" },
    { id := "income", kind := "condition" },
    { id := "rating", kind := "scorecard" },
    { id := "limit", kind := "condition" },
    { id := "pass", kind := "end" }]
  edges := [
    { source := "request", target := "income" },
    { source := "income", target := "income", branch := some true },
    { source := "income", target := "rating", branch := some false },
    { source := "rating", target := "limit" },
    { source := "limit", target := "limit", branch := some true },
    { source := "limit", target := "pass", branch := some false }]

section

open scoped Engine.Plain

theorem namesCycles_of_build_rescored :
    rescored.build (Aliases.ofList []) = .error (.cycle ["income", "limit", "rating"]) ∧
      rescored.NamesCycles ["income", "limit", "rating"] := by
  have rejected : rescored.build (Aliases.ofList []) =
      .error (.cycle ["income", "limit", "rating"]) :=
    rfl
  exact ⟨rejected, namesCycles_of_build rejected⟩

/-- A bridge is named although it is on no cycle. -/
theorem rescored_names_bridge :
    rescored.build (Aliases.ofList []) = .error (.cycle ["income", "limit", "rating"]) ∧
      ¬∀ id ∈ ["income", "limit", "rating"], rescored.Cyclic id := by
  refine ⟨rfl, fun cyclic => ?_⟩
  have onward : ∀ edge ∈ rescored.edges, edge.source ∈ ["rating", "limit", "pass"] →
      edge.target ∈ ["limit", "pass"] := by
    decide +kernel
  have beyond : ∀ id, TransGen rescored.Leads "rating" id → id ∈ ["limit", "pass"] := by
    intro id way
    induction way with
    | single edge =>
        obtain ⟨edge, member, source_eq, rfl⟩ := edge
        exact onward edge member (by simp [source_eq])
    | tail _ edge induction =>
        obtain ⟨edge, member, rfl, rfl⟩ := edge
        exact onward edge member (List.mem_cons_of_mem _ induction)
  exact absurd (beyond "rating" (cyclic "rating" (by decide))) (by decide)

end

end Definition
end RiskGraph

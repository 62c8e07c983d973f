import RiskGraph.Proofs.Acceptance
import RiskGraph.Proofs.CycleCore
import RiskGraph.Proofs.Requirements

/-!
# Definitions that are rejected

Each stage of building a graph fails exactly if the definition does not meet the requirement that
the stage checks, and with the defect that blames the first node or edge at fault.  A definition is
therefore rejected for the first requirement that it does not meet.
-/

namespace RiskGraph

open Relation

/-! ## Identifiers -/

theorem firstRepeated?_eq_some_iff {seen texts : List String} {text : String} :
    firstRepeated? seen texts = some text ↔
      ∃ before after, texts = before ++ text :: after ∧
        (before.Nodup ∧ ∀ other ∈ before, other ∉ seen) ∧ (text ∈ before ∨ text ∈ seen) := by
  induction texts generalizing seen with
  | nil => simp [firstRepeated?]
  | cons first texts induction =>
      by_cases repeated : first ∈ seen
      · have found : firstRepeated? seen (first :: texts) = some first := by
          simp [firstRepeated?, repeated]
        rw [found, Option.some_inj]
        constructor
        · rintro rfl
          exact ⟨[], texts, rfl, by simp, Or.inr repeated⟩
        · rintro ⟨_ | ⟨other, before⟩, after, texts_eq, ⟨-, fresh⟩, -⟩
          · exact (List.cons.inj texts_eq).1
          · obtain ⟨rfl, -⟩ := List.cons.inj texts_eq
            exact absurd repeated (fresh first List.mem_cons_self)
      · have later : firstRepeated? seen (first :: texts) =
            firstRepeated? (first :: seen) texts := by
          simp [firstRepeated?, repeated]
        rw [later, induction]
        constructor
        · rintro ⟨before, after, rfl, ⟨distinct, fresh⟩, text_again⟩
          refine ⟨first :: before, after, rfl, ⟨?_, ?_⟩, ?_⟩
          · exact List.nodup_cons.mpr
              ⟨fun again => fresh first again List.mem_cons_self, distinct⟩
          · exact List.forall_mem_cons.mpr ⟨repeated, fun other member seen_before =>
              fresh other member (List.mem_cons_of_mem first seen_before)⟩
          · simpa [or_left_comm, or_assoc] using text_again
        · rintro ⟨_ | ⟨other, before⟩, after, texts_eq, ⟨distinct, fresh⟩, text_again⟩
          · obtain ⟨rfl, -⟩ := List.cons.inj texts_eq
            exact absurd (text_again.resolve_left List.not_mem_nil) repeated
          · obtain ⟨rfl, rfl⟩ := List.cons.inj texts_eq
            rw [List.nodup_cons] at distinct
            rw [List.forall_mem_cons] at fresh
            refine ⟨before, after, rfl, ⟨distinct.2, ?_⟩, ?_⟩
            · intro other member seen_before
              rcases List.mem_cons.mp seen_before with rfl | earlier
              · exact distinct.1 member
              · exact fresh.2 other member earlier
            · simpa [or_left_comm, or_assoc] using text_again

namespace Definition

variable {definition : Definition} {aliases : Aliases} {defect : Defect}

theorem checkDistinct_eq_error_iff [Engine] :
    definition.checkDistinct = .error defect ↔
      definition.Blames aliases .distinctIds defect := by
  have first_iff : definition.checkDistinct = .error defect ↔
      ∃ id, firstRepeated? [] (definition.nodes.map NodeEntry.id) = some id ∧
        .duplicate id = defect := by
    rw [checkDistinct]
    cases firstRepeated? [] (definition.nodes.map NodeEntry.id) <;> simp
  rw [first_iff]
  simp only [firstRepeated?_eq_some_iff, List.not_mem_nil, not_false_eq_true, implies_true,
    and_true, or_false]
  constructor
  · rintro ⟨_, ⟨_, _, ids_eq, distinct, repeats⟩, rfl⟩
    obtain ⟨before, rest, nodes_eq, rfl, rest_eq⟩ := List.map_eq_append_iff.mp ids_eq
    obtain ⟨entry, after, rfl, rfl, rfl⟩ := List.map_eq_cons_iff.mp rest_eq
    exact .duplicate nodes_eq distinct repeats
  · rintro ⟨nodes_eq, distinct, repeats⟩
    exact ⟨_, ⟨_, _, by rw [nodes_eq, List.map_append, List.map_cons], distinct, repeats⟩, rfl⟩

theorem exists_checkDistinct_eq_ok_iff [Engine] :
    (∃ result, definition.checkDistinct = .ok result) ↔ definition.Meets aliases .distinctIds := by
  rw [Meets, ← checkDistinct_eq_ok_iff]
  exact ⟨fun ⟨(), checked⟩ => checked, fun checked => ⟨(), checked⟩⟩

/-! ## Steps for each node -/

theorem map_entry_finRange (definition : Definition) :
    (List.finRange definition.size).map definition.entry = definition.nodes :=
  List.map_get_finRange definition.nodes

section

variable {β : Type} {f : Fin definition.size → Except Defect β} (Good Fault : NodeEntry → Prop)

/-- A family of steps, one for each node, succeeds if all nodes have what it asks for. -/
theorem exists_collect_eq_ok_iff
    (succeeds : ∀ place, (∃ result, f place = .ok result) ↔ Good (definition.entry place)) :
    (∃ results, collect f = .ok results) ↔ ∀ entry ∈ definition.nodes, Good entry := by
  simp only [exists_collect_eq_ok, succeeds, mem_nodes_iff, forall_exists_index,
    forall_apply_eq_imp_iff]

/-- A family of steps, one for each node, fails at the first node that lacks what it asks for. -/
theorem collect_eq_error_iff
    (succeeds : ∀ place, (∃ result, f place = .ok result) ↔ Good (definition.entry place))
    (fails : ∀ place, ¬Good (definition.entry place) →
      (f place = .error defect ↔ Fault (definition.entry place))) :
    collect f = .error defect ↔
      ∃ entry, FirstLacking Good definition.nodes entry ∧ Fault entry := by
  rw [collect_eq_error, ← map_entry_finRange]
  simp only [succeeds, firstLacking_map_iff]
  constructor
  · rintro ⟨place, first, failed⟩
    exact ⟨_, ⟨place, first, rfl⟩, (fails place first.lacks).mp failed⟩
  · rintro ⟨_, ⟨place, first, rfl⟩, fault⟩
    exact ⟨place, first, (fails place first.lacks).mpr fault⟩

end

/-! ## Kinds and starts -/

theorem exists_kindAt_eq_ok_iff (place : Fin definition.size) :
    (∃ kind, definition.kindAt aliases place = .ok kind) ↔
      ∃ kind, aliases.resolve? (definition.entry place).kind = some kind :=
  exists_congr fun _ => kindAt_eq_ok_iff

theorem collect_kindAt_eq_error_iff [Engine] :
    collect (definition.kindAt aliases) = .error defect ↔
      definition.Blames aliases .knownKinds defect := by
  have fails : ∀ place,
      (¬∃ kind, aliases.resolve? (definition.entry place).kind = some kind) →
        (definition.kindAt aliases place = .error defect ↔
          .unknownKind (definition.entry place).id (definition.entry place).kind = defect) := by
    intro place unknown
    rw [kindAt]
    cases resolved : aliases.resolve? (definition.entry place).kind with
    | none => simp
    | some kind => exact absurd ⟨kind, resolved⟩ unknown
  rw [collect_eq_error_iff (fun entry => ∃ kind, aliases.resolve? entry.kind = some kind)
    (fun entry => .unknownKind entry.id entry.kind = defect) exists_kindAt_eq_ok_iff fails]
  constructor
  · rintro ⟨entry, first, rfl⟩
    exact .unknownKind first
  · intro blamed
    cases blamed with
    | unknownKind first => exact ⟨_, first, rfl⟩

section

variable {kinds : Vector NodeKind definition.size}
  (kinds_resolved : ∀ place : Fin definition.size,
    aliases.resolve? (definition.entry place).kind = some kinds[place])

include kinds_resolved

/-- The starts are the nodes whose kind has been found to be that of a start. -/
theorem starts_eq_map :
    definition.starts aliases =
      ((List.finRange definition.size).filter fun place => kinds[place] = .start).map
        definition.entry := by
  rw [starts, ← map_entry_finRange, List.filter_map]
  congr 1
  refine List.filter_congr fun place _ => ?_
  simp [kinds_resolved]

theorem exists_findStart_eq_ok_iff [Engine] :
    (∃ start, definition.findStart kinds = .ok start) ↔
      definition.Meets aliases .singleStart := by
  rw [Meets, starts_eq_map kinds_resolved, findStart]
  generalize (List.finRange definition.size).filter (fun place => kinds[place] = .start) = places
  obtain _ | ⟨first, _ | ⟨second, others⟩⟩ := places <;> simp

theorem starts_eq_of_findStart {start : Fin definition.size}
    (found : definition.findStart kinds = .ok start) :
    definition.starts aliases = [definition.entry start] := by
  rw [starts_eq_map kinds_resolved]
  rw [findStart] at found
  split at found
  · cases found
  · next places_eq =>
      cases found
      rw [places_eq, List.map_singleton]
  · cases found

theorem findStart_eq_error_iff [Engine] :
    definition.findStart kinds = .error defect ↔
      definition.Blames aliases .singleStart defect := by
  have starts_eq := starts_eq_map kinds_resolved
  rw [findStart]
  generalize (List.finRange definition.size).filter (fun place => kinds[place] = .start) = places
    at starts_eq
  have ids_eq : (definition.starts aliases).map NodeEntry.id =
      places.map fun place => (definition.entry place).id := by
    rw [starts_eq, List.map_map]
    rfl
  have length_eq : (definition.starts aliases).length = places.length := by
    rw [starts_eq, List.length_map]
  constructor
  · intro failed
    obtain _ | ⟨first, _ | ⟨second, others⟩⟩ := places
    · cases failed
      exact .noStart starts_eq
    · cases failed
    · cases failed
      rw [← ids_eq]
      exact .manyStarts (by simp [length_eq])
  · intro blamed
    cases blamed with
    | noStart none_starts =>
        rw [none_starts, List.length_nil, eq_comm, List.length_eq_zero_iff] at length_eq
        rw [length_eq]
    | manyStarts many =>
        rw [ids_eq]
        rw [length_eq] at many
        obtain _ | ⟨first, _ | ⟨second, others⟩⟩ := places
        · cases many
        · simp at many
        · rfl

end

/-! ## Edges -/

theorem defines_iff {id : String} :
    definition.Defines id ↔ ∃ place, (definition.entry place).id = id := by
  simp only [Defines, mem_nodes_iff, exists_exists_eq_and]

theorem Distinct.get?_index_eq_none_iff (distinct : definition.Distinct) {id : String} :
    definition.index.get? id = none ↔ ¬definition.Defines id := by
  simp only [Option.eq_none_iff_forall_ne_some, defines_iff, not_exists, ne_eq,
    distinct.get?_index_eq_some_iff]

theorem Distinct.endpoint_eq_error_iff (distinct : definition.Distinct) {edge : EdgeEntry}
    {id : String} :
    endpoint definition.index edge id = .error defect ↔
      ¬definition.Defines id ∧ .unknownNode id edge.source edge.target = defect := by
  rw [← distinct.get?_index_eq_none_iff, endpoint]
  cases definition.index.get? id <;> simp

section

variable {start : Fin definition.size} {edge : EdgeEntry} (distinct : definition.Distinct)

include distinct

theorem Distinct.resolveEdge_eq_error_iff :
    resolveEdge definition.index start edge = .error defect ↔
      ¬definition.Defines edge.source ∧
          .unknownNode edge.source edge.source edge.target = defect ∨
        definition.Defines edge.source ∧
          (¬definition.Defines edge.target ∧
              .unknownNode edge.target edge.source edge.target = defect ∨
            edge.target = (definition.entry start).id ∧
              .edges edge.target (.entersStart edge.source) = defect) := by
  simp only [resolveEdge, bind_eq_error, distinct.endpoint_eq_error_iff, endpoint_eq_ok_iff,
    distinct.get?_index_eq_some_iff]
  refine or_congr_right ?_
  constructor
  · rintro ⟨source, source_eq, undefined | ⟨target, target_eq, entering⟩⟩
    · exact ⟨defines_iff.mpr ⟨source, source_eq⟩, Or.inl undefined⟩
    · refine ⟨defines_iff.mpr ⟨source, source_eq⟩, Or.inr ?_⟩
      split at entering
      · next enters => exact ⟨by rw [← enters, target_eq], Except.error.inj entering⟩
      · cases entering
  · rintro ⟨source_defined, undefined | ⟨target_eq, rfl⟩⟩
    · obtain ⟨source, source_eq⟩ := defines_iff.mp source_defined
      exact ⟨source, source_eq, Or.inl undefined⟩
    · obtain ⟨source, source_eq⟩ := defines_iff.mp source_defined
      exact ⟨source, source_eq, Or.inr ⟨start, target_eq.symm, if_pos rfl⟩⟩

variable (starts_eq : definition.starts aliases = [definition.entry start])

include starts_eq

theorem Distinct.exists_resolveEdge_eq_ok_iff :
    (∃ resolved, resolveEdge definition.index start edge = .ok resolved) ↔
      definition.Joins aliases edge := by
  simp only [distinct.resolveEdge_eq_ok_iff]
  constructor
  · rintro ⟨resolved, rfl, outside⟩
    refine ⟨defines_iff.mpr ⟨_, rfl⟩, defines_iff.mpr ⟨_, rfl⟩, ?_⟩
    intro entry is_start same
    rw [starts_eq, List.mem_singleton] at is_start
    subst is_start
    exact outside (distinct.entry_injective same)
  · rintro ⟨source_defined, target_defined, unentered⟩
    obtain ⟨source, source_eq⟩ := defines_iff.mp source_defined
    obtain ⟨target, target_eq⟩ := defines_iff.mp target_defined
    refine ⟨⟨source, target, edge.branch⟩, by rw [Edge.named, source_eq, target_eq], ?_⟩
    rintro rfl
    exact unentered _ (starts_eq ▸ List.mem_singleton_self _) target_eq.symm

theorem Distinct.exists_mapM_resolveEdge_eq_ok_iff [Engine] :
    (∃ edges, definition.edges.mapM (resolveEdge definition.index start) = .ok edges) ↔
      definition.Meets aliases .joiningEdges := by
  simp only [exists_mapM_eq_ok, distinct.exists_resolveEdge_eq_ok_iff starts_eq, Meets]

theorem Distinct.mapM_resolveEdge_eq_error_iff [Engine] :
    definition.edges.mapM (resolveEdge definition.index start) = .error defect ↔
      definition.Blames aliases .joiningEdges defect := by
  simp only [mapM_eq_error, distinct.exists_resolveEdge_eq_ok_iff starts_eq,
    distinct.resolveEdge_eq_error_iff]
  constructor
  · rintro ⟨edge, first, ⟨undefined, rfl⟩ | ⟨defined, ⟨undefined, rfl⟩ | ⟨enters, rfl⟩⟩⟩
    · exact .unknownSource first undefined
    · exact .unknownTarget first defined undefined
    · exact .entersStart first defined (starts_eq ▸ List.mem_singleton_self _) enters
  · intro blamed
    cases blamed with
    | unknownSource first undefined => exact ⟨_, first, Or.inl ⟨undefined, rfl⟩⟩
    | unknownTarget first defined undefined =>
        exact ⟨_, first, Or.inr ⟨defined, Or.inl ⟨undefined, rfl⟩⟩⟩
    | entersStart first defined is_start enters =>
        rw [starts_eq, List.mem_singleton] at is_start
        subst is_start
        exact ⟨_, first, Or.inr ⟨defined, Or.inr ⟨enters, rfl⟩⟩⟩

end

end Definition

/-! ## Ways on -/

/-- Edges that do not suit a kind are refused with their fault. -/
theorem Exits.exitsOf_eq_error {size : Nat} {kind : NodeKind} {edges : List (Edge size)}
    (unfit : ¬kind.Suits (edges.map Edge.branch)) :
    Definition.exitsOf kind edges = .error (kind.edgeFault (edges.map Edge.branch)) := by
  rcases given : Definition.exitsOf kind edges with fault | exits
  · -- by the kind, since several branches of the check give the same fault
    refine congrArg Except.error ?_
    cases kind with
    | finish =>
        simp only [Definition.exitsOf] at given
        split at given
        · cases given
        · exact (Except.error.inj given).symm
    | condition =>
        simp only [Definition.exitsOf] at given
        rw [NodeKind.edgeFault, List.length_map]
        split at given
        · split at given
          · cases given
          · exact (Except.error.inj given).symm
        · exact (Except.error.inj given).symm
    | start | ruleset | scorecard =>
        obtain _ | ⟨edge, _ | ⟨second, others⟩⟩ := edges
        case cons.nil =>
          simp only [Definition.exitsOf] at given
          split at given
          · cases given
          · exact (Except.error.inj given).symm
        all_goals
          cases given
          simp [NodeKind.edgeFault]
  · exact absurd (suits_of_exitsOf given) unfit

namespace Definition

variable {definition : Definition} {aliases : Aliases} {defect : Defect}

section

variable {edges : List (Edge definition.size)} (distinct : definition.Distinct)
  (named : definition.edges = edges.map Edge.named)

include distinct named

theorem Distinct.branchesFrom_eq (place : Fin definition.size) :
    definition.branchesFrom (definition.entry place).id =
      (edges.filter fun edge => edge.source = place).map Edge.branch := by
  rw [branchesFrom, distinct.edgesFrom_eq named, List.map_map]
  rfl

variable {kinds : Vector NodeKind definition.size}
  (kinds_resolved : ∀ place : Fin definition.size,
    aliases.resolve? (definition.entry place).kind = some kinds[place])

include kinds_resolved

theorem Distinct.fitsEdges_iff (place : Fin definition.size) :
    definition.FitsEdges aliases (definition.entry place) ↔
      kinds[place].Suits ((edges.filter fun edge => edge.source = place).map Edge.branch) := by
  simp [FitsEdges, kinds_resolved, distinct.branchesFrom_eq named]

theorem Distinct.exists_exitsAt_eq_ok_iff (place : Fin definition.size) :
    (∃ exits, definition.exitsAt kinds edges place = .ok exits) ↔
      definition.FitsEdges aliases (definition.entry place) := by
  simp only [distinct.fitsEdges_iff named kinds_resolved, exitsAt_eq_ok_iff, exists_and_left,
    and_iff_left_iff_imp]
  intro suits
  obtain ⟨exits, -, ways_perm⟩ := Exits.exists_exitsOf_eq_ok suits
  exact ⟨exits, ways_perm⟩

theorem Distinct.collect_exitsAt_eq_error_iff [Engine] :
    collect (definition.exitsAt kinds edges) = .error defect ↔
      definition.Blames aliases .fittingEdges defect := by
  have fails : ∀ place, ¬definition.FitsEdges aliases (definition.entry place) →
      (definition.exitsAt kinds edges place = .error defect ↔
        ∃ kind, aliases.resolve? (definition.entry place).kind = some kind ∧
          .edges (definition.entry place).id
            (kind.edgeFault (definition.branchesFrom (definition.entry place).id)) = defect) := by
    intro place unfit
    rw [distinct.fitsEdges_iff named kinds_resolved] at unfit
    rw [exitsAt, Exits.exitsOf_eq_error unfit, distinct.branchesFrom_eq named]
    simp [Except.mapError, kinds_resolved]
  rw [collect_eq_error_iff (definition.FitsEdges aliases) (fun entry => ∃ kind,
    aliases.resolve? entry.kind = some kind ∧
      .edges entry.id (kind.edgeFault (definition.branchesFrom entry.id)) = defect)
    (distinct.exists_exitsAt_eq_ok_iff named kinds_resolved) fails]
  constructor
  · rintro ⟨entry, first, kind, kind_eq, rfl⟩
    exact .unfitEdges first kind_eq
  · intro blamed
    cases blamed with
    | unfitEdges first kind_eq => exact ⟨_, first, _, kind_eq, rfl⟩

end

/-! ## Cycles -/

section

variable {edges : List (Edge definition.size)}
  {successors : Fin definition.size → List (Fin definition.size)}
  {core : List (Fin definition.size)} (distinct : definition.Distinct)
  (named : definition.edges = edges.map Edge.named)
  (successors_iff : ∀ source target, RiskGraph.Leads successors source target ↔
    ∃ edge ∈ edges, edge.source = source ∧ edge.target = target)

include distinct

theorem Distinct.sortedLT_core (found : cycleCore? successors = some core) :
    (sortTexts (core.map fun place => (definition.entry place).id)).SortedLT :=
  sortedLT_sortTexts ((nodup_cycleCore? found).map fun _ _ same => distinct.entry_injective same)

include named successors_iff

theorem Distinct.transGen_leads_entry_iff {source target : Fin definition.size} :
    TransGen definition.Leads (definition.entry source).id (definition.entry target).id ↔
      TransGen (RiskGraph.Leads successors) source target := by
  rw [distinct.transGen_leads_iff named successors_iff]
  constructor
  · rintro ⟨first, last, first_eq, last_eq, way⟩
    obtain rfl := distinct.entry_injective first_eq
    obtain rfl := distinct.entry_injective last_eq
    exact way
  · exact fun way => ⟨source, target, rfl, rfl, way⟩

/-- The identifiers between cycles are those of the nodes between cycles. -/
theorem Distinct.betweenCycles_iff {id : String} :
    definition.BetweenCycles id ↔
      ∃ place, (definition.entry place).id = id ∧ AfterCycle successors place ∧
        BeforeCycle successors place := by
  have way_iff := @Distinct.transGen_leads_entry_iff _ _ _ distinct named successors_iff
  simp only [afterCycle_iff_exists_transGen, beforeCycle_iff_exists_transGen, OnCycle, ← way_iff]
  constructor
  · rintro ⟨⟨first, first_cyclic, front⟩, last, back, last_cyclic⟩
    obtain ⟨origin, place, rfl, rfl, -⟩ :=
      (distinct.transGen_leads_iff named successors_iff).mp front
    obtain ⟨-, final, -, rfl, -⟩ := (distinct.transGen_leads_iff named successors_iff).mp back
    exact ⟨place, rfl, ⟨origin, first_cyclic, front⟩, final, back, last_cyclic⟩
  · rintro ⟨place, rfl, ⟨origin, origin_cyclic, front⟩, final, back, final_cyclic⟩
    exact ⟨⟨_, origin_cyclic, front⟩, _, back, final_cyclic⟩

/-- The identifiers of a core, in their order, are those between cycles. -/
theorem Distinct.mem_sortTexts_core_iff (found : cycleCore? successors = some core)
    (id : String) :
    id ∈ sortTexts (core.map fun place => (definition.entry place).id) ↔
      definition.BetweenCycles id := by
  rw [(sortTexts_perm _).mem_iff, List.mem_map, distinct.betweenCycles_iff named successors_iff]
  simp only [mem_cycleCore?_iff found, and_comm]

end

section

variable [Engine] {edges : List (Edge definition.size)}
  {exits : Vector (Exits definition.size) definition.size} (distinct : definition.Distinct)
  (named : definition.edges = edges.map Edge.named)
  (successors_iff : ∀ source target,
    RiskGraph.Leads (fun place => exits[place].targets) source target ↔
      ∃ edge ∈ edges, edge.source = source ∧ edge.target = target)

include distinct named successors_iff

theorem Distinct.checkAcyclic_eq_error_iff :
    definition.checkAcyclic exits = .error defect ↔
      definition.Blames aliases .noCycle defect := by
  have acyclic_iff := distinct.acyclic_iff named successors_iff
  rw [← cycleCore?_eq_none_iff] at acyclic_iff
  rw [checkAcyclic]
  cases found : cycleCore? fun place : Fin definition.size => exits[place].targets with
  | none =>
      refine iff_of_false (by rintro ⟨⟩) fun blamed => ?_
      cases blamed with
      | cycle cyclic =>
          obtain ⟨id, way⟩ := cyclic
          exact acyclic_iff.mpr found id way
  | some core =>
      have sorted := distinct.sortedLT_core found
      have mem_iff := distinct.mem_sortTexts_core_iff named successors_iff found
      constructor
      · rintro ⟨⟩
        refine .cycle ?_ sorted mem_iff
        by_contra acyclic
        rw [acyclic_iff.mp (not_exists.mp acyclic)] at found
        cases found
      · intro blamed
        cases blamed with
        | cycle _ same_sorted same_iff =>
            have same := sorted.eq_of_mem_iff same_sorted fun id =>
              (mem_iff id).trans (same_iff id).symm
            exact congrArg (Except.error ∘ Defect.cycle) same

theorem Distinct.exists_checkAcyclic_eq_ok_iff :
    (∃ result, definition.checkAcyclic exits = .ok result) ↔
      definition.Meets aliases .noCycle := by
  rw [Meets, distinct.acyclic_iff named successors_iff, ← checkAcyclic_eq_ok_iff]
  exact ⟨fun ⟨(), checked⟩ => checked, fun checked => ⟨(), checked⟩⟩

end

end Definition

/-! ## Settings -/

namespace NodeEntry

variable {entry : NodeEntry} {kind : NodeKind} {defect : Defect}

theorem settle_eq_error_iff {α : Type} {read : Document → Reading α}
    {prepare : α → Except SettingsFault α} :
    entry.settle read prepare = .error defect ↔ entry.Faulty read prepare defect := by
  simp only [settle, bind_eq_error, mapError_eq_error, mapError_eq_ok]
  constructor
  · rintro (⟨fault, failed, rfl⟩ | ⟨raw, found, fault, failed, rfl⟩)
    · exact .unreadable failed
    · exact .unsound found failed
  · intro faulty
    cases faulty with
    | unreadable failed => exact Or.inl ⟨_, failed, rfl⟩
    | unsound found failed => exact Or.inr ⟨_, found, _, failed, rfl⟩

theorem toNode_eq_error_iff [Engine] :
    entry.toNode kind = .error defect ↔ entry.Misset kind defect := by
  rw [toNode, bind_pure_eq_error]
  cases kind with
  | start | finish => exact iff_of_false (by rintro ⟨⟩) not_false
  | condition | ruleset | scorecard =>
      rw [Misset, ← settle_eq_error_iff, task]
      exact bind_pure_eq_error

theorem exists_toNode_eq_ok_iff [Engine] :
    (∃ node, entry.toNode kind = .ok node) ↔ entry.HasSettings kind := by
  rw [← exists_task_eq_ok]
  constructor
  · rintro ⟨node, built⟩
    exact ⟨node.task, (toNode_eq_ok_iff.mp built).2⟩
  · rintro ⟨task, settled⟩
    exact ⟨⟨entry.identity, task⟩, toNode_eq_ok_iff.mpr ⟨rfl, settled⟩⟩

end NodeEntry

variable [Engine]

namespace Definition

section

variable {definition : Definition} {aliases : Aliases} {defect : Defect}
  {kinds : Vector NodeKind definition.size}
  (kinds_resolved : ∀ place : Fin definition.size,
    aliases.resolve? (definition.entry place).kind = some kinds[place])

include kinds_resolved

theorem exists_toNode_eq_ok_iff_fitsSettings (place : Fin definition.size) :
    (∃ node, (definition.entry place).toNode kinds[place] = .ok node) ↔
      FitsSettings aliases (definition.entry place) := by
  simp [NodeEntry.exists_toNode_eq_ok_iff, FitsSettings, kinds_resolved]

theorem collect_toNode_eq_error_iff :
    collect (fun place => (definition.entry place).toNode kinds[place]) = .error defect ↔
      definition.Blames aliases .soundSettings defect := by
  rw [collect_eq_error_iff (FitsSettings aliases) (fun entry => ∃ kind,
    aliases.resolve? entry.kind = some kind ∧ entry.Misset kind defect)
    (exists_toNode_eq_ok_iff_fitsSettings kinds_resolved)
    fun place _ => by simp [NodeEntry.toNode_eq_error_iff, kinds_resolved]]
  constructor
  · rintro ⟨entry, first, kind, kind_eq, misset⟩
    exact .settings first kind_eq misset
  · intro blamed
    cases blamed with
    | settings first kind_eq misset => exact ⟨_, first, _, kind_eq, misset⟩

end

/-! ## Building -/

/-- A definition is rejected for the first requirement that it does not meet, with the defect that
is first found against this one. -/
theorem build_rejects_iff (definition : Definition) (pairs : List (String × String))
    (defect : Defect) :
    definition.build (Aliases.ofList pairs) = .error defect ↔
      ∃ requirement,
        FirstLacking (definition.Meets (Aliases.ofList pairs)) Requirement.inOrder requirement ∧
          definition.Blames (Aliases.ofList pairs) requirement defect := by
  rw [build, Requirement.inOrder]
  -- one step for each requirement; what has succeeded is what the later steps rely on
  refine bind_eq_error_iff_firstLacking checkDistinct_eq_error_iff
    exists_checkDistinct_eq_ok_iff fun _ checked => ?_
  have distinct := checkDistinct_eq_ok_iff.mp checked
  refine bind_eq_error_iff_firstLacking collect_kindAt_eq_error_iff
    (exists_collect_eq_ok_iff _ exists_kindAt_eq_ok_iff) fun kinds resolved => ?_
  have kinds_resolved := fun place => kindAt_eq_ok_iff.mp (collect_eq_ok.mp resolved place)
  refine bind_eq_error_iff_firstLacking (findStart_eq_error_iff kinds_resolved)
    (exists_findStart_eq_ok_iff kinds_resolved) fun start found => ?_
  have starts_eq := starts_eq_of_findStart kinds_resolved found
  refine bind_eq_error_iff_firstLacking (distinct.mapM_resolveEdge_eq_error_iff starts_eq)
    (distinct.exists_mapM_resolveEdge_eq_ok_iff starts_eq) fun edges edges_resolved => ?_
  have named := (distinct.mapM_resolveEdge_eq_ok_iff.mp edges_resolved).1
  refine bind_eq_error_iff_firstLacking (distinct.collect_exitsAt_eq_error_iff named kinds_resolved)
    (exists_collect_eq_ok_iff _ (distinct.exists_exitsAt_eq_ok_iff named kinds_resolved))
    fun exits given => ?_
  have ways_perm := fun place => (exitsAt_eq_ok_iff.mp (collect_eq_ok.mp given place)).2
  have successors_iff := leads_targets_iff ways_perm
  refine bind_eq_error_iff_firstLacking (distinct.checkAcyclic_eq_error_iff named successors_iff)
    (distinct.exists_checkAcyclic_eq_ok_iff named successors_iff) fun _ _ => ?_
  refine bind_eq_error_iff_firstLacking (collect_toNode_eq_error_iff kinds_resolved)
    (exists_collect_eq_ok_iff _ (exists_toNode_eq_ok_iff_fitsSettings kinds_resolved))
    fun nodes _ => ?_
  refine iff_of_false (by rintro ⟨⟩) ?_
  rintro ⟨_, first, _⟩
  exact not_firstLacking_nil first

end Definition
end RiskGraph

import Mathlib.Data.List.Permutation
import RiskGraph.Proofs.Cycle
import RiskGraph.Proofs.Settings

/-!
# Stages of building

Each stage of building a graph succeeds exactly when the definition has the property that the stage
is for.  The later stages are stated under the properties that earlier ones have established.
-/

namespace RiskGraph

theorem firstRepeated?_eq_none_iff {seen texts : List String} :
    firstRepeated? seen texts = none ↔ texts.Nodup ∧ ∀ text ∈ texts, text ∉ seen := by
  induction texts generalizing seen with
  | nil => simp [firstRepeated?]
  | cons text texts induction =>
      by_cases repeated : text ∈ seen
      · simp [firstRepeated?, repeated]
      · have later_iff : firstRepeated? seen (text :: texts) = none ↔
            texts.Nodup ∧ ∀ other ∈ texts, other ∉ text :: seen := by
          simp [firstRepeated?, repeated, induction]
        rw [later_iff, List.nodup_cons]
        constructor
        · rintro ⟨distinct, fresh⟩
          refine ⟨⟨fun member => fresh text member List.mem_cons_self, distinct⟩, ?_⟩
          intro other member
          rcases List.mem_cons.mp member with rfl | later
          · exact repeated
          · exact fun earlier => fresh other later (List.mem_cons_of_mem text earlier)
        · rintro ⟨⟨absent, distinct⟩, fresh⟩
          refine ⟨distinct, fun other member earlier => ?_⟩
          rcases List.mem_cons.mp earlier with rfl | seen_before
          · exact absent member
          · exact fresh other (List.mem_cons_of_mem text member) seen_before

/-! ## Ways on from a node -/

/-- The ways on, each with the outcome for which it is taken. -/
def Exits.ways {size : Nat} : Exits size → List (Option Bool × Fin size)
  | terminal => []
  | next target => [(none, target)]
  | branch onTrue onFalse => [(some true, onTrue), (some false, onFalse)]

/-- Edges for these outcomes suit a node of a kind. -/
def NodeKind.Suits : NodeKind → List (Option Bool) → Prop
  | .finish, branches => branches = []
  | .condition, branches => branches.Perm [some true, some false]
  | _, branches => branches = [none]

namespace Exits

variable {size : Nat} {kind : NodeKind} {edges : List (Edge size)} {exits other : Exits size}

theorem map_snd_ways (exits : Exits size) : exits.ways.map Prod.snd = exits.targets := by
  cases exits <;> rfl

/-- The ways on are determined by their rows up to order. -/
theorem eq_of_ways_perm (same : exits.ways.Perm other.ways) : exits = other := by
  have length_eq := same.length_eq
  have member : ∀ way ∈ exits.ways, way ∈ other.ways := fun way => same.mem_iff.mp
  cases exits <;> cases other <;> simp [ways] at length_eq member ⊢
  all_goals exact member

/-- A condition has one edge for each outcome, in either order. -/
theorem suits_condition_iff :
    NodeKind.Suits .condition (edges.map Edge.branch) ↔
      ∃ onTrue onFalse, onTrue.branch = some true ∧ onFalse.branch = some false ∧
        (edges = [onTrue, onFalse] ∨ edges = [onFalse, onTrue]) := by
  rw [NodeKind.Suits, List.perm_pair]
  constructor
  · rintro (branches_eq | branches_eq)
    all_goals
      obtain ⟨first, rest, rfl, first_eq, rest_eq⟩ := List.map_eq_cons_iff.mp branches_eq
      obtain ⟨second, nothing, rfl, second_eq, nothing_eq⟩ := List.map_eq_cons_iff.mp rest_eq
      obtain rfl := List.map_eq_nil_iff.mp nothing_eq
    · exact ⟨first, second, first_eq, second_eq, Or.inl rfl⟩
    · exact ⟨second, first, second_eq, first_eq, Or.inr rfl⟩
  · rintro ⟨onTrue, onFalse, true_eq, false_eq, rfl | rfl⟩ <;> simp [true_eq, false_eq]

/-- A node that does not choose has a single edge, for no outcome. -/
theorem suits_plain_iff (plain : kind ≠ .finish ∧ kind ≠ .condition) :
    kind.Suits (edges.map Edge.branch) ↔ ∃ edge, edges = [edge] ∧ edge.branch = none := by
  have suits_iff : kind.Suits (edges.map Edge.branch) ↔ edges.map Edge.branch = [none] := by
    cases kind <;> simp_all [NodeKind.Suits]
  rw [suits_iff, List.map_eq_singleton_iff]

/-- Edges that suit a kind give ways on, and these are the edges. -/
theorem exists_exitsOf_eq_ok (suits : kind.Suits (edges.map Edge.branch)) :
    ∃ exits, Definition.exitsOf kind edges = .ok exits ∧
      exits.ways.Perm (edges.map fun edge => (edge.branch, edge.target)) := by
  by_cases plain : kind ≠ .finish ∧ kind ≠ .condition
  · obtain ⟨edge, rfl, branch_eq⟩ := (suits_plain_iff plain).mp suits
    refine ⟨.next edge.target, ?_, by simp [ways, branch_eq]⟩
    cases kind <;> simp_all [Definition.exitsOf]
  · cases kind with
    | start | ruleset | scorecard => simp at plain
    | finish =>
        obtain rfl := List.map_eq_nil_iff.mp suits
        exact ⟨.terminal, rfl, .nil⟩
    | condition =>
        obtain ⟨onTrue, onFalse, true_eq, false_eq, rfl | rfl⟩ := suits_condition_iff.mp suits
        · refine ⟨.branch onTrue.target onFalse.target, ?_, ?_⟩
          · simp [Definition.exitsOf, true_eq, false_eq]
          · simp [ways, true_eq, false_eq]
        · refine ⟨.branch onTrue.target onFalse.target, ?_, ?_⟩
          · simp [Definition.exitsOf, true_eq, false_eq]
          · simpa [ways, true_eq, false_eq] using List.Perm.swap _ _ _

/-- Ways on are given only for edges that suit the kind. -/
theorem suits_of_exitsOf (given : Definition.exitsOf kind edges = .ok exits) :
    kind.Suits (edges.map Edge.branch) := by
  by_cases plain : kind ≠ .finish ∧ kind ≠ .condition
  · rw [suits_plain_iff plain]
    obtain _ | ⟨edge, _ | ⟨second, others⟩⟩ := edges
    case cons.nil =>
      refine ⟨edge, rfl, ?_⟩
      by_contra guarded
      cases kind <;> simp_all [Definition.exitsOf]
    all_goals cases kind <;> simp_all [Definition.exitsOf]
  · cases kind with
    | start | ruleset | scorecard => simp at plain
    | finish => cases edges <;> simp_all [Definition.exitsOf, NodeKind.Suits]
    | condition =>
        simp only [Definition.exitsOf] at given
        split at given
        · next onTrue onFalse true_eq false_eq =>
            split at given
            · next length_eq =>
                obtain ⟨first, second, rfl⟩ := List.length_eq_two.mp length_eq
                rcases first_eq : first.branch with _ | _ | _ <;>
                  rcases second_eq : second.branch with _ | _ | _ <;>
                  simp_all [NodeKind.Suits, List.Perm.swap]
            · nomatch given
        · nomatch given

/-- Ways on are given exactly for edges that suit the kind, and they are these edges. -/
theorem exitsOf_eq_ok_iff :
    Definition.exitsOf kind edges = .ok exits ↔
      kind.Suits (edges.map Edge.branch) ∧
        exits.ways.Perm (edges.map fun edge => (edge.branch, edge.target)) := by
  constructor
  · intro given
    have suits := suits_of_exitsOf given
    obtain ⟨same, given_same, ways_perm⟩ := exists_exitsOf_eq_ok suits
    obtain rfl : same = exits := Except.ok.inj (given_same.symm.trans given)
    exact ⟨suits, ways_perm⟩
  · rintro ⟨suits, ways_perm⟩
    obtain ⟨same, given, same_perm⟩ := exists_exitsOf_eq_ok suits
    rwa [eq_of_ways_perm (ways_perm.trans same_perm.symm)]

end Exits

/-! ## Stages of a definition -/

/-- The edge as it is defined. -/
def Edge.named {definition : Definition} (edge : Edge definition.size) : EdgeEntry :=
  { source := (definition.entry edge.source).id
    target := (definition.entry edge.target).id
    branch := edge.branch }

namespace Definition

variable {definition : Definition} {aliases : Aliases}

/-- An edge leads from one identifier to another. -/
def Leads (definition : Definition) (source target : String) : Prop :=
  ∃ edge ∈ definition.edges, edge.source = source ∧ edge.target = target

/-- The edges that leave an identifier, in order. -/
def edgesFrom (definition : Definition) (id : String) : List EdgeEntry :=
  definition.edges.filter fun edge => edge.source = id

/-- No two nodes have the same identifier. -/
def Distinct (definition : Definition) : Prop :=
  (definition.nodes.map NodeEntry.id).Nodup

theorem mem_nodes_iff {entry : NodeEntry} :
    entry ∈ definition.nodes ↔ ∃ place, definition.entry place = entry :=
  List.mem_iff_get

theorem checkDistinct_eq_ok_iff : definition.checkDistinct = .ok () ↔ definition.Distinct := by
  have distinct_iff := @firstRepeated?_eq_none_iff [] (definition.nodes.map NodeEntry.id)
  simp only [List.not_mem_nil, not_false_eq_true, implies_true, and_true] at distinct_iff
  rw [Distinct, ← distinct_iff, checkDistinct]
  cases firstRepeated? [] (definition.nodes.map NodeEntry.id) <;> simp

theorem kindAt_eq_ok_iff {place : Fin definition.size} {kind : NodeKind} :
    definition.kindAt aliases place = .ok kind ↔
      aliases.resolve? (definition.entry place).kind = some kind := by
  simp only [kindAt]
  cases aliases.resolve? (definition.entry place).kind <;> simp

theorem findStart_eq_ok_iff {kinds : Vector NodeKind definition.size}
    {start : Fin definition.size} :
    definition.findStart kinds = .ok start ↔ ∀ place, kinds[place] = .start ↔ place = start := by
  have single_iff :
      (List.finRange definition.size).filter (fun place => kinds[place] = .start) = [start] ↔
        ∀ place, kinds[place] = .start ↔ place = start := by
    rw [← List.perm_singleton, List.perm_ext_iff_of_nodup
      ((List.nodup_finRange _).filter _) (List.nodup_singleton _)]
    simp
  rw [← single_iff, findStart]
  generalize (List.finRange definition.size).filter (fun place => kinds[place] = .start) = starts
  obtain _ | ⟨first, _ | ⟨second, others⟩⟩ := starts <;> simp

namespace Distinct

theorem map_id_finRange (definition : Definition) :
    (List.finRange definition.size).map (fun place => (definition.entry place).id) =
      definition.nodes.map NodeEntry.id := by
  calc
    _ = ((List.finRange definition.size).map definition.entry).map NodeEntry.id := by
      rw [List.map_map]
      rfl
    _ = definition.nodes.map NodeEntry.id :=
      congrArg (List.map NodeEntry.id) (List.map_get_finRange definition.nodes)

theorem entry_injective (distinct : definition.Distinct) {left right : Fin definition.size}
    (same : (definition.entry left).id = (definition.entry right).id) : left = right := by
  rw [Distinct, ← map_id_finRange] at distinct
  exact List.inj_on_of_nodup_map distinct (List.mem_finRange left) (List.mem_finRange right) same

theorem get?_index_eq_some_iff (distinct : definition.Distinct) {id : String}
    {place : Fin definition.size} :
    definition.index.get? id = some place ↔ (definition.entry place).id = id := by
  have keys_eq : Entries.keys ((List.finRange definition.size).map fun place =>
      ((definition.entry place).id, place)) = definition.nodes.map NodeEntry.id := by
    rw [← map_id_finRange, Entries.keys, List.map_map]
    rfl
  rw [index, Table.get?_ofList_eq_some_iff (keys_eq ▸ distinct)]
  simp

end Distinct

theorem endpoint_eq_ok_iff {size : Nat} {index : Table (Fin size)} {edge : EdgeEntry} {id : String}
    {place : Fin size} : endpoint index edge id = .ok place ↔ index.get? id = some place := by
  rw [endpoint]
  cases index.get? id <;> simp

theorem Distinct.resolveEdge_eq_ok_iff (distinct : definition.Distinct)
    {start : Fin definition.size} {edge : EdgeEntry} {resolved : Edge definition.size} :
    resolveEdge definition.index start edge = .ok resolved ↔
      edge = resolved.named ∧ resolved.target ≠ start := by
  simp only [resolveEdge, bind_eq_ok, endpoint_eq_ok_iff, distinct.get?_index_eq_some_iff]
  obtain ⟨source, target, branch⟩ := resolved
  constructor
  · rintro ⟨from_place, source_eq, to_place, target_eq, rest⟩
    split at rest
    · nomatch rest
    · next outside =>
        cases rest
        exact ⟨by rw [Edge.named, source_eq, target_eq], outside⟩
  · rintro ⟨rfl, outside⟩
    exact ⟨source, rfl, target, rfl, by rw [if_neg outside]; rfl⟩

/-- Edges are resolved exactly when they are edges between places, none of which enters the
start. -/
theorem Distinct.mapM_resolveEdge_eq_ok_iff (distinct : definition.Distinct)
    {start : Fin definition.size} {edges : List (Edge definition.size)} :
    definition.edges.mapM (resolveEdge definition.index start) = .ok edges ↔
      definition.edges = edges.map Edge.named ∧ ∀ edge ∈ edges, edge.target ≠ start := by
  have row_iff : ∀ entries : List EdgeEntry,
      List.Forall₂ (fun entry edge => entry = edge.named ∧ edge.target ≠ start) entries edges ↔
        entries = edges.map Edge.named ∧ ∀ edge ∈ edges, edge.target ≠ start := by
    induction edges with
    | nil => simp
    | cons edge edges induction =>
        intro entries
        rw [List.forall₂_cons_right_iff, List.map_cons, List.forall_mem_cons]
        constructor
        · rintro ⟨_, others, ⟨rfl, outside⟩, later, rfl⟩
          obtain ⟨rfl, others_outside⟩ := (induction others).mp later
          exact ⟨rfl, outside, others_outside⟩
        · rintro ⟨rfl, outside, others_outside⟩
          exact ⟨_, _, ⟨rfl, outside⟩, (induction _).mpr ⟨rfl, others_outside⟩, rfl⟩
  simp only [mapM_eq_ok, distinct.resolveEdge_eq_ok_iff]
  exact row_iff definition.edges

theorem exitsAt_eq_ok_iff {kinds : Vector NodeKind definition.size}
    {edges : List (Edge definition.size)} {place : Fin definition.size}
    {exits : Exits definition.size} :
    definition.exitsAt kinds edges place = .ok exits ↔
      kinds[place].Suits ((edges.filter fun edge => edge.source = place).map Edge.branch) ∧
        exits.ways.Perm ((edges.filter fun edge => edge.source = place).map fun edge =>
          (edge.branch, edge.target)) := by
  rw [exitsAt, mapError_eq_ok, Exits.exitsOf_eq_ok_iff]

theorem checkAcyclic_eq_ok_iff {exits : Vector (Exits definition.size) definition.size} :
    definition.checkAcyclic exits = .ok () ↔
      ∀ place, ¬OnCycle (fun place : Fin definition.size => exits[place].targets) place := by
  rw [← cycleCore?_eq_none_iff, checkAcyclic]
  cases cycleCore? fun place : Fin definition.size => exits[place].targets <;> simp

end Definition

theorem NodeEntry.toNode_eq_ok_iff [Engine] {entry : NodeEntry} {kind : NodeKind} {node : Node} :
    entry.toNode kind = .ok node ↔
      node.identity = entry.identity ∧ entry.task kind = .ok node.task := by
  obtain ⟨identity, task⟩ := node
  simp only [toNode, bind_eq_ok]
  constructor
  · rintro ⟨_, settled, equal⟩
    cases equal
    exact ⟨rfl, settled⟩
  · rintro ⟨rfl, settled⟩
    exact ⟨task, settled, rfl⟩

end RiskGraph

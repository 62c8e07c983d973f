import Mathlib.Data.List.Sort
import Mathlib.Data.String.Basic
import RiskGraph.Proofs.Stages

/-!
# Requirements

What a decision graph requires of its definition, said of the nodes and edges as they are defined.
Each requirement makes sense whether or not the others are met.  For each there is the defect that
blames the first node or edge at fault.
-/

namespace RiskGraph

open Relation

/-- What is required of a definition. -/
inductive Requirement where
  | distinctIds
  | knownKinds
  | singleStart
  | joiningEdges
  | fittingEdges
  | noCycle
  | soundSettings

/-- The requirements in the order in which they are checked. -/
def Requirement.inOrder : List Requirement :=
  [distinctIds, knownKinds, singleStart, joiningEdges, fittingEdges, noCycle, soundSettings]

/-- What is wrong with edges for these outcomes that do not suit a node of a kind. -/
def NodeKind.edgeFault (kind : NodeKind) (branches : List (Option Bool)) : EdgeFault :=
  match kind with
  | .finish => .leavesEnd
  | .condition => .notTwoWays branches.length
  | _ => if branches.length = 1 then .branchOnPlain kind else .notOneWay kind branches.length

variable [Engine]

namespace NodeEntry

/-- Settings cannot be read, or are read and fail a check; the defect names the node and says
why. -/
inductive Faulty {α : Type} (entry : NodeEntry) (read : Document → Reading α)
    (prepare : α → Except SettingsFault α) : Defect → Prop
  | unreadable {fault : ShapeFault}
      (failed : read (Document.ofJson entry.settings) = .error fault) :
      Faulty entry read prepare (.unreadableSettings entry.id fault)
  | unsound {raw : α} {fault : SettingsFault}
      (found : read (Document.ofJson entry.settings) = .ok raw)
      (failed : prepare raw = .error fault) :
      Faulty entry read prepare (.settings entry.id fault)

/-- The settings of a node of a kind are faulty. -/
def Misset (entry : NodeEntry) : NodeKind → Defect → Prop
  | .start, _ | .finish, _ => False
  | .condition, defect => entry.Faulty Predicate.shape.read Predicate.prepare defect
  | .ruleset, defect => entry.Faulty Ruleset.shape.read Ruleset.prepare defect
  | .scorecard, defect => entry.Faulty Scorecard.shape.read Scorecard.prepare defect

end NodeEntry

namespace Definition

/-- Some node has an identifier. -/
def Defines (definition : Definition) (id : String) : Prop :=
  ∃ entry ∈ definition.nodes, entry.id = id

/-- The nodes that are starts, in order. -/
def starts (definition : Definition) (aliases : Aliases) : List NodeEntry :=
  definition.nodes.filter fun entry => aliases.resolve? entry.kind = some .start

/-- An edge leads from a node to a node that is not a start. -/
structure Joins (definition : Definition) (aliases : Aliases) (edge : EdgeEntry) : Prop where
  source_defined : definition.Defines edge.source
  target_defined : definition.Defines edge.target
  start_unentered : ∀ start ∈ definition.starts aliases, edge.target ≠ start.id

/-- The outcomes for which edges leave a node, in order. -/
def branchesFrom (definition : Definition) (id : String) : List (Option Bool) :=
  (definition.edgesFrom id).map EdgeEntry.branch

/-- A way leads to a node from a cycle, and from it to a cycle; this may be the same one. -/
def BetweenCycles (definition : Definition) (id : String) : Prop :=
  (∃ origin, TransGen definition.Leads origin origin ∧ TransGen definition.Leads origin id) ∧
    ∃ final, TransGen definition.Leads id final ∧ TransGen definition.Leads final final

/-- The edges that leave a node suit its kind. -/
def FitsEdges (definition : Definition) (aliases : Aliases) (entry : NodeEntry) : Prop :=
  ∀ kind, aliases.resolve? entry.kind = some kind → kind.Suits (definition.branchesFrom entry.id)

/-- The settings of a node suit its kind. -/
def FitsSettings (aliases : Aliases) (entry : NodeEntry) : Prop :=
  ∀ kind, aliases.resolve? entry.kind = some kind → entry.HasSettings kind

/-- A definition meets a requirement, whether or not it meets the others. -/
def Meets (definition : Definition) (aliases : Aliases) : Requirement → Prop
  | .distinctIds => definition.Distinct
  | .knownKinds => ∀ entry ∈ definition.nodes, ∃ kind, aliases.resolve? entry.kind = some kind
  | .singleStart => ∃ start, definition.starts aliases = [start]
  | .joiningEdges => ∀ edge ∈ definition.edges, definition.Joins aliases edge
  | .fittingEdges => ∀ entry ∈ definition.nodes, definition.FitsEdges aliases entry
  | .noCycle => ∀ id, ¬TransGen definition.Leads id id
  | .soundSettings => ∀ entry ∈ definition.nodes, FitsSettings aliases entry

/-- The defect that is found first of those against a requirement. -/
inductive Blames (definition : Definition) (aliases : Aliases) : Requirement → Defect → Prop
  /-- A node repeats an identifier, and none before it does. -/
  | duplicate {before after : List NodeEntry} {entry : NodeEntry}
      (nodes_eq : definition.nodes = before ++ entry :: after)
      (distinct : (before.map NodeEntry.id).Nodup)
      (repeats : entry.id ∈ before.map NodeEntry.id) :
      Blames definition aliases .distinctIds (.duplicate entry.id)
  | unknownKind {entry : NodeEntry}
      (first : FirstLacking (fun entry => ∃ kind, aliases.resolve? entry.kind = some kind)
        definition.nodes entry) :
      Blames definition aliases .knownKinds (.unknownKind entry.id entry.kind)
  | noStart (none_starts : definition.starts aliases = []) :
      Blames definition aliases .singleStart .noStart
  | manyStarts (many : 2 ≤ (definition.starts aliases).length) :
      Blames definition aliases .singleStart
        (.manyStarts ((definition.starts aliases).map NodeEntry.id))
  | unknownSource {edge : EdgeEntry}
      (first : FirstLacking (definition.Joins aliases) definition.edges edge)
      (undefined : ¬definition.Defines edge.source) :
      Blames definition aliases .joiningEdges (.unknownNode edge.source edge.source edge.target)
  | unknownTarget {edge : EdgeEntry}
      (first : FirstLacking (definition.Joins aliases) definition.edges edge)
      (defined : definition.Defines edge.source) (undefined : ¬definition.Defines edge.target) :
      Blames definition aliases .joiningEdges (.unknownNode edge.target edge.source edge.target)
  | entersStart {edge : EdgeEntry} {start : NodeEntry}
      (first : FirstLacking (definition.Joins aliases) definition.edges edge)
      (defined : definition.Defines edge.source) (starts : start ∈ definition.starts aliases)
      (enters : edge.target = start.id) :
      Blames definition aliases .joiningEdges (.edges edge.target (.entersStart edge.source))
  | unfitEdges {entry : NodeEntry} {kind : NodeKind}
      (first : FirstLacking (definition.FitsEdges aliases) definition.nodes entry)
      (kind_eq : aliases.resolve? entry.kind = some kind) :
      Blames definition aliases .fittingEdges
        (.edges entry.id (kind.edgeFault (definition.branchesFrom entry.id)))
  /-- There is a cycle; the identifiers between cycles are listed in their order. -/
  | cycle {ids : List String} (cyclic : ∃ id, TransGen definition.Leads id id)
      (sorted : ids.SortedLT) (mem_iff : ∀ id, id ∈ ids ↔ definition.BetweenCycles id) :
      Blames definition aliases .noCycle (.cycle ids)
  | settings {entry : NodeEntry} {kind : NodeKind} {defect : Defect}
      (first : FirstLacking (FitsSettings aliases) definition.nodes entry)
      (kind_eq : aliases.resolve? entry.kind = some kind) (misset : entry.Misset kind defect) :
      Blames definition aliases .soundSettings defect

end Definition
end RiskGraph

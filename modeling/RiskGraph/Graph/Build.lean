import RiskGraph.Definition.Basic
import RiskGraph.Definition.Settings
import RiskGraph.Graph.Basic

/-!
# Building a graph

A definition becomes a graph in stages, each of which relies on those before it: distinct
identifiers, known kinds, a single start, edges between defined nodes, ways on that suit each kind,
no cycle, and settings that can be read and make sense.  The first stage with a defect reports it,
and within a stage the first node or edge.
-/

namespace RiskGraph

/-! ## Defects -/

/-- What is wrong with the edges of a node. -/
inductive EdgeFault where
  /-- An edge enters the start. -/
  | entersStart (source : String)
  /-- An edge leaves an end. -/
  | leavesEnd
  /-- A condition does not have one edge for each outcome. -/
  | notTwoWays (found : Nat)
  /-- The only edge of a node that does not choose is for one outcome. -/
  | branchOnPlain (kind : NodeKind)
  /-- A node that does not choose has no edge or several. -/
  | notOneWay (kind : NodeKind) (found : Nat)
  deriving DecidableEq

def EdgeFault.message : EdgeFault → String
  | entersStart source => s!"start node cannot be entered from '{source}'"
  | leavesEnd => "end node cannot have outgoing edges"
  | notTwoWays found => s!"condition needs exactly one true and one false edge, found {found}"
  | branchOnPlain kind => s!"{kind.name} edges cannot carry a branch"
  | notOneWay kind found => s!"{kind.name} node needs exactly one outgoing edge, found {found}"

/-- Why there is no decision graph. -/
inductive Defect where
  /-- The text is not a definition. -/
  | unreadable (fault : DefinitionFault)
  /-- Two nodes have the same identifier. -/
  | duplicate (id : String)
  /-- A node is of no known kind. -/
  | unknownKind (node kind : String)
  /-- No node is a start. -/
  | noStart
  /-- Several nodes are starts. -/
  | manyStarts (ids : List String)
  /-- An edge names a node that is not defined. -/
  | unknownNode (missing source target : String)
  /-- The edges of a node do not suit it. -/
  | edges (node : String) (fault : EdgeFault)
  /-- The edges lead round in circles. -/
  | cycle (ids : List String)
  /-- The settings of a node are of another shape. -/
  | unreadableSettings (node : String) (fault : ShapeFault)
  /-- The settings of a node do not make sense. -/
  | settings (node : String) (fault : SettingsFault)
  deriving DecidableEq

namespace Defect

def settingsMessage (node reason : String) : String :=
  s!"Configuration of node '{node}' is invalid: {reason}"

/-- Wording of a defect.  A text that is not JSON has none of its own. -/
def message? : Defect → Option String
  | unreadable .notJson => none
  | unreadable (.shape fault) => some s!"Failed to parse graph JSON: {fault.message}"
  | duplicate id => some s!"Node id '{id}' is defined more than once"
  | unknownKind node kind =>
      some s!"Node '{node}' has an unregistered or invalid kind: '{kind}'"
  | noStart => some "Graph has no start node"
  | manyStarts ids => some ("Graph has more than one start node: " ++ quotedList ids)
  | unknownNode missing source target =>
      some (s!"Node '{missing}' not found, which is required by the edge " ++ source ++ " -> " ++
        target)
  | edges node fault => some s!"Edges of node '{node}' are invalid: {fault.message}"
  | cycle ids => some ("Graph contains a cycle through nodes " ++ quotedList ids)
  | unreadableSettings node fault => some (settingsMessage node fault.message)
  | settings node fault => some (settingsMessage node fault.message)

end Defect

/-! ## Stages -/

/-- All results of a function on a row, or its first failure. -/
def collectList {α β ε : Type} (f : α → Except ε β) :
    (items : List α) → Except ε { results : List β // results.length = items.length }
  | [] => .ok ⟨[], rfl⟩
  | item :: items =>
      match f item with
      | .error failure => .error failure
      | .ok result =>
          match collectList f items with
          | .error failure => .error failure
          | .ok results =>
              .ok ⟨result :: results.val, by simp [results.property]⟩

/-- All results of a family, or its first failure. -/
def collect {β ε : Type} {size : Nat} (f : Fin size → Except ε β) : Except ε (Vector β size) :=
  match collectList f (List.finRange size) with
  | .error failure => .error failure
  | .ok results => .ok ⟨results.val.toArray, by simp [results.property]⟩

/-- The first text that repeats an earlier one, when `seen` come before. -/
def firstRepeated? (seen : List String) : List String → Option String
  | [] => none
  | text :: texts =>
      if seen.contains text then some text else firstRepeated? (text :: seen) texts

/-- An edge between nodes that are defined. -/
structure Edge (size : Nat) where
  source : Fin size
  target : Fin size
  branch : Option Bool

namespace Definition

def size (definition : Definition) : Nat :=
  definition.nodes.length

/-- A node of a definition. -/
def entry (definition : Definition) (place : Fin definition.size) : NodeEntry :=
  definition.nodes.get place

/-- Checks that no two nodes have the same identifier. -/
def checkDistinct (definition : Definition) : Except Defect Unit :=
  match firstRepeated? [] (definition.nodes.map NodeEntry.id) with
  | some id => .error (.duplicate id)
  | none => .ok ()

/-- The kind of a node. -/
def kindAt (definition : Definition) (aliases : Aliases) (place : Fin definition.size) :
    Except Defect NodeKind :=
  let entry := definition.entry place
  match aliases.resolve? entry.kind with
  | some kind => .ok kind
  | none => .error (.unknownKind entry.id entry.kind)

/-- The only start. -/
def findStart (definition : Definition) (kinds : Vector NodeKind definition.size) :
    Except Defect (Fin definition.size) :=
  match (List.finRange definition.size).filter fun place => kinds[place] = .start with
  | [] => .error .noStart
  | [place] => .ok place
  | places => .error (.manyStarts (places.map fun place => (definition.entry place).id))

/-- The place of each identifier. -/
def index (definition : Definition) : Table (Fin definition.size) :=
  Table.ofList ((List.finRange definition.size).map fun place =>
    ((definition.entry place).id, place))

/-- The place of an identifier that an edge names. -/
def endpoint {size : Nat} (index : Table (Fin size)) (edge : EdgeEntry) (id : String) :
    Except Defect (Fin size) :=
  match index.get? id with
  | some place => .ok place
  | none => .error (.unknownNode id edge.source edge.target)

/-- An edge between the nodes that it names; none may enter the start. -/
def resolveEdge {size : Nat} (index : Table (Fin size)) (start : Fin size) (edge : EdgeEntry) :
    Except Defect (Edge size) := do
  let source ← endpoint index edge edge.source
  let target ← endpoint index edge edge.target
  if target = start then .error (.edges edge.target (.entersStart edge.source))
  else .ok { source, target, branch := edge.branch }

/-- The ways on from a node of a kind with the given edges. -/
def exitsOf {size : Nat} (kind : NodeKind) (edges : List (Edge size)) :
    Except EdgeFault (Exits size) :=
  match kind with
  | .finish => if edges.isEmpty then .ok .terminal else .error .leavesEnd
  | .condition =>
      match edges.filter fun edge => edge.branch = some true,
          edges.filter fun edge => edge.branch = some false with
      | [onTrue], [onFalse] =>
          if edges.length = 2 then .ok (.branch onTrue.target onFalse.target)
          else .error (.notTwoWays edges.length)
      | _, _ => .error (.notTwoWays edges.length)
  | _ =>
      match edges with
      | [edge] =>
          if edge.branch.isNone then .ok (.next edge.target) else .error (.branchOnPlain kind)
      | _ => .error (.notOneWay kind edges.length)

/-- The ways on from a node. -/
def exitsAt (definition : Definition) (kinds : Vector NodeKind definition.size)
    (edges : List (Edge definition.size)) (place : Fin definition.size) :
    Except Defect (Exits definition.size) :=
  (exitsOf kinds[place] (edges.filter fun edge => edge.source = place)).mapError
    (.edges (definition.entry place).id)

/-- Checks that no way leads round in a circle. -/
def checkAcyclic (definition : Definition)
    (exits : Vector (Exits definition.size) definition.size) : Except Defect Unit :=
  match cycleCore? fun place => exits[place].targets with
  | none => .ok ()
  | some places =>
      .error (.cycle (sortTexts (places.map fun place => (definition.entry place).id)))

end Definition

variable [Engine]

namespace NodeEntry

/-- Identity of a node; one without a name is called by its identifier. -/
def identity (entry : NodeEntry) : Identity :=
  { id := entry.id, name := if entry.name.isEmpty then entry.id else entry.name
    kind := entry.kind, tag := entry.tag, label := entry.label }

/-- Reads and prepares the settings of a node. -/
def settle {α : Type} (entry : NodeEntry) (read : Document → Reading α)
    (prepare : α → Except SettingsFault α) : Except Defect α := do
  let raw ← (read (Document.ofJson entry.settings)).mapError (.unreadableSettings entry.id)
  (prepare raw).mapError (.settings entry.id)

/-- The task of a node of a kind. -/
def task (entry : NodeEntry) : NodeKind → Except Defect Task
  | .start => .ok .start
  | .finish => .ok .finish
  | .condition => return .condition (← entry.settle Predicate.shape.read Predicate.prepare)
  | .ruleset => return .ruleset (← entry.settle Ruleset.shape.read Ruleset.prepare)
  | .scorecard => return .scorecard (← entry.settle Scorecard.shape.read Scorecard.prepare)

/-- The node of an entry of a kind. -/
def toNode (entry : NodeEntry) (kind : NodeKind) : Except Defect Node := do
  let task ← entry.task kind
  return { identity := entry.identity, task }

end NodeEntry

/-- Builds the graph of a definition. -/
def Definition.build (definition : Definition) (aliases : Aliases) : Except Defect Graph := do
  definition.checkDistinct
  let kinds ← collect (definition.kindAt aliases)
  let start ← definition.findStart kinds
  let index := definition.index
  let edges ← definition.edges.mapM (resolveEdge index start)
  let exits ← collect (definition.exitsAt kinds edges)
  definition.checkAcyclic exits
  let nodes ← collect fun place => (definition.entry place).toNode kinds[place]
  return { size := definition.size, nodes, index, exits, start }

/-- Builds the graph that a JSON text defines. -/
def Graph.ofText [RealReader] (text : String) (aliases : Aliases) : Except Defect Graph := do
  let definition ← (Definition.ofText text).mapError .unreadable
  definition.build aliases

end RiskGraph

import RiskGraph.Json.Reader
import RiskGraph.Json.Shape

/-!
# Definitions of graphs

A definition lists nodes and edges under their identifiers, before anything about them is checked.
It is read from a JSON text.
-/

namespace RiskGraph

/-- A node as it is defined. -/
structure NodeEntry where
  id : String
  /-- Name for people; an empty one stands for the identifier. -/
  name : String := ""
  kind : String
  /-- Tag of a decision at this node. -/
  tag : String := ""
  /-- Label of a decision at this node. -/
  label : String := ""
  settings : Json := .null

/-- An edge as it is defined. -/
structure EdgeEntry where
  source : String
  target : String
  /-- The outcome for which it is taken, if its source chooses. -/
  branch : Option Bool := none

/-- A graph as it is defined. -/
structure Definition where
  nodes : List NodeEntry
  edges : List EdgeEntry := []

/-- A node of which some fields have been read. -/
structure NodeEntry.Draft where
  id : Option String := none
  name : Option String := none
  kind : Option String := none
  tag : Option String := none
  label : Option String := none
  settings : Option Json := none

/-- Settings lie within a node, the list of nodes and the definition. -/
def settingsDepth : Nat := Document.depthLimit - 3

/-- Reads settings of any shape within the text of a definition. -/
def Document.readSettings (document : Document) : Reading Json :=
  readable (document.toJsonWithin? settingsDepth)

def NodeEntry.Draft.fill (draft : Draft) (field : String) (content : Document) :
    Reading Draft :=
  match field with
  | "id" => return { draft with id := ← fillOnce field draft.id content.readText }
  | "name" => return { draft with name := ← fillOnce field draft.name content.readText }
  | "kind" => return { draft with kind := ← fillOnce field draft.kind content.readText }
  | "tag" => return { draft with tag := ← fillOnce field draft.tag content.readText }
  | "label" => return { draft with label := ← fillOnce field draft.label content.readText }
  | _ =>
      return { draft with
        settings := ← fillOnce field draft.settings content.readSettings }

/-- Completes a node; only the identifier and the kind have no default. -/
def NodeEntry.Draft.complete (draft : Draft) (fault : String → ShapeFault) :
    Reading NodeEntry := do
  let id ← needed fault "id" draft.id
  let kind ← needed fault "kind" draft.kind
  return { id, kind, name := draft.name.getD "", tag := draft.tag.getD ""
           label := draft.label.getD "", settings := draft.settings.getD .null }

/-- How a node is written. -/
def NodeEntry.shape : RecordShape NodeEntry.Draft NodeEntry where
  name := "NodeDefinition"
  fields := ["id", "name", "kind", "tag", "label", "config"]
  blank := {}
  fill := NodeEntry.Draft.fill
  complete := NodeEntry.Draft.complete
  overlong _ := .trailing

structure EdgeEntry.Draft where
  source : Option String := none
  target : Option String := none
  branch : Option (Option Bool) := none

def EdgeEntry.Draft.fill (draft : Draft) (field : String) (content : Document) :
    Reading Draft :=
  match field with
  | "source" => return { draft with source := ← fillOnce field draft.source content.readText }
  | "target" => return { draft with target := ← fillOnce field draft.target content.readText }
  | _ => return { draft with branch := ← fillOnce field draft.branch content.readBool? }

/-- Completes an edge; only the outcome has a default. -/
def EdgeEntry.Draft.complete (draft : Draft) (fault : String → ShapeFault) :
    Reading EdgeEntry := do
  let source ← needed fault "source" draft.source
  let target ← needed fault "target" draft.target
  return { source, target, branch := draft.branch.getD none }

def EdgeEntry.shape : RecordShape EdgeEntry.Draft EdgeEntry where
  name := "EdgeDefinition"
  fields := ["source", "target", "branch"]
  blank := {}
  fill := EdgeEntry.Draft.fill
  complete := EdgeEntry.Draft.complete
  overlong _ := .trailing

structure Definition.Draft where
  nodes : Option (List NodeEntry) := none
  edges : Option (List EdgeEntry) := none

def Definition.Draft.fill (draft : Draft) (field : String) (content : Document) :
    Reading Draft :=
  match field with
  | "nodes" =>
      return { draft with
        nodes := ← fillOnce field draft.nodes (content.readItems NodeEntry.shape.read) }
  | _ =>
      return { draft with
        edges := ← fillOnce field draft.edges (content.readItems EdgeEntry.shape.read) }

/-- Completes a definition; there may be no edges. -/
def Definition.Draft.complete (draft : Draft) (fault : String → ShapeFault) :
    Reading Definition := do
  let nodes ← needed fault "nodes" draft.nodes
  return { nodes, edges := draft.edges.getD [] }

def Definition.shape : RecordShape Definition.Draft Definition where
  name := "GraphDefinition"
  fields := ["nodes", "edges"]
  blank := {}
  fill := Definition.Draft.fill
  complete := Definition.Draft.complete
  overlong _ := .trailing

/-- Why a text does not define a graph. -/
inductive DefinitionFault where
  /-- The text is not JSON, or cannot be read throughout. -/
  | notJson
  /-- The text is JSON of another shape. -/
  | shape (fault : ShapeFault)
  deriving DecidableEq

/-- Reads a definition from a document.  A fault of shape is reported only of a document that can be
read throughout. -/
def Definition.ofDocument (document : Document) : Except DefinitionFault Definition :=
  match shape.read document with
  | .ok definition => .ok definition
  | .error fault =>
      if (document.toJsonWithin? Document.depthLimit).isSome then .error (.shape fault)
      else .error .notJson

/-- Reads a definition from a JSON text. -/
def Definition.ofText [RealReader] (text : String) : Except DefinitionFault Definition :=
  match Document.ofText? text with
  | some document => ofDocument document
  | none => .error .notJson

end RiskGraph

import RiskGraph.Node.Task
import RiskGraph.Table
import RiskGraph.Text.Basic

/-!
# Nodes

A node has an identity, which it hands on to the decision, and a task, which is what it does when a
walk enters it.  There are nodes of five kinds.  A kind is named in any letter case; other names may
be given as aliases of these.  Aliases come before the built-in names and may hide them; of two
aliases of one name the later counts.
-/

namespace RiskGraph

/-! ## Kinds -/

/-- What a node does. -/
inductive NodeKind where
  /-- Begins every walk. -/
  | start
  /-- Ends a walk with a decision. -/
  | finish
  /-- Chooses between two ways. -/
  | condition
  /-- Collects the rules that hit, and may end the walk. -/
  | ruleset
  /-- Publishes a sum of scores. -/
  | scorecard
  deriving DecidableEq

namespace NodeKind

/-- Name of a kind. -/
def name : NodeKind → String
  | start => "start"
  | finish => "end"
  | condition => "condition"
  | ruleset => "ruleset"
  | scorecard => "scorecard"

/-- Form in which names of kinds are compared. -/
def fold (text : String) : String :=
  lowerCase (trim text)

/-- The kind that a text names; a condition has a second name. -/
def ofText? (text : String) : Option NodeKind :=
  let form := fold text
  if form = "start" then some start
  else if form = "end" then some finish
  else if form = "condition" ∨ form = "conditional" then some condition
  else if form = "ruleset" then some ruleset
  else if form = "scorecard" then some scorecard
  else none

end NodeKind

/-! ## Aliases -/

/-- Kinds under names in lower case. -/
structure Aliases where
  kinds : Table NodeKind := Table.empty

namespace Aliases

/-- Adds a name for the kind that a second name stands for, if there is such a kind. -/
def add (aliases : Aliases) (name kindName : String) : Aliases :=
  match NodeKind.ofText? kindName with
  | some kind => { kinds := aliases.kinds.insert (lowerCase name) kind }
  | none => aliases

/-- The aliases of a row of pairs of names. -/
def ofList (pairs : List (String × String)) : Aliases :=
  pairs.foldl (fun aliases (name, kindName) => aliases.add name kindName) {}

/-- The kind that a text names, by an alias or by itself. -/
def resolve? (aliases : Aliases) (text : String) : Option NodeKind :=
  match aliases.kinds.get? (NodeKind.fold text) with
  | some kind => some kind
  | none => NodeKind.ofText? text

end Aliases

/-! ## Nodes -/

/-- What a node is known by and marked with. -/
structure Identity where
  /-- Identifier, distinct within a graph. -/
  id : String
  name : String
  /-- Kind, as its author wrote it. -/
  kind : String
  tag : String
  label : String
  deriving DecidableEq

/-- What a node does, with the settings for it. -/
inductive Task where
  | start
  | finish
  | condition (predicate : Predicate)
  | ruleset (ruleset : Ruleset)
  | scorecard (scorecard : Scorecard)

/-- The kind of a task. -/
def Task.kind : Task → NodeKind
  | start => .start
  | finish => .finish
  | condition _ => .condition
  | ruleset _ => .ruleset
  | scorecard _ => .scorecard

/-- A place in a graph. -/
structure Node where
  identity : Identity
  task : Task

namespace Node

/-- Identifier of a node. -/
def id (node : Node) : String :=
  node.identity.id

/-- Kind of a node. -/
def kind (node : Node) : NodeKind :=
  node.task.kind

end Node

/-- What one visit of a node comes to. -/
structure Outcome where
  id : String
  name : String
  kind : NodeKind
  /-- Tag that a decision takes over. -/
  tag : String
  /-- Label that a decision takes over. -/
  label : String
  /-- Whether the walk ends here. -/
  blocks : Bool := false
  /-- The way chosen, if there is a choice. -/
  branch : Option Bool := none
  /-- Names of the rules that hit. -/
  hits : List String := []
  deriving DecidableEq

/-- The outcome that lets a walk pass, marked like the node. -/
def Node.pass (node : Node) : Outcome :=
  { id := node.identity.id, name := node.identity.name, kind := node.kind
    tag := node.identity.tag, label := node.identity.label }

end RiskGraph

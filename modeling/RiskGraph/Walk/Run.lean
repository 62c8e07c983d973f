import RiskGraph.Graph.Basic
import RiskGraph.Walk.Basic

/-!
# Running a walk

A visit of a node has three phases: a check of what the node needs, the task itself, which comes to
an outcome or a failure, and the settlement of that outcome with the walk.  A phase gives back the
walk it leaves; a phase that fails leaves the walk as it was, but for having been called off.  A run
visits nodes from the start on until an outcome blocks, which becomes the decision, or a node fails.
One turn of it visits one node and finds the next.  Since a node is never entered twice, a run takes
at most one turn more than the graph has nodes, and this bound is the measure of the recursion.

Before each node and each rule and after each task a run asks whether its request has been called
off, and gives up if so.
-/

namespace RiskGraph

variable [Engine]

/-! ## Phases of a visit -/

/-- The first condition whose feature is absent. -/
def firstAbsent? (features : Table Value) (conditions : List Predicate) : Option Predicate :=
  conditions.find? fun predicate => (features.get? predicate.feature).isNone

/-- Evaluates a condition on its value, a fault being a failure of a node. -/
def Predicate.judge (node : String) (predicate : Predicate) (value : Value) :
    Except Failure Bool :=
  (predicate.evaluate value).mapError (Failure.ofFault node predicate.feature)

/-- The values of the features of conditions, if none is absent. -/
def presentValues? (features : Table Value) (conditions : List Predicate) : Option (List Value) :=
  conditions.mapM fun predicate => features.get? predicate.feature

/-- Whether a rule hits.  A rule with an absent feature does not; otherwise all its conditions are
evaluated, whatever the first ones come to. -/
def Rule.hits (node : String) (features : Table Value) (rule : Rule) : Except Failure Bool :=
  match presentValues? features rule.conditions with
  | none => .ok false
  | some values => do
      let outcomes ← (rule.conditions.zip values).mapM fun (predicate, value) =>
        predicate.judge node value
      .ok (rule.combination.holds outcomes)

/-- The rules that hit, in order, when those before number `tried` have been tried.  A request may
be called off before each. -/
def hitRules (node : String) (features : Table Value) (stops : Nat → Bool) (tried : Nat) :
    List Rule → Except Failure (List Rule)
  | [] => .ok []
  | rule :: rules => do
      if stops tried then .error (.cancelled node)
      let hit ← rule.hits node features
      let others ← hitRules node features stops (tried + 1) rules
      .ok (if hit then rule :: others else others)

/-- The sum of a scorecard, begun with `total`.  Items with an absent feature add nothing. -/
def sumScores (node : String) (features : Table Value) (total : Binary64) :
    List ScoreItem → Except Failure Binary64
  | [] => .ok total
  | item :: items =>
      match features.get? item.predicate.feature with
      | none => sumScores node features total items
      | some value => do
          let holds ← item.predicate.judge node value
          sumScores node features (if holds then total + item.score else total) items

namespace Node

/-- Checks that a walk has what a node needs. -/
def check (node : Node) (walk : Walk) : Except Failure Unit :=
  match node.task with
  | .start => if walk.features.size = 0 then .error (.emptyFeatures node.id) else .ok ()
  | .finish => .ok ()
  | .condition predicate =>
      if (walk.features.get? predicate.feature).isNone then
        .error (.missingFeature node.id predicate.feature)
      else .ok ()
  | .ruleset ruleset =>
      if ruleset.strict then
        match firstAbsent? walk.features ruleset.conditions with
        | some predicate => .error (.missingFeature node.id predicate.feature)
        | none => .ok ()
      else .ok ()
  | .scorecard _ => .ok ()

/-- Performs a condition: compares its feature and chooses the way. -/
def branch (node : Node) (predicate : Predicate) (walk : Walk) : Except Failure Outcome × Walk :=
  match walk.features.get? predicate.feature with
  | none => (.error (.missingFeature node.id predicate.feature), walk)
  | some value =>
      match predicate.judge node.id value with
      | .error failure => (.error failure, walk)
      | .ok outcome =>
          (.ok { node.pass with branch := some outcome },
            walk.record (.compared node.id predicate.feature predicate.operator
              predicate.threshold value outcome))

/-- The outcome of a ruleset whose rules hit; the first blocking one decides. -/
def ruled (node : Node) (rules : List Rule) : Outcome :=
  let hits := rules.map Rule.name
  match rules.find? fun rule => rule.verdict.blocks with
  | some rule =>
      { node.pass with tag := rule.verdict.tag, label := rule.verdict.label, blocks := true, hits }
  | none => { node.pass with hits }

/-- Performs a ruleset: tries all its rules, unless the request is found called off before one. -/
def tryRules (node : Node) (ruleset : Ruleset) (walk : Walk) : Except Failure Outcome × Walk :=
  match hitRules node.id walk.features (fun rule => walk.stopsAt (.trying node.id rule)) 0
      ruleset.rules with
  | .error failure => (.error failure, walk.failed failure)
  | .ok rules =>
      let blocker := rules.find? fun rule => rule.verdict.blocks
      (.ok (node.ruled rules),
        walk.record (.ruled node.id (rules.map Rule.name) (blocker.map Rule.name)))

/-- Performs a scorecard: publishes the sum of the scores that hold. -/
def score (node : Node) (scorecard : Scorecard) (walk : Walk) : Except Failure Outcome × Walk :=
  match sumScores node.id walk.features scorecard.base scorecard.items with
  | .error failure => (.error failure, walk)
  | .ok total =>
      let value := Scorecard.valueOf total
      (.ok node.pass,
        (walk.record (.scored node.id scorecard.output value)).publish scorecard.output value)

/-- Performs the task of a node. -/
def perform (node : Node) (walk : Walk) : Except Failure Outcome × Walk :=
  match node.task with
  | .start => (.ok node.pass, walk.record (.started node.id walk.features.size))
  | .finish =>
      (.ok { node.pass with blocks := true },
        walk.record (.ended node.id node.identity.tag node.identity.label))
  | .condition predicate => node.branch predicate walk
  | .ruleset ruleset => node.tryRules ruleset walk
  | .scorecard scorecard => node.score scorecard walk

/-- Settles an outcome with the walk: the hits of a ruleset join those of the walk. -/
def settle (node : Node) (outcome : Outcome) (walk : Walk) : Walk :=
  match node.task with
  | .ruleset _ => walk.addHits outcome.hits
  | _ => walk

end Node

/-! ## Runs -/

/-- The end of a walk. -/
structure Decision where
  id : String
  name : String
  kind : NodeKind
  tag : String
  label : String
  /-- Names of all rules that hit on the way, in order. -/
  hits : List String
  /-- Identifiers of the nodes on the way, in order. -/
  trail : List String
  /-- Explanation of the way. -/
  reason : String
  deriving DecidableEq

/-- The decision that an outcome is at the end of a walk. -/
def Decision.ofOutcome (outcome : Outcome) (walk : Walk) : Decision :=
  { id := outcome.id, name := outcome.name, kind := outcome.kind
    tag := outcome.tag, label := outcome.label
    hits := walk.hits, trail := walk.trail, reason := explain walk.trace }

/-- One visit: enters the node, goes through its phases and stores the outcome. -/
def Node.visit (node : Node) (walk : Walk) : Except Failure Outcome × Walk :=
  if walk.stopsAt (.entering node.id) then (.error (.cancelled node.id), walk.cancel)
  else if walk.hasVisited node.id then (.error (.revisited node.id), walk)
  else
    let entered := walk.enter node.id
    match node.check entered with
    | .error failure => (.error failure, entered)
    | .ok () =>
        match node.perform entered with
        | (.error failure, left) => (.error failure, left)
        | (.ok outcome, left) =>
            if left.stopsAt (.leaving node.id) then (.error (.cancelled node.id), left.cancel)
            else (.ok outcome, (node.settle outcome left).store node.id outcome)

/-- Where an outcome leads. -/
def Exits.follow {size : Nat} (exits : Exits size) (node : Node) (outcome : Outcome) :
    Except Failure (Fin size) :=
  match exits, outcome.branch with
  | .terminal, _ => .error (.deadEnd node.id)
  | .next target, _ => .ok target
  | .branch onTrue _, some true => .ok onTrue
  | .branch _ onFalse, some false => .ok onFalse
  | .branch .., none => .error (.noBranch node.id)

/-- What one turn of a run comes to, in a graph of the given size. -/
inductive Turn (size : Nat) where
  /-- The run ends. -/
  | ended (result : Except Failure Decision)
  /-- The run goes on at a node. -/
  | onward (target : Fin size)

namespace Graph

/-- One turn of a run: visits a node and follows its outcome. -/
def turn (graph : Graph) (place : Fin graph.size) (walk : Walk) : Turn graph.size × Walk :=
  let node := graph.nodes[place]
  match node.visit walk with
  | (.error failure, left) => (.ended (.error failure), left)
  | (.ok outcome, left) =>
      if outcome.blocks then (.ended (.ok (.ofOutcome outcome left)), left)
      else
        match graph.exits[place].follow node outcome with
        | .error failure => (.ended (.error failure), left)
        | .ok target => (.onward target, left)

/-- Runs a walk on from a node, for the given number of turns at most. -/
def runFrom (graph : Graph) : Nat → Fin graph.size → Walk → Except Failure Decision × Walk
  | 0, place, walk => (.error (.revisited graph.nodes[place].id), walk)
  | turns + 1, place, walk =>
      match graph.turn place walk with
      | (.ended result, left) => (result, left)
      | (.onward target, left) => graph.runFrom turns target left

/-- Runs a walk from the start. -/
def run (graph : Graph) (walk : Walk) : Except Failure Decision × Walk :=
  graph.runFrom (graph.size + 1) graph.start walk

/-- Decides on features. -/
def decide (graph : Graph) (features : Table Value) : Except Failure Decision :=
  (graph.run { features }).1

end Graph

end RiskGraph

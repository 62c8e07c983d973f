import RiskGraph.Node.Basic

/-!
# Walks

A walk is one request on its way through a graph: its features, which nodes may extend, and what the
nodes entered so far have left behind.  Of the entries it keeps the order, the set and the latest
one; `Walk.enter` is the only operation on any of them.  A trace is what the nodes of a walk did, in
order; its text is the explanation of the decision: one step after the other, texts in quotes so
that they differ from numbers.  A walk that does not reach a decision fails at a node, and the
failure names it.
-/

namespace RiskGraph

/-! ## Traces -/

/-- What one node did. -/
inductive TraceStep where
  /-- A walk began with a number of features. -/
  | started (node : String) (features : Nat)
  /-- A feature was compared. -/
  | compared (node feature : String) (operator : Operator) (threshold value : Value)
      (outcome : Bool)
  /-- Rules hit, and one of them may have ended the walk. -/
  | ruled (node : String) (hits : List String) (blockedBy : Option String)
  /-- A sum was published. -/
  | scored (node output : String) (score : Value)
  /-- A walk ended. -/
  | ended (node tag label : String)

namespace TraceStep

def node : TraceStep → String
  | started node _ => node
  | compared node .. => node
  | ruled node .. => node
  | scored node .. => node
  | ended node .. => node

/-- Text of a value in an explanation. -/
def valueText : Value → String
  | .text content => "\"" ++ content ++ "\""
  | value => value.shown

def text : TraceStep → String
  | started _ features => s!"start ({features} features)"
  | compared _ feature operator threshold value outcome =>
      "$" ++ feature ++ " (was " ++ valueText value ++ ") " ++ operator.symbol ++ " " ++
        valueText threshold ++ " [" ++ truthText outcome ++ "]"
  | ruled node hits blockedBy =>
      let found := if hits.isEmpty then "no rule hit" else "hit " ++ ", ".intercalate hits
      let ending := match blockedBy with
        | some rule => " (blocked by " ++ rule ++ ")"
        | none => ""
      node ++ ": " ++ found ++ ending
  | scored _ output score => "$" ++ output ++ " = " ++ valueText score
  | ended node tag label =>
      let mark := if label.isEmpty then tag else tag ++ ": " ++ label
      "end " ++ node ++ " [" ++ mark ++ "]"

end TraceStep

/-- The text that explains a trace. -/
def explain (trace : List TraceStep) : String :=
  if trace.isEmpty then "No node evaluated"
  else " -> ".intercalate (trace.map TraceStep.text)

/-! ## Failures -/

/-- Why a walk ended without a decision. -/
inductive Failure where
  /-- A value is of no kind. -/
  | unclassified (node shown : String)
  /-- A value does not write one of the target kind. -/
  | inconvertible (node shown : String) (target : Kind)
  /-- A feature is of another kind than it is compared with. -/
  | mismatch (node feature : String) (expected found : Kind)
  /-- A feature cannot be compared in this way. -/
  | incomparable (node feature : String) (fault : Comparison.Fault)
  /-- A feature that the node needs is absent. -/
  | missingFeature (node feature : String)
  /-- There are no features at all. -/
  | emptyFeatures (node : String)
  /-- A node that should choose a way did not. -/
  | noBranch (node : String)
  /-- The walk was called off. -/
  | cancelled (node : String)
  /-- A node was entered a second time. -/
  | revisited (node : String)
  /-- There is no way on from a node that does not end the walk. -/
  | deadEnd (node : String)
  deriving DecidableEq

namespace Failure

/-- The failure that a fault of a comparison is at a node. -/
def ofFault (node feature : String) : Comparison.Fault → Failure
  | .value (.unclassified shown) => unclassified node shown
  | .value (.inconvertible shown target) => inconvertible node shown target
  | .mismatch expected found => mismatch node feature expected found
  | fault => incomparable node feature fault

/-- Identifier of the node at which a walk failed. -/
def node : Failure → String
  | unclassified node _ => node
  | inconvertible node .. => node
  | mismatch node .. => node
  | incomparable node .. => node
  | missingFeature node _ => node
  | emptyFeatures node => node
  | noBranch node => node
  | cancelled node => node
  | revisited node => node
  | deadEnd node => node

/-- Wording of a failure of the node itself. -/
def executionMessage (node reason : String) : String :=
  s!"Node '{node}' failed: {reason}"

def message : Failure → String
  | unclassified node shown => s!"Node '{node}': feature type unknown for value '{shown}'"
  | inconvertible node shown target =>
      s!"Node '{node}': " ++ (Value.Fault.inconvertible shown target).message
  | mismatch node feature expected found =>
      s!"Node '{node}': type mismatch on '{feature}', " ++
        s!"cannot compare {found.name} with {expected.name}"
  | incomparable node feature fault =>
      executionMessage node s!"feature '{feature}': {fault.message}"
  | missingFeature node feature =>
      executionMessage node s!"required feature '{feature}' is missing"
  | emptyFeatures node => executionMessage node "feature bag is empty"
  | noBranch node => executionMessage node "branching node produced no branch outcome"
  | cancelled node => s!"Traversal cancelled before node '{node}'"
  | revisited node => s!"Graph malformed: Node '{node}' was entered twice during one traversal"
  | deadEnd node =>
      s!"Graph malformed: Traversal stopped at node '{node}' without reaching a terminal node"

end Failure

/-! ## Calling off -/

/-- A point at which a run asks whether its request has been called off. -/
inductive Check where
  /-- Before a node is entered. -/
  | entering (node : String)
  /-- Before a rule of a node is tried, the rules being counted from zero. -/
  | trying (node : String) (rule : Nat)
  /-- After a node has performed its task. -/
  | leaving (node : String)
  deriving DecidableEq

/-! ## State -/

/-- The state of one request. -/
structure Walk where
  /-- Features given, and those published on the way. -/
  features : Table Value
  /-- Outcomes of nodes, under their identifiers. -/
  results : Table Outcome := Table.empty
  /-- Identifiers of the nodes entered, in order. -/
  trail : List String := []
  /-- Identifiers of the nodes entered, as a set. -/
  visited : List String := []
  /-- Identifier of the node entered last. -/
  current : Option String := none
  /-- Names of the rules that hit, in order. -/
  hits : List String := []
  /-- What the nodes did, in order. -/
  trace : List TraceStep := []
  /-- Whether the request has been called off. -/
  cancelled : Bool := false
  /-- The checks by which it will have been called off if they are made. -/
  interrupts : Check → Bool := fun _ => false

namespace Walk

/-- Whether a node has been entered. -/
def hasVisited (walk : Walk) (id : String) : Bool :=
  walk.visited.contains id

/-- Enters a node, unless it has been entered before. -/
def enter (walk : Walk) (id : String) : Walk :=
  if walk.hasVisited id then walk
  else
    { walk with
      trail := walk.trail ++ [id]
      visited := id :: walk.visited
      current := some id }

def publish (walk : Walk) (key : String) (value : Value) : Walk :=
  { walk with features := walk.features.insert key value }

def store (walk : Walk) (id : String) (outcome : Outcome) : Walk :=
  { walk with results := walk.results.insert id outcome }

/-- Adds the names of rules that hit. -/
def addHits (walk : Walk) (hits : List String) : Walk :=
  { walk with hits := walk.hits ++ hits }

def record (walk : Walk) (step : TraceStep) : Walk :=
  { walk with trace := walk.trace ++ [step] }

/-- Calls the request off. -/
def cancel (walk : Walk) : Walk :=
  { walk with cancelled := true }

/-- What a check finds: whether the request has been called off by then. -/
def stopsAt (walk : Walk) (check : Check) : Bool :=
  walk.cancelled || walk.interrupts check

/-- The walk that a failure leaves behind: it is called off if the failure says so. -/
def failed (walk : Walk) : Failure → Walk
  | .cancelled _ => walk.cancel
  | _ => walk

end Walk

end RiskGraph

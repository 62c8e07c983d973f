import RiskGraph.Json.Shape
import RiskGraph.Node.Basic
import RiskGraph.Value.Basic

/-!
# Settings of nodes

Conditions, rulesets and scorecards read their settings from JSON data, however deeply it is nested.
-/

namespace RiskGraph

def Document.readOperator (document : Document) : Reading Operator := do
  let text ← document.readText
  match Operator.ofText? text with
  | some operator => return operator
  | none => .error (.unknownOperator text)

def Document.readValue (document : Document) : Reading Value := do
  let json ← readable document.toJson?
  return json.toValue

/-- A predicate of which some fields have been read. -/
structure Predicate.Draft where
  feature : Option String := none
  operator : Option Operator := none
  threshold : Option Value := none

def Predicate.Draft.fill (draft : Draft) (field : String) (content : Document) :
    Reading Draft :=
  match field with
  | "feature" => return { draft with feature := ← fillOnce field draft.feature content.readText }
  | "operator" =>
      return { draft with operator := ← fillOnce field draft.operator content.readOperator }
  | _ => return { draft with threshold := ← fillOnce field draft.threshold content.readValue }

/-- Completes a predicate; no field has a default. -/
def Predicate.Draft.complete (draft : Draft) (fault : String → ShapeFault) :
    Reading Predicate := do
  let feature ← needed fault "feature" draft.feature
  let operator ← needed fault "operator" draft.operator
  let threshold ← needed fault "threshold" draft.threshold
  return { feature, operator, threshold }

def Predicate.shape : RecordShape Predicate.Draft Predicate where
  name := "Predicate"
  fields := ["feature", "operator", "threshold"]
  blank := {}
  fill := Predicate.Draft.fill
  complete := Predicate.Draft.complete
  overlong := .tooLong

/-- The combination of a name. -/
def Combination.ofName (name : String) : Reading Combination :=
  if name = "and" then .ok .all
  else if name = "or" then .ok .any
  else .error (.unknownChoice name)

/-- Reads a combination: its name, or an object with its name over nothing. -/
def Combination.read : Document → Reading Combination
  | .text (some name) => ofName name
  | .object [(some name, content)] => do
      let combination ← ofName name
      match content with
      | .null => return combination
      | _ => content.unfit "unit"
  | .object _ => .error .notOneKey
  | document => document.unfit "string or map"

structure Verdict.Draft where
  tag : Option String := none
  label : Option String := none
  blocks : Option Bool := none

def Verdict.Draft.fill (draft : Draft) (field : String) (content : Document) : Reading Draft :=
  match field with
  | "tag" => return { draft with tag := ← fillOnce field draft.tag content.readText }
  | "label" => return { draft with label := ← fillOnce field draft.label content.readText }
  | _ => return { draft with blocks := ← fillOnce field draft.blocks content.readBool }

/-- Completes a verdict; all fields have defaults. -/
def Verdict.Draft.complete (draft : Draft) (_ : String → ShapeFault) : Reading Verdict :=
  return { tag := draft.tag.getD "", label := draft.label.getD ""
           blocks := draft.blocks.getD false }

def Verdict.shape : RecordShape Verdict.Draft Verdict where
  name := "RuleDecision"
  fields := ["tag", "label", "block"]
  blank := {}
  fill := Verdict.Draft.fill
  complete := Verdict.Draft.complete
  overlong := .tooLong

structure Rule.Draft where
  name : Option String := none
  combination : Option Combination := none
  conditions : Option (List Predicate) := none
  verdict : Option Verdict := none

def Rule.Draft.fill (draft : Draft) (field : String) (content : Document) : Reading Draft :=
  match field with
  | "name" => return { draft with name := ← fillOnce field draft.name content.readText }
  | "logic" =>
      return { draft with
        combination := ← fillOnce field draft.combination (Combination.read content) }
  | "conditions" =>
      return { draft with
        conditions := ← fillOnce field draft.conditions
          (content.readItems Predicate.shape.read) }
  | _ =>
      return { draft with verdict := ← fillOnce field draft.verdict (Verdict.shape.read content) }

/-- Completes a rule; the name and the conditions have no default. -/
def Rule.Draft.complete (draft : Draft) (fault : String → ShapeFault) : Reading Rule := do
  let name ← needed fault "name" draft.name
  let conditions ← needed fault "conditions" draft.conditions
  return { name, conditions, combination := draft.combination.getD .all
           verdict := draft.verdict.getD {} }

def Rule.shape : RecordShape Rule.Draft Rule where
  name := "Rule"
  fields := ["name", "logic", "conditions", "decision"]
  blank := {}
  fill := Rule.Draft.fill
  complete := Rule.Draft.complete
  overlong := .tooLong

structure Ruleset.Draft where
  rules : Option (List Rule) := none
  strict : Option Bool := none

def Ruleset.Draft.fill (draft : Draft) (field : String) (content : Document) : Reading Draft :=
  match field with
  | "rules" =>
      return { draft with
        rules := ← fillOnce field draft.rules (content.readItems Rule.shape.read) }
  | _ => return { draft with strict := ← fillOnce field draft.strict content.readBool }

/-- Completes a ruleset; the rules have no default. -/
def Ruleset.Draft.complete (draft : Draft) (fault : String → ShapeFault) : Reading Ruleset := do
  let rules ← needed fault "rules" draft.rules
  return { rules, strict := draft.strict.getD false }

def Ruleset.shape : RecordShape Ruleset.Draft Ruleset where
  name := "RulesetConfig"
  fields := ["rules", "strict"]
  blank := {}
  fill := Ruleset.Draft.fill
  complete := Ruleset.Draft.complete
  overlong := .tooLong

/-- Reads the score among the members of an item; its other members are passed over. -/
def readScore : List (Option String × Document) → Reading Binary64
  | [] => .error (.missingField "score")
  | (key, content) :: members =>
      if key = some "score" then content.readReal else readScore members

/-- Reads an item of a scorecard.  Its score stands among the fields of its predicate, and is read
before them. -/
def ScoreItem.read : Document → Reading ScoreItem
  | .object members => do
      let score ← readScore members
      let predicate ← Predicate.shape.ofMembers members
      return { predicate, score }
  | document => document.unfit "struct ScoreItem"

structure Scorecard.Draft where
  output : Option String := none
  base : Option Binary64 := none
  items : Option (List ScoreItem) := none

def Scorecard.Draft.fill (draft : Draft) (field : String) (content : Document) :
    Reading Draft :=
  match field with
  | "output" => return { draft with output := ← fillOnce field draft.output content.readText }
  | "base" => return { draft with base := ← fillOnce field draft.base content.readReal }
  | _ =>
      return { draft with
        items := ← fillOnce field draft.items (content.readItems ScoreItem.read) }

/-- Completes a scorecard; only the base has a default. -/
def Scorecard.Draft.complete (draft : Draft) (fault : String → ShapeFault) :
    Reading Scorecard := do
  let output ← needed fault "output" draft.output
  let items ← needed fault "items" draft.items
  return { output, items, base := draft.base.getD Binary64.zero }

def Scorecard.shape : RecordShape Scorecard.Draft Scorecard where
  name := "ScorecardConfig"
  fields := ["output", "base", "items"]
  blank := {}
  fill := Scorecard.Draft.fill
  complete := Scorecard.Draft.complete
  overlong := .tooLong

end RiskGraph

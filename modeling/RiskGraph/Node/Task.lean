import RiskGraph.Comparison.Basic

/-!
# Predicates, rulesets and scorecards

A predicate compares the feature under a key with a fixed threshold.  Preparing one checks its parts
once and reads the pattern of its threshold, so that later comparisons need not.  A rule combines
predicates as its conditions; one that hits contributes its name and perhaps a verdict that ends the
walk.  A ruleset tries all its rules in order.  A scorecard adds the scores of the items that hold
to a base and publishes the sum as a feature.
-/

namespace RiskGraph

variable [Engine]

/-! ## Predicates -/

/-- A comparison of one feature with a threshold. -/
structure Predicate where
  feature : String
  /-- How the feature is compared. -/
  operator : Operator
  /-- What it is compared with. -/
  threshold : Value
  /-- The pattern that the threshold writes, once it has been read. -/
  pattern : Option Pattern := none

/-- What is wrong with the settings of a node. -/
inductive SettingsFault where
  /-- A predicate names no feature. -/
  | emptyFeature
  /-- A threshold does not suit its operator. -/
  | threshold (fault : ThresholdFault)
  /-- A threshold writes no pattern. -/
  | pattern (fault : Comparison.Fault)
  /-- A ruleset is empty. -/
  | noRules
  /-- A rule is empty. -/
  | noConditions (rule : String)
  /-- A scorecard names no feature to publish. -/
  | emptyOutput
  deriving DecidableEq

def SettingsFault.message : SettingsFault → String
  | emptyFeature => "condition has an empty feature key"
  | threshold fault => fault.message
  | pattern fault => fault.message
  | noRules => "ruleset has no rules"
  | noConditions rule => s!"rule '{rule}' has no conditions"
  | emptyOutput => "scorecard has an empty output key"

namespace Predicate

/-- Whether two predicates compare in the same way; it does not matter what has been prepared. -/
def same (left right : Predicate) : Bool :=
  left.feature == right.feature && left.operator == right.operator &&
    left.threshold.same right.threshold

/-- Whether no pattern remains to be read. -/
def isPrepared (predicate : Predicate) : Bool :=
  predicate.operator != .like || predicate.pattern.isSome

/-- Reads the pattern of a predicate that needs one. -/
def withPattern (predicate : Predicate) : Except SettingsFault Predicate :=
  if predicate.operator = .like then do
    let pattern ← (Comparison.patternOf predicate.threshold).mapError .pattern
    .ok { predicate with pattern := some pattern }
  else .ok predicate

/-- Checks a predicate and makes it ready for use. -/
def prepare (predicate : Predicate) : Except SettingsFault Predicate := do
  if isBlankText predicate.feature then .error .emptyFeature
  (predicate.operator.checkThreshold predicate.threshold).mapError .threshold
  predicate.withPattern

/-- Compares a value with the threshold. -/
def evaluate (predicate : Predicate) (value : Value) : Comparison.Result Bool :=
  Comparison.applyWith predicate.operator value predicate.threshold predicate.pattern

end Predicate

/-! ## Rulesets -/

/-- How a rule combines its conditions. -/
inductive Combination where
  /-- All of them must hold. -/
  | all
  /-- One of them must hold. -/
  | any
  deriving DecidableEq

/-- What a rule that hits contributes to the decision. -/
structure Verdict where
  tag : String := ""
  label : String := ""
  /-- Whether the hit ends the walk. -/
  blocks : Bool := false

/-- Conditions under one name. -/
structure Rule where
  /-- Name reported for a hit. -/
  name : String
  /-- How the conditions combine. -/
  combination : Combination := .all
  /-- The conditions, in the order in which they are evaluated. -/
  conditions : List Predicate
  /-- What a hit contributes. -/
  verdict : Verdict := {}

/-- Rules of one node. -/
structure Ruleset where
  /-- The rules, in the order in which they are tried. -/
  rules : List Rule
  /-- Whether a missing feature is a failure. -/
  strict : Bool := false

/-- Whether the truth values of the conditions make a rule hit. -/
def Combination.holds : Combination → List Bool → Bool
  | .all, outcomes => outcomes.all id
  | .any, outcomes => outcomes.any id

/-- Checks a rule and makes its conditions ready for use. -/
def Rule.prepare (rule : Rule) : Except SettingsFault Rule := do
  if rule.conditions.isEmpty then .error (.noConditions rule.name)
  let conditions ← rule.conditions.mapM Predicate.prepare
  .ok { rule with conditions }

/-- Checks a ruleset and makes its conditions ready for use. -/
def Ruleset.prepare (ruleset : Ruleset) : Except SettingsFault Ruleset := do
  if ruleset.rules.isEmpty then .error .noRules
  let rules ← ruleset.rules.mapM Rule.prepare
  .ok { ruleset with rules }

/-- All conditions of a ruleset, rule by rule. -/
def Ruleset.conditions (ruleset : Ruleset) : List Predicate :=
  ruleset.rules.flatMap Rule.conditions

/-! ## Scorecards -/

/-- A condition with a score. -/
structure ScoreItem where
  predicate : Predicate
  /-- What it adds if it holds. -/
  score : Binary64

/-- Scores of one node. -/
structure Scorecard where
  /-- Key under which the sum is published. -/
  output : String
  /-- Where the sum begins. -/
  base : Binary64 := Binary64.zero
  /-- The items, in the order in which they are added. -/
  items : List ScoreItem

/-- Makes the condition of an item ready for use. -/
def ScoreItem.prepare (item : ScoreItem) : Except SettingsFault ScoreItem := do
  let predicate ← item.predicate.prepare
  .ok { item with predicate }

/-- Checks a scorecard and makes its conditions ready for use. -/
def Scorecard.prepare (scorecard : Scorecard) : Except SettingsFault Scorecard := do
  if isBlankText scorecard.output then .error .emptyOutput
  let items ← scorecard.items.mapM ScoreItem.prepare
  .ok { scorecard with items }

/-- The value that a sum is published as: an integer if it is one of 64 bits, else a real. -/
def Scorecard.valueOf (total : Binary64) : Value :=
  match Value.exactInt64? total with
  | some n => .int n
  | none => .real total

end RiskGraph

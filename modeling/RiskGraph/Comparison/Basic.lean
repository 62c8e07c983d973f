import RiskGraph.Comparison.Operator
import RiskGraph.Table
import RiskGraph.Text.Pattern
import RiskGraph.Value.Kind

/-!
# Comparison of a feature with a threshold

Both sides are classified first, the feature before the threshold; an operator then asks for kinds
that match and compares what the values stand for.  Integers of 64 bits are compared exactly, all
other numbers as reals, moments in time, texts by their characters.
-/

namespace RiskGraph

/-- Why a comparison has no result. -/
inductive Comparison.Fault where
  /-- A value could not be read. -/
  | value (fault : Value.Fault)
  /-- A value is of another kind than the operator asks for. -/
  | mismatch (expected found : Kind)
  /-- The operator does not apply to a kind. -/
  | unsupported (operator : Operator) (kind : Kind)
  /-- The threshold has the wrong shape. -/
  | threshold (fault : ThresholdFault)
  deriving DecidableEq

namespace Comparison

def Fault.message : Fault → String
  | value fault => fault.message
  | mismatch expected found => s!"expected {expected.name}, found {found.name}"
  | unsupported operator kind => s!"operator '{operator.symbol}' is not defined for {kind.name}"
  | threshold fault => s!"invalid threshold: {fault.message}"

/-- The result of a step of a comparison. -/
abbrev Result (α : Type) := Except Fault α

/-- A reading of a value, as a step of a comparison. -/
def reading {α : Type} (result : Except Value.Fault α) : Result α :=
  result.mapError .value

def kindOf (subject : Value) : Result Kind :=
  reading subject.classify

/-- Asks for two kinds that match. -/
def requireAgreement (found expected : Kind) : Result Unit :=
  if found.agrees expected then .ok () else .error (.mismatch expected found)

/-- Asks for one certain kind. -/
def requireKind (expected found : Kind) : Result Unit :=
  if expected = found then .ok () else .error (.mismatch expected found)

/-- The items of an array of which the kind is known. -/
def itemsOf (subject : Value) (kind : Kind) : Result (List Value) :=
  match subject with
  | .array items => .ok items
  | _ => .error (.mismatch .array kind)

/-- The entries of a map of which the kind is known, in the order in which it yields them. -/
def entriesOf (subject : Value) (kind : Kind) : Result (List (String × Value)) :=
  match subject with
  | .map keys under => .ok (keys.entries under)
  | _ => .error (.mismatch .map kind)

/-- The text of a value of a kind.  Arrays, maps and dates have none, but a text that writes a date
has itself. -/
def textOf (operator : Operator) (subject : Value) (kind : Kind) : Result String :=
  match subject, kind with
  | .text content, _ => .ok content
  | _, .array => .error (.unsupported operator .array)
  | _, .map => .error (.unsupported operator .map)
  | _, .date => .error (.unsupported operator .date)
  | _, _ => reading subject.toText

/-- Order of two values as reals. -/
def realOrder (operator : Operator) (left right : Value) : Result Ordering := do
  let x ← reading left.toReal
  let y ← reading right.toReal
  match x.compare? y with
  | some ordering => .ok ordering
  | none => .error (.unsupported operator .float)

/-- Order of two values of kind integer: exact if both have 64 bits, else as reals. -/
def intOrder (operator : Operator) (left right : Value) : Result Ordering :=
  match left.toInt64, right.toInt64 with
  | .ok m, .ok n => .ok (compare m.toInt n.toInt)
  | _, _ => realOrder operator left right

/-- Order of two values whose kinds match. -/
def order (operator : Operator) (left : Value) (leftKind : Kind) (right : Value)
    (rightKind : Kind) : Result Ordering :=
  match leftKind, rightKind with
  | .int, .int => intOrder operator left right
  | .int, .float | .float, .int | .float, .float => realOrder operator left right
  | .date, _ => do
      let a ← reading left.toMoment
      let b ← reading right.toMoment
      .ok (a.compare b)
  | .string, _ => do
      let s ← reading left.toText
      let t ← reading right.toText
      .ok (compare s t)
  | kind, _ => .error (.unsupported operator kind)

/-- Equality of two values whose kinds match. -/
def equality (operator : Operator) (left : Value) (leftKind : Kind) (right : Value)
    (rightKind : Kind) : Result Bool :=
  match leftKind with
  | .bool => do
      let a ← reading left.toBool
      let b ← reading right.toBool
      .ok (a == b)
  | .array | .map => .ok (left.same right)
  | _ => do
      let ordering ← order operator left leftKind right rightKind
      .ok (ordering == .eq)

/-- Whether some item equals the subject; every item up to the first such one must match it in
kind. -/
def among (operator : Operator) (subject : Value) (kind : Kind) : List Value → Result Bool
  | [] => .ok false
  | item :: items => do
      let itemKind ← kindOf item
      requireAgreement kind itemKind
      if ← equality operator subject kind item itemKind then .ok true
      else among operator subject kind items

/-- Whether an item of a known kind equals the subject; items of other kinds do not. -/
def matching (operator : Operator) (item : Value) (itemKind : Kind) (subject : Value)
    (kind : Kind) : Result Bool :=
  if itemKind.agrees kind then equality operator item itemKind subject kind else .ok false

/-- Whether some item equals the subject; items of other kinds are passed over. -/
def containing (operator : Operator) (subject : Value) (kind : Kind) : List Value → Result Bool
  | [] => .ok false
  | item :: items => do
      let itemKind ← kindOf item
      if ← matching operator item itemKind subject kind then .ok true
      else containing operator subject kind items

/-- Whether some entry holds the subject; values of other kinds or of none are passed over. -/
def holding (operator : Operator) (subject : Value) (kind : Kind) :
    List (String × Value) → Result Bool
  | [] => .ok false
  | (_, item) :: entries =>
      match kindOf item with
      | .error _ => holding operator subject kind entries
      | .ok itemKind => do
          if ← matching operator item itemKind subject kind then .ok true
          else holding operator subject kind entries

/-- Whether a text occurs within another. -/
def occursIn (part : List Char) : List Char → Bool
  | [] => part.isEmpty
  | whole@(_ :: rest) => part.isPrefixOf whole || occursIn part rest

/-- The pattern that a text writes, if the engine compiles its expression. -/
def compiledPattern [engine : Engine] (content : String) : Result Pattern :=
  match engine.compile (engine.expressionOf content.toList) with
  | .ok _ => .ok (Pattern.ofText content)
  | .error reason => .error (.threshold (.uncompilable reason))

/-- The pattern that a threshold writes. -/
def patternOf [Engine] (threshold : Value) : Result Pattern := do
  let kind ← kindOf threshold
  let content ← textOf .like threshold kind
  compiledPattern content

/-- Whether an ordering satisfies a relational operator. -/
def satisfies : Operator → Ordering → Bool
  | .greater, ordering => ordering == .gt
  | .atLeast, ordering => ordering != .lt
  | .less, ordering => ordering == .lt
  | _, ordering => ordering != .gt

/-- Compares a feature with a threshold of which the kinds are known, with the pattern of the
threshold if it is already at hand. -/
def applyKinds [Engine] (operator : Operator) (feature : Value) (left : Kind) (threshold : Value)
    (right : Kind) (pattern : Option Pattern) : Result Bool :=
  match operator with
  | .greater | .atLeast | .less | .atMost => do
      requireAgreement left right
      let ordering ← order operator feature left threshold right
      .ok (satisfies operator ordering)
  | .equal => do
      requireAgreement left right
      equality operator feature left threshold right
  | .different => do
      requireAgreement left right
      let equal ← equality operator feature left threshold right
      .ok (!equal)
  | .before | .after => do
      requireKind .date left
      requireKind .date right
      let a ← reading feature.toMoment
      let b ← reading threshold.toMoment
      .ok (a.compare b == if operator = .before then .lt else .gt)
  | .between => do
      let bounds ← itemsOf threshold right
      match bounds with
      | [low, high] => do
          let lowKind ← kindOf low
          let highKind ← kindOf high
          requireAgreement left lowKind
          requireAgreement left highKind
          let above ← order operator feature left low lowKind
          let below ← order operator feature left high highKind
          .ok (above != .lt && below != .gt)
      | _ => .error (.threshold .notBounds)
  | .member => do
      let items ← itemsOf threshold right
      among operator feature left items
  | .nonmember => do
      let items ← itemsOf threshold right
      let found ← among operator feature left items
      .ok (!found)
  | .contain =>
      match feature with
      | .array items => containing operator threshold right items
      | _ => do
          let whole ← textOf operator feature left
          let part ← textOf operator threshold right
          .ok (occursIn part.toList whole.toList)
  | .like => do
      let content ← textOf operator feature left
      let taker ← match pattern with
        | some ready => .ok ready
        | none => patternOf threshold
      .ok (taker.takes content)
  | .keyExist => do
      let entries ← entriesOf feature left
      let key ← textOf operator threshold right
      .ok (Entries.get? key entries).isSome
  | .valueExist => do
      let entries ← entriesOf feature left
      holding operator threshold right entries

/-- Compares a feature with a threshold, using the pattern of the threshold if it is already at
hand. -/
def applyWith [Engine] (operator : Operator) (feature threshold : Value)
    (pattern : Option Pattern) : Result Bool := do
  let left ← kindOf feature
  let right ← kindOf threshold
  applyKinds operator feature left threshold right pattern

/-- Compares a feature with a threshold. -/
def apply [Engine] (operator : Operator) (feature threshold : Value) : Result Bool :=
  applyWith operator feature threshold none

end Comparison
end RiskGraph

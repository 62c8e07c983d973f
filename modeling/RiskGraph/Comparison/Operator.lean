import RiskGraph.Text.Basic
import RiskGraph.Value.Basic

/-!
# Operators

An operator compares a feature with a threshold.  It is written as a symbol or a word in any letter
case, and each asks for a threshold of a certain shape.
-/

namespace RiskGraph

/-- A comparison of a feature on the left with a threshold on the right. -/
inductive Operator where
  | greater
  | atLeast
  | less
  | atMost
  | equal
  | different
  /-- The feature lies between two bounds, ends included. -/
  | between
  | member
  | nonmember
  /-- The feature has the threshold as an item or a part of its text. -/
  | contain
  /-- The text of the feature fits a pattern. -/
  | like
  | before
  | after
  /-- The feature has a value under a key. -/
  | keyExist
  /-- The feature has a value under some key. -/
  | valueExist
  deriving DecidableEq

namespace Operator

def all : List Operator :=
  [greater, atLeast, less, atMost, equal, different, between, member, nonmember, contain, like,
    before, after, keyExist, valueExist]

/-- The form in which an operator is shown. -/
def symbol : Operator → String
  | greater => ">"
  | atLeast => ">="
  | less => "<"
  | atMost => "<="
  | equal => "=="
  | different => "!="
  | between => "BETWEEN"
  | member => "IN"
  | nonmember => "NOT_IN"
  | contain => "CONTAIN"
  | like => "LIKE"
  | before => "BEFORE"
  | after => "AFTER"
  | keyExist => "KEY_EXIST"
  | valueExist => "VALUE_EXIST"

/-- The other forms in which an operator may be written. -/
def synonyms : Operator → List String
  | greater => ["GT"]
  | atLeast => ["GE"]
  | less => ["LT"]
  | atMost => ["LE"]
  | equal => ["=", "EQ"]
  | different => ["NEQ"]
  | nonmember => ["NOTIN"]
  | contain => ["CONTAINS"]
  | keyExist => ["KEYEXIST"]
  | valueExist => ["VALUEEXIST"]
  | _ => []

/-- The operator that a text writes, blank space around it and letter case apart. -/
def ofText? (text : String) : Option Operator :=
  let form := upperCase (trim text)
  all.find? fun operator => (operator.symbol :: operator.synonyms).contains form

end Operator

/-- Why a threshold does not suit an operator. -/
inductive ThresholdFault where
  /-- The threshold is not an array of two bounds. -/
  | notBounds
  /-- The threshold is not an array. -/
  | notArray (operator : Operator)
  /-- There is no threshold. -/
  | missing (operator : Operator)
  /-- The expression of a pattern cannot be compiled. -/
  | uncompilable (reason : String)
  deriving DecidableEq

def ThresholdFault.message : ThresholdFault → String
  | notBounds => "BETWEEN expects a [low, high] array"
  | notArray operator => operator.symbol ++ " expects an array threshold"
  | missing operator => operator.symbol ++ " needs a threshold value"
  | uncompilable reason => reason

/-- Whether a threshold has the shape that an operator asks for. -/
def Operator.checkThreshold : Operator → Value → Except ThresholdFault Unit
  | between, .array [_, _] => .ok ()
  | between, _ => .error .notBounds
  | member, .array _ => .ok ()
  | member, _ => .error (.notArray member)
  | nonmember, .array _ => .ok ()
  | nonmember, _ => .error (.notArray nonmember)
  | operator, .null => .error (.missing operator)
  | _, _ => .ok ()

end RiskGraph

import RiskGraph.Value.Basic

/-!
# Kinds of values

The kind of a value says what it stands for, whatever its written form: a text of digits is an
integer, a real without a fraction is one too.  Comparison is defined between values of matching
kinds.  A value is read as a text, an integer, a real, a truth value or a moment, whatever its
written form; a reading that is not defined fails with the text of the value and the target.
-/

namespace RiskGraph

/-! ## Kinds -/

/-- What a value stands for. -/
inductive Kind where
  | int
  /-- A number with a fraction, or beyond the integers. -/
  | float
  | bool
  | date
  /-- Any other text. -/
  | string
  | array
  /-- Values under keys. -/
  | map
  /-- Nothing known. -/
  | unknown
  deriving DecidableEq

namespace Kind

def name : Kind → String
  | int => "INT"
  | float => "FLOAT"
  | bool => "BOOL"
  | date => "DATE"
  | string => "STRING"
  | array => "ARRAY"
  | map => "MAP"
  | unknown => "UNKNOWN"

/-- Whether values of a kind are numbers. -/
def isNumeric : Kind → Bool
  | int | float => true
  | _ => false

/-- Kinds match when they are equal or both numeric. -/
def agrees (left right : Kind) : Bool :=
  left == right || (left.isNumeric && right.isNumeric)

end Kind

/-- Why a value could not be read as what it should stand for. -/
inductive Value.Fault where
  /-- The value is of no kind. -/
  | unclassified (shown : String)
  /-- The value does not write one of the target kind. -/
  | inconvertible (shown : String) (target : Kind)
  deriving DecidableEq

def Value.Fault.message : Value.Fault → String
  | unclassified shown => s!"Feature value '{shown}' does not classify into any known type"
  | inconvertible shown target => s!"Cannot convert value '{shown}' to {target.name}"

/-- Whether a text is one or more digits. -/
def isDigitRow (text : List Char) : Bool :=
  !text.isEmpty && text.all isDecimalDigit

/-- Whether a text is two rows of digits with a point between them. -/
def isPointedRow (text : List Char) : Bool :=
  match text.dropWhile isDecimalDigit with
  | '.' :: fraction => isDigitRow (text.takeWhile isDecimalDigit) && isDigitRow fraction
  | _ => false

/-- The kind of what a text writes. -/
def Kind.ofText (text : String) : Kind :=
  let characters := text.toList
  if isDigitRow characters then int
  else if isPointedRow characters then float
  else if text = "true" ∨ text = "false" then bool
  else if hasMomentShape characters then date
  else string

namespace Value

/-- The 64-bit integer that a real is, if it is one. -/
def exactInt64? (x : Binary64) : Option Int64 :=
  x.integer?.bind toInt64?

/-- The kind of a value; the missing value has none. -/
def classify : Value → Except Fault Kind
  | int _ => .ok .int
  | real x => .ok (if (exactInt64? x).isSome then .int else .float)
  | bool _ => .ok .bool
  | date _ => .ok .date
  | array _ => .ok .array
  | map .. => .ok .map
  | text content => .ok (Kind.ofText content)
  | null => .error (.unclassified null.shown)

end Value

/-! ## Conversion -/

namespace Value

/-- The failure to read a value as the target. -/
def fault {α : Type} (value : Value) (target : Kind) : Except Fault α :=
  .error (.inconvertible value.shown target)

/-- A successful reading, or the failure to read a value as the target. -/
def orFault {α : Type} (value : Value) (target : Kind) : Option α → Except Fault α
  | some result => .ok result
  | none => value.fault target

/-- Text of a value that is written on one line; arrays, maps, dates and the missing value have
none. -/
def toText : Value → Except Fault String
  | text content => .ok content
  | int n => .ok (integerText n.toInt)
  | real x => .ok (RealNotation.plain.write x)
  | bool b => .ok (truthText b)
  | value => value.fault .string

/-- The 64-bit integer of a value; a real loses its fraction, and one beyond the range fails. -/
def toInt64 (value : Value) : Except Fault Int64 :=
  match value with
  | int n => .ok n
  | real x => value.orFault .int (x.truncate?.bind toInt64?)
  | bool b => .ok (if b then 1 else 0)
  | text content => value.orFault .int (readInt64? content)
  | _ => value.fault .int

/-- The integer of a value, within 32 bits. -/
def toInt32 (value : Value) : Except Fault Int32 := do
  let wide ← value.toInt64
  if -2147483648 ≤ wide.toInt ∧ wide.toInt < 2147483648 then .ok (Int32.ofInt wide.toInt)
  else value.fault .int

/-- The real nearest to a value. -/
def toReal (value : Value) : Except Fault Binary64 :=
  match value with
  | int n => .ok (Binary64.ofInt n.toInt)
  | real x => .ok x
  | bool b => .ok (if b then Binary64.one else Binary64.zero)
  | text content => value.orFault .float (readBinary64? content)
  | _ => value.fault .float

/-- The truth value of a value; of the integers only zero and one have one. -/
def toBool (value : Value) : Except Fault Bool :=
  match value with
  | bool b => .ok b
  | text content =>
      if content = "true" then .ok true
      else if content = "false" then .ok false
      else value.fault .bool
  | int n => if n = 0 then .ok false else if n = 1 then .ok true else value.fault .bool
  | _ => value.fault .bool

/-- The moment that a text writes. -/
def textToMoment (content : String) : Except Fault Moment :=
  (text content).orFault .date (readMoment? content)

/-- The moment of a value. -/
def toMoment (value : Value) : Except Fault Moment :=
  match value with
  | date moment => .ok moment
  | text content => textToMoment content
  | _ => value.fault .date

end Value

end RiskGraph

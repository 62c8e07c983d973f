import RiskGraph.Numeric.Numeral
import RiskGraph.Text.Basic

/-!
# Moments of the proleptic Gregorian calendar

A moment is a day and a time of that day, to the nanosecond.  A leap second is the second 59 carried
on past its billionth nanosecond, so that moments are ordered field by field.  A text has the shape
of a moment when digits stand where a year, month and day, and perhaps a time, have them.  The shape
admits the digits of every script; a moment is read from ASCII digits only.
-/

namespace RiskGraph

/-! ## Moments -/

/-- Whether a year has a 29th of February. -/
def isLeapYear (year : Int) : Bool :=
  year % 4 == 0 && (year % 100 != 0 || year % 400 == 0)

/-- Number of days of a month. -/
def daysInMonth (year : Int) (month : Nat) : Nat :=
  if month = 2 then if isLeapYear year then 29 else 28
  else if month = 4 ∨ month = 6 ∨ month = 9 ∨ month = 11 then 30
  else 31

def nanosecondsPerSecond : Nat := 1000000000

/-- The fields of a moment, whether or not there is such a moment. -/
structure MomentFields where
  /-- Astronomical year; the year before 1 is 0. -/
  year : Int
  /-- Month from 1 to 12. -/
  month : Nat
  /-- Day of the month from 1. -/
  day : Nat
  hour : Nat
  minute : Nat
  second : Nat
  /-- Nanosecond; a leap second has those from one billion on. -/
  nanosecond : Nat
  deriving DecidableEq

namespace MomentFields

/-- Whether the fields name a moment. -/
def Valid (fields : MomentFields) : Prop :=
  (1 ≤ fields.month ∧ fields.month ≤ 12) ∧
  (1 ≤ fields.day ∧ fields.day ≤ daysInMonth fields.year fields.month) ∧
  fields.hour < 24 ∧ fields.minute < 60 ∧ fields.second < 60 ∧
  (fields.nanosecond < nanosecondsPerSecond ∨
    fields.second = 59 ∧ fields.nanosecond < 2 * nanosecondsPerSecond)

instance (fields : MomentFields) : Decidable fields.Valid :=
  inferInstanceAs (Decidable (_ ∧ _))

/-- The fields from the longest unit to the shortest. -/
def toList (fields : MomentFields) : List Int :=
  [fields.year, fields.month, fields.day, fields.hour, fields.minute, fields.second,
    fields.nanosecond]

end MomentFields

/-- A day and a time. -/
structure Moment where
  fields : MomentFields
  valid : fields.Valid
  deriving DecidableEq

/-- Compares two rows of numbers by their first difference. -/
def compareRows : List Int → List Int → Ordering
  | [], [] => .eq
  | [], _ :: _ => .lt
  | _ :: _, [] => .gt
  | a :: as, b :: bs => (compare a b).then (compareRows as bs)

/-- Decimal digits of a number, filled up with zeros on the left. -/
def padded (width : Nat) (n : Nat) : String :=
  let digits := Nat.toDigits 10 n
  String.ofList (List.replicate (width - digits.length) '0' ++ digits)

namespace Moment

/-- The moment that fields name. -/
def ofFields? (fields : MomentFields) : Option Moment :=
  if valid : fields.Valid then some ⟨fields, valid⟩ else none

def compare (left right : Moment) : Ordering :=
  compareRows left.fields.toList right.fields.toList

/-- A year in four digits; one outside of those has a sign. -/
def yearText (year : Int) : String :=
  if 0 ≤ year ∧ year ≤ 9999 then padded 4 year.toNat
  else (if year < 0 then "-" else "+") ++ padded 4 year.natAbs

/-- The second as a clock shows it: 60 within a leap second. -/
def shownSecond (moment : Moment) : Nat :=
  moment.fields.second + moment.fields.nanosecond / nanosecondsPerSecond

/-- Text of a moment, to the second. -/
def text (moment : Moment) : String :=
  let fields := moment.fields
  yearText fields.year ++ "-" ++ padded 2 fields.month ++ "-" ++ padded 2 fields.day ++ " " ++
    padded 2 fields.hour ++ ":" ++ padded 2 fields.minute ++ ":" ++ padded 2 moment.shownSecond

end Moment

/-! ## Texts of moments -/

/-- The shape of a text: every digit of the given kind is replaced by a zero. -/
def shapeOf (isDigit : Char → Bool) (text : List Char) : List Char :=
  text.map fun c => if isDigit c then '0' else c

/-- Shape of a day alone. -/
def dayShape : List Char := "0000-00-00".toList

/-- Shape of a day with a time. -/
def daytimeShape : List Char := "0000-00-00 00:00:00".toList

/-- Whether a text has the shape of a moment, in digits of any scripts. -/
def hasMomentShape (text : List Char) : Bool :=
  let shape := shapeOf isDecimalDigit text
  shape == dayShape || shape == daytimeShape

/-- The number written in a slice of a text. -/
def numberAt (start width : Nat) (text : List Char) : Nat :=
  digitsValue ((text.drop start).take width)

/-- The day that a text of the right shape writes, at midnight. -/
def dayFields (text : List Char) : MomentFields :=
  { year := numberAt 0 4 text, month := numberAt 5 2 text, day := numberAt 8 2 text
    hour := 0, minute := 0, second := 0, nanosecond := 0 }

/-- The day and time that a text of the right shape writes; the second 60 is a leap second. -/
def daytimeFields (text : List Char) : MomentFields :=
  let second := numberAt 17 2 text
  { dayFields text with
    hour := numberAt 11 2 text
    minute := numberAt 14 2 text
    second := if second = 60 then 59 else second
    nanosecond := if second = 60 then nanosecondsPerSecond else 0 }

/-- Reads a day, or a day and a time. -/
def readMoment? (text : String) : Option Moment :=
  let characters := text.toList
  let shape := shapeOf Char.isDigit characters
  if shape = dayShape then Moment.ofFields? (dayFields characters)
  else if shape = daytimeShape then Moment.ofFields? (daytimeFields characters)
  else none

end RiskGraph

import RiskGraph.Numeric.Binary64

/-!
# Numerals and the numbers they denote

An integer text is an optional sign and a row of ASCII digits of any length; it names a 64-bit
integer when its value lies in the range.  A numeral is a row of digits with an optional fraction
and an optional exponent of ten.  It denotes the binary64 number nearest to its exact value.  Real
texts add a sign and the names of the infinities and of the undefined number.

A numeral may also be read in steps: as many of its digits as 64 bits hold make a number, which is
multiplied with a power of ten or divided by one.  Each step rounds, so that the result need not be
the nearest number.
-/

namespace RiskGraph

/-! ## Integers of 64 bits and their texts -/

/-- The number written by a row of decimal digits. -/
def digitsValue (digits : List Char) : Nat :=
  digits.foldl (fun value digit => 10 * value + (digit.toNat - '0'.toNat)) 0

/-- Reads one or more ASCII digits. -/
def readDigits? (text : List Char) : Option Nat :=
  if text ≠ [] ∧ text.all Char.isDigit then some (digitsValue text) else none

/-- Reads one or more ASCII digits after at most one sign. -/
def readInteger? : List Char → Option Int
  | '-' :: digits => (readDigits? digits).map fun size => -(size : Int)
  | '+' :: digits => (readDigits? digits).map Int.ofNat
  | digits => (readDigits? digits).map Int.ofNat

/-- First integer beyond those of 64 bits. -/
def int64Limit : Int := 9223372036854775808

/-- The 64-bit integer of a value in the range from `-2 ^ 63` to `2 ^ 63 - 1`. -/
def toInt64? (n : Int) : Option Int64 :=
  if -int64Limit ≤ n ∧ n < int64Limit then some (Int64.ofInt n) else none

theorem toInt_of_toInt64? {n : Int} {word : Int64} (fits : toInt64? n = some word) :
    word.toInt = n := by
  unfold toInt64? at fits
  split at fits
  · next range =>
      obtain rfl := Option.some.inj fits
      exact Int64.toInt_ofInt_of_le range.1 range.2
  · contradiction

/-- Reads the text of a 64-bit integer. -/
def readInt64? (text : String) : Option Int64 :=
  (readInteger? text.toList).bind toInt64?

/-- Decimal text of an integer, with a sign only if it is negative. -/
def integerText (n : Int) : String :=
  if n < 0 then "-" ++ String.ofList (Nat.toDigits 10 n.natAbs)
  else String.ofList (Nat.toDigits 10 n.natAbs)

/-! ## Numerals -/

/-- The parts of an unsigned numeral as it is written. -/
structure Numeral where
  /-- Digits before the point. -/
  whole : List Char
  /-- Digits after the point, if there is a point. -/
  fraction : Option (List Char)
  /-- Power of ten, if there is an exponent. -/
  exponent : Option Int

namespace Numeral

/-- Splits a leading point and the digits after it from the rest of a text. -/
def splitFraction : List Char → Option (List Char) × List Char
  | '.' :: rest => (some (rest.takeWhile Char.isDigit), rest.dropWhile Char.isDigit)
  | rest => (none, rest)

/-- Reads what may follow the digits: nothing, or a mark and an exponent. -/
def readExponent? : List Char → Option (Option Int)
  | [] => some none
  | mark :: rest =>
      if mark = 'e' ∨ mark = 'E' then (readInteger? rest).map some else none

/-- Takes a text apart; the rows of digits may be empty. -/
def ofText? (text : List Char) : Option Numeral :=
  let (fraction, rest) := splitFraction (text.dropWhile Char.isDigit)
  (readExponent? rest).map fun exponent =>
    { whole := text.takeWhile Char.isDigit, fraction, exponent }

/-- Whether there is a digit before or after the point. -/
def hasDigits (numeral : Numeral) : Bool :=
  !numeral.whole.isEmpty || !(numeral.fraction.getD []).isEmpty

/-- Whether the numeral is a plain row of digits. -/
def isWhole (numeral : Numeral) : Bool :=
  numeral.fraction.isNone && numeral.exponent.isNone

/-- Whether there are digits on both sides of a point, and no zero leads the others. -/
def isStandard (numeral : Numeral) : Bool :=
  (match numeral.whole with
    | [] => false
    | [_] => true
    | first :: _ => first != '0') &&
  numeral.fraction != some []

/-- All digits, read as one whole number. -/
def coefficient (numeral : Numeral) : Nat :=
  digitsValue (numeral.whole ++ numeral.fraction.getD [])

/-- Power of ten that scales the coefficient. -/
def scale (numeral : Numeral) : Int :=
  numeral.exponent.getD 0 - (numeral.fraction.getD []).length

/-- The signed exact value of a numeral, rounded by the given rounding of quotients of units.
Values beyond every format are cut off before their powers of ten are formed. -/
def rounded (round : Bool → Nat → Nat → Binary64) (negative : Bool) (numeral : Numeral) :
    Binary64 :=
  let coefficient := numeral.coefficient
  let scale := numeral.scale
  if coefficient = 0 then round negative 0 1
  else if 400 < scale then .infinite negative
  else if (coefficient.log2 : Int) + 3 * scale < -1080 then round negative 0 1
  else
    round negative (coefficient * tenPow scale.toNat * Binary64.unitsPerOne)
      (tenPow (-scale).toNat)

/-! ### Reading in steps -/

/-- A number with a digit behind it. -/
def appended (number : Nat) (digit : Char) : Nat :=
  10 * number + (digit.toNat - '0'.toNat)

/-- Appends digits to a number as long as it has 64 bits, and counts those that are left. -/
def appendWhole (number : Nat) : List Char → Nat × Nat
  | [] => (number, 0)
  | digit :: digits =>
      if appended number digit < twoPow 64 then appendWhole (appended number digit) digits
      else (number, digits.length + 1)

/-- Appends digits to a number as long as it has 64 bits, and counts those that are taken. -/
def appendFraction (number : Nat) : List Char → Nat × Nat
  | [] => (number, 0)
  | digit :: digits =>
      if appended number digit < twoPow 64 then
        let (longer, taken) := appendFraction (appended number digit) digits
        (longer, taken + 1)
      else (number, 0)

/-- The size nearest to a power of ten. -/
def powerSize (exponent : Nat) : Nat :=
  BinaryFormat.binary64.round (tenPow exponent * Binary64.unitsPerOne) 1

/-- A signed size divided by a power of ten.  Powers beyond the greatest that is a finite number are
taken in several steps. -/
def dividedBy (negative : Bool) (size exponent : Nat) : Binary64 :=
  if 308 < exponent ∧ size ≠ 0 then
    dividedBy negative
      (BinaryFormat.binary64.round (size * Binary64.unitsPerOne) (powerSize 308)) (exponent - 308)
  else
    Binary64.ofQuotient negative (size * Binary64.unitsPerOne) (powerSize (min exponent 308))
termination_by exponent

/-- A signed size multiplied with a power of ten. -/
def multipliedBy (negative : Bool) (size exponent : Nat) : Binary64 :=
  if 308 < exponent ∧ size ≠ 0 then .infinite negative
  else Binary64.ofQuotient negative (size * powerSize (min exponent 308)) Binary64.unitsPerOne

/-- The number that a signed numeral comes to step by step. -/
def inSteps (negative : Bool) (numeral : Numeral) : Binary64 :=
  let (whole, left) := appendWhole 0 numeral.whole
  let (significand, taken) := appendFraction whole (numeral.fraction.getD [])
  let scale := numeral.exponent.getD 0 + left - taken
  let size := BinaryFormat.binary64.round (significand * Binary64.unitsPerOne) 1
  if 0 ≤ scale then multipliedBy negative size scale.toNat
  else dividedBy negative size (-scale).toNat

end Numeral

/-- Reads what follows the sign of a real: the name of an infinity or of the undefined number in
any case, or a numeral with at least one digit. -/
def readUnsignedReal? (round : Bool → Nat → Nat → Binary64) (negative : Bool)
    (text : List Char) : Option Binary64 :=
  let name := String.ofList (text.map Char.toLower)
  if name = "inf" ∨ name = "infinity" then some (.infinite negative)
  else if name = "nan" then some .nan
  else
    (Numeral.ofText? text).bind fun numeral =>
      if numeral.hasDigits then some (numeral.rounded round negative) else none

/-- Reads a real with at most one sign. -/
def readReal? (round : Bool → Nat → Nat → Binary64) : List Char → Option Binary64
  | '-' :: rest => readUnsignedReal? round true rest
  | '+' :: rest => readUnsignedReal? round false rest
  | text => readUnsignedReal? round false text

/-- The binary64 number nearest to the real that a text writes. -/
def readBinary64? (text : String) : Option Binary64 :=
  readReal? Binary64.ofQuotient text.toList

end RiskGraph

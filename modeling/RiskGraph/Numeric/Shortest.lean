import RiskGraph.Numeric.Binary64
import RiskGraph.Numeric.Numeral

/-!
# Shortest decimals

The decimal written for a binary64 number has the fewest digits that read back as that number, and
of those the nearest to it.  A notation settles the rest: which of two equally near decimals is
taken, where the point stands and when an exponent is used.
-/

namespace RiskGraph

/-- A positive decimal: a whole coefficient times a power of ten. -/
structure Decimal where
  /-- All digits as one number. -/
  coefficient : Nat
  /-- Power of ten. -/
  exponent : Int
  deriving DecidableEq

/-- Which of two equally near decimals is taken. -/
inductive TieRule where
  | upward
  /-- The one with an even coefficient. -/
  | toEven

/-- The values that round to one positive size, in quarters of a unit. -/
structure Neighborhood where
  /-- Halfway point to the next smaller size. -/
  low : Nat
  centre : Nat
  /-- Halfway point to the next larger size. -/
  high : Nat
  /-- Whether the halfway points round to the size. -/
  closed : Bool

namespace Neighborhood

/-- The neighborhood of a size; below a power of two the sizes are twice as dense. -/
def ofUnits (units : Nat) : Neighborhood :=
  let exponent := BinaryFormat.binary64.spacing units
  let gap := twoPow exponent
  let lowGap := if 0 < exponent ∧ units = twoPow 52 * gap then gap else 2 * gap
  { low := 4 * units - lowGap
    centre := 4 * units
    high := 4 * units + 2 * gap
    closed := units / gap % 2 == 0 }

/-- Quarters of a unit in one. -/
def quartersPerOne : Nat := 4 * Binary64.unitsPerOne

/-- Whether a decimal lies in the neighborhood. -/
def contains (window : Neighborhood) (decimal : Decimal) : Bool :=
  let value := decimal.coefficient * tenPow decimal.exponent.toNat * quartersPerOne
  let scale := tenPow (-decimal.exponent).toNat
  if window.closed then window.low * scale ≤ value ∧ value ≤ window.high * scale
  else window.low * scale < value ∧ value < window.high * scale

/-- How the size compares with the middle between a decimal and the next one. -/
def compareMiddle (window : Neighborhood) (below : Decimal) : Ordering :=
  let step := tenPow below.exponent.toNat * quartersPerOne
  let scale := tenPow (-below.exponent).toNat
  compare (2 * window.centre * scale) ((2 * below.coefficient + 1) * step)

/-- The nearer of a decimal and the next one. -/
def nearer (window : Neighborhood) (tie : TieRule) (below above : Decimal) : Decimal :=
  match window.compareMiddle below, tie with
  | .lt, _ => below
  | .gt, _ => above
  | .eq, .upward => above
  | .eq, .toEven => if below.coefficient % 2 = 0 then below else above

/-- Whether the size is less than a power of ten. -/
def isBelow (window : Neighborhood) (power : Int) : Bool :=
  window.centre * tenPow (-power).toNat < tenPow power.toNat * quartersPerOne

/-- The place of the leading digit: the least power of ten above the size. -/
def position (window : Neighborhood) : Int :=
  let estimate := Int.fdiv (((window.centre.log2 : Int) - 1076) * 30103) 100000
  if window.isBelow estimate then estimate
  else if window.isBelow (estimate + 1) then estimate + 1
  else estimate + 2

/-- The largest decimal with a given exponent that does not exceed the size. -/
def floorAt (window : Neighborhood) (exponent : Int) : Decimal :=
  { coefficient :=
      window.centre * tenPow (-exponent).toNat / (tenPow exponent.toNat * quartersPerOne)
    exponent }

/-- A decimal without zeros at the end of its coefficient, as far as `fuel` reaches. -/
def trimmed : Nat → Decimal → Decimal
  | 0, decimal => decimal
  | fuel + 1, decimal =>
      if decimal.coefficient ≠ 0 ∧ decimal.coefficient % 10 = 0 then
        trimmed fuel ⟨decimal.coefficient / 10, decimal.exponent + 1⟩
      else decimal

/-- The better of the two decimals next to the size, if one of them lies in the neighborhood. -/
def bestAt? (window : Neighborhood) (tie : TieRule) (exponent : Int) : Option Decimal :=
  let below := window.floorAt exponent
  let above := { below with coefficient := below.coefficient + 1 }
  match window.contains below, window.contains above with
  | true, true => some (window.nearer tie below above)
  | true, false => some below
  | false, true => some above
  | false, false => none

/-- Searches ever finer decimals, `remaining` more grids at most. -/
def search (window : Neighborhood) (tie : TieRule) : Nat → Int → Decimal
  | 0, exponent => window.floorAt exponent
  | remaining + 1, exponent =>
      match window.bestAt? tie exponent with
      | some decimal => decimal
      | none => search window tie remaining (exponent - 1)

/-- The shortest decimal of the neighborhood; seventeen digits always suffice. -/
def shortest (window : Neighborhood) (tie : TieRule) : Decimal :=
  trimmed 17 (search window tie 17 (window.position - 1))

end Neighborhood

namespace Decimal

/-- Digits of the coefficient. -/
def digits (decimal : Decimal) : List Char :=
  Nat.toDigits 10 decimal.coefficient

/-- The decimal without an exponent. -/
def positional (decimal : Decimal) : List Char :=
  let digits := decimal.digits
  let point := (digits.length : Int) + decimal.exponent
  if 0 ≤ decimal.exponent then digits ++ List.replicate decimal.exponent.toNat '0'
  else if 0 < point then digits.take point.toNat ++ '.' :: digits.drop point.toNat
  else '0' :: '.' :: List.replicate (-point).toNat '0' ++ digits

/-- Text of an exponent, with a sign always. -/
def exponentText (exponent : Int) : List Char :=
  (if exponent < 0 then '-' else '+') :: Nat.toDigits 10 exponent.natAbs

/-- The decimal with a point or an exponent always: positional from `10 ^ -5` up to `10 ^ 16`, else
with an exponent behind a coefficient of one leading digit. -/
def pointed (decimal : Decimal) : List Char :=
  let digits := decimal.digits
  let point := (digits.length : Int) + decimal.exponent
  if -5 < point ∧ point ≤ 16 then
    decimal.positional ++ if 0 ≤ decimal.exponent then ['.', '0'] else []
  else
    let mantissa := match digits with
      | [] => []
      | [digit] => [digit]
      | digit :: rest => digit :: '.' :: rest
    mantissa ++ 'e' :: exponentText (point - 1)

end Decimal

/-- How reals are written. -/
structure RealNotation where
  /-- Choice between equally near decimals. -/
  tie : TieRule
  /-- Place of the point and use of an exponent. -/
  layout : Decimal → List Char

namespace RealNotation

/-- Never an exponent, and a point only before a fraction. -/
def plain : RealNotation := ⟨.upward, Decimal.positional⟩

/-- Always a point or an exponent, so that no real looks like an integer. -/
def pointed : RealNotation := ⟨.toEven, Decimal.pointed⟩

/-- Writes a number, the undefined one and the infinities by name. -/
def write (style : RealNotation) : Binary64 → String
  | .nan => "NaN"
  | .infinite negative => if negative then "-inf" else "inf"
  | .finite negative units _ =>
      let size :=
        if units = 0 then style.layout ⟨0, 0⟩
        else style.layout ((Neighborhood.ofUnits units).shortest style.tie)
      String.ofList (if negative then '-' :: size else size)

end RealNotation
end RiskGraph

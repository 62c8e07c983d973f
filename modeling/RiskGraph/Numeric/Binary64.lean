/-!
# Binary64 numbers

Floating-point numbers as exact data: a finite number is a sign and a count of units of
`2 ^ -1074`, the smallest positive number of the format.  A size of the format is a multiple of a
spacing that depends on its leading bit; rounding takes a quotient to the nearest such multiple.
Comparison and addition are those of the integers, addition rounding its exact sum to the nearest
number, so that statements about them are statements about `Int`.
-/

namespace RiskGraph

/-! ## Powers of two and ten -/

def twoPow (exponent : Nat) : Nat :=
  Nat.pow 2 exponent

def tenPow (exponent : Nat) : Nat :=
  Nat.pow 10 exponent

theorem twoPow_pos (exponent : Nat) : 0 < twoPow exponent :=
  Nat.two_pow_pos exponent

theorem twoPow_add (m n : Nat) : twoPow (m + n) = twoPow m * twoPow n :=
  Nat.pow_add 2 m n

theorem twoPow_le_twoPow {m n : Nat} (le : m ≤ n) : twoPow m ≤ twoPow n :=
  Nat.pow_le_pow_right (by decide) le

theorem twoPow_dvd_twoPow {m n : Nat} (le : m ≤ n) : twoPow m ∣ twoPow n :=
  Nat.pow_dvd_pow 2 le

/-- A number lies below the power of two above its leading bit. -/
theorem lt_twoPow_log2 (n : Nat) : n < twoPow (n.log2 + 1) :=
  Nat.lt_log2_self

/-- A positive number below a power of two has its leading bit below that exponent. -/
theorem log2_lt_of_lt_twoPow {n exponent : Nat} (positive : n ≠ 0) (lt : n < twoPow exponent) :
    n.log2 < exponent :=
  (Nat.log2_lt positive).mpr lt

theorem log2_twoPow (exponent : Nat) : (twoPow exponent).log2 = exponent :=
  Nat.log2_two_pow

/-! ## Rounding -/

/-- The whole number nearest to a quotient, a half going to the even neighbour. -/
def roundQuotient (numerator denominator : Nat) : Nat :=
  let quotient := numerator / denominator
  let twiceRest := 2 * (numerator % denominator)
  if twiceRest < denominator then quotient
  else if twiceRest = denominator then quotient + quotient % 2
  else quotient + 1

theorem roundQuotient_le (numerator denominator : Nat) :
    roundQuotient numerator denominator ≤ numerator / denominator + 1 := by
  simp only [roundQuotient]
  split
  · omega
  · split <;> omega

/-- A binary floating-point format, its sizes counted in units of `2 ^ -1074`. -/
structure BinaryFormat where
  /-- Number of bits in a significand. -/
  precision : Nat
  /-- Exponent of the smallest spacing between neighbouring sizes. -/
  lowest : Nat

namespace BinaryFormat

/-- The format of 64 bits. -/
def binary64 : BinaryFormat := ⟨53, 0⟩

/-- Exponent of the spacing between the sizes of a format near the given one. -/
def spacing (format : BinaryFormat) (units : Nat) : Nat :=
  max format.lowest (units.log2 + 1 - format.precision)

/-- The size of a format nearest to a quotient of units, without regard to the limit. -/
def round (format : BinaryFormat) (numerator denominator : Nat) : Nat :=
  let exponent := format.spacing (numerator / denominator)
  roundQuotient numerator (denominator * twoPow exponent) * twoPow exponent

end BinaryFormat

/-- First count of units beyond the finite sizes of the format of 64 bits. -/
def sizeLimit : Nat := twoPow 2098

theorem sizeLimit_pos : 0 < sizeLimit := by
  decide +kernel

/-- A count of units that a finite binary64 number can have as its size: it has at most 53
significant bits and lies below the limit. -/
def IsMagnitude (units : Nat) : Prop :=
  units < sizeLimit ∧ twoPow (units.log2 + 1 - 53) ∣ units

instance (units : Nat) : Decidable (IsMagnitude units) :=
  inferInstanceAs (Decidable (_ ∧ _))

theorem isMagnitude_zero : IsMagnitude 0 :=
  ⟨sizeLimit_pos, Nat.dvd_zero _⟩

/-- A significand of 53 bits, scaled by a power of two, is a size when it is below the limit. -/
theorem isMagnitude_mul_twoPow {significand exponent : Nat} (narrow : significand ≤ twoPow 53)
    (bounded : significand * twoPow exponent < sizeLimit) :
    IsMagnitude (significand * twoPow exponent) := by
  refine ⟨bounded, ?_⟩
  by_cases vanishes : significand * twoPow exponent = 0
  · rw [vanishes]
    exact Nat.dvd_zero _
  · rcases Nat.lt_or_eq_of_le narrow with less | rfl
    · have below : significand * twoPow exponent < twoPow (53 + exponent) := by
        rw [twoPow_add]
        exact Nat.mul_lt_mul_of_pos_right less (twoPow_pos exponent)
      have log_lt := log2_lt_of_lt_twoPow vanishes below
      exact Nat.dvd_trans (twoPow_dvd_twoPow (by omega)) (Nat.dvd_mul_left _ _)
    · rw [← twoPow_add, log2_twoPow]
      exact twoPow_dvd_twoPow (by omega)

/-- Rounding to a format of at most 53 bits keeps the significand within 53 bits. -/
theorem roundQuotient_spacing_le (format : BinaryFormat) (narrow : format.precision ≤ 53)
    (numerator denominator : Nat) :
    roundQuotient numerator (denominator * twoPow (format.spacing (numerator / denominator))) ≤
      twoPow 53 := by
  refine Nat.le_trans (roundQuotient_le _ _) ?_
  rw [← Nat.div_div_eq_div_mul]
  generalize numerator / denominator = quotient
  have spread : quotient.log2 + 1 ≤ format.spacing quotient + 53 := by
    simp only [BinaryFormat.spacing]
    omega
  have below : quotient < twoPow (format.spacing quotient) * twoPow 53 := by
    rw [← twoPow_add]
    exact Nat.lt_of_lt_of_le (lt_twoPow_log2 quotient) (twoPow_le_twoPow spread)
  exact Nat.div_lt_of_lt_mul below

/-- Rounding yields a size of binary64 unless it reaches the limit. -/
theorem isMagnitude_round (format : BinaryFormat) (narrow : format.precision ≤ 53)
    {numerator denominator : Nat} (bounded : format.round numerator denominator < sizeLimit) :
    IsMagnitude (format.round numerator denominator) :=
  isMagnitude_mul_twoPow (roundQuotient_spacing_le format narrow numerator denominator) bounded

/-! ## Numbers -/

/-- A binary64 number; the one undefined number stands for all of them. -/
inductive Binary64 where
  | nan
  | infinite (negative : Bool)
  /-- A signed whole count of units of `2 ^ -1074`; zero has two signs. -/
  | finite (negative : Bool) (units : Nat) (magnitude : IsMagnitude units)
  deriving DecidableEq

namespace Binary64

/-- Number of units in one. -/
def unitsPerOne : Nat := twoPow 1074

/-- A count of units with its sign. -/
def signed (negative : Bool) (units : Nat) : Int :=
  if negative then -(units : Int) else units

def zero : Binary64 :=
  finite false 0 isMagnitude_zero

def one : Binary64 :=
  finite false unitsPerOne (by simp only [unitsPerOne]; decide +kernel)

/-- The number nearest to a signed quotient of units; beyond the limit it is an infinity. -/
def ofQuotient (negative : Bool) (numerator denominator : Nat) : Binary64 :=
  if bounded : BinaryFormat.binary64.round numerator denominator < sizeLimit then
    finite negative _ (isMagnitude_round .binary64 (by decide) bounded)
  else
    infinite negative

/-- The number nearest to an integer. -/
def ofInt (n : Int) : Binary64 :=
  ofQuotient (decide (n < 0)) (n.natAbs * unitsPerOne) 1

/-- Numerical order; an undefined number compares with nothing. -/
def compare? : Binary64 → Binary64 → Option Ordering
  | nan, _ => none
  | _, nan => none
  | infinite a, infinite b => some (compare b a)
  | infinite negative, finite .. => some (if negative then .lt else .gt)
  | finite .., infinite negative => some (if negative then .gt else .lt)
  | finite a m _, finite b n _ => some (compare (signed a m) (signed b n))

/-- Numerical equality: the zeros are equal, and an undefined number equals nothing. -/
def same (left right : Binary64) : Bool :=
  left.compare? right == some .eq

/-- The sum, rounded to the nearest number.  A vanishing sum is negative only if both summands
are. -/
def add : Binary64 → Binary64 → Binary64
  | nan, _ => nan
  | _, nan => nan
  | infinite a, infinite b => if a = b then infinite a else nan
  | infinite a, finite .. => infinite a
  | finite .., infinite b => infinite b
  | finite a m _, finite b n _ =>
      let total := signed a m + signed b n
      if total = 0 then finite (a && b) 0 isMagnitude_zero
      else ofQuotient (decide (total < 0)) total.natAbs 1

instance : Add Binary64 := ⟨add⟩

/-- The integer that remains of a finite number when its fraction is dropped. -/
def truncate? : Binary64 → Option Int
  | finite negative units _ => some (signed negative (units / unitsPerOne))
  | _ => none

/-- The integer that a number is, if it is one. -/
def integer? : Binary64 → Option Int
  | finite negative units _ =>
      if units % unitsPerOne = 0 then some (signed negative (units / unitsPerOne)) else none
  | _ => none

end Binary64

end RiskGraph

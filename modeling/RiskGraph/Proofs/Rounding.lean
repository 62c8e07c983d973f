import Mathlib.Data.Nat.Log
import Mathlib.Order.Compare
import Mathlib.Tactic.Linarith
import RiskGraph.Numeric.Binary64

/-!
# Rounding and order

Rounding to the nearest number keeps the order of quotients.  Within one spacing the neighbours of a
quotient and the rule for ties decide; sizes of a wider spacing begin where those of a narrower one
end.  Numbers are then ordered by ranks, which are integers.
-/

namespace RiskGraph

/-! ## Quotients -/

section

variable {numerator denominator other otherDenominator : Nat}

theorem div_le_roundQuotient (numerator denominator : Nat) :
    numerator / denominator ≤ roundQuotient numerator denominator := by
  simp only [roundQuotient]
  split
  · exact le_rfl
  · split <;> omega

theorem roundQuotient_of_dvd (positive : 0 < denominator) (divides : denominator ∣ numerator) :
    roundQuotient numerator denominator = numerator / denominator := by
  have no_rest : numerator % denominator = 0 := Nat.mod_eq_zero_of_dvd divides
  simp [roundQuotient, no_rest, positive]

/-- Quotients with a common whole part are ordered by their rests. -/
theorem rest_mul_le (le : numerator * otherDenominator ≤ other * denominator)
    (whole_eq : numerator / denominator = other / otherDenominator) :
    numerator % denominator * otherDenominator ≤ other % otherDenominator * denominator := by
  have split_left := Nat.div_add_mod numerator denominator
  have split_right := Nat.div_add_mod other otherDenominator
  rw [← whole_eq] at split_right
  nlinarith

theorem roundQuotient_le_roundQuotient (positive : 0 < denominator)
    (other_positive : 0 < otherDenominator)
    (le : numerator * otherDenominator ≤ other * denominator) :
    roundQuotient numerator denominator ≤ roundQuotient other otherDenominator := by
  have whole_le : numerator / denominator ≤ other / otherDenominator := by
    rw [Nat.le_div_iff_mul_le other_positive]
    have whole_mul_le := Nat.div_mul_le_self numerator denominator
    nlinarith
  rcases Nat.lt_or_eq_of_le whole_le with whole_lt | whole_eq
  · calc roundQuotient numerator denominator
      _ ≤ numerator / denominator + 1 := roundQuotient_le _ _
      _ ≤ other / otherDenominator := whole_lt
      _ ≤ roundQuotient other otherDenominator := div_le_roundQuotient _ _
  · -- only the rests decide, and whether the common whole part is even
    have rest_le := rest_mul_le le whole_eq
    have half_le : denominator ≤ 2 * (numerator % denominator) →
        otherDenominator ≤ 2 * (other % otherDenominator) := by
      intro half
      by_contra short
      nlinarith
    have half_lt : denominator < 2 * (numerator % denominator) →
        otherDenominator < 2 * (other % otherDenominator) := by
      intro half
      by_contra short
      nlinarith
    simp only [roundQuotient, whole_eq]
    split_ifs <;> omega

end

/-! ## The format of 64 bits -/

namespace BinaryFormat

variable {numerator denominator other otherDenominator : Nat}

theorem spacing_le_spacing (format : BinaryFormat) {units more : Nat} (le : units ≤ more) :
    format.spacing units ≤ format.spacing more := by
  have log_le : units.log2 ≤ more.log2 := by
    rw [Nat.log2_eq_log_two, Nat.log2_eq_log_two]
    exact Nat.log_mono_right le
  simp only [spacing]
  omega

/-- Sizes of a wide spacing have a leading bit of 53. -/
theorem twoPow_le_roundQuotient (wide : 0 < binary64.spacing (numerator / denominator)) :
    twoPow 52 ≤ roundQuotient numerator
      (denominator * twoPow (binary64.spacing (numerator / denominator))) := by
  refine le_trans ?_ (div_le_roundQuotient _ _)
  rw [← Nat.div_div_eq_div_mul]
  generalize numerator / denominator = quotient at wide ⊢
  have exponent_eq : 52 + binary64.spacing quotient = quotient.log2 := by
    simp only [spacing, binary64] at wide ⊢
    omega
  have nonzero : quotient ≠ 0 := by
    rintro rfl
    simp [spacing, binary64] at wide
  rw [Nat.le_div_iff_mul_le (twoPow_pos _), ← twoPow_add, exponent_eq]
  exact Nat.log2_self_le nonzero

theorem round_le_round (positive : 0 < denominator) (other_positive : 0 < otherDenominator)
    (le : numerator * otherDenominator ≤ other * denominator) :
    binary64.round numerator denominator ≤ binary64.round other otherDenominator := by
  have whole_le : numerator / denominator ≤ other / otherDenominator := by
    rw [Nat.le_div_iff_mul_le other_positive]
    have whole_mul_le := Nat.div_mul_le_self numerator denominator
    nlinarith
  simp only [round]
  rcases Nat.lt_or_eq_of_le (binary64.spacing_le_spacing whole_le) with narrower | spacing_eq
  · have below := roundQuotient_spacing_le binary64 (by decide) numerator denominator
    have above := twoPow_le_roundQuotient (Nat.zero_lt_of_lt narrower)
    calc roundQuotient numerator _ * twoPow (binary64.spacing (numerator / denominator))
      _ ≤ twoPow 53 * twoPow (binary64.spacing (numerator / denominator)) :=
          Nat.mul_le_mul_right _ below
      _ ≤ twoPow 52 * twoPow (binary64.spacing (other / otherDenominator)) := by
          rw [← twoPow_add, ← twoPow_add]
          exact twoPow_le_twoPow (by omega)
      _ ≤ _ := Nat.mul_le_mul_right _ above
  · rw [spacing_eq]
    refine Nat.mul_le_mul_right _ (roundQuotient_le_roundQuotient ?_ ?_ ?_)
    · exact Nat.mul_pos positive (twoPow_pos _)
    · exact Nat.mul_pos other_positive (twoPow_pos _)
    · rw [← mul_assoc, ← mul_assoc]
      exact Nat.mul_le_mul_right _ le

/-- A size of the format is its own rounding. -/
theorem round_of_isMagnitude {units : Nat} (magnitude : IsMagnitude units) :
    binary64.round units 1 = units := by
  have spacing_eq : binary64.spacing units = units.log2 + 1 - 53 := by simp [spacing, binary64]
  have divides : twoPow (binary64.spacing units) ∣ units := spacing_eq ▸ magnitude.2
  rw [round, Nat.div_one, Nat.one_mul, roundQuotient_of_dvd (twoPow_pos _) divides]
  exact Nat.div_mul_cancel divides

end BinaryFormat

/-! ## Ranks -/

namespace Binary64

/-- The place of a number in the order: its signed count of units, those of the infinities being
beyond all others. -/
def rank? : Binary64 → Option Int
  | nan => none
  | infinite negative => some (signed negative sizeLimit)
  | finite negative units _ => some (signed negative units)

@[simp]
theorem signed_false (units : Nat) : signed false units = units :=
  rfl

@[simp]
theorem signed_true (units : Nat) : signed true units = -(units : Int) :=
  rfl

@[simp]
theorem signed_zero (negative : Bool) : signed negative 0 = 0 := by
  cases negative <;> rfl

theorem signed_add (negative : Bool) (m n : Nat) :
    signed negative (m + n) = signed negative m + signed negative n := by
  cases negative
  · rw [signed_false, signed_false, signed_false, Int.natCast_add]
  · rw [signed_true, signed_true, signed_true, Int.natCast_add, Int.neg_add]

theorem signed_mul (negative : Bool) (m n : Nat) :
    signed negative (m * n) = signed negative m * n := by
  cases negative
  · rw [signed_false, signed_false, Int.natCast_mul]
  · rw [signed_true, signed_true, Int.natCast_mul, Int.neg_mul]

@[simp]
theorem natAbs_signed (negative : Bool) (units : Nat) : (signed negative units).natAbs = units := by
  cases negative
  · rw [signed_false, Int.natAbs_natCast]
  · rw [signed_true, Int.natAbs_neg, Int.natAbs_natCast]

theorem signed_lt_sizeLimit {units : Nat} (magnitude : IsMagnitude units) (negative : Bool) :
    -(sizeLimit : Int) < signed negative units ∧ signed negative units < sizeLimit := by
  have below := magnitude.1
  cases negative
  · rw [signed_false]
    omega
  · rw [signed_true]
    omega

/-- Numbers compare as their ranks do. -/
theorem compare?_eq (x y : Binary64) :
    x.compare? y = x.rank?.bind fun p => y.rank?.map fun q => compare p q := by
  cases x with
  | nan => simp [compare?, rank?]
  | infinite negative =>
      cases y with
      | nan => simp [compare?, rank?]
      | infinite other =>
          have limit_pos : (0 : Int) < sizeLimit := Int.natCast_pos.mpr sizeLimit_pos
          have order_eq : compare other negative =
              compare (signed negative sizeLimit) (signed other sizeLimit) := by
            cases negative <;> cases other
            · exact (compare_eq_iff_eq.mpr rfl).symm
            · exact (compare_gt_iff_gt.mpr (by rw [signed_false, signed_true]; omega)).symm
            · exact (compare_lt_iff_lt.mpr (by rw [signed_false, signed_true]; omega)).symm
            · exact (compare_eq_iff_eq.mpr rfl).symm
          simp [compare?, rank?, order_eq]
      | finite other units magnitude =>
          have bounds := signed_lt_sizeLimit magnitude other
          have order_eq : (if negative then Ordering.lt else Ordering.gt) =
              compare (signed negative sizeLimit) (signed other units) := by
            cases negative
            · exact (compare_gt_iff_gt.mpr bounds.2).symm
            · exact (compare_lt_iff_lt.mpr bounds.1).symm
          simp [compare?, rank?, order_eq]
  | finite negative units magnitude =>
      cases y with
      | nan => simp [compare?, rank?]
      | infinite other =>
          have bounds := signed_lt_sizeLimit magnitude negative
          have order_eq : (if other then Ordering.gt else Ordering.lt) =
              compare (signed negative units) (signed other sizeLimit) := by
            cases other
            · exact (compare_lt_iff_lt.mpr bounds.2).symm
            · exact (compare_gt_iff_gt.mpr bounds.1).symm
          simp [compare?, rank?, order_eq]
      | finite => simp [compare?, rank?]

/-- The size that a quotient is rounded to, that of the infinities if it is beyond the limit. -/
def roundedSize (numerator denominator : Nat) : Nat :=
  min (BinaryFormat.binary64.round numerator denominator) sizeLimit

theorem roundedSize_le_roundedSize {numerator denominator other otherDenominator : Nat}
    (positive : 0 < denominator) (other_positive : 0 < otherDenominator)
    (le : numerator * otherDenominator ≤ other * denominator) :
    roundedSize numerator denominator ≤ roundedSize other otherDenominator := by
  have round_le := BinaryFormat.round_le_round positive other_positive le
  unfold roundedSize
  generalize sizeLimit = limit
  omega

theorem rank?_ofQuotient (negative : Bool) (numerator denominator : Nat) :
    (ofQuotient negative numerator denominator).rank? =
      some (signed negative (roundedSize numerator denominator)) := by
  unfold ofQuotient roundedSize
  split
  · next bounded => rw [rank?, Nat.min_eq_left bounded.le]
  · next unbounded => rw [rank?, Nat.min_eq_right (Nat.le_of_not_lt unbounded)]

/-- The rank of the number nearest to an integer. -/
def rankOfInt (n : Int) : Int :=
  signed (decide (n < 0)) (roundedSize (n.natAbs * unitsPerOne) 1)

theorem rank?_ofInt (n : Int) : (ofInt n).rank? = some (rankOfInt n) :=
  rank?_ofQuotient _ _ _

/-- Signed sizes are ordered if the sizes grow away from zero. -/
theorem signed_le_signed {α : Type} [LinearOrder α] [Zero α] {p q : α} {size other : Nat}
    (le : p ≤ q) (grows : 0 ≤ p → size ≤ other) (shrinks : q < 0 → other ≤ size) :
    signed (decide (p < 0)) size ≤ signed (decide (q < 0)) other := by
  by_cases left_negative : p < 0 <;> by_cases right_negative : q < 0
  · have less := shrinks right_negative
    simp only [left_negative, right_negative, decide_true, signed_true]
    omega
  · simp only [left_negative, right_negative, decide_true, decide_false, signed_true, signed_false]
    omega
  · exact absurd (le.trans_lt right_negative) left_negative
  · have more := grows (not_lt.mp left_negative)
    simp only [left_negative, right_negative, decide_false, signed_false]
    omega

theorem rankOfInt_le_rankOfInt {m n : Int} (le : m ≤ n) : rankOfInt m ≤ rankOfInt n := by
  have size_le : ∀ {i j : Int}, i.natAbs ≤ j.natAbs →
      roundedSize (i.natAbs * unitsPerOne) 1 ≤ roundedSize (j.natAbs * unitsPerOne) 1 := by
    intro i j abs_le
    refine roundedSize_le_roundedSize Nat.one_pos Nat.one_pos ?_
    rw [Nat.mul_one, Nat.mul_one]
    exact Nat.mul_le_mul_right _ abs_le
  exact signed_le_signed le (fun _ => size_le (by omega)) (fun _ => size_le (by omega))

/-- A number that is an integer has the rank of that integer. -/
theorem rank?_of_integer? {x : Binary64} {n : Int} (integral : x.integer? = some n) :
    x.rank? = some (rankOfInt n) := by
  cases x with
  | nan | infinite => nomatch integral
  | finite negative units magnitude =>
      simp only [integer?, Option.ite_none_right_eq_some, Option.some.injEq] at integral
      obtain ⟨whole, rfl⟩ := integral
      have units_eq : units / unitsPerOne * unitsPerOne = units :=
        Nat.div_mul_cancel (Nat.dvd_of_mod_eq_zero whole)
      have size_eq : roundedSize units 1 = units := by
        rw [roundedSize, BinaryFormat.round_of_isMagnitude magnitude,
          Nat.min_eq_left magnitude.1.le]
      rw [rank?, rankOfInt, natAbs_signed, units_eq, size_eq, Option.some_inj]
      cases negative with
      | false =>
          have not_negative : ¬((units / unitsPerOne : Nat) : Int) < 0 :=
            not_lt.mpr (Int.natCast_nonneg _)
          rw [signed_false, signed_false, decide_eq_false not_negative, signed_false]
      | true =>
          rcases Nat.eq_zero_or_pos (units / unitsPerOne) with zero | positive
          · -- zero has either sign, the integer zero none
            have vanishes : units = 0 := by rw [← units_eq, zero, Nat.zero_mul]
            rw [vanishes, signed_zero, signed_zero]
          · have negated : -((units / unitsPerOne : Nat) : Int) < 0 :=
              neg_lt_zero.mpr (Int.natCast_pos.mpr positive)
            rw [signed_true, signed_true, decide_eq_true negated, signed_true]

end Binary64
end RiskGraph

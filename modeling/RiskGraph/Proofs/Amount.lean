import Mathlib.Algebra.Order.Field.Basic
import Mathlib.Algebra.Order.Ring.Rat
import Mathlib.Order.WithBotTop
import Mathlib.Tactic.Positivity
import RiskGraph.Proofs.Readability

/-!
# The exact values of numbers

A value that is compared as a number has an exact value, whatever its written form: digits of any
length, a fraction or a size beyond every format.  Comparison sees only the nearest binary64 number,
or the integer itself if it has 64 bits.  Both grow with the exact value, so that a comparison
never inverts the order of exact values, though it may take two of them for equal.
-/

namespace RiskGraph

/-- Rational numbers and the two infinities. -/
abbrev ExtendedRat :=
  WithBotTop ℚ

namespace Binary64

variable {numerator denominator other otherDenominator : Nat}

/-! ## Ranks of exact values -/

theorem roundedSize_congr (positive : 0 < denominator) (other_positive : 0 < otherDenominator)
    (eq : numerator * otherDenominator = other * denominator) :
    roundedSize numerator denominator = roundedSize other otherDenominator :=
  le_antisymm (roundedSize_le_roundedSize positive other_positive eq.le)
    (roundedSize_le_roundedSize other_positive positive eq.ge)

/-- Sizes below half a unit vanish. -/
theorem roundedSize_of_small (small : 2 * numerator < denominator) :
    roundedSize numerator denominator = 0 := by
  have whole_eq : numerator / denominator = 0 := Nat.div_eq_of_lt (by omega)
  have spacing_eq : BinaryFormat.binary64.spacing 0 = 0 := by decide
  have rounded_eq : roundQuotient numerator denominator = 0 := by
    rw [roundQuotient, whole_eq, Nat.mod_eq_of_lt (by omega)]
    exact if_pos small
  have unit_eq : twoPow 0 = 1 := rfl
  simp only [roundedSize, BinaryFormat.round, whole_eq, spacing_eq, unit_eq, Nat.mul_one,
    rounded_eq, Nat.zero_min]

/-- A size of the format is its own rounding. -/
theorem roundedSize_of_isMagnitude {units : Nat} (magnitude : IsMagnitude units) :
    roundedSize (units * unitsPerOne) unitsPerOne = units := by
  have positive : 0 < unitsPerOne := twoPow_pos _
  rw [roundedSize_congr positive Nat.one_pos (Nat.mul_one _), roundedSize,
    BinaryFormat.round_of_isMagnitude magnitude, Nat.min_eq_left magnitude.1.le]

/-- The rank of the number nearest to a rational. -/
def rankOfRat (p : ℚ) : Int :=
  signed (decide (p < 0)) (roundedSize (p.num.natAbs * unitsPerOne) p.den)

theorem rankOfRat_le_rankOfRat {p q : ℚ} (le : p ≤ q) : rankOfRat p ≤ rankOfRat q := by
  have cross_le : p.num * q.den ≤ q.num * p.den := (Rat.le_iff p q).mp le
  have size_le : ∀ {i j : ℚ}, i.num.natAbs * j.den ≤ j.num.natAbs * i.den →
      roundedSize (i.num.natAbs * unitsPerOne) i.den ≤
        roundedSize (j.num.natAbs * unitsPerOne) j.den := by
    intro i j abs_le
    refine roundedSize_le_roundedSize i.pos j.pos ?_
    rw [Nat.mul_right_comm, Nat.mul_right_comm _ _ i.den]
    exact Nat.mul_le_mul_right _ abs_le
  refine signed_le_signed le (fun nonnegative => size_le ?_) (fun negative => size_le ?_)
  · have left_nonneg : 0 ≤ p.num := Rat.num_nonneg.mpr nonnegative
    have right_nonneg : 0 ≤ q.num := Rat.num_nonneg.mpr (nonnegative.trans le)
    zify
    rwa [abs_of_nonneg left_nonneg, abs_of_nonneg right_nonneg]
  · have right_neg : q.num < 0 := Rat.num_neg.mpr negative
    have left_neg : p.num < 0 := Rat.num_neg.mpr (le.trans_lt negative)
    zify
    rw [abs_of_neg left_neg, abs_of_neg right_neg]
    linarith

/-- Any way to write a rational as a quotient gives its rank. -/
theorem rankOfRat_signed_div (negative : Bool) (numerator : Nat) (positive : 0 < denominator) :
    rankOfRat ((signed negative numerator : ℚ) / denominator) =
      signed negative (roundedSize (numerator * unitsPerOne) denominator) := by
  have denominator_pos : (0 : ℚ) < denominator := Nat.cast_pos.mpr positive
  generalize quotient_eq : (signed negative numerator : ℚ) / denominator = p
  have cross_eq : signed negative numerator * p.den = p.num * denominator := by
    have den_ne : (p.den : ℚ) ≠ 0 := Nat.cast_ne_zero.mpr p.den_nz
    rw [← Rat.num_div_den p, div_eq_div_iff denominator_pos.ne' den_ne] at quotient_eq
    exact_mod_cast quotient_eq
  have size_eq : roundedSize (p.num.natAbs * unitsPerOne) p.den =
      roundedSize (numerator * unitsPerOne) denominator := by
    have abs_eq := congrArg Int.natAbs cross_eq
    rw [Int.natAbs_mul, Int.natAbs_mul, natAbs_signed, Int.natAbs_natCast,
      Int.natAbs_natCast] at abs_eq
    refine roundedSize_congr p.pos positive ?_
    rw [Nat.mul_right_comm, ← abs_eq, Nat.mul_right_comm]
  rw [rankOfRat, size_eq]
  rcases Nat.eq_zero_or_pos numerator with rfl | nonzero
  · have vanishes : roundedSize (0 * unitsPerOne) denominator = 0 :=
      roundedSize_of_small (by simpa using positive)
    rw [vanishes, signed_zero, signed_zero]
  · have numerator_pos : (0 : ℚ) < numerator := Nat.cast_pos.mpr nonzero
    have sign_eq : decide (p < 0) = negative := by
      rw [← quotient_eq]
      cases negative
      · rw [decide_eq_false_iff_not, not_lt, signed_false, Int.cast_natCast]
        exact (div_pos numerator_pos denominator_pos).le
      · rw [decide_eq_true_iff, signed_true, Int.cast_neg, Int.cast_natCast]
        exact div_neg_of_neg_of_pos (neg_lt_zero.mpr numerator_pos) denominator_pos
    rw [sign_eq]

theorem rankOfRat_intCast (n : Int) : rankOfRat n = rankOfInt n := by
  have signed_eq : signed (decide (n < 0)) n.natAbs = n := by
    by_cases negative : n < 0
    · rw [decide_eq_true negative, signed_true]
      omega
    · rw [decide_eq_false negative, signed_false]
      omega
  have rank_eq := rankOfRat_signed_div (decide (n < 0)) n.natAbs Nat.one_pos
  rwa [signed_eq, Nat.cast_one, div_one] at rank_eq

/-- The rank of the number nearest to an extended rational. -/
def rankOfExtended (p : ExtendedRat) : Int :=
  WithBotTop.rec (motive := fun _ => Int) (-(sizeLimit : Int)) rankOfRat (sizeLimit : Int) p

theorem rankOfRat_mem_Icc (p : ℚ) :
    -(sizeLimit : Int) ≤ rankOfRat p ∧ rankOfRat p ≤ sizeLimit := by
  have size_le : roundedSize (p.num.natAbs * unitsPerOne) p.den ≤ sizeLimit := Nat.min_le_right _ _
  rw [rankOfRat]
  generalize roundedSize (p.num.natAbs * unitsPerOne) p.den = size at size_le ⊢
  generalize sizeLimit = limit at size_le ⊢
  cases decide (p < 0)
  · rw [signed_false]
    omega
  · rw [signed_true]
    omega

theorem rankOfExtended_le_rankOfExtended {p q : ExtendedRat} (le : p ≤ q) :
    rankOfExtended p ≤ rankOfExtended q := by
  induction p using WithBotTop.rec with
  | bot =>
      induction q using WithBotTop.rec with
      | bot => exact le_rfl
      | coe q => exact (rankOfRat_mem_Icc q).1
      | top => exact (rankOfRat_mem_Icc 0).1.trans (rankOfRat_mem_Icc 0).2
  | coe p =>
      induction q using WithBotTop.rec with
      | bot => exact absurd (le_bot_iff.mp le) (WithBotTop.coe_ne_bot p)
      | coe q => exact rankOfRat_le_rankOfRat (WithBotTop.coe_le_coe.mp le)
      | top => exact (rankOfRat_mem_Icc p).2
  | top =>
      rw [top_le_iff.mp le]

end Binary64

/-! ## Texts with a fraction -/

/-- The digits of two rows in turn. -/
theorem ofDigitChars_append_eq (whole fraction : List Char) :
    (Nat.ofDigitChars 10 (whole ++ fraction) 0 : ℚ) / 10 ^ fraction.length =
      (Nat.ofDigitChars 10 whole 0 : ℚ) +
        (Nat.ofDigitChars 10 fraction 0 : ℚ) / 10 ^ fraction.length := by
  have scale_ne : (10 : ℚ) ^ fraction.length ≠ 0 := by positivity
  rw [Nat.ofDigitChars_append, Nat.ofDigitChars_eq_ofDigitChars_zero, Nat.cast_add, Nat.cast_mul,
    Nat.cast_pow, Nat.cast_ofNat, add_div, mul_div_cancel_left₀ _ scale_ne]

namespace Numeral

/-- Coefficients that are cut off before their power of ten is formed vanish. -/
theorem roundedSize_of_cut {coefficient places : Nat}
    (cut : coefficient.log2 + 1080 < 3 * places) :
    Binary64.roundedSize (coefficient * Binary64.unitsPerOne) (tenPow places) = 0 := by
  refine Binary64.roundedSize_of_small ?_
  calc 2 * (coefficient * Binary64.unitsPerOne)
    _ < twoPow 1 * (twoPow (coefficient.log2 + 1) * twoPow 1074) :=
        Nat.mul_lt_mul_of_pos_left
          (Nat.mul_lt_mul_of_pos_right (lt_twoPow_log2 _) (twoPow_pos _)) (by decide)
    _ = twoPow (1 + (coefficient.log2 + 1 + 1074)) := by rw [← twoPow_add, ← twoPow_add]
    _ ≤ twoPow (3 * places) := twoPow_le_twoPow (by omega)
    _ = 8 ^ places := Nat.pow_mul 2 3 places
    _ ≤ tenPow places := Nat.pow_le_pow_left (by decide) places

/-- A numeral with a fraction is rounded from its exact value, also if it is cut off. -/
theorem rank?_rounded_of_pointed (whole fraction : List Char) :
    (rounded Binary64.ofQuotient false
      { whole, fraction := some fraction, exponent := none }).rank? =
      some (Binary64.rankOfRat
        ((Nat.ofDigitChars 10 whole 0 : ℚ) +
          (Nat.ofDigitChars 10 fraction 0 : ℚ) / 10 ^ fraction.length)) := by
  have scale_pos : 0 < tenPow fraction.length := Nat.pow_pos (by decide)
  have rank_eq :=
    Binary64.rankOfRat_signed_div false (Nat.ofDigitChars 10 (whole ++ fraction) 0) scale_pos
  have tenPow_eq : ((tenPow fraction.length : Nat) : ℚ) = 10 ^ fraction.length := by
    rw [tenPow, Nat.pow_eq, Nat.cast_pow, Nat.cast_ofNat]
  have coefficient_eq : coefficient { whole, fraction := some fraction, exponent := none } =
      Nat.ofDigitChars 10 (whole ++ fraction) 0 := rfl
  have scale_eq : scale { whole, fraction := some fraction, exponent := none } =
      -(fraction.length : Int) := by
    simp [scale]
  rw [Binary64.signed_false, Int.cast_natCast, tenPow_eq, ofDigitChars_append_eq] at rank_eq
  rw [rank_eq, rounded, coefficient_eq, scale_eq]
  generalize Nat.ofDigitChars 10 (whole ++ fraction) 0 = coefficient
  have zero_eq : (Binary64.ofQuotient false 0 1).rank? = some 0 := by
    rw [Binary64.rank?_ofQuotient, Binary64.roundedSize_of_small (by decide), Binary64.signed_zero]
  split_ifs with vanishes large cut
  · rw [zero_eq, vanishes, Nat.zero_mul, Binary64.roundedSize_of_small scale_pos]
    rfl
  · omega
  · rw [zero_eq, roundedSize_of_cut (by omega)]
    rfl
  · rw [Binary64.rank?_ofQuotient, neg_neg, Int.toNat_natCast, Int.toNat_neg_natCast]
    simp [tenPow]

end Numeral

namespace Value

variable {value : Value} {p q : ExtendedRat} {word : Int64}

/-! ## Values of numbers -/

/-- A number has an exact value, whatever its written form. -/
inductive Amounts : Value → ExtendedRat → Prop
  /-- An integer is its own value. -/
  | int (word : Int64) : Amounts (.int word) ((word.toInt : ℚ) : ExtendedRat)
  /-- A finite real is a count of units. -/
  | finite {negative : Bool} {units : Nat} (magnitude : IsMagnitude units) :
      Amounts (.real (.finite negative units magnitude))
        (((Binary64.signed negative units : ℚ) / Binary64.unitsPerOne : ℚ) : ExtendedRat)
  | infinite (negative : Bool) :
      Amounts (.real (.infinite negative)) (if negative then ⊥ else ⊤)
  /-- A row of digits is the number that it writes. -/
  | whole {content : String} (nonempty : content.toList ≠ [])
      (digits : ∀ c ∈ content.toList, c.isDigit) :
      Amounts (.text content) ((Nat.ofDigitChars 10 content.toList 0 : ℚ) : ExtendedRat)
  /-- Digits behind a point count in units of the last place. -/
  | decimal {content : String} {whole fraction : List Char}
      (content_eq : content.toList = whole ++ '.' :: fraction)
      (whole_nonempty : whole ≠ []) (whole_digits : ∀ c ∈ whole, c.isDigit)
      (fraction_nonempty : fraction ≠ []) (fraction_digits : ∀ c ∈ fraction, c.isDigit) :
      Amounts (.text content)
        (((Nat.ofDigitChars 10 whole 0 : ℚ) +
          (Nat.ofDigitChars 10 fraction 0 : ℚ) / 10 ^ fraction.length : ℚ) : ExtendedRat)

theorem isPointedRow_of_digits {whole fraction : List Char}
    (whole_nonempty : whole ≠ []) (whole_digits : ∀ c ∈ whole, c.isDigit)
    (fraction_nonempty : fraction ≠ []) (fraction_digits : ∀ c ∈ fraction, c.isDigit) :
    isPointedRow (whole ++ '.' :: fraction) := by
  have decimal : ∀ {row : List Char}, (∀ c ∈ row, c.isDigit) → ∀ c ∈ row, isDecimalDigit c :=
    fun digits c member => isDecimalDigit_of_isDigit (digits c member)
  have dropped : (whole ++ '.' :: fraction).dropWhile isDecimalDigit = '.' :: fraction := by
    rw [List.dropWhile_append_of_pos (decimal whole_digits),
      List.dropWhile_cons_of_neg (by decide +kernel)]
  have taken : (whole ++ '.' :: fraction).takeWhile isDecimalDigit = whole := by
    rw [List.takeWhile_append_of_pos (decimal whole_digits),
      List.takeWhile_cons_of_neg (by decide +kernel), List.append_nil]
  have whole_row : isDigitRow whole := isDigitRow_iff.mpr ⟨whole_nonempty, decimal whole_digits⟩
  have fraction_row : isDigitRow fraction :=
    isDigitRow_iff.mpr ⟨fraction_nonempty, decimal fraction_digits⟩
  simp only [isPointedRow, dropped, taken, whole_row, fraction_row, Bool.and_self]

theorem Amounts.isNumber (amounts : value.Amounts p) : value.IsNumber := by
  cases amounts with
  | int => exact ⟨.int, rfl, rfl⟩
  | finite magnitude =>
      refine ⟨_, rfl, ?_⟩
      split_ifs <;> rfl
  | infinite => exact ⟨.float, rfl, rfl⟩
  | whole nonempty digits =>
      exact isNumber_text_iff.mpr (.inl (isDigitRow_iff.mpr
        ⟨nonempty, fun c member => isDecimalDigit_of_isDigit (digits c member)⟩))
  | decimal content_eq whole_nonempty whole_digits fraction_nonempty fraction_digits =>
      refine isNumber_text_iff.mpr (.inr ?_)
      rw [content_eq]
      exact isPointedRow_of_digits whole_nonempty whole_digits fraction_nonempty fraction_digits

/-- A number is read as the real nearest to its value. -/
theorem Amounts.rank?_eq (amounts : value.Amounts p) :
    value.rank? = some (Binary64.rankOfExtended p) := by
  have number := amounts.isNumber
  cases amounts with
  | int word =>
      have read : (Value.int word).toReal = .ok (Binary64.ofInt word.toInt) := rfl
      rw [rank?_of_toReal read, Binary64.rank?_ofInt, ← Binary64.rankOfRat_intCast]
      rfl
  | @finite negative units magnitude =>
      have rank_eq := Binary64.rankOfRat_signed_div negative units Binary64.unitsPerOne_pos
      rw [Binary64.roundedSize_of_isMagnitude magnitude] at rank_eq
      exact congrArg some rank_eq.symm
  | infinite negative => cases negative <;> rfl
  | @whole content nonempty digits =>
      have read : (text content).toReal =
          .ok (Binary64.ofInt (Nat.ofDigitChars 10 content.toList 0)) :=
        orFault_eq_ok_iff.mpr (readReal?_of_digits nonempty digits)
      rw [rank?_of_toReal read, Binary64.rank?_ofInt, ← Binary64.rankOfRat_intCast,
        Int.cast_natCast]
      rfl
  | @decimal content whole fraction content_eq whole_nonempty whole_digits _ fraction_digits =>
      have taken := Numeral.ofText?_of_pointed whole_digits fraction_digits
      have read : readBinary64? content = some (Numeral.rounded Binary64.ofQuotient false
          { whole, fraction := some fraction, exponent := none }) := by
        rw [readBinary64?, readReal?_of_isPlain (isPlain_of_isNumber number), content_eq, taken,
          Option.bind_some, if_pos (by simp [Numeral.hasDigits, whole_nonempty])]
      have real_read : (text content).toReal = .ok (Numeral.rounded Binary64.ofQuotient false
          { whole, fraction := some fraction, exponent := none }) := orFault_eq_ok_iff.mpr read
      rw [rank?_of_toReal real_read, Numeral.rank?_rounded_of_pointed]
      rfl

/-- A value that is compared as an integer is that integer. -/
theorem Amounts.eq_of_isInteger (amounts : value.Amounts p) (is_integer : value.IsInteger word) :
    p = ((word.toInt : ℚ) : ExtendedRat) := by
  cases amounts with
  | int n =>
      cases is_integer.2
      rfl
  | @finite negative units magnitude =>
      obtain ⟨n, integer_eq, fits⟩ :=
        Option.bind_eq_some_iff.mp (isInteger_real_iff.mp is_integer)
      have units_ne : (Binary64.unitsPerOne : ℚ) ≠ 0 :=
        Nat.cast_ne_zero.mpr Binary64.unitsPerOne_pos.ne'
      rw [Binary64.integer?_finite_eq_some_iff.mp integer_eq, Int.cast_mul, Int.cast_natCast,
        mul_div_cancel_right₀ _ units_ne, toInt_of_toInt64? fits]
  | infinite =>
      obtain ⟨n, integer_eq, -⟩ := Option.bind_eq_some_iff.mp (isInteger_real_iff.mp is_integer)
      cases integer_eq
  | whole nonempty digits =>
      obtain ⟨-, -, fits⟩ := isInteger_text_iff.mp is_integer
      rw [toInt_of_toInt64? fits, Int.cast_natCast]
      rfl
  | decimal content_eq =>
      obtain ⟨-, digits, -⟩ := isInteger_text_iff.mp is_integer
      have point : '.'.isDigit := digits '.' (by simp [content_eq])
      exact absurd point (by decide)

theorem Amounts.unique (amounts : value.Amounts p) (other : value.Amounts q) : p = q := by
  cases amounts with
  | int | infinite | finite =>
      cases other
      rfl
  | whole nonempty digits =>
      cases other with
      | whole => rfl
      | decimal content_eq =>
          have point : '.'.isDigit := digits '.' (by simp [content_eq])
          exact absurd point (by decide)
  | decimal content_eq _ whole_digits _ fraction_digits =>
      cases other with
      | whole nonempty digits =>
          have point : '.'.isDigit := digits '.' (by simp [content_eq])
          exact absurd point (by decide)
      | decimal other_eq _ other_digits _ other_fraction_digits =>
          -- the parts of the text are those that its reader finds
          have taken := Numeral.ofText?_of_pointed whole_digits fraction_digits
          rw [← content_eq, other_eq,
            Numeral.ofText?_of_pointed other_digits other_fraction_digits] at taken
          cases taken
          rfl

theorem exists_amounts_iff :
    (∃ p, value.Amounts p) ↔ value.IsNumber ∧ ∃ x, value.toReal = .ok x ∧ x ≠ .nan := by
  constructor
  · rintro ⟨p, amounts⟩
    obtain ⟨x, read, rank_eq⟩ := Option.bind_eq_some_iff.mp amounts.rank?_eq
    refine ⟨amounts.isNumber, x, toOption_eq_some.mp read, ?_⟩
    rintro rfl
    cases rank_eq
  · rintro ⟨number, x, read, defined⟩
    cases value with
    | int word => exact ⟨_, .int word⟩
    | real y =>
        cases read
        cases x with
        | nan => exact absurd rfl defined
        | infinite negative => exact ⟨_, .infinite negative⟩
        | finite negative units magnitude => exact ⟨_, .finite magnitude⟩
    | text content =>
        have ascii := hasAsciiDigits_of_toReal number read
        rcases isNumber_text_iff.mp number with row | pointed
        · obtain ⟨nonempty, digits⟩ := isDigitRow_iff.mp row
          exact ⟨_, .whole nonempty fun c member => ascii c member (digits c member)⟩
        · obtain ⟨whole, fraction, content_eq, whole_row, fraction_row⟩ :=
            exists_of_isPointedRow pointed
          obtain ⟨whole_nonempty, whole_digits⟩ := isDigitRow_iff.mp whole_row
          obtain ⟨fraction_nonempty, fraction_digits⟩ := isDigitRow_iff.mp fraction_row
          refine ⟨_, .decimal content_eq whole_nonempty (fun c member => ?_) fraction_nonempty
            fun c member => ?_⟩
          · exact ascii c (by simp [content_eq, member]) (whole_digits c member)
          · exact ascii c (by simp [content_eq, member]) (fraction_digits c member)
    | bool | date | array | map =>
        obtain ⟨_, kind_eq, numeric⟩ := number
        cases kind_eq
        cases numeric
    | null =>
        obtain ⟨_, kind_eq, -⟩ := number
        cases kind_eq

/-- What a number stands for has the rank of its value, and is an integer only if the value is. -/
theorem Amounts.exists_standing? (amounts : value.Amounts p) :
    ∃ standing, value.standing? = some standing ∧
      standing.rank? = some (Binary64.rankOfExtended p) ∧
        ∀ n : Int, standing = .integer n → p = ((n : ℚ) : ExtendedRat) := by
  by_cases exact_word : ∃ word, value.IsInteger word
  · obtain ⟨word, is_integer⟩ := exact_word
    refine ⟨_, standing?_of_isInteger is_integer, ?_, ?_⟩
    · rw [← amounts.rank?_eq, is_integer.rank?_eq]
      rfl
    · rintro n ⟨⟩
      exact amounts.eq_of_isInteger is_integer
  · obtain ⟨kind, kind_eq, numeric⟩ := amounts.isNumber
    have stands := standing?_of_isNumeric kind_eq numeric (not_exists.mp exact_word)
    rw [amounts.rank?_eq, Option.map_some] at stands
    exact ⟨_, stands, rfl, fun n same => by cases same⟩

end Value

namespace Comparison

open Value

variable {a b : Value} {p q : ExtendedRat}

/-- Two numbers are ordered, and never against their values. -/
theorem exists_compare?_of_amounts (left : a.Amounts p) (right : b.Amounts q) (le : p ≤ q) :
    ∃ ordering, a.compare? b = some ordering ∧ ordering.isLE := by
  obtain ⟨s, left_stands, left_rank, left_exact⟩ := left.exists_standing?
  obtain ⟨t, right_stands, right_rank, right_exact⟩ := right.exists_standing?
  rw [compare?_eq_some left_stands right_stands]
  by_cases not_both : ∀ m n, s = .integer m → t ≠ .integer n
  · exact ⟨_, Standing.compare?_of_rank? not_both left_rank right_rank,
      Int.isLE_compare.mpr (Binary64.rankOfExtended_le_rankOfExtended le)⟩
  · push Not at not_both
    obtain ⟨m, n, rfl, rfl⟩ := not_both
    rw [left_exact m rfl, right_exact n rfl] at le
    rw [WithBotTop.coe_le_coe, Int.cast_le] at le
    exact ⟨_, rfl, Int.isLE_compare.mpr le⟩

theorem apply_greater_of_le [Engine] (left : a.Amounts p) (right : b.Amounts q) (le : p ≤ q) :
    apply .greater a b = .ok false := by
  obtain ⟨ordering, compared, is_le⟩ := exists_compare?_of_amounts left right le
  rw [(ordered_of_compare? compared).2.2.1]
  cases ordering with
  | lt | eq => rfl
  | gt => cases is_le

theorem lt_of_apply_less [Engine] (left : a.Amounts p) (right : b.Amounts q)
    (less : apply .less a b = .ok true) : p < q := by
  by_contra inverted
  have fails := apply_greater_of_le right left (not_lt.mp inverted)
  have relational : Operator.less ∈ Operator.relational := by decide
  have holds := (apply_mirror_eq_ok_iff relational).mpr less
  cases fails.symm.trans holds

/-- Comparison of numbers never inverts the order of their values.  The values that have one are
those classified as numbers and read as reals that are defined. -/
theorem never_inverts [Engine] :
    (∀ value : Value, (∃ p, value.Amounts p) ↔
      value.IsNumber ∧ ∃ x, value.toReal = .ok x ∧ x ≠ .nan) ∧
    (∀ (value : Value) p q, value.Amounts p → value.Amounts q → p = q) ∧
    ∀ a b p q, a.Amounts p → b.Amounts q →
      (p ≤ q → apply .greater a b = .ok false) ∧ (apply .less a b = .ok true → p < q) :=
  ⟨fun _ => exists_amounts_iff, fun _ _ _ => Amounts.unique,
    fun _ _ _ _ left right => ⟨apply_greater_of_le left right, lt_of_apply_less left right⟩⟩

section

open scoped Engine.Plain

/-- One real is nearest to two of these numbers, and the third has more than 64 bits. -/
theorem never_inverts_nearest :
    let fractional : Value := .text "9007199254740992.5"
    let whole : Value := .int 9007199254740993
    let wide : Value := .text "18446744073709551616"
    fractional.Amounts ((18014398509481985 / 2 : ℚ) : ExtendedRat) ∧
      whole.Amounts ((9007199254740993 : ℚ) : ExtendedRat) ∧
      wide.Amounts ((18446744073709551616 : ℚ) : ExtendedRat) ∧
      ((18014398509481985 / 2 : ℚ) : ExtendedRat) ≤
        ((9007199254740993 : ℚ) : ExtendedRat) ∧
      apply .greater fractional whole = .ok false ∧
      apply .less whole wide = .ok true ∧
      ((9007199254740993 : ℚ) : ExtendedRat) <
        ((18446744073709551616 : ℚ) : ExtendedRat) := by
  intro fractional whole wide
  have fractional_amounts : fractional.Amounts ((18014398509481985 / 2 : ℚ) : ExtendedRat) := by
    have amounts := @Amounts.decimal "9007199254740992.5" "9007199254740992".toList ['5']
      (by decide) (by decide) (List.all_eq_true.mp (by decide)) (by decide)
      (List.all_eq_true.mp (by decide))
    have whole_eq : Nat.ofDigitChars 10 "9007199254740992".toList 0 = 9007199254740992 := by decide
    have fraction_eq : Nat.ofDigitChars 10 ['5'] 0 = 5 := by decide
    rw [whole_eq, fraction_eq] at amounts
    norm_num at amounts
    exact amounts
  have whole_amounts : whole.Amounts ((9007199254740993 : ℚ) : ExtendedRat) := .int _
  have wide_amounts : wide.Amounts ((18446744073709551616 : ℚ) : ExtendedRat) := by
    have amounts := @Amounts.whole "18446744073709551616" (by decide)
      (List.all_eq_true.mp (by decide))
    have value_eq : Nat.ofDigitChars 10 "18446744073709551616".toList 0 =
      18446744073709551616 := by decide
    rw [value_eq] at amounts
    exact amounts
  have le : ((18014398509481985 / 2 : ℚ) : ExtendedRat) ≤
      ((9007199254740993 : ℚ) : ExtendedRat) := by
    norm_cast
    norm_num
  have less : apply .less whole wide = .ok true := by decide +kernel
  have ordered := never_inverts.2.2
  exact ⟨fractional_amounts, whole_amounts, wide_amounts, le,
    (ordered _ _ _ _ fractional_amounts whole_amounts).1 le, less,
    (ordered _ _ _ _ whole_amounts wide_amounts).2 less⟩

end

end Comparison
end RiskGraph

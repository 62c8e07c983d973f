import RiskGraph.Proofs.Exactness
import RiskGraph.Proofs.Holding

/-!
# Numbers that can be read

The digits of a text may be of any script when the text is classified as a number, but only ASCII
digits are read.  Numbers written with others cannot be compared; among all the rest only the
undefined number has no order.
-/

namespace RiskGraph

/-! ## Texts of numbers -/

theorem exists_of_isPointedRow {text : List Char} (pointed : isPointedRow text) :
    ∃ whole fraction, text = whole ++ '.' :: fraction ∧ isDigitRow whole ∧ isDigitRow fraction := by
  unfold isPointedRow at pointed
  split at pointed
  · next fraction dropped =>
      rw [Bool.and_eq_true] at pointed
      refine ⟨text.takeWhile isDecimalDigit, fraction, ?_, pointed⟩
      rw [← dropped, List.takeWhile_append_dropWhile]
  · nomatch pointed

theorem Numeral.exists_rank?_rounded (negative : Bool) (numeral : Numeral) :
    ∃ rank, (numeral.rounded Binary64.ofQuotient negative).rank? = some rank := by
  simp only [rounded]
  split_ifs
  · exact ⟨_, Binary64.rank?_ofQuotient ..⟩
  · exact ⟨_, rfl⟩
  · exact ⟨_, Binary64.rank?_ofQuotient ..⟩
  · exact ⟨_, Binary64.rank?_ofQuotient ..⟩

theorem Binary64.rank?_eq_none_iff {x : Binary64} : x.rank? = none ↔ x = .nan := by
  cases x <;> simp [rank?]

namespace Value

variable {value : Value}

/-- The value is classified as a number. -/
def IsNumber (value : Value) : Prop :=
  ∃ kind, value.classify = .ok kind ∧ kind.isNumeric

/-- The digits of the value are ASCII digits, if it is a text. -/
def HasAsciiDigits : Value → Prop
  | text content => ∀ c ∈ content.toList, isDecimalDigit c → c.isDigit
  | _ => True

theorem isNumber_text_iff {content : String} :
    (text content).IsNumber ↔ isDigitRow content.toList ∨ isPointedRow content.toList := by
  simp only [IsNumber, classify, Kind.ofText, Except.ok.injEq, exists_eq_left']
  split_ifs <;> simp_all [Kind.isNumeric]

theorem isPlain_of_isNumber {content : String} (number : (text content).IsNumber) :
    ∀ c ∈ content.toList, IsPlain c := by
  intro c member
  rcases isNumber_text_iff.mp number with row | pointed
  · exact .inl ((isDigitRow_iff.mp row).2 c member)
  · obtain ⟨whole, fraction, content_eq, whole_row, fraction_row⟩ := exists_of_isPointedRow pointed
    rw [content_eq, List.mem_append, List.mem_cons] at member
    rcases member with front | point | back
    · exact .inl ((isDigitRow_iff.mp whole_row).2 c front)
    · exact .inr point
    · exact .inl ((isDigitRow_iff.mp fraction_row).2 c back)

/-- A number in ASCII digits is taken apart into digits, at its point if it has one. -/
theorem exists_ofText?_of_isNumber {content : String} (number : (text content).IsNumber)
    (ascii : (text content).HasAsciiDigits) :
    ∃ numeral, Numeral.ofText? content.toList = some numeral ∧ numeral.hasDigits := by
  rcases isNumber_text_iff.mp number with row | pointed
  · obtain ⟨nonempty, digits⟩ := isDigitRow_iff.mp row
    refine ⟨_, Numeral.ofText?_of_digits fun c member => ascii c member (digits c member), ?_⟩
    simp [Numeral.hasDigits, nonempty]
  · obtain ⟨whole, fraction, content_eq, whole_row, fraction_row⟩ := exists_of_isPointedRow pointed
    obtain ⟨nonempty, whole_digits⟩ := isDigitRow_iff.mp whole_row
    have fraction_digits := (isDigitRow_iff.mp fraction_row).2
    rw [HasAsciiDigits, content_eq] at ascii
    have whole_ascii : ∀ c ∈ whole, c.isDigit := fun c member =>
      ascii c (List.mem_append_left _ member) (whole_digits c member)
    have fraction_ascii : ∀ c ∈ fraction, c.isDigit := fun c member =>
      ascii c (List.mem_append_right _ (List.mem_cons_of_mem _ member)) (fraction_digits c member)
    refine ⟨_, content_eq ▸ Numeral.ofText?_of_pointed whole_ascii fraction_ascii, ?_⟩
    simp [Numeral.hasDigits, nonempty]

/-- What is read from a number in ASCII digits is no undefined number. -/
theorem exists_readBinary64?_of_isNumber {content : String} (number : (text content).IsNumber)
    (ascii : (text content).HasAsciiDigits) :
    ∃ x, readBinary64? content = some x ∧ x ≠ .nan := by
  obtain ⟨numeral, taken, digits⟩ := exists_ofText?_of_isNumber number ascii
  refine ⟨numeral.rounded Binary64.ofQuotient false, ?_, ?_⟩
  · rw [readBinary64?, readReal?_of_isPlain (isPlain_of_isNumber number), taken, Option.bind_some,
      if_pos digits]
  · obtain ⟨rank, rank_eq⟩ := numeral.exists_rank?_rounded false
    rw [ne_eq, ← Binary64.rank?_eq_none_iff, rank_eq]
    rintro ⟨⟩

/-! ## Numbers as reals -/

theorem toReal_eq_error {fault : Fault} (failed : value.toReal = .error fault) :
    fault = .inconvertible value.shown .float := by
  cases value with
  | int | real | bool => nomatch failed
  | text content =>
      rw [toReal] at failed
      cases read : readBinary64? content with
      | none =>
          rw [read] at failed
          cases failed
          rfl
      | some =>
          rw [read] at failed
          nomatch failed
  | date | array | map | null =>
      cases failed
      rfl

/-- A number in ASCII digits is read as a real, which is undefined only if the number is. -/
theorem exists_toReal_eq_ok (number : value.IsNumber) (ascii : value.HasAsciiDigits) :
    ∃ x, value.toReal = .ok x ∧ (x = .nan ↔ value = .real .nan) := by
  cases value with
  | int n =>
      refine ⟨_, rfl, iff_of_false ?_ nofun⟩
      rw [← Binary64.rank?_eq_none_iff, Binary64.rank?_ofInt]
      nofun
  | real x => exact ⟨x, rfl, by simp⟩
  | text content =>
      obtain ⟨x, read, defined⟩ := exists_readBinary64?_of_isNumber number ascii
      exact ⟨x, orFault_eq_ok_iff.mpr read, iff_of_false defined nofun⟩
  | bool | date | array | map =>
      obtain ⟨_, kind_eq, numeric⟩ := number
      cases kind_eq
      nomatch numeric
  | null =>
      obtain ⟨_, kind_eq, -⟩ := number
      nomatch kind_eq

theorem hasAsciiDigits_of_toReal {x : Binary64} (number : value.IsNumber)
    (read : value.toReal = .ok x) : value.HasAsciiDigits := by
  cases value with
  | text content =>
      rw [toReal, orFault_eq_ok_iff, readBinary64?,
        readReal?_of_isPlain (isPlain_of_isNumber number)] at read
      obtain ⟨numeral, taken, -⟩ := Option.bind_eq_some_iff.mp read
      exact Numeral.isDigit_of_ofText? (isPlain_of_isNumber number) taken
  | int | real | bool | date | array | map | null => trivial

theorem exists_toReal_eq_ok_iff (number : value.IsNumber) :
    (∃ x, value.toReal = .ok x) ↔ value.HasAsciiDigits := by
  constructor
  · rintro ⟨x, read⟩
    exact hasAsciiDigits_of_toReal number read
  · intro ascii
    obtain ⟨x, read, -⟩ := exists_toReal_eq_ok number ascii
    exact ⟨x, read⟩

theorem toReal_eq_error_of_isNumber (number : value.IsNumber) (other : ¬value.HasAsciiDigits) :
    value.toReal = .error (.inconvertible value.shown .float) := by
  cases read : value.toReal with
  | ok x => exact absurd (hasAsciiDigits_of_toReal number read) other
  | error fault => rw [toReal_eq_error read]

end Value

/-! ## Comparison of numbers -/

namespace Comparison

open Value

variable {α β : Type} {operator : Operator} {left right : Value} {leftKind rightKind : Kind}

/-- What becomes of a comparison of two numbers: it fails at the first that cannot be read, or if
one is undefined, and has a result in all other cases. -/
structure ReadsNumbers (outcome : Result α) (operator : Operator) (left right : Value) : Prop where
  left_unread : ¬left.HasAsciiDigits →
    outcome = .error (.value (.inconvertible left.shown .float))
  right_unread : left.HasAsciiDigits → ¬right.HasAsciiDigits →
    outcome = .error (.value (.inconvertible right.shown .float))
  undefined : left.HasAsciiDigits → right.HasAsciiDigits →
    left = .real .nan ∨ right = .real .nan → outcome = .error (.unsupported operator .float)
  ordered : left.HasAsciiDigits → right.HasAsciiDigits →
    left ≠ .real .nan → right ≠ .real .nan → ∃ result, outcome = .ok result

theorem ReadsNumbers.map {outcome : Result α} (reads : ReadsNumbers outcome operator left right)
    (test : α → β) : ReadsNumbers (outcome.map test) operator left right where
  left_unread other := by rw [reads.left_unread other]; rfl
  right_unread ascii other := by rw [reads.right_unread ascii other]; rfl
  undefined ascii other_ascii absent := by rw [reads.undefined ascii other_ascii absent]; rfl
  ordered ascii other_ascii present other_present := by
    obtain ⟨result, outcome_eq⟩ := reads.ordered ascii other_ascii present other_present
    exact ⟨test result, by rw [outcome_eq]; rfl⟩

theorem realOrder_readsNumbers (left_number : left.IsNumber) (right_number : right.IsNumber) :
    ReadsNumbers (realOrder operator left right) operator left right := by
  have undefined_compare : ∀ x y : Binary64, x.compare? y = none ↔ x = .nan ∨ y = .nan := by
    intro x y
    rw [Binary64.compare?_eq, ← Binary64.rank?_eq_none_iff, ← Binary64.rank?_eq_none_iff]
    cases x.rank? <;> simp
  constructor
  case left_unread =>
    intro other
    rw [realOrder, toReal_eq_error_of_isNumber left_number other]
    rfl
  case right_unread =>
    intro ascii other
    obtain ⟨x, read, -⟩ := exists_toReal_eq_ok left_number ascii
    rw [realOrder, read, toReal_eq_error_of_isNumber right_number other]
    rfl
  case undefined =>
    intro ascii other_ascii absent
    obtain ⟨x, read, x_undefined⟩ := exists_toReal_eq_ok left_number ascii
    obtain ⟨y, other_read, y_undefined⟩ := exists_toReal_eq_ok right_number other_ascii
    rw [← x_undefined, ← y_undefined, ← undefined_compare] at absent
    rw [realOrder_of_toReal read other_read, absent, Option.elim_none]
  case ordered =>
    intro ascii other_ascii present other_present
    obtain ⟨x, read, x_undefined⟩ := exists_toReal_eq_ok left_number ascii
    obtain ⟨y, other_read, y_undefined⟩ := exists_toReal_eq_ok right_number other_ascii
    have comparable : x.compare? y ≠ none := by
      rw [ne_eq, undefined_compare, x_undefined, y_undefined, not_or]
      exact ⟨present, other_present⟩
    obtain ⟨ordering, compared⟩ := Option.ne_none_iff_exists'.mp comparable
    exact ⟨ordering, by rw [realOrder_of_toReal read other_read, compared, Option.elim_some]⟩

/-- Integers of 64 bits are read and ordered. -/
theorem readsNumbers_of_isInteger {m n : Int64} {outcome : Result α} {result : α}
    (left_exact : left.IsInteger m) (right_exact : right.IsInteger n)
    (outcome_eq : outcome = .ok result) : ReadsNumbers outcome operator left right := by
  have readable : ∀ {value : Value} {word : Int64}, value.IsInteger word →
      value.HasAsciiDigits ∧ value ≠ .real .nan := by
    intro value word is_integer
    obtain ⟨x, read, -⟩ := is_integer.exists_toReal_eq
    refine ⟨hasAsciiDigits_of_toReal ⟨.int, is_integer.1, rfl⟩ read, ?_⟩
    rintro rfl
    nomatch is_integer.1
  constructor
  case left_unread => exact fun other => absurd (readable left_exact).1 other
  case right_unread => exact fun _ other => absurd (readable right_exact).1 other
  case undefined =>
    rintro - - (absent | absent)
    · exact absurd absent (readable left_exact).2
    · exact absurd absent (readable right_exact).2
  case ordered => exact fun _ _ _ _ => ⟨result, outcome_eq⟩

theorem order_readsNumbers (left_kind : left.classify = .ok leftKind)
    (right_kind : right.classify = .ok rightKind) (left_numeric : leftKind.isNumeric)
    (right_numeric : rightKind.isNumeric) :
    ReadsNumbers (order operator left leftKind right rightKind) operator left right := by
  have left_number : left.IsNumber := ⟨leftKind, left_kind, left_numeric⟩
  have right_number : right.IsNumber := ⟨rightKind, right_kind, right_numeric⟩
  have by_reals : ReadsNumbers (realOrder operator left right) operator left right :=
    realOrder_readsNumbers left_number right_number
  cases leftKind with
  | int =>
      cases rightKind with
      | int =>
          simp only [order, intOrder]
          split
          · next m n left_read right_read =>
              exact readsNumbers_of_isInteger ⟨left_kind, left_read⟩ ⟨right_kind, right_read⟩ rfl
          · exact by_reals
      | float => exact by_reals
      | bool | date | string | array | map | unknown => cases right_numeric
  | float =>
      cases rightKind with
      | int | float => exact by_reals
      | bool | date | string | array | map | unknown => cases right_numeric
  | bool | date | string | array | map | unknown => cases left_numeric

theorem matched_of_agrees (left_kind : left.classify = .ok leftKind)
    (right_kind : right.classify = .ok rightKind) (agrees : leftKind.agrees rightKind)
    (step : Kind → Kind → Result α) : matched left right step = step leftKind rightKind := by
  rw [matched, kindOf_eq_ok_iff.mpr left_kind, kindOf_eq_ok_iff.mpr right_kind]
  change (requireAgreement leftKind rightKind >>= fun _ => _) = _
  rw [requireAgreement, if_pos agrees]
  rfl

/-- On two numbers, the operators of order and of equality test their order. -/
theorem exists_apply_eq_map_order [Engine]
    (family : operator ∈ [Operator.greater, .atLeast, .less, .atMost, .equal, .different])
    (left_kind : left.classify = .ok leftKind) (right_kind : right.classify = .ok rightKind)
    (left_numeric : leftKind.isNumeric) (right_numeric : rightKind.isNumeric) :
    ∃ test : Ordering → Bool, apply operator left right =
      (order operator left leftKind right rightKind).map test := by
  have agrees : leftKind.agrees rightKind := by
    simp [Kind.agrees, left_numeric, right_numeric]
  have by_order : operator ∈ [Operator.greater, .atLeast, .less, .atMost] →
      ∃ test : Ordering → Bool, apply operator left right =
        (order operator left leftKind right rightKind).map test := fun relational =>
    ⟨satisfies operator, by
      rw [apply_of_relational relational, matched_of_agrees left_kind right_kind agrees]⟩
  have equal_eq : apply .equal left right =
      (order .equal left leftKind right rightKind).map (· == .eq) := by
    rw [apply_equal_eq left_kind right_kind agrees]
    cases leftKind with
    | int | float => exact bind_ok_eq_map
    | bool | date | string | array | map | unknown => cases left_numeric
  cases operator with
  | greater | atLeast | less | atMost => exact by_order (by decide)
  | equal => exact ⟨_, equal_eq⟩
  | different =>
      refine ⟨fun ordering => !(ordering == .eq), ?_⟩
      rw [apply_different_eq, equal_eq, order_under .equal .different]
      cases order .equal left leftKind right rightKind <;> rfl
  | between | member | nonmember | contain | like | before | after | keyExist | valueExist =>
      exact absurd family (by decide)

/-- Which values that are classified as numbers or truth values can be read, and what becomes of
the comparison of two numbers. -/
theorem numbers_read [Engine] (value other : Value) :
    (value.IsNumber → ((∃ x, value.toReal = .ok x) ↔ value.HasAsciiDigits)) ∧
    (value.classify = .ok .bool → ∃ truth, value.toBool = .ok truth) ∧
    (value.IsNumber → other.IsNumber →
      ∀ operator ∈ [Operator.greater, .atLeast, .less, .atMost, .equal, .different],
        ReadsNumbers (apply operator value other) operator value other) := by
  refine ⟨exists_toReal_eq_ok_iff, fun kind_eq => ?_, ?_⟩
  · obtain ⟨truth, -, read⟩ := exists_isTruth kind_eq
    exact ⟨truth, read⟩
  · rintro ⟨kind, known, numeric⟩ ⟨otherKind, other_known, other_numeric⟩ operator family
    obtain ⟨test, apply_eq⟩ :=
      exists_apply_eq_map_order family known other_known numeric other_numeric
    rw [apply_eq]
    exact (order_readsNumbers known other_known numeric other_numeric).map test

section

open scoped Engine.Plain

/-- The digit three of Arabic script beside the integer three. -/
theorem numbers_read_three :
    let arabic : Value := .text "٣"
    let three : Value := .int 3
    arabic.IsNumber ∧ three.IsNumber ∧
      ((∃ x, arabic.toReal = .ok x) ↔ arabic.HasAsciiDigits) ∧
      (Value.text "true").classify = .ok .bool ∧
      (∃ truth, (Value.text "true").toBool = .ok truth) ∧
      Operator.equal ∈ [Operator.greater, .atLeast, .less, .atMost, .equal, .different] ∧
      ReadsNumbers (apply .equal three arabic) .equal three arabic := by
  intro arabic three
  have arabic_number : arabic.IsNumber := ⟨.int, by decide +kernel, rfl⟩
  have three_number : three.IsNumber := ⟨.int, rfl, rfl⟩
  exact ⟨arabic_number, three_number, (numbers_read arabic three).1 arabic_number,
    by decide +kernel, (numbers_read (.text "true") three).2.1 (by decide +kernel), by decide,
    (numbers_read three arabic).2.2 three_number arabic_number .equal (by decide)⟩

/-- A digit of another script makes a text an integer that is not read and not equal to itself. -/
theorem digit_unread :
    (Value.text "٣").classify = .ok .int ∧
      (Value.text "٣").toReal = .error (.inconvertible "٣" .float) ∧
      apply .equal (.text "٣") (.text "٣") = .error (.value (.inconvertible "٣" .float)) := by
  decide +kernel

end

end Comparison
end RiskGraph

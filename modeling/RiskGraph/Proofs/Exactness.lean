import RiskGraph.Proofs.Coherence

/-!
# Integers of 64 bits are compared exactly

An integer of 64 bits is written as such, as a real without a fraction or as a row of digits, with
any number of zeros before them.  Comparison sees the integer only: between two of them it is that
of the integers, and a value may be written in another of these ways wherever it is compared.
-/

namespace RiskGraph

/-! ## Values that write integers -/

/-- A value writes an integer of 64 bits, in one of three ways. -/
inductive Value.Denotes : Value → Int → Prop
  /-- As such. -/
  | int (word : Int64) : Denotes (.int word) word.toInt
  /-- As a real without a fraction. -/
  | real {negative : Bool} {units : Nat} {n : Int} (magnitude : IsMagnitude units)
      (whole : Binary64.signed negative units = n * Binary64.unitsPerOne)
      (lower : -int64Limit ≤ n) (upper : n < int64Limit) :
      Denotes (.real (.finite negative units magnitude)) n
  /-- As a row of its digits, after any number of zeros. -/
  | digits {n : Nat} (zeros : Nat) (upper : (n : Int) < int64Limit) :
      Denotes (.text (String.ofList (List.replicate zeros '0' ++ Nat.toDigits 10 n))) n

theorem toInt64?_of_range {n : Int} (lower : -int64Limit ≤ n) (upper : n < int64Limit) :
    ∃ word, toInt64? n = some word ∧ word.toInt = n :=
  ⟨Int64.ofInt n, if_pos ⟨lower, upper⟩, Int64.toInt_ofInt_of_le lower upper⟩

theorem range_of_toInt64? {n : Int} {word : Int64} (fits : toInt64? n = some word) :
    -int64Limit ≤ n ∧ n < int64Limit := by
  unfold toInt64? at fits
  split at fits
  · assumption
  · nomatch fits

theorem Binary64.unitsPerOne_pos : 0 < unitsPerOne :=
  twoPow_pos 1074

theorem Binary64.integer?_finite_eq_some_iff {negative : Bool} {units : Nat}
    {magnitude : IsMagnitude units} {n : Int} :
    (finite negative units magnitude).integer? = some n ↔
      signed negative units = n * unitsPerOne := by
  have positive : (0 : Int) < unitsPerOne := Int.natCast_pos.mpr unitsPerOne_pos
  simp only [integer?, Option.ite_none_right_eq_some, Option.some.injEq]
  constructor
  · rintro ⟨whole, rfl⟩
    rw [← signed_mul, Nat.div_mul_cancel (Nat.dvd_of_mod_eq_zero whole)]
  · intro whole
    have units_eq : units = n.natAbs * unitsPerOne := by
      have sizes := congrArg Int.natAbs whole
      rwa [natAbs_signed, Int.natAbs_mul, Int.natAbs_natCast] at sizes
    refine ⟨by rw [units_eq, Nat.mul_mod_left], ?_⟩
    rw [units_eq, signed_mul] at whole
    rw [units_eq, Nat.mul_div_cancel _ unitsPerOne_pos]
    exact Int.eq_of_mul_eq_mul_right positive.ne' whole

namespace Value

variable {value other : Value} {n : Int} {word : Int64}

theorem isInteger_text_iff {content : String} :
    (text content).IsInteger word ↔
      content.toList ≠ [] ∧ (∀ c ∈ content.toList, c.isDigit) ∧
        toInt64? (digitsValue content.toList) = some word := by
  rw [IsInteger, toInt64, orFault_eq_ok_iff, readInt64?]
  constructor
  · rintro ⟨kind_eq, read⟩
    obtain ⟨m, read, fits⟩ := Option.bind_eq_some_iff.mp read
    rw [readInteger?_of_isDigitRow (isDigitRow_of_classify kind_eq), Option.map_eq_some_iff] at read
    obtain ⟨value, digits_read, rfl⟩ := read
    obtain ⟨nonempty, digits, rfl⟩ := readDigits?_eq_some_iff.mp digits_read
    exact ⟨nonempty, digits, fits⟩
  · rintro ⟨nonempty, digits, fits⟩
    have row : isDigitRow content.toList := isDigitRow_iff.mpr
      ⟨nonempty, fun c member => isDecimalDigit_of_isDigit (digits c member)⟩
    refine ⟨by simp [classify, Kind.ofText, row], ?_⟩
    rw [readInteger?_of_isDigitRow row, readDigits?_eq_some_iff.mpr ⟨nonempty, digits, rfl⟩,
      Option.map_some, Option.bind_some, Int.ofNat_eq_natCast, fits]

/-- The values that are compared as integers of 64 bits are those that write them. -/
theorem denotes_iff : value.Denotes n ↔ ∃ word, value.IsInteger word ∧ word.toInt = n := by
  constructor
  · intro denotes
    cases denotes with
    | int word => exact ⟨word, ⟨rfl, rfl⟩, rfl⟩
    | real magnitude whole lower upper =>
        obtain ⟨word, fits, word_eq⟩ := toInt64?_of_range lower upper
        refine ⟨word, isInteger_real_iff.mpr ?_, word_eq⟩
        rw [Binary64.integer?_finite_eq_some_iff.mpr whole, Option.bind_some, fits]
    | @digits m zeros upper =>
        have lower : -int64Limit ≤ (m : Int) := by
          have limit_pos : 0 < int64Limit := by decide
          omega
        obtain ⟨word, fits, word_eq⟩ := toInt64?_of_range lower upper
        refine ⟨word, isInteger_text_iff.mpr ?_, word_eq⟩
        rw [String.toList_ofList, digitsValue_zeros_append]
        refine ⟨by simp [Nat.toDigits_ne_nil], fun c member => ?_, fits⟩
        rcases List.mem_append.mp member with zero | digit
        · rw [List.eq_of_mem_replicate zero]
          rfl
        · exact Nat.isDigit_of_mem_toDigits (by decide) (by decide) digit
  · rintro ⟨word, is_integer, rfl⟩
    cases value with
    | int m =>
        cases is_integer.2
        exact .int word
    | real x =>
        obtain ⟨m, integer_eq, fits⟩ :=
          Option.bind_eq_some_iff.mp (isInteger_real_iff.mp is_integer)
        rw [toInt_of_toInt64? fits]
        obtain ⟨lower, upper⟩ := range_of_toInt64? fits
        cases x with
        | nan | infinite => nomatch integer_eq
        | finite negative units magnitude =>
            exact .real magnitude (Binary64.integer?_finite_eq_some_iff.mp integer_eq) lower upper
    | text content =>
        obtain ⟨nonempty, digits, fits⟩ := isInteger_text_iff.mp is_integer
        obtain ⟨zeros, content_eq⟩ := exists_zeros_eq nonempty digits
        have written := Denotes.digits zeros (range_of_toInt64? fits).2
        rwa [← content_eq, String.ofList_toList, ← toInt_of_toInt64? fits] at written
    | bool | date | array | map => nomatch is_integer.1
    | null => nomatch is_integer.1

/-- Two values are the same, or they write one integer of 64 bits. -/
def Interchangeable (value other : Value) : Prop :=
  value = other ∨ ∃ n, value.Denotes n ∧ other.Denotes n

theorem Interchangeable.eq_or_isInteger (same : value.Interchangeable other) :
    value = other ∨ ∃ word, value.IsInteger word ∧ other.IsInteger word := by
  rcases same with rfl | ⟨n, denotes, other_denotes⟩
  · exact Or.inl rfl
  · obtain ⟨word, is_integer, word_eq⟩ := denotes_iff.mp denotes
    obtain ⟨twin, twin_integer, twin_eq⟩ := denotes_iff.mp other_denotes
    obtain rfl : word = twin := Int64.toInt_inj.mp (word_eq.trans twin_eq.symm)
    exact Or.inr ⟨word, is_integer, twin_integer⟩

theorem Interchangeable.classify_eq (same : value.Interchangeable other) :
    value.classify = other.classify := by
  rcases same.eq_or_isInteger with rfl | ⟨word, is_integer, twin_integer⟩
  · rfl
  · rw [is_integer.1, twin_integer.1]

theorem IsInteger.exists_toReal_eq (is_integer : value.IsInteger word) :
    ∃ x, value.toReal = .ok x ∧ x.rank? = some (Binary64.rankOfInt word.toInt) := by
  obtain ⟨x, read, rank_eq⟩ := Option.bind_eq_some_iff.mp is_integer.rank?_eq
  exact ⟨x, toOption_eq_some.mp read, rank_eq⟩

end Value

namespace Comparison

open Value

variable {operator : Operator} {value other left right : Value} {kind leftKind rightKind : Kind}
  {word : Int64}

theorem realOrder_congr_left (is_integer : value.IsInteger word)
    (twin_integer : other.IsInteger word) (right : Value) :
    realOrder operator value right = realOrder operator other right := by
  obtain ⟨x, read, rank_eq⟩ := is_integer.exists_toReal_eq
  obtain ⟨y, twin_read, twin_rank⟩ := twin_integer.exists_toReal_eq
  have compared : ∀ z, x.compare? z = y.compare? z := by
    intro z
    rw [Binary64.compare?_eq, Binary64.compare?_eq, rank_eq, twin_rank]
  rw [realOrder, realOrder, read, twin_read]
  refine @bind_congr_of_ok _ _ _ (reading right.toReal) _ _ fun z _ => ?_
  rw [compared]

theorem realOrder_congr_right (is_integer : value.IsInteger word)
    (twin_integer : other.IsInteger word) (left : Value) :
    realOrder operator left value = realOrder operator left other := by
  obtain ⟨x, read, rank_eq⟩ := is_integer.exists_toReal_eq
  obtain ⟨y, twin_read, twin_rank⟩ := twin_integer.exists_toReal_eq
  have compared : ∀ z : Binary64, z.compare? x = z.compare? y := by
    intro z
    rw [Binary64.compare?_eq, Binary64.compare?_eq, rank_eq, twin_rank]
  cases left_read : left.toReal with
  | error =>
      rw [realOrder, realOrder, left_read]
      rfl
  | ok z =>
      rw [realOrder_of_toReal left_read read, realOrder_of_toReal left_read twin_read, compared]

theorem order_congr_left (is_integer : value.IsInteger word) (twin_integer : other.IsInteger word)
    (right : Value) (rightKind : Kind) :
    order operator value .int right rightKind = order operator other .int right rightKind := by
  have by_reals : realOrder operator value right = realOrder operator other right :=
    realOrder_congr_left is_integer twin_integer right
  cases rightKind with
  | int =>
      simp only [order, intOrder, is_integer.2, twin_integer.2]
      cases right.toInt64 with
      | ok => rfl
      | error => exact by_reals
  | float => exact by_reals
  | bool | date | string | array | map | unknown => rfl

theorem order_congr_right (is_integer : value.IsInteger word)
    (twin_integer : other.IsInteger word) (left : Value) (numeric : leftKind.isNumeric) :
    order operator left leftKind value .int = order operator left leftKind other .int := by
  have by_reals : realOrder operator left value = realOrder operator left other :=
    realOrder_congr_right is_integer twin_integer left
  cases leftKind with
  | int =>
      simp only [order, intOrder, is_integer.2, twin_integer.2]
      cases left.toInt64 with
      | ok => rfl
      | error => exact by_reals
  | float => exact by_reals
  | bool | date | string | array | map | unknown => cases numeric

theorem order_congr {twin : Value} (left_same : left.Interchangeable other)
    (right_same : right.Interchangeable twin) (left_kind : left.classify = .ok leftKind)
    (right_kind : right.classify = .ok rightKind) (agrees : leftKind.agrees rightKind) :
    order operator left leftKind right rightKind =
      order operator other leftKind twin rightKind := by
  have left_eq : order operator left leftKind right rightKind =
      order operator other leftKind right rightKind := by
    rcases left_same.eq_or_isInteger with rfl | ⟨word, is_integer, twin_integer⟩
    · rfl
    · cases left_kind.symm.trans is_integer.1
      exact order_congr_left is_integer twin_integer right rightKind
  rw [left_eq]
  rcases right_same.eq_or_isInteger with rfl | ⟨word, is_integer, twin_integer⟩
  · rfl
  · cases right_kind.symm.trans is_integer.1
    refine order_congr_right is_integer twin_integer other ?_
    cases leftKind with
    | int | float => rfl
    | bool | date | string | array | map | unknown => nomatch agrees

theorem equality_congr {twin : Value} (left_same : left.Interchangeable other)
    (right_same : right.Interchangeable twin) (left_kind : left.classify = .ok leftKind)
    (right_kind : right.classify = .ok rightKind) (agrees : leftKind.agrees rightKind) :
    equality operator left leftKind right rightKind =
      equality operator other leftKind twin rightKind := by
  have ordered : order operator left leftKind right rightKind =
      order operator other leftKind twin rightKind :=
    order_congr left_same right_same left_kind right_kind agrees
  cases leftKind with
  | int | float | date | string | unknown => simp only [equality, ordered]
  | bool | array | map =>
      -- values of these kinds are interchangeable only with themselves
      obtain rfl := Kind.eq_of_agrees agrees rfl
      rcases left_same.eq_or_isInteger with rfl | ⟨_, is_integer, -⟩
      · rcases right_same.eq_or_isInteger with rfl | ⟨_, is_integer, -⟩
        · rfl
        · cases right_kind.symm.trans is_integer.1
      · cases left_kind.symm.trans is_integer.1

theorem requireAgreement_eq_ok {found expected : Kind} {result : Unit} :
    requireAgreement found expected = .ok result ↔ found.agrees expected := by
  rw [requireAgreement]
  split <;> simp_all

theorem matched_congr {α : Type} {twin : Value} {step : Value → Kind → Value → Kind → Result α}
    (left_same : left.Interchangeable other) (right_same : right.Interchangeable twin)
    (step_eq : ∀ leftKind rightKind, left.classify = .ok leftKind →
      right.classify = .ok rightKind → leftKind.agrees rightKind →
        step left leftKind right rightKind = step other leftKind twin rightKind) :
    matched left right (step left · right ·) = matched other twin (step other · twin ·) := by
  simp only [matched, kindOf, ← left_same.classify_eq, ← right_same.classify_eq]
  refine bind_congr_of_ok fun leftKind left_kind => bind_congr_of_ok fun rightKind right_kind =>
    bind_congr_of_ok fun _ agreed => ?_
  exact step_eq leftKind rightKind (mapError_eq_ok.mp left_kind) (mapError_eq_ok.mp right_kind)
    (requireAgreement_eq_ok.mp agreed)

theorem among_congr {items others : List Value} (subject_same : value.Interchangeable other)
    (kind_eq : value.classify = .ok kind)
    (items_same : List.Forall₂ Interchangeable items others) :
    among operator value kind items = among operator other kind others := by
  induction items_same with
  | nil => rfl
  | cons item_same _ induction =>
      rw [among, among, kindOf, kindOf, ← item_same.classify_eq]
      refine bind_congr_of_ok fun itemKind item_kind => bind_congr_of_ok fun _ agreed => ?_
      rw [induction, equality_congr subject_same item_same kind_eq (mapError_eq_ok.mp item_kind)
        (requireAgreement_eq_ok.mp agreed)]

/-! ## Comparison of integers -/

theorem apply_congr [Engine] {twin : Value}
    (family : operator ∈ [Operator.greater, .atLeast, .less, .atMost, .equal, .different])
    (left_same : left.Interchangeable other) (right_same : right.Interchangeable twin) :
    apply operator left right = apply operator other twin := by
  have by_order : operator ∈ [Operator.greater, .atLeast, .less, .atMost] →
      apply operator left right = apply operator other twin := by
    intro relational
    rw [apply_of_relational relational, apply_of_relational relational]
    exact congrArg (Except.map _) (matched_congr left_same right_same fun _ _ =>
      order_congr left_same right_same)
  have equal : apply .equal left right = apply .equal other twin := by
    rw [apply_equal_eq_matched, apply_equal_eq_matched]
    exact matched_congr left_same right_same fun _ _ => equality_congr left_same right_same
  cases operator with
  | greater | atLeast | less | atMost => exact by_order (by decide)
  | equal => exact equal
  | different => rw [apply_different_eq, apply_different_eq, equal]
  | between | member | nonmember | contain | like | before | after | keyExist | valueExist =>
      exact absurd family (by decide)

theorem apply_array_congr [Engine] {items others : List Value}
    (family : operator ∈ [Operator.between, .member, .nonmember])
    (feature_same : value.Interchangeable other)
    (items_same : List.Forall₂ Interchangeable items others) :
    apply operator value (.array items) = apply operator other (.array others) := by
  simp only [apply, applyWith, kindOf, ← feature_same.classify_eq]
  refine bind_congr_of_ok fun kind found => ?_
  have kind_eq : value.classify = .ok kind := mapError_eq_ok.mp found
  have among_eq : ∀ operator, among operator value kind items = among operator other kind others :=
    fun operator => among_congr feature_same kind_eq items_same
  change applyKinds operator value kind (.array items) .array none =
    applyKinds operator other kind (.array others) .array none
  cases operator with
  | member => exact among_eq .member
  | nonmember =>
      change (among .nonmember value kind items >>= fun _ => _) =
        (among .nonmember other kind others >>= fun _ => _)
      rw [among_eq]
  | between =>
      -- only two bounds are compared; any other number of items is one fault
      rcases items_same with _ | ⟨low_same, _ | ⟨high_same, _ | _⟩⟩
      case cons.cons.nil low low' high high' =>
        change (kindOf low >>= fun _ => kindOf high >>= fun _ => _) =
          (kindOf low' >>= fun _ => kindOf high' >>= fun _ => _)
        simp only [kindOf, ← low_same.classify_eq, ← high_same.classify_eq]
        refine bind_congr_of_ok fun lowKind low_kind => bind_congr_of_ok fun highKind high_kind =>
          bind_congr_of_ok fun _ low_agreed => bind_congr_of_ok fun _ high_agreed => ?_
        rw [order_congr feature_same low_same kind_eq (mapError_eq_ok.mp low_kind)
            (requireAgreement_eq_ok.mp low_agreed),
          order_congr feature_same high_same kind_eq (mapError_eq_ok.mp high_kind)
            (requireAgreement_eq_ok.mp high_agreed)]
      all_goals rfl
  | greater | atLeast | less | atMost | equal | different | contain | like | before | after
  | keyExist | valueExist =>
      exact absurd family (by decide)

/-- The relational operators compare the integers that two values write. -/
structure ComparesExactly [Engine] (left right : Value) (m n : Int) : Prop where
  greater : apply .greater left right = .ok (decide (n < m))
  atLeast : apply .atLeast left right = .ok (decide (n ≤ m))
  less : apply .less left right = .ok (decide (m < n))
  atMost : apply .atMost left right = .ok (decide (m ≤ n))
  equal : apply .equal left right = .ok (decide (m = n))
  different : apply .different left right = .ok (decide (m ≠ n))

theorem comparesExactly_of_denotes [Engine] {m n : Int} (left_denotes : left.Denotes m)
    (right_denotes : right.Denotes n) : ComparesExactly left right m n := by
  obtain ⟨first, left_exact, rfl⟩ := denotes_iff.mp left_denotes
  obtain ⟨second, right_exact, rfl⟩ := denotes_iff.mp right_denotes
  have compared : left.compare? right = some (compare first.toInt second.toInt) :=
    compare?_eq_some (standing?_of_isInteger left_exact) (standing?_of_isInteger right_exact)
  obtain ⟨less, equal, greater, atLeast, different, atMost⟩ := ordered_of_compare? compared
  have test_eq : ∀ {test : Bool} {holds : Prop} [Decidable holds], (test = true ↔ holds) →
      Except.ok test = (.ok (decide holds) : Result Bool) := by
    intro test holds _ test_iff
    rw [Except.ok.injEq, Bool.eq_iff_iff, test_iff, decide_eq_true_iff]
  constructor
  case greater => exact greater.trans (test_eq (by simp [compare_gt_iff_gt]))
  case atLeast => exact atLeast.trans (test_eq (by simp [compare_lt_iff_lt]))
  case less => exact less.trans (test_eq (by simp [compare_lt_iff_lt]))
  case atMost => exact atMost.trans (test_eq (by simp [compare_gt_iff_gt]))
  case equal => exact equal.trans (test_eq (by simp))
  case different => exact different.trans (test_eq (by simp))

/-- Values that write integers of 64 bits are compared as these integers, and a value may be
written in another way as an operand, a bound or an item. -/
theorem exact_on_integers [Engine] :
    (∀ (value : Value) (n : Int), value.Denotes n ↔
      ∃ word, value.classify = .ok .int ∧ value.toInt64 = .ok word ∧ word.toInt = n) ∧
    (∀ (left right : Value) (m n : Int), left.Denotes m → right.Denotes n →
      ComparesExactly left right m n) ∧
    (∀ operator ∈ [Operator.greater, .atLeast, .less, .atMost, .equal, .different],
      ∀ left other right twin : Value, left.Interchangeable other → right.Interchangeable twin →
        apply operator left right = apply operator other twin) ∧
    ∀ operator ∈ [Operator.between, .member, .nonmember],
      ∀ (value other : Value) (items others : List Value), value.Interchangeable other →
        List.Forall₂ Interchangeable items others →
          apply operator value (.array items) = apply operator other (.array others) := by
  refine ⟨fun value n => ?_, fun left right m n => comparesExactly_of_denotes,
    fun operator family left other right twin => apply_congr family,
    fun operator family value other items others => apply_array_congr family⟩
  simp only [denotes_iff, IsInteger, and_assoc]

section

open scoped Engine.Plain

/-- The neighbours `2 ^ 53` and `2 ^ 53 + 1`, of which the latter is no real. -/
theorem exact_on_integers_neighbours :
    let even : Value := .real (Binary64.ofInt 9007199254740992)
    let evenText : Value := .text "9007199254740992"
    let odd : Value := .int 9007199254740993
    let oddText : Value := .text "009007199254740993"
    (oddText.Denotes 9007199254740993 ↔
      ∃ word, oddText.classify = .ok .int ∧ oddText.toInt64 = .ok word ∧
        word.toInt = 9007199254740993) ∧
    oddText.Denotes 9007199254740993 ∧ even.Denotes 9007199254740992 ∧
      ComparesExactly oddText even 9007199254740993 9007199254740992 ∧
    Interchangeable odd oddText ∧ Interchangeable even evenText ∧
      Operator.less ∈ [Operator.greater, .atLeast, .less, .atMost, .equal, .different] ∧
      apply .less odd even = apply .less oddText evenText ∧
    Operator.between ∈ [Operator.between, .member, .nonmember] ∧
      List.Forall₂ Interchangeable [even, odd] [evenText, oddText] ∧
      apply .between odd (.array [even, odd]) =
        apply .between oddText (.array [evenText, oddText]) := by
  intro even evenText odd oddText
  have even_denotes : even.Denotes 9007199254740992 :=
    denotes_iff.mpr ⟨9007199254740992, ⟨by decide +kernel, by decide +kernel⟩, by decide⟩
  have evenText_denotes : evenText.Denotes 9007199254740992 :=
    denotes_iff.mpr ⟨9007199254740992, ⟨by decide +kernel, by decide +kernel⟩, by decide⟩
  have odd_denotes : odd.Denotes 9007199254740993 := .int 9007199254740993
  have oddText_denotes : oddText.Denotes 9007199254740993 :=
    denotes_iff.mpr ⟨9007199254740993, ⟨by decide +kernel, by decide +kernel⟩, by decide⟩
  have odd_same : odd.Interchangeable oddText := Or.inr ⟨_, odd_denotes, oddText_denotes⟩
  have even_same : even.Interchangeable evenText := Or.inr ⟨_, even_denotes, evenText_denotes⟩
  have bounds_same : List.Forall₂ Interchangeable [even, odd] [evenText, oddText] :=
    .cons even_same (.cons odd_same .nil)
  exact ⟨exact_on_integers.1 _ _, oddText_denotes, even_denotes,
    exact_on_integers.2.1 _ _ _ _ oddText_denotes even_denotes, odd_same, even_same, by decide,
    exact_on_integers.2.2.1 .less (by decide) _ _ _ _ odd_same even_same, by decide, bounds_same,
    exact_on_integers.2.2.2 .between (by decide) _ _ _ _ odd_same bounds_same⟩

end

end Comparison
end RiskGraph

import RiskGraph.Comparison.Basic
import RiskGraph.Proofs.DigitText
import RiskGraph.Proofs.Fallible
import RiskGraph.Proofs.Rounding

/-!
# What values stand for in a comparison

An order relation between values is decided by what each of them stands for on its own: an integer
of 64 bits, the rank of another number, a moment or a text.  The fault of a comparison apart, this
says all about the relational operators.
-/

namespace RiskGraph

/-- What a value stands for when it is ordered. -/
inductive Standing where
  /-- An integer of 64 bits. -/
  | integer (n : Int)
  /-- Another number, by its rank among the reals. -/
  | real (rank : Int)
  | moment (moment : Moment)
  | text (content : String)

namespace Standing

/-- The rank of a number among the reals. -/
def rank? : Standing → Option Int
  | integer n => some (Binary64.rankOfInt n)
  | real rank => some rank
  | moment _ | text _ => none

/-- Order of two standings of one sort; numbers are ordered by their ranks unless both are integers
of 64 bits. -/
def compare? : Standing → Standing → Option Ordering
  | integer m, integer n => some (compare m n)
  | integer m, real q => some (compare (Binary64.rankOfInt m) q)
  | real p, integer n => some (compare p (Binary64.rankOfInt n))
  | real p, real q => some (compare p q)
  | moment s, moment t => some (s.compare t)
  | text s, text t => some (compare s t)
  | _, _ => none

end Standing

namespace Value

variable {value : Value} {word : Int64}

/-- A value is compared as an integer of 64 bits. -/
def IsInteger (value : Value) (word : Int64) : Prop :=
  value.classify = .ok .int ∧ value.toInt64 = .ok word

/-- The rank of the real nearest to a value. -/
def rank? (value : Value) : Option Int :=
  value.toReal.toOption.bind Binary64.rank?

/-- What a value stands for. -/
def standing? (value : Value) : Option Standing :=
  match value.classify with
  | .ok .int =>
      match value.toInt64 with
      | .ok word => some (.integer word.toInt)
      | .error _ => value.rank?.map .real
  | .ok .float => value.rank?.map .real
  | .ok .date => value.toMoment.toOption.map .moment
  | .ok .string => value.toText.toOption.map .text
  | _ => none

/-- Order of two values, if both stand for something of one sort. -/
def compare? (left right : Value) : Option Ordering :=
  left.standing?.bind fun standing => right.standing?.bind standing.compare?

theorem isDigitRow_of_classify {content : String} (kind_eq : (text content).classify = .ok .int) :
    isDigitRow content.toList := by
  simp only [classify, Kind.ofText, Except.ok.injEq] at kind_eq
  split_ifs at kind_eq with row
  exact row

theorem truncate?_of_integer? {x : Binary64} {n : Int} (integral : x.integer? = some n) :
    x.truncate? = some n := by
  cases x with
  | nan | infinite => nomatch integral
  | finite negative units =>
      simp only [Binary64.integer?, Option.ite_none_right_eq_some] at integral
      exact integral.2

theorem orFault_eq_ok_iff {α : Type} {target : Kind} {found : Option α} {result : α} :
    value.orFault target found = .ok result ↔ found = some result := by
  cases found <;> simp [orFault, fault]

theorem rank?_of_toReal {x : Binary64} (read : value.toReal = .ok x) :
    value.rank? = x.rank? := by
  rw [rank?, read, Except.toOption, Option.bind_some]

theorem isInteger_real_iff {x : Binary64} :
    (real x).IsInteger word ↔ x.integer?.bind toInt64? = some word := by
  constructor
  · rintro ⟨kind_eq, read⟩
    have integral : (exactInt64? x).isSome = true := by
      by_contra fractional
      simp [classify, fractional] at kind_eq
    obtain ⟨exact_word, exact_eq⟩ := Option.isSome_iff_exists.mp integral
    obtain ⟨m, integer_eq, fits⟩ := Option.bind_eq_some_iff.mp exact_eq
    rw [toInt64, orFault_eq_ok_iff, truncate?_of_integer? integer_eq, Option.bind_some] at read
    rw [integer_eq, Option.bind_some, read]
  · intro exact_eq
    obtain ⟨m, integer_eq, fits⟩ := Option.bind_eq_some_iff.mp exact_eq
    have integral : (exactInt64? x).isSome = true := by rw [exactInt64?, exact_eq]; rfl
    refine ⟨by simp [classify, integral], ?_⟩
    rw [toInt64, orFault_eq_ok_iff, truncate?_of_integer? integer_eq, Option.bind_some, fits]

/-- A value that is compared as an integer has the rank of that integer, however it is written. -/
theorem IsInteger.rank?_eq (is_integer : value.IsInteger word) :
    value.rank? = some (Binary64.rankOfInt word.toInt) := by
  obtain ⟨kind_eq, read⟩ := is_integer
  cases value with
  | int n =>
      cases read
      have real_read : (int word).toReal = .ok (Binary64.ofInt word.toInt) := rfl
      rw [rank?_of_toReal real_read, Binary64.rank?_ofInt]
  | real x =>
      obtain ⟨n, integer_eq, fits⟩ :=
        Option.bind_eq_some_iff.mp (isInteger_real_iff.mp ⟨kind_eq, read⟩)
      have real_read : (real x).toReal = .ok x := rfl
      rw [rank?_of_toReal real_read, Binary64.rank?_of_integer? integer_eq,
        toInt_of_toInt64? fits]
  | text content =>
      rw [toInt64, orFault_eq_ok_iff] at read
      have nearest := readBinary64?_of_readInt64? (isDigitRow_of_classify kind_eq) read
      have real_read : (text content).toReal = .ok (Binary64.ofInt word.toInt) :=
        orFault_eq_ok_iff.mpr nearest
      rw [rank?_of_toReal real_read, Binary64.rank?_ofInt]
  | bool | date | array | map => nomatch kind_eq
  | null => nomatch kind_eq

/-! ## Standings -/

theorem standing?_of_isInteger (is_integer : value.IsInteger word) :
    value.standing? = some (.integer word.toInt) := by
  rw [standing?, is_integer.1]
  simp only [is_integer.2]

theorem standing?_of_isNumeric {kind : Kind} (kind_eq : value.classify = .ok kind)
    (numeric : kind.isNumeric) (inexact : ∀ word, ¬value.IsInteger word) :
    value.standing? = value.rank?.map .real := by
  rw [standing?, kind_eq]
  cases kind with
  | int =>
      cases read : value.toInt64 with
      | ok word => exact absurd ⟨kind_eq, read⟩ (inexact word)
      | error => rfl
  | float => rfl
  | bool | date | string | array | map | unknown => nomatch numeric

end Value

/-! ## Order -/

/-- Values of a kind are ordered. -/
def Kind.isOrdered : Kind → Bool
  | int | float | date | string => true
  | bool | array | map | unknown => false

theorem Value.isOrdered_of_standing? {value : Value} {kind : Kind} {standing : Standing}
    (kind_eq : value.classify = .ok kind) (stands : value.standing? = some standing) :
    kind.isOrdered := by
  rw [standing?, kind_eq] at stands
  cases kind with
  | int | float | date | string => rfl
  | bool | array | map | unknown => nomatch stands

theorem Value.compare?_of_unordered {left right : Value} {kind : Kind}
    (kind_eq : left.classify = .ok kind) (unordered : kind.isOrdered = false) :
    left.compare? right = none := by
  cases stands : left.standing? with
  | none => rw [compare?, stands, Option.bind_none]
  | some standing =>
      rw [isOrdered_of_standing? kind_eq stands] at unordered
      nomatch unordered

namespace Comparison

variable {operator : Operator} {left right : Value} {leftKind rightKind : Kind}

theorem toOption_realOrder (operator : Operator) (left right : Value) :
    (realOrder operator left right).toOption =
      left.rank?.bind fun p => right.rank?.map fun q => compare p q := by
  simp only [realOrder, toOption_bind, reading, toOption_mapError, Value.rank?]
  cases left.toReal with
  | error => rfl
  | ok x =>
      cases right.toReal with
      | error => simp [Except.toOption]
      | ok y =>
          simp only [Except.toOption, Option.bind_some, ← Binary64.compare?_eq]
          cases x.compare? y <;> rfl

/-- Numbers that are not both integers of 64 bits are ordered as reals. -/
theorem toOption_realOrder_eq_compare? (left_kind : left.classify = .ok leftKind)
    (right_kind : right.classify = .ok rightKind) (left_numeric : leftKind.isNumeric)
    (right_numeric : rightKind.isNumeric)
    (not_both : ∀ m n, left.IsInteger m → ¬right.IsInteger n) :
    (realOrder operator left right).toOption = left.compare? right := by
  rw [toOption_realOrder, Value.compare?]
  by_cases left_exact : ∃ m, left.IsInteger m
  · obtain ⟨m, left_exact⟩ := left_exact
    rw [Value.standing?_of_isInteger left_exact, left_exact.rank?_eq,
      Value.standing?_of_isNumeric right_kind right_numeric fun n => not_both m n left_exact]
    cases right.rank? <;> rfl
  · rw [Value.standing?_of_isNumeric left_kind left_numeric (not_exists.mp left_exact)]
    by_cases right_exact : ∃ n, right.IsInteger n
    · obtain ⟨n, right_exact⟩ := right_exact
      rw [Value.standing?_of_isInteger right_exact, right_exact.rank?_eq]
      cases left.rank? <;> rfl
    · rw [Value.standing?_of_isNumeric right_kind right_numeric (not_exists.mp right_exact)]
      cases left.rank? <;> cases right.rank? <;> rfl

theorem toOption_intOrder (left_kind : left.classify = .ok .int)
    (right_kind : right.classify = .ok .int) :
    (intOrder operator left right).toOption = left.compare? right := by
  unfold intOrder
  split
  · next m n left_read right_read =>
      rw [Value.compare?, Value.standing?_of_isInteger ⟨left_kind, left_read⟩,
        Value.standing?_of_isInteger ⟨right_kind, right_read⟩]
      rfl
  · next inexact =>
      refine toOption_realOrder_eq_compare? left_kind right_kind rfl rfl ?_
      rintro m n ⟨-, left_read⟩ ⟨-, right_read⟩
      exact inexact m n left_read right_read

theorem toOption_order (left_kind : left.classify = .ok leftKind)
    (right_kind : right.classify = .ok rightKind) (agrees : leftKind.agrees rightKind) :
    (order operator left leftKind right rightKind).toOption = left.compare? right := by
  -- a float is never compared as an integer
  have inexact : ∀ {value : Value} {word}, value.classify = .ok .float → ¬value.IsInteger word :=
    fun float is_integer => nomatch float.symm.trans is_integer.1
  cases leftKind with
  | int =>
      cases rightKind with
      | int => exact toOption_intOrder left_kind right_kind
      | float =>
          exact toOption_realOrder_eq_compare? left_kind right_kind rfl rfl
            fun _ _ _ => inexact right_kind
      | bool | date | string | array | map | unknown => nomatch agrees
  | float =>
      cases rightKind with
      | int | float =>
          exact toOption_realOrder_eq_compare? left_kind right_kind rfl rfl
            fun _ _ left_exact => absurd left_exact (inexact left_kind)
      | bool | date | string | array | map | unknown => nomatch agrees
  | date =>
      cases rightKind with
      | date =>
          simp only [order, toOption_bind, reading, toOption_mapError, Value.compare?,
            Value.standing?, left_kind, right_kind]
          cases left.toMoment <;> cases right.toMoment <;> rfl
      | int | float | bool | string | array | map | unknown => nomatch agrees
  | string =>
      cases rightKind with
      | string =>
          simp only [order, toOption_bind, reading, toOption_mapError, Value.compare?,
            Value.standing?, left_kind, right_kind]
          cases left.toText <;> cases right.toText <;> rfl
      | int | float | bool | date | array | map | unknown => nomatch agrees
  | bool | array | map | unknown =>
      rw [Value.compare?_of_unordered left_kind rfl]
      rfl

end Comparison

/-- A standing is one of a value of a kind. -/
def Standing.Suits : Standing → Kind → Prop
  | integer _, kind | real _, kind => kind.isNumeric
  | moment _, kind => kind = .date
  | text _, kind => kind = .string

theorem Value.suits_of_standing? {value : Value} {kind : Kind} {standing : Standing}
    (kind_eq : value.classify = .ok kind) (stands : value.standing? = some standing) :
    standing.Suits kind := by
  rw [standing?, kind_eq] at stands
  cases kind with
  | int =>
      cases read : value.toInt64 with
      | ok word =>
          simp only [read] at stands
          cases stands
          rfl
      | error =>
          simp only [read] at stands
          obtain ⟨_, -, rfl⟩ := Option.map_eq_some_iff.mp stands
          rfl
  | float | date | string =>
      obtain ⟨_, -, rfl⟩ := Option.map_eq_some_iff.mp stands
      rfl
  | bool | array | map | unknown => nomatch stands

theorem Value.exists_kind_of_standing? {value : Value} {standing : Standing}
    (stands : value.standing? = some standing) : ∃ kind, value.classify = .ok kind := by
  cases kind_eq : value.classify with
  | ok kind => exact ⟨kind, rfl⟩
  | error =>
      rw [standing?, kind_eq] at stands
      nomatch stands

/-- Only values of kinds that match are ordered. -/
theorem Value.agrees_of_compare? {left right : Value} {leftKind rightKind : Kind}
    {ordering : Ordering} (left_kind : left.classify = .ok leftKind)
    (right_kind : right.classify = .ok rightKind)
    (compared : left.compare? right = some ordering) : leftKind.agrees rightKind := by
  obtain ⟨s, left_stands, compared⟩ := Option.bind_eq_some_iff.mp compared
  obtain ⟨t, right_stands, compared⟩ := Option.bind_eq_some_iff.mp compared
  have left_suits := suits_of_standing? left_kind left_stands
  have right_suits := suits_of_standing? right_kind right_stands
  have numeric : leftKind.isNumeric → rightKind.isNumeric → leftKind.agrees rightKind := by
    intro left_numeric right_numeric
    simp [Kind.agrees, left_numeric, right_numeric]
  cases s with
  | integer | real =>
      cases t with
      | integer | real => exact numeric left_suits right_suits
      | moment | text => nomatch compared
  | moment =>
      cases t with
      | moment =>
          cases left_suits
          cases right_suits
          rfl
      | integer | real | text => nomatch compared
  | text =>
      cases t with
      | text =>
          cases left_suits
          cases right_suits
          rfl
      | integer | real | moment => nomatch compared

namespace Comparison

variable {operator : Operator} {left right : Value}

/-- A relational operator tests the order of two values, if they have one. -/
theorem toOption_apply_of_relational [Engine]
    (relational : operator ∈ [Operator.greater, .atLeast, .less, .atMost]) :
    (apply operator left right).toOption = (left.compare? right).map (satisfies operator) := by
  rw [apply, applyWith, toOption_bind, kindOf, reading, toOption_mapError]
  cases left_kind : left.classify with
  | error => simp [Except.toOption, Value.compare?, Value.standing?, left_kind]
  | ok leftKind =>
      rw [Except.toOption, Option.bind_some, toOption_bind, kindOf, reading, toOption_mapError]
      cases right_kind : right.classify with
      | error => simp [Except.toOption, Value.compare?, Value.standing?, right_kind]
      | ok rightKind =>
          have tested : applyKinds operator left leftKind right rightKind none = (do
              requireAgreement leftKind rightKind
              let ordering ← order operator left leftKind right rightKind
              .ok (satisfies operator ordering)) := by
            simp only [List.mem_cons, List.not_mem_nil, or_false] at relational
            rcases relational with rfl | rfl | rfl | rfl <;> rfl
          rw [Except.toOption, Option.bind_some, tested, toOption_bind, requireAgreement]
          by_cases agrees : leftKind.agrees rightKind
          · rw [if_pos agrees, Except.toOption, Option.bind_some, toOption_bind,
              toOption_order left_kind right_kind agrees]
            cases left.compare? right <;> rfl
          · have incomparable : left.compare? right = none := by
              rw [Option.eq_none_iff_forall_not_mem]
              intro ordering compared
              exact agrees (Value.agrees_of_compare? left_kind right_kind compared)
            rw [if_neg agrees, incomparable]
            rfl

end Comparison
end RiskGraph

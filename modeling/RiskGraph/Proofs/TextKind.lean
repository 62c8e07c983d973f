import Mathlib.Data.List.Perm.Basic
import RiskGraph.Proofs.DigitExpression
import RiskGraph.Proofs.MomentText

/-!
# Kinds of texts

A text writes a number, a truth value or the shape of a moment, or none of these.  No text is of two
of these shapes, so that a text is of the same kind in whatever order they are tried.
-/

namespace RiskGraph

variable {kind other : Kind}

section

variable {text : List Char}

/-! ## Shapes -/

/-- The shape of a day, in digits of any scripts. -/
inductive IsDayShape : List Char → Prop
  | day {year month day : List Char} (year_digits : IsRowOf 4 year)
      (month_digits : IsRowOf 2 month) (day_digits : IsRowOf 2 day) :
      IsDayShape (year ++ '-' :: month ++ '-' :: day)

/-- The shape of a time of the day, in digits of any scripts. -/
inductive IsTimeShape : List Char → Prop
  | time {hour minute second : List Char} (hour_digits : IsRowOf 2 hour)
      (minute_digits : IsRowOf 2 minute) (second_digits : IsRowOf 2 second) :
      IsTimeShape (hour ++ ':' :: minute ++ ':' :: second)

/-- A text has a shape that only texts of a kind have. -/
inductive Shaped : Kind → List Char → Prop
  | row {row : List Char} (digits : IsRow row) : Shaped .int row
  | pointed {whole fraction : List Char} (whole_digits : IsRow whole)
      (fraction_digits : IsRow fraction) : Shaped .float (whole ++ '.' :: fraction)
  | truth {text : List Char} (named : text = "true".toList ∨ text = "false".toList) :
      Shaped .bool text
  | day {day : List Char} (shape : IsDayShape day) : Shaped .date day
  | daytime {day time : List Char} (shape : IsDayShape day) (time_shape : IsTimeShape time) :
      Shaped .date (day ++ ' ' :: time)

/-- The character that tells the texts of a kind from those of others. -/
def Kind.mark? : Kind → Option Char
  | float => some '.'
  | bool => some 'e'
  | date => some '-'
  | _ => none

theorem not_mem_of_digits {row : List Char} {c : Char} (digits : ∀ c ∈ row, isDecimalDigit c)
    (no_digit : isDecimalDigit c = false) : c ∉ row := by
  intro member
  rw [digits c member] at no_digit
  cases no_digit

theorem IsDayShape.mem_iff {c : Char} (shape : IsDayShape text)
    (no_digit : isDecimalDigit c = false) : c ∈ text ↔ c = '-' := by
  cases shape with
  | day year_digits month_digits day_digits =>
      simp [not_mem_of_digits year_digits.digits no_digit,
        not_mem_of_digits month_digits.digits no_digit,
        not_mem_of_digits day_digits.digits no_digit]

theorem IsTimeShape.mem_iff {c : Char} (shape : IsTimeShape text)
    (no_digit : isDecimalDigit c = false) : c ∈ text ↔ c = ':' := by
  cases shape with
  | time hour_digits minute_digits second_digits =>
      simp [not_mem_of_digits hour_digits.digits no_digit,
        not_mem_of_digits minute_digits.digits no_digit,
        not_mem_of_digits second_digits.digits no_digit]

/-- Of the marks of all kinds, a text has that of its own kind only. -/
theorem Shaped.mem_iff_mark? {c : Char} (shape : Shaped kind text)
    (mark : c = '.' ∨ c = 'e' ∨ c = '-') : c ∈ text ↔ kind.mark? = some c := by
  have no_digit : isDecimalDigit c = false := by
    rcases mark with rfl | rfl | rfl <;> decide +kernel
  cases shape with
  | row digits => simp [not_mem_of_digits digits.digits no_digit, Kind.mark?]
  | pointed whole_digits fraction_digits =>
      simp [not_mem_of_digits whole_digits.digits no_digit,
        not_mem_of_digits fraction_digits.digits no_digit, Kind.mark?, eq_comm]
  | truth named =>
      rcases named with rfl | rfl <;> rcases mark with rfl | rfl | rfl <;> decide
  | day shape => simp [shape.mem_iff no_digit, Kind.mark?, eq_comm]
  | daytime shape time_shape =>
      have no_separator : c ≠ ' ' ∧ c ≠ ':' := by
        rcases mark with rfl | rfl | rfl <;> decide
      simp [shape.mem_iff no_digit, time_shape.mem_iff no_digit, Kind.mark?, no_separator, eq_comm]

theorem Kind.eq_of_mark? {c : Char} (marked : kind.mark? = some c) :
    c = '.' ∨ c = 'e' ∨ c = '-' := by
  cases kind with
  | float | bool | date =>
      cases marked
      decide
  | int | string | array | map | unknown => cases marked

theorem Shaped.kind_mem (shape : Shaped kind text) : kind ∈ [Kind.int, .float, .bool, .date] := by
  cases shape <;> decide

theorem Shaped.mark?_of_mark? {c : Char} (shape : Shaped kind text)
    (other_shape : Shaped other text) (marked : kind.mark? = some c) : other.mark? = some c := by
  have mark := Kind.eq_of_mark? marked
  exact (other_shape.mem_iff_mark? mark).mp ((shape.mem_iff_mark? mark).mpr marked)

/-- No text has the shapes of two kinds. -/
theorem Shaped.kind_eq (shape : Shaped kind text) (other_shape : Shaped other text) :
    kind = other := by
  have mark_eq : kind.mark? = other.mark? :=
    Option.ext fun _ => ⟨shape.mark?_of_mark? other_shape, other_shape.mark?_of_mark? shape⟩
  have told_apart : ∀ kind ∈ [Kind.int, .float, .bool, .date],
      ∀ other ∈ [Kind.int, .float, .bool, .date], kind.mark? = other.mark? → kind = other := by
    decide
  exact told_apart kind shape.kind_mem other other_shape.kind_mem mark_eq

/-! ## Expressions -/

namespace Engine

variable {part : Part} {parts : List Part}

theorem shaped_int_iff_cut : Shaped .int text ↔ Cut intParts text := by
  constructor
  · rintro ⟨digits⟩
    exact ⟨text, [], digits, rfl, List.append_nil text⟩
  · rintro ⟨row, _, digits, rfl, rfl⟩
    rw [List.append_nil]
    exact .row digits

theorem shaped_float_iff_cut : Shaped .float text ↔ Cut floatParts text := by
  constructor
  · intro shape
    cases shape with
    | @pointed whole fraction whole_digits fraction_digits =>
        exact ⟨whole, _, whole_digits, ⟨['.'], fraction, rfl,
          ⟨fraction, [], fraction_digits, rfl, List.append_nil fraction⟩, rfl⟩, rfl⟩
  · rintro ⟨whole, _, whole_digits, ⟨_, _, rfl, ⟨fraction, _, fraction_digits, rfl, rfl⟩, rfl⟩, rfl⟩
    rw [List.append_nil]
    exact .pointed whole_digits fraction_digits

theorem isDayShape_iff_cut : IsDayShape text ↔ Cut dayParts text := by
  rw [dayParts, Cut]
  simp only [cut_marked_iff]
  constructor
  · rintro ⟨year_digits, month_digits, day_digits⟩
    exact ⟨_, _, year_digits, ⟨_, _, month_digits, ⟨_, _, day_digits, rfl, rfl⟩, rfl⟩, by simp⟩
  · rintro ⟨year, _, year_digits,
      ⟨month, _, month_digits, ⟨day, _, day_digits, rfl, rfl⟩, rfl⟩, rfl⟩
    simpa using IsDayShape.day year_digits month_digits day_digits

theorem exists_isTimeShape_iff_cut :
    (∃ time, IsTimeShape time ∧ ' ' :: time = text) ↔ Cut timeParts text := by
  simp only [timeParts, cut_marked_iff]
  constructor
  · rintro ⟨_, ⟨hour_digits, minute_digits, second_digits⟩, rfl⟩
    exact ⟨_, _, hour_digits, ⟨_, _, minute_digits, ⟨_, _, second_digits, rfl, rfl⟩, rfl⟩, by simp⟩
  · rintro ⟨hour, _, hour_digits, ⟨minute, _, minute_digits,
      ⟨second, _, second_digits, rfl, rfl⟩, rfl⟩, rfl⟩
    exact ⟨_, .time hour_digits minute_digits second_digits, by simp⟩

theorem shaped_date_iff_cut :
    Shaped .date text ↔ Cut dayParts text ∨ Cut (dayParts ++ timeParts) text := by
  simp only [cut_append_iff, ← isDayShape_iff_cut, ← exists_isTimeShape_iff_cut]
  constructor
  · intro shape
    cases shape with
    | day shape => exact .inl shape
    | daytime shape time_shape => exact .inr ⟨_, _, shape, ⟨_, time_shape, rfl⟩, rfl⟩
  · rintro (shape | ⟨day, _, shape, ⟨time, time_shape, rfl⟩, rfl⟩)
    · exact .day shape
    · exact .daytime shape time_shape

/-- The parts that take texts of one shape only. -/
def Part.isFixed : Part → Bool
  | literal c => !isDecimalDigit c
  | row => false
  | digits _ => true

/-- The shape of the texts that a part takes, if they are all of one. -/
def Part.shape : Part → List Char
  | literal c => [c]
  | row => []
  | digits width => List.replicate width '0'

theorem Part.takes_iff_shapeOf_eq (fixed : part.isFixed) {row : List Char} :
    part.Takes row ↔ shapeOf isDecimalDigit row = part.shape := by
  cases part with
  | literal c =>
      have no_digit : isDecimalDigit c = false := by simpa [isFixed] using fixed
      constructor
      · rintro rfl
        exact shapeOf_of_plain (List.forall_mem_singleton.mpr no_digit)
      · exact eq_mark_of_shapeOf_eq (by simpa [shape] using no_digit)
  | row => cases fixed
  | digits width =>
      rw [shape, shapeOf_eq_replicate_iff (by decide +kernel)]
      exact ⟨fun digits => ⟨digits.length_eq, digits.digits⟩, fun digits => ⟨digits.1, digits.2⟩⟩

theorem cut_iff_shapeOf_eq (fixed : parts.all Part.isFixed) :
    Cut parts text ↔ shapeOf isDecimalDigit text = parts.flatMap Part.shape := by
  induction parts generalizing text with
  | nil => exact List.map_eq_nil_iff.symm
  | cons part parts induction =>
      obtain ⟨part_fixed, parts_fixed⟩ := Bool.and_eq_true_iff.mp fixed
      rw [List.flatMap_cons, shapeOf, List.map_eq_append_iff]
      simp only [Cut, induction parts_fixed, part.takes_iff_shapeOf_eq part_fixed, shapeOf]
      constructor
      · rintro ⟨row, rest, row_shape, rest_shape, rfl⟩
        exact ⟨row, rest, rfl, row_shape, rest_shape⟩
      · rintro ⟨row, rest, rfl, row_shape, rest_shape⟩
        exact ⟨row, rest, row_shape, rest_shape, rfl⟩

/-- The tests of an engine hold of the texts that have the shapes of the kinds. -/
theorem Tests.iff_shaped {engine : Engine} (tests : engine.Tests)
    (documented : engine.DocumentedDigits) :
    (tests.int text ↔ Shaped .int text) ∧ (tests.float text ↔ Shaped .float text) ∧
      (tests.day text ∨ tests.daytime text ↔ Shaped .date text) := by
  have day_iff : tests.day text ↔ Cut dayParts text :=
    finds_anchored_iff documented tests.day_compiled
  have daytime_iff : tests.daytime text ↔ Cut (dayParts ++ timeParts) text :=
    finds_anchored_iff documented tests.daytime_compiled
  rw [shaped_int_iff_cut, shaped_float_iff_cut, shaped_date_iff_cut, day_iff, daytime_iff]
  exact ⟨finds_anchored_iff documented tests.int_compiled,
    finds_anchored_iff documented tests.float_compiled, Iff.rfl⟩

theorem flatMap_shape_dayParts : dayParts.flatMap Part.shape = dayShape := by
  decide

theorem flatMap_shape_daytimeParts : (dayParts ++ timeParts).flatMap Part.shape = daytimeShape := by
  decide

end Engine

/-! ## Tests -/

theorem isDigitRow_iff_isRow : isDigitRow text ↔ IsRow text := by
  rw [isDigitRow_iff]
  exact ⟨fun row => ⟨row.1, row.2⟩, fun row => ⟨row.nonempty, row.digits⟩⟩

theorem isDigitRow_iff_shaped : isDigitRow text ↔ Shaped .int text := by
  rw [isDigitRow_iff_isRow]
  constructor
  · exact .row
  · rintro ⟨digits⟩
    exact digits

theorem isPointedRow_iff_shaped : isPointedRow text ↔ Shaped .float text := by
  constructor
  · intro pointed
    obtain ⟨whole, fraction, rfl, whole_row, fraction_row⟩ := exists_of_isPointedRow pointed
    exact .pointed (isDigitRow_iff_isRow.mp whole_row) (isDigitRow_iff_isRow.mp fraction_row)
  · intro shape
    cases shape with
    | pointed whole_digits fraction_digits =>
        have no_digit : ¬isDecimalDigit '.' := by decide +kernel
        rw [isPointedRow, List.dropWhile_append_of_pos whole_digits.digits,
          List.dropWhile_cons_of_neg no_digit, List.takeWhile_append_of_pos whole_digits.digits,
          List.takeWhile_cons_of_neg no_digit, List.append_nil]
        exact Bool.and_eq_true_iff.mpr ⟨isDigitRow_iff_isRow.mpr whole_digits,
          isDigitRow_iff_isRow.mpr fraction_digits⟩

theorem hasMomentShape_iff_shaped : hasMomentShape text ↔ Shaped .date text := by
  rw [Engine.shaped_date_iff_cut, Engine.cut_iff_shapeOf_eq (by decide +kernel),
    Engine.cut_iff_shapeOf_eq (by decide +kernel), Engine.flatMap_shape_dayParts,
    Engine.flatMap_shape_daytimeParts]
  simp [hasMomentShape]

end

namespace Kind

/-- The test for the texts of a kind; only four kinds have one. -/
def admits : Kind → String → Bool
  | int, text => isDigitRow text.toList
  | float, text => isPointedRow text.toList
  | bool, text => text = "true" ∨ text = "false"
  | date, text => hasMomentShape text.toList
  | _, _ => false

/-- The kind of a text if the tests of some kinds are tried in their order. -/
def firstOf : List Kind → String → Kind
  | [], _ => string
  | kind :: order, text => if kind.admits text then kind else firstOf order text

theorem admits_iff_shaped {text : String} : kind.admits text ↔ Shaped kind text.toList := by
  cases kind with
  | int => exact isDigitRow_iff_shaped
  | float => exact isPointedRow_iff_shaped
  | bool =>
      have named_iff : Shaped .bool text.toList ↔ text = "true" ∨ text = "false" := by
        rw [← String.toList_inj, ← String.toList_inj]
        constructor
        · intro shape
          cases shape with
          | truth named => exact named
        · exact .truth
      rw [named_iff, admits, decide_eq_true_iff]
  | date => exact hasMomentShape_iff_shaped
  | string | array | map | unknown => exact iff_of_false Bool.false_ne_true (by rintro ⟨⟩)

theorem ofText_eq_firstOf (text : String) :
    ofText text = firstOf [int, float, bool, date] text := by
  simp only [ofText, firstOf, admits, decide_eq_true_eq]
  congr

variable {order others : List Kind} {text : String}

/-- A text passes the test of one kind at most, so that this kind is found wherever it stands. -/
theorem firstOf_eq_iff (not_string : kind ≠ string) :
    firstOf order text = kind ↔ kind ∈ order ∧ kind.admits text := by
  induction order with
  | nil => simp [firstOf, not_string.symm]
  | cons first order induction =>
      rw [firstOf, List.mem_cons]
      split_ifs with first_passes
      · constructor
        · rintro rfl
          exact ⟨.inl rfl, first_passes⟩
        · rintro ⟨-, passes⟩
          exact (admits_iff_shaped.mp first_passes).kind_eq (admits_iff_shaped.mp passes)
      · rw [induction]
        refine and_congr_left fun passes => (or_iff_right ?_).symm
        rintro rfl
        exact first_passes passes

/-- Kinds that are tried in another order find the same. -/
theorem firstOf_perm (perm : order.Perm others) : firstOf order text = firstOf others text := by
  have same : ∀ kind ≠ string, (firstOf order text = kind ↔ firstOf others text = kind) := by
    intro kind not_string
    rw [firstOf_eq_iff not_string, firstOf_eq_iff not_string, perm.mem_iff]
  by_cases found : firstOf order text = string
  · by_contra differs
    rw [found] at differs same
    exact differs ((same _ (Ne.symm differs)).mpr rfl)
  · exact ((same _ found).mp rfl).symm

theorem ofText_eq_iff_shaped (not_string : kind ≠ string) :
    ofText text = kind ↔ Shaped kind text.toList := by
  rw [ofText_eq_firstOf, firstOf_eq_iff not_string, admits_iff_shaped]
  exact and_iff_right_of_imp Shaped.kind_mem

theorem ofText_eq_string_iff : ofText text = string ↔ ∀ kind, ¬Shaped kind text.toList := by
  constructor
  · intro text_string kind shape
    have not_string : kind ≠ string := by
      rintro rfl
      cases shape
    exact not_string (((ofText_eq_iff_shaped not_string).mpr shape).symm.trans text_string)
  · intro unshaped
    by_contra not_string
    exact unshaped _ ((ofText_eq_iff_shaped not_string).mp rfl)

end Kind

/-! ## Numbers -/

theorem not_isPlain_of_isBlank {c : Char} (blank : isBlank c) : ¬IsPlain c := by
  have no_point : isBlank '.' = false := by decide
  -- blank characters lie between the digits of the scripts
  have apart : ∀ first ∈ decimalZeros, 0x20 < first ∧ (first + 10 ≤ 0x85 ∨ 0xa0 < first) ∧
      (first + 10 ≤ 0x1680 ∨ 0x1680 < first) ∧ (first + 10 ≤ 0x2000 ∨ 0x205f < first) ∧
      (first + 10 ≤ 0x3000 ∨ 0x3000 < first) := by
    decide
  rintro (digit | rfl)
  · obtain ⟨first, member, range⟩ := List.any_eq_true.mp digit
    have between := apart first member
    simp only [isBlank, Bool.or_eq_true, Bool.and_eq_true, decide_eq_true_eq, beq_iff_eq]
      at blank range
    omega
  · rw [no_point] at blank
    cases blank

namespace Value

theorem plain_of_isNumber {s : String} (number : (text s).IsNumber) :
    ∀ c ∈ s.toList, c ∉ ['+', '-', 'e', 'E'] ∧ isBlank c = false := by
  intro c member
  have plain := isPlain_of_isNumber number c member
  constructor
  · intro mark
    simp only [List.mem_cons, List.not_mem_nil, or_false] at mark
    rcases mark with rfl | rfl | rfl | rfl <;> exact absurd plain (by decide +kernel)
  · by_contra blank
    exact not_isPlain_of_isBlank (Bool.of_not_eq_false blank) plain

theorem classify_text_eq_iff {s : String} :
    (text s).classify = .ok kind ↔ Kind.ofText s = kind := by
  rw [classify, Except.ok.injEq]

/-- The kind of a text is that of its shape, and that of strings if it has none.  No text has two
shapes, so that they may be tried in any order.  Texts with a sign, an exponent or white space, a
line feed at the end included, are no numbers.  An engine finds the expressions of the shapes in the
texts of these kinds. -/
theorem classify_text_iff (s : String) :
    (∀ kind, kind ≠ .string → ((text s).classify = .ok kind ↔ Shaped kind s.toList)) ∧
    ((text s).classify = .ok .string ↔ ∀ kind, ¬Shaped kind s.toList) ∧
    (∀ kind other, Shaped kind s.toList → Shaped other s.toList → kind = other) ∧
    (∀ order : List Kind, order.Perm [.int, .float, .bool, .date] →
      (text s).classify = .ok (Kind.firstOf order s)) ∧
    ((text s).IsNumber → ∀ c ∈ s.toList, c ∉ ['+', '-', 'e', 'E'] ∧ isBlank c = false) ∧
    ∀ (engine : Engine) (tests : engine.Tests), engine.DocumentedDigits →
      (tests.int s.toList ↔ (text s).classify = .ok .int) ∧
      (tests.float s.toList ↔ (text s).classify = .ok .float) ∧
      (tests.day s.toList ∨ tests.daytime s.toList ↔ (text s).classify = .ok .date) := by
  simp only [classify_text_eq_iff]
  refine ⟨fun _ => Kind.ofText_eq_iff_shaped, Kind.ofText_eq_string_iff,
    fun _ _ => Shaped.kind_eq, fun order perm => ?_, plain_of_isNumber,
    fun engine tests documented => ?_⟩
  · rw [Kind.ofText_eq_firstOf, Kind.firstOf_perm perm]
  · rw [Kind.ofText_eq_iff_shaped (by decide), Kind.ofText_eq_iff_shaped (by decide),
      Kind.ofText_eq_iff_shaped (by decide)]
    exact tests.iff_shaped documented

/-- A number in digits of two scripts, with the kinds tried from the last to the first. -/
theorem classify_text_iff_pointed :
    let pointed := "٣.5"
    let backward := [Kind.date, .bool, .float, .int]
    Kind.float ≠ .string ∧ (text pointed).classify = .ok .float ∧ Shaped .float pointed.toList ∧
      (∀ kind, Shaped kind pointed.toList → kind = .float) ∧
      backward.Perm [.int, .float, .bool, .date] ∧ Kind.firstOf backward pointed = .float ∧
      (text pointed).IsNumber ∧ '٣' ∈ pointed.toList ∧ isBlank '٣' = false ∧
      Engine.digital.DocumentedDigits ∧ Engine.digitalTests.float pointed.toList := by
  intro pointed backward
  have kind_eq : (text pointed).classify = .ok .float := by decide +kernel
  have number : (text pointed).IsNumber := ⟨.float, kind_eq, rfl⟩
  have member : '٣' ∈ pointed.toList := by decide
  have perm : backward.Perm [.int, .float, .bool, .date] := by decide
  obtain ⟨shaped, -, unique, ordered, plain, tested⟩ := classify_text_iff pointed
  have shape : Shaped .float pointed.toList := (shaped .float (by decide)).mp kind_eq
  have found := (tested _ Engine.digitalTests Engine.digital_documented).2.1.mpr kind_eq
  exact ⟨by decide, kind_eq, shape, fun kind other => unique kind .float other shape, perm,
    Except.ok.inj ((ordered backward perm).symm.trans kind_eq), number, member,
    (plain number '٣' member).2, Engine.digital_documented, found⟩

end Value
end RiskGraph

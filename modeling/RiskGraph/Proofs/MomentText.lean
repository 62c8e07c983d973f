import Mathlib.Data.String.Basic
import RiskGraph.Proofs.Layout
import RiskGraph.Proofs.Readability

/-!
# Texts of moments

A text writes a moment as a day of the calendar, alone or with a time.  A day alone is at midnight,
so that each moment that is read has one text with a time, which is also the text that it is shown
by.  Moments are ordered as these texts are: a leap second is written behind the second 59, though
it is carried on from that second.
-/

namespace RiskGraph

/-! ## Days of the calendar -/

/-- Thirty days in four of the months and at most 29 in February, the last of them in leap years
only; 31 in all the rest. -/
structure IsDay (year month day : Nat) : Prop where
  month_pos : 1 ≤ month
  month_le : month ≤ 12
  day_pos : 1 ≤ day
  day_le : day ≤ 31
  short_le : month ∈ [4, 6, 9, 11] → day ≤ 30
  february_le : month = 2 → day ≤ 29
  leap : month = 2 → day = 29 → 4 ∣ year ∧ (100 ∣ year → 400 ∣ year)

theorem isLeapYear_iff {year : Nat} :
    isLeapYear year ↔ 4 ∣ year ∧ (100 ∣ year → 400 ∣ year) := by
  simp only [isLeapYear, Bool.and_eq_true, Bool.or_eq_true, beq_iff_eq, bne_iff_ne]
  omega

theorem isDay_iff {year month day : Nat} :
    IsDay year month day ↔
      (1 ≤ month ∧ month ≤ 12) ∧ 1 ≤ day ∧ day ≤ daysInMonth year month := by
  constructor
  · intro is_day
    refine ⟨⟨is_day.month_pos, is_day.month_le⟩, is_day.day_pos, ?_⟩
    have leap := is_day.leap
    rw [← isLeapYear_iff] at leap
    have short_le := is_day.short_le
    simp only [List.mem_cons, List.not_mem_nil, or_false] at short_le
    unfold daysInMonth
    split_ifs with february is_leap short
    · exact is_day.february_le february
    · have unless_leap : day ≠ 29 := fun last => is_leap (leap february last)
      have below := is_day.february_le february
      omega
    · exact short_le short
    · exact is_day.day_le
  · rintro ⟨⟨month_pos, month_le⟩, day_pos, day_le⟩
    unfold daysInMonth at day_le
    refine ⟨month_pos, month_le, day_pos, ?_, ?_, ?_, ?_⟩
    · split_ifs at day_le <;> omega
    · simp only [List.mem_cons, List.not_mem_nil, or_false]
      intro short
      rw [if_neg (by omega), if_pos short] at day_le
      exact day_le
    · rintro rfl
      split_ifs at day_le <;> omega
    · rintro rfl rfl
      rw [← isLeapYear_iff]
      by_contra common
      rw [if_pos rfl, if_neg common] at day_le
      omega

/-! ## Texts with and without a time -/

/-- The slots of a day. -/
def dayLayout : List Slot :=
  [{ mark := [], width := 4 }, { mark := ['-'], width := 2 }, { mark := ['-'], width := 2 }]

/-- The slots of a time behind a day. -/
def timeLayout : List Slot :=
  [{ mark := [' '], width := 2 }, { mark := [':'], width := 2 }, { mark := [':'], width := 2 }]

/-- A text writes the fields of a moment. -/
inductive WritesMoment : List Char → MomentFields → Prop
  /-- A day alone is at midnight. -/
  | day {text : List Char} {year month day : Nat}
      (filled : Fills dayLayout text [year, month, day]) (is_day : IsDay year month day) :
      WritesMoment text
        { year := year, month, day, hour := 0, minute := 0, second := 0, nanosecond := 0 }
  | daytime {text : List Char} {year month day hour minute second : Nat}
      (filled : Fills (dayLayout ++ timeLayout) text [year, month, day, hour, minute, second])
      (is_day : IsDay year month day) (hour_le : hour ≤ 23) (minute_le : minute ≤ 59)
      (second_le : second ≤ 59) :
      WritesMoment text { year := year, month, day, hour, minute, second, nanosecond := 0 }
  /-- The second 60 is carried on from the second 59. -/
  | leapSecond {text : List Char} {year month day hour minute : Nat}
      (filled : Fills (dayLayout ++ timeLayout) text [year, month, day, hour, minute, 60])
      (is_day : IsDay year month day) (hour_le : hour ≤ 23) (minute_le : minute ≤ 59) :
      WritesMoment text
        { year := year, month, day, hour, minute, second := 59, nanosecond := nanosecondsPerSecond }

theorem fills_day_iff {text : List Char} {year month day : Nat} :
    Fills dayLayout text [year, month, day] ↔ shapeOf Char.isDigit text = dayShape ∧
      numberAt 0 4 text = year ∧ numberAt 5 2 text = month ∧ numberAt 8 2 text = day := by
  have shape_eq : layoutShape dayLayout = dayShape := by decide
  have numbers_eq : slotNumbers dayLayout text =
      [numberAt 0 4 text, numberAt 5 2 text, numberAt 8 2 text] := by
    simp only [dayLayout, slotNumbers, List.drop_drop]
    rfl
  rw [fills_iff, shape_eq, numbers_eq]
  simp

theorem fills_daytime_iff {text : List Char} {year month day hour minute second : Nat} :
    Fills (dayLayout ++ timeLayout) text [year, month, day, hour, minute, second] ↔
      shapeOf Char.isDigit text = daytimeShape ∧
        numberAt 0 4 text = year ∧ numberAt 5 2 text = month ∧ numberAt 8 2 text = day ∧
          numberAt 11 2 text = hour ∧ numberAt 14 2 text = minute ∧
            numberAt 17 2 text = second := by
  have shape_eq : layoutShape (dayLayout ++ timeLayout) = daytimeShape := by decide
  have numbers_eq : slotNumbers (dayLayout ++ timeLayout) text =
      [numberAt 0 4 text, numberAt 5 2 text, numberAt 8 2 text, numberAt 11 2 text,
        numberAt 14 2 text, numberAt 17 2 text] := by
    simp only [dayLayout, timeLayout, List.cons_append, List.nil_append, slotNumbers,
      List.drop_drop]
    rfl
  rw [fills_iff, shape_eq, numbers_eq]
  simp

theorem Moment.ofFields?_eq_some_iff {fields : MomentFields} {moment : Moment} :
    ofFields? fields = some moment ↔ fields = moment.fields := by
  unfold ofFields?
  split_ifs with valid
  · rw [Option.some_inj]
    constructor
    · rintro rfl
      rfl
    · rintro rfl
      rfl
  · refine iff_of_false (fun same => by cases same) ?_
    rintro rfl
    exact valid moment.valid

theorem readMoment?_eq_some_iff {s : String} {moment : Moment} :
    readMoment? s = some moment ↔
      shapeOf Char.isDigit s.toList = dayShape ∧ dayFields s.toList = moment.fields ∨
        shapeOf Char.isDigit s.toList = daytimeShape ∧
          daytimeFields s.toList = moment.fields := by
  have distinct : daytimeShape ≠ dayShape := by decide
  simp only [readMoment?]
  split_ifs with short long
  · simp [short, Moment.ofFields?_eq_some_iff, distinct.symm]
  · simp [long, Moment.ofFields?_eq_some_iff, distinct]
  · simp [short, long]

namespace WritesMoment

variable {text : List Char} {s : String} {fields : MomentFields}

theorem valid (written : WritesMoment text fields) : fields.Valid := by
  have passes : 0 < nanosecondsPerSecond ∧ nanosecondsPerSecond < 2 * nanosecondsPerSecond := by
    decide
  cases written with
  | day _ is_day =>
      obtain ⟨months, days⟩ := isDay_iff.mp is_day
      exact ⟨months, days, Nat.succ_pos 23, Nat.succ_pos 59, Nat.succ_pos 59, .inl passes.1⟩
  | daytime _ is_day hour_le minute_le second_le =>
      obtain ⟨months, days⟩ := isDay_iff.mp is_day
      exact ⟨months, days, Nat.lt_succ_of_le hour_le, Nat.lt_succ_of_le minute_le,
        Nat.lt_succ_of_le second_le, .inl passes.1⟩
  | leapSecond _ is_day hour_le minute_le =>
      obtain ⟨months, days⟩ := isDay_iff.mp is_day
      exact ⟨months, days, Nat.lt_succ_of_le hour_le, Nat.lt_succ_of_le minute_le,
        Nat.lt_succ_self 59, .inr ⟨rfl, passes.2⟩⟩

theorem shapeOf_eq (written : WritesMoment text fields) :
    shapeOf isDecimalDigit text = dayShape ∨ shapeOf isDecimalDigit text = daytimeShape := by
  have decimal : ∀ {layout : List Slot} {numbers : List Nat}, Fills layout text numbers →
      shapeOf isDecimalDigit text = layoutShape layout :=
    fun filled => filled.shapeOf_eq (fun _ => isDecimalDigit_of_isDigit) fun _ => id
  cases written with
  | day filled => exact .inl (decimal filled)
  | daytime filled | leapSecond filled => exact .inr (decimal filled)

theorem read (written : WritesMoment s.toList fields) :
    readMoment? s = some ⟨fields, written.valid⟩ := by
  rw [readMoment?_eq_some_iff]
  cases written with
  | day filled =>
      obtain ⟨shape_eq, rfl, rfl, rfl⟩ := fills_day_iff.mp filled
      exact .inl ⟨shape_eq, rfl⟩
  | daytime filled _ _ _ second_le =>
      obtain ⟨shape_eq, rfl, rfl, rfl, rfl, rfl, rfl⟩ := fills_daytime_iff.mp filled
      have no_leap : numberAt 17 2 s.toList ≠ 60 := by omega
      exact .inr ⟨shape_eq, by simp [daytimeFields, dayFields, no_leap]⟩
  | leapSecond filled =>
      obtain ⟨shape_eq, rfl, rfl, rfl, rfl, rfl, leap⟩ := fills_daytime_iff.mp filled
      exact .inr ⟨shape_eq, by simp [daytimeFields, dayFields, leap]⟩

end WritesMoment

theorem writesMoment_of_read {s : String} {moment : Moment} (read : readMoment? s = some moment) :
    WritesMoment s.toList moment.fields := by
  have valid := moment.valid
  rcases readMoment?_eq_some_iff.mp read with ⟨shape_eq, fields_eq⟩ | ⟨shape_eq, fields_eq⟩
  · rw [← fields_eq] at valid ⊢
    exact .day (fills_day_iff.mpr ⟨shape_eq, rfl, rfl, rfl⟩)
      (isDay_iff.mpr ⟨valid.1, valid.2.1⟩)
  · rw [← fields_eq] at valid ⊢
    obtain ⟨months, days, hour_lt, minute_lt, second_lt, -⟩ := valid
    have is_day := isDay_iff.mpr ⟨months, days⟩
    have hour_le := Nat.le_of_lt_succ hour_lt
    have minute_le := Nat.le_of_lt_succ minute_lt
    by_cases leap : numberAt 17 2 s.toList = 60
    · have filled := fills_daytime_iff.mpr ⟨shape_eq, rfl, rfl, rfl, rfl, rfl, leap⟩
      have written := WritesMoment.leapSecond filled is_day hour_le minute_le
      simpa [daytimeFields, dayFields, leap] using written
    · have filled := fills_daytime_iff.mpr ⟨shape_eq, rfl, rfl, rfl, rfl, rfl, rfl⟩
      have second_le : numberAt 17 2 s.toList ≤ 59 := by
        simp only [daytimeFields, leap, if_false] at second_lt
        exact Nat.le_of_lt_succ second_lt
      have written := WritesMoment.daytime filled is_day hour_le minute_le second_le
      simpa [daytimeFields, dayFields, leap] using written

/-! ## Texts with a time -/

/-- The text itself if it has a time; a day alone, in ten characters, is at midnight. -/
def longForm (text : String) : String :=
  if text.length = 10 then text ++ " 00:00:00" else text

/-- The numbers of a moment as a clock shows them. -/
def MomentFields.shown (fields : MomentFields) : List Nat :=
  [fields.year.toNat, fields.month, fields.day, fields.hour, fields.minute,
    fields.second + fields.nanosecond / nanosecondsPerSecond]

/-- The fields of a moment that a text can write: those of a whole second. -/
structure MomentFields.IsWhole (fields : MomentFields) : Prop where
  year_nonneg : 0 ≤ fields.year
  year_le : fields.year ≤ 9999
  second_le : fields.second ≤ 59
  nanosecond_eq : fields.nanosecond = 0 ∨
    fields.second = 59 ∧ fields.nanosecond = nanosecondsPerSecond

/-- A day alone is taken for its midnight. -/
theorem fills_longForm_of_day {s : String} {numbers : List Nat}
    (filled : Fills dayLayout s.toList numbers) :
    Fills (dayLayout ++ timeLayout) (longForm s).toList (numbers ++ [0, 0, 0]) := by
  have length_eq : s.length = 10 := filled.length_eq
  have midnight : Fills timeLayout " 00:00:00".toList [0, 0, 0] := fills_iff.mpr (by decide)
  rw [longForm, if_pos length_eq, String.toList_append]
  exact filled.append midnight

theorem longForm_of_daytime {s : String} {numbers : List Nat}
    (filled : Fills (dayLayout ++ timeLayout) s.toList numbers) : longForm s = s := by
  have length_eq : s.length = 19 := filled.length_eq
  exact if_neg (by omega)

namespace WritesMoment

variable {s : String} {fields : MomentFields}

/-- A moment is written by the text with its time too. -/
theorem toLongForm (written : WritesMoment s.toList fields) :
    WritesMoment (longForm s).toList fields := by
  cases written with
  | day filled is_day =>
      exact .daytime (fills_longForm_of_day filled) is_day (by decide) (by decide) (by decide)
  | daytime filled is_day hour_le minute_le second_le =>
      rw [longForm_of_daytime filled]
      exact .daytime filled is_day hour_le minute_le second_le
  | leapSecond filled is_day hour_le minute_le =>
      rw [longForm_of_daytime filled]
      exact .leapSecond filled is_day hour_le minute_le

/-- That text writes the numbers that a clock shows. -/
theorem fills_shown (written : WritesMoment s.toList fields) :
    Fills (dayLayout ++ timeLayout) (longForm s).toList fields.shown := by
  cases written with
  | day filled =>
      simpa [MomentFields.shown] using fills_longForm_of_day filled
  | daytime filled =>
      rw [longForm_of_daytime filled]
      simpa [MomentFields.shown] using filled
  | leapSecond filled =>
      rw [longForm_of_daytime filled]
      simpa [MomentFields.shown, nanosecondsPerSecond] using filled

theorem isWhole (written : WritesMoment s.toList fields) : fields.IsWhole := by
  have year_lt : fields.year.toNat < 10000 := written.fills_shown.lt_pow
  cases written with
  | day => exact ⟨Int.natCast_nonneg _, by omega, Nat.zero_le _, .inl rfl⟩
  | daytime _ _ _ _ second_le => exact ⟨Int.natCast_nonneg _, by omega, second_le, .inl rfl⟩
  | leapSecond => exact ⟨Int.natCast_nonneg _, by omega, Nat.le_refl _, .inr ⟨rfl, rfl⟩⟩

end WritesMoment

/-! ## Order -/

theorem compareRows_eq_lt_iff {row other : List Int} :
    compareRows row other = .lt ↔ row < other := by
  induction row generalizing other with
  | nil => cases other <;> simp [compareRows]
  | cons a row induction =>
      cases other with
      | nil => simp [compareRows]
      | cons b other =>
          rw [compareRows, Ordering.then_eq_lt, compare_lt_iff_lt, compare_eq_iff_eq, induction,
            List.cons_lt_cons_iff]

/-- Moments of whole seconds are ordered as a clock shows them. -/
theorem MomentFields.toList_lt_iff {fields others : MomentFields} (whole : fields.IsWhole)
    (other_whole : others.IsWhole) :
    fields.toList < others.toList ↔ fields.shown < others.shown := by
  obtain ⟨year_nonneg, -, second_le, nanosecond_eq⟩ := whole
  obtain ⟨other_nonneg, -, other_second_le, other_nanosecond_eq⟩ := other_whole
  unfold nanosecondsPerSecond at nanosecond_eq other_nanosecond_eq
  simp only [toList, shown, List.cons_lt_cons_iff, List.not_lt_nil, and_false, or_false,
    nanosecondsPerSecond]
  omega

/-- Moments that are read from texts are ordered as these texts with their times are. -/
theorem Moment.compare_eq_compare_longForm {s t : String} {left right : Moment}
    (read : readMoment? s = some left) (other_read : readMoment? t = some right) :
    left.compare right = Ord.compare (longForm s) (longForm t) := by
  have lt_iff : ∀ {s t : String} {left right : Moment}, readMoment? s = some left →
      readMoment? t = some right → (left.compare right = .lt ↔ longForm s < longForm t) := by
    intro s t left right read other_read
    have written := writesMoment_of_read read
    have other_written := writesMoment_of_read other_read
    rw [compare, compareRows_eq_lt_iff,
      MomentFields.toList_lt_iff written.isWhole other_written.isWhole,
      String.lt_iff_toList_lt, written.fills_shown.lt_iff other_written.fills_shown]
  have swap_eq : right.compare left = (left.compare right).swap := by
    rw [compare_eq, compare_eq]
    exact Std.OrientedOrd.eq_swap
  have below := lt_iff read other_read
  have above := lt_iff other_read read
  rw [swap_eq] at above
  cases compared : left.compare right with
  | lt => exact (compare_lt_iff_lt.mpr (below.mp compared)).symm
  | gt =>
      rw [compared] at above
      exact (compare_gt_iff_gt.mpr (above.mp rfl)).symm
  | eq =>
      rw [compared] at below above
      have not_less : ¬longForm s < longForm t := fun less => by cases below.mpr less
      have not_greater : ¬longForm t < longForm s := fun less => by cases above.mpr less
      exact (compare_eq_iff_eq.mpr (le_antisymm (not_lt.mp not_greater) (not_lt.mp not_less))).symm

/-! ## Values -/

namespace Moment

theorem toList_text {moment : Moment} (whole : moment.fields.IsWhole) :
    moment.text.toList = filledLayout (dayLayout ++ timeLayout) moment.fields.shown := by
  have year_eq : yearText moment.fields.year = padded 4 moment.fields.year.toNat :=
    if_pos ⟨whole.year_nonneg, whole.year_le⟩
  simp only [text, year_eq, String.toList_append, MomentFields.shown, shownSecond]
  simp [filledLayout, dayLayout, timeLayout]

/-- A moment is shown by the text with its time. -/
theorem text_eq_longForm {s : String} {moment : Moment} (read : readMoment? s = some moment) :
    moment.text = longForm s := by
  have written := writesMoment_of_read read
  rw [← String.toList_inj, toList_text written.isWhole, ← written.fills_shown.eq_filledLayout]

theorem read_longForm {s : String} {moment : Moment} (read : readMoment? s = some moment) :
    readMoment? (longForm s) = some moment :=
  (writesMoment_of_read read).toLongForm.read

theorem eq_iff_longForm_eq {s t : String} {left right : Moment}
    (read : readMoment? s = some left) (other_read : readMoment? t = some right) :
    left = right ↔ longForm s = longForm t := by
  constructor
  · rintro rfl
    rw [← text_eq_longForm read, ← text_eq_longForm other_read]
  · intro same
    have again := read_longForm read
    rw [same, read_longForm other_read, Option.some_inj] at again
    exact again.symm

end Moment

/-! ## Comparison -/

/-- A value is compared as a moment. -/
structure Value.IsMoment (value : Value) (moment : Moment) : Prop where
  kind_eq : value.classify = .ok .date
  read : value.toMoment = .ok moment

namespace Value

variable {s : String} {moment other : Moment}

theorem textToMoment_eq_ok_iff : textToMoment s = .ok moment ↔ readMoment? s = some moment :=
  orFault_eq_ok_iff

/-- A dash tells the texts of a moment's shape from those of numbers. -/
theorem classify_of_shapeOf (shape_eq : shapeOf isDecimalDigit s.toList = dayShape ∨
    shapeOf isDecimalDigit s.toList = daytimeShape) : (text s).classify = .ok .date := by
  have dash : '-' ∈ shapeOf isDecimalDigit s.toList := by
    rcases shape_eq with shape_eq | shape_eq <;> rw [shape_eq] <;> decide
  obtain ⟨c, member, dash_eq⟩ := List.mem_map.mp dash
  obtain rfl : c = '-' := by
    split_ifs at dash_eq
    · exact absurd dash_eq (by decide)
    · exact dash_eq
  have no_number : ¬(text s).IsNumber := fun number =>
    absurd (isPlain_of_isNumber number '-' member) (by decide +kernel)
  rw [isNumber_text_iff, not_or] at no_number
  have no_truth : ¬(s = "true" ∨ s = "false") := by
    rintro (rfl | rfl) <;> exact absurd member (by decide)
  have shaped : hasMomentShape s.toList := by simp [hasMomentShape, shape_eq]
  simp [classify, Kind.ofText, no_number, no_truth, shaped]

theorem isMoment_text (read : readMoment? s = some moment) : (text s).IsMoment moment :=
  ⟨classify_of_shapeOf (writesMoment_of_read read).shapeOf_eq, textToMoment_eq_ok_iff.mpr read⟩

theorem isMoment_date (moment : Moment) : (date moment).IsMoment moment :=
  ⟨rfl, rfl⟩

theorem IsMoment.compare?_eq {left right : Value} (is_moment : left.IsMoment moment)
    (is_other : right.IsMoment other) : left.compare? right = some (moment.compare other) := by
  have stands : ∀ {value : Value} {moment : Moment}, value.IsMoment moment →
      value.standing? = some (.moment moment) := by
    intro value moment is_moment
    rw [standing?, is_moment.kind_eq]
    simp only [is_moment.read]
    rfl
  exact compare?_eq_some (stands is_moment) (stands is_other)

end Value

namespace Comparison

/-- The relational operators and those on dates say of two values what is true of two texts. -/
structure OrderedAs [Engine] (left right : Value) (s t : String) : Prop where
  less : apply .less left right = .ok (decide (s < t))
  greater : apply .greater left right = .ok (decide (t < s))
  equal : apply .equal left right = .ok (decide (s = t))
  before : apply .before left right = .ok (decide (s < t))
  after : apply .after left right = .ok (decide (t < s))

theorem orderedAs_of_isMoment [Engine] {left right : Value} {moment other : Moment} {s t : String}
    (is_moment : left.IsMoment moment) (is_other : right.IsMoment other)
    (compare_eq : moment.compare other = compare s t) : OrderedAs left right s t := by
  have compared := is_moment.compare?_eq is_other
  rw [compare_eq] at compared
  obtain ⟨less, equal, greater, -⟩ := ordered_of_compare? compared
  have lt_eq : (compare s t == .lt) = decide (s < t) := by
    rw [Bool.eq_iff_iff, beq_iff_eq, decide_eq_true_iff, compare_lt_iff_lt]
  have gt_eq : (compare s t == .gt) = decide (t < s) := by
    rw [Bool.eq_iff_iff, beq_iff_eq, decide_eq_true_iff, compare_gt_iff_gt]
  have eq_eq : (compare s t == .eq) = decide (s = t) := by
    rw [Bool.eq_iff_iff, beq_iff_eq, decide_eq_true_iff, compare_eq_iff_eq]
  rw [lt_eq] at less
  rw [gt_eq] at greater
  rw [eq_eq] at equal
  obtain ⟨before_eq, after_eq⟩ := apply_of_dates is_moment.kind_eq is_other.kind_eq
  exact ⟨less, greater, equal, before_eq.trans less, after_eq.trans greater⟩

/-- Texts of moments are read as what they write, shown with their time, and ordered, as texts with
their time, as the moments are and as the operators compare them. -/
theorem moment_texts_agree [Engine] :
    (∀ s fields, WritesMoment s.toList fields ↔
      ∃ moment, Value.textToMoment s = .ok moment ∧ moment.fields = fields) ∧
    (∀ s moment, Value.textToMoment s = .ok moment →
      (Value.date moment).shown = longForm s ∧ Value.textToMoment (longForm s) = .ok moment) ∧
    ∀ s t left right, Value.textToMoment s = .ok left → Value.textToMoment t = .ok right →
      (left = right ↔ longForm s = longForm t) ∧
      left.compare right = compare (longForm s) (longForm t) ∧
      ∀ value ∈ [Value.text s, .date left], ∀ other ∈ [Value.text t, .date right],
        OrderedAs value other (longForm s) (longForm t) := by
  simp only [Value.textToMoment_eq_ok_iff]
  refine ⟨fun s fields => ⟨fun written => ⟨_, written.read, rfl⟩, ?_⟩, ?_, ?_⟩
  · rintro ⟨moment, read, rfl⟩
    exact writesMoment_of_read read
  · exact fun s moment read => ⟨Moment.text_eq_longForm read, Moment.read_longForm read⟩
  · intro s t left right read other_read
    have compare_eq := Moment.compare_eq_compare_longForm read other_read
    have is_moment : ∀ {s : String} {moment : Moment}, readMoment? s = some moment →
        ∀ value ∈ [Value.text s, .date moment], value.IsMoment moment := by
      intro s moment read
      exact List.forall_mem_cons.mpr
        ⟨Value.isMoment_text read, List.forall_mem_singleton.mpr (Value.isMoment_date moment)⟩
    exact ⟨Moment.eq_iff_longForm_eq read other_read, compare_eq,
      fun value member other other_member =>
        orderedAs_of_isMoment (is_moment read value member)
          (is_moment other_read other other_member) compare_eq⟩

section

open scoped Engine.Plain

/-- The leap second at the end of a year and the midnight behind it. -/
theorem moment_texts_agree_leapSecond :
    let leap : Moment := ⟨⟨2016, 12, 31, 23, 59, 59, nanosecondsPerSecond⟩, by decide⟩
    let midnight : Moment := ⟨⟨2017, 1, 1, 0, 0, 0, 0⟩, by decide⟩
    Value.textToMoment "2016-12-31 23:59:60" = .ok leap ∧
      Value.textToMoment "2017-01-01" = .ok midnight ∧
      (Value.date leap).shown = longForm "2016-12-31 23:59:60" ∧
      leap.compare midnight = compare (longForm "2016-12-31 23:59:60") (longForm "2017-01-01") ∧
      OrderedAs (.text "2016-12-31 23:59:60") (.date midnight) (longForm "2016-12-31 23:59:60")
        (longForm "2017-01-01") := by
  intro leap midnight
  have read : Value.textToMoment "2016-12-31 23:59:60" = .ok leap := by decide +kernel
  have other_read : Value.textToMoment "2017-01-01" = .ok midnight := by decide +kernel
  obtain ⟨-, compare_eq, ordered⟩ := moment_texts_agree.2.2 _ _ _ _ read other_read
  exact ⟨read, other_read, (moment_texts_agree.2.1 _ _ read).1, compare_eq,
    ordered _ (by simp) _ (by simp)⟩

end

end Comparison
end RiskGraph

import RiskGraph.Proofs.MomentText
import RiskGraph.Proofs.TextKind

/-!
# Formats of moments

A format says where a text has the fields of a moment, each in digits of a fixed number.  Moments
are read and shown as any formatter does that reads and writes formats as they are documented, if
it is given the texts that pass the tests of an engine for regular expressions.
-/

namespace RiskGraph

/-- A day of the calendar. -/
structure Day where
  year : Int
  month : Nat
  day : Nat
  valid : (1 ≤ month ∧ month ≤ 12) ∧ 1 ≤ day ∧ day ≤ daysInMonth year month

namespace Day

/-- The moment at which a day begins. -/
def midnight (day : Day) : Moment where
  fields :=
    { year := day.year, month := day.month, day := day.day
      hour := 0, minute := 0, second := 0, nanosecond := 0 }
  valid := by
    have passes : 0 < nanosecondsPerSecond := by decide
    exact ⟨day.valid.1, day.valid.2, Nat.succ_pos 23, Nat.succ_pos 59, Nat.succ_pos 59,
      .inl passes⟩

theorem fields_midnight (day : Day) :
    day.midnight.fields =
      { year := day.year, month := day.month, day := day.day
        hour := 0, minute := 0, second := 0, nanosecond := 0 } :=
  rfl

/-- The day that a year, a month and a day of the month name. -/
def of? (year : Int) (month day : Nat) : Option Day :=
  if valid : (1 ≤ month ∧ month ≤ 12) ∧ 1 ≤ day ∧ day ≤ daysInMonth year month then
    some ⟨year, month, day, valid⟩
  else none

theorem of?_eq_some_iff {year : Int} {month dayOfMonth : Nat} {day : Day} :
    of? year month dayOfMonth = some day ↔
      day.year = year ∧ day.month = month ∧ day.day = dayOfMonth := by
  unfold of?
  split_ifs with valid
  · rw [Option.some_inj]
    constructor
    · rintro rfl
      exact ⟨rfl, rfl, rfl⟩
    · rintro ⟨rfl, rfl, rfl⟩
      rfl
  · refine iff_of_false nofun ?_
    rintro ⟨rfl, rfl, rfl⟩
    exact valid day.valid

end Day

/-- Reads and writes days and moments in formats. -/
structure Formatter where
  readDay? : (format text : List Char) → Option Day
  readMoment? : (format text : List Char) → Option Moment
  write : (format : List Char) → Moment → List Char

namespace Formatter

/-! ## What formats are documented to mean -/

/-- A field of a moment that a format can ask for. -/
inductive Field where
  | year
  | month
  | day
  | hour
  | minute
  | second
  deriving DecidableEq

namespace Field

/-- The letter that asks for a field. -/
def letter : Field → Char
  | year => 'Y'
  | month => 'm'
  | day => 'd'
  | hour => 'H'
  | minute => 'M'
  | second => 'S'

/-- The number of digits that a field has. -/
def width : Field → Nat
  | year => 4
  | _ => 2

/-- The text of a field, filled up with zeros; within a leap second, the second is 60. -/
def shown (moment : Moment) : Field → List Char
  | year => (Moment.yearText moment.fields.year).toList
  | month => (padded 2 moment.fields.month).toList
  | day => (padded 2 moment.fields.day).toList
  | hour => (padded 2 moment.fields.hour).toList
  | minute => (padded 2 moment.fields.minute).toList
  | second => (padded 2 moment.shownSecond).toList

end Field

/-- An item of a format: a field, or a character that stands for itself. -/
inductive Item where
  | field (name : Field)
  | literal (c : Char)
  deriving DecidableEq

namespace Item

def written : Item → List Char
  | field name => ['%', name.letter]
  | literal c => [c]

/-- The characters of an item, zeros in place of its digits. -/
def shape : Item → List Char
  | field name => List.replicate name.width '0'
  | literal c => [c]

/-- What an item of a moment is shown as. -/
def shown (moment : Moment) : Item → List Char
  | field name => name.shown moment
  | literal c => [c]

/-- The character is neither a digit of any script nor the mark of a field. -/
def isPlain : Item → Bool
  | field _ => true
  | literal c => !isDecimalDigit c && c != '%'

end Item

/-- A text shows the numbers of fields where a format asks for them, in ASCII digits. -/
inductive Shows (number : Field → Nat) : List Item → List Char → Prop
  | nil : Shows number [] []
  | field {name : Field} {items : List Item} {row text : List Char}
      (written : WritesNumber name.width row (number name)) (rest : Shows number items text) :
      Shows number (.field name :: items) (row ++ text)
  | literal {items : List Item} {text : List Char} (c : Char) (rest : Shows number items text) :
      Shows number (.literal c :: items) (c :: text)

/-- The fields of the moment at which a clock shows certain numbers; the second 60 is carried on
from the second 59. -/
def clockFields (number : Field → Nat) : MomentFields :=
  { year := number .year, month := number .month, day := number .day
    hour := number .hour, minute := number .minute
    second := if number .second = 60 then 59 else number .second
    nanosecond := if number .second = 60 then nanosecondsPerSecond else 0 }

/-- A formatter reads texts in which each field has all its digits, be they of any script, as
formats are documented, and writes them so. -/
structure Documented (formatter : Formatter) : Prop where
  /-- A day is read from its numbers. -/
  readDay_iff : ∀ (items : List Item) (text : List Char) (day : Day),
    items.all Item.isPlain → (∀ name, .field name ∈ items ↔ name ∈ [.year, .month, .day]) →
    shapeOf isDecimalDigit text = items.flatMap Item.shape →
    (formatter.readDay? (items.flatMap Item.written) text = some day ↔
      ∃ number, Shows number items text ∧
        day.year = number .year ∧ day.month = number .month ∧ day.day = number .day)
  /-- A moment is read from what a clock shows. -/
  readMoment_iff : ∀ (items : List Item) (text : List Char) (moment : Moment),
    items.all Item.isPlain → (∀ name, .field name ∈ items) →
    shapeOf isDecimalDigit text = items.flatMap Item.shape →
    (formatter.readMoment? (items.flatMap Item.written) text = some moment ↔
      ∃ number, Shows number items text ∧ moment.fields = clockFields number)
  write_eq : ∀ (items : List Item) (moment : Moment), items.all Item.isPlain →
    formatter.write (items.flatMap Item.written) moment = items.flatMap (Item.shown moment)

/-! ## Days and times -/

section

variable {number : Field → Nat} {items : List Item} {text mark : List Char}

theorem shows_nil_iff : Shows number [] text ↔ text = [] := by
  constructor
  · rintro ⟨⟩
    rfl
  · rintro rfl
    exact .nil

theorem shows_field_iff {name : Field} :
    Shows number (.field name :: items) text ↔
      ∃ row rest, WritesNumber name.width row (number name) ∧ Shows number items rest ∧
        row ++ rest = text := by
  constructor
  · rintro ⟨⟩
    exact ⟨_, _, ‹_›, ‹_›, rfl⟩
  · rintro ⟨row, rest, written, shows, rfl⟩
    exact .field written shows

theorem shows_literal_iff {c : Char} :
    Shows number (.literal c :: items) text ↔
      ∃ rest, Shows number items rest ∧ c :: rest = text := by
  constructor
  · rintro ⟨⟩
    exact ⟨_, ‹_›, rfl⟩
  · rintro ⟨rest, shows, rfl⟩
    exact .literal c shows

theorem shows_mark_iff :
    Shows number (mark.map .literal ++ items) text ↔
      ∃ rest, Shows number items rest ∧ mark ++ rest = text := by
  induction mark generalizing text with
  | nil => simp
  | cons c mark induction =>
      simp only [List.map_cons, List.cons_append, shows_literal_iff, induction]
      constructor
      · rintro ⟨_, ⟨rest, shows, rfl⟩, rfl⟩
        exact ⟨rest, shows, rfl⟩
      · rintro ⟨rest, shows, rfl⟩
        exact ⟨_, ⟨rest, shows, rfl⟩, rfl⟩

/-- The items of a layout whose slots are for certain fields. -/
def itemsOf (layout : List (Slot × Field)) : List Item :=
  layout.flatMap fun slot => slot.1.mark.map .literal ++ [.field slot.2]

theorem shows_itemsOf_iff {layout : List (Slot × Field)}
    (suited : ∀ slot ∈ layout, slot.1.width = slot.2.width) :
    Shows number (itemsOf layout) text ↔
      Fills (layout.map Prod.fst) text (layout.map fun slot => number slot.2) := by
  induction layout generalizing text with
  | nil =>
      rw [itemsOf, List.flatMap_nil, shows_nil_iff]
      constructor
      · rintro rfl
        exact .nil
      · rintro ⟨⟩
        rfl
  | cons slot layout induction =>
      obtain ⟨width_eq, suited⟩ := List.forall_mem_cons.mp suited
      rw [itemsOf, List.flatMap_cons, List.append_assoc, shows_mark_iff]
      simp only [List.singleton_append, shows_field_iff]
      constructor
      · rintro ⟨_, ⟨row, rest, written, shows, rfl⟩, rfl⟩
        rw [← List.append_assoc]
        exact .cons (width_eq ▸ written) ((induction suited).mp shows)
      · rintro ⟨⟩
        exact ⟨_, ⟨_, _, width_eq ▸ ‹_›, (induction suited).mpr ‹_›, rfl⟩,
          (List.append_assoc ..).symm⟩

end

def dayItems : List Item :=
  itemsOf (dayLayout.zip [.year, .month, .day])

def daytimeItems : List Item :=
  itemsOf ((dayLayout ++ timeLayout).zip [.year, .month, .day, .hour, .minute, .second])

theorem shows_dayItems_iff {number : Field → Nat} {text : List Char} :
    Shows number dayItems text ↔
      Fills dayLayout text [number .year, number .month, number .day] :=
  shows_itemsOf_iff (by decide)

theorem shows_daytimeItems_iff {number : Field → Nat} {text : List Char} :
    Shows number daytimeItems text ↔ Fills (dayLayout ++ timeLayout) text
      [number .year, number .month, number .day, number .hour, number .minute, number .second] :=
  shows_itemsOf_iff (by decide)

/-! ## Agreement -/

section

variable {engine : Engine} {text : List Char} {s : String} {moment : Moment}

theorem day_iff_shapeOf_eq (documented : engine.DocumentedDigits) (tests : engine.Tests) :
    tests.day text ↔ shapeOf isDecimalDigit text = dayShape := by
  rw [← Engine.flatMap_shape_dayParts, ← Engine.cut_iff_shapeOf_eq (by decide +kernel)]
  exact Engine.finds_anchored_iff documented tests.day_compiled

theorem daytime_iff_shapeOf_eq (documented : engine.DocumentedDigits) (tests : engine.Tests) :
    tests.daytime text ↔ shapeOf isDecimalDigit text = daytimeShape := by
  rw [← Engine.flatMap_shape_daytimeParts, ← Engine.cut_iff_shapeOf_eq (by decide +kernel)]
  exact Engine.finds_anchored_iff documented tests.daytime_compiled

/-- A text has shapes of one length only, whatever its digits are. -/
theorem length_eq_of_shapeOf_eq {isDigit isOther : Char → Bool} {shape other : List Char}
    (shape_eq : shapeOf isDigit text = shape) (other_eq : shapeOf isOther text = other) :
    shape.length = other.length := by
  rw [← shape_eq, ← other_eq, length_shapeOf, length_shapeOf]

theorem readMoment?_eq_some_iff_shows_day (shape_eq : shapeOf isDecimalDigit s.toList = dayShape) :
    RiskGraph.readMoment? s = some moment ↔ ∃ number, Shows number dayItems s.toList ∧
      moment.fields =
        { year := number .year, month := number .month, day := number .day
          hour := 0, minute := 0, second := 0, nanosecond := 0 } := by
  simp only [readMoment?_eq_some_iff, shows_dayItems_iff, fills_day_iff]
  constructor
  · rintro (⟨short, fields_eq⟩ | ⟨long, -⟩)
    · let number : Field → Nat
        | .year => numberAt 0 4 s.toList
        | .month => numberAt 5 2 s.toList
        | .day => numberAt 8 2 s.toList
        | _ => 0
      exact ⟨number, ⟨short, rfl, rfl, rfl⟩, fields_eq.symm⟩
    · exact absurd (length_eq_of_shapeOf_eq shape_eq long) (by decide)
  · rintro ⟨number, ⟨short, year_eq, month_eq, day_eq⟩, fields_eq⟩
    refine .inl ⟨short, ?_⟩
    rw [fields_eq, dayFields, year_eq, month_eq, day_eq]

theorem readMoment?_eq_some_iff_shows_daytime
    (shape_eq : shapeOf isDecimalDigit s.toList = daytimeShape) :
    RiskGraph.readMoment? s = some moment ↔
      ∃ number, Shows number daytimeItems s.toList ∧ moment.fields = clockFields number := by
  simp only [readMoment?_eq_some_iff, shows_daytimeItems_iff, fills_daytime_iff]
  constructor
  · rintro (⟨short, -⟩ | ⟨long, fields_eq⟩)
    · exact absurd (length_eq_of_shapeOf_eq shape_eq short) (by decide)
    · let number : Field → Nat
        | .year => numberAt 0 4 s.toList
        | .month => numberAt 5 2 s.toList
        | .day => numberAt 8 2 s.toList
        | .hour => numberAt 11 2 s.toList
        | .minute => numberAt 14 2 s.toList
        | .second => numberAt 17 2 s.toList
      exact ⟨number, ⟨long, rfl, rfl, rfl, rfl, rfl, rfl⟩, fields_eq.symm⟩
  · rintro ⟨number, ⟨long, year_eq, month_eq, day_eq, hour_eq, minute_eq, second_eq⟩, fields_eq⟩
    refine .inr ⟨long, ?_⟩
    rw [fields_eq, daytimeFields, dayFields, year_eq, month_eq, day_eq, hour_eq, minute_eq,
      second_eq]
    rfl

end

namespace Documented

variable {formatter : Formatter} {s : String}

theorem readMoment?_eq_day (documented : formatter.Documented)
    (shape_eq : shapeOf isDecimalDigit s.toList = dayShape) :
    RiskGraph.readMoment? s =
      (formatter.readDay? "%Y-%m-%d".toList s.toList).map Day.midnight := by
  have asked : ∀ name, .field name ∈ dayItems ↔ name ∈ [.year, .month, .day] := by
    intro name
    cases name <;> decide
  have written_eq : dayItems.flatMap Item.written = "%Y-%m-%d".toList := by decide
  have read_iff := fun day =>
    documented.readDay_iff dayItems s.toList day (by decide +kernel) asked (shape_eq.trans rfl)
  rw [written_eq] at read_iff
  ext moment
  simp only [readMoment?_eq_some_iff_shows_day shape_eq, Option.map_eq_some_iff, read_iff]
  constructor
  · rintro ⟨number, shows, fields_eq⟩
    have valid := moment.valid
    rw [fields_eq] at valid
    refine ⟨⟨number .year, number .month, number .day, valid.1, valid.2.1⟩,
      ⟨number, shows, rfl, rfl, rfl⟩, ?_⟩
    cases moment
    cases fields_eq
    rfl
  · rintro ⟨day, ⟨number, shows, year_eq, month_eq, day_eq⟩, rfl⟩
    exact ⟨number, shows, by rw [Day.fields_midnight, year_eq, month_eq, day_eq]⟩

theorem readMoment?_eq_daytime (documented : formatter.Documented)
    (shape_eq : shapeOf isDecimalDigit s.toList = daytimeShape) :
    RiskGraph.readMoment? s =
      formatter.readMoment? "%Y-%m-%d %H:%M:%S".toList s.toList := by
  have asked : ∀ name, .field name ∈ daytimeItems := by
    intro name
    cases name <;> decide
  have written_eq : daytimeItems.flatMap Item.written = "%Y-%m-%d %H:%M:%S".toList := by decide
  have read_iff := fun moment =>
    documented.readMoment_iff daytimeItems s.toList moment (by decide +kernel) asked
      (shape_eq.trans rfl)
  rw [written_eq] at read_iff
  ext moment
  rw [read_iff, readMoment?_eq_some_iff_shows_daytime shape_eq]

theorem write_eq_text (documented : formatter.Documented) (moment : Moment) :
    formatter.write "%Y-%m-%d %H:%M:%S".toList moment = moment.text.toList := by
  have written_eq : daytimeItems.flatMap Item.written = "%Y-%m-%d %H:%M:%S".toList := by decide
  rw [← written_eq, documented.write_eq daytimeItems moment (by decide +kernel), Moment.text]
  simp only [String.toList_append]
  simp [daytimeItems, itemsOf, dayLayout, timeLayout, Item.shown, Field.shown]

/-- Moments are read as any formatter reads them, given a text that passes one of the tests, and
other texts are not read; moments are shown as it writes them. -/
theorem moments_agree (documented : formatter.Documented) {engine : Engine}
    (engine_documented : engine.DocumentedDigits) (tests : engine.Tests) :
    (∀ s : String,
      (tests.day s.toList → RiskGraph.readMoment? s =
        (formatter.readDay? "%Y-%m-%d".toList s.toList).map Day.midnight) ∧
      (tests.daytime s.toList → RiskGraph.readMoment? s =
        formatter.readMoment? "%Y-%m-%d %H:%M:%S".toList s.toList) ∧
      (¬tests.day s.toList → ¬tests.daytime s.toList → RiskGraph.readMoment? s = none)) ∧
    ∀ moment : Moment, formatter.write "%Y-%m-%d %H:%M:%S".toList moment = moment.text.toList := by
  refine ⟨fun s => ?_, documented.write_eq_text⟩
  rw [day_iff_shapeOf_eq engine_documented, daytime_iff_shapeOf_eq engine_documented]
  refine ⟨documented.readMoment?_eq_day, documented.readMoment?_eq_daytime,
    fun no_day no_daytime => ?_⟩
  rw [Option.eq_none_iff_forall_ne_some]
  intro moment read
  exact (writesMoment_of_read read).shapeOf_eq.elim no_day no_daytime

end Documented

/-! ## A formatter for plain formats -/

/-- The field that a letter asks for. -/
def Field.ofLetter? : Char → Option Field
  | 'Y' => some year
  | 'm' => some month
  | 'd' => some day
  | 'H' => some hour
  | 'M' => some minute
  | 'S' => some second
  | _ => none

theorem Field.ofLetter?_letter (name : Field) : ofLetter? name.letter = some name := by
  cases name <;> rfl

/-- Reads a format of fields and characters that stand for themselves. -/
def readItems? : List Char → Option (List Item)
  | [] => some []
  | '%' :: letter :: format =>
      (Field.ofLetter? letter).bind fun name => (readItems? format).map (.field name :: ·)
  | c :: format => (readItems? format).map (.literal c :: ·)

theorem readItems?_written {items : List Item} (items_plain : items.all Item.isPlain) :
    readItems? (items.flatMap Item.written) = some items := by
  induction items with
  | nil => rfl
  | cons item items induction =>
      obtain ⟨item_plain, rest_plain⟩ := Bool.and_eq_true_iff.mp items_plain
      rw [List.flatMap_cons]
      cases item with
      | field name =>
          simp [Item.written, readItems?, Field.ofLetter?_letter, induction rest_plain]
      | literal c =>
          have no_mark : c ≠ '%' := by
            rintro rfl
            exact absurd item_plain (by decide)
          simp [Item.written, readItems?, no_mark, induction rest_plain]

/-- The numbers that a text shows, in the order of their fields. -/
def readNumbers? : List Item → List Char → Option (List (Field × Nat))
  | [], text => if text.isEmpty then some [] else none
  | .field name :: items, text =>
      let row := text.take name.width
      if row.length = name.width ∧ row.all Char.isDigit then
        (readNumbers? items (text.drop name.width)).map ((name, digitsValue row) :: ·)
      else none
  | .literal _ :: _, [] => none
  | .literal c :: items, d :: text => if c = d then readNumbers? items text else none

/-- The first number that is shown for a field. -/
def firstNumber (numbers : List (Field × Nat)) (name : Field) : Nat :=
  (numbers.lookup name).getD 0

/-- The number of each field, if a text shows no field twice with different numbers. -/
def numberOf? (items : List Item) (text : List Char) : Option (Field → Nat) :=
  (readNumbers? items text).bind fun numbers =>
    if ∀ shown ∈ numbers, firstNumber numbers shown.1 = shown.2 then some (firstNumber numbers)
    else none

section

variable {number other : Field → Nat} {items : List Item} {text : List Char}

theorem shows_iff_readNumbers? :
    Shows number items text ↔ ∃ numbers, readNumbers? items text = some numbers ∧
      ∀ shown ∈ numbers, number shown.1 = shown.2 := by
  induction items generalizing text with
  | nil =>
      rw [shows_nil_iff, readNumbers?]
      cases text <;> simp
  | cons item items induction =>
      cases item with
      | field name =>
          rw [shows_field_iff, readNumbers?]
          simp only [induction]
          constructor
          · rintro ⟨row, rest, written, ⟨numbers, read, same⟩, rfl⟩
            have digits := List.all_eq_true.mpr written.digits
            refine ⟨(name, digitsValue row) :: numbers, ?_, ?_⟩
            · simp only [List.take_left' written.length_eq, List.drop_left' written.length_eq, read,
                if_pos (And.intro written.length_eq digits), Option.map_some]
            · exact List.forall_mem_cons.mpr ⟨written.value_eq.symm, same⟩
          · rintro ⟨numbers, found, same⟩
            obtain ⟨⟨length_eq, digits⟩, mapped⟩ := Option.ite_none_right_eq_some.mp found
            obtain ⟨others, read, rfl⟩ := Option.map_eq_some_iff.mp mapped
            obtain ⟨same_here, same_behind⟩ := List.forall_mem_cons.mp same
            exact ⟨_, _, ⟨length_eq, List.all_eq_true.mp digits, same_here.symm⟩,
              ⟨others, read, same_behind⟩, List.take_append_drop ..⟩
      | literal c =>
          rw [shows_literal_iff]
          simp only [induction]
          cases text with
          | nil => simp [readNumbers?]
          | cons d text =>
              rw [readNumbers?]
              constructor
              · rintro ⟨rest, read, ⟨⟩⟩
                rwa [if_pos rfl]
              · rintro ⟨numbers, found, same⟩
                obtain ⟨rfl, read⟩ := Option.ite_none_right_eq_some.mp found
                exact ⟨text, ⟨numbers, read, same⟩, rfl⟩

/-- A text shows one number for a field that is asked for. -/
theorem Shows.number_eq (shows : Shows number items text) (again : Shows other items text)
    {name : Field} (asked : .field name ∈ items) : number name = other name := by
  induction shows with
  | nil => nomatch asked
  | @field first items row text written rest induction =>
      obtain ⟨row', text', written', rest', same⟩ := shows_field_iff.mp again
      obtain ⟨rfl, rfl⟩ := List.append_inj same (written'.length_eq.trans written.length_eq.symm)
      rcases List.mem_cons.mp asked with found | asked
      · cases found
        exact (written.eq_iff written').mp rfl
      · exact induction rest' asked
  | literal c rest induction =>
      obtain ⟨text', rest', same⟩ := shows_literal_iff.mp again
      cases same
      exact induction rest' ((List.mem_cons.mp asked).resolve_left nofun)

theorem firstNumber_eq {numbers : List (Field × Nat)}
    (same : ∀ shown ∈ numbers, number shown.1 = shown.2) :
    ∀ shown ∈ numbers, firstNumber numbers shown.1 = shown.2 := by
  induction numbers with
  | nil => nofun
  | cons first numbers induction =>
      obtain ⟨same_first, same_behind⟩ := List.forall_mem_cons.mp same
      intro shown member
      rw [firstNumber, List.lookup_cons]
      by_cases found : shown.1 = first.1
      · rw [← same shown member, found, beq_self_eq_true, same_first]
        rfl
      · have behind : shown ∈ numbers := by
          refine (List.mem_cons.mp member).resolve_left ?_
          rintro rfl
          exact found rfl
        rw [beq_eq_false_iff_ne.mpr found]
        exact induction same_behind shown behind

theorem shows_of_numberOf? (found : numberOf? items text = some number) :
    Shows number items text := by
  obtain ⟨numbers, read, found⟩ := Option.bind_eq_some_iff.mp found
  obtain ⟨same, ⟨⟩⟩ := Option.ite_none_right_eq_some.mp found
  exact shows_iff_readNumbers?.mpr ⟨numbers, read, same⟩

theorem exists_numberOf?_eq (shows : Shows number items text) :
    ∃ found, numberOf? items text = some found ∧
      ∀ name, .field name ∈ items → found name = number name := by
  obtain ⟨numbers, read, same⟩ := shows_iff_readNumbers?.mp shows
  have first_same := firstNumber_eq same
  refine ⟨firstNumber numbers, ?_, fun name asked => ?_⟩
  · rw [numberOf?, read]
    exact if_pos first_same
  · have again := shows_iff_readNumbers?.mpr ⟨numbers, read, first_same⟩
    exact again.number_eq shows asked

end

/-- The formatter that reads and writes these formats and no others. -/
def plain : Formatter where
  readDay? format text :=
    (readItems? format).bind fun items => (numberOf? items text).bind fun number =>
      Day.of? (number .year) (number .month) (number .day)
  readMoment? format text :=
    (readItems? format).bind fun items => (numberOf? items text).bind fun number =>
      Moment.ofFields? (clockFields number)
  write format moment := ((readItems? format).getD []).flatMap (Item.shown moment)

theorem plain_documented : plain.Documented where
  readDay_iff items text day items_plain asked shaped := by
    simp only [plain, readItems?_written items_plain, Option.bind_some, Option.bind_eq_some_iff,
      Day.of?_eq_some_iff]
    constructor
    · rintro ⟨number, found, fields_eq⟩
      exact ⟨number, shows_of_numberOf? found, fields_eq⟩
    · rintro ⟨number, shows, fields_eq⟩
      obtain ⟨found, read, same⟩ := exists_numberOf?_eq shows
      refine ⟨found, read, ?_⟩
      rw [same .year ((asked _).mpr (by decide)), same .month ((asked _).mpr (by decide)),
        same .day ((asked _).mpr (by decide))]
      exact fields_eq
  readMoment_iff items text moment items_plain asked shaped := by
    simp only [plain, readItems?_written items_plain, Option.bind_some, Option.bind_eq_some_iff,
      Moment.ofFields?_eq_some_iff]
    constructor
    · rintro ⟨number, found, fields_eq⟩
      exact ⟨number, shows_of_numberOf? found, fields_eq.symm⟩
    · rintro ⟨number, shows, fields_eq⟩
      obtain ⟨found, read, same⟩ := exists_numberOf?_eq shows
      obtain rfl : found = number := funext fun name => same name (asked name)
      exact ⟨found, read, fields_eq.symm⟩
  write_eq items moment items_plain := by
    simp only [plain, readItems?_written items_plain, Option.getD_some]

end Formatter
end RiskGraph

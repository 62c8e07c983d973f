import RiskGraph.Proofs.Expression
import RiskGraph.Text.Basic

/-!
# Digits in regular expressions

A regular expression may have a class that stands for the digits of all scripts, and ask for one or
more of them or for a given number.  It then stands for plain expressions, one for each choice of
the digits, and is found where one of these is.  Between anchors at both ends it is found only as
the whole of a text.
-/

namespace RiskGraph

/-- One or more digits of any scripts. -/
structure IsRow (row : List Char) : Prop where
  nonempty : row ≠ []
  digits : ∀ c ∈ row, isDecimalDigit c

/-- A given number of digits of any scripts. -/
structure IsRowOf (width : Nat) (row : List Char) : Prop where
  length_eq : row.length = width
  digits : ∀ c ∈ row, isDecimalDigit c

namespace Engine

/-! ## Expressions with digits -/

/-- The characters that have a meaning of their own in an expression. -/
def reserved : List Char :=
  ['\\', '.', '+', '*', '?', '(', ')', '|', '[', ']', '\x7b', '\x7d', '^', '$']

/-- A part of an expression that takes characters. -/
inductive Part where
  | literal (c : Char)
  /-- The class of digits, one or more of them. -/
  | row
  /-- The class of digits, as many of them as a digit says. -/
  | digits (width : Fin 10)

def Part.written : Part → List Char
  | literal c => if c ∈ reserved then ['\\', c] else [c]
  | row => ['\\', 'd', '+']
  | digits width => ['\\', 'd', '\x7b', width.val.digitChar, '\x7d']

/-- A part takes a row of characters. -/
def Part.Takes : Part → List Char → Prop
  | literal c => (· = [c])
  | row => IsRow
  | digits width => IsRowOf width

/-- A term of an expression: an anchor, or a part that takes characters. -/
inductive Term where
  | start
  | finish
  | part (part : Part)

def Term.written : Term → List Char
  | start => ['^']
  | finish => ['$']
  | part taking => taking.written

/-- Terms stand for plain expressions: every part for each row of characters that it takes. -/
inductive Stands : List Term → List Item → Prop
  | nil : Stands [] []
  | start {terms : List Term} {items : List Item} (rest : Stands terms items) :
      Stands (.start :: terms) (.start :: items)
  | finish {terms : List Term} {items : List Item} (rest : Stands terms items) :
      Stands (.finish :: terms) (.finish :: items)
  | part {part : Part} {row : List Char} {terms : List Term} {items : List Item}
      (taken : part.Takes row) (rest : Stands terms items) :
      Stands (.part part :: terms) (row.map .literal ++ items)

/-- Terms are found in a text if a plain expression is that they stand for. -/
def FoundTerms (terms : List Term) (text : List Char) : Prop :=
  ∃ items, Stands terms items ∧ Found items text

/-- The engine finds the terms that an expression is written with. -/
def DocumentedDigits (engine : Engine) : Prop :=
  ∀ (terms : List Term) (finds : List Char → Prop),
    engine.compile (terms.flatMap Term.written) = .ok finds →
      ∀ text, finds text ↔ FoundTerms terms text

/-! ## Anchors at both ends -/

/-- Parts between anchors at both ends. -/
def anchored (parts : List Part) : List Term :=
  .start :: parts.map .part ++ [.finish]

/-- A text is cut into rows that the parts take, one after the other. -/
def Cut : List Part → List Char → Prop
  | [], text => text = []
  | part :: parts, text => ∃ row rest, part.Takes row ∧ Cut parts rest ∧ row ++ rest = text

variable {parts others : List Part} {text before after : List Char} {items : List Item}

theorem cut_append_iff :
    Cut (parts ++ others) text ↔
      ∃ front back, Cut parts front ∧ Cut others back ∧ front ++ back = text := by
  induction parts generalizing text with
  | nil => simp [Cut]
  | cons part parts induction =>
      simp only [List.cons_append, Cut, induction]
      constructor
      · rintro ⟨row, _, taken, ⟨front, back, front_cut, back_cut, rfl⟩, rfl⟩
        exact ⟨row ++ front, back, ⟨row, front, taken, front_cut, rfl⟩, back_cut,
          List.append_assoc ..⟩
      · rintro ⟨_, back, ⟨row, front, taken, front_cut, rfl⟩, back_cut, rfl⟩
        exact ⟨row, front ++ back, taken, ⟨front, back, front_cut, back_cut, rfl⟩,
          (List.append_assoc ..).symm⟩

theorem cut_marked_iff {mark : Char} {width : Fin 10} :
    Cut (.literal mark :: .digits width :: parts) text ↔
      ∃ row rest, IsRowOf width row ∧ Cut parts rest ∧ mark :: row ++ rest = text := by
  constructor
  · rintro ⟨_, _, rfl, ⟨row, rest, digits, cut, rfl⟩, rfl⟩
    exact ⟨row, rest, digits, cut, rfl⟩
  · rintro ⟨row, rest, digits, cut, rfl⟩
    exact ⟨[mark], row ++ rest, rfl, ⟨row, rest, digits, cut, rfl⟩, rfl⟩

/-- With the end behind them, literals span themselves. -/
theorem spans_literals_iff {row : List Char} :
    Spans (row.map .literal ++ [.finish]) before text after ↔ after = [] ∧ text = row := by
  induction row generalizing before text with
  | nil =>
      rw [List.map_nil, List.nil_append, spans_cons_iff]
      constructor
      · rintro ⟨first, rest, here, ⟨⟩, rfl⟩
        cases here
        exact ⟨rfl, rfl⟩
      · rintro ⟨rfl, rfl⟩
        exact ⟨[], [], .finish, .nil, rfl⟩
  | cons c row induction =>
      simp only [List.map_cons, List.cons_append, spans_cons_iff, induction]
      constructor
      · rintro ⟨_, _, ⟨⟩, ⟨rfl, rfl⟩, rfl⟩
        exact ⟨rfl, rfl⟩
      · rintro ⟨rfl, rfl⟩
        exact ⟨[c], row, .literal c, ⟨rfl, rfl⟩, rfl⟩

theorem found_literals_iff {row : List Char} :
    Found (Item.start :: row.map .literal ++ [.finish]) text ↔ text = row := by
  simp only [Found, List.cons_append, spans_cons_iff, spans_literals_iff]
  constructor
  · rintro ⟨_, _, _, rfl, _, _, ⟨⟩, ⟨rfl, rfl⟩, rfl⟩
    simp
  · rintro rfl
    exact ⟨[], text, [], List.append_nil text, [], text, .start, ⟨rfl, rfl⟩, rfl⟩

/-- With the end behind them, parts stand for the rows that can be cut for them. -/
theorem stands_parts_iff :
    Stands (parts.map .part ++ [.finish]) items ↔
      ∃ row, Cut parts row ∧ items = row.map .literal ++ [.finish] := by
  induction parts generalizing items with
  | nil =>
      constructor
      · intro stands
        cases stands with
        | finish rest =>
            cases rest
            exact ⟨[], rfl, rfl⟩
      · rintro ⟨_, rfl, rfl⟩
        exact .finish .nil
  | cons part parts induction =>
      constructor
      · intro stands
        cases stands with
        | part taken rest =>
            obtain ⟨row, cut, rfl⟩ := induction.mp rest
            exact ⟨_, ⟨_, row, taken, cut, rfl⟩, by simp⟩
      · rintro ⟨_, ⟨row, rest, taken, cut, rfl⟩, rfl⟩
        rw [List.map_append, List.append_assoc]
        exact .part taken (induction.mpr ⟨rest, cut, rfl⟩)

/-- Between anchors at both ends, parts are found only in the texts that can be cut for them. -/
theorem foundTerms_anchored_iff : FoundTerms (anchored parts) text ↔ Cut parts text := by
  constructor
  · rintro ⟨_, stands, found⟩
    cases stands with
    | start rest =>
        obtain ⟨row, cut, rfl⟩ := stands_parts_iff.mp rest
        exact found_literals_iff.mp found ▸ cut
  · intro cut
    exact ⟨_, .start (stands_parts_iff.mpr ⟨text, cut, rfl⟩), found_literals_iff.mpr rfl⟩

theorem finds_anchored_iff {engine : Engine} {finds : List Char → Prop}
    (documented : engine.DocumentedDigits)
    (compiled : engine.compile ((anchored parts).flatMap Term.written) = .ok finds) :
    finds text ↔ Cut parts text :=
  (documented _ finds compiled text).trans foundTerms_anchored_iff

/-! ## Numbers and moments -/

def intParts : List Part := [.row]

def floatParts : List Part := [.row, .literal '.', .row]

def dayParts : List Part :=
  [.digits 4, .literal '-', .digits 2, .literal '-', .digits 2]

/-- The parts of a time behind a day. -/
def timeParts : List Part :=
  [.literal ' ', .digits 2, .literal ':', .digits 2, .literal ':', .digits 2]

/-- What an engine makes of the expressions of numbers and moments. -/
structure Tests (engine : Engine) where
  int : List Char → Prop
  int_compiled : engine.compile "^\\d+$".toList = .ok int
  float : List Char → Prop
  float_compiled : engine.compile "^\\d+\\.\\d+$".toList = .ok float
  day : List Char → Prop
  day_compiled :
    engine.compile "^\\d\x7b4\x7d-\\d\x7b2\x7d-\\d\x7b2\x7d$".toList = .ok day
  daytime : List Char → Prop
  daytime_compiled : engine.compile
    ("^\\d\x7b4\x7d-\\d\x7b2\x7d-\\d\x7b2\x7d " ++
      "\\d\x7b2\x7d:\\d\x7b2\x7d:\\d\x7b2\x7d$").toList = .ok daytime

/-! ## An engine for expressions with digits -/

/-- Reads an expression of anchors, characters and repeated digits. -/
def readTerms? : List Char → Option (List Term)
  | [] => some []
  | '^' :: rest => (readTerms? rest).map (.start :: ·)
  | '$' :: rest => (readTerms? rest).map (.finish :: ·)
  | '\\' :: 'd' :: '+' :: rest => (readTerms? rest).map (.part .row :: ·)
  | '\\' :: 'd' :: '\x7b' :: width :: '\x7d' :: rest =>
      if width.isDigit then
        (readTerms? rest).map (.part (.digits (Fin.ofNat 10 (width.toNat - '0'.toNat))) :: ·)
      else none
  | '\\' :: c :: rest =>
      if c ∈ reserved then (readTerms? rest).map (.part (.literal c) :: ·) else none
  | c :: rest => if c ∈ reserved then none else (readTerms? rest).map (.part (.literal c) :: ·)

/-- The engine that reads these expressions and no others. -/
@[reducible]
def digital : Engine where
  escape := escapeMeta
  compile expression :=
    (readTerms? expression).elim (.error "not such an expression") (.ok ∘ FoundTerms)

theorem readTerms?_literal (c : Char) (rest : List Char) :
    readTerms? ((Part.literal c).written ++ rest) =
      (readTerms? rest).map (.part (.literal c) :: ·) := by
  by_cases special : c ∈ reserved
  · rw [Part.written, if_pos special]
    have no_class : c ≠ 'd' := by
      rintro rfl
      exact absurd special (by decide)
    simp [readTerms?, special, no_class]
  · rw [Part.written, if_neg special, List.singleton_append, readTerms?, if_neg special]
    -- the characters that are read in another way are all reserved
    all_goals
      intros
      subst c
      exact absurd (by decide) special

theorem readTerms?_written (terms : List Term) :
    readTerms? (terms.flatMap Term.written) = some terms := by
  induction terms with
  | nil => rfl
  | cons term terms induction =>
      rw [List.flatMap_cons]
      cases term with
      | start | finish => simp [Term.written, readTerms?, induction]
      | part part =>
          cases part with
          | literal c => rw [Term.written, readTerms?_literal, induction, Option.map_some]
          | row => simp [Term.written, Part.written, readTerms?, induction]
          | digits width =>
              have value_eq : Fin.ofNat 10 (width.val.digitChar.toNat - '0'.toNat) = width := by
                decide +revert
              simpa [Term.written, Part.written, readTerms?, Nat.isDigit_digitChar, induction]
                using value_eq

theorem digital_compile (terms : List Term) :
    digital.compile (terms.flatMap Term.written) = .ok (FoundTerms terms) :=
  congrArg (Option.elim · _ _) (readTerms?_written terms)

theorem digital_documented : digital.DocumentedDigits := by
  intro terms finds compiled text
  cases (digital_compile terms).symm.trans compiled
  rfl

/-- What the engine for expressions with digits makes of them. -/
def digitalTests : digital.Tests where
  int := FoundTerms (anchored intParts)
  int_compiled := digital_compile (anchored intParts)
  float := FoundTerms (anchored floatParts)
  float_compiled := digital_compile (anchored floatParts)
  day := FoundTerms (anchored dayParts)
  day_compiled := digital_compile (anchored dayParts)
  daytime := FoundTerms (anchored (dayParts ++ timeParts))
  daytime_compiled := digital_compile (anchored (dayParts ++ timeParts))

end Engine
end RiskGraph

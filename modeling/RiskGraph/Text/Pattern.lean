/-!
# Text patterns

In a pattern the percent sign takes any run of characters and the underscore any single one; neither
takes a line feed.  Every other character takes itself, and a pattern takes a whole text or nothing.

A pattern is read by an engine for regular expressions, as an expression anchored at both ends: a
point stands for each wild card, with a star behind it for a run, and every other character is
escaped.  The engine may refuse an expression, for its size above all.
-/

namespace RiskGraph

/-! ## Patterns -/

/-- One part of a pattern. -/
inductive Pattern.Piece where
  /-- Takes a possibly empty run of characters on one line. -/
  | run
  /-- Takes one character other than a line feed. -/
  | any
  /-- Takes one occurrence of a character. -/
  | exactly (c : Char)
  deriving DecidableEq

/-- A pattern is a row of pieces. -/
structure Pattern where
  /-- The pieces in the order in which they take the text. -/
  pieces : List Pattern.Piece
  deriving DecidableEq

namespace Pattern

/-- The piece that a character of a written pattern stands for. -/
def Piece.ofChar : Char → Piece
  | '%' => .run
  | '_' => .any
  | c => .exactly c

/-- The pattern that a text writes. -/
def ofText (text : String) : Pattern :=
  ⟨text.toList.map Piece.ofChar⟩

/-- For each tail of a row of pieces, the longest first, whether it takes the empty text. -/
def emptyRow : List Piece → List Bool
  | [] => [true]
  | piece :: rest =>
      let row := emptyRow rest
      (piece == .run && row.headD false) :: row

/-- For each tail of a row of pieces, whether it takes a text that starts with `c`, given the same
for the text behind `c`. -/
def nextRow (c : Char) : List Piece → List Bool → List Bool
  | piece :: rest, here :: later =>
      let row := nextRow c rest later
      let taken := match piece with
        | .run => row.headD false || (c != '\n' && here)
        | .any => c != '\n' && later.headD false
        | .exactly d => c == d && later.headD false
      taken :: row
  | _, _ => [false]

/-- Whether a pattern takes the whole of a text. -/
def takes (pattern : Pattern) (text : String) : Bool :=
  let row := text.toList.foldr (fun c row => nextRow c pattern.pieces row) (emptyRow pattern.pieces)
  row.headD false

end Pattern

/-! ## Regular expressions -/

/-- An engine for regular expressions. -/
class Engine where
  /-- How a character is written so that it stands for itself. -/
  escape : Char → List Char
  /-- Whether an expression is found in a text, or the reason why it cannot be compiled. -/
  compile : List Char → Except String (List Char → Prop)

namespace Engine

/-- What is written for a character of a pattern. -/
def translated (engine : Engine) : Char → List Char
  | '%' => ['.', '*']
  | '_' => ['.']
  | c => engine.escape c

/-- The expression that is written for a pattern. -/
def expressionOf (engine : Engine) (pattern : List Char) : List Char :=
  '^' :: pattern.flatMap engine.translated ++ ['$']

/-! ## An engine for plain expressions -/

/-- An item of an expression without groups, classes and alternatives. -/
inductive Item where
  | start
  | finish
  | point
  /-- A point with a star behind it. -/
  | points
  | literal (c : Char)

/-- An item spans a part of a text, given what stands before the part and after it. -/
inductive Item.Spans : Item → List Char → List Char → List Char → Prop
  | start {after : List Char} : Spans .start [] [] after
  | finish {before : List Char} : Spans .finish before [] []
  | point {c : Char} {before after : List Char} (same_line : c ≠ '\n') :
      Spans .point before [c] after
  | points {before part after : List Char} (same_line : ∀ c ∈ part, c ≠ '\n') :
      Spans .points before part after
  | literal {before after : List Char} (c : Char) : Spans (.literal c) before [c] after

/-- Items one after the other span a part of a text. -/
inductive Spans : List Item → List Char → List Char → List Char → Prop
  | nil {before after : List Char} : Spans [] before [] after
  | cons {item : Item} {items : List Item} {before part rest after : List Char}
      (here : item.Spans before part (rest ++ after))
      (later : Spans items (before ++ part) rest after) :
      Spans (item :: items) before (part ++ rest) after

/-- Items are found in a text if they span some part of it. -/
def Found (items : List Item) (text : List Char) : Prop :=
  ∃ before part after, before ++ part ++ after = text ∧ Spans items before part after

/-- The characters that are escaped. -/
def metacharacters : List Char :=
  ['\\', '.', '+', '*', '?', '(', ')', '|', '[', ']', '\x7b', '\x7d', '^', '$', '#', '&', '-', '~']

def escapeMeta (c : Char) : List Char :=
  if c ∈ metacharacters then ['\\', c] else [c]

/-- Reads an expression without groups, classes and alternatives. -/
def readItems? : List Char → Option (List Item)
  | [] => some []
  | '^' :: rest => (readItems? rest).map (.start :: ·)
  | '$' :: rest => (readItems? rest).map (.finish :: ·)
  | '.' :: '*' :: rest => (readItems? rest).map (.points :: ·)
  | '.' :: rest => (readItems? rest).map (.point :: ·)
  | '\\' :: c :: rest =>
      if c ∈ metacharacters then (readItems? rest).map (.literal c :: ·) else none
  | c :: rest => if c ∈ metacharacters then none else (readItems? rest).map (.literal c :: ·)

/-- The engine that reads plain expressions of any size and no others. -/
@[reducible]
def plain : Engine where
  escape := escapeMeta
  compile expression :=
    (readItems? expression).elim (.error "not a plain expression") (.ok ∘ Found)

namespace Plain

/-- Where this is opened, patterns are read by the plain engine. -/
scoped instance : Engine :=
  plain

end Plain

end Engine
end RiskGraph

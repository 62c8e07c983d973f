import RiskGraph.Numeric.Shortest
import RiskGraph.Text.Basic

/-!
# JSON data and documents

JSON data is a tree: a number is an integer of at most 64 bits, signed or not, or a finite real; an
object has its members in the order of their keys, each key once.  A document is a JSON text as it
is written: members keep their order and may repeat a key, a text may hold half of a surrogate pair
and a number may be too large.  Such a text or number has no content; it does no harm where it is
not read.  `toJson?` gives the data of a document in which everything can be read; a text is read
only if nothing in it is nested too deeply, a limit that data at hand does not know.

Data is written on one line without gaps.  Texts escape the quote, the backslash and the control
characters of ASCII; all other characters stand for themselves.
-/

namespace RiskGraph

/-! ## Data -/

inductive JsonNumber where
  /-- An integer from `-2 ^ 63` to `2 ^ 64 - 1`. -/
  | integer (n : Int)
  | real (x : Binary64)

/-- A tree of JSON data. -/
inductive Json where
  | null
  | bool (b : Bool)
  | number (n : JsonNumber)
  | text (content : String)
  | array (items : List Json)
  | object (members : List (String × Json))

/-- Sets a member of a row that is sorted by key. -/
def setMember {α : Type} (key : String) (value : α) : List (String × α) → List (String × α)
  | [] => [(key, value)]
  | (other, old) :: members =>
      if key < other then (key, value) :: (other, old) :: members
      else if key = other then (key, value) :: members
      else (other, old) :: setMember key value members

/-- The members sorted by key; of members under one key the last counts. -/
def sortMembers {α : Type} (members : List (String × α)) : List (String × α) :=
  members.foldl (fun sorted (key, value) => setMember key value sorted) []

/-! ## Documents -/

/-- A JSON text as it is written. -/
inductive Document where
  | null
  | bool (b : Bool)
  /-- A number, unless it is too large. -/
  | number (content : Option JsonNumber)
  /-- A text, unless it is broken. -/
  | text (content : Option String)
  | array (items : List Document)
  /-- Members in the order of writing. -/
  | object (members : List (Option String × Document))

namespace Document

mutual

/-- Number of arrays and objects that lie around the innermost part of a document. -/
def nesting : Document → Nat
  | array items => nestingOfItems items + 1
  | object members => nestingOfMembers members + 1
  | _ => 0

/-- The nesting of the documents of a row. -/
def nestingOfItems : List Document → Nat
  | [] => 0
  | item :: items => max (nesting item) (nestingOfItems items)

/-- The nesting of the documents of members. -/
def nestingOfMembers : List (Option String × Document) → Nat
  | [] => 0
  | (_, value) :: members => max (nesting value) (nestingOfMembers members)

end

mutual

/-- The data of a document in which everything can be read. -/
def toJson? : Document → Option Json
  | null => some .null
  | bool b => some (.bool b)
  | number content => content.map .number
  | text content => content.map .text
  | array items => (toItems? items).map .array
  | object members => (toMembers? members).map fun members => .object (sortMembers members)

/-- The data of a row of documents. -/
def toItems? : List Document → Option (List Json)
  | [] => some []
  | item :: items =>
      match toJson? item, toItems? items with
      | some first, some others => some (first :: others)
      | _, _ => none

/-- The data of members, in the order of writing. -/
def toMembers? : List (Option String × Document) → Option (List (String × Json))
  | [] => some []
  | (key, value) :: members =>
      match key, toJson? value, toMembers? members with
      | some key, some first, some others => some ((key, first) :: others)
      | _, _, _ => none

end

/-- The data of a document with at most `depth` arrays and objects around any part. -/
def toJsonWithin? (depth : Nat) (document : Document) : Option Json :=
  if document.nesting ≤ depth then document.toJson? else none

/-- Number of arrays and objects that may lie around any part of a text. -/
def depthLimit : Nat := 127

mutual

/-- The document that writes JSON data. -/
def ofJson : Json → Document
  | .null => null
  | .bool b => bool b
  | .number n => number (some n)
  | .text content => text (some content)
  | .array items => array (ofItems items)
  | .object members => object (ofMembers members)

/-- The documents that write a row of JSON data. -/
def ofItems : List Json → List Document
  | [] => []
  | item :: items => ofJson item :: ofItems items

/-- The members that write those of an object. -/
def ofMembers : List (String × Json) → List (Option String × Document)
  | [] => []
  | (key, value) :: members => (some key, ofJson value) :: ofMembers members

end

end Document

/-! ## Writing -/

namespace Json

/-- The two hexadecimal digits of a control character. -/
def controlDigits (c : Char) : List Char :=
  [Nat.digitChar (c.toNat / 16), Nat.digitChar (c.toNat % 16)]

/-- A character as it stands in a text. -/
def escapedChar (c : Char) : List Char :=
  if c = '"' then ['\\', '"']
  else if c = '\\' then ['\\', '\\']
  else if c = '\x08' then ['\\', 'b']
  else if c = '\x0c' then ['\\', 'f']
  else if c = '\n' then ['\\', 'n']
  else if c = '\r' then ['\\', 'r']
  else if c = '\t' then ['\\', 't']
  else if c.toNat < 0x20 then '\\' :: 'u' :: '0' :: '0' :: controlDigits c
  else [c]

/-- A text as it is written. -/
def writeText (content : String) : String :=
  String.ofList ('"' :: content.toList.flatMap escapedChar ++ ['"'])

/-- A number as it is written. -/
def writeNumber : JsonNumber → String
  | .integer n => integerText n
  | .real x => RealNotation.pointed.write x

mutual

/-- The text of JSON data. -/
def write : Json → String
  | null => "null"
  | bool b => truthText b
  | number n => writeNumber n
  | text content => writeText content
  | array items => "[" ++ ",".intercalate (writeItems items) ++ "]"
  | object members => "\x7b" ++ ",".intercalate (writeMembers members) ++ "\x7d"

/-- The texts of a row of JSON data. -/
def writeItems : List Json → List String
  | [] => []
  | item :: items => item.write :: writeItems items

/-- The texts of members, each a key and its value. -/
def writeMembers : List (String × Json) → List String
  | [] => []
  | (key, value) :: members => (writeText key ++ ":" ++ value.write) :: writeMembers members

end

end Json

end RiskGraph

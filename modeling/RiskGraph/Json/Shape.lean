import RiskGraph.Json.Document
import RiskGraph.Numeric.Shortest
import RiskGraph.Text.Basic
import RiskGraph.Text.Quoted

/-!
# Shapes of JSON data

Definitions and settings are read from documents of a certain shape.  A record is written as an
object or as an array of its fields in order; unknown members are ignored.  Faults are found in the
order of writing, and a field is missed only after all members have been read.
-/

namespace RiskGraph

/-- Why a document does not have the shape asked for. -/
inductive ShapeFault where
  /-- A record lacks a field. -/
  | missingField (name : String)
  /-- A record has a field twice. -/
  | duplicateField (name : String)
  /-- A part is not of the sort asked for. -/
  | unexpected (found expected : String)
  /-- An array ends before a field that is needed. -/
  | tooShort (length : Nat) (expected : String)
  /-- An array goes on behind the last field of a text. -/
  | trailing
  /-- An array within settings has more items than fields. -/
  | tooLong (length : Nat)
  /-- A choice is none of those offered. -/
  | unknownChoice (found : String)
  /-- A choice is written as an object, but not of one member. -/
  | notOneKey
  /-- An operator is unknown. -/
  | unknownOperator (text : String)
  /-- A text is broken, a number too large, or the nesting too deep. -/
  | unreadable
  deriving DecidableEq

namespace ShapeFault

/-- Wording of a fault. -/
def message : ShapeFault → String
  | missingField name => s!"missing field `{name}`"
  | duplicateField name => s!"duplicate field `{name}`"
  | unexpected found expected => s!"invalid type: {found}, expected {expected}"
  | tooShort length expected => s!"invalid length {length}, expected {expected}"
  | trailing => "trailing characters"
  | tooLong length => s!"invalid length {length}, expected fewer elements in array"
  | unknownChoice found => s!"unknown variant `{found}`, expected `and` or `or`"
  | notOneKey => "invalid value: map, expected map with a single key"
  | unknownOperator text => s!"unknown operator '{text}'"
  | unreadable => "unreadable text or number"

end ShapeFault

/-- The result of reading a document. -/
abbrev Reading (α : Type) := Except ShapeFault α

namespace Document

/-- What a document is, in the words of a fault. -/
def description : Document → String
  | null => "null"
  | bool b => s!"boolean `{truthText b}`"
  | number (some (.integer n)) => s!"integer `{integerText n}`"
  | number (some (.real x)) => s!"floating point `{RealNotation.pointed.write x}`"
  | number none => "number"
  | text (some content) => "string " ++ quoted content
  | text none => "string"
  | array _ => "sequence"
  | object _ => "map"

/-- The fault of a document that is not of the sort asked for. -/
def unfit {α : Type} (document : Document) (expected : String) : Reading α :=
  match document with
  | text none | number none => .error .unreadable
  | _ => .error (.unexpected document.description expected)

/-- Reads a text. -/
def readText : Document → Reading String
  | text (some content) => .ok content
  | document => document.unfit "a string"

/-- Reads a truth value. -/
def readBool : Document → Reading Bool
  | bool b => .ok b
  | document => document.unfit "a boolean"

/-- Reads a truth value that may be missing. -/
def readBool? : Document → Reading (Option Bool)
  | null => .ok none
  | document => document.readBool.map some

/-- Reads a real. -/
def readReal : Document → Reading Binary64
  | number (some (.integer n)) => .ok (Binary64.ofInt n)
  | number (some (.real x)) => .ok x
  | document => document.unfit "f64"

/-- Reads each item of an array. -/
def readItems {α : Type} (read : Document → Reading α) : Document → Reading (List α)
  | array items => items.mapM read
  | document => document.unfit "a sequence"

/-- Data that has been read, if it can be read. -/
def readable : Option Json → Reading Json
  | some json => .ok json
  | none => .error .unreadable

end Document

/-- Fills a field of a draft that must not be filled yet. -/
def fillOnce {α : Type} (name : String) (field : Option α) (reading : Reading α) :
    Reading (Option α) :=
  if field.isSome then .error (.duplicateField name) else reading.map some

/-- How a record is read: members fill the fields of a draft, and a draft without gaps becomes the
record. -/
structure RecordShape (draft record : Type) where
  /-- Name of the record in the words of a fault. -/
  name : String
  /-- Names of the fields in order. -/
  fields : List String
  /-- The draft without fields. -/
  blank : draft
  /-- Fills the field of the given name. -/
  fill : draft → String → Document → Reading draft
  /-- Completes a draft; a gap is the given fault of the field of that name. -/
  complete : draft → (String → ShapeFault) → Reading record
  /-- The fault of an array with more items than fields. -/
  overlong : Nat → ShapeFault

namespace RecordShape

variable {draft record : Type}

/-- What a record is, in the words of a fault. -/
def title (shape : RecordShape draft record) : String :=
  "struct " ++ shape.name

/-- Reads a member; one under an unknown key changes nothing. -/
def fillMember (shape : RecordShape draft record) (begun : draft)
    (member : Option String × Document) : Reading draft :=
  match member.1 with
  | none => .error .unreadable
  | some key =>
      if shape.fields.contains key then shape.fill begun key member.2 else .ok begun

/-- Reads a record from the members of an object. -/
def ofMembers (shape : RecordShape draft record) (members : List (Option String × Document)) :
    Reading record := do
  let filled ← members.foldlM shape.fillMember shape.blank
  shape.complete filled .missingField

/-- The fault of an array that ends before the field of a name. -/
def gap (shape : RecordShape draft record) (name : String) : ShapeFault :=
  .tooShort (shape.fields.idxOf name)
    s!"{shape.title} with {shape.fields.length} elements"

/-- Reads a record from the items of an array. -/
def ofItems (shape : RecordShape draft record) (items : List Document) : Reading record := do
  let filled ← (shape.fields.zip items).foldlM
    (fun begun (name, item) => shape.fill begun name item) shape.blank
  let result ← shape.complete filled shape.gap
  if shape.fields.length < items.length then .error (shape.overlong items.length)
  else .ok result

/-- Reads a record. -/
def read (shape : RecordShape draft record) : Document → Reading record
  | .object members => shape.ofMembers members
  | .array items => shape.ofItems items
  | document => document.unfit shape.title

end RecordShape

/-- The content of a field that has no default. -/
def needed {α : Type} (fault : String → ShapeFault) (name : String) : Option α → Reading α
  | some content => .ok content
  | none => .error (fault name)

end RiskGraph

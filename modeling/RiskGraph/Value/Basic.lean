import RiskGraph.Calendar
import RiskGraph.Json.Document
import RiskGraph.Table

/-!
# Values

A value is what a feature or a threshold holds: a loosely typed datum whose written form need not
tell what it stands for.  This module gives the data, their equality and their text.  A map is a
hash map: each yields its entries in an order of its own, which is neither the order of the keys nor
that of their insertion, and which equality and text do not depend on.  Every tree of JSON data is a
value: a number without point and exponent is an integer as long as it has 64 bits, and an object is
a map.  No tree stands for a date, which is written as a text.
-/

namespace RiskGraph

/-! ## Keys of a map -/

/-- The keys of a map, in the order in which it yields its entries. -/
structure Keys where
  names : List String
  distinct : names.Nodup

namespace Keys

/-- One of the keys. -/
abbrev Member (keys : Keys) : Type :=
  { key : String // key ∈ keys.names }

/-- The keys one after the other. -/
def members (keys : Keys) : List keys.Member :=
  keys.names.attach

/-- What lies under the keys, as entries. -/
def entries {α : Type} (keys : Keys) (under : keys.Member → α) : List (String × α) :=
  keys.members.map fun key => (key.val, under key)

/-- The same keys in alphabetical order. -/
def sorted (keys : Keys) : Keys :=
  ⟨sortTexts keys.names, (sortTexts_perm keys.names).nodup_iff.mpr keys.distinct⟩

/-- A key of the sorted row, as one of the row itself. -/
def unsort (keys : Keys) (key : keys.sorted.Member) : keys.Member :=
  ⟨key.val, (sortTexts_perm keys.names).mem_iff.mp key.property⟩

end Keys

/-! ## Data -/

/-- A feature or threshold value. -/
inductive Value where
  /-- An integer of 64 bits. -/
  | int (n : Int64)
  | real (x : Binary64)
  | bool (b : Bool)
  | date (moment : Moment)
  /-- A text, which may write a value of another sort. -/
  | text (content : String)
  | array (items : List Value)
  /-- Values under keys; the order of the keys belongs to this map alone. -/
  | map (keys : Keys) (under : { key : String // key ∈ keys.names } → Value)
  | null

namespace Value

/-- An integer of any size: exact within 64 bits, else the nearest real. -/
def ofInt (n : Int) : Value :=
  match toInt64? n with
  | some word => int word
  | none => real (Binary64.ofInt n)

/-- The map of a table, which yields the entries in their order there. -/
def ofTable (table : Table Value) : Value :=
  map ⟨Entries.keys table.entries, table.distinct⟩ fun key =>
    Entries.under table.entries key.val key.property

theorem entries_ofTable (table : Table Value) :
    Keys.entries ⟨Entries.keys table.entries, table.distinct⟩
        (fun key => Entries.under table.entries key.val key.property) = table.entries :=
  Entries.map_attach_keys table.distinct

mutual

/-- Equality of two values of one sort.  Reals are compared as numbers, maps key by key in any
order; values of different sorts are never equal. -/
def same : Value → Value → Bool
  | int m, int n => m == n
  | real x, real y => x.same y
  | bool a, bool b => a == b
  | date a, date b => a == b
  | text s, text t => s == t
  | array items, array others => sameItems items others
  | map keys under, map others values =>
      keys.names.length == others.names.length && keys.members.all fun key =>
        if present : key.val ∈ others.names then (under key).same (values ⟨key.val, present⟩)
        else false
  | null, null => true
  | _, _ => false

/-- Equality of two rows of values, item by item. -/
def sameItems : List Value → List Value → Bool
  | [], [] => true
  | item :: items, other :: others => item.same other && sameItems items others
  | _, _ => false

end

mutual

/-- Text of a value; a text stands without quotes, and entries of a map in the order of keys. -/
def shown : Value → String
  | int n => integerText n.toInt
  | real x => RealNotation.plain.write x
  | bool b => truthText b
  | date moment => moment.text
  | text content => content
  | array items => "[" ++ ", ".intercalate (shownItems items) ++ "]"
  | map keys under =>
      let entries := keys.sorted.members.map fun key =>
        key.val ++ ": " ++ (under (keys.unsort key)).shown
      "\x7b" ++ ", ".intercalate entries ++ "\x7d"
  | null => "null"

/-- Texts of the values of a row. -/
def shownItems : List Value → List String
  | [] => []
  | item :: items => item.shown :: shownItems items

end

/-! ### Other orders -/

mutual

/-- The value with the entries of maps in the order of keys, at every depth. -/
def sorted : Value → Value
  | int n => int n
  | real x => real x
  | bool b => bool b
  | date moment => date moment
  | text content => text content
  | array items => array (sortedItems items)
  | map keys under => map keys.sorted fun key => (under (keys.unsort key)).sorted
  | null => null

/-- The values of a row with the entries of maps in the order of keys. -/
def sortedItems : List Value → List Value
  | [] => []
  | item :: items => item.sorted :: sortedItems items

end

/-- Two values differ at most in the orders in which maps yield their entries. -/
def Alike (left right : Value) : Prop :=
  left.sorted = right.sorted

end Value

/-! ## Values written as JSON data -/

/-- The value that a JSON number is. -/
def JsonNumber.toValue : JsonNumber → Value
  | integer n => Value.ofInt n
  | real x => .real x

mutual

/-- The value that JSON data is. -/
def Json.toValue : Json → Value
  | null => .null
  | bool b => .bool b
  | number n => n.toValue
  | text content => .text content
  | array items => .array (toValues items)
  | object members => .ofTable (Table.ofList (toEntries members))

/-- The values that a row of JSON data is. -/
def Json.toValues : List Json → List Value
  | [] => []
  | item :: items => item.toValue :: toValues items

/-- The entries that members are. -/
def Json.toEntries : List (String × Json) → List (String × Value)
  | [] => []
  | (key, value) :: members => (key, value.toValue) :: toEntries members

end

end RiskGraph

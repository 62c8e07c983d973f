import RiskGraph.Json.Document
import RiskGraph.Numeric.Numeral

/-!
# Reading JSON texts

A JSON text falls into tokens: brackets, separators, and the leaves, which are texts, numbers and
the three names.  The scanner goes through the characters once and keeps what it has begun; a leaf
that is no text is the longest run of characters without blank space, brackets and separators.  The
reader goes through the tokens once and keeps the arrays and objects that are open.  What may come
next depends only on the innermost of them and on its last token.

A JSON text does not say to which number of the machine a real is brought.  That is the business of
a `RealReader`, which is a parameter of what follows.
-/

namespace RiskGraph

/-! ## Reals -/

/-- A way to read reals: the number of a numeral, which is an infinity if the numeral is too
large. -/
class RealReader where
  read : (negative : Bool) → Numeral → Binary64

namespace RealReader

/-- Reals are read as the numbers nearest to them. -/
@[reducible]
def nearest : RealReader where
  read := Numeral.rounded Binary64.ofQuotient

/-- Reals are read in steps. -/
@[reducible]
def inSteps : RealReader where
  read := Numeral.inSteps

end RealReader

namespace RealReader.Nearest

scoped instance : RealReader := nearest

end RealReader.Nearest

namespace RealReader.InSteps

scoped instance : RealReader := inSteps

end RealReader.InSteps

/-! ## Tokens -/

/-- A token of a JSON text. -/
inductive JsonToken where
  | openArray
  | closeArray
  | openObject
  | closeObject
  | comma
  | colon
  /-- A document without parts. -/
  | leaf (document : Document)

namespace JsonToken

/-- The token that a single character is. -/
def ofMark? : Char → Option JsonToken
  | '[' => some openArray
  | ']' => some closeArray
  | '\x7b' => some openObject
  | '\x7d' => some closeObject
  | ',' => some comma
  | ':' => some colon
  | _ => none

/-- Whether a character may stand between tokens without a meaning. -/
def isGap (c : Char) : Bool :=
  c == ' ' || c == '\n' || c == '\t' || c == '\r'

/-- A finite real as a number. -/
def realNumber : Binary64 → Option JsonNumber
  | .finite negative units magnitude => some (.real (.finite negative units magnitude))
  | _ => none

variable [reader : RealReader]

/-- The number of a numeral.  A row of digits within 64 bits is an integer, all else a real, also
the negative zero. -/
def numberOf (negative : Bool) (numeral : Numeral) : Option JsonNumber :=
  let size := numeral.coefficient
  let n : Int := if negative then -(size : Int) else size
  if numeral.isWhole ∧ ¬(negative ∧ size = 0) ∧ -int64Limit ≤ n ∧ n < 2 * int64Limit then
    some (.integer n)
  else realNumber (reader.read negative numeral)

/-- Reads the digits of a number behind its sign. -/
def unsignedNumber? (negative : Bool) (word : List Char) : Option Document :=
  (Numeral.ofText? word).bind fun numeral =>
    if numeral.isStandard then some (.number (numberOf negative numeral)) else none

/-- Reads a number or one of the three names. -/
def word? (word : List Char) : Option Document :=
  if word = ['n', 'u', 'l', 'l'] then some .null
  else if word = ['t', 'r', 'u', 'e'] then some (.bool true)
  else if word = ['f', 'a', 'l', 's', 'e'] then some (.bool false)
  else match word with
    | '-' :: digits => unsignedNumber? true digits
    | digits => unsignedNumber? false digits

/-- The number that a hexadecimal digit stands for. -/
def hexDigit? (c : Char) : Option Nat :=
  if '0' ≤ c ∧ c ≤ '9' then some (c.toNat - '0'.toNat)
  else if 'a' ≤ c ∧ c ≤ 'f' then some (c.toNat - 'a'.toNat + 10)
  else if 'A' ≤ c ∧ c ≤ 'F' then some (c.toNat - 'A'.toNat + 10)
  else none

/-- The character that a letter stands for behind a backslash. -/
def escaped? : Char → Option Char
  | '"' => some '"'
  | '\\' => some '\\'
  | '/' => some '/'
  | 'b' => some '\x08'
  | 'f' => some '\x0c'
  | 'n' => some '\n'
  | 'r' => some '\r'
  | 't' => some '\t'
  | _ => none

/-- Whether a code is the first half of a surrogate pair. -/
def isHighSurrogate (code : Nat) : Bool :=
  0xd800 ≤ code && code < 0xdc00

/-- Whether a code is the second half of a surrogate pair. -/
def isLowSurrogate (code : Nat) : Bool :=
  0xdc00 ≤ code && code < 0xe000

/-- The characters that codes write; the halves of a surrogate pair must stand together. -/
def joinCodes? : List Nat → Option (List Char)
  | [] => some []
  | high :: low :: codes =>
      if isHighSurrogate high then
        if isLowSurrogate low then
          (joinCodes? codes).map
            (Char.ofNat (0x10000 + (high - 0xd800) * 0x400 + (low - 0xdc00)) :: ·)
        else none
      else if isLowSurrogate high then none
      else (joinCodes? (low :: codes)).map (Char.ofNat high :: ·)
  | [code] =>
      if isHighSurrogate code ∨ isLowSurrogate code then none else some [Char.ofNat code]

/-- What the scanner has begun; letters and codes are kept with the latest first. -/
inductive Begun where
  | nothing
  | word (letters : List Char)
  | text (codes : List Nat)
  /-- A backslash within a text. -/
  | escape (codes : List Nat)
  /-- A code within a text, of which some hexadecimal digits have been read. -/
  | code (codes : List Nat) (digits value : Nat)

/-- The scanner: the tokens so far, the latest first, and what has been begun. -/
structure Scanner where
  tokens : List JsonToken := []
  begun : Begun := .nothing

namespace Scanner

/-- Completes a word. -/
def endWord? (scanner : Scanner) : Option Scanner :=
  match scanner.begun with
  | .word letters =>
      (word? letters.reverse).map fun document =>
        { tokens := .leaf document :: scanner.tokens }
  | _ => some scanner

/-- Reads a character between tokens. -/
def start? (scanner : Scanner) (c : Char) : Option Scanner :=
  if isGap c then some scanner
  else if c = '"' then some { scanner with begun := .text [] }
  else match ofMark? c with
    | some mark => some { scanner with tokens := mark :: scanner.tokens }
    | none => some { scanner with begun := .word [c] }

/-- Reads a character of a text that holds the given codes. -/
def textStep? (scanner : Scanner) (codes : List Nat) (c : Char) : Option Scanner :=
  if c = '"' then
    let content := (joinCodes? codes.reverse).map String.ofList
    some { tokens := .leaf (.text content) :: scanner.tokens }
  else if c = '\\' then some { scanner with begun := .escape codes }
  else if c.toNat < 0x20 then none
  else some { scanner with begun := .text (c.toNat :: codes) }

/-- Reads a character behind a backslash. -/
def escapeStep? (scanner : Scanner) (codes : List Nat) (c : Char) : Option Scanner :=
  if c = 'u' then some { scanner with begun := .code codes 0 0 }
  else (escaped? c).map fun plain => { scanner with begun := .text (plain.toNat :: codes) }

/-- Reads a hexadecimal digit of a code, the fourth of which completes it. -/
def codeStep? (scanner : Scanner) (codes : List Nat) (digits value : Nat) (c : Char) :
    Option Scanner :=
  (hexDigit? c).map fun digit =>
    let value := 16 * value + digit
    { scanner with
      begun := if digits = 3 then .text (value :: codes) else .code codes (digits + 1) value }

/-- Reads one character. -/
def step? (scanner : Scanner) (c : Char) : Option Scanner :=
  match scanner.begun with
  | .nothing => scanner.start? c
  | .word letters =>
      if isGap c ∨ c = '"' ∨ (ofMark? c).isSome then
        scanner.endWord?.bind fun ended => ended.start? c
      else some { scanner with begun := .word (c :: letters) }
  | .text codes => scanner.textStep? codes c
  | .escape codes => scanner.escapeStep? codes c
  | .code codes digits value => scanner.codeStep? codes digits value c

/-- The tokens of a text that has been read to its end. -/
def finish? (scanner : Scanner) : Option (List JsonToken) :=
  scanner.endWord?.bind fun ended =>
    match ended.begun with
    | .nothing => some ended.tokens.reverse
    | _ => none

end Scanner

/-- The tokens of a text. -/
def scan? (text : String) : Option (List JsonToken) :=
  (text.toList.foldlM Scanner.step? {}).bind Scanner.finish?

end JsonToken

/-! ## Reading -/

/-- An array or object that is open; parts are kept with the latest first. -/
inductive JsonFrame where
  | array (items : List Document)
  | object (members : List (Option String × Document))
  /-- An object whose latest key has no value yet. -/
  | member (key : Option String) (members : List (Option String × Document))

/-- What may come next. -/
inductive JsonStage where
  | value
  /-- A value, or the end of an empty array. -/
  | firstItem
  | key
  /-- A key, or the end of an empty object. -/
  | firstKey
  | colon
  /-- A comma, or the end of the innermost array or object. -/
  | separator
  | complete (document : Document)

/-- The reader: what is open, the innermost first, and what may come next. -/
structure JsonReader where
  frames : List JsonFrame := []
  stage : JsonStage := .value

namespace JsonReader

/-- Puts a complete document where it belongs. -/
def place? (document : Document) : List JsonFrame → Option JsonReader
  | [] => some { frames := [], stage := .complete document }
  | .array items :: frames =>
      some { frames := .array (document :: items) :: frames, stage := .separator }
  | .member key members :: frames =>
      some { frames := .object ((key, document) :: members) :: frames, stage := .separator }
  | .object _ :: _ => none

/-- Reads the first token of a value. -/
def valueStep? (frames : List JsonFrame) : JsonToken → Option JsonReader
  | .openArray => some { frames := .array [] :: frames, stage := .firstItem }
  | .openObject => some { frames := .object [] :: frames, stage := .firstKey }
  | .leaf document => place? document frames
  | _ => none

def keyStep? (frames : List JsonFrame) (token : JsonToken) : Option JsonReader :=
  match token, frames with
  | .leaf (.text key), .object members :: frames =>
      some { frames := .member key members :: frames, stage := .colon }
  | _, _ => none

/-- Reads the end of the innermost array or object. -/
def closeStep? (frames : List JsonFrame) (token : JsonToken) : Option JsonReader :=
  match token, frames with
  | .closeArray, .array items :: frames => place? (.array items.reverse) frames
  | .closeObject, .object members :: frames => place? (.object members.reverse) frames
  | _, _ => none

/-- Reads the comma behind an item or member. -/
def commaStep? : List JsonFrame → Option JsonReader
  | .array items :: frames => some { frames := .array items :: frames, stage := .value }
  | .object members :: frames => some { frames := .object members :: frames, stage := .key }
  | _ => none

/-- Reads one token. -/
def step? (reader : JsonReader) (token : JsonToken) : Option JsonReader :=
  match reader.stage, token with
  | .value, _ => valueStep? reader.frames token
  | .firstItem, .closeArray => closeStep? reader.frames token
  | .firstItem, _ => valueStep? reader.frames token
  | .key, _ => keyStep? reader.frames token
  | .firstKey, .closeObject => closeStep? reader.frames token
  | .firstKey, _ => keyStep? reader.frames token
  | .colon, .colon => some { reader with stage := .value }
  | .colon, _ => none
  | .separator, .comma => commaStep? reader.frames
  | .separator, _ => closeStep? reader.frames token
  | .complete _, _ => none

/-- The document, once it is complete. -/
def finish? (reader : JsonReader) : Option Document :=
  match reader.stage with
  | .complete document => some document
  | _ => none

end JsonReader

variable [RealReader]

/-- Reads a JSON text. -/
def Document.ofText? (text : String) : Option Document :=
  (JsonToken.scan? text).bind fun tokens =>
    (tokens.foldlM JsonReader.step? {}).bind JsonReader.finish?

/-- Reads the data of a JSON text. -/
def Json.ofText? (text : String) : Option Json :=
  (Document.ofText? text).bind (Document.toJsonWithin? Document.depthLimit)

end RiskGraph

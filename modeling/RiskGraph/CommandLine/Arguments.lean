import RiskGraph.Numeric.Numeral

/-!
# Command-line arguments

The command line names a graph file and a features file.  Options stand anywhere among them, up to
two hyphens that stand alone; the value of an option is attached to it or follows it.
-/

namespace RiskGraph.CommandLine

/-- What the command is asked to do. -/
structure Arguments where
  graphPath : String
  featuresPath : String
  /-- Aliases of kinds, each a name and the name it stands for. -/
  aliases : List (String × String) := []
  /-- How often the features are evaluated. -/
  repetitions : Nat := 1
  /-- Whether decisions are printed as JSON. -/
  json : Bool := false

/-- What a command line comes to. -/
inductive Request where
  | evaluate (arguments : Arguments)
  | help
  | version
  | unusable

/-- The arguments read so far; positional ones are kept with the latest first. -/
structure Draft where
  paths : List String := []
  aliases : List (String × String) := []
  repetitions : Option Nat := none
  json : Bool := false

/-- An option that takes a value. -/
inductive ValueOption where
  | aliasOf
  /-- Sets the number of repetitions. -/
  | repetitions

/-- The two sides of the first equals sign of a text. -/
def splitAtEquals? : List Char → Option (List Char × List Char)
  | [] => none
  | c :: rest =>
      if c = '=' then some ([], rest)
      else (splitAtEquals? rest).map fun (left, right) => (c :: left, right)

/-- First number that is too large as a number of repetitions. -/
def countLimit : Nat := 18446744073709551616

/-- Reads a number of repetitions, a plus sign being allowed. -/
def readCount? (value : String) : Option Nat :=
  match value.toList with
  | '+' :: digits => (readDigits? digits).filter (· < countLimit)
  | digits => (readDigits? digits).filter (· < countLimit)

namespace Draft

/-- Gives an option its value. -/
def set? (draft : Draft) (option : ValueOption) (value : String) : Option Draft :=
  match option with
  | .aliasOf =>
      (splitAtEquals? value.toList).map fun (name, kind) =>
        { draft with aliases := (String.ofList name, String.ofList kind) :: draft.aliases }
  | .repetitions =>
      if draft.repetitions.isSome then none
      else (readCount? value).map fun count => { draft with repetitions := some count }

/-- The request of a draft; there must be two paths. -/
def toRequest (draft : Draft) : Request :=
  match draft.paths with
  | [featuresPath, graphPath] =>
      .evaluate
        { graphPath, featuresPath, aliases := draft.aliases.reverse
          repetitions := draft.repetitions.getD 1, json := draft.json }
  | _ => .unusable

end Draft

/-- The parts of an argument: an option with what is attached to it, or a path. -/
inductive Argument where
  /-- The end of the options. -/
  | endOfOptions
  /-- An option that takes a value, with the value if it is attached. -/
  | valued (option : ValueOption) (attached : Option String)
  | json
  | help
  | version
  | path (text : String)
  | unknown

namespace Argument

/-- An option of which the name stands behind two hyphens. -/
def ofLongName (name : List Char) (attached : Option String) : Argument :=
  let name := String.ofList name
  if name = "alias" then valued .aliasOf attached
  else if name = "repeat" then valued .repetitions attached
  else if name = "json" ∧ attached.isNone then json
  else if name = "help" ∧ attached.isNone then help
  else if name = "version" ∧ attached.isNone then version
  else unknown

/-- What is attached to a letter: an equals sign before it does not count. -/
def attachedTo : List Char → Option String
  | [] => none
  | '=' :: rest => some (String.ofList rest)
  | rest => some (String.ofList rest)

/-- An option of which the name is a letter behind one hyphen. -/
def ofLetter (letter : Char) (rest : List Char) : Argument :=
  if letter = 'a' then valued .aliasOf (attachedTo rest)
  else if letter = 'r' then valued .repetitions (attachedTo rest)
  else if letter = 'h' then help
  else if letter = 'V' then version
  else unknown

def ofText (text : String) : Argument :=
  match text.toList with
  | ['-', '-'] => endOfOptions
  | '-' :: '-' :: rest =>
      match splitAtEquals? rest with
      | some (name, value) => ofLongName name (some (String.ofList value))
      | none => ofLongName rest none
  | '-' :: letter :: rest => ofLetter letter rest
  | _ => path text

end Argument

/-- Whether an argument can be the value of the option before it. -/
def isValue (text : String) : Bool :=
  match Argument.ofText text with
  | .path _ => true
  | _ => false

/-- Reads the arguments, when `pending` waits for its value. -/
def readArguments (draft : Draft) (pending : Option ValueOption) : List String → Request
  | [] => if pending.isSome then .unusable else draft.toRequest
  | text :: texts =>
      match pending with
      | some option =>
          if isValue text then
            match draft.set? option text with
            | some draft => readArguments draft none texts
            | none => .unusable
          else .unusable
      | none =>
          match Argument.ofText text with
          | .endOfOptions => { draft with paths := texts.reverse ++ draft.paths }.toRequest
          | .valued option none => readArguments draft (some option) texts
          | .valued option (some value) =>
              match draft.set? option value with
              | some draft => readArguments draft none texts
              | none => .unusable
          | .json =>
              if draft.json then .unusable
              else readArguments { draft with json := true } none texts
          | .help => .help
          | .version => .version
          | .path path => readArguments { draft with paths := path :: draft.paths } none texts
          | .unknown => .unusable

/-- The request of a command line. -/
def Request.ofArguments (texts : List String) : Request :=
  readArguments {} none texts

end RiskGraph.CommandLine

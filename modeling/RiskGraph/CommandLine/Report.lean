import RiskGraph.CommandLine.Arguments
import RiskGraph.Graph.Build
import RiskGraph.Json.Document
import RiskGraph.Walk.Run

/-!
# Reports of the command line

Every row of features gets one report, in their order: its decision on the standard output, or its
failure on the standard error.  If the job itself cannot be set up, there is one message and no
decision.  Unless decisions are printed as JSON, the time spent is shared out to the walks, which
breaks the report off if their number is held to be zero.
-/

namespace RiskGraph

/-- A decision as JSON data. -/
def Decision.toJson (decision : Decision) : Json :=
  .object
    [("id", .text decision.id), ("name", .text decision.name),
      ("kind", .text decision.kind.name), ("tag", .text decision.tag),
      ("label", .text decision.label), ("hits", .array (decision.hits.map .text)),
      ("trail", .array (decision.trail.map .text)), ("reason", .text decision.reason)]

namespace CommandLine

variable [Engine] [RealReader]

/-- What the command leaves behind. -/
structure Report where
  code : Nat
  output : String
  errors : String

/-- The features of an object. -/
def featuresOf? : Json → Option (Table Value)
  | .object members => some (Table.ofList (Json.toEntries members))
  | _ => none

/-- The rows of features of a text: an array of objects, or a single object. -/
def readFeatures? (text : String) : Option (List (Table Value)) :=
  (Json.ofText? text).bind fun json =>
    match json with
    | .array items => items.mapM featuresOf?
    | single => (featuresOf? single).map fun features => [features]

/-- The orders in which the maps in rows of features yield their entries.  A process happens upon
them when it reads the rows, and keeps them. -/
structure Shuffle where
  /-- The value under a key of the row at a position, with its maps in their orders. -/
  order : (position : Nat) → (key : String) → Value → Value
  alike : ∀ position key value, (order position key value).Alike value

namespace Shuffle

/-- The orders in which the entries are written. -/
def asWritten : Shuffle :=
  ⟨fun _ _ value => value, fun _ _ _ => rfl⟩

/-- The row at a position. -/
def row (shuffle : Shuffle) (position : Nat) (features : Table Value) : Table Value :=
  features.mapValues (shuffle.order position)

def rows (shuffle : Shuffle) (rows : List (Table Value)) : List (Table Value) :=
  rows.mapIdx shuffle.row

end Shuffle

/-- A graph with the rows of features to decide on. -/
structure Job where
  graph : Graph
  rows : List (Table Value)

def defectMessage (defect : Defect) : String :=
  match defect with
  | .unreadable .notJson => "Failed to parse graph JSON: not a JSON text"
  | _ =>
      let reason := defect.message?.getD ""
      match defect with
      | .unreadable _ => reason
      | _ => "Graph construction failed: " ++ reason

/-- The content of a file that was read. -/
def fileContent (role path : String) (file : Except String String) : Except String String :=
  file.mapError fun reason => s!"Failed to read {role} file '{path}': {reason}"

/-- Sets up the job of the arguments from the two files, each with its content or the reason why it
could not be read. -/
def Arguments.job (arguments : Arguments) (shuffle : Shuffle)
    (graphFile featuresFile : Except String String) : Except String Job := do
  if arguments.repetitions = 0 then .error "--repeat must be at least 1"
  let graphText ← fileContent "graph" arguments.graphPath graphFile
  let featuresText ← fileContent "features" arguments.featuresPath featuresFile
  let aliases := Aliases.ofList arguments.aliases
  let graph ← (Graph.ofText graphText aliases).mapError defectMessage
  match readFeatures? featuresText with
  | some rows => .ok { graph, rows := shuffle.rows rows }
  | none => .error "Failed to parse features JSON: not rows of features"

/-- The results of a job, row by row. -/
def Job.results (job : Job) : List (Except Failure Decision) :=
  job.rows.map job.graph.decide

/-- The results of evaluating a job again and again; those of the last time are kept. -/
def Job.resultsOf (job : Job) (repetitions : Nat) : List (Except Failure Decision) :=
  repetitions.repeat (fun _ => job.results) []

/-- A decision in words. -/
def decisionText (position : Nat) (decision : Decision) : String :=
  let label := if decision.label.isEmpty then "" else s!"    Label:  {decision.label}\n"
  let hits :=
    if decision.hits.isEmpty then ""
    else "    Hits:   " ++ ", ".intercalate decision.hits ++ "\n"
  s!"[{position}] -> Decision: {decision.tag} at '{decision.id}'\n" ++ label ++ hits ++
    s!"    Reason: {decision.reason}\n"

/-- The report of a row on the standard output. -/
def outputOf (json : Bool) (position : Nat) : Except Failure Decision → String
  | .ok decision => if json then decision.toJson.write ++ "\n" else decisionText position decision
  | .error _ => ""

/-- The report of a row on the standard error. -/
def errorOf (position : Nat) : Except Failure Decision → String
  | .ok _ => ""
  | .error failure => s!"[{position}] -> Error: {failure.message}\n"

/-- The end of the standard output, which counts the rows unless decisions are printed as JSON. -/
def summary (json : Bool) (rows : Nat) : String :=
  if json then "" else s!"\n--- Performance Summary ---\nRequests:             {rows}\n"

/-- The report of results. -/
def reportResults (json : Bool) (results : List (Except Failure Decision)) : Report :=
  { code := if results.all Except.isOk then 0 else 2
    output :=
      String.join (results.mapIdx fun position result => outputOf json position result) ++
        summary json results.length
    errors := String.join (results.mapIdx errorOf) }

/-- The number of walks that the time spent is shared out to, as 32 bits hold it. -/
def walkCount (repetitions rows : Nat) : Nat :=
  repetitions * max 1 rows % 4294967296

/-- A report that breaks off where the time cannot be shared out. -/
def Report.brokenOff (report : Report) : Report :=
  { report with
    code := 101
    errors := report.errors ++ "divide by zero error when dividing duration by scalar\n" }

/-- The report of a job that has been set up. -/
def Arguments.reportJob (arguments : Arguments) (job : Job) : Report :=
  let report := reportResults arguments.json (job.resultsOf arguments.repetitions)
  if arguments.json ∨ walkCount arguments.repetitions job.rows.length ≠ 0 then report
  else report.brokenOff

/-- The report of a job that could not be set up. -/
def reportFault (message : String) : Report :=
  { code := 1, output := "", errors := "\nError: " ++ message ++ "\n" }

/-- The report of the arguments, given the two files. -/
def Arguments.report (arguments : Arguments) (shuffle : Shuffle)
    (graphFile featuresFile : Except String String) : Report :=
  match arguments.job shuffle graphFile featuresFile with
  | .ok job => arguments.reportJob job
  | .error message => reportFault message

end CommandLine
end RiskGraph

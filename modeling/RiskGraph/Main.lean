import RiskGraph.CommandLine.Report

/-!
# The command

Reads the two files, evaluates the features and prints the report, with the time that each part
took.
-/

namespace RiskGraph.CommandLine

open scoped Engine.Plain RealReader.InSteps

/-- Why a file could not be read. -/
def fileReason : IO.Error → String
  | .noFileOrDirectory .. => "No such file or directory (os error 2)"
  | .permissionDenied .. => "Permission denied (os error 13)"
  | error => toString error

/-- The content of a file, or the reason why it could not be read. -/
def readFile (path : String) : IO (Except String String) :=
  try
    return .ok (← IO.FS.readFile path)
  catch error =>
    return .error (fileReason error)

/-- A span of time in microseconds. -/
def spanText (nanoseconds : Nat) : String :=
  s!"{nanoseconds / 1000}µs"

/-- What the usage is. -/
def usage : String :=
  "Evaluate a risk decision graph against feature data\n\n" ++
  "Usage: riskgraph [OPTIONS] <GRAPH_PATH> <FEATURES_PATH>\n\n" ++
  "Options:\n" ++
  "  -a, --alias <USER=BUILTIN>  Map an external node kind onto a built-in one\n" ++
  "  -r, --repeat <N>            Evaluate the feature data this many times [default: 1]\n" ++
  "      --json                  Print decisions as JSON instead of text\n" ++
  "  -h, --help                  Print help\n" ++
  "  -V, --version               Print version\n"

/-- Evaluates a job as often as asked and prints its report. -/
def perform (arguments : Arguments) (job : Job) (loading building : Nat) : IO UInt32 := do
  let began ← IO.monoNanosNow
  let report := arguments.reportJob job
  let evaluation := (← IO.monoNanosNow) - began
  IO.print report.output
  IO.eprint report.errors
  unless arguments.json do
    IO.println s!"File Loading:         {spanText loading}"
    IO.println s!"Graph Construction:   {spanText building}"
    IO.println s!"Execution (x{arguments.repetitions}):      {spanText evaluation}"
    let walks := walkCount arguments.repetitions job.rows.length
    unless walks = 0 do
      IO.println s!"Per Traversal:        {spanText (evaluation / walks)}"
  return report.code.toUInt32

/-- Runs the command with its arguments. -/
def run (arguments : Arguments) : IO UInt32 := do
  let began ← IO.monoNanosNow
  let graphFile ← readFile arguments.graphPath
  let featuresFile ← readFile arguments.featuresPath
  let loaded ← IO.monoNanosNow
  match arguments.job .asWritten graphFile featuresFile with
  | .ok job => perform arguments job (loaded - began) ((← IO.monoNanosNow) - loaded)
  | .error message =>
      let report := reportFault message
      IO.eprint report.errors
      return report.code.toUInt32

end RiskGraph.CommandLine

/-- The command. -/
def main (texts : List String) : IO UInt32 :=
  match RiskGraph.CommandLine.Request.ofArguments texts with
  | .evaluate arguments => RiskGraph.CommandLine.run arguments
  | .help => do
      IO.print RiskGraph.CommandLine.usage
      return 0
  | .version => do
      IO.println "riskgraph 0.1.0"
      return 0
  | .unusable => do
      IO.eprint RiskGraph.CommandLine.usage
      return 2

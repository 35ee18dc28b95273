import PointDriver.Schema.Parse
import PointDriver.Validation
import PointDriver.Output.Report
import PointDriver.Lifecycle.Execution

/-! # Sweep points

A driver turns its arguments into one point of a parameter sweep: the directory
for the results and a number for each parameter, in declaration order. It
reports the point, or the first thing that is missing. -/

namespace PointDriver

/-- One point of a sweep. -/
structure SweepPoint where
  outputDir : String
  values : List (String × Double)
  deriving DecidableEq, Repr

namespace SweepPoint

/-- The value of a parameter. -/
def value? (p : SweepPoint) (name : String) : Option Double :=
  (p.values.find? fun v => v.1 == name).map (·.2)

/-- Prints the directory and the values. -/
def report (p : SweepPoint) : Writing Unit := do
  Report.outputDir p.outputDir
  Report.parameters p.values

end SweepPoint

/-- What the arguments of a driver amount to. -/
inductive Evaluation where
  | help
  | missingOutputDir
  | missingParameter (name : String)
  | ready (point : SweepPoint)
  deriving DecidableEq, Repr

namespace Schema

/-- Reads a number for each name in order; the first that is no number is the error. -/
def readValues (o : ParsedOptions) : List String → Except DriverError (List (String × Double))
  | [] => .ok []
  | name :: rest => do
      let value ← o.double name
      let values ← readValues o rest
      pure ((name, value) :: values)

/-- What given options amount to. -/
def assess (s : Schema) (o : ParsedOptions) : Except DriverError Evaluation :=
  match validate s o with
  | .help => .ok .help
  | .missingOutputDir => .ok .missingOutputDir
  | .missingParameter name => .ok (.missingParameter name)
  | .ready => do
      let dir ← o.string outputDirName
      let values ← readValues o (s.parameters.map (·.name))
      pure (.ready ⟨dir, values⟩)

/-- What arguments amount to, the program name first. -/
def evaluate (s : Schema) (arguments : List Bytes) : Except DriverError Evaluation := do
  s.assess (← s.parse arguments)

/-- What is printed about an evaluation. -/
def respond (s : Schema) : Evaluation → Writing Unit
  | .help => Report.usage s
  | .missingOutputDir => Report.missingOutputDir s
  | .missingParameter name => Report.missingParameter s name
  | .ready point => point.report

/-- How a run with this evaluation ends when everything can be printed. -/
def statusOf : Evaluation → Status
  | .help | .ready _ => .success
  | .missingOutputDir | .missingParameter _ => .usageError

/-- Runs a driver on its arguments. -/
def run (s : Schema) (arguments : List Bytes) (sink : Sink) :
    Except DriverError Status × Sink :=
  match s.evaluate arguments with
  | .error error => (.error error, sink)
  | .ok evaluation =>
      match s.respond evaluation sink with
      | (.ok (), sink) => (.ok (statusOf evaluation), sink)
      | (.error fault, sink) => (.error (.output fault), sink)

/-- A run as work for a runtime. -/
def body (s : Schema) (arguments : List Bytes) : Body := fun sink =>
  match s.run arguments sink with
  | (.ok status, sink) => (.finished status, sink)
  | (.error error, sink) => (.failed error.chain, sink)

/-- Runs a driver within a runtime. -/
def execute (s : Schema) (runtime : Runtime) (arguments : List Bytes) (sink : Sink) : Execution :=
  PointDriver.execute runtime sink (s.body arguments)

end Schema

end PointDriver

import PointDriver.Schema.Basic
import PointDriver.Options

/-! # Validation

The first thing that keeps a driver from its work: a request for help, then a
missing directory, then the first missing parameter in declaration order. -/

namespace PointDriver

/-- What is to be done about the given options. -/
inductive Validation where
  | help
  | missingOutputDir
  | missingParameter (name : String)
  | ready
  deriving DecidableEq, Repr

/-- Checks that nothing required is missing. -/
def validate (s : Schema) (o : ParsedOptions) : Validation :=
  if o.help then .help
  else if !o.isPresent outputDirName then .missingOutputDir
  else
    match s.parameters.find? fun e => !o.isPresent e.name with
    | some e => .missingParameter e.name
    | none => .ready

end PointDriver

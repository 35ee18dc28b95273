import PointDriver.Output.Sink
import PointDriver.Schema.Basic
import PointDriver.Double.Fixed

/-! # Reports

What a driver prints: its usage text, the two messages about a missing option,
and the lines about a sweep point. -/

namespace PointDriver.Report

/-- The text that shows how a driver is used, with an empty line at its end. -/
def usageText (schema : Schema) : String := schema.describe ++ "\n"

/-- The line about a missing directory. -/
def missingOutputDirLine : String := outputDirName ++ " was not set.\n"

/-- The line about a missing parameter. -/
def missingParameterLine (name : String) : String := "Parameter " ++ name ++ " was not set.\n"

/-- The line that names the directory for the results. -/
def outputDirLine (dir : String) : String := "Output will be saved to " ++ dir ++ "\n"

/-- The line with a parameter's value. -/
def parameterLine (name : String) (value : Double) : String :=
  name ++ ": " ++ value.sixPlaces ++ "\n"

/-- Prints the usage text. -/
def usage (schema : Schema) : Writing Unit := Sink.write (usageText schema)

/-- Says that the directory is missing and prints the usage text. -/
def missingOutputDir (schema : Schema) : Writing Unit := do
  Sink.write missingOutputDirLine
  usage schema

/-- Says which parameter is missing and prints the usage text. -/
def missingParameter (schema : Schema) (name : String) : Writing Unit := do
  Sink.write (missingParameterLine name)
  usage schema

/-- Prints where the results go. -/
def outputDir (dir : String) : Writing Unit := Sink.write (outputDirLine dir)

/-- Prints a parameter with its value. -/
def parameter (name : String) (value : Double) : Writing Unit :=
  Sink.write (parameterLine name value)

/-- Prints a line for each parameter in order. -/
def parameters : List (String × Double) → Writing Unit
  | [] => pure ()
  | (name, value) :: rest => do
      parameter name value
      parameters rest

end PointDriver.Report

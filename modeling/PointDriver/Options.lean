import PointDriver.Declaration.Basic
import PointDriver.CommandLine.Report
import PointDriver.Double.Literal
import PointDriver.Output.Sink
import PointDriver.Lifecycle.Session
import PointDriver.Text.Blank

/-! # Options as given

What the arguments of a driver gave: which flags, and which values as texts. A
value becomes a number only when it is asked for. -/

namespace PointDriver

/-- Why a driver does not reach the end of its work. -/
inductive DriverError where
  /-- The arguments of the command with this name cannot be read. -/
  | commandLine (command : String) (fault : CommandLine.Fault)
  | missingValue (name : String)
  | invalidDouble (name : String) (value : String)
  | output (fault : SinkFault)
  deriving DecidableEq, Repr

namespace DriverError

/-- The error in words, without its cause. -/
def message : DriverError → String
  | commandLine _ _ => "Failed to parse command line"
  | missingValue name => "Option --" ++ name ++ " was not supplied"
  | invalidDouble name value => "Option --" ++ name ++ " expects a number, got '" ++ value ++ "'"
  | output _ => "Failed to write driver output"

/-- The cause of the error in words, if it has one. -/
def cause? : DriverError → Option String
  | commandLine command fault => some (fault.text command)
  | missingValue _ => none
  | invalidDouble _ value =>
      some (if (trim value.toList).isEmpty then "cannot parse float from empty string"
        else "invalid float literal")
  | output fault => some fault.message

/-- The error with its cause. -/
def chain (e : DriverError) : ErrorChain := e.message :: e.cause?.toList

end DriverError

/-- The options that were given. Which of them are present is kept apart from their values. -/
structure ParsedOptions where
  present : List String
  values : List (String × String)
  deriving DecidableEq, Repr

namespace ParsedOptions

/-- No options. -/
def empty : ParsedOptions := ⟨[], []⟩

/-- The text given for an option. -/
def value? (o : ParsedOptions) (name : String) : Option String :=
  (o.values.find? fun v => v.1 == name).map (·.2)

/-- Whether an option was given. -/
def isPresent (o : ParsedOptions) (name : String) : Bool := o.present.contains name

/-- Whether help was asked for. -/
def help (o : ParsedOptions) : Bool := o.isPresent helpName

/-- The text given for an option that must be there. -/
def string (o : ParsedOptions) (name : String) : Except DriverError String :=
  match o.value? name with
  | some value => .ok value
  | none => .error (.missingValue name)

/-- The number given for an option that must be there. Blanks around it are
left out of account. -/
def double (o : ParsedOptions) (name : String) : Except DriverError Double :=
  match o.value? name with
  | none => .error (.missingValue name)
  | some value =>
      match Double.read? (trim value.toList) with
      | some x => .ok x
      | none => .error (.invalidDouble name value)

end ParsedOptions

end PointDriver

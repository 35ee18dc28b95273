import PointDriver.Schema.Basic
import PointDriver.CommandLine.Scan
import PointDriver.Files.Path
import PointDriver.Options

/-! # Reading a driver's arguments

The arguments after the program name are read with the schema's table, and what
was recorded is collected in the order of the schema. -/

namespace PointDriver

/-- The first value recorded for a name, as a text. -/
def CommandLine.Reading.text? (r : Reading) (name : String) : Option String :=
  (r.values name).head?.bind Utf8.decode?

namespace Schema

/-- The name by which texts about the arguments call the program: the last
component of the path it was called by, else the name it goes by. -/
def commandName (s : Schema) (arguments : List Bytes) : String :=
  ((arguments.head?.bind Path.fileName?).bind Utf8.decode?).getD s.program

/-- Adds what a reading recorded about an entry. A flag becomes present, and any other option
becomes present with its text. -/
def collectEntry (r : CommandLine.Reading) (o : ParsedOptions) (e : OptionEntry) : ParsedOptions :=
  match e.kind with
  | .flag => if r.has e.name then { o with present := o.present ++ [e.name] } else o
  | .string | .double =>
      match r.text? e.name with
      | some text =>
          { present := o.present ++ [e.name], values := o.values ++ [(e.name, text)] }
      | none => o

/-- What a reading recorded about the entries of the schema in order. -/
def collect (s : Schema) (r : CommandLine.Reading) : ParsedOptions :=
  s.entries.foldl (collectEntry r) .empty

/-- Reads arguments, the program name first. -/
def parse (s : Schema) (arguments : List Bytes) : Except DriverError ParsedOptions :=
  match CommandLine.scanOptions s.table (arguments.drop 1) with
  | .ok r => .ok (s.collect r)
  | .error fault => .error (.commandLine (s.commandName arguments) fault)

end Schema

end PointDriver

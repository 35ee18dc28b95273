import PointDriver.Declaration.Basic
import PointDriver.CommandLine.Report
import PointDriver.Json.Basic

/-! # Option schemas

The options that a driver accepts: a flag for help, the directory for the
results, and one number for each declared parameter. -/

namespace PointDriver

/-- What an option of a driver takes. -/
inductive OptionKind where
  | flag
  | string
  | double
  deriving DecidableEq, Repr

/-- An option of a driver. -/
structure OptionEntry where
  name : String
  kind : OptionKind
  required : Bool
  help : String
  deriving DecidableEq, Repr

/-- The options of a driver in order, with the name it goes by. -/
structure Schema where
  program : String
  entries : List OptionEntry
  deriving DecidableEq, Repr

namespace OptionKind

/-- The kind in one word. -/
def word : OptionKind → String
  | flag => "flag"
  | string => "string"
  | double => "double"

/-- How arguments give the option. Only a number may start with a dash. -/
def role : OptionKind → CommandLine.Role
  | flag => .flag
  | string => .value ⟨"PATH", .text, false, false⟩
  | double => .value ⟨"VALUE", .text, true, false⟩

end OptionKind

namespace OptionEntry

/-- The flag that asks for the usage text. -/
def helpFlag : OptionEntry := ⟨helpName, .flag, false, "Produce this help message"⟩

/-- The directory for the results. -/
def outputDir : OptionEntry :=
  ⟨outputDirName, .string, true, "Directory to write simulation outputs"⟩

/-- The number for a parameter. -/
def parameter (name : String) : OptionEntry :=
  ⟨name, .double, true, "Set the value of " ++ name⟩

/-- The option as arguments give it. -/
def spec (e : OptionEntry) : CommandLine.Spec := ⟨e.name, none, e.kind.role⟩

/-- The entry as a JSON object. -/
def toJson (e : OptionEntry) : Json :=
  .object [("name", .text e.name), ("kind", .text e.kind.word), ("required", .boolean e.required),
    ("help", .text e.help)]

end OptionEntry

namespace Schema

/-- The options that every driver has. -/
def base (program : String) : Schema := ⟨program, [.helpFlag, .outputDir]⟩

/-- The schema with one more parameter at its end. -/
def parameter (s : Schema) (name : String) : Schema :=
  { s with entries := s.entries ++ [.parameter name] }

/-- The schema with a parameter for each name. -/
def ofNames (program : String) (names : List String) : Schema :=
  names.foldl parameter (base program)

/-- The schema of a declaration. -/
def ofDeclaration (program : String) (d : Declaration) : Schema := ofNames program d.names

theorem entries_foldl_parameter (names : List String) (s : Schema) :
    (names.foldl parameter s).entries = s.entries ++ names.map OptionEntry.parameter := by
  induction names generalizing s with
  | nil => simp
  | cons name rest ih => simp [ih, parameter]

/-- The schema of names has the fixed options first and then the names in order. -/
@[simp] theorem entries_ofNames (program : String) (names : List String) :
    (ofNames program names).entries =
      OptionEntry.helpFlag :: OptionEntry.outputDir :: names.map OptionEntry.parameter := by
  simp [ofNames, base, entries_foldl_parameter]

/-- The entry with the name. -/
def entry? (s : Schema) (name : String) : Option OptionEntry :=
  s.entries.find? fun e => e.name == name

/-- The entries that take a number. -/
def parameters (s : Schema) : List OptionEntry :=
  s.entries.filter fun e => e.kind == .double

/-- The options as arguments give them. -/
def table (s : Schema) : List CommandLine.Spec := s.entries.map (·.spec)

/-- The text that shows how the driver is used and what its options mean. -/
def describe (s : Schema) : String :=
  CommandLine.usageLine s.program ["[OPTIONS]"] ++ "\n\n" ++
    CommandLine.tableText "Options" (s.entries.map fun e => ⟨e.spec.tableLabel, e.help⟩)

/-- The entries as a JSON array. -/
def toJson (s : Schema) : Json := .array (s.entries.map (·.toJson))

end Schema

end PointDriver

import PointDriver.Generator.Failure
import PointDriver.Package.Settings
import PointDriver.Yaml.Document

/-! # Configuration

A configuration file says how much to log, where templates are, and what
generated drivers are called and use. What it leaves out has a default. -/

namespace PointDriver

/-- What is configured. -/
structure Config where
  logLevel : Option String
  templateDir : Option Path
  program : String
  lifecycle : String
  dependency : String
  deriving DecidableEq, Repr

namespace Config

/-- The configuration without a file. -/
def standard : Config := ⟨none, none, defaultProgram, defaultLifecycle, defaultDependency⟩

/-- The settings for generated code; a program given elsewhere goes first. -/
def driverSettings (c : Config) (program : Option String) : DriverSettings :=
  ⟨program.getD c.program, c.lifecycle⟩

/-- The values of a mapping by the texts of its keys. A known key may stand there
once; the other keys are passed over. -/
def fields? (known : List String) (entries : List (Yaml.Node × Yaml.Node)) :
    Option (List (String × Yaml.Node)) := do
  let named ← entries.mapM fun (key, value) => key.scalarText?.map fun key => (key, value)
  let fields := named.filter fun (key, _) => known.contains key
  if (fields.map (·.1)).Nodup then some fields else none

/-- The fields of a node that is a mapping or is left empty. -/
def nodeFields? (known : List String) : Yaml.Node → Option (List (String × Yaml.Node))
  | .mapping entries => fields? known entries
  | .plain text => if text.isEmpty then some [] else none
  | _ => none

/-- A text field, with a default. -/
def text? (fields : List (String × Yaml.Node)) (name standard : String) : Option String :=
  match fields.lookup name with
  | none => some standard
  | some node => node.scalarText?

/-- A text field that may say that there is no value. -/
def optional? (fields : List (String × Yaml.Node)) (name : String) : Option (Option String) :=
  match fields.lookup name with
  | none => some none
  | some (.plain text) => some (if text.isEmpty || Yaml.isNull text then none else some text)
  | some (.quoted text) => some (some text)
  | some _ => none

/-- The configuration that a document spells. -/
def ofDocument? : Option Yaml.Node → Option Config
  | none => some standard
  | some node => do
      let fields ← nodeFields? ["log-level", "template-dir", "driver"] node
      let driver ← match fields.lookup "driver" with
        | none => some []
        | some node => nodeFields? ["program", "lifecycle", "runtime-dependency"] node
      pure {
        logLevel := ← optional? fields "log-level"
        templateDir := (← optional? fields "template-dir").map Path.ofString
        program := ← text? driver "program" defaultProgram
        lifecycle := ← text? driver "lifecycle" defaultLifecycle
        dependency := ← text? driver "runtime-dependency" defaultDependency }

/-- The configuration that a text spells. -/
def ofText? (text : String) : Option Config := do ofDocument? (← Yaml.read? text)

/-- Where a configuration is looked for when no path is given, given the
directory for the user's configuration files. -/
def defaultPaths (configHome : Option Path) : List Path :=
  Path.ofString ".sweepgen.yml" ::
    (configHome.map fun home =>
      (home.join (Path.ofString "sweepgen")).join (Path.ofString "sweepgen.yml")).toList

variable {m : Type → Type} [Monad m] [Files m]

/-- Reads the configuration file at a path. -/
def loadFile (path : Path) : Generating m Config := do
  let text ← Generating.orFail (.configUnreadable path) (Files.readText path)
  match ofText? text with
  | some config => pure config
  | none => throw (.configMalformed path)

/-- Reads the first configuration file that is there and can be used. -/
def loadFirst : List Path → m Config
  | [] => pure standard
  | path :: rest => do
      if ← Files.isThere path then
        match ← (loadFile path : Generating m Config).run with
        | .ok config => pure config
        | .error _ => loadFirst rest
      else loadFirst rest

/-- The configuration at a given path, else the first that can be found. -/
def load (configHome explicit : Option Path) : Generating m Config :=
  match explicit with
  | some path => loadFile path
  | none => (loadFirst (defaultPaths configHome) : m Config)

/-- The first path that leads to something. -/
def firstThere : List Path → m (Option Path)
  | [] => pure none
  | path :: rest => do
      if ← Files.isThere path then pure (some path) else firstThere rest

/-- The level to log at, before the configuration is loaded. A file that cannot
be used says nothing. -/
def loadLogLevel (configHome explicit : Option Path) : m (Option String) := do
  let path ← match explicit with
    | some path => pure (some path)
    | none => firstThere (defaultPaths configHome)
  match path with
  | none => pure none
  | some path =>
      match ← (loadFile path : Generating m Config).run with
      | .ok config => pure config.logLevel
      | .error _ => pure none

end Config

end PointDriver

import PointDriver.Generator.Invocation
import PointDriver.Generator.Config
import PointDriver.Generator.DeclarationFile
import PointDriver.Package.Scaffold
import PointDriver.SweepPoint
import PointDriver.Json.Printer

/-! # Running the generator

What the program prints and how it exits. A command either fails with a chain of
messages and prints nothing, or yields its whole output. -/

namespace PointDriver.Generator

open CommandLine

/-- What is said about a run that does not simply succeed. -/
inductive Diagnosis where
  | none
  /-- The arguments cannot be read. -/
  | usage (fault : Fault)
  /-- A page is shown in place of a result that was asked for. -/
  | page (topic : Topic)
  /-- The program failed. -/
  | report (chain : ErrorChain)
  /-- The driver that was run reported an error. -/
  | runtimeError (message : String)
  deriving DecidableEq, Repr

/-- What a run of the program shows. -/
structure Transcript where
  exit : UInt8
  out : Bytes
  warnings : List String
  diagnosis : Diagnosis
  deriving DecidableEq, Repr

/-- What a command yields. -/
structure Product where
  exit : UInt8
  out : Bytes
  /-- The error that a driver reported. -/
  complaint : Option String
  deriving DecidableEq, Repr

/-- A text as the whole output. -/
def Product.ofText (text : String) : Product := ⟨0, Utf8.encode text, Option.none⟩

/-- The line about something that was written. -/
def wroteLine (what : String) (path : Path) : String := "✓ Wrote " ++ what ++ path.display ++ "\n"

/-- What comes between the line about a file and its content. -/
def echoHeading : String := "\n**** Generated code below ****\n\n"

/-- The runtime that drivers run in. It always starts. -/
def standardRuntime : Runtime := ⟨Option.none, .standard⟩

/-- The message of the first error that a runtime was told about. -/
def reported? (hooks : List Hook) : Option String :=
  hooks.findSome? fun
    | .error message => some message
    | _ => Option.none

/-- Runs a driver on arguments, under the name it goes by. -/
def runDriver (program : String) (d : Declaration) (arguments : List String) : Product :=
  let argv := (program :: arguments).map Utf8.encode
  let e := (Schema.ofDeclaration program d).execute standardRuntime argv Sink.unlimited
  ⟨e.code.getD Status.usageErrorCode, e.sink.stored, reported? e.hooks⟩

/-- The text that shows the options of a driver. -/
def schemaText (program : String) (d : Declaration) (json : Bool) : String :=
  let schema := Schema.ofDeclaration program d
  if json then schema.toJson.pretty ++ "\n" else schema.describe

variable {m : Type → Type} [Monad m] [Files m]

/-- Renders a driver's source, and writes it to a file if one is given. -/
def generate (config : Config) (d : Declaration) (output : Option Path)
    (program : Option String) (quiet : Bool) : Generating m Product := do
  let renderer ← (Package.Renderer.make config.templateDir : m _)
  let source ← renderer.renderDriver d (config.driverSettings program)
  match output with
  | Option.none => pure (.ofText source)
  | some path => do
      Package.Request.writeFile path source
      pure (.ofText (wroteLine "driver to " path ++ if quiet then "" else echoHeading ++ source))

/-- Makes a package. -/
def makePackage (config : Config) (d : Declaration) (dir : Path) (name program : Option String)
    (force : Bool) : Generating m Product := do
  let renderer ← (Package.Renderer.make config.templateDir : m _)
  let made ← Package.Request.scaffold renderer
    ⟨dir, name, d, config.driverSettings program, config.dependency, force⟩
  pure (.ofText (wroteLine "" made.manifest ++ wroteLine "" made.main))

/-- Performs a command for a declaration. -/
def perform (config : Config) (d : Declaration) : Command → Generating m Product
  | .generate output program quiet => generate config d output program quiet
  | .init dir name program force => makePackage config d dir name program force
  | .schema json => pure (.ofText (schemaText config.program d json))
  | .run program arguments =>
      pure (runDriver (config.driverSettings program).program d arguments)

/-- The names of levels, in capitals. -/
def levelNames : List String := ["TRACE", "DEBUG", "INFO", "WARN", "WARNING", "ERROR"]

/-- A letter as a capital. The letter i without its dot has the plain capital. -/
def capital (c : Char) : Char := if c == 'ı' then 'I' else c.toUpper

/-- What is said about a level that has no such name. -/
def levelWarning? (level : String) : Option String :=
  if levelNames.contains (String.ofList (level.toList.map capital)) then Option.none
  else some ("Warning: Unknown log-level '" ++ level ++ "', defaulting to WARN")

/-- Loads the configuration and the declaration, and performs the command. -/
def work (configHome : Option Path) (i : Invocation) : Generating m Product := do
  let config ← Config.load configHome i.config
  let d ← DeclarationFile.load i.params i.paramsFile
  perform config d i.command

/-- The chain about a failure. What keeps the configuration from being loaded is
reported as such. -/
def reportChain (f : Failure) : ErrorChain :=
  match f with
  | .configUnreadable .. | .configMalformed .. => "Failed to load configuration" :: f.chain
  | _ => f.chain

/-- What a refusal shows. -/
def Refusal.transcript : Refusal → Transcript
  | .page topic => ⟨0, Utf8.encode topic.page, [], .none⟩
  | .version => ⟨0, Utf8.encode versionLine, [], .none⟩
  | .fault .noArguments => ⟨2, [], [], .page .program⟩
  | .fault other => ⟨2, [], [], .usage other⟩

/-- Does what an invocation asks for. -/
def serve (configHome : Option Path) (i : Invocation) : m Transcript := do
  let configured ← Config.loadLogLevel configHome i.config
  let warnings := ((i.logLevel.orElse fun _ => configured).bind levelWarning?).toList
  match ← (work configHome i : Generating m Product).run with
  | .error f => pure ⟨1, [], warnings, .report (reportChain f)⟩
  | .ok p =>
      pure ⟨p.exit, p.out, warnings, match p.complaint with
        | some message => .runtimeError message
        | Option.none => .none⟩

/-- Runs the program on its arguments. -/
def respond (configHome : Option Path) (arguments : List Bytes) : m Transcript :=
  match parse arguments with
  | .ok i => serve configHome i
  | .error refusal => pure refusal.transcript

end PointDriver.Generator

import PointDriver.CommandLine.Report

/-! # Options of the generator

The commands of the program with the options and operands that each takes, and
the pages that explain them. -/

namespace PointDriver.Generator

open CommandLine

/-- What the program is called. -/
def programName : String := "sg"

/-- The line that names the program with its version. -/
def versionLine : String := programName ++ " 0.1.0\n"

/-- An option with its description. -/
structure Described where
  spec : Spec
  help : String
  deriving DecidableEq, Repr

/-- A command of the program. -/
inductive CommandName where
  | generate
  | init
  | schema
  | run
  deriving DecidableEq, Repr

namespace CommandName

/-- All the commands in the order of the overview. -/
def all : List CommandName := [generate, init, schema, run]

/-- The command as it is typed. -/
def word : CommandName → String
  | generate => "generate"
  | init => "init"
  | schema => "schema"
  | run => "run"

/-- What the command does. -/
def about : CommandName → String
  | generate => "Render driver source for a declaration"
  | init => "Scaffold a standalone driver package"
  | schema => "Print the option schema a driver would accept"
  | run => "Run the driver contract directly (arguments after \x60--\x60 go to the driver)"

/-- The command with the word. -/
def ofWord? (word : String) : Option CommandName := all.find? fun c => c.word == word

end CommandName

/-- The word of the command that shows pages. -/
def helpWord : String := "help"

/-- An option with a text as its value. -/
def textOption (name : String) (letter : Option Char) (placeholder : String) : Spec :=
  ⟨name, letter, .value ⟨placeholder, .text, false, false⟩⟩

/-- An option with a path as its value. -/
def pathOption (name : String) (letter : Option Char) (placeholder : String) : Spec :=
  ⟨name, letter, .value ⟨placeholder, .path, false, false⟩⟩

/-- A flag. -/
def flagOption (name : String) (letter : Option Char) : Spec := ⟨name, letter, .flag⟩

/-- The configuration file. -/
def configOption : Spec := pathOption "config" (some 'c') "CONFIG"

/-- How much is logged. -/
def logLevelOption : Spec := textOption "log-level" (some 'l') "LOG_LEVEL"

/-- Parameter names; the option may be repeated. -/
def paramOption : Spec := ⟨"param", some 'p', .value ⟨"NAME", .text, false, true⟩⟩

/-- A file with parameter names. -/
def paramsFileOption : Spec := pathOption "params-file" (some 'f') "FILE"

/-- Where a driver's source goes. -/
def outputOption : Spec := pathOption "output" (some 'o') "OUTPUT"

/-- What a driver calls itself. -/
def programOption : Spec := textOption "program" none "PROGRAM"

/-- The name of a package. -/
def nameOption : Spec := textOption "name" none "NAME"

/-- Whether a driver's source is shown after it is written to a file. -/
def quietOption : Spec := flagOption "quiet" (some 'q')

/-- Whether files may be replaced. -/
def forceOption : Spec := flagOption "force" none

/-- Whether a schema is shown as JSON. -/
def jsonOption : Spec := flagOption "json" none

/-- Asks for a page about the command. -/
def helpOption : Spec := ⟨"help", some 'h', .page .help⟩

/-- Asks for the version. -/
def versionOption : Spec := ⟨"version", some 'V', .page .version⟩

/-- The directory of a package. -/
def dirOperand : Spec := ⟨"dir", none, .operand ⟨"DIR", .path, false, false⟩⟩

/-- The configuration file, described. -/
def configRow : Described := ⟨configOption, "Path to config file"⟩

/-- The level of logging, described. -/
def logLevelRow : Described := ⟨logLevelOption, "Log level (TRACE, DEBUG, INFO, WARN, ERROR)"⟩

/-- A driver's name, described. -/
def programRow : Described := ⟨programOption, "Program name shown in the driver's usage text"⟩

/-- The page about a command, described. -/
def helpRow : Described := ⟨helpOption, "Print help"⟩

/-- The options of the program before a command. -/
def programOptions : List Described :=
  [configRow, logLevelRow, helpRow, ⟨versionOption, "Print version"⟩]

/-- The options that a command has alone. -/
def ownOptions : CommandName → List Described
  | .generate =>
      [⟨outputOption, "Write the source here instead of stdout"⟩, programRow,
        ⟨quietOption, "Do not echo the source after writing it to a file"⟩]
  | .init =>
      [⟨nameOption, "Package name (default: directory name)"⟩, programRow,
        ⟨forceOption, "Overwrite existing files"⟩]
  | .schema => [⟨jsonOption, "Emit the schema entries as JSON"⟩]
  | .run => [programRow]

/-- The options of a command. -/
def commandOptions (c : CommandName) : List Described :=
  [configRow, ⟨paramOption, "Parameter name (repeat, or separate with commas)"⟩,
    ⟨paramsFileOption, "YAML or JSON file listing parameter names"⟩, logLevelRow] ++
    ownOptions c ++ [helpRow]

/-- The options as arguments give them. -/
def specs (options : List Described) : List Spec := options.map (·.spec)

/-- What a page is about. -/
inductive Topic where
  | program
  | command (command : CommandName)
  /-- The command that shows pages. -/
  | help
  deriving DecidableEq, Repr

/-- The table of options of a page. -/
def optionsTable (options : List Described) : String :=
  tableText "Options" (options.map fun o => ⟨o.spec.tableLabel, o.help⟩)

/-- What stands between the usage line and the options of a command. -/
def operandsTable : CommandName → String
  | .init => tableText "Arguments" [⟨dirOperand.label, "Package directory"⟩] ++ "\n"
  | .run =>
      tableText "Arguments" [⟨"[DRIVER_ARGS]...",
        "Driver arguments, e.g. \x60-- --output_dir out --alpha 1.5\x60"⟩] ++ "\n"
  | .generate | .schema => ""

/-- What the usage line of a command shows after its name. -/
def commandUsage : CommandName → List String
  | .init => ["[OPTIONS]", dirOperand.label]
  | .run => ["[OPTIONS]", "[-- <DRIVER_ARGS>...]"]
  | .generate | .schema => ["[OPTIONS]"]

/-- What the command that shows pages does. -/
def helpAbout : String := "Print this message or the help of the given subcommand(s)"

/-- A page with its heading and usage line. -/
def pageText (about : String) (words usage : List String) (rest : String) : String :=
  about ++ "\n\n" ++ usageLine (" ".intercalate words) usage ++ "\n\n" ++ rest

/-- The page about a topic. -/
def Topic.page : Topic → String
  | program =>
      pageText "Generate command-line drivers for single parameter sweep points" [programName]
        ["[OPTIONS]", "<COMMAND>"]
        (tableText "Commands" ((CommandName.all.map fun c => ⟨c.word, c.about⟩) ++
          [⟨helpWord, helpAbout⟩]) ++ "\n" ++ optionsTable programOptions)
  | command c =>
      pageText c.about [programName, c.word] (commandUsage c)
        (operandsTable c ++ optionsTable (commandOptions c))
  | help =>
      pageText helpAbout [programName, helpWord] ["[COMMAND]..."]
        (tableText "Arguments" [⟨"[COMMAND]...", "Print help for the subcommand(s)"⟩])

end PointDriver.Generator

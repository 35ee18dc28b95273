import PointDriver.CommandLine.Scan
import PointDriver.Files.Path
import PointDriver.Generator.Options

/-! # Invocations of the generator

The program's arguments are options for the program, a command, and options for
the command. The configuration file and the level of logging may be given on
both sides, and then the command's side counts. -/

namespace PointDriver.Generator

open CommandLine

/-- What a command does, with what its options say. -/
inductive Command where
  | generate (output : Option Path) (program : Option String) (quiet : Bool)
  | init (dir : Path) (name program : Option String) (force : Bool)
  | schema (json : Bool)
  | run (program : Option String) (arguments : List String)
  deriving DecidableEq, Repr

/-- What the program is asked to do. -/
structure Invocation where
  config : Option Path
  logLevel : Option String
  /-- The names given as options. -/
  params : List String
  /-- The file that holds names to go before them. -/
  paramsFile : Option Path
  command : Command
  deriving DecidableEq, Repr

/-- Why there is nothing to do. -/
inductive Refusal where
  | fault (fault : Fault)
  | page (topic : Topic)
  | version
  deriving DecidableEq, Repr

/-- A fault in arguments about a topic; a request for a page is for its own. -/
def Refusal.ofFault (topic : Topic) : Fault → Refusal
  | .page .help => .page topic
  | .page .version => .version
  | other => .fault other

/-- The parts of a text between commas. -/
def splitCommas : List Char → List (List Char)
  | [] => [[]]
  | c :: rest =>
      match splitCommas rest with
      | [] => [[c]]
      | part :: parts => if c == ',' then [] :: part :: parts else (c :: part) :: parts

/-- The first text recorded for an option. -/
def textOf (r : Reading) (s : Spec) : Option String :=
  (r.values s.name).head?.bind Utf8.decode?

/-- The first path recorded for an option. -/
def pathOf (r : Reading) (s : Spec) : Option Path := (r.values s.name).head?

/-- The names recorded for the option that gives parameters. -/
def paramsOf (r : Reading) : List String :=
  ((r.values paramOption.name).filterMap Utf8.decode?).flatMap fun text =>
    (splitCommas text.toList).map String.ofList

/-- Whether a command has an operand among its arguments. -/
def operandOf : CommandName → Option Spec
  | .init => some dirOperand
  | .generate | .schema | .run => none

/-- The arguments for a driver behind the two dashes, if all are texts. -/
def driverArguments (arguments : List Bytes) : Except Fault (List String) :=
  match arguments.mapM Utf8.decode? with
  | some texts => .ok texts
  | none => .error .brokenText

/-- Takes words behind the two dashes as operands. -/
def takeOperands (operand : Spec) (r : Reading) : List Bytes → Except Fault Reading
  | [] => r.settle
  | text :: rest =>
      if r.lacks operand then do
        let r ← r.settle
        takeOperands operand { r with pending := some ⟨operand, some text⟩ } rest
      else .error (.unknownArgument (Utf8.lossy text))

/-- Reads the arguments of a command: its options, and the arguments meant for
a driver. -/
def readCommand (c : CommandName) (arguments : List Bytes) :
    Except Fault (Reading × List String) := do
  match ← scan (specs (commandOptions c)) (operandOf c) .start arguments with
  | (_, .word text _) => .error (.unknownArgument (Utf8.lossy text))
  | (r, .finished) => do
      let r ← r.settle
      pure (r, [])
  | (r, .escaped rest) =>
      match operandOf c, rest with
      | some operand, rest => do
          let r ← takeOperands operand r rest
          pure (r, [])
      | none, [] => do
          let r ← r.settle
          pure (r, [])
      | none, text :: more =>
          if c == .run then do
            let r ← r.settle
            pure (r, ← driverArguments (text :: more))
          else .error (.unknownArgument (Utf8.lossy text))

/-- What a command is to do. -/
def commandOf (c : CommandName) (r : Reading) (arguments : List String) :
    Except Fault Command :=
  match c with
  | .generate =>
      .ok (.generate (pathOf r outputOption) (textOf r programOption) (r.has quietOption.name))
  | .init =>
      match pathOf r dirOperand with
      | some dir =>
          .ok (.init dir (textOf r nameOption) (textOf r programOption) (r.has forceOption.name))
      | none => .error (.missingOperand dirOperand)
  | .schema => .ok (.schema (r.has jsonOption.name))
  | .run => .ok (.run (textOf r programOption) arguments)

/-- Finds the page that words after the command for pages ask for. -/
def helpTopic : List Bytes → Refusal
  | [] => .page .program
  | word :: rest =>
      let unknown (word : Bytes) : Refusal := .fault (.unknownCommand (Utf8.lossy word))
      let found (topic : Topic) : Refusal :=
        match rest with
        | [] => .page topic
        | next :: _ => unknown next
      match Utf8.decode? word with
      | none => unknown word
      | some text =>
          if text == helpWord then found .help
          else match CommandName.ofWord? text with
            | some c => found (.command c)
            | none => unknown word

/-- Reads the arguments behind a command, and adds what stood before it. -/
def readInvocation (before : Reading) (c : CommandName) (arguments : List Bytes) :
    Except Refusal Invocation := do
  let inCommand {α : Type} (read : Except Fault α) : Except Refusal α :=
    read.mapError (Refusal.ofFault (.command c))
  let (r, driverArguments) ← inCommand (readCommand c arguments)
  let command ← inCommand (commandOf c r driverArguments)
  let before ← before.settle.mapError (Refusal.ofFault .program)
  pure {
    config := (pathOf r configOption).orElse fun _ => pathOf before configOption
    logLevel := (textOf r logLevelOption).orElse fun _ => textOf before logLevelOption
    params := paramsOf r
    paramsFile := pathOf r paramsFileOption
    command := command }

/-- Why arguments without a command are refused. -/
def withoutCommand (r : Reading) : Refusal :=
  match r.settle with
  | .error fault => .ofFault .program fault
  | .ok r =>
      .fault (if r.recorded.isEmpty then .noArguments else .missingCommand programName)

/-- Whether a word is a command. -/
def isCommand (word : Bytes) : Bool :=
  match Utf8.decode? word with
  | some text => text == helpWord || (CommandName.ofWord? text).isSome
  | none => false

/-- Reads the program's arguments. -/
def parse (arguments : List Bytes) : Except Refusal Invocation :=
  match scan (specs programOptions) none .start arguments with
  | .error fault => .error (.ofFault .program fault)
  | .ok (r, .finished) | .ok (r, .escaped []) => .error (withoutCommand r)
  | .ok (_, .escaped (word :: _)) =>
      .error (.fault (if isCommand word then .unknownArgument (Utf8.lossy word)
        else .unknownCommand (Utf8.lossy word)))
  | .ok (r, .word word rest) =>
      match Utf8.decode? word with
      | none => .error (.fault (.unknownCommand (Utf8.lossy word)))
      | some text =>
          if text == helpWord then .error (helpTopic rest)
          else match CommandName.ofWord? text with
            | some c => readInvocation r c rest
            | none => .error (.fault (.unknownCommand text))

end PointDriver.Generator

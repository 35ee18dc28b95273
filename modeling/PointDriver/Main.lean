import PointDriver.Generator.Transcript

/-! # The console

The program's arguments, its files and its streams. -/

namespace PointDriver.Console

/-- A fault of the system by its number, where the number has words of its own. -/
def numberedFault (code : UInt32) (otherwise : FileFault) : FileFault :=
  if code == 20 then .notDirectory
  else if code == 21 then .isDirectory
  else if code == 36 then .nameTooLong
  else otherwise

/-- A fault of the system in the words of the library. -/
def faultOf : IO.Error → FileFault
  | .noFileOrDirectory _ code _ => numberedFault code .notFound
  | .alreadyExists .. => .alreadyThere
  | .inappropriateType _ code details => numberedFault code (.system details)
  | .invalidArgument _ code details => numberedFault code (.system details)
  | e => .system (toString e)

/-- Runs an activity and keeps its fault. -/
def guarded {α : Type} (activity : IO α) : IO (Except FileFault α) := do
  try
    pure (.ok (← activity))
  catch e => pure (.error (faultOf e))

instance : Files IO where
  isThere p := do
    match ← guarded (IO.FS.realPath p.display) with
    | .ok found => found.pathExists
    | .error _ => pure false
  isDirectory p := do
    match ← guarded (IO.FS.realPath p.display) with
    | .ok found => found.isDir
    | .error _ => pure false
  read p := guarded do
    let file ← IO.FS.Handle.mk p.display .read
    pure (← file.readBinToEnd).toList
  write p content := guarded (IO.FS.writeBinFile p.display content.toByteArray)
  makeDirectory p := guarded (IO.FS.createDir p.display)

/-- The directory of the user's configuration files. -/
def configHome : IO (Option Path) := do
  match ← IO.getEnv "XDG_CONFIG_HOME" with
  | some dir =>
      if (Path.ofString dir).isAbsolute then return some (Path.ofString dir)
  | none => pure ()
  let home ← IO.getEnv "HOME"
  return home.map fun home => (Path.ofString home).join (Path.ofString ".config")

/-- The causes of a failure, numbered if there are several. -/
def causesText : List String → String
  | [] => ""
  | [cause] => "\nCaused by:\n    " ++ cause ++ "\n"
  | causes =>
      "\nCaused by:\n" ++ String.join (causes.zipIdx.map fun (cause, i) =>
        "   " ++ toString i ++ ": " ++ cause ++ "\n")

/-- What is said about arguments that cannot be read. -/
def usageText (fault : CommandLine.Fault) : String :=
  let missing := match fault with
    | .missingOperand operand => "\n  " ++ operand.label
    | _ => ""
  fault.headline ++ missing ++ "\n\nFor more information, try '--help'.\n"

/-- What goes to the stream for messages. -/
def messages (t : Generator.Transcript) : String :=
  String.join (t.warnings.map (· ++ "\n")) ++ match t.diagnosis with
    | .none => ""
    | .usage fault => usageText fault
    | .page topic => topic.page
    | .report chain => "Error: " ++ chain.headD "" ++ "\n" ++ causesText chain.tail
    | .runtimeError message => "Error: " ++ message ++ "\n"

/-- Runs the program on its arguments. -/
def run (arguments : List String) : IO UInt32 := do
  let home ← configHome
  let t ← Generator.respond home (arguments.map Utf8.encode)
  let out ← IO.getStdout
  out.write t.out.toByteArray
  out.flush
  IO.eprint (messages t)
  return t.exit.toUInt32

end PointDriver.Console

def main (arguments : List String) : IO UInt32 := PointDriver.Console.run arguments

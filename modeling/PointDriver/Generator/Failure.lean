import PointDriver.Declaration.Basic
import PointDriver.Files.Access
import PointDriver.Lifecycle.Session

/-! # Failures

Why the generator stops. Each failure has a chain of messages, from what was
being done to what went wrong. -/

namespace PointDriver

/-- Why the generator stops. -/
inductive Failure where
  | configUnreadable (path : Path) (fault : ReadFault)
  | configMalformed (path : Path)
  | declarationUnreadable (path : Path) (fault : ReadFault)
  | declarationMalformed (path : Path)
  | declarationRejected (error : DeclarationError)
  | templateUnreadable (path : Path) (fault : ReadFault)
  | templateNotFound (name : String)
  /-- The template cannot be read, or asks for something that is not there. -/
  | templateUnusable (name : String)
  | packageNameMissing (root : Path)
  | overwriteRefused (path : Path)
  | directoryNotMade (path : Path) (fault : FileFault)
  | fileNotWritten (path : Path) (fault : FileFault)
  deriving DecidableEq, Repr

namespace Failure

/-- The failure in words, outermost message first. -/
def chain : Failure → ErrorChain
  | configUnreadable path fault =>
      ["Failed to load config from " ++ path.display, "Failed to read config file", fault.message]
  | configMalformed path =>
      ["Failed to load config from " ++ path.display, "Failed to parse config file"]
  | declarationUnreadable path fault =>
      ["Failed to read declaration file " ++ path.display, fault.message]
  | declarationMalformed path => ["Failed to parse declaration file " ++ path.display]
  | declarationRejected error => ["Invalid parameter declaration", error.message]
  | templateUnreadable path fault =>
      ["Failed to read template " ++ path.display ++ ": " ++ fault.message]
  | templateNotFound name => ["Template not found: " ++ name]
  | templateUnusable name => ["Failed to render template " ++ name]
  | packageNameMissing root =>
      ["Cannot derive a package name from " ++ root.display ++ "; pass --name"]
  | overwriteRefused path => ["Refusing to overwrite " ++ path.display ++ " (use --force)"]
  | directoryNotMade path fault => ["Failed to create " ++ path.display, fault.message]
  | fileNotWritten path fault => ["Failed to write " ++ path.display, fault.message]

end Failure

/-- An activity of the generator: it uses files and may stop with a failure. -/
abbrev Generating (m : Type → Type) := ExceptT Failure m

/-- Goes on with the result of an activity, or stops with what its fault means. -/
def Generating.orFail {m : Type → Type} [Monad m] {ε α : Type} (fail : ε → Failure)
    (activity : m (Except ε α)) : Generating m α := do
  match ← (activity : m (Except ε α)) with
  | .ok value => pure value
  | .error fault => throw (fail fault)

end PointDriver

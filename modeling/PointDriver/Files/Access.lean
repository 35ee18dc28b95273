import PointDriver.Files.Tree

/-! # Access to files

The few things the program asks of a file system, and what it builds from them:
reading a text, and making a directory with all that is missing above it. A file
tree answers them as a state, within its limits on names and paths. -/

namespace PointDriver

/-- A place where files can be read and written. -/
class Files (m : Type → Type) where
  /-- Whether a path leads to something. -/
  isThere : Path → m Bool
  /-- Whether a path leads to a directory. -/
  isDirectory : Path → m Bool
  read : Path → m (Except FileFault Bytes)
  write : Path → Bytes → m (Except FileFault Unit)
  makeDirectory : Path → m (Except FileFault Unit)

/-- Runs a change of a tree; a change that fails leaves the tree as it is. -/
def FileTree.change (f : FileTree → Except FileFault FileTree) :
    StateM FileTree (Except FileFault Unit) := fun t =>
  match f t with
  | .ok t => (.ok (), t)
  | .error fault => (.error fault, t)

instance : Files (StateM FileTree) where
  isThere p := fun t => ((t.find p).isOk, t)
  isDirectory p := fun t => ((match t.find p with
    | .ok found => found.isDirectory
    | .error _ => false), t)
  read p := fun t => (t.read p, t)
  write p content := FileTree.change fun t => t.write p content
  makeDirectory p := FileTree.change fun t => t.makeDirectory p

/-- Why a text cannot be read from a file. -/
inductive ReadFault where
  | file (fault : FileFault)
  | notText
  deriving DecidableEq, Repr

namespace ReadFault

/-- The fault in words. -/
def message : ReadFault → String
  | file fault => fault.message
  | notText => "stream did not contain valid UTF-8"

end ReadFault

namespace Files

variable {m : Type → Type} [Monad m] [Files m]

/-- Reads a file as a text. -/
def readText (p : Path) : m (Except ReadFault String) := do
  match ← read p with
  | .error fault => pure (.error (.file fault))
  | .ok bytes =>
      match Utf8.decode? bytes with
      | some text => pure (.ok text)
      | none => pure (.error .notText)

/-- Finds how much of a directory is missing: goes up until a directory can be
made or is there, and returns those that could not be made yet, the deepest
first. -/
def missingDirectories : List Path → m (Except FileFault (List Path))
  | [] => pure (.ok [])
  | p :: above => do
      match ← makeDirectory p with
      | .ok () => pure (.ok [])
      | .error .notFound =>
          match ← missingDirectories above with
          | .ok missing => pure (.ok (p :: missing))
          | .error fault => pure (.error fault)
      | .error .alreadyThere =>
          if ← isDirectory p then pure (.ok []) else pure (.error .alreadyThere)
      | .error fault => pure (.error fault)

/-- Makes directories in order. One that is there already does no harm. -/
def makeAll : List Path → m (Except FileFault Unit)
  | [] => pure (.ok ())
  | p :: rest => do
      match ← makeDirectory p with
      | .ok () => makeAll rest
      | .error fault =>
          if fault == .alreadyThere then
            if ← isDirectory p then makeAll rest else pure (.error fault)
          else pure (.error fault)

/-- Makes a directory and those above it that are missing. -/
def makeDirectories (p : Path) : m (Except FileFault Unit) := do
  match ← missingDirectories p.ancestors with
  | .ok missing => makeAll missing.reverse
  | .error fault => pure (.error fault)

end Files

end PointDriver

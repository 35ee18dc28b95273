import PointDriver.Files.Path

/-! # File trees

A tree of directories with files as its leaves. A location is the list of names
from the root; a path leads to a location when every component before the last
is a directory that is there.

Names and paths have the limits of the system: a name may have 255 bytes, a path
4095, and no path holds a zero byte. A tree has no links, no permissions and
all the space that is asked for. -/

namespace PointDriver

/-- Why a file cannot be used as asked. -/
inductive FileFault where
  | notFound
  | notDirectory
  | isDirectory
  | alreadyThere
  /-- A name or the path as a whole has too many bytes. -/
  | nameTooLong
  /-- The path holds the byte that would end it. -/
  | zeroByte
  /-- Any other reason, in the words of the system. -/
  | system (text : String)
  deriving DecidableEq, Repr

namespace FileFault

/-- The fault in words. -/
def message : FileFault → String
  | notFound => "No such file or directory (os error 2)"
  | notDirectory => "Not a directory (os error 20)"
  | isDirectory => "Is a directory (os error 21)"
  | alreadyThere => "File exists (os error 17)"
  | nameTooLong => "File name too long (os error 36)"
  | zeroByte => "file name contained an unexpected NUL byte"
  | system text => text

end FileFault

/-- The names from the root down to a file or directory. -/
abbrev Location := List Bytes

/-- A file with its content, or a directory with what it holds. -/
inductive FileTree where
  | file (content : Bytes)
  | directory (entries : List (Bytes × FileTree))
  deriving Inhabited

namespace FileTree

/-- The tree with nothing in it. -/
def empty : FileTree := directory []

/-- Whether this is a directory. -/
def isDirectory : FileTree → Bool
  | directory _ => true
  | file _ => false

/-- The entries with one of them put in its place, or at the end. -/
def replaceEntry (name : Bytes) (new : FileTree) :
    List (Bytes × FileTree) → List (Bytes × FileTree)
  | [] => [(name, new)]
  | (n, t) :: rest =>
      if n == name then (n, new) :: rest else (n, t) :: replaceEntry name new rest

/-- What is at a location. -/
def get? : FileTree → Location → Option FileTree
  | t, [] => some t
  | directory entries, name :: rest =>
      match entries.lookup name with
      | some t => t.get? rest
      | none => none
  | file _, _ :: _ => none

/-- The tree with something put at a location. Nothing changes when the
directory for it is not there. -/
def put : FileTree → Location → FileTree → FileTree
  | _, [], new => new
  | directory entries, [name], new => directory (replaceEntry name new entries)
  | directory entries, name :: next :: rest, new =>
      match entries.lookup name with
      | some t => directory (replaceEntry name (t.put (next :: rest) new) entries)
      | none => directory entries
  | file content, _ :: _, _ => file content

/-- The tree without what is at a location. -/
def erase : FileTree → Location → FileTree
  | directory entries, [name] => directory (entries.filter fun e => e.1 != name)
  | directory entries, name :: next :: rest =>
      match entries.lookup name with
      | some t => directory (replaceEntry name (t.erase (next :: rest)) entries)
      | none => directory entries
  | t, _ => t

/-- The location reached from another by one component. -/
def step (at_ : Location) (component : Bytes) : Location :=
  if component == Path.here then at_
  else if component == Path.up then at_.dropLast
  else at_ ++ [component]

/-- The location that components lead to. All that is passed on the way is a
directory. How long a name is counts once the directory that would hold it is
there. -/
def locateFrom (t : FileTree) : Location → List Bytes → Except FileFault Location
  | at_, [] => .ok at_
  | at_, component :: rest =>
      match t.get? at_ with
      | none => .error .notFound
      | some (file _) => .error .notDirectory
      | some (directory _) =>
          if Path.nameLimit < component.length then .error .nameTooLong
          else locateFrom t (step at_ component) rest

/-- Whether a path can only mean a directory. -/
def endsWithSlash (p : Path) : Bool := p.getLast? == some Path.slash

/-- Why a path is refused before anything is looked up. -/
def refusal? (p : Path) : Option FileFault :=
  if p.isEmpty then some .notFound
  else if p.contains 0 then some .zeroByte
  else if Path.lengthLimit < p.length then some .nameTooLong
  else none

/-- The location that a path leads to. -/
def locate (t : FileTree) (p : Path) : Except FileFault Location :=
  match refusal? p with
  | some fault => .error fault
  | none => locateFrom t [] p.pieces

/-- What a path leads to. -/
def find (t : FileTree) (p : Path) : Except FileFault FileTree :=
  match t.locate p with
  | .error fault => .error fault
  | .ok location =>
      match t.get? location with
      | none => .error .notFound
      | some (file content) =>
          if endsWithSlash p then .error .notDirectory else .ok (file content)
      | some (directory entries) => .ok (directory entries)

/-- The content of the file at a path. -/
def read (t : FileTree) (p : Path) : Except FileFault Bytes :=
  match t.find p with
  | .error fault => .error fault
  | .ok (file content) => .ok content
  | .ok (directory _) => .error .isDirectory

/-- The tree with a file at a path, new or replaced. A path that can only mean a
directory is taken for one, whatever is there. -/
def write (t : FileTree) (p : Path) (content : Bytes) : Except FileFault FileTree :=
  match t.locate p with
  | .error fault => .error fault
  | .ok location =>
      match t.get? location with
      | some (directory _) => .error .isDirectory
      | _ => if endsWithSlash p then .error .isDirectory else .ok (t.put location (file content))

/-- The tree with a new directory at a path. -/
def makeDirectory (t : FileTree) (p : Path) : Except FileFault FileTree :=
  match t.locate p with
  | .error fault => .error fault
  | .ok location =>
      match t.get? location with
      | some _ => .error .alreadyThere
      | none => .ok (t.put location empty)

/-- The tree without the file at a path. -/
def remove (t : FileTree) (p : Path) : Except FileFault FileTree :=
  match t.locate p, t.read p with
  | .ok location, .ok _ => .ok (t.erase location)
  | .error fault, _ => .error fault
  | _, .error fault => .error fault

/-- Every file and directory below, with its path from here. A directory ends
with a slash and has no content. -/
def listing (t : FileTree) : List (Path × Option Bytes) :=
  match t with
  | file _ => []
  | directory entries => below entries
where
  below : List (Bytes × FileTree) → List (Path × Option Bytes)
    | [] => []
    | (name, file content) :: rest => (name, some content) :: below rest
    | (name, directory entries) :: rest =>
        let here := name ++ [Path.slash]
        (here, none) :: ((below entries).map fun (p, c) => (here ++ p, c)) ++ below rest

end FileTree

end PointDriver

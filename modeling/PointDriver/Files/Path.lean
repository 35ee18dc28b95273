import PointDriver.Text.Utf8

/-! # Paths

A path is a byte sequence with slashes between its components. Repeated slashes
and components `.` behind the first count for nothing, so different paths can
have the same components. -/

namespace PointDriver

/-- A path as it was written. -/
abbrev Path := Bytes

namespace Path

/-- The byte between components. -/
def slash : UInt8 := 0x2F

/-- How many bytes a component may have. -/
def nameLimit : Nat := 255

/-- How many bytes a path may have. -/
def lengthLimit : Nat := 4095

/-- The path that a text spells. -/
def ofString (s : String) : Path := Utf8.encode s

/-- The path as a text for people. -/
def display (p : Path) : String := Utf8.lossy p

/-- Whether the path starts at the root. -/
def isAbsolute (p : Path) : Bool := p.head? == some slash

/-- The pieces between slashes; empty ones are dropped. -/
def pieces (p : Path) : List Bytes :=
  (p.foldr (fun b (current, done) =>
    if b == slash then ([], if current.isEmpty then done else current :: done)
    else (b :: current, done)) (([], []) : Bytes × List Bytes)) |> fun (current, done) =>
      if current.isEmpty then done else current :: done

/-- The component that stays where it is. -/
def here : Bytes := [0x2E]

/-- The component that goes one directory up. -/
def up : Bytes := [0x2E, 0x2E]

/-- The components that count: all but `.`, which counts only in front of a
relative path. -/
def components (p : Path) : List Bytes :=
  match p.pieces with
  | [] => []
  | first :: rest =>
      let rest := rest.filter (· != here)
      if first == here && p.isAbsolute then rest else first :: rest

/-- The last component, if it names something. -/
def fileName? (p : Path) : Option Bytes :=
  p.components.getLast?.bind fun last =>
    if last == here || last == up then none else some last

/-- The second path seen from the first; an absolute path stays what it is. -/
def join (base p : Path) : Path :=
  if p.isAbsolute || base.isEmpty then p
  else if base.getLast? == some slash then base ++ p
  else base ++ slash :: p

/-- The path with the given components. -/
def ofComponents (absolute : Bool) (components : List Bytes) : Path :=
  (if absolute then [slash] else []) ++ [slash].intercalate components

/-- The non-empty beginnings of a list, the longest first. -/
def beginnings : List Bytes → List (List Bytes)
  | [] => []
  | c :: rest => (beginnings rest).map (c :: ·) ++ [[c]]

/-- The path and the directories above it, the deepest first, without the root
and the place where a relative path starts. The path itself stays as it was
written. -/
def ancestors (p : Path) : List Path :=
  match beginnings p.components with
  | [] => []
  | _ :: above => p :: above.map (ofComponents p.isAbsolute)

end Path

end PointDriver

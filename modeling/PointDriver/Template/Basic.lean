import PointDriver.Json.Basic

/-! # Templates

A template is text with tags in double braces. A tag prints a value, calls a
helper, or opens a block that is printed for some values and not for others.
The values come from a JSON context. -/

namespace PointDriver.Template

/-- Where a reference starts to look. -/
inductive Origin where
  /-- At the value of a surrounding frame. -/
  | frame
  /-- At the whole context. -/
  | context
  /-- At the variables of a surrounding frame. -/
  | variable
  deriving DecidableEq, Repr

/-- A reference to a value: how many frames up, and the keys from there. -/
structure Reference where
  origin : Origin
  ups : Nat
  keys : List String
  deriving DecidableEq, Repr

/-- What a helper is applied to. -/
inductive Argument where
  | literal (value : Json)
  | reference (reference : Reference)
  | call (name : String) (arguments : List Argument) (options : List (String × Argument))
  deriving Inhabited

/-- The head of a block: a helper with its arguments, and the names that the
block gives to the values it goes through. -/
structure Opening where
  name : String
  arguments : List Argument
  options : List (String × Argument)
  names : List String
  deriving Inhabited

/-- A part of a template. -/
inductive Element where
  | text (text : List Char)
  | output (value : Argument)
  /-- A block with what is printed otherwise, if it says so. -/
  | block (opening : Opening) (body : List Element) (otherwise : Option (List Element))
  /-- Another template by its name. -/
  | inclusion
  deriving Inhabited

/-- The helpers that are always there. -/
def helperNames : List String :=
  ["if", "unless", "each", "with", "lookup", "raw", "log", "eq", "ne", "gt", "gte", "lt", "lte",
    "and", "or", "not", "len"]

end PointDriver.Template

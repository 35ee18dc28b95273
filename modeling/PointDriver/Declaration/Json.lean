import PointDriver.Declaration.Basic
import PointDriver.Json.Basic
import PointDriver.Double.Shortest
import PointDriver.Text.Quoted

/-! # Declarations as JSON

A declaration is written as the array of its names. Reading takes the items in
order, and the first that is no string or no legal name is the error; a
repetition is looked for only when all items are names. -/

namespace PointDriver

/-- Why a JSON value is no declaration. -/
inductive JsonError where
  /-- The value is no array. -/
  | notSequence (found : Json)
  /-- An item is no string. -/
  | notString (found : Json)
  | rejected (error : DeclarationError)

namespace JsonError

/-- Whether an integer fits into 64 bits, with a sign only if it is negative. -/
def hasWord (n : Int) : Bool :=
  if n < 0 then n.natAbs ≤ Nat.pow 2 63 else n.natAbs < Nat.pow 2 64

/-- The kind of a value, with the value itself when it is simple. -/
def described : Json → String
  | .null => "null"
  | .boolean b => "boolean `" ++ (if b then "true" else "false") ++ "`"
  | .integer n =>
      if hasWord n then "integer `" ++ toString n ++ "`"
      else
        let nearest : Double := ⟨n < 0, Double.rankOf n.natAbs 1⟩
        "floating point `" ++ nearest.shortestText ++ "`"
  | .real x => "floating point `" ++ x.shortestText ++ "`"
  | .text s => "string " ++ Quoted.quote s
  | .array _ => "sequence"
  | .object _ => "map"

/-- The error in words. -/
def message : JsonError → String
  | notSequence found => "invalid type: " ++ described found ++ ", expected a sequence"
  | notString found => "invalid type: " ++ described found ++ ", expected a string"
  | rejected error => error.message

end JsonError

namespace Declaration

/-- The array of the names. -/
def toJson (d : Declaration) : Json := .array (d.names.map .text)

/-- The legal name that an item holds. -/
def nameOfJson : Json → Except JsonError String
  | .text name =>
      match nameError? name with
      | some error => .error (.rejected error)
      | none => .ok name
  | found => .error (.notString found)

/-- The declaration that a value holds. -/
def ofJson : Json → Except JsonError Declaration
  | .array items =>
      match items.mapM nameOfJson with
      | .error error => .error error
      | .ok names => (ofNames names).mapError .rejected
  | found => .error (.notSequence found)

end Declaration

end PointDriver

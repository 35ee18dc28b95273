import PointDriver.Double.Basic

/-! # JSON values

A value as a document spells it: whole numbers stay apart from numbers with a
point or an exponent, and the members of an object keep their order. -/

namespace PointDriver

/-- A JSON value. -/
inductive Json where
  | null
  | boolean (value : Bool)
  /-- A number without point and exponent. A negative zero is not among them. -/
  | integer (value : Int)
  | real (value : Double)
  | text (value : String)
  | array (items : List Json)
  | object (members : List (String × Json))
  deriving Inhabited

namespace Json

/-- The value of an object's member with the key, the last one if there are several. -/
def member? (key : String) : Json → Option Json
  | object members => (members.reverse.find? fun m => m.1 == key).map (·.2)
  | _ => none

end Json

end PointDriver

import PointDriver.Text.Shapeless

/-! # Quoted texts

A text between double quotes, written so that every character can be seen. -/

namespace PointDriver.Quoted

/-- The code number of a character between braces, in base sixteen. -/
def byNumber (c : Char) : List Char :=
  ['\\', 'u', '\x7b'] ++ Nat.toDigits 16 c.toNat ++ ['\x7d']

/-- A character as it shows between quotes. -/
def visible (c : Char) : List Char :=
  match c with
  | '"' => ['\\', '"']
  | '\\' => ['\\', '\\']
  | '\n' => ['\\', 'n']
  | '\r' => ['\\', 'r']
  | '\t' => ['\\', 't']
  | '\x00' => ['\\', '0']
  | c => if Shapeless.isShapeless c then byNumber c else [c]

/-- The text between quotes. -/
def quote (s : String) : String :=
  String.ofList ('"' :: (s.toList.flatMap visible ++ ['"']))

end PointDriver.Quoted

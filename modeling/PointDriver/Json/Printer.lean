import PointDriver.Json.Basic
import PointDriver.Double.Shortest

/-! # Writing JSON

Two layouts of one value: without any blanks, and with one item to a line,
indented by two blanks for each enclosing bracket. -/

namespace PointDriver.Json

/-- A digit of a number in base sixteen. -/
def hexLetter (n : Nat) : Char := (Nat.toDigits 16 (n % 16)).headD '0'

/-- A character as it stands between quotes. Quotes, backslashes and control
characters are escaped. -/
def quotedChar (c : Char) : List Char :=
  match c with
  | '"' => ['\\', '"']
  | '\\' => ['\\', '\\']
  | '\x08' => ['\\', 'b']
  | '\x0c' => ['\\', 'f']
  | '\n' => ['\\', 'n']
  | '\r' => ['\\', 'r']
  | '\t' => ['\\', 't']
  | c =>
      if c.toNat < 0x20 then ['\\', 'u', '0', '0', hexLetter (c.toNat / 16), hexLetter c.toNat]
      else [c]

/-- A text between quotes. -/
def quoted (s : String) : List Char := '"' :: (s.toList.flatMap quotedChar ++ ['"'])

/-- A line break and the blanks before a value at the depth. -/
def lineBreak (depth : Nat) : List Char := '\n' :: List.replicate (2 * depth) ' '

/-- A value without blanks, or one item to a line when a depth is given. -/
def layout (depth : Option Nat) : Json → List Char
  | null => "null".toList
  | boolean true => "true".toList
  | boolean false => "false".toList
  | integer n => (toString n).toList
  | real x => (if x.isNaN || x.isInfinite then "null" else x.shortestText).toList
  | text s => quoted s
  | array [] => ['[', ']']
  | array (item :: items) =>
      '[' :: (first (depth.map (· + 1)) item ++ layoutItems (depth.map (· + 1)) items ++
        close depth ']')
  | object [] => ['\x7b', '\x7d']
  | object ((key, value) :: members) =>
      '\x7b' :: (opening (depth.map (· + 1)) ++ quoted key ++ colon depth ++
        layout (depth.map (· + 1)) value ++ layoutMembers (depth.map (· + 1)) members ++
        close depth '\x7d')
where
  opening (depth : Option Nat) : List Char :=
    match depth with
    | some depth => lineBreak depth
    | none => []
  colon (depth : Option Nat) : List Char :=
    match depth with
    | some _ => [':', ' ']
    | none => [':']
  close (depth : Option Nat) (bracket : Char) : List Char :=
    match depth with
    | some depth => lineBreak depth ++ [bracket]
    | none => [bracket]
  first (depth : Option Nat) (item : Json) : List Char := opening depth ++ layout depth item
  layoutItems (depth : Option Nat) : List Json → List Char
    | [] => []
    | item :: items => ',' :: (opening depth ++ layout depth item ++ layoutItems depth items)
  layoutMembers (depth : Option Nat) : List (String × Json) → List Char
    | [] => []
    | (key, value) :: members =>
        ',' :: (opening depth ++ quoted key ++ colon depth ++ layout depth value ++
          layoutMembers depth members)

/-- The value on one line without blanks. -/
def compact (value : Json) : String := String.ofList (value.layout none)

/-- The value with one item to a line. -/
def pretty (value : Json) : String := String.ofList (value.layout (some 0))

end PointDriver.Json

import PointDriver.Json.Basic
import PointDriver.Double.Literal

/-! # Reading JSON

Each reader takes characters off the front and returns what it read together
with the characters behind it. -/

namespace PointDriver.Json

/-- The blanks that may stand between tokens. -/
def isSpace (c : Char) : Bool := c == ' ' || c == '\t' || c == '\n' || c == '\r'

/-- The characters from the next token on. -/
def skipSpace (cs : List Char) : List Char := cs.dropWhile isSpace

/-- The value of a hexadecimal digit. -/
def hexDigit? (c : Char) : Option Nat :=
  if c.isDigit then some (c.toNat - '0'.toNat)
  else if 'a' ≤ c && c ≤ 'f' then some (c.toNat - 'a'.toNat + 10)
  else if 'A' ≤ c && c ≤ 'F' then some (c.toNat - 'A'.toNat + 10)
  else none

/-- What a letter after a backslash stands for. -/
def escaped? (c : Char) : Option Char :=
  match c with
  | '"' => some '"'
  | '\\' => some '\\'
  | '/' => some '/'
  | 'b' => some '\x08'
  | 'f' => some '\x0c'
  | 'n' => some '\n'
  | 'r' => some '\r'
  | 't' => some '\t'
  | _ => none

/-- The code numbers of a string up to its closing quote. A four-digit escape
may be half of a pair, so the numbers are not characters yet. -/
def codes? : List Char → Option (List Nat × List Char)
  | [] => none
  | '"' :: rest => some ([], rest)
  | '\\' :: 'u' :: a :: b :: c :: d :: rest => do
      let number := (← hexDigit? a) * 4096 + (← hexDigit? b) * 256 + (← hexDigit? c) * 16 +
        (← hexDigit? d)
      let (codes, rest) ← codes? rest
      pure (number :: codes, rest)
  | '\\' :: e :: rest => do
      let c ← escaped? e
      let (codes, rest) ← codes? rest
      pure (c.toNat :: codes, rest)
  | c :: rest =>
      if c.toNat < 0x20 || c == '\\' then none
      else (codes? rest).map fun (codes, rest) => (c.toNat :: codes, rest)

/-- Joins the two halves of each pair; a half on its own is no character. -/
def characters? : List Nat → Option (List Char)
  | [] => some []
  | n :: rest =>
      if 0xD800 ≤ n && n ≤ 0xDBFF then
        match rest with
        | low :: rest =>
            if 0xDC00 ≤ low && low ≤ 0xDFFF then
              (characters? rest).map
                (Char.ofNat (0x10000 + (n - 0xD800) * 1024 + (low - 0xDC00)) :: ·)
            else none
        | [] => none
      else if 0xDC00 ≤ n && n ≤ 0xDFFF then none
      else (characters? rest).map (Char.ofNat n :: ·)

/-- A string whose opening quote has been read. -/
def string? (cs : List Char) : Option (String × List Char) := do
  let (codes, rest) ← codes? cs
  pure (String.ofList (← characters? codes), rest)

/-- Whether a character can belong to a number. -/
def isNumeric (c : Char) : Bool :=
  c.isDigit || c == '-' || c == '+' || c == '.' || c == 'e' || c == 'E'

/-- A number without point and exponent is whole, all others are doubles. -/
def number? (cs : List Char) : Option (Json × List Char) :=
  let shown := cs.takeWhile isNumeric
  let (negative, digits) := match shown with
    | '-' :: rest => (true, rest)
    | rest => (false, rest)
  let value : Option Json :=
    match digits with
    | [] => none
    | first :: _ =>
        if !first.isDigit then none
        else if digits.all Char.isDigit then
          let n := Literal.digitsValue digits
          if negative then
            if n = 0 then some (.real ⟨true, 0⟩) else some (.integer (-(n : Int)))
          else some (.integer n)
        else (Double.read? shown).map .real
  value.map fun v => (v, cs.dropWhile isNumeric)

/-- A word with a fixed meaning at the front. -/
def word? (word : String) (value : Json) (cs : List Char) : Option (Json × List Char) :=
  if word.toList.isPrefixOf cs then some (value, cs.drop word.length) else none

mutual

/-- A value at the front, after blanks. The first argument bounds the depth. -/
def value? : Nat → List Char → Option (Json × List Char)
  | 0, _ => none
  | depth + 1, cs =>
      match skipSpace cs with
      | [] => none
      | c :: rest =>
          if c == '"' then (string? rest).map fun (s, rest) => (.text s, rest)
          else if c == '[' then
            match skipSpace rest with
            | ']' :: rest => some (.array [], rest)
            | rest => (items? depth rest).map fun (items, rest) => (.array items, rest)
          else if c == '{' then
            match skipSpace rest with
            | '}' :: rest => some (.object [], rest)
            | rest => (members? depth rest).map fun (members, rest) => (.object members, rest)
          else if c == 'n' then word? "null" .null (c :: rest)
          else if c == 't' then word? "true" (.boolean true) (c :: rest)
          else if c == 'f' then word? "false" (.boolean false) (c :: rest)
          else number? (c :: rest)

/-- The items of an array up to its closing bracket. -/
def items? : Nat → List Char → Option (List Json × List Char)
  | 0, _ => none
  | depth + 1, cs => do
      let (item, rest) ← value? depth cs
      match skipSpace rest with
      | ',' :: rest =>
          let (items, rest) ← items? depth rest
          pure (item :: items, rest)
      | ']' :: rest => pure ([item], rest)
      | _ => none

/-- The members of an object up to its closing brace. -/
def members? : Nat → List Char → Option (List (String × Json) × List Char)
  | 0, _ => none
  | depth + 1, cs => do
      match skipSpace cs with
      | '"' :: rest =>
          let (key, rest) ← string? rest
          match skipSpace rest with
          | ':' :: rest =>
              let (value, rest) ← value? depth rest
              match skipSpace rest with
              | ',' :: rest =>
                  let (members, rest) ← members? depth rest
                  pure ((key, value) :: members, rest)
              | '}' :: rest => pure ([(key, value)], rest)
              | _ => none
          | _ => none
      | _ => none

end

/-- Reads a whole text as one value. -/
def read? (s : String) : Option Json :=
  let cs := s.toList
  match value? (2 * cs.length + 2) cs with
  | some (value, rest) => if (skipSpace rest).isEmpty then some value else none
  | none => none

end PointDriver.Json

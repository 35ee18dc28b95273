import PointDriver.Double.Literal

/-! # YAML nodes

A document is a tree of sequences and mappings with scalars at its leaves. A
scalar keeps the text it was written with, and whether it stood between quotes:
only an unquoted one can mean something other than a text. -/

namespace PointDriver.Yaml

/-- A node of a document. -/
inductive Node where
  /-- A scalar without quotes. -/
  | plain (text : String)
  /-- A scalar between quotes, or a block of text. -/
  | quoted (text : String)
  | sequence (items : List Node)
  | mapping (entries : List (Node × Node))
  deriving Inhabited

/-- What a scalar means when nothing says what it should be. -/
inductive Meaning where
  | null
  | boolean
  | integer (value : Int)
  | real
  | text (text : String)
  deriving DecidableEq, Repr

/-- The words that mean that there is no value. -/
def isNull (s : String) : Bool := ["null", "Null", "NULL", "~"].contains s

/-- The words for the truth values. -/
def isBoolean (s : String) : Bool :=
  ["true", "True", "TRUE", "false", "False", "FALSE"].contains s

/-- The value of a digit in a base up to sixteen. -/
def digitIn? (base : Nat) (c : Char) : Option Nat :=
  let value? : Option Nat :=
    if c.isDigit then some (c.toNat - '0'.toNat)
    else if 'a' ≤ c && c ≤ 'f' then some (c.toNat - 'a'.toNat + 10)
    else if 'A' ≤ c && c ≤ 'F' then some (c.toNat - 'A'.toNat + 10)
    else none
  value?.filter (· < base)

/-- The number that digits spell in a base. -/
def natIn? (base : Nat) (cs : List Char) : Option Nat :=
  if cs.isEmpty then none
  else cs.foldlM (fun n c => (digitIn? base c).map (base * n + ·)) 0

/-- The number without a sign: digits, or a letter for the base and digits. -/
def nat? : List Char → Option Nat
  | '0' :: 'x' :: rest => natIn? 16 rest
  | '0' :: 'o' :: rest => natIn? 8 rest
  | '0' :: 'b' :: rest => natIn? 2 rest
  | cs => natIn? 10 cs

/-- Whether a text consists of digits with a needless zero in front, which
makes it a text and not a number. -/
def isPadded (cs : List Char) : Bool :=
  let digits := match cs with
    | '-' :: rest | '+' :: rest => rest
    | rest => rest
  1 < digits.length && digits.head? == some '0' && digits.all Char.isDigit

/-- The whole number that a text spells. -/
def integer? (cs : List Char) : Option Int :=
  if isPadded cs then none
  else match cs with
    | '-' :: rest => (nat? rest).map fun n => -(n : Int)
    | '+' :: rest => (nat? rest).map fun n => (n : Int)
    | rest => (nat? rest).map fun n => (n : Int)

/-- Whether a text spells a number with a point, an exponent or a word for
infinity. A number too large to be finite is a text. -/
def isReal (cs : List Char) : Bool :=
  let unsigned := match cs with
    | '+' :: rest => if rest.head? == some '+' || rest.head? == some '-' then [] else rest
    | rest => rest
  let word := String.ofList unsigned
  if [".inf", ".Inf", ".INF", "-.inf", "-.Inf", "-.INF"].contains word then true
  else if [".nan", ".NaN", ".NAN"].contains (String.ofList cs) then true
  else !isPadded cs &&
    match Double.read? unsigned with
    | some x => !x.isNaN && !x.isInfinite
    | none => false

/-- What an unquoted scalar means. -/
def meaning (s : String) : Meaning :=
  if s.isEmpty || isNull s then .null
  else if isBoolean s then .boolean
  else match integer? s.toList with
    | some n => .integer n
    | none => if isReal s.toList then .real else .text s

namespace Node

/-- The text of a scalar as it was written. -/
def scalarText? : Node → Option String
  | plain text | quoted text => some text
  | _ => none

/-- The text of a scalar that means a text. -/
def meantText? : Node → Option String
  | quoted text => some text
  | plain text =>
      match meaning text with
      | .text text => some text
      | _ => none
  | _ => none

end Node

end PointDriver.Yaml

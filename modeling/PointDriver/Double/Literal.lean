import PointDriver.Double.Basic

/-! # Number texts

The texts that spell a double: an optional sign, then decimal digits with an
optional point and exponent, or a word for infinity or for no number. What a
text denotes is exact; the double is the nearest one to it. -/

namespace PointDriver

/-- What a number text denotes. -/
inductive Literal where
  /-- The number `digits * 10 ^ exponent`. -/
  | decimal (negative : Bool) (digits : Nat) (exponent : Int)
  | infinity (negative : Bool)
  | notANumber (negative : Bool)
  deriving DecidableEq, Repr

namespace Literal

/-- The number that a list of decimal digits spells. -/
def digitsValue (ds : List Char) : Nat :=
  ds.foldl (fun n d => 10 * n + (d.toNat - '0'.toNat)) 0

/-- A sign is a plus or a minus; the rest follows it. -/
def sign : List Char → Bool × List Char
  | '-' :: rest => (true, rest)
  | '+' :: rest => (false, rest)
  | rest => (false, rest)

/-- An exponent: an optional sign and at least one digit, and nothing else. -/
def exponent? (cs : List Char) : Option Int :=
  let (negative, ds) := sign cs
  if ds.isEmpty || !ds.all Char.isDigit then none
  else some (if negative then -(digitsValue ds : Int) else digitsValue ds)

/-- The digits after a point at the front, if there is one, and what follows. -/
def fraction : List Char → List Char × List Char
  | '.' :: rest => (rest.takeWhile Char.isDigit, rest.dropWhile Char.isDigit)
  | rest => ([], rest)

/-- An unsigned decimal number: digits with an optional point, at least one
digit in all, and an optional exponent. -/
def magnitude? (cs : List Char) : Option (Nat × Int) :=
  let whole := cs.takeWhile Char.isDigit
  let (places, rest) := fraction (cs.dropWhile Char.isDigit)
  if whole.isEmpty && places.isEmpty then none
  else
    let digits := digitsValue (whole ++ places)
    match rest with
    | [] => some (digits, -(places.length : Int))
    | e :: more =>
        if e == 'e' || e == 'E' then
          (exponent? more).map fun x => (digits, x - (places.length : Int))
        else none

/-- The words for infinity and for no number, in any case. -/
def word? (negative : Bool) (cs : List Char) : Option Literal :=
  let lower := cs.map Char.toLower
  if lower == "inf".toList || lower == "infinity".toList then some (.infinity negative)
  else if lower == "nan".toList then some (.notANumber negative)
  else none

/-- Reads a whole text as a number. -/
def read? (cs : List Char) : Option Literal :=
  let (negative, rest) := sign cs
  match magnitude? rest with
  | some (digits, e) => some (.decimal negative digits e)
  | none => word? negative rest

/-- The rank nearest to `digits * 10 ^ exponent`. Exponents so far out that the
result is infinite or zero whatever the digits are decided without the power. -/
def decimalRank (digits : Nat) (exponent : Int) : Nat :=
  if digits = 0 then 0
  else if 400 < exponent then Double.infiniteRank
  else if exponent + Nat.log2 digits + 401 < 0 then 0
  else match exponent with
    | .ofNat e => Double.rankOf (digits * Nat.pow 10 e) 1
    | .negSucc e => Double.rankOf digits (Nat.pow 10 (e + 1))

/-- The double nearest to what the text denotes. -/
def toDouble : Literal → Double
  | .decimal negative digits exponent => ⟨negative, decimalRank digits exponent⟩
  | .infinity negative => ⟨negative, Double.infiniteRank⟩
  | .notANumber negative => ⟨negative, Double.nanRank⟩

end Literal

/-- The double that a text spells. -/
def Double.read? (cs : List Char) : Option Double :=
  (Literal.read? cs).map Literal.toDouble

end PointDriver

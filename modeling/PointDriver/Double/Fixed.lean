import PointDriver.Double.Basic

/-! # Six decimal places

The printed form of a value in a report: its exact expansion rounded to
millionths, a half going to the even neighbour. A negative value keeps its sign
even when it rounds to zero. -/

namespace PointDriver.Double

/-- The value's magnitude in millionths. -/
def millionths (rank : Nat) : Nat := nearestEven (multiples rank * 1000000) one

/-- A number of millionths with its point: whole digits, then six places. -/
def pointed (m : Nat) : List Char :=
  let places := Nat.toDigits 10 (m % 1000000)
  Nat.toDigits 10 (m / 1000000) ++ '.' :: (List.replicate (6 - places.length) '0' ++ places)

/-- The value with six decimal places, or its word when it is no finite number. -/
def sixPlaces (x : Double) : String :=
  if x.isNaN then "NaN"
  else
    let shown := if x.isInfinite then "inf".toList else pointed (millionths x.rank)
    String.ofList (if x.negative then '-' :: shown else shown)

end PointDriver.Double

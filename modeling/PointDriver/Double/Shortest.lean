import PointDriver.Double.Basic

/-! # Shortest digits

The fewest significant digits that read back as the same finite value, written
positionally and always with a point. A decimal reads back when it lies between
the midpoints to the neighbouring magnitudes; the midpoints themselves count
when the rank is even, because ties go there. -/

namespace PointDriver.Double

/-- Whether `c * 10 ^ scale` rounds to the magnitude at the rank. -/
def readsBack (rank c : Nat) (scale : Int) : Bool :=
  let up := Nat.pow 10 scale.toNat
  let down := Nat.pow 10 (-scale).toNat
  let shown := 2 * c * up * one
  let low := (multiples rank + multiples (rank - 1)) * down
  let high := (multiples rank + multiples (rank + 1)) * down
  if rank % 2 = 0 then low ≤ shown && shown ≤ high else low < shown && shown < high

/-- The least `n`, from a start on, for which ten to the `n` exceeds a quotient. -/
def decimalLength (num den : Nat) : Nat → Int → Int
  | 0, n => n
  | fuel + 1, n =>
      if num * Nat.pow 10 (-n).toNat < den * Nat.pow 10 n.toNat then n
      else decimalLength num den fuel (n + 1)

/-- The shortest digits of a positive finite magnitude with their scale. The
search starts with no digit, where the magnitude may still round up to a power
of ten. -/
def shortestFrom (rank : Nat) (length : Int) : Nat → Nat → Nat × Int
  | 0, count => (0, length - count)
  | fuel + 1, count =>
      let scale := length - count
      let num := multiples rank * Nat.pow 10 (-scale).toNat
      let den := one * Nat.pow 10 scale.toNat
      let below := num / den
      let near := nearestEven num den
      let far := if near = below then below + 1 else below
      if readsBack rank near scale then (near, scale)
      else if readsBack rank far scale then (far, scale)
      else shortestFrom rank length fuel (count + 1)

/-- The shortest digits of a magnitude and the power of ten they count. -/
def shortest (rank : Nat) : Nat × Int :=
  if rank = 0 then (0, 0)
  else shortestFrom rank (decimalLength (multiples rank) one 640 (-325)) 18 0

/-- A finite value with the fewest digits that read back, always with a point. -/
def shortestText (x : Double) : String :=
  let (digits, scale) := shortest x.rank
  let written := Nat.toDigits 10 digits
  let shown :=
    if 0 ≤ scale then written ++ List.replicate scale.toNat '0' ++ ".0".toList
    else
      let places := (-scale).toNat
      let padded := List.replicate (places + 1 - written.length) '0' ++ written
      padded.take (padded.length - places) ++ '.' :: padded.drop (padded.length - places)
  String.ofList (if x.negative then '-' :: shown else shown)

end PointDriver.Double

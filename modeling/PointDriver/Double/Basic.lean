/-! # Double-precision values

A double is a sign and a rank: the position of its magnitude in the increasing
list of all magnitudes, which is also what its lower 63 bits spell. Magnitudes
are whole multiples of the smallest positive one, so reading, rounding and
printing stay inside the natural numbers. -/

namespace PointDriver

/-- A double-precision value. Ranks above `Double.infiniteRank` are not numbers. -/
structure Double where
  /-- Whether the sign bit is set. -/
  negative : Bool
  /-- The lower 63 bits, read as a number. -/
  rank : Nat
  deriving DecidableEq, Repr, Inhabited

namespace Double

/-- The nearest whole number to a quotient; a half goes to the even neighbour. -/
def nearestEven (num den : Nat) : Nat :=
  let q := num / den
  let r := num % den
  if 2 * r < den then q else if den < 2 * r then q + 1 else q + q % 2

/-- A whole quotient is its own nearest whole number. -/
@[simp] theorem nearestEven_mul (k den : Nat) (positive : 0 < den) :
    nearestEven (k * den) den = k := by
  simp [nearestEven, Nat.mul_div_cancel k positive, positive]

/-- How many magnitudes follow each other at the same spacing. -/
def binade : Nat := Nat.pow 2 52

/-- The rank of infinity; every smaller rank is a finite magnitude. -/
def infiniteRank : Nat := 2047 * binade

/-- The rank used for a value that is not a number. -/
def nanRank : Nat := infiniteRank + binade / 2

/-- How many times the spacing of magnitudes has doubled at this rank. -/
def doublings (rank : Nat) : Nat := rank / binade - 1

/-- The magnitude at a rank in multiples of the smallest positive one. -/
def multiples (rank : Nat) : Nat :=
  (rank - doublings rank * binade) * Nat.pow 2 (doublings rank)

/-- How many smallest magnitudes make one. -/
def one : Nat := Nat.pow 2 1074

/-- The rank nearest to a quotient of natural numbers. Between two ranks the
even one takes a tie, and what exceeds every finite rank is infinite. -/
def rankOf (num den : Nat) : Nat :=
  let d := Nat.log2 (num * one / den) - 52
  min (d * binade + nearestEven (num * one) (den * Nat.pow 2 d)) infiniteRank

/-- Whether the value is not a number. -/
def isNaN (x : Double) : Bool := infiniteRank < x.rank

/-- Whether the value is one of the two infinities. -/
def isInfinite (x : Double) : Bool := x.rank == infiniteRank

/-- What the sign bit counts when the 64 bits are read as a number. -/
def signBit : Nat := Nat.pow 2 63

/-- The 64 bits of the value as a number. -/
def bits (x : Double) : Nat := (if x.negative then signBit else 0) + x.rank

/-- The value whose 64 bits spell the number. -/
def ofBits (n : Nat) : Double := ⟨signBit ≤ n % (2 * signBit), n % signBit⟩

@[simp] theorem bits_ofBits (n : Nat) (small : n < 2 * signBit) : (ofBits n).bits = n := by
  have size : signBit = 0x8000000000000000 := rfl
  simp only [bits, ofBits, size, decide_eq_true_eq] at small ⊢
  split <;> omega

end Double

end PointDriver

import Mathlib.Algebra.Order.Ring.Abs
import Mathlib.Algebra.Order.Field.Rat
import Mathlib.Tactic.Positivity
import PointDriver.Double.Literal
import PointDriver.Proofs.Double.Rounding
import PointDriver.Proofs.Schema.NumberSpelling

/-!
# Plain numbers

Numbers as they are written without an exponent: an optional sign, digits, and
perhaps a point with digits behind it. What is read for such a text is the
rounded quotient of its digits, and what is printed of a finite value is such a
text with six places.
-/

namespace PointDriver

/-- A number as it is written, with at least one digit in all. -/
structure PlainNumber where
  /-- The sign, if one is written, and then whether it is a minus. -/
  sign : Option Bool
  whole : List Char
  /-- The digits behind the point, if there is one. -/
  fraction : Option (List Char)
  digits : ∀ c ∈ whole ++ fraction.getD [], c.isDigit = true
  nonempty : whole ++ fraction.getD [] ≠ []

namespace PlainNumber

/-- The digits behind the point. -/
def places (t : PlainNumber) : List Char := t.fraction.getD []

/-- What the digits count when the point is left out. -/
def count (t : PlainNumber) : Nat := Nat.ofDigitChars 10 (t.whole ++ t.places) 0

def negative (t : PlainNumber) : Bool := t.sign == some true

/-- The number that is written. -/
def value (t : PlainNumber) : ℚ :=
  (if t.negative then -1 else 1) * (t.count / 10 ^ t.places.length)

/-- The digits as they are written, with the point. -/
def unsigned (t : PlainNumber) : List Char :=
  match t.fraction with
  | none => t.whole
  | some places => t.whole ++ '.' :: places

def text (t : PlainNumber) : String :=
  String.ofList (match t.sign with
    | none => t.unsigned
    | some false => '+' :: t.unsigned
    | some true => '-' :: t.unsigned)

section Reading
variable (t : PlainNumber)

theorem isDigit_or_point {c : Char} (h : c ∈ t.unsigned) : c.isDigit = true ∨ c = '.' := by
  unfold unsigned at h
  cases hf : t.fraction with
  | none =>
      rw [hf] at h
      exact Or.inl (t.digits c (List.mem_append_left _ h))
  | some places =>
      have hdigits := t.digits
      rw [hf] at h hdigits
      rcases List.mem_append.mp h with h | h
      · exact Or.inl (hdigits c (List.mem_append_left _ h))
      rcases List.mem_cons.mp h with rfl | h
      · exact Or.inr rfl
      · exact Or.inl (hdigits c (List.mem_append_right _ h))

theorem trim_text : trim t.text.toList = t.text.toList := by
  have hunsigned : ∀ c ∈ t.unsigned, isBlank c = false := by
    intro c hc
    rcases t.isDigit_or_point hc with h | rfl
    · exact isBlank_of_isDigit h
    · decide
  refine trim_eq_self ?_
  rw [text, String.toList_ofList]
  split
  · exact hunsigned
  · exact List.forall_mem_cons.mpr ⟨by decide, hunsigned⟩
  · exact List.forall_mem_cons.mpr ⟨by decide, hunsigned⟩

theorem sign_unsigned : Literal.sign t.unsigned = (false, t.unsigned) := by
  unfold Literal.sign
  split
  · next heq =>
      have hc := t.isDigit_or_point (heq ▸ List.mem_cons_self)
      exact absurd hc (by decide)
  · next heq =>
      have hc := t.isDigit_or_point (heq ▸ List.mem_cons_self)
      exact absurd hc (by decide)
  · rfl

theorem sign_text : Literal.sign t.text.toList = (t.negative, t.unsigned) := by
  rw [text, negative, String.toList_ofList]
  split
  · next hs => rw [sign_unsigned, hs]; rfl
  · next hs => rw [hs]; rfl
  · next hs => rw [hs]; rfl

/-- The digits are cut at the point, and nothing is behind them. -/
theorem cut_unsigned : t.unsigned.takeWhile Char.isDigit = t.whole ∧
    Literal.fraction (t.unsigned.dropWhile Char.isDigit) = (t.places, []) := by
  have hwhole : ∀ c ∈ t.whole, c.isDigit = true := fun c hc =>
    t.digits c (List.mem_append_left _ hc)
  have hplaces : ∀ c ∈ t.places, c.isDigit = true := fun c hc =>
    t.digits c (List.mem_append_right _ hc)
  have htake : t.whole.takeWhile Char.isDigit = t.whole := List.takeWhile_eq_self_iff.mpr hwhole
  have hdrop : t.whole.dropWhile Char.isDigit = [] := List.dropWhile_eq_nil_iff.mpr hwhole
  unfold places unsigned at *
  cases hf : t.fraction with
  | none => simp [htake, hdrop, Literal.fraction]
  | some places =>
      rw [hf] at hplaces
      have hpoint : Char.isDigit '.' = false := by decide
      have hrest : places.takeWhile Char.isDigit = places ∧ places.dropWhile Char.isDigit = [] :=
        ⟨List.takeWhile_eq_self_iff.mpr hplaces, List.dropWhile_eq_nil_iff.mpr hplaces⟩
      simp [List.takeWhile_append_of_pos hwhole, List.dropWhile_append_of_pos hwhole, hpoint,
        Literal.fraction, hrest]

/-- Digits with an optional point are a number without an exponent. -/
theorem magnitude?_unsigned :
    Literal.magnitude? t.unsigned = some (t.count, -(t.places.length : Int)) := by
  have hsome : (t.whole.isEmpty && t.places.isEmpty) = false := by
    rw [Bool.eq_false_iff]
    intro h
    obtain ⟨hw, hp⟩ : t.whole = [] ∧ t.places = [] := by simpa using h
    exact t.nonempty (List.append_eq_nil_iff.mpr ⟨hw, hp⟩)
  obtain ⟨htake, hfraction⟩ := t.cut_unsigned
  simp only [Literal.magnitude?, htake, hfraction, hsome]
  rfl

/-- Few places are read as a quotient by a power of ten. -/
theorem decimalRank_places (digits : Nat) {n : Nat} (short : n ≤ 6) :
    Literal.decimalRank digits (-(n : Int)) = Double.rankOf digits (10 ^ n) := by
  unfold Literal.decimalRank
  split
  · next h =>
      subst h
      exact (Double.rankOf_zero (Nat.pow_pos (by decide))).symm
  · rw [if_neg (by omega), if_neg (by omega)]
    cases n with
    | zero =>
        change Double.rankOf (digits * 1) 1 = Double.rankOf digits 1
        rw [Nat.mul_one]
    | succ n => rfl

/-- What is read is the rounded quotient of the digits, with the sign. -/
theorem read?_text (short : t.places.length ≤ 6) :
    Double.read? (trim t.text.toList) =
      some ⟨t.negative, Double.rankOf t.count (10 ^ t.places.length)⟩ := by
  rw [trim_text, Double.read?, Literal.read?, sign_text]
  simp only [magnitude?_unsigned, Option.map_some, Literal.toDouble, decimalRank_places _ short]

end Reading

section Printing

/-- A number of millionths as it is printed. -/
def ofMillionths (negative : Bool) (m : Nat) : PlainNumber where
  sign := if negative then some true else none
  whole := Nat.toDigits 10 (m / 1000000)
  fraction :=
    let places := Nat.toDigits 10 (m % 1000000)
    some (List.replicate (6 - places.length) '0' ++ places)
  digits := by
    intro c hc
    simp only [Option.getD_some, List.mem_append, List.mem_replicate] at hc
    rcases hc with h | ⟨-, rfl⟩ | h
    · exact Nat.isDigit_of_mem_toDigits (by decide) (by decide) h
    · decide
    · exact Nat.isDigit_of_mem_toDigits (by decide) (by decide) h
  nonempty := by simp [Nat.toDigits_ne_nil]

variable (negative : Bool) (m : Nat)

@[simp] theorem negative_ofMillionths : (ofMillionths negative m).negative = negative := by
  cases negative <;> rfl

@[simp] theorem length_places_ofMillionths : (ofMillionths negative m).places.length = 6 := by
  have hlength : (Nat.toDigits 10 (m % 1000000)).length ≤ 6 :=
    (Nat.length_toDigits_le_iff (by decide) (by decide)).mpr (Nat.mod_lt _ (by decide))
  simp only [places, ofMillionths, Option.getD_some, List.length_append, List.length_replicate]
  omega

@[simp] theorem count_ofMillionths : (ofMillionths negative m).count = m := by
  have hlength := length_places_ofMillionths negative m
  rw [count, Nat.ofDigitChars_append, Nat.ofDigitChars_eq_ofDigitChars_zero, hlength]
  simp only [places, ofMillionths, Option.getD_some, Nat.ofDigitChars_append,
    Nat.ofDigitChars_replicate_zero, Nat.ofDigitChars_ten_toDigits, Nat.mul_zero]
  exact Nat.div_add_mod m 1000000

theorem sixPlaces_of_finite {rank : Nat} (finite : rank < Double.infiniteRank) :
    (Double.mk negative rank).sixPlaces =
      (ofMillionths negative (Double.millionths rank)).text := by
  have hnumber : Double.isNaN ⟨negative, rank⟩ = false := by
    simp [Double.isNaN, finite.le]
  have hfinite : Double.isInfinite ⟨negative, rank⟩ = false := by
    simp [Double.isInfinite, finite.ne]
  simp only [Double.sixPlaces, hnumber, hfinite]
  cases negative <;> rfl

/-- What is printed of a value is read as a value that prints the same. -/
theorem exists_read?_sixPlaces (x : Double) :
    ∃ y, Double.read? (trim x.sixPlaces.toList) = some y ∧ y.sixPlaces = x.sixPlaces := by
  rcases Nat.lt_trichotomy x.rank Double.infiniteRank with hfinite | hinfinite | hnan
  · let t := ofMillionths x.negative (Double.millionths x.rank)
    have hprinted : x.sixPlaces = t.text := sixPlaces_of_finite x.negative hfinite
    have hread : Double.read? (trim t.text.toList) =
        some ⟨x.negative, Double.rankOf (Double.millionths x.rank) 1000000⟩ := by
      simpa [t] using t.read?_text (length_places_ofMillionths _ _).le
    obtain ⟨hagain, hrank⟩ := Double.millionths_rankOf_millionths hfinite
    rw [hprinted]
    refine ⟨_, hread, ?_⟩
    rw [sixPlaces_of_finite x.negative hrank, hagain]
  · obtain ⟨negative, rank⟩ := x
    simp only at hinfinite
    subst hinfinite
    refine ⟨⟨negative, Double.infiniteRank⟩, ?_, rfl⟩
    revert negative
    decide +kernel
  · have hprinted : x.sixPlaces = "NaN" := by simp [Double.sixPlaces, Double.isNaN, hnan]
    rw [hprinted]
    exact ⟨⟨false, Double.nanRank⟩, by decide +kernel, by decide +kernel⟩

end Printing

section Typing
variable (t : PlainNumber)

theorem abs_value : |t.value| = t.count / 10 ^ t.places.length := by
  have hmagnitude : (0 : ℚ) ≤ t.count / 10 ^ t.places.length := by positivity
  rw [value, abs_mul, abs_of_nonneg hmagnitude]
  split <;> simp

/-- A number with at most six places, below the point where doubles are further apart than a
millionth, is read as a double that is printed as the same number. -/
theorem sixPlaces_of_typed (short : t.places.length ≤ 6) (small : |t.value| < 8589934592) :
    ∃ x, Double.read? (trim t.text.toList) = some x ∧
      ∃ shown : PlainNumber, x.sixPlaces = shown.text ∧ shown.places.length = 6 ∧
        shown.value = t.value := by
  let m := t.count * 10 ^ (6 - t.places.length)
  have hsplit : 10 ^ (6 - t.places.length) * 10 ^ t.places.length = 1000000 := by
    rw [← Nat.pow_add, Nat.sub_add_cancel short]
  have hsmall : t.count < 8589934592 * 10 ^ t.places.length := by
    rw [abs_value, div_lt_iff₀ (by positivity)] at small
    exact_mod_cast small
  have hexact : t.count * 1000000 = m * 10 ^ t.places.length := by
    rw [Nat.mul_assoc, hsplit]
  obtain ⟨-, hfinite⟩ := Double.rankOf_of_small hsmall
  refine ⟨_, t.read?_text short, ofMillionths t.negative m, ?_, length_places_ofMillionths _ _, ?_⟩
  · rw [sixPlaces_of_finite _ hfinite, Double.millionths_rankOf hexact hsmall]
  · have hquotient : (m : ℚ) / 10 ^ 6 = t.count / 10 ^ t.places.length := by
      rw [div_eq_div_iff (by positivity) (by positivity)]
      exact_mod_cast hexact.symm
    simp only [value, negative_ofMillionths, count_ofMillionths, length_places_ofMillionths,
      hquotient]

end Typing

end PlainNumber

end PointDriver

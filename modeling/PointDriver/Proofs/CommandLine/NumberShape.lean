import Mathlib.Data.List.TakeWhile
import PointDriver.CommandLine.Basic

/-!
# Texts shaped like numbers

A dash may start a value only when the rest is shaped like a number. The shape
is given by where its point and its exponent letter may stand; the test reads
it from left to right. Both describe the same texts.
-/

namespace PointDriver.CommandLine

/-- The letters that introduce an exponent. -/
def isExponentLetter (c : Char) : Bool := c == 'e' || c == 'E'

/-- A text of digits with at most one point and at most one exponent letter,
neither of them first, the letter not last and no point behind the letter. -/
structure NumberShaped (cs : List Char) : Prop where
  nonempty : cs ≠ []
  alphabet : ∀ c ∈ cs, c.isDigit = true ∨ c = '.' ∨ isExponentLetter c = true
  point_once : cs.count '.' ≤ 1
  letter_once : cs.countP isExponentLetter ≤ 1
  point_not_first : cs.head? ≠ some '.'
  letter_not_first : ∀ c, cs.head? = some c → isExponentLetter c = false
  letter_not_last : ∀ c, cs.getLast? = some c → isExponentLetter c = false
  point_before_letter : ∀ front c behind, cs = front ++ c :: behind →
    isExponentLetter c = true → '.' ∉ behind

theorem ne_point_of_isDigit {c : Char} (h : c.isDigit = true) : c ≠ '.' := by
  rintro rfl
  exact absurd h (by decide)

theorem isExponentLetter_of_isDigit {c : Char} (h : c.isDigit = true) :
    isExponentLetter c = false := by
  have he : c ≠ 'e' := by
    rintro rfl
    exact absurd h (by decide)
  have hE : c ≠ 'E' := by
    rintro rfl
    exact absurd h (by decide)
  simp [isExponentLetter, he, hE]

/-- The exponent behind its letter: at least one digit and nothing else. -/
structure ExponentDigits (cs : List Char) : Prop where
  nonempty : cs ≠ []
  digits : ∀ c ∈ cs, c.isDigit = true

/-- What may follow the digits of the whole part and of the fraction. -/
def Exponent (cs : List Char) : Prop :=
  cs = [] ∨ ∃ e digits, cs = e :: digits ∧ isExponentLetter e = true ∧ ExponentDigits digits

theorem NumberShaped.exponentDigits {cs front behind : List Char} {e : Char}
    (h : NumberShaped cs) (hcs : cs = front ++ e :: behind) (he : isExponentLetter e = true) :
    ExponentDigits behind := by
  have hone := h.letter_once
  rw [hcs, List.countP_append, List.countP_cons_of_pos he] at hone
  have hnone : ∀ c ∈ behind, ¬ isExponentLetter c = true :=
    List.countP_eq_zero.mp (by omega)
  have hpoint := h.point_before_letter front e behind hcs he
  constructor
  · rintro rfl
    have hlast := h.letter_not_last e (by simp [hcs])
    rw [he] at hlast
    cases hlast
  · intro c hc
    rcases h.alphabet c (by simp [hcs, hc]) with hd | rfl | hl
    · exact hd
    · exact absurd hc hpoint
    · exact absurd hl (hnone c hc)

/-- Behind digits, a shaped text goes on with a point or with an exponent. -/
theorem NumberShaped.exponent {cs front rest : List Char} (h : NumberShaped cs)
    (hcs : cs = front ++ rest) (hpoint : '.' ∉ rest) (hdigit : rest.head?.all (!·.isDigit)) :
    Exponent rest := by
  cases rest with
  | nil => exact Or.inl rfl
  | cons e digits =>
      have hd : e.isDigit = false := by simpa using hdigit
      rcases h.alphabet e (by simp [hcs]) with h' | rfl | hl
      · simp [hd] at h'
      · exact absurd List.mem_cons_self hpoint
      · exact Or.inr ⟨e, digits, rfl, hl, h.exponentDigits hcs hl⟩

/-- The left-to-right test in parts: digits, perhaps a point with digits, and an exponent. -/
theorem isNumberLike_iff_exponent (cs : List Char) :
    isNumberLike cs = true ↔
      cs.takeWhile Char.isDigit ≠ [] ∧
        Exponent (Literal.fraction (cs.dropWhile Char.isDigit)).2 := by
  unfold isNumberLike
  generalize (Literal.fraction (cs.dropWhile Char.isDigit)).2 = rest
  cases rest with
  | nil => simp [Exponent]
  | cons e digits =>
      have hx : ExponentDigits digits ↔ digits ≠ [] ∧ ∀ c ∈ digits, c.isDigit = true :=
        ⟨fun h => ⟨h.nonempty, h.digits⟩, fun h => ⟨h.1, h.2⟩⟩
      simp [Exponent, hx, isExponentLetter, and_assoc]

theorem head?_dropWhile_isDigit (cs : List Char) :
    (cs.dropWhile Char.isDigit).head?.all (!·.isDigit) := by
  have h := List.head?_dropWhile_not Char.isDigit cs
  cases hd : (cs.dropWhile Char.isDigit).head? with
  | none => rfl
  | some c => simpa [hd] using h

theorem isNumberLike_of_numberShaped {cs : List Char} (h : NumberShaped cs) :
    isNumberLike cs = true := by
  rw [isNumberLike_iff_exponent]
  have hsplit := List.takeWhile_append_dropWhile (p := Char.isDigit) (l := cs)
  have hhead := head?_dropWhile_isDigit cs
  constructor
  · intro hnil
    obtain ⟨c, rest, rfl⟩ := List.exists_cons_of_ne_nil h.nonempty
    have hd : c.isDigit = false := by
      by_contra hc
      simp [List.takeWhile_cons, hc] at hnil
    rcases h.alphabet c List.mem_cons_self with hc | rfl | hl
    · simp [hd] at hc
    · exact h.point_not_first rfl
    · have := h.letter_not_first c rfl
      simp [hl] at this
  · generalize hrest : cs.dropWhile Char.isDigit = rest at hsplit hhead
    unfold Literal.fraction
    split
    · next places =>
        have hplaces := List.takeWhile_append_dropWhile (p := Char.isDigit) (l := places)
        have hcount : places.count '.' = 0 := by
          have hone := h.point_once
          rw [← hsplit, List.count_append, List.count_cons_self] at hone
          omega
        have hcs : cs = (cs.takeWhile Char.isDigit ++ '.' :: places.takeWhile Char.isDigit) ++
            places.dropWhile Char.isDigit := by
          rw [List.append_assoc, List.cons_append, hplaces, hsplit]
        refine h.exponent hcs ?_ (head?_dropWhile_isDigit places)
        intro hm
        exact List.count_eq_zero.mp hcount ((List.dropWhile_sublist _).subset hm)
    · next hne =>
        refine h.exponent hsplit.symm ?_ hhead
        intro hm
        cases rest with
        | nil => cases hm
        | cons c behind =>
            have hd : c.isDigit = false := by simpa using hhead
            rcases h.alphabet c (by rw [← hsplit]; simp) with hc | rfl | hl
            · simp [hd] at hc
            · exact hne behind rfl
            · have hb := h.point_before_letter _ c behind hsplit.symm hl
              rcases List.mem_cons.mp hm with rfl | hm
              · exact absurd hl (by decide)
              · exact hb hm

/-- The part before an exponent: digits, and perhaps a point with digits behind it. -/
structure Significand (cs : List Char) : Prop where
  starts : ∃ c rest, cs = c :: rest ∧ c.isDigit = true
  alphabet : ∀ c ∈ cs, c.isDigit = true ∨ c = '.'
  point_once : cs.count '.' ≤ 1

theorem Significand.not_letter {cs : List Char} (h : Significand cs) :
    ∀ c ∈ cs, isExponentLetter c = false := by
  intro c hc
  rcases h.alphabet c hc with hd | rfl
  · exact isExponentLetter_of_isDigit hd
  · rfl

theorem significand_of_digits {whole point : List Char} (hw : whole ≠ [])
    (hd : ∀ c ∈ whole, c.isDigit = true)
    (hp : point = [] ∨ ∃ places, point = '.' :: places ∧ ∀ c ∈ places, c.isDigit = true) :
    Significand (whole ++ point) := by
  have hcount : ∀ ds : List Char, (∀ c ∈ ds, c.isDigit = true) → ds.count '.' = 0 := by
    intro ds hds
    exact List.count_eq_zero.mpr fun hm => ne_point_of_isDigit (hds _ hm) rfl
  constructor
  · obtain ⟨c, rest, rfl⟩ := List.exists_cons_of_ne_nil hw
    exact ⟨c, rest ++ point, rfl, hd c List.mem_cons_self⟩
  · intro c hc
    rcases List.mem_append.mp hc with hc | hc
    · exact Or.inl (hd c hc)
    · rcases hp with rfl | ⟨places, rfl, hplaces⟩
      · cases hc
      · rcases List.mem_cons.mp hc with rfl | hc
        · exact Or.inr rfl
        · exact Or.inl (hplaces c hc)
  · rw [List.count_append, hcount whole hd]
    rcases hp with rfl | ⟨places, rfl, hplaces⟩
    · simp
    · simp [hcount places hplaces]

theorem Exponent.not_point {cs : List Char} (h : Exponent cs) : '.' ∉ cs := by
  rcases h with rfl | ⟨e, digits, rfl, he, hd⟩
  · simp
  · intro hm
    rcases List.mem_cons.mp hm with rfl | hm
    · exact absurd he (by decide)
    · exact ne_point_of_isDigit (hd.digits _ hm) rfl

theorem Exponent.alphabet {cs : List Char} (h : Exponent cs) :
    ∀ c ∈ cs, c.isDigit = true ∨ isExponentLetter c = true := by
  rcases h with rfl | ⟨e, digits, rfl, he, hd⟩
  · simp
  · intro c hc
    rcases List.mem_cons.mp hc with rfl | hc
    · exact Or.inr he
    · exact Or.inl (hd.digits c hc)

theorem Exponent.letter_once {cs : List Char} (h : Exponent cs) :
    cs.countP isExponentLetter ≤ 1 := by
  rcases h with rfl | ⟨e, digits, rfl, he, hd⟩
  · simp
  · have hz : digits.countP isExponentLetter = 0 :=
      List.countP_eq_zero.mpr fun c hc => by simp [isExponentLetter_of_isDigit (hd.digits c hc)]
    rw [List.countP_cons_of_pos he, hz]

theorem Exponent.letter_not_last {cs : List Char} (h : Exponent cs) :
    ∀ c, cs.getLast? = some c → isExponentLetter c = false := by
  rcases h with rfl | ⟨e, digits, rfl, he, hd⟩
  · simp
  · intro c hc
    rw [List.getLast?_cons_of_ne_nil hd.nonempty] at hc
    exact isExponentLetter_of_isDigit (hd.digits c (List.mem_of_getLast? hc))

/-- A significand and an exponent together have the shape of a number. -/
theorem Significand.numberShaped {front rest : List Char} (hf : Significand front)
    (hr : Exponent rest) : NumberShaped (front ++ rest) := by
  obtain ⟨c, more, hc, hd⟩ := hf.starts
  constructor
  · simp [hc]
  · intro c hm
    rcases List.mem_append.mp hm with hm | hm
    · exact (hf.alphabet c hm).imp_right Or.inl
    · exact (hr.alphabet c hm).imp_right Or.inr
  · rw [List.count_append, List.count_eq_zero.mpr hr.not_point]
    exact hf.point_once
  · have hz : front.countP isExponentLetter = 0 :=
      List.countP_eq_zero.mpr fun c hm => by simp [hf.not_letter c hm]
    rw [List.countP_append, hz, Nat.zero_add]
    exact hr.letter_once
  · simpa [hc] using ne_point_of_isDigit hd
  · intro e he
    have : e = c := by simpa [hc] using he.symm
    exact this ▸ isExponentLetter_of_isDigit hd
  · intro e he
    cases hl : rest.getLast? with
    | none =>
        rw [List.getLast?_eq_none_iff.mp hl, List.append_nil] at he
        exact hf.not_letter e (List.mem_of_getLast? he)
    | some e' =>
        rw [List.getLast?_append, hl, Option.some_or] at he
        exact Option.some.inj he ▸ hr.letter_not_last e' hl
  · intro before e behind hcs he hm
    rcases List.append_eq_append_iff.mp hcs with ⟨mid, -, hrest⟩ | ⟨mid, hfront, hbehind⟩
    · exact hr.not_point (hrest ▸ by simp [hm])
    · cases mid with
      | nil => exact hr.not_point (by rw [← List.nil_append rest, ← hbehind]; simp [hm])
      | cons e' mid =>
          obtain ⟨rfl, -⟩ := List.cons.inj hbehind
          have := hf.not_letter e (by simp [hfront])
          simp [he] at this

theorem numberShaped_of_isNumberLike {cs : List Char} (h : isNumberLike cs = true) :
    NumberShaped cs := by
  obtain ⟨hw, hx⟩ := (isNumberLike_iff_exponent cs).mp h
  have hd : ∀ c ∈ cs.takeWhile Char.isDigit, c.isDigit = true :=
    fun c hc => List.mem_takeWhile_imp hc
  have hsplit := List.takeWhile_append_dropWhile (p := Char.isDigit) (l := cs)
  generalize cs.dropWhile Char.isDigit = rest at hsplit hx
  unfold Literal.fraction at hx
  split at hx
  · next places =>
      have hplaces := List.takeWhile_append_dropWhile (p := Char.isDigit) (l := places)
      have hs := significand_of_digits hw hd (Or.inr ⟨places.takeWhile Char.isDigit, rfl,
        fun c hc => List.mem_takeWhile_imp hc⟩)
      have := hs.numberShaped hx
      rwa [List.append_assoc, List.cons_append, hplaces, hsplit] at this
  · have hs := significand_of_digits hw hd (Or.inl rfl)
    have := hs.numberShaped hx
    rwa [List.append_nil, hsplit] at this

/-- The left-to-right test accepts exactly the texts shaped like numbers. -/
theorem isNumberLike_iff {cs : List Char} : isNumberLike cs = true ↔ NumberShaped cs :=
  ⟨numberShaped_of_isNumberLike, isNumberLike_of_numberShaped⟩

end PointDriver.CommandLine

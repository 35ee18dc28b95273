import Mathlib.Data.Nat.Dist
import Mathlib.Tactic.Ring
import Mathlib.Tactic.Linarith
import PointDriver.Double.Fixed

/-!
# Rounding to a double and to millionths

A quotient is rounded at the spacing of the magnitudes around it, so the double
read for it is off by at most half a spacing, and no other one is nearer. Below
2^33 the spacing is less than a millionth: a number of millionths is read and
printed as itself. From 2^33 on it is more than a millionth: a magnitude is
printed and read as itself.
-/

namespace PointDriver.Double

section NearestEven
variable {num den k : Nat}

/-- A greater multiple is greater by a whole `den`. -/
theorem mul_add_le (den : Nat) {a b : Nat} (h : a < b) : a * den + den ≤ b * den := by
  rw [← Nat.succ_mul]
  exact Nat.mul_le_mul_right den h

/-- The nearest whole number is off by at most a half. -/
theorem nearestEven_near (num : Nat) (positive : 0 < den) :
    2 * (nearestEven num den * den) ≤ 2 * num + den ∧
      2 * num ≤ 2 * (nearestEven num den * den) + den := by
  have hsplit := Nat.div_add_mod' num den
  have hrest := Nat.mod_lt num positive
  have hnext : (num / den + 1) * den = num / den * den + den := Nat.succ_mul _ _
  unfold nearestEven
  simp only
  split
  · omega
  split
  · omega
  next hlow hhigh =>
  rcases Nat.mod_two_eq_zero_or_one (num / den) with he | ho
  · rw [he, Nat.add_zero]
    omega
  · rw [ho]
    omega

/-- A whole number that is off by less than a half is the nearest one. -/
theorem nearestEven_eq_of_lt (positive : 0 < den) (above : 2 * (k * den) < 2 * num + den)
    (below : 2 * num < 2 * (k * den) + den) : nearestEven num den = k := by
  obtain ⟨hlow, hhigh⟩ := nearestEven_near num positive
  rcases Nat.lt_trichotomy (nearestEven num den) k with hlt | heq | hgt
  · have hstep := mul_add_le den hlt
    omega
  · exact heq
  · have hstep := mul_add_le den hgt
    omega

/-- Rounding does not fall below a whole number. -/
theorem le_nearestEven (positive : 0 < den) (h : k * den ≤ num) : k ≤ nearestEven num den := by
  obtain ⟨-, hhigh⟩ := nearestEven_near num positive
  by_contra hlt
  have hstep := mul_add_le den (Nat.not_le.mp hlt)
  omega

/-- Rounding does not rise above a whole number. -/
theorem nearestEven_le (positive : 0 < den) (h : num ≤ k * den) : nearestEven num den ≤ k := by
  obtain ⟨hlow, -⟩ := nearestEven_near num positive
  by_contra hlt
  have hstep := mul_add_le den (Nat.not_le.mp hlt)
  omega

/-- A whole number that is off by a half is even. -/
theorem nearestEven_even (num : Nat) (positive : 0 < den)
    (half : 2 * num = 2 * (nearestEven num den * den) + den ∨
      2 * num + den = 2 * (nearestEven num den * den)) : nearestEven num den % 2 = 0 := by
  have hsplit := Nat.div_add_mod' num den
  have hrest := Nat.mod_lt num positive
  have hnext : (num / den + 1) * den = num / den * den + den := Nat.succ_mul _ _
  unfold nearestEven at half ⊢
  simp only at half ⊢
  split
  · next hlow =>
      rw [if_pos hlow] at half
      omega
  split
  · next hlow hhigh =>
      rw [if_neg hlow, if_pos hhigh] at half
      omega
  · omega

/-- No whole number is nearer, and if another one is as near, the even one is taken. -/
theorem nearestEven_nearest (num : Nat) (positive : 0 < den) (k : Nat) :
    Nat.dist num (nearestEven num den * den) ≤ Nat.dist num (k * den) ∧
      (Nat.dist num (k * den) = Nat.dist num (nearestEven num den * den) →
        k = nearestEven num den ∨ nearestEven num den % 2 = 0) := by
  obtain ⟨hlow, hhigh⟩ := nearestEven_near num positive
  have heven := nearestEven_even num positive
  unfold Nat.dist
  rcases Nat.lt_trichotomy k (nearestEven num den) with hlt | heq | hgt
  · have hstep := mul_add_le den hlt
    exact ⟨by omega, fun h => Or.inr (heven (by omega))⟩
  · rw [heq]
    exact ⟨Nat.le_refl _, fun _ => Or.inl rfl⟩
  · have hstep := mul_add_le den hgt
    exact ⟨by omega, fun h => Or.inr (heven (by omega))⟩

end NearestEven

section Ranks
variable {k significand rank : Nat}

theorem binade_pos : 0 < binade := Nat.two_pow_pos 52

/-- One in powers of two. The exponent is a variable so that the power is never computed. -/
theorem one_eq {e : Nat} (he : 1074 = e) : one = 2 ^ e := by
  unfold one
  rw [he, Nat.pow_eq]

theorem one_pos : 0 < one := by
  obtain ⟨e, he⟩ : ∃ e, 1074 = e := ⟨_, rfl⟩
  rw [one_eq he]
  exact Nat.two_pow_pos e

/-- The doublings at a rank are those in front of its significand. -/
theorem doublings_add (normal : k = 0 ∨ binade ≤ significand) (short : significand < 2 * binade) :
    doublings (k * binade + significand) = k := by
  rw [doublings, Nat.add_comm, Nat.add_mul_div_right _ _ binade_pos]
  rcases normal with rfl | hle
  · have : significand / binade < 2 := Nat.div_lt_of_lt_mul (by omega)
    omega
  · have : significand / binade = 1 := Nat.div_eq_of_lt_le (by omega) (by omega)
    omega

/-- The magnitude with this significand at this doubling. A significand of two binades is the
first one of the next doubling. -/
theorem multiples_add (normal : k = 0 ∨ binade ≤ significand) (short : significand ≤ 2 * binade) :
    multiples (k * binade + significand) = significand * 2 ^ k := by
  rcases Nat.lt_or_eq_of_le short with hlt | rfl
  · rw [multiples, doublings_add normal hlt, Nat.add_sub_cancel_left, Nat.pow_eq]
  · have hnext : k * binade + 2 * binade = (k + 1) * binade + binade := by ring
    have hb := binade_pos
    rw [hnext, multiples, doublings_add (Or.inr (Nat.le_refl _)) (by omega),
      Nat.add_sub_cancel_left, Nat.pow_eq]
    ring

/-- A rank is a doubling and a significand of less than two binades, and after the first
doubling of at least one. -/
theorem exists_significand (rank : Nat) :
    ∃ k significand, rank = k * binade + significand ∧ (k = 0 ∨ binade ≤ significand) ∧
      significand < 2 * binade := by
  have hsplit := Nat.div_add_mod' rank binade
  have hrest := Nat.mod_lt rank binade_pos
  cases hq : rank / binade with
  | zero =>
      rw [hq] at hsplit
      exact ⟨0, rank, by omega, Or.inl rfl, by omega⟩
  | succ k =>
      rw [hq, Nat.succ_mul] at hsplit
      exact ⟨k, binade + rank % binade, by omega, Or.inr (by omega), by omega⟩

/-- Two binades of a spacing are at most one binade of a greater spacing. -/
theorem two_binades_le {finer coarser : Nat} (h : finer < coarser) :
    2 * binade * 2 ^ finer ≤ binade * 2 ^ coarser := by
  calc 2 * binade * 2 ^ finer = binade * 2 ^ (finer + 1) := by
        rw [Nat.pow_succ]
        ring
    _ ≤ binade * 2 ^ coarser := Nat.mul_le_mul_left _ (Nat.pow_le_pow_right Nat.two_pos h)

end Ranks

section Scale
variable {num den k : Nat}

/-- How often the spacing has doubled around a quotient. -/
def scaleOf (num den : Nat) : Nat := Nat.log2 (num * one / den) - 52

/-- The quotient in multiples of the spacing around it, rounded. -/
def significandOf (num den : Nat) : Nat :=
  nearestEven (num * one) (den * 2 ^ scaleOf num den)

theorem rankOf_eq (num den : Nat) :
    rankOf num den = min (scaleOf num den * binade + significandOf num den) infiniteRank :=
  rfl

theorem spacing_pos (num : Nat) (positive : 0 < den) : 0 < den * 2 ^ scaleOf num den :=
  Nat.mul_pos positive (Nat.two_pow_pos _)

/-- A quotient is less than two binades of the spacing around it. -/
theorem lt_two_binades (positive : 0 < den) :
    num * one < 2 * binade * (den * 2 ^ scaleOf num den) := by
  have hlog : num * one / den < 2 ^ (Nat.log2 (num * one / den) + 1) := Nat.lt_log2_self
  have hle : Nat.log2 (num * one / den) + 1 ≤ 53 + scaleOf num den := by
    unfold scaleOf
    omega
  have hpow := Nat.lt_of_lt_of_le hlog (Nat.pow_le_pow_right Nat.two_pos hle)
  calc num * one < 2 ^ (53 + scaleOf num den) * den := (Nat.div_lt_iff_lt_mul positive).mp hpow
    _ = 2 * binade * (den * 2 ^ scaleOf num den) := by
      rw [Nat.pow_add, binade, Nat.pow_eq]
      ring

/-- A quotient around which the spacing has doubled is at least one binade of it. -/
theorem binade_le (scaled : scaleOf num den ≠ 0) :
    binade * (den * 2 ^ scaleOf num den) ≤ num * one := by
  have hlog : Nat.log2 (num * one / den) = 52 + scaleOf num den := by
    unfold scaleOf at scaled ⊢
    omega
  have hne : num * one / den ≠ 0 := by
    intro h
    rw [h, Nat.log2_zero] at hlog
    omega
  have hself := Nat.log2_self_le hne
  rw [hlog] at hself
  calc binade * (den * 2 ^ scaleOf num den) = 2 ^ (52 + scaleOf num den) * den := by
        rw [Nat.pow_add, binade, Nat.pow_eq]
        ring
    _ ≤ num * one / den * den := Nat.mul_le_mul_right den hself
    _ ≤ num * one := Nat.div_mul_le_self _ _

/-- Between one and two binades of a spacing, that spacing is the one around the quotient. -/
theorem scaleOf_eq (positive : 0 < den) (above : binade * (den * 2 ^ k) ≤ num * one)
    (below : num * one < 2 * binade * (den * 2 ^ k)) : scaleOf num den = k := by
  have hlow : 2 ^ (52 + k) ≤ num * one / den := by
    rw [Nat.le_div_iff_mul_le positive, Nat.pow_add]
    calc 2 ^ 52 * 2 ^ k * den = binade * (den * 2 ^ k) := by
          rw [binade, Nat.pow_eq]
          ring
      _ ≤ num * one := above
  have hhigh : num * one / den < 2 ^ (52 + k + 1) := by
    rw [Nat.div_lt_iff_lt_mul positive]
    calc num * one < 2 * binade * (den * 2 ^ k) := below
      _ = 2 ^ (52 + k + 1) * den := by
        rw [binade, Nat.pow_eq, Nat.pow_succ, Nat.pow_add]
        ring
  have hne : num * one / den ≠ 0 := by
    have := Nat.two_pow_pos (52 + k)
    omega
  rw [scaleOf, (Nat.log2_eq_iff hne).mpr ⟨hlow, hhigh⟩]
  omega

/-- The significand around a quotient is one of its spacing. -/
theorem significandOf_range (num : Nat) (positive : 0 < den) :
    (scaleOf num den = 0 ∨ binade ≤ significandOf num den) ∧
      significandOf num den ≤ 2 * binade := by
  have hspacing := spacing_pos num positive
  refine ⟨?_, nearestEven_le hspacing (lt_two_binades positive).le⟩
  by_cases hscale : scaleOf num den = 0
  · exact Or.inl hscale
  · exact Or.inr (le_nearestEven hspacing (binade_le hscale))

/-- The significand is off by at most half the spacing. -/
theorem significandOf_near (num : Nat) (positive : 0 < den) :
    2 * (significandOf num den * (den * 2 ^ scaleOf num den)) ≤
        2 * (num * one) + den * 2 ^ scaleOf num den ∧
      2 * (num * one) ≤ 2 * (significandOf num den * (den * 2 ^ scaleOf num den)) +
        den * 2 ^ scaleOf num den :=
  nearestEven_near _ (spacing_pos num positive)

theorem rankOf_zero (positive : 0 < den) : rankOf 0 den = 0 := by
  have hscale : scaleOf 0 den = 0 := by simp [scaleOf]
  have hsignificand : significandOf 0 den = 0 := by
    rw [significandOf, hscale, Nat.zero_mul, Nat.pow_zero, Nat.mul_one]
    simpa only [Nat.zero_mul] using nearestEven_mul 0 den positive
  rw [rankOf_eq, hscale, hsignificand, Nat.zero_mul, Nat.zero_add, Nat.zero_min]

/-- No magnitude is nearer to a quotient than the one that is read for it, and if another one is as
near, the even rank is taken. -/
theorem rankOf_nearest (positive : 0 < den) (finite : rankOf num den < infiniteRank) (rank : Nat) :
    Nat.dist (num * one) (multiples (rankOf num den) * den) ≤
        Nat.dist (num * one) (multiples rank * den) ∧
      (Nat.dist (num * one) (multiples rank * den) =
          Nat.dist (num * one) (multiples (rankOf num den) * den) →
        multiples rank = multiples (rankOf num den) ∨ rankOf num den % 2 = 0) := by
  obtain ⟨hnormal, hshort⟩ := significandOf_range num positive
  have hspacing := spacing_pos num positive
  have hrank : rankOf num den = scaleOf num den * binade + significandOf num den := by
    rw [rankOf_eq] at finite ⊢
    omega
  have hread : multiples (rankOf num den) * den =
      significandOf num den * (den * 2 ^ scaleOf num den) := by
    rw [hrank, multiples_add hnormal hshort]
    ring
  obtain ⟨k, s, rfl, hk, hs⟩ := exists_significand rank
  rw [hread, multiples_add hk hs.le]
  rcases Nat.lt_or_ge k (scaleOf num den) with hfiner | hcoarser
  · -- A finer magnitude is below one binade of the spacing, which is already at most the quotient.
    have hlower : s * 2 ^ k < 2 * binade * 2 ^ k :=
      Nat.mul_lt_mul_of_pos_right hs (Nat.two_pow_pos k)
    have hbelow : s * 2 ^ k * den < binade * (den * 2 ^ scaleOf num den) := by
      calc s * 2 ^ k * den < binade * 2 ^ scaleOf num den * den :=
            Nat.mul_lt_mul_of_pos_right (hlower.trans_le (two_binades_le hfiner)) positive
        _ = binade * (den * 2 ^ scaleOf num den) := by ring
    have hquotient : binade * (den * 2 ^ scaleOf num den) ≤ num * one := binade_le (by omega)
    have hlt : Nat.dist (num * one) (significandOf num den * (den * 2 ^ scaleOf num den)) <
        Nat.dist (num * one) (s * 2 ^ k * den) := by
      refine Nat.lt_of_le_of_lt (nearestEven_nearest _ hspacing binade).1 ?_
      unfold Nat.dist
      omega
    exact ⟨hlt.le, fun h => absurd h hlt.ne'⟩
  · have hpow : 2 ^ k = 2 ^ (k - scaleOf num den) * 2 ^ scaleOf num den := by
      rw [← Nat.pow_add, Nat.sub_add_cancel hcoarser]
    have hmultiple : s * 2 ^ k * den =
        s * 2 ^ (k - scaleOf num den) * (den * 2 ^ scaleOf num den) := by
      rw [hpow]
      ring
    rw [hmultiple]
    obtain ⟨hnearest, htie⟩ :=
      nearestEven_nearest (num * one) hspacing (s * 2 ^ (k - scaleOf num den))
    refine ⟨hnearest, fun h => (htie h).imp (fun heq => ?_) fun heven => ?_⟩
    · rw [hrank, multiples_add hnormal hshort, hpow, ← Nat.mul_assoc, heq]
      rfl
    · have hbinade : scaleOf num den * binade = 2 * (scaleOf num den * 2 ^ 51) :=
        Nat.mul_left_comm _ 2 (2 ^ 51)
      change significandOf num den % 2 = 0 at heven
      omega

end Scale

section Millionths
variable {num den m k rank : Nat}

/-- Up to 1054 doublings the spacing is less than a millionth. -/
theorem spacing_lt (hk : k ≤ 1054) : 2 ^ k * 1000000 < one := by
  obtain ⟨e, he⟩ : ∃ e, 1074 = e := ⟨_, rfl⟩
  have hgap : 2 ^ 20 ≤ 2 ^ (e - k) := Nat.pow_le_pow_right Nat.two_pos (by omega)
  calc 2 ^ k * 1000000 < 2 ^ k * 2 ^ 20 :=
        Nat.mul_lt_mul_of_pos_left (by decide) (Nat.two_pow_pos k)
    _ ≤ 2 ^ k * 2 ^ (e - k) := Nat.mul_le_mul_left _ hgap
    _ = one := by rw [one_eq he, ← Nat.pow_add, Nat.add_sub_cancel' (by omega)]

/-- From 1055 doublings on the spacing is more than a millionth. -/
theorem lt_spacing (hk : 1055 ≤ k) : one < 2 ^ k * 1000000 := by
  obtain ⟨e, he⟩ : ∃ e, 1074 = e := ⟨_, rfl⟩
  calc one = 2 ^ e := one_eq he
    _ ≤ 2 ^ (k + 19) := Nat.pow_le_pow_right Nat.two_pos (by omega)
    _ = 2 ^ k * 2 ^ 19 := Nat.pow_add 2 k 19
    _ < 2 ^ k * 1000000 := Nat.mul_lt_mul_of_pos_left (by decide) (Nat.two_pow_pos k)

/-- After 1022 doublings a binade is one, and from then on a power of two. -/
theorem binade_mul (hk : 1022 ≤ k) : binade * 2 ^ k = 2 ^ (k - 1022) * one := by
  obtain ⟨e, he⟩ : ∃ e, 1074 = e := ⟨_, rfl⟩
  calc binade * 2 ^ k = 2 ^ (52 + k) := (Nat.pow_add 2 52 k).symm
    _ = 2 ^ (k - 1022 + e) := by rw [show 52 + k = k - 1022 + e by omega]
    _ = 2 ^ (k - 1022) * one := by rw [one_eq he, Nat.pow_add]

/-- Where the spacing becomes more than a millionth: 2^33 is one binade of the spacing after 1055
doublings. -/
theorem threshold_eq (hk : k = 1055) : 8589934592 * one = binade * 2 ^ k := by
  have hpower : 2 ^ 33 = 8589934592 := rfl
  rw [binade_mul (by omega), show k - 1022 = 33 by omega, hpower]

/-- From 1055 doublings on a whole binade is at least 2^33. -/
theorem threshold_le (hk : 1055 ≤ k) : 8589934592 * one ≤ binade * 2 ^ k := by
  obtain ⟨e, he⟩ : ∃ e, e = 1055 := ⟨_, rfl⟩
  rw [threshold_eq he]
  exact Nat.mul_le_mul_left _ (Nat.pow_le_pow_right Nat.two_pos (by omega))

/-- Up to 1054 doublings two binades are at most 2^33. -/
theorem le_threshold (hk : k ≤ 1054) : 2 * binade * 2 ^ k ≤ 8589934592 * one := by
  obtain ⟨e, he⟩ : ∃ e, e = 1055 := ⟨_, rfl⟩
  rw [threshold_eq he]
  exact two_binades_le (by omega)

/-- Below 2^33 the spacing has doubled at most 1054 times. -/
theorem scaleOf_le (small : num < 8589934592 * den) : scaleOf num den ≤ 1054 := by
  by_contra hlarge
  have hcontra : 8589934592 * den * one < 8589934592 * den * one := by
    calc 8589934592 * den * one = den * (8589934592 * one) := by ring
      _ ≤ den * (binade * 2 ^ scaleOf num den) := Nat.mul_le_mul_left _ (threshold_le (by omega))
      _ = binade * (den * 2 ^ scaleOf num den) := by ring
      _ ≤ num * one := binade_le (by omega)
      _ < 8589934592 * den * one := Nat.mul_lt_mul_of_pos_right small one_pos
  exact Nat.lt_irrefl _ hcontra

/-- The rank of a quotient below 2^33 is finite and is not cut off. -/
theorem rankOf_of_small (small : num < 8589934592 * den) :
    rankOf num den = scaleOf num den * binade + significandOf num den ∧
      rankOf num den < infiniteRank := by
  have hscale := scaleOf_le small
  obtain ⟨-, hshort⟩ := significandOf_range num (by omega : 0 < den)
  have hprod := Nat.mul_le_mul_right binade hscale
  have hb := binade_pos
  have hrank : scaleOf num den * binade + significandOf num den < infiniteRank := by
    rw [infiniteRank]
    omega
  rw [rankOf_eq, Nat.min_eq_left hrank.le]
  exact ⟨rfl, hrank⟩

/-- A number of millionths below 2^33 is read and printed as itself. -/
theorem millionths_rankOf (exact : num * 1000000 = m * den) (small : num < 8589934592 * den) :
    millionths (rankOf num den) = m := by
  have positive : 0 < den := by omega
  obtain ⟨hnormal, hshort⟩ := significandOf_range num positive
  obtain ⟨hlow, hhigh⟩ := significandOf_near num positive
  have hfine := spacing_lt (scaleOf_le small)
  rw [millionths, (rankOf_of_small small).1, multiples_add hnormal hshort]
  generalize significandOf num den = s at *
  generalize 2 ^ scaleOf num den = spacing at *
  -- Both bounds are those of the reading, multiplied by a million and divided by `den`.
  have habove : 2 * (s * spacing * 1000000) ≤ 2 * (m * one) + spacing * 1000000 := by
    refine Nat.le_of_mul_le_mul_left ?_ positive
    calc den * (2 * (s * spacing * 1000000)) = 2 * (s * (den * spacing)) * 1000000 := by ring
      _ ≤ (2 * (num * one) + den * spacing) * 1000000 := Nat.mul_le_mul_right _ hlow
      _ = 2 * (num * 1000000) * one + den * spacing * 1000000 := by ring
      _ = den * (2 * (m * one) + spacing * 1000000) := by
        rw [exact]
        ring
  have hbelow : 2 * (m * one) ≤ 2 * (s * spacing * 1000000) + spacing * 1000000 := by
    refine Nat.le_of_mul_le_mul_left ?_ positive
    calc den * (2 * (m * one)) = 2 * (num * 1000000) * one := by
          rw [exact]
          ring
      _ = 2 * (num * one) * 1000000 := by ring
      _ ≤ (2 * (s * (den * spacing)) + den * spacing) * 1000000 := Nat.mul_le_mul_right _ hhigh
      _ = den * (2 * (s * spacing * 1000000) + spacing * 1000000) := by ring
  exact nearestEven_eq_of_lt one_pos (by omega) (by omega)

/-- What is printed is off by at most half a millionth. -/
theorem millionths_near (rank : Nat) :
    2 * (millionths rank * one) ≤ 2 * (multiples rank * 1000000) + one ∧
      2 * (multiples rank * 1000000) ≤ 2 * (millionths rank * one) + one :=
  nearestEven_near _ one_pos

/-- Printing does not fall below a power of two: a binade that a magnitude reaches is reached by
what is printed of it. -/
theorem binade_le_millionths (hk : 1022 ≤ k) (h : binade * 2 ^ k ≤ multiples rank) :
    binade * (1000000 * 2 ^ k) ≤ millionths rank * one := by
  have hpower : 2 ^ (k - 1022) * 1000000 * one ≤ multiples rank * 1000000 := by
    calc 2 ^ (k - 1022) * 1000000 * one = binade * 2 ^ k * 1000000 := by
          rw [binade_mul hk]
          ring
      _ ≤ multiples rank * 1000000 := Nat.mul_le_mul_right _ h
  calc binade * (1000000 * 2 ^ k) = 2 ^ (k - 1022) * 1000000 * one := by
        rw [Nat.mul_left_comm, binade_mul hk]
        ring
    _ ≤ millionths rank * one := Nat.mul_le_mul_right _ (le_nearestEven one_pos hpower)

/-- A finite magnitude from 2^33 on is printed and read as itself. -/
theorem rankOf_millionths (finite : rank < infiniteRank)
    (large : 8589934592 * one ≤ multiples rank) :
    rankOf (millionths rank) 1000000 = rank := by
  obtain ⟨k, s, hrank, hnormal, hshort⟩ := exists_significand rank
  have hmultiples : multiples rank = s * 2 ^ k := by
    rw [hrank, multiples_add hnormal hshort.le]
  have hk : 1055 ≤ k := by
    by_contra hk
    have hhigh : s * 2 ^ k < 2 * binade * 2 ^ k :=
      Nat.mul_lt_mul_of_pos_right hshort (Nat.two_pow_pos k)
    have hbound := le_threshold (by omega : k ≤ 1054)
    omega
  have hcoarse := lt_spacing hk
  have hsig : binade ≤ s := by omega
  have hbinade : binade * (1000000 * 2 ^ k) ≤ millionths rank * one := by
    refine binade_le_millionths (by omega) ?_
    rw [hmultiples]
    exact Nat.mul_le_mul_right _ hsig
  obtain ⟨hlow, hhigh⟩ := millionths_near rank
  rw [hmultiples, Nat.mul_assoc, Nat.mul_comm (2 ^ k)] at hlow hhigh
  rw [Nat.mul_comm (2 ^ k)] at hcoarse
  have hscale : scaleOf (millionths rank) 1000000 = k := by
    refine scaleOf_eq (by omega) hbinade ?_
    have hstep := mul_add_le (1000000 * 2 ^ k) hshort
    omega
  have hread : significandOf (millionths rank) 1000000 = s := by
    rw [significandOf, hscale]
    exact nearestEven_eq_of_lt (by omega) (by omega) (by omega)
  rw [rankOf_eq, hscale, hread, ← hrank, Nat.min_eq_left finite.le]

/-- What a finite magnitude prints is read as a finite magnitude that prints the same. -/
theorem millionths_rankOf_millionths (finite : rank < infiniteRank) :
    millionths (rankOf (millionths rank) 1000000) = millionths rank ∧
      rankOf (millionths rank) 1000000 < infiniteRank := by
  rcases Nat.lt_or_ge (multiples rank) (8589934592 * one) with hsmall | hlarge
  · have hle : millionths rank ≤ 8589934592 * 1000000 := by
      refine nearestEven_le one_pos ?_
      calc multiples rank * 1000000 ≤ 8589934592 * one * 1000000 :=
            Nat.mul_le_mul_right _ hsmall.le
        _ = 8589934592 * 1000000 * one := by ring
    rcases Nat.lt_or_eq_of_le hle with hlt | heq
    · exact ⟨millionths_rankOf rfl hlt, (rankOf_of_small hlt).2⟩
    · -- The magnitude rounds up to 2^33, which is itself a magnitude.
      obtain ⟨k, hk⟩ : ∃ k, k = 1055 := ⟨_, rfl⟩
      have hmultiples : multiples (k * binade + binade) = 8589934592 * one := by
        have hb := binade_pos
        rw [multiples_add (Or.inr (Nat.le_refl _)) (by omega), threshold_eq hk]
      have hprinted : millionths (k * binade + binade) = millionths rank := by
        rw [heq, millionths, hmultiples, Nat.mul_right_comm, nearestEven_mul _ _ one_pos]
      have hfinite : k * binade + binade < infiniteRank := by
        have hb := binade_pos
        rw [infiniteRank, hk]
        omega
      rw [← hprinted, rankOf_millionths hfinite hmultiples.ge]
      exact ⟨rfl, hfinite⟩
  · rw [rankOf_millionths finite hlarge]
    exact ⟨rfl, finite⟩

end Millionths

end PointDriver.Double

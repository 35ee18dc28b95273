import PointDriver.Proofs.Files.Routes

/-!
# Paths within the limits

A directory above a path has a path that is no longer, so it keeps to the limits
when the path does. Paths below one root have the root in common: once one of
them keeps to the limits, only its own length can be too much for another.
-/

namespace PointDriver.Path
open FileTree

section Refusal
variable {p : Path}

theorem refusal?_eq_none_iff :
    refusal? p = none ↔ p ≠ [] ∧ 0 ∉ p ∧ p.length ≤ lengthLimit := by
  unfold refusal?
  by_cases hempty : p = []
  · simp [hempty]
  · by_cases hzero : 0 ∈ p
    · simp [hempty, hzero]
    · by_cases hlong : lengthLimit < p.length
      · simp [hempty, hzero, hlong]
      · simp [hempty, hzero, hlong, Nat.not_lt.mp hlong]

theorem refusal?_of_long (hzero : 0 ∉ p) (hlong : lengthLimit < p.length) :
    refusal? p = some .nameTooLong := by
  have hfilled : p ≠ [] := List.ne_nil_of_length_pos (Nat.zero_lt_of_lt hlong)
  simp [refusal?, hfilled, hzero, hlong]

theorem Fits.length_le (h : p.Fits) : p.length ≤ lengthLimit :=
  (refusal?_eq_none_iff.mp h.accepted).2.2

theorem Fits.zero_notMem (h : p.Fits) : 0 ∉ p := (refusal?_eq_none_iff.mp h.accepted).2.1

end Refusal

/-! ## The directories above a path -/

/-- How many bytes components take, each with a slash. -/
def extent : List Bytes → Nat
  | [] => 0
  | c :: rest => c.length + 1 + extent rest

@[simp] theorem extent_nil : extent [] = 0 := rfl

@[simp] theorem extent_cons (c : Bytes) (rest : List Bytes) :
    extent (c :: rest) = c.length + 1 + extent rest := rfl

theorem extent_le_of_sublist {few many : List Bytes} (h : few.Sublist many) :
    extent few ≤ extent many := by
  induction h with
  | slnil => exact Nat.le_refl _
  | cons c _ ih =>
      rw [extent_cons]
      omega
  | cons_cons c _ ih =>
      rw [extent_cons, extent_cons]
      omega

theorem extent_closed_le (s : Bytes × List Bytes) :
    extent (closed s) ≤ s.1.length + 1 + extent s.2 := by
  unfold closed
  split
  · omega
  · exact Nat.le_refl _

/-- The pieces of a path take no more than its bytes and a slash behind it. -/
theorem extent_pieces_le (p : Path) : extent p.pieces ≤ p.length + 1 := by
  have hread : (p.foldr cut ([], [])).1.length + extent (p.foldr cut ([], [])).2 ≤ p.length := by
    induction p with
    | nil => exact Nat.le_refl _
    | cons b p ih =>
        rw [List.foldr_cons, List.length_cons]
        generalize p.foldr cut ([], []) = s at ih
        have hclosed := extent_closed_le s
        unfold cut
        split
        · simp only [List.length_nil]
          omega
        · simp only [List.length_cons]
          omega
  have hclosed := extent_closed_le (p.foldr cut ([], []))
  rw [pieces_eq_closed]
  omega

/-- The slash in front of an absolute path is not one of them. -/
theorem extent_pieces_le_of_isAbsolute {p : Path} (h : p.isAbsolute = true) :
    extent p.pieces ≤ p.length := by
  obtain ⟨rest, rfl⟩ : ∃ rest, p = slash :: rest := by
    cases p with
    | nil => cases h
    | cons b rest => exact ⟨rest, by simpa [isAbsolute] using h⟩
  have hpieces : pieces (slash :: rest) = pieces rest := pieces_append_slash [] rest
  rw [hpieces]
  exact extent_pieces_le rest

/-- Pieces hold no other bytes than their path. -/
theorem mem_of_mem_pieces {p : Path} {piece : Bytes} {b : UInt8} (hb : b ∈ piece)
    (h : piece ∈ p.pieces) : b ∈ p := by
  have hread : (∀ b ∈ (p.foldr cut ([], [])).1, b ∈ p) ∧
      ∀ piece ∈ (p.foldr cut ([], [])).2, ∀ b ∈ piece, b ∈ p := by
    clear h
    induction p with
    | nil => simp
    | cons first p ih =>
        rw [List.foldr_cons]
        generalize p.foldr cut ([], []) = s at ih
        obtain ⟨hcurrent, hdone⟩ := ih
        unfold cut closed
        split
        · refine ⟨List.forall_mem_nil _, ?_⟩
          split
          · exact fun piece hp b hb => List.mem_cons_of_mem _ (hdone piece hp b hb)
          · exact List.forall_mem_cons.mpr ⟨fun b hb => List.mem_cons_of_mem _ (hcurrent b hb),
              fun piece hp b hb => List.mem_cons_of_mem _ (hdone piece hp b hb)⟩
        · exact ⟨List.forall_mem_cons.mpr ⟨List.mem_cons_self,
            fun b hb => List.mem_cons_of_mem _ (hcurrent b hb)⟩,
            fun piece hp b hb => List.mem_cons_of_mem _ (hdone piece hp b hb)⟩
  rw [pieces_eq_closed] at h
  unfold closed at h
  split at h
  · exact hread.2 piece h b hb
  · rcases List.mem_cons.mp h with rfl | h
    · exact hread.1 b hb
    · exact hread.2 piece h b hb

theorem length_intercalate {components : List Bytes} (h : components ≠ []) :
    ([slash].intercalate components).length + 1 = extent components := by
  induction components with
  | nil => exact absurd rfl h
  | cons c rest ih =>
      cases rest with
      | nil => simp [List.intercalate]
      | cons next more =>
          have hrest := ih (List.cons_ne_nil next more)
          rw [List.intercalate_cons_cons, extent_cons, ← hrest, List.length_append,
            List.length_append, List.length_singleton]
          omega

theorem mem_intercalate {components : List Bytes} {b : UInt8}
    (h : b ∈ [slash].intercalate components) : b = slash ∨ ∃ c ∈ components, b ∈ c := by
  induction components with
  | nil => cases h
  | cons c rest ih =>
      cases rest with
      | nil => exact Or.inr ⟨c, List.mem_cons_self, by simpa [List.intercalate] using h⟩
      | cons next more =>
          rw [List.intercalate_cons_cons, List.mem_append, List.mem_append,
            List.mem_singleton] at h
          rcases h with (h | h) | h
          · exact Or.inr ⟨c, List.mem_cons_self, h⟩
          · exact Or.inl h
          · rcases ih h with h | ⟨d, hd, h⟩
            · exact Or.inl h
            · exact Or.inr ⟨d, List.mem_cons_of_mem _ hd, h⟩

/-- The path to a directory above is not refused either. -/
theorem refusal?_ofComponents {p : Path} (h : refusal? p = none) {names : List Bytes}
    (hnames : names.Sublist p.pieces) (hne : names ≠ []) :
    refusal? (ofComponents p.isAbsolute names) = none := by
  obtain ⟨-, hzero, hlimit⟩ := refusal?_eq_none_iff.mp h
  have hextent := extent_le_of_sublist hnames
  have hlength := length_intercalate hne
  refine refusal?_eq_none_iff.mpr ⟨?_, ?_, ?_⟩
  · obtain ⟨c, rest, rfl⟩ := List.exists_cons_of_ne_nil hne
    have hfilled := (isName_of_mem_pieces (hnames.subset List.mem_cons_self)).filled
    have hc := List.length_pos_iff.mpr hfilled
    refine List.ne_nil_of_length_pos ?_
    rw [extent_cons] at hlength
    rw [ofComponents, List.length_append]
    omega
  · intro hmem
    rcases List.mem_append.mp hmem with hmem | hmem
    · cases hab : p.isAbsolute <;> simp [hab, slash] at hmem
    · rcases mem_intercalate hmem with hslash | ⟨c, hc, hmem⟩
      · exact absurd hslash (by decide)
      · exact hzero (mem_of_mem_pieces hmem (hnames.subset hc))
  · rw [ofComponents, List.length_append]
    cases hab : p.isAbsolute with
    | false =>
        have hpieces := extent_pieces_le p
        simp only [Bool.false_eq_true, if_false, List.length_nil]
        omega
    | true =>
        have hpieces := extent_pieces_le_of_isAbsolute hab
        simp only [if_true, List.length_singleton]
        omega

/-! ## Paths below one root -/

/-- A path to be taken from where another one ends: it keeps to the limits, and neither starts nor
ends with a slash. -/
structure Onward (p : Path) : Prop where
  relative : p.isAbsolute = false
  named : endsWithSlash p = false
  fits : p.Fits

instance (p : Path) : Decidable p.Onward :=
  decidable_of_iff (p.isAbsolute = false ∧ endsWithSlash p = false ∧ p.Fits)
    ⟨fun h => ⟨h.1, h.2.1, h.2.2⟩, fun h => ⟨h.relative, h.named, h.fits⟩⟩

section Join
variable {base p q : Path}

theorem Onward.filled (h : p.Onward) : p ≠ [] := (refusal?_eq_none_iff.mp h.fits.accepted).1

theorem Onward.endsWithSlash (h : p.Onward) (base : Path) :
    FileTree.endsWithSlash (base.join p) = false :=
  (endsWithSlash_join base h.relative h.filled).trans h.named

theorem join_eq_append (base : Path) (hp : p.isAbsolute = false) :
    base.join p = base.join [] ++ p := by
  have hnil : isAbsolute [] = false := rfl
  unfold join
  rw [hp, hnil]
  cases base with
  | nil => rfl
  | cons b base =>
      simp only [List.isEmpty_cons, Bool.or_self, Bool.false_eq_true, if_false]
      split <;> simp

theorem join_eq_append_slash (hbase : base ≠ []) (hslash : FileTree.endsWithSlash base = false)
    (hp : p.isAbsolute = false) : base.join p = base ++ slash :: p := by
  have hlast : (base.getLast? == some slash) = false := hslash
  simp [join, hp, hbase, hlast]

/-- Two paths onward are taken one after the other. -/
theorem Onward.join_join (hp : p.Onward) (hq : q.Onward) (base : Path) :
    (base.join p).join q = base.join (p ++ slash :: q) := by
  have hfilled : base.join p ≠ [] := by
    rw [join_eq_append base hp.relative]
    exact List.append_ne_nil_of_right_ne_nil _ hp.filled
  have hslash := hp.endsWithSlash base
  have hboth : isAbsolute (p ++ slash :: q) = false := by
    obtain ⟨b, rest, rfl⟩ := List.exists_cons_of_ne_nil hp.filled
    exact hp.relative
  calc (base.join p).join q
    _ = base.join p ++ slash :: q := join_eq_append_slash hfilled hslash hq.relative
    _ = base.join (p ++ slash :: q) := by
        rw [join_eq_append base hp.relative, join_eq_append base hboth, List.append_assoc]

theorem zero_mem_join (base : Path) (hp : p.isAbsolute = false) :
    0 ∈ base.join p ↔ 0 ∈ base.join [] ∨ 0 ∈ p := by
  rw [join_eq_append base hp, List.mem_append]

/-- Below a root that another path goes through, a path is kept within the limits by its length
alone. -/
theorem Fits.join_cases (h : (base.join p).Fits) (hp : p.Onward) (hq : q.Onward) :
    (base.join q).Fits ∨
      lengthLimit < (base.join q).length ∧ refusal? (base.join q) = some .nameTooLong := by
  have hbase : 0 ∉ base.join [] := fun hz =>
    h.zero_notMem ((zero_mem_join base hp.relative).mpr (Or.inl hz))
  have hzero : 0 ∉ base.join q := fun hz =>
    ((zero_mem_join base hq.relative).mp hz).elim hbase hq.fits.zero_notMem
  rcases Nat.lt_or_ge lengthLimit (base.join q).length with hlong | hlength
  · exact Or.inr ⟨hlong, refusal?_of_long hzero hlong⟩
  · have hfilled : base.join q ≠ [] := by
      rw [join_eq_append base hq.relative]
      exact List.append_ne_nil_of_right_ne_nil _ hq.filled
    have hpieces := h.short
    rw [pieces_join base hp.relative, List.forall_mem_append] at hpieces
    refine Or.inl ⟨refusal?_eq_none_iff.mpr ⟨hfilled, hzero, hlength⟩, ?_⟩
    rw [pieces_join base hq.relative, List.forall_mem_append]
    exact ⟨hpieces.1, hq.fits.short⟩

/-- A path below the root of one that keeps to the limits does so if it is no longer. -/
theorem Fits.join_of_le (h : (base.join p).Fits) (hp : p.Onward) (hq : q.Onward)
    (hle : q.length ≤ p.length) : (base.join q).Fits := by
  refine (h.join_cases hp hq).resolve_right fun ⟨hlong, _⟩ => ?_
  have hlength := h.length_le
  rw [join_eq_append base hp.relative, List.length_append] at hlength
  rw [join_eq_append base hq.relative, List.length_append] at hlong
  omega

end Join

end PointDriver.Path

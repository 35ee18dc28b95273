import PointDriver.Json.Printer
import PointDriver.Json.Reader

/-!
# Texts in JSON

A text is read back as it was written, whatever its characters are, and the
blanks of either layout are passed over. What stands behind is left as it is.
-/

namespace PointDriver.Json

/-- The two digits of a control character spell its code number. -/
theorem hexDigit?_hexLetter : ∀ n < 32,
    hexDigit? (hexLetter (n / 16)) = some (n / 16) ∧ hexDigit? (hexLetter n) = some (n % 16) := by
  decide

section Codes
variable {c : Char} (rest : List Char)

theorem codes?_escape {e : Char} (he : e ≠ 'u') (h : escaped? e = some c) :
    codes? ('\\' :: e :: rest) = (codes? rest).map fun r => (c.toNat :: r.1, r.2) := by
  rw [codes?]
  · simp only [h, Option.map_eq_bind]
    rfl
  · intro _ _ _ _ _ heq
    exact absurd heq he

theorem codes?_number {a b : Char} {m n : Nat} (ha : hexDigit? a = some m)
    (hb : hexDigit? b = some n) :
    codes? ('\\' :: 'u' :: '0' :: '0' :: a :: b :: rest) =
      (codes? rest).map fun r => ((m * 16 + n) :: r.1, r.2) := by
  have hzero : hexDigit? '0' = some 0 := rfl
  simp only [codes?, ha, hb, hzero, Option.map_eq_bind, bind, Option.bind_some, Nat.zero_mul,
    Nat.zero_add]
  rfl

theorem codes?_plain (hq : c ≠ '"') (hs : c ≠ '\\') (hc : ¬ c.toNat < 0x20) :
    codes? (c :: rest) = (codes? rest).map fun r => (c.toNat :: r.1, r.2) := by
  rw [codes?]
  · simp [hs, hc]
  · rintro rfl
    exact absurd rfl hq
  · rintro _ _ _ _ _ rfl
    exact absurd rfl hs
  · rintro _ _ rfl
    exact absurd rfl hs

/-- A written character is read as its code number. -/
theorem codes?_quotedChar (c : Char) :
    codes? (quotedChar c ++ rest) = (codes? rest).map fun r => (c.toNat :: r.1, r.2) := by
  unfold quotedChar
  split
  case h_8 hq hs _ _ _ _ _ =>
    split
    · next hc =>
        obtain ⟨hhigh, hlow⟩ := hexDigit?_hexLetter c.toNat hc
        have hn : c.toNat / 16 * 16 + c.toNat % 16 = c.toNat := by omega
        have hread := codes?_number rest hhigh hlow
        rw [hn] at hread
        exact hread
    · next hc =>
        exact codes?_plain rest hq hs hc
  all_goals exact codes?_escape rest (by decide) rfl

end Codes

/-- The code numbers of characters are no halves of pairs. -/
theorem characters?_codes (cs : List Char) : characters? (cs.map Char.toNat) = some cs := by
  induction cs with
  | nil => rfl
  | cons c cs ih =>
      have hvalid : c.toNat < 0xD800 ∨ 0xDFFF < c.toNat := by
        rcases c.valid with h | h
        · exact Or.inl h
        · exact Or.inr h.1
      have hhigh : (decide (0xD800 ≤ c.toNat) && decide (c.toNat ≤ 0xDBFF)) = false := by
        simp only [Bool.and_eq_false_iff, decide_eq_false_iff_not]
        omega
      have hlow : (decide (0xDC00 ≤ c.toNat) && decide (c.toNat ≤ 0xDFFF)) = false := by
        simp only [Bool.and_eq_false_iff, decide_eq_false_iff_not]
        omega
      rw [List.map_cons, characters?.eq_def]
      simp [hhigh, hlow, ih]

/-- A written text is read up to its closing quote. -/
theorem string?_written (s : String) (rest : List Char) :
    string? (s.toList.flatMap quotedChar ++ '"' :: rest) = some (s, rest) := by
  have hcodes : ∀ cs : List Char, codes? (cs.flatMap quotedChar ++ '"' :: rest) =
      some (cs.map Char.toNat, rest) := by
    intro cs
    induction cs with
    | nil => rfl
    | cons c cs ih =>
        rw [List.flatMap_cons, List.append_assoc, codes?_quotedChar, ih]
        rfl
  simp [string?, hcodes, characters?_codes]

/-- Blanks before a token. -/
def IsSpace (blanks : List Char) : Prop := ∀ c ∈ blanks, isSpace c = true

theorem skipSpace_append {blanks : List Char} (h : IsSpace blanks) (cs : List Char) :
    skipSpace (blanks ++ cs) = skipSpace cs :=
  List.dropWhile_append_of_pos h

theorem skipSpace_cons {c : Char} (h : isSpace c = false) (cs : List Char) :
    skipSpace (c :: cs) = c :: cs := by
  simp [skipSpace, h]

theorem isSpace_opening (depth : Option Nat) : IsSpace (layout.opening depth) := by
  intro c hc
  cases depth with
  | none => exact absurd hc List.not_mem_nil
  | some depth =>
      rcases List.mem_cons.mp hc with rfl | hc
      · rfl
      · obtain rfl := List.eq_of_mem_replicate hc
        rfl

/-- A bracket closes on a line of its own or at once. -/
theorem skipSpace_close (depth : Option Nat) {bracket : Char} (h : isSpace bracket = false)
    (rest : List Char) : skipSpace (layout.close depth bracket ++ rest) = bracket :: rest := by
  have hclose : layout.close depth bracket ++ rest = layout.opening depth ++ bracket :: rest := by
    cases depth <;> simp [layout.close, layout.opening]
  rw [hclose, skipSpace_append (isSpace_opening depth), skipSpace_cons h]

theorem value?_text (s : String) {blanks : List Char} (h : IsSpace blanks) (fuel : Nat)
    (rest : List Char) :
    value? (fuel + 1) (blanks ++ (quoted s ++ rest)) = some (.text s, rest) := by
  have hstart : skipSpace (blanks ++ (quoted s ++ rest)) =
      '"' :: (s.toList.flatMap quotedChar ++ '"' :: rest) := by
    rw [skipSpace_append h, quoted, List.cons_append, skipSpace_cons rfl, List.append_assoc]
    rfl
  rw [value?, hstart]
  simp [string?_written]

end PointDriver.Json

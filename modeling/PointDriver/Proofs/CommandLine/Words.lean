import Mathlib.Data.List.TakeWhile
import PointDriver.CommandLine.Basic
import PointDriver.Proofs.Text.Decoding

/-!
# Arguments and the words they spell

The kind of an argument determines its bytes and is determined by them. Each
kind is described without the order in which the bytes are looked at.
-/

namespace PointDriver.CommandLine

/-- The bytes behind a name: nothing, or an equals sign and the attached value. -/
def attachment : Option Bytes → Bytes
  | none => []
  | some value => equals :: value

@[simp] theorem attachment_none : attachment none = [] := rfl

@[simp] theorem attachment_some (value : Bytes) : attachment (some value) = equals :: value := rfl

namespace Word

theorem ofBytes_long {name : Bytes} {attached : Option Bytes} (hn : equals ∉ name)
    (hs : name ≠ [] ∨ attached ≠ none) :
    ofBytes (dash :: dash :: (name ++ attachment attached)) = .long name attached := by
  have hne : name ++ attachment attached ≠ [] := by
    cases attached <;> simp_all
  have hall : ∀ b ∈ name, (b != equals) = true := by
    intro b hb
    have : b ≠ equals := fun h => hn (h ▸ hb)
    simpa using this
  have htake : (name ++ attachment attached).takeWhile (· != equals) = name := by
    rw [List.takeWhile_append_of_pos hall]
    cases attached <;> simp
  have hdrop : (name ++ attachment attached).dropWhile (· != equals) = attachment attached := by
    rw [List.dropWhile_append_of_pos hall]
    cases attached <;> simp
  cases attached with
  | none =>
      simp only [attachment_none, List.append_nil] at hne hdrop ⊢
      simp [ofBytes, hne, hdrop]
  | some value =>
      simp only [attachment_some] at hne htake hdrop ⊢
      simp only [ofBytes, bne_self_eq_false, Bool.false_eq_true, if_false, List.isEmpty_iff,
        if_neg hne, hdrop, htake]

/-- Two dashes and more spell a name, up to the first equals sign. -/
theorem ofBytes_eq_long_iff {a name : Bytes} {attached : Option Bytes} :
    ofBytes a = .long name attached ↔
      a = dash :: dash :: (name ++ attachment attached) ∧ equals ∉ name ∧
        (name ≠ [] ∨ attached ≠ none) := by
  constructor
  · intro h
    unfold ofBytes at h
    split at h
    · next x y rest =>
        split at h
        · cases h
        split at h
        · cases h
        split at h
        · cases h
        next hx hy hr =>
        have hname : equals ∉ rest.takeWhile (· != equals) := by
          intro hm
          simpa using List.mem_takeWhile_imp hm
        have hx : x = dash := by simpa using hx
        have hy : y = dash := by simpa using hy
        subst hx hy
        split at h
        · next hd =>
            have ht := List.takeWhile_append_dropWhile (p := (· != equals)) (l := rest)
            rw [hd, List.append_nil] at ht
            cases h
            rw [ht] at hname
            exact ⟨by simp, hname, Or.inl (by simpa using hr)⟩
        · next e value hd =>
            have ht := List.takeWhile_append_dropWhile (p := (· != equals)) (l := rest)
            have he : e = equals := by
              have := List.head?_dropWhile_not (· != equals) rest
              rw [hd] at this
              simpa using this
            subst he
            rw [hd] at ht
            cases h
            exact ⟨by rw [attachment_some, ht], hname, Or.inr (by simp)⟩
    · cases h
  · rintro ⟨rfl, hn, hs⟩
    exact ofBytes_long hn hs

/-- Only two dashes alone are the escape. -/
theorem ofBytes_eq_escape_iff {a : Bytes} : ofBytes a = .escape ↔ a = [dash, dash] := by
  constructor
  · intro h
    unfold ofBytes at h
    split at h
    · split at h
      · cases h
      split at h
      · cases h
      split at h
      · simp_all
      · split at h <;> cases h
    · cases h
  · rintro rfl
    rfl

/-- Letters are what follows a single dash. -/
theorem ofBytes_eq_letters_iff {a letters : Bytes} :
    ofBytes a = .letters letters ↔
      a = dash :: letters ∧ letters ≠ [] ∧ letters.head? ≠ some dash := by
  constructor
  · intro h
    unfold ofBytes at h
    split at h
    · split at h
      · cases h
      split at h
      · cases h
        simp_all
      · split at h
        · cases h
        · split at h <;> cases h
    · cases h
  · rintro ⟨rfl, hne, hd⟩
    obtain ⟨b, rest, rfl⟩ := List.exists_cons_of_ne_nil hne
    have hb : b ≠ dash := by simpa using hd
    simp [ofBytes, hb]

/-- Everything that does not start with a dash is plain, and so is the dash alone. -/
theorem ofBytes_eq_plain_iff {a : Bytes} :
    ofBytes a = .plain ↔ a = [dash] ∨ a.head? ≠ some dash := by
  constructor
  · intro h
    unfold ofBytes at h
    split at h
    · split at h
      · simp_all
      split at h
      · cases h
      · split at h
        · cases h
        · split at h <;> cases h
    · next hne =>
        match a with
        | [] => simp
        | [b] => by_cases hb : b = dash <;> simp [hb]
        | b :: c :: rest => exact absurd rfl (hne b c rest)
  · rintro (rfl | hd)
    · rfl
    · unfold ofBytes
      split
      · next b c rest =>
          have hb : b ≠ dash := by simpa using hd
          simp [hb]
      · rfl

end Word

end PointDriver.CommandLine

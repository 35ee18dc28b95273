import PointDriver.Schema.Basic
import PointDriver.Proofs.CommandLine.Settling

/-!
# Option names of a declaration

The names of a driver's options are help, the directory and the declared names.
They are distinct because declared names are neither reserved nor repeated, and
their characters keep them apart from the marks of the command line.
-/

namespace PointDriver

theorem nameError?_eq_none_iff {name : String} :
    nameError? name = none ↔
      spellsName name.toList = true ∧ name ∉ keywords ∧ name ∉ reservedNames := by
  unfold nameError?
  cases hn : name.toList with
  | nil => simp [spellsName]
  | cons c rest =>
      cases hs : spellsName (c :: rest) with
      | false => simp
      | true =>
          by_cases hk : name ∈ keywords <;> by_cases hr : name ∈ reservedNames <;> simp [hk, hr]

/-- The characters of names are single bytes, and none is the equals sign. -/
theorem ascii_of_continuesName {c : Char} (h : continuesName c = true) :
    c.toNat < 128 ∧ c ≠ '=' := by
  have hle : ∀ a b : Char, a ≤ b ↔ a.toNat ≤ b.toNat := fun _ _ => Iff.rfl
  simp only [continuesName, startsName, Bool.or_eq_true, Bool.and_eq_true, decide_eq_true_eq,
    beq_iff_eq, hle] at h
  have ha : 'a'.toNat = 97 := rfl
  have hz : 'z'.toNat = 122 := rfl
  have h0 : '0'.toNat = 48 := rfl
  have h9 : '9'.toNat = 57 := rfl
  have hu : '_'.toNat = 95 := rfl
  have he : '='.toNat = 61 := rfl
  refine ⟨?_, ?_⟩
  · rcases h with (h | rfl) | h <;> omega
  · rintro rfl
    rcases h with (h | h) | h
    · omega
    · exact absurd h (by decide)
    · omega

theorem continuesName_of_spellsName {cs : List Char} (h : spellsName cs = true) :
    cs ≠ [] ∧ ∀ c ∈ cs, continuesName c = true := by
  cases cs with
  | nil => simp [spellsName] at h
  | cons c rest =>
      simp only [spellsName, Bool.and_eq_true, List.all_eq_true] at h
      refine ⟨by simp, fun x hx => ?_⟩
      rcases List.mem_cons.mp hx with rfl | hx
      · simp [continuesName, h.1.1]
      · exact h.1.2 x hx

/-- An encoded name is not empty and has no equals sign in it. -/
theorem encode_name {name : String} (h : spellsName name.toList = true) :
    Utf8.encode name ≠ [] ∧ CommandLine.equals ∉ Utf8.encode name := by
  obtain ⟨hne, hall⟩ := continuesName_of_spellsName h
  have hmem : ∀ cs : List Char, (∀ c ∈ cs, continuesName c = true) →
      CommandLine.equals ∉ Utf8.encodeChars cs := by
    intro cs hcs
    induction cs with
    | nil => simp
    | cons c rest ih =>
        obtain ⟨hlt, heq⟩ := ascii_of_continuesName (hcs c List.mem_cons_self)
        have hb : CommandLine.equals ≠ UInt8.ofNat c.toNat := by
          intro hb
          have hn := congrArg UInt8.toNat hb
          rw [UInt8.toNat_ofNat', Nat.mod_eq_of_lt (by omega)] at hn
          exact heq (Char.toNat_inj.mp hn.symm)
        rw [Utf8.encodeChars_cons, Utf8.utf8EncodeChar_ascii hlt]
        simp only [List.singleton_append, List.mem_cons, not_or]
        exact ⟨hb, ih fun x hx => hcs x (List.mem_cons_of_mem _ hx)⟩
  refine ⟨?_, hmem _ hall⟩
  obtain ⟨c, rest, hc⟩ := List.exists_cons_of_ne_nil hne
  have hlt := (ascii_of_continuesName (hall c (by simp [hc]))).1
  simp [Utf8.encode, hc, Utf8.utf8EncodeChar_ascii hlt]

namespace Declaration

/-- The declaration of one parameter. -/
def single (name : String) (h : nameError? name = none) : Declaration :=
  ⟨[name], by simpa using h, by simp⟩

/-- The options that take a value: the directory and the parameters. -/
def valueNames (d : Declaration) : List String := outputDirName :: d.names

/-- The names of all options in the order of the schema. -/
def optionNames (d : Declaration) : List String := helpName :: d.valueNames

theorem not_reserved (d : Declaration) {name : String} (h : name ∈ d.names) :
    name ∉ reservedNames :=
  (nameError?_eq_none_iff.mp (d.legal name h)).2.2

theorem ne_helpName (d : Declaration) {name : String} (h : name ∈ d.names) : name ≠ helpName := by
  rintro rfl
  exact d.not_reserved h (by simp [reservedNames])

theorem ne_outputDirName (d : Declaration) {name : String} (h : name ∈ d.names) :
    name ≠ outputDirName := by
  rintro rfl
  exact d.not_reserved h (by simp [reservedNames])

theorem nodup_optionNames (d : Declaration) : d.optionNames.Nodup := by
  have hd : outputDirName ∉ d.names := fun h => d.ne_outputDirName h rfl
  have hh : helpName ∉ d.valueNames := by
    intro h
    rcases List.mem_cons.mp h with h | h
    · exact absurd h (by decide)
    · exact d.ne_helpName h rfl
  exact List.nodup_cons.mpr ⟨hh, List.nodup_cons.mpr ⟨hd, d.distinct⟩⟩

theorem ne_helpName_of_mem_valueNames (d : Declaration) {name : String}
    (h : name ∈ d.valueNames) : name ≠ helpName := by
  rintro rfl
  exact (List.nodup_cons.mp d.nodup_optionNames).1 h

theorem spellsName_of_mem_optionNames (d : Declaration) {name : String}
    (h : name ∈ d.optionNames) : spellsName name.toList = true := by
  rcases List.mem_cons.mp h with rfl | h
  · decide
  rcases List.mem_cons.mp h with rfl | h
  · decide
  · exact (nameError?_eq_none_iff.mp (d.legal name h)).1

end Declaration

namespace Schema
open CommandLine

/-- How arguments give the option with a name that a driver has. -/
def optionSpec (name : String) : Spec :=
  if name = helpName then OptionEntry.helpFlag.spec
  else if name = outputDirName then OptionEntry.outputDir.spec
  else (OptionEntry.parameter name).spec

theorem optionSpec_name (name : String) : (optionSpec name).name = name := by
  unfold optionSpec
  split
  · next h => exact h.symm
  split
  · next h => exact h.symm
  · rfl

variable (program : String) (d : Declaration)

theorem table_ofDeclaration :
    (ofDeclaration program d).table = d.optionNames.map optionSpec := by
  have hp : d.names.map (fun n => (OptionEntry.parameter n).spec) = d.names.map optionSpec := by
    apply List.map_congr_left
    intro n hn
    simp [optionSpec, d.ne_helpName hn, d.ne_outputDirName hn]
  have hne : ¬ outputDirName = helpName := by decide
  simp [table, ofDeclaration, Declaration.optionNames, Declaration.valueNames, optionSpec, ← hp,
    hne]

theorem letterless_table : Letterless (ofDeclaration program d).table := by
  intro s hs
  rw [table_ofDeclaration] at hs
  obtain ⟨n, -, rfl⟩ := List.mem_map.mp hs
  unfold optionSpec
  split
  · rfl
  split <;> rfl

/-- A name finds its option if a driver has one of that name. -/
theorem named?_table (name : String) :
    named? (ofDeclaration program d).table name =
      if name ∈ d.optionNames then some (optionSpec name) else none := by
  have hf : ∀ names : List String, named? (names.map optionSpec) name =
      if name ∈ names then some (optionSpec name) else none := by
    intro names
    induction names with
    | nil => rfl
    | cons n rest ih =>
        by_cases h : n = name
        · subst h
          simp [named?, optionSpec_name]
        · have hne : ¬ name = n := fun he => h he.symm
          simpa [named?, optionSpec_name, h, hne] using ih
  rw [table_ofDeclaration, hf]

theorem optionSpec_help : (optionSpec helpName).role = .flag := rfl

theorem takesText_optionSpec {name : String} (h : name ≠ helpName) :
    (optionSpec name).TakesText := by
  unfold optionSpec
  rw [if_neg h]
  split
  · exact ⟨_, rfl, rfl, rfl⟩
  · exact ⟨_, rfl, rfl, rfl⟩

/-- Only a parameter takes a negative number as an argument of its own. -/
theorem valueOf_optionSpec_numeric {name : String} (h : name ≠ helpName) :
    ((Reading.valueOf (optionSpec name)).map Value.numeric).getD false =
      !(name == outputDirName) := by
  unfold optionSpec
  rw [if_neg h]
  split
  · next he => simp [he, OptionEntry.spec, OptionEntry.outputDir, OptionKind.role, Reading.valueOf]
  · next he => simp [he, OptionEntry.spec, OptionEntry.parameter, OptionKind.role, Reading.valueOf]

end Schema

end PointDriver

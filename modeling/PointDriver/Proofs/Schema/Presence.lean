import PointDriver.Schema.Parse
import PointDriver.Proofs.Schema.Names

/-!
# Presence and values

What was recorded is collected entry by entry: which options are present in one
list, and their texts in another. The two lists agree. Apart from the request
for help, an option of the schema is present exactly when it has a text, and
help never has one.
-/

namespace PointDriver.Schema
open CommandLine

variable {program : String} {d : Declaration}

/-- Entries that take a value become present with the texts recorded for them, in order. -/
theorem foldl_collectEntry (r : Reading) {entries : List OptionEntry}
    (hv : ∀ e ∈ entries, e.kind ≠ .flag) (o : ParsedOptions) :
    entries.foldl (collectEntry r) o =
      ⟨o.present ++ (entries.map (·.name)).filter fun n => (r.text? n).isSome,
        o.values ++ (entries.map (·.name)).filterMap fun n => (r.text? n).map (n, ·)⟩ := by
  induction entries generalizing o with
  | nil => simp
  | cons e rest ih =>
      obtain ⟨he, hrest⟩ := List.forall_mem_cons.mp hv
      have hstep : collectEntry r o e = (r.text? e.name).elim o fun text =>
          ⟨o.present ++ [e.name], o.values ++ [(e.name, text)]⟩ := by
        unfold collectEntry
        cases hk : e.kind with
        | flag => exact absurd hk he
        | string => cases r.text? e.name <;> rfl
        | double => cases r.text? e.name <;> rfl
      rw [List.foldl_cons, ih hrest, hstep]
      cases ht : r.text? e.name with
      | none => simp [ht]
      | some text => simp [ht]

/-- Only the options of the schema are collected, in its order. -/
theorem collect_ofDeclaration (r : Reading) :
    (ofDeclaration program d).collect r =
      ⟨(if r.has helpName then [helpName] else []) ++
          d.valueNames.filter fun n => (r.text? n).isSome,
        d.valueNames.filterMap fun n => (r.text? n).map (n, ·)⟩ := by
  let entries := OptionEntry.outputDir :: d.names.map OptionEntry.parameter
  have hv : ∀ e ∈ entries, e.kind ≠ .flag := by
    simp [entries, OptionEntry.outputDir, OptionEntry.parameter]
  have hnames : entries.map (·.name) = d.valueNames := by
    simp [entries, Declaration.valueNames, OptionEntry.outputDir, OptionEntry.parameter,
      Function.comp_def]
  have hhelp : collectEntry r .empty .helpFlag =
      ⟨if r.has helpName then [helpName] else [], []⟩ := by
    cases hh : r.has helpName <;>
      simp [collectEntry, OptionEntry.helpFlag, ParsedOptions.empty, hh]
  have hentries : (ofDeclaration program d).entries = .helpFlag :: entries :=
    entries_ofNames program d.names
  rw [collect, hentries, List.foldl_cons, foldl_collectEntry r hv, hhelp, hnames]
  rfl

theorem find?_filterMap_pair (names : List String) (g : String → Option String) (name : String) :
    ((names.filterMap fun n => (g n).map (n, ·)).find? fun v => v.1 == name).map (·.2) =
      if name ∈ names then g name else none := by
  induction names with
  | nil => rfl
  | cons n rest ih =>
      by_cases h : n = name
      · subst h
        cases hg : g n with
        | none =>
            simp only [List.filterMap_cons, hg, Option.map_none, ih, List.mem_cons, true_or,
              if_true]
            split <;> rfl
        | some v => simp [hg]
      · have hne : ¬ name = n := fun he => h he.symm
        cases hg : g n with
        | none => simpa [List.filterMap_cons, hg, hne] using ih
        | some v => simpa [List.filterMap_cons, hg, h, hne] using ih

theorem value?_collect (r : Reading) (name : String) :
    ((ofDeclaration program d).collect r).value? name =
      if name ∈ d.valueNames then r.text? name else none := by
  rw [collect_ofDeclaration, ParsedOptions.value?]
  exact find?_filterMap_pair d.valueNames r.text? name

/-- What is present is the request for help or has a value. -/
theorem isPresent_collect_iff (r : Reading) (name : String) :
    ((ofDeclaration program d).collect r).isPresent name = true ↔
      name = helpName ∧ r.has helpName = true ∨
        ∃ value, ((ofDeclaration program d).collect r).value? name = some value := by
  rw [value?_collect, ParsedOptions.isPresent, collect_ofDeclaration, List.contains_iff_mem,
    List.mem_append, List.mem_filter, Option.isSome_iff_exists]
  refine or_congr ?_ ?_
  · cases r.has helpName <;> simp
  · by_cases hn : name ∈ d.valueNames <;> simp [hn]

/-- Apart from the request for help, what is present has a value. -/
theorem isPresent_collect_of_ne {name : String} (r : Reading) (hn : name ≠ helpName) :
    ((ofDeclaration program d).collect r).isPresent name = true ↔
      ∃ value, ((ofDeclaration program d).collect r).value? name = some value := by
  rw [isPresent_collect_iff]
  simp [hn]

end PointDriver.Schema

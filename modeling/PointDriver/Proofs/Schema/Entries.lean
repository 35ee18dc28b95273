import Mathlib.Data.List.Nodup
import PointDriver.Proofs.Schema.Names

/-!
# The entries of a schema

A schema grows by one parameter at a time behind the two options that every
driver has, and takes names as they are. Its entries stay apart exactly if every
name is new when it comes. The names of a declaration are: none is repeated, and
none is the name of a fixed option. So every option is found under its name, and
the schema tells which declaration it was made of.
-/

namespace PointDriver.Schema

/-- No two entries have the same name. -/
def Unambiguous (s : Schema) : Prop := (s.entries.map (·.name)).Nodup

instance (s : Schema) : Decidable s.Unambiguous :=
  inferInstanceAs (Decidable (s.entries.map (·.name)).Nodup)

section Lookup
variable {s : Schema} {name : String}

theorem entry?_eq_none_iff : s.entry? name = none ↔ name ∉ s.entries.map (·.name) := by
  unfold entry?
  simp [List.find?_eq_none]

/-- Where names tell entries apart, the entry that is found is the one with the name. -/
theorem Unambiguous.entry?_eq_some_iff (h : s.Unambiguous) {e : OptionEntry} :
    s.entry? name = some e ↔ e ∈ s.entries ∧ e.name = name := by
  constructor
  · intro hfound
    exact ⟨List.mem_of_find?_eq_some hfound, by simpa using List.find?_some hfound⟩
  · rintro ⟨hmem, rfl⟩
    cases hfound : s.entry? e.name with
    | none => exact absurd (List.mem_map_of_mem hmem) (entry?_eq_none_iff.mp hfound)
    | some found =>
        have hname : found.name = e.name := by simpa using List.find?_some hfound
        exact congrArg some
          (List.inj_on_of_nodup_map h (List.mem_of_find?_eq_some hfound) hmem hname)

end Lookup

section Growth
variable {s : Schema} {name : String} {names : List String}

/-- One more parameter takes its own name and no other. -/
theorem entry?_parameter_eq_none_iff {n : String} :
    entry? (s.parameter name) n = none ↔ s.entry? n = none ∧ n ≠ name := by
  simp [entry?_eq_none_iff, parameter, OptionEntry.parameter]

/-- One more parameter keeps the entries apart exactly if its name is not taken. -/
theorem unambiguous_parameter_iff :
    (s.parameter name).Unambiguous ↔ s.Unambiguous ∧ s.entry? name = none := by
  have hnames : (s.parameter name).entries.map (·.name) = s.entries.map (·.name) ++ [name] := by
    simp [parameter, OptionEntry.parameter]
  rw [Unambiguous, hnames, ← List.concat_eq_append, List.nodup_concat, entry?_eq_none_iff]
  exact and_comm

/-- Further parameters keep the entries apart exactly if their names are distinct and not taken
before the first of them. -/
theorem unambiguous_foldl_parameter_iff :
    (names.foldl parameter s).Unambiguous ↔
      s.Unambiguous ∧ names.Nodup ∧ ∀ n ∈ names, s.entry? n = none := by
  induction names generalizing s with
  | nil => simp
  | cons name rest ih =>
      -- The first name is taken when the rest comes, which is why the rest may not repeat it.
      rw [List.foldl_cons, ih, unambiguous_parameter_iff, List.nodup_cons, List.forall_mem_cons]
      simp only [entry?_parameter_eq_none_iff]
      constructor
      · rintro ⟨⟨hs, hname⟩, hrest, hfree⟩
        have hfresh : name ∉ rest := fun again => (hfree name again).2 rfl
        exact ⟨hs, ⟨hfresh, hrest⟩, hname, fun n hn => (hfree n hn).1⟩
      · rintro ⟨hs, ⟨hfresh, hrest⟩, hname, hfree⟩
        refine ⟨⟨hs, hname⟩, hrest, fun n hn => ⟨hfree n hn, ?_⟩⟩
        rintro rfl
        exact hfresh hn

theorem program_foldl_parameter : (names.foldl parameter s).program = s.program := by
  induction names generalizing s with
  | nil => rfl
  | cons name rest ih => exact ih

end Growth

section Names
variable {program : String} {names : List String}

/-- A schema of names is unambiguous exactly if the names are distinct and none is that of an option
that every driver has. -/
theorem unambiguous_ofNames_iff :
    (ofNames program names).Unambiguous ↔
      names.Nodup ∧ ∀ n ∈ names, n ≠ helpName ∧ n ≠ outputDirName := by
  have hbase : (base program).Unambiguous :=
    List.nodup_cons.mpr ⟨by decide, List.nodup_singleton _⟩
  have hfree : ∀ n, entry? (base program) n = none ↔ n ≠ helpName ∧ n ≠ outputDirName := by
    intro n
    simp [entry?_eq_none_iff, base, OptionEntry.helpFlag, OptionEntry.outputDir]
  simp only [ofNames, unambiguous_foldl_parameter_iff, hfree, hbase, true_and]

/-- A parameter may have the name of the flag, but then the flag is found in its place. -/
example : ¬ (ofNames "driver" ["help"]).Unambiguous ∧
    entry? (ofNames "driver" ["help"]) "help" = some .helpFlag := by decide

end Names

section Declared
variable (program : String) (d : Declaration)

theorem program_ofDeclaration : (ofDeclaration program d).program = program :=
  program_foldl_parameter

theorem map_name_ofDeclaration :
    (ofDeclaration program d).entries.map (·.name) = d.optionNames := by
  simp [ofDeclaration, Declaration.optionNames, Declaration.valueNames, OptionEntry.helpFlag,
    OptionEntry.outputDir, OptionEntry.parameter, Function.comp_def]

theorem unambiguous_ofDeclaration : (ofDeclaration program d).Unambiguous :=
  unambiguous_ofNames_iff.mpr
    ⟨d.distinct, fun _ hn => ⟨d.ne_helpName hn, d.ne_outputDirName hn⟩⟩

theorem parameters_ofDeclaration :
    (ofDeclaration program d).parameters = d.names.map OptionEntry.parameter := by
  simp [parameters, ofDeclaration, OptionEntry.helpFlag, OptionEntry.outputDir,
    OptionEntry.parameter]

theorem map_name_parameters : (ofDeclaration program d).parameters.map (·.name) = d.names := by
  rw [parameters_ofDeclaration, List.map_map]
  exact List.map_id d.names

/-- A schema tells its program and its declaration. -/
theorem ofDeclaration_inj {program program' : String} {d d' : Declaration} :
    ofDeclaration program d = ofDeclaration program' d' ↔ program = program' ∧ d = d' := by
  constructor
  · intro h
    have hprogram := congrArg Schema.program h
    have hnames := congrArg (fun s => s.parameters.map (·.name)) h
    simp only [program_ofDeclaration, map_name_parameters] at hprogram hnames
    obtain ⟨names, legal, distinct⟩ := d
    obtain ⟨names', legal', distinct'⟩ := d'
    obtain rfl : names = names' := hnames
    exact ⟨hprogram, rfl⟩
  · rintro ⟨rfl, rfl⟩
    rfl

/-- The schema of a declaration has the flag for help, the directory, and one required number for
each declared name in order, and nothing else. Its names are distinct, its parameters are the
entries behind the first two, and every name finds the entry that has it while no other text finds
any. Schemas are equal only for the same program and the same declaration. -/
theorem entries_distinct_in_order :
    (ofDeclaration program d).entries.length = d.names.length + 2 ∧
    (ofDeclaration program d).entries =
      ⟨"help", .flag, false, "Produce this help message"⟩ ::
      ⟨"output_dir", .string, true, "Directory to write simulation outputs"⟩ ::
      d.names.map (fun n => ⟨n, .double, true, "Set the value of " ++ n⟩) ∧
    ((ofDeclaration program d).entries.map (·.name)).Nodup ∧
    (ofDeclaration program d).parameters = (ofDeclaration program d).entries.drop 2 ∧
    (ofDeclaration program d).parameters.map (·.name) = d.names ∧
    (∀ n e, entry? (ofDeclaration program d) n = some e ↔
      e ∈ (ofDeclaration program d).entries ∧ e.name = n) ∧
    (∀ n, entry? (ofDeclaration program d) n = none ↔ n ∉ "help" :: "output_dir" :: d.names) ∧
    ∀ program' d', ofDeclaration program d = ofDeclaration program' d' ↔
      program = program' ∧ d = d' := by
  have hentries := entries_ofNames program d.names
  refine ⟨?_, hentries, unambiguous_ofDeclaration program d, ?_, map_name_parameters program d,
    fun n e => (unambiguous_ofDeclaration program d).entry?_eq_some_iff, fun n => ?_,
    fun program' d' => ofDeclaration_inj⟩
  · rw [ofDeclaration, hentries]
    simp
  · rw [parameters_ofDeclaration, ofDeclaration, hentries]
    rfl
  · rw [entry?_eq_none_iff, map_name_ofDeclaration]
    rfl

end Declared

end PointDriver.Schema

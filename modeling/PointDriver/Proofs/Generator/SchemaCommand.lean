import PointDriver.Proofs.Generator.GenerateCommand
import PointDriver.Proofs.Json.Layouts
import PointDriver.Proofs.Schema.Description

/-!
# The command that shows a schema

The command shows the options of a driver in two forms, as a description and as
JSON. Both lose nothing: a reader of either form finds the same options in the
same order.
-/

namespace PointDriver

namespace OptionEntry

theorem worded_toJson (e : OptionEntry) : Json.Worded e.toJson := by
  refine .object ?_
  simp only [List.forall_mem_cons]
  exact ⟨.text _, .text _, .boolean _, .text _, List.forall_mem_nil _⟩

theorem member?_toJson (e : OptionEntry) :
    e.toJson.member? "name" = some (.text e.name) ∧
      e.toJson.member? "kind" = some (.text e.kind.word) ∧
      e.toJson.member? "required" = some (.boolean e.required) :=
  ⟨rfl, rfl, rfl⟩

end OptionEntry

namespace Schema

/-- A schema is read back from its JSON, with the break behind it. -/
theorem read?_pretty (s : Schema) : Json.read? (s.toJson.pretty ++ "\n") = some s.toJson := by
  have hworded : Json.Worded s.toJson := by
    refine .array fun item hitem => ?_
    obtain ⟨e, -, rfl⟩ := List.mem_map.mp hitem
    exact e.worded_toJson
  have hbreak : Json.IsSpace ['\n'] := List.forall_mem_singleton.mpr rfl
  have htext : s.toJson.pretty ++ "\n" =
      String.ofList (Json.layout (some 0) s.toJson ++ ['\n']) := by
    rw [String.ofList_append]
    rfl
  rw [htext]
  exact Json.read?_layout hworded (some 0) hbreak

/-- The names, kinds and demands that the JSON of a declaration's schema spells. -/
theorem member?_ofDeclaration (program : String) (d : Declaration) :
    ∃ items, (ofDeclaration program d).toJson = .array items ∧
      items.map (Json.member? "name") =
        ("help" :: "output_dir" :: d.names).map (some ∘ Json.text) ∧
      items.map (Json.member? "kind") =
        some (.text "flag") :: some (.text "string") ::
          d.names.map (fun _ => some (.text "double")) ∧
      items.map (Json.member? "required") =
        some (.boolean false) :: some (.boolean true) ::
          d.names.map (fun _ => some (.boolean true)) := by
  refine ⟨_, rfl, ?_, ?_, ?_⟩
  all_goals
    rw [ofDeclaration, entries_ofNames]
    simp only [List.map_cons, List.map_map, Function.comp_def, OptionEntry.member?_toJson]
    rfl

end Schema

namespace Generator

/-- What is shown of a schema when everything that it needs can be loaded. -/
theorem respond_of_schema {configHome : Option Path} {files : FileTree} {arguments : List Bytes}
    {i : Invocation} {json : Bool} {config : Config} {d : Declaration}
    (hparse : parse arguments = .ok i) (hcommand : i.command = .schema json)
    (hconfig : ((Config.load configHome i.config : Generating (StateM FileTree) Config) files).1 =
      .ok config)
    (hd : ((DeclarationFile.load i.params i.paramsFile :
      Generating (StateM FileTree) Declaration) files).1 = .ok d) :
    (respond configHome arguments : StateM FileTree Transcript) files =
      (⟨0, Utf8.encode (schemaText config.program d json),
        warningsAbout configHome i.config i.logLevel files, .none⟩, files) := by
  have hserve := serve_of_loads hconfig hd
  rw [hcommand] at hserve
  rw [respond, hparse]
  exact hserve

/-- A description shows exactly the options of the declaration, in order and each once, and what
each of them means stands behind it, whatever the lengths of the names make of the layout. The
command shows this description, or JSON that spells the same options in the same order, and
changes no files. -/
theorem respond_schema :
    (∀ (program : String) (d : Declaration), '\n' ∉ program.toList →
      let shown := Description.read (Schema.ofDeclaration program d).describe
      shown.map Prod.fst = "help" :: "output_dir" :: d.names ∧ (shown.map Prod.fst).Nodup ∧
      shown = ("help", "Produce this help message") ::
        ("output_dir", "Directory to write simulation outputs") ::
          d.names.map fun name => (name, "Set the value of " ++ name)) ∧
    ∀ (configHome : Option Path) (files : FileTree) (arguments : List Bytes) (i : Invocation)
      (json : Bool) (config : Config) (d : Declaration),
      parse arguments = .ok i → i.command = .schema json →
      ((Config.load configHome i.config : Generating (StateM FileTree) Config) files).1 =
        .ok config →
      ((DeclarationFile.load i.params i.paramsFile :
        Generating (StateM FileTree) Declaration) files).1 = .ok d →
      ∃ text warnings,
        (respond configHome arguments : StateM FileTree Transcript) files =
          (⟨0, Utf8.encode text, warnings, .none⟩, files) ∧
        (json = false → text = (Schema.ofDeclaration config.program d).describe) ∧
        (json = true → ∃ items, Json.read? text = some (.array items) ∧
          items.map (Json.member? "name") =
            ("help" :: "output_dir" :: d.names).map (some ∘ Json.text) ∧
          items.map (Json.member? "kind") =
            some (.text "flag") :: some (.text "string") ::
              d.names.map (fun _ => some (.text "double")) ∧
          items.map (Json.member? "required") =
            some (.boolean false) :: some (.boolean true) ::
              d.names.map (fun _ => some (.boolean true))) := by
  constructor
  · intro program d hprogram shown
    have hshown : shown = ("help", "Produce this help message") ::
        ("output_dir", "Directory to write simulation outputs") ::
          d.names.map fun name => (name, "Set the value of " ++ name) := by
      rw [← Schema.program_ofDeclaration program d] at hprogram
      have hread := Schema.read_describe hprogram (Schema.describable_ofDeclaration program d)
      rw [Schema.ofDeclaration, Schema.entries_ofNames, List.map_cons, List.map_cons,
        List.map_map] at hread
      exact hread
    have hnames : shown.map Prod.fst = d.optionNames := by
      rw [hshown, List.map_cons, List.map_cons, List.map_map]
      simp [Function.comp_def, Declaration.optionNames, Declaration.valueNames, helpName,
        outputDirName]
    exact ⟨hnames, hnames ▸ d.nodup_optionNames, hshown⟩
  · intro configHome files arguments i json config d hparse hcommand hconfig hd
    refine ⟨_, _, respond_of_schema hparse hcommand hconfig hd, ?_, ?_⟩
    · rintro rfl
      rfl
    · rintro rfl
      obtain ⟨items, hitems, hmembers⟩ := Schema.member?_ofDeclaration config.program d
      refine ⟨items, ?_, hmembers⟩
      have hread := Schema.read?_pretty (Schema.ofDeclaration config.program d)
      rw [hitems] at hread
      exact hitems ▸ hread

/-- A long name moves what the options mean to lines of their own, and nothing gets lost. -/
theorem respond_schema_wide :
    let name := "a_name_as_wide_as_thirty_five_signs"
    let d : Declaration := ⟨["alpha", name], by decide, by decide⟩
    let s := Schema.ofDeclaration "driver" d
    CommandLine.isStacked (s.entries.map OptionEntry.row) = true ∧
      Description.read s.describe = [("help", "Produce this help message"),
        ("output_dir", "Directory to write simulation outputs"),
        ("alpha", "Set the value of alpha"),
        (name, "Set the value of a_name_as_wide_as_thirty_five_signs")] ∧
      ∃ text warnings,
        (respond none (["schema", "-p", "alpha," ++ name, "--json"].map Utf8.encode) :
          StateM FileTree Transcript) FileTree.empty =
            (⟨0, Utf8.encode text, warnings, .none⟩, FileTree.empty) ∧
        ∃ items, Json.read? text = some (.array items) ∧
          items.map (Json.member? "name") =
            ["help", "output_dir", "alpha", name].map (some ∘ Json.text) := by
  intro name d s
  obtain ⟨hdescribed, hshown⟩ := respond_schema
  have hparse : parse (["schema", "-p", "alpha," ++ name, "--json"].map Utf8.encode) =
      .ok ⟨none, none, ["alpha", name], none, .schema true⟩ :=
    eq_ok_of_toOption (by decide +kernel)
  have hstored : DeclarationFile.NamesIn FileTree.empty none [] := rfl
  have hload := DeclarationFile.load_of_namesIn hstored ["alpha", name]
  have hdeclared : Declaration.ofNames ([] ++ ["alpha", name]) = .ok d :=
    Declaration.ofNames_names d
  rw [hdeclared] at hload
  refine ⟨by decide +kernel, (hdescribed "driver" d (by decide)).2.2, ?_⟩
  obtain ⟨text, warnings, hrespond, -, hjson⟩ :=
    hshown none FileTree.empty _ _ true .standard d hparse rfl rfl (congrArg Prod.fst hload)
  obtain ⟨items, hread, hnames, -⟩ := hjson rfl
  exact ⟨text, warnings, hrespond, items, hread, hnames⟩

end Generator

end PointDriver

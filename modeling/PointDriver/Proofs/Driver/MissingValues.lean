import PointDriver.Proofs.Driver.Runs

/-!
# Values that are never missing

Checking looks at which options are present, and taking a value looks at the texts. Because
the two agree on everything that can be parsed, a value that is taken after the checks is
there: no run of a driver ends for want of a value.
-/

namespace PointDriver

/-- The words of a missing value are those of no other error. -/
theorem DriverError.joinChain_ne_missingValue {e : DriverError}
    (he : ∀ missing, e ≠ .missingValue missing) (name : String) :
    joinChain e.chain ≠ joinChain (DriverError.missingValue name).chain := by
  have hmissing : joinChain (DriverError.missingValue name).chain =
      "Option --" ++ name ++ " was not supplied" := rfl
  -- The other errors have another first or another last character.
  have hfirst : (joinChain (DriverError.missingValue name).chain).toList.head? = some 'O' := by
    simp [hmissing]
  have hlast : (joinChain (DriverError.missingValue name).chain).toList.getLast? = some 'd' := by
    rw [hmissing, String.toList_append, List.getLast?_append]
    rfl
  intro h
  rw [← h] at hfirst hlast
  cases e with
  | missingValue missing => exact he missing rfl
  | commandLine command fault =>
      have hjoin : joinChain (DriverError.commandLine command fault).chain =
          "Failed to parse command line" ++ ": " ++ fault.text command := rfl
      simp [hjoin] at hfirst
  | output fault =>
      have hjoin : joinChain (DriverError.output fault).chain =
          "Failed to write driver output" ++ ": " ++ fault.message := rfl
      simp [hjoin] at hfirst
  | invalidDouble name value =>
      have hjoin : joinChain (DriverError.invalidDouble name value).chain =
          (DriverError.invalidDouble name value).message ++ ": " ++
            (if (trim value.toList).isEmpty then "cannot parse float from empty string"
              else "invalid float literal") := rfl
      rw [hjoin, String.toList_append, List.getLast?_append] at hlast
      split at hlast <;> simp at hlast

namespace Schema
variable {program : String} {d : Declaration} {vector : List Bytes}

/-- What is parsed was collected from a reading. -/
theorem exists_collect_of_parse {s : Schema} {o : ParsedOptions} (h : s.parse vector = .ok o) :
    ∃ r, o = s.collect r := by
  rw [parse] at h
  cases hs : CommandLine.scanOptions s.table (vector.drop 1) with
  | error fault =>
      rw [hs] at h
      cases h
  | ok r =>
      rw [hs] at h
      exact ⟨r, (Except.ok.inj h).symm⟩

/-- A run fails with the error of its arguments, or because it cannot write. -/
theorem error_of_run {s : Schema} {sink : Sink} {e : DriverError}
    (h : (s.run vector sink).1 = .error e) :
    s.evaluate vector = .error e ∨ ∃ fault, e = .output fault := by
  cases he : s.evaluate vector with
  | error fault =>
      rw [run_of_error he] at h
      exact Or.inl (congrArg Except.error (Except.error.inj h))
  | ok evaluation =>
      rw [run_of_ok he] at h
      split at h
      · cases h
      · exact Or.inr ⟨_, (Except.error.inj h).symm⟩

/-- What an execution reports is the failure of its startup or the error of the run. -/
theorem reported_of_execute {s : Schema} {runtime : Runtime} {sink : Sink} {text : String}
    (h : .error text ∈ (s.execute runtime vector sink).hooks) :
    (∃ chain, runtime.startupFailure = some chain ∧ text = joinChain chain) ∨
      ∃ e, (s.run vector sink).1 = .error e ∧ text = joinChain e.chain := by
  cases hs : runtime.startupFailure with
  | some chain =>
      rw [execute, execute_of_startupFailure hs] at h
      exact Or.inl ⟨chain, rfl, by simpa [joinChain] using h⟩
  | none =>
      rw [execute_of_run hs] at h
      rcases hrun : s.run vector sink with ⟨e | status, after⟩
      · rw [hrun] at h
        exact Or.inr ⟨e, rfl, by simpa [joinChain] using h⟩
      · rw [hrun] at h
        simp at h

theorem evaluate_ne_missingValue (missing : String) :
    (ofDeclaration program d).evaluate vector ≠ .error (.missingValue missing) := by
  intro h
  rcases error_of_evaluate h with ⟨fault, he⟩ | ⟨name, -, value, he⟩
  · cases he
  · cases he

theorem run_ne_missingValue (sink : Sink) (missing : String) :
    ((ofDeclaration program d).run vector sink).1 ≠ .error (.missingValue missing) := by
  intro h
  rcases error_of_run h with he | ⟨fault, he⟩
  · exact evaluate_ne_missingValue missing he
  · cases he

section Collected
variable {r : CommandLine.Reading}

theorem mem_valueNames_of_value? {name text : String}
    (h : ((ofDeclaration program d).collect r).value? name = some text) :
    name ∈ d.valueNames := by
  rw [value?_collect] at h
  by_contra hn
  simp [hn] at h

theorem value?_helpName : ((ofDeclaration program d).collect r).value? helpName = none := by
  rw [value?_collect, if_neg]
  exact fun hn => d.ne_helpName_of_mem_valueNames hn rfl

/-- What is present is an option of the schema. -/
theorem mem_entries_of_isPresent {name : String}
    (h : ((ofDeclaration program d).collect r).isPresent name = true) :
    name ∈ (ofDeclaration program d).entries.map (·.name) := by
  have hnames : (ofDeclaration program d).entries.map (·.name) = d.optionNames := by
    simp [ofDeclaration, Declaration.optionNames, Declaration.valueNames,
      OptionEntry.helpFlag, OptionEntry.outputDir, OptionEntry.parameter, Function.comp_def]
  rw [hnames]
  rcases (isPresent_collect_iff r name).mp h with ⟨rfl, -⟩ | ⟨text, ht⟩
  · exact List.mem_cons_self
  · exact List.mem_cons_of_mem _ (mem_valueNames_of_value? ht)

/-- What is ready has a text for every option that takes one. -/
theorem exists_value_of_ready
    (h : validate (ofDeclaration program d) ((ofDeclaration program d).collect r) = .ready)
    {name : String} (hn : name ∈ d.valueNames) :
    ∃ text, ((ofDeclaration program d).collect r).value? name = some text :=
  (isPresent_collect_of_ne r (d.ne_helpName_of_mem_valueNames hn)).mp (isPresent_of_ready h name hn)

end Collected

/-- Whatever the arguments are, the options that are parsed are options of the schema. The
directory and the parameters are present exactly when they have a text, and help has none. Once
nothing is missing, the directory is there and a parameter can only be no number. So no
evaluation, no run and no execution ends for want of a value; only a startup may fail in these
words. -/
theorem missingValue_unreachable (d : Declaration) (program : String) (vector : List Bytes) :
    let s := ofDeclaration program d
    (∀ o, s.parse vector = .ok o →
      (∀ name ∈ d.valueNames, o.isPresent name = true ↔ ∃ text, o.value? name = some text) ∧
      (∀ name, o.isPresent name = true → name ∈ s.entries.map (·.name)) ∧
      (∀ name text, o.value? name = some text → name ∈ d.valueNames) ∧
      o.value? helpName = none ∧
      (validate s o = .ready →
        (∃ dir, o.string outputDirName = .ok dir) ∧
        ∀ name ∈ d.names, (∃ x, o.double name = .ok x) ∨
          ∃ text, o.double name = .error (.invalidDouble name text))) ∧
    ∀ missing,
      s.evaluate vector ≠ .error (.missingValue missing) ∧
      (∀ sink, (s.run vector sink).1 ≠ .error (.missingValue missing)) ∧
      ∀ runtime sink,
        let words := joinChain (DriverError.missingValue missing).chain
        .error words ∈ (s.execute runtime vector sink).hooks →
          ∃ chain, runtime.startupFailure = some chain ∧ words = joinChain chain := by
  refine ⟨fun o ho => ?_, fun missing => ⟨?_, ?_, ?_⟩⟩
  · obtain ⟨r, rfl⟩ := exists_collect_of_parse ho
    refine ⟨fun name hn => ?_, fun name => mem_entries_of_isPresent,
      fun name text => mem_valueNames_of_value?, value?_helpName, fun hready => ⟨?_, ?_⟩⟩
    · exact isPresent_collect_of_ne r (d.ne_helpName_of_mem_valueNames hn)
    · obtain ⟨dir, hdir⟩ := exists_value_of_ready hready (List.mem_cons_self : outputDirName ∈ _)
      exact ⟨dir, by rw [ParsedOptions.string, hdir]⟩
    · intro name hn
      obtain ⟨text, ht⟩ := exists_value_of_ready hready (List.mem_cons_of_mem _ hn)
      exact (double_cases ht).imp_right fun h => ⟨text, h⟩
  · exact evaluate_ne_missingValue missing
  · exact fun sink => run_ne_missingValue sink missing
  · intro runtime sink words h
    refine (reported_of_execute h).resolve_right ?_
    rintro ⟨e, he, hwords⟩
    refine e.joinChain_ne_missingValue ?_ missing hwords.symm
    rintro other rfl
    exact run_ne_missingValue sink other he

/-- A parameter with an empty text is there, and it is no number. The words of a missing value
come from a startup that fails with them. -/
theorem missingValue_unreachable_empty_text :
    let s := ofDeclaration "driver" (.single "alpha" (by decide))
    let vector := [Utf8.encode "driver", Utf8.encode "--alpha=", Utf8.encode "--output_dir",
      Utf8.encode "o"]
    let o : ParsedOptions := ⟨["output_dir", "alpha"], [("output_dir", "o"), ("alpha", "")]⟩
    (s.parse vector = .ok o ∧ o.value? helpName = none ∧ validate s o = .ready ∧
      ((∃ x, o.double "alpha" = .ok x) ∨
        ∃ text, o.double "alpha" = .error (.invalidDouble "alpha" text))) ∧
    ∃ chain, some ["Option --alpha was not supplied"] = some chain ∧
      "Option --alpha was not supplied" = joinChain chain := by
  intro s vector o
  have hparse : s.parse vector = .ok o := by decide +kernel
  have hready : validate s o = .ready := by decide +kernel
  obtain ⟨hparsed, hnever⟩ := missingValue_unreachable (.single "alpha" (by decide)) "driver" vector
  obtain ⟨-, -, -, hhelp, hvalues⟩ := hparsed o hparse
  obtain ⟨-, halpha⟩ := hvalues hready
  obtain ⟨-, -, hwords⟩ := hnever "alpha"
  refine ⟨⟨hparse, hhelp, hready, halpha "alpha" List.mem_cons_self⟩, ?_⟩
  exact hwords ⟨some ["Option --alpha was not supplied"], .standard⟩ .unlimited (by decide +kernel)

end Schema

end PointDriver

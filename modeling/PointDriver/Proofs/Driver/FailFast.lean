import PointDriver.Proofs.Output.Texts
import PointDriver.Proofs.Schema.ArgumentGrammar
import PointDriver.Proofs.Schema.Entries

/-!
# The first thing that is missing

A driver that is asked for help, or lacks an option, decides by the names of the
given options alone: help first, then the directory, then the parameters in
declaration order. The values are not looked at, so any text in their place has
the same outcome.
-/

namespace PointDriver

/-- What keeps a driver from its work when options of these names are given. -/
def firstLack (d : Declaration) (given : List String) : Option Evaluation :=
  if helpName ∈ given then some .help
  else if outputDirName ∉ given then some .missingOutputDir
  else (d.names.find? fun n => !decide (n ∈ given)).map .missingParameter

theorem firstLack_help {d : Declaration} {given : List String} (h : helpName ∈ given) :
    firstLack d given = some .help := by
  simp [firstLack, h]

theorem firstLack_outputDir {d : Declaration} {given : List String} (hh : helpName ∉ given)
    (ho : outputDirName ∉ given) : firstLack d given = some .missingOutputDir := by
  simp [firstLack, hh, ho]

/-- The parameter reported as missing is absent, and all declared before it are given. -/
theorem firstLack_parameter {d : Declaration} {given before after : List String} {name : String}
    (hh : helpName ∉ given) (ho : outputDirName ∈ given) (hd : d.names = before ++ name :: after)
    (hb : ∀ n ∈ before, n ∈ given) (hn : name ∉ given) :
    firstLack d given = some (.missingParameter name) := by
  have hf : before.find? (fun n => !decide (n ∈ given)) = none :=
    List.find?_eq_none.mpr fun n hm => by simp [hb n hm]
  simp [firstLack, hh, ho, hd, List.find?_append, hf, hn]

theorem exists_firstLack {d : Declaration} {given : List String}
    (h : helpName ∈ given ∨ ∃ n ∈ d.valueNames, n ∉ given) :
    ∃ evaluation, firstLack d given = some evaluation := by
  by_cases hh : helpName ∈ given
  · exact ⟨_, firstLack_help hh⟩
  by_cases ho : outputDirName ∈ given
  · obtain ⟨n, hm, hn⟩ := h.resolve_left hh
    have hd : n ∈ d.names := by
      rcases List.mem_cons.mp hm with rfl | hd
      · exact absurd ho hn
      · exact hd
    cases hf : d.names.find? fun n => !decide (n ∈ given) with
    | none => exact absurd (List.find?_eq_none.mp hf n hd) (by simp [hn])
    | some name => exact ⟨.missingParameter name, by simp [firstLack, hh, ho, hf]⟩
  · exact ⟨_, firstLack_outputDir hh ho⟩

/-- The execution ends with the exit code and writes the text, and the only hooks it calls
are those for startup and shutdown. -/
structure EndsQuietly (run : Execution) (sink : Sink) (code : UInt8) (text : String) : Prop where
  code : run.code = some code
  hooks : run.hooks = [.startup, .shutdown]
  stored : run.sink.stored = sink.stored ++ Utf8.encode text

namespace Schema
variable {program : String} {d : Declaration} {items : List Item} {vector : List Bytes}

theorem validate_ofDeclaration (o : ParsedOptions) :
    validate (ofDeclaration program d) o =
      if o.help then .help
      else if !o.isPresent outputDirName then .missingOutputDir
      else match d.names.find? fun n => !o.isPresent n with
        | some n => .missingParameter n
        | none => .ready := by
  have hf : (d.names.map OptionEntry.parameter).find? (fun e => !o.isPresent e.name) =
      (d.names.find? fun n => !o.isPresent n).map OptionEntry.parameter := by
    rw [List.find?_map]
    rfl
  rw [validate, parameters_ofDeclaration, hf]
  cases d.names.find? fun n => !o.isPresent n <;> rfl

/-- With a reason to stop, no value is looked at. -/
theorem evaluate_of_firstLack (h : Spells d items vector.tail) {evaluation : Evaluation}
    (hl : firstLack d (items.map Item.name) = some evaluation) :
    (ofDeclaration program d).evaluate vector = .ok evaluation := by
  have hp : ∀ n, ((ofDeclaration program d).collect
      (.settled (items.map Item.occurrence))).isPresent n = decide (n ∈ items.map Item.name) := by
    intro n
    rw [Bool.eq_iff_iff, isPresent_of_spells h]
    simp
  rw [evaluate, parse_of_spells h]
  simp only [bind, Except.bind, assess, validate_ofDeclaration, ParsedOptions.help, hp]
  unfold firstLack at hl
  split at hl
  · next hh =>
      obtain rfl := Option.some.inj hl
      simp only [hh, decide_true, if_true]
  split at hl
  · next hh ho =>
      obtain rfl := Option.some.inj hl
      simp only [hh, ho, decide_false, Bool.false_eq_true, if_false, Bool.not_false, if_true]
  · next hh ho =>
      obtain ⟨name, hf, rfl⟩ := Option.map_eq_some_iff.mp hl
      have hout : outputDirName ∈ items.map Item.name := not_not.mp ho
      simp only [hh, hout, hf, decide_false, decide_true, Bool.not_true, Bool.false_eq_true,
        if_false]

theorem execute_of_evaluate {s : Schema} {runtime : Runtime} {sink : Sink}
    {evaluation : Evaluation} (he : s.evaluate vector = .ok evaluation)
    (hs : runtime.startupFailure = none) (hl : sink.limit = none) :
    s.execute runtime vector sink =
      ⟨some ((statusOf evaluation).code runtime.codes), [.startup, .shutdown],
        sink.store (Utf8.encode (s.responseText evaluation))⟩ := by
  have hrun := run_of_ok he sink
  rw [Sink.fits_of_limit_none hl] at hrun
  simp only [execute, PointDriver.execute, hs, body, hrun]
  rfl

/-- Help, a missing directory and the first missing parameter, in this order, end a run
before any value is looked at. The outcome is the same when other values stand in their place. -/
theorem execute_failFast (d : Declaration) (program : String) (vector : List Bytes)
    (runtime : Runtime) (sink : Sink)
    (accepted : ∃ o, (ofDeclaration program d).parse vector = .ok o)
    (starts : runtime.startupFailure = none) (unlimited : sink.limit = none) :
    (∃ items, Spells d items vector.tail) ∧ ∀ items, Spells d items vector.tail →
      let s := ofDeclaration program d
      let run := s.execute runtime vector sink
      let given := items.map Item.name
      (.help ∈ items → EndsQuietly run sink runtime.codes.success (s.describe ++ "\n")) ∧
        (.help ∉ items → outputDirName ∉ given →
          EndsQuietly run sink 1 ("output_dir was not set.\n" ++ (s.describe ++ "\n"))) ∧
        (.help ∉ items → outputDirName ∈ given →
          ∀ before name after, d.names = before ++ name :: after →
            (∀ n ∈ before, n ∈ given) → name ∉ given →
            EndsQuietly run sink 1
              ("Parameter " ++ name ++ " was not set.\n" ++ (s.describe ++ "\n"))) ∧
        ∀ replaced others, Spells d others replaced.tail → others.map Item.name = given →
          (.help ∈ items ∨ ∃ n ∈ d.valueNames, n ∉ given) →
          s.execute runtime replaced sink = run := by
  obtain ⟨o, ho⟩ := accepted
  obtain ⟨spelled, hspelled, -⟩ := parse_eq_ok_iff.mp ho
  refine ⟨⟨spelled, hspelled⟩, fun items hi => ?_⟩
  have hhelp : helpName ∈ items.map Item.name ↔ .help ∈ items := by
    constructor
    · intro h
      obtain ⟨i, hm, hn⟩ := List.mem_map.mp h
      exact (name_eq_helpName_iff hi hm).mp hn ▸ hm
    · exact fun h => List.mem_map_of_mem h
  have hrun : ∀ {evaluation}, firstLack d (items.map Item.name) = some evaluation →
      EndsQuietly ((ofDeclaration program d).execute runtime vector sink) sink
        ((statusOf evaluation).code runtime.codes)
        ((ofDeclaration program d).responseText evaluation) := by
    intro evaluation hl
    rw [execute_of_evaluate (evaluate_of_firstLack hi hl) starts unlimited]
    exact ⟨rfl, rfl, Sink.stored_store_of_limit_none unlimited⟩
  refine ⟨?_, ?_, ?_, ?_⟩
  · intro h
    exact hrun (firstLack_help (hhelp.mpr h))
  · intro h hout
    exact hrun (firstLack_outputDir (hhelp.not.mpr h) hout)
  · intro h hout before name after hd hb hn
    exact hrun (firstLack_parameter (hhelp.not.mpr h) hout hd hb hn)
  · intro replaced others hothers hnames hlack
    obtain ⟨evaluation, hl⟩ := exists_firstLack (hlack.imp_left hhelp.mpr)
    rw [execute_of_evaluate (evaluate_of_firstLack hi hl) starts unlimited]
    rw [← hnames] at hl
    rw [execute_of_evaluate (evaluate_of_firstLack hothers hl) starts unlimited]

/-- A later value that is no number does not come before the first missing parameter. -/
theorem execute_missing_alpha :
    ∃ d : Declaration, d.names = ["alpha", "beta"] ∧
      EndsQuietly ((ofDeclaration "driver" d).execute ⟨none, ⟨7, 9⟩⟩
          [Utf8.encode "driver", Utf8.encode "--beta=junk", Utf8.encode "--output_dir",
            Utf8.encode "out"] .unlimited) .unlimited 1
        ("Parameter alpha was not set.\n" ++ ((ofDeclaration "driver" d).describe ++ "\n")) := by
  let d : Declaration := ⟨["alpha", "beta"], by decide, by decide⟩
  let vector := [Utf8.encode "driver", Utf8.encode "--beta=junk", Utf8.encode "--output_dir",
    Utf8.encode "out"]
  have hspells : Spells d [.attached "beta" "junk", .separate outputDirName "out"]
      vector.tail := by
    refine ⟨?_, by decide, Or.inl (by decide)⟩
    intro i hi
    rcases List.mem_cons.mp hi with rfl | hi
    · exact List.mem_cons_of_mem _ (List.mem_cons_of_mem _ List.mem_cons_self)
    · obtain rfl := List.mem_singleton.mp hi
      exact ⟨List.mem_cons_self, Or.inl (by decide)⟩
  obtain ⟨-, hrun⟩ := execute_failFast d "driver" vector ⟨none, ⟨7, 9⟩⟩ .unlimited
    ⟨_, parse_of_spells hspells⟩ rfl rfl
  obtain ⟨-, -, hmissing, -⟩ := hrun _ hspells
  exact ⟨d, rfl, hmissing (by decide) (by decide) [] "alpha" ["beta"] rfl (by simp) (by decide)⟩

end Schema

end PointDriver

import PointDriver.Proofs.Driver.Runs
import PointDriver.Proofs.Schema.Repetition

/-!
# Requests for help among other options

Arguments that use options well may still name one of them again. A request for
help decides a run whatever else is given, as long as no option is repeated. The
first repetition is an error in the arguments, and help is then not shown.
-/

namespace PointDriver
open CommandLine

/-- The arguments are legal items in order, perhaps with two dashes alone at the end.
An option may be used more than once. -/
structure Uses (d : Declaration) (items : List Item) (arguments : List Bytes) : Prop where
  legal : ∀ i ∈ items, i.Legal d
  words : arguments = items.flatMap Item.words ∨
    arguments = items.flatMap Item.words ++ [Utf8.encode "--"]

theorem spells_iff_uses {d : Declaration} {items : List Item} {arguments : List Bytes} :
    Spells d items arguments ↔ Uses d items arguments ∧ (items.map Item.name).Nodup := by
  constructor
  · intro h
    exact ⟨⟨h.legal, h.words⟩, h.distinct⟩
  · rintro ⟨h, hd⟩
    exact ⟨h.legal, hd, h.words⟩

/-- What is said about an option that is given again. -/
theorem joined_repeatedOption (command : String) (o : Spec) :
    ": ".intercalate (DriverError.commandLine command (.repeatedOption o)).chain =
      "Failed to parse command line: error: the argument '" ++ o.label ++
        "' cannot be used multiple times\n\n" ++ usageLine command ["[OPTIONS]"] ++ "\n" := by
  have hchain : (DriverError.commandLine command (.repeatedOption o)).chain =
      ["Failed to parse command line",
        "error: the argument '" ++ o.label ++ "' cannot be used multiple times" ++
          ("\n\n" ++ usageLine command ["[OPTIONS]"] ++ "\n")] := rfl
  have hfront : "Failed to parse command line: error: the argument '" =
      "Failed to parse command line" ++ (": " ++ "error: the argument '") := by decide
  have hbehind : "' cannot be used multiple times\n\n" =
      "' cannot be used multiple times" ++ "\n\n" := by decide
  rw [hchain, hfront, hbehind, String.intercalate_cons_cons, String.intercalate_singleton]
  simp only [String.append_assoc]

namespace Schema
variable {program : String} {d : Declaration} {vector : List Bytes}

/-- The first option that is given again is an error, whatever stands behind it. -/
theorem parse_of_repetition {before after : List Item} {i : Item}
    (h : Uses d (before ++ i :: after) vector.tail) (hd : (before.map Item.name).Nodup)
    (hi : i.name ∈ before.map Item.name) :
    (ofDeclaration program d).parse vector =
      .error (.commandLine ((ofDeclaration program d).commandName vector)
        (.repeatedOption (optionSpec i.name))) := by
  obtain ⟨hbefore, hbehind⟩ := List.forall_mem_append.mp h.legal
  obtain ⟨hlegal, hafter⟩ := List.forall_mem_cons.mp hbehind
  -- Two dashes alone at the end only settle what is pending, as the end itself does.
  obtain ⟨rest, hw, hrest⟩ : ∃ rest, vector.tail =
      before.flatMap Item.words ++ (i.words ++ (after.flatMap Item.words ++ rest)) ∧
        Settling (ofDeclaration program d).table rest := by
    rcases h.words with hw | hw
    · exact ⟨[], by simp [hw], settling_nil⟩
    · exact ⟨[Utf8.encode "--"], by simp [hw], encode_escape ▸ settling_escape⟩
  have hscan : scanOptions (ofDeclaration program d).table vector.tail =
      .error (.repeatedOption (optionSpec i.name)) := by
    rw [scanOptions_eq_readFrom, hw]
    exact readFrom_repeated hbefore hd hlegal hi (settling_items hafter hrest)
  rw [parse, List.drop_one, hscan]

/-- Among well-formed uses of options a request for help is answered, unless an option is
used more than once. The first repetition is then reported and nothing is written. -/
theorem execute_help_among_uses (d : Declaration) (program : String) (vector : List Bytes)
    (items : List Item) (runtime : Runtime) (sink : Sink)
    (uses : Uses d items vector.tail) (asked : .help ∈ items)
    (starts : runtime.startupFailure = none) (unlimited : sink.limit = none) :
    let s := ofDeclaration program d
    let run := s.execute runtime vector sink
    ((items.map Item.name).Nodup →
        EndsQuietly run sink runtime.codes.success (s.describe ++ "\n")) ∧
      (¬ (items.map Item.name).Nodup → ∃ before i after, items = before ++ i :: after ∧
        (before.map Item.name).Nodup ∧ i.name ∈ before.map Item.name ∧
        run = ⟨some runtime.codes.runtimeError,
          [.startup,
            .error ("Failed to parse command line: error: the argument '" ++
              (optionSpec i.name).label ++ "' cannot be used multiple times\n\n" ++
              usageLine (s.commandName vector) ["[OPTIONS]"] ++ "\n"),
            .shutdown], sink⟩) := by
  intro s run
  constructor
  · intro hd
    have hs : Spells d items vector.tail := spells_iff_uses.mpr ⟨uses, hd⟩
    have hlack : firstLack d (items.map Item.name) = some .help :=
      firstLack_help (List.mem_map_of_mem asked)
    have hrun : run = _ :=
      execute_of_evaluate (evaluate_of_firstLack hs hlack) starts unlimited
    rw [hrun]
    exact ⟨rfl, rfl, Sink.stored_store_of_limit_none unlimited⟩
  · intro hd
    obtain ⟨before, i, after, rfl, hbefore, hi⟩ := Item.exists_repetition hd
    refine ⟨before, i, after, rfl, hbefore, hi, ?_⟩
    have he : s.evaluate vector = .error (.commandLine (s.commandName vector)
        (.repeatedOption (optionSpec i.name))) := by
      rw [evaluate, parse_of_repetition uses hbefore hi]
      rfl
    have hrun : run = _ := execute_of_run starts sink
    rw [hrun, run_of_error he, ← joined_repeatedOption]

/-- Asking for help twice is an error, though nothing but help is asked for. -/
theorem execute_help_twice :
    (ofDeclaration "driver" (.single "alpha" (by decide))).execute ⟨none, .standard⟩
        [Utf8.encode "driver", Utf8.encode "--help", Utf8.encode "--help"] .unlimited =
      ⟨some 2,
        [.startup,
          .error ("Failed to parse command line: error: the argument '--help' cannot be used " ++
            "multiple times\n\nUsage: driver [OPTIONS]\n"),
          .shutdown], .unlimited⟩ := by
  let d : Declaration := .single "alpha" (by decide)
  let vector := [Utf8.encode "driver", Utf8.encode "--help", Utf8.encode "--help"]
  have huses : Uses d [.help, .help] vector.tail := by
    refine ⟨?_, Or.inl (by decide)⟩
    intro i hi
    obtain rfl : i = .help := by simpa using hi
    trivial
  obtain ⟨-, hrepeated⟩ := execute_help_among_uses d "driver" vector [.help, .help]
    ⟨none, .standard⟩ .unlimited huses (by decide) rfl rfl
  obtain ⟨before, i, after, hitems, -, -, hrun⟩ := hrepeated (by decide)
  obtain rfl : i = .help := by
    have hi : i ∈ [Item.help, Item.help] := hitems ▸ by simp
    simpa using hi
  refine hrun.trans ?_
  decide +kernel

/-- A repeated parameter keeps help from being shown. -/
theorem not_endsQuietly_of_uses :
    ¬ ∀ (d : Declaration) (program : String) (vector : List Bytes) (items : List Item)
        (runtime : Runtime) (sink : Sink), Uses d items vector.tail → .help ∈ items →
        runtime.startupFailure = none → sink.limit = none →
        EndsQuietly ((ofDeclaration program d).execute runtime vector sink) sink
          runtime.codes.success ((ofDeclaration program d).describe ++ "\n") := by
  intro h
  let d : Declaration := .single "alpha" (by decide)
  let items : List Item := [.attached "alpha" "1", .attached "alpha" "2", .help]
  let vector := [Utf8.encode "driver", Utf8.encode "--alpha=1", Utf8.encode "--alpha=2",
    Utf8.encode "--help"]
  have huses : Uses d items vector.tail := by
    refine ⟨?_, Or.inl (by decide)⟩
    intro i hi
    rcases List.mem_cons.mp hi with rfl | hi
    · exact List.mem_cons_of_mem _ List.mem_cons_self
    rcases List.mem_cons.mp hi with rfl | hi
    · exact List.mem_cons_of_mem _ List.mem_cons_self
    · obtain rfl := List.mem_singleton.mp hi
      trivial
  have hends := h d "driver" vector items ⟨none, .standard⟩ .unlimited huses (by decide) rfl rfl
  have hcode : some 2 = some ExitCodes.standard.success := by
    rw [← hends.code]
    decide +kernel
  exact absurd hcode (by decide)

end Schema

end PointDriver

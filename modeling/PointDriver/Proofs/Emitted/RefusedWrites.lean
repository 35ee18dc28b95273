import PointDriver.Proofs.Driver.Runs
import PointDriver.Proofs.Emitted.Agreement

/-!
# What a refused write is called

A sink that is full stops a generated driver and the driver that goes through
its schema at the same byte. The code of the generated driver hands on the
fault of the sink as it is. The other driver makes it the cause of an error of
its own, so the runtime is told more.
-/

namespace PointDriver.Emitted

section Cut
variable {program : String} {d : Declaration} {arguments : List Bytes} {limit : Nat}

/-- A driver with any output has evaluated its arguments, and its output is the text about the
evaluation. -/
theorem exists_evaluation_of_output
    (h : limit < ((Schema.ofDeclaration program d).run arguments .unlimited).2.stored.length) :
    ∃ evaluation, (Schema.ofDeclaration program d).evaluate arguments = .ok evaluation ∧
      ((Schema.ofDeclaration program d).run arguments .unlimited).2.stored =
        Utf8.encode ((Schema.ofDeclaration program d).responseText evaluation) := by
  cases he : (Schema.ofDeclaration program d).evaluate arguments with
  | error e =>
      rw [Schema.run_of_error he] at h
      exact absurd h (Nat.not_lt_zero limit)
  | ok evaluation =>
      refine ⟨evaluation, rfl, ?_⟩
      rw [Schema.run_of_ok he]
      exact Sink.stored_store_of_limit_none rfl

/-- Both kinds of work stop where the sink is full. They differ in what they make of it. -/
theorem bodies_of_cut (failFlush : Bool)
    (cut : limit < ((Schema.ofDeclaration program d).run arguments .unlimited).2.stored.length) :
    let s := Schema.ofDeclaration program d
    let sink : Sink := ⟨[], some limit, failFlush⟩
    let after : Sink :=
      ⟨(s.run arguments .unlimited).2.stored.take limit, some limit, failFlush⟩
    (driverCode program d.names).body arguments sink = (.failed [SinkFault.full.message], after) ∧
      s.body arguments sink = (.failed (DriverError.output .full).chain, after) := by
  intro s sink after
  obtain ⟨evaluation, he, houtput⟩ := exists_evaluation_of_output cut
  have hfull : sink.fits (Utf8.encode (s.responseText evaluation)) = false := by
    rw [houtput] at cut
    rw [Sink.fits_of_empty, decide_eq_false_iff_not, Nat.not_le]
    exact cut
  have hafter : sink.store (Utf8.encode (s.responseText evaluation)) = after := by
    rw [Sink.store_of_empty, ← houtput]
  constructor
  · rw [body_driverCode, he]
    dsimp only
    rw [responded, s.writes_respond evaluation sink, hfull, hafter]
    rfl
  · rw [Schema.body, Schema.run_of_ok he sink, hfull, hafter]
    rfl

end Cut

/-- When its output does not fit into the sink, a generated driver tells its runtime the fault of
the sink and nothing else. The driver that goes through its schema tells what it was doing as
well. In all other respects the two end alike, wherever the cut falls. -/
theorem execute_refused_write (d : Declaration) (settings : DriverSettings)
    (arguments : List Bytes) (limit : Nat) (failFlush : Bool) (runtime : Runtime)
    (starts : runtime.startupFailure = none)
    (cut : limit <
      ((Schema.ofDeclaration settings.program d).run arguments .unlimited).2.stored.length) :
    let s := Schema.ofDeclaration settings.program d
    let code := driverCode settings.program d.names
    let sink : Sink := ⟨[], some limit, failFlush⟩
    let ending (message : String) : Execution :=
      ⟨some runtime.codes.runtimeError, [.startup, .error message, .shutdown],
        ⟨(s.run arguments .unlimited).2.stored.take limit, some limit, failFlush⟩⟩
    (Quotable settings.program →
        ∃ source, (∀ (m : Type → Type) [Monad m] [LawfulMonad m] [Files m],
            (Package.Renderer.builtIn.renderDriver d settings : Generating m String) =
              pure source) ∧ Code.read? source = some code) ∧
      execute runtime sink (code.body arguments) = ending "disk full" ∧
      s.execute runtime arguments sink = ending "Failed to write driver output: disk full" := by
  intro s code sink ending
  obtain ⟨hgenerated, hinterpreted⟩ := bodies_of_cut failFlush cut
  refine ⟨fun quotable => ?_, ?_, ?_⟩
  · exact ⟨_, fun m _ _ _ => Package.Renderer.renderDriver_builtIn d settings,
      read?_sourceLines d quotable⟩
  · rw [execute_of_ending starts, hgenerated]
    rfl
  · rw [Schema.execute, execute_of_ending starts, hinterpreted]
    rfl

/-- The cut falls into the second line of a report. -/
theorem execute_refused_parameter_line :
    let d : Declaration := ⟨["alpha"], by decide, by decide⟩
    let settings : DriverSettings := ⟨"driver", "lifecycle"⟩
    let arguments := ["driver", "--output_dir=o", "--alpha", "1.5"].map Utf8.encode
    execute ⟨none, .standard⟩ ⟨[], some 30, true⟩
        ((driverCode settings.program d.names).body arguments) =
      ⟨some 2, [.startup, .error "disk full", .shutdown],
        ⟨Utf8.encode "Output will be saved to o\nalph", some 30, true⟩⟩ := by
  intro d settings arguments
  have houtput : ((Schema.ofDeclaration settings.program d).run arguments .unlimited).2.stored =
      Utf8.encode "Output will be saved to o\nalpha: 1.500000\n" := by decide +kernel
  have htaken : (Utf8.encode "Output will be saved to o\nalpha: 1.500000\n").take 30 =
      Utf8.encode "Output will be saved to o\nalph" := by decide +kernel
  have cut : 30 <
      ((Schema.ofDeclaration settings.program d).run arguments .unlimited).2.stored.length := by
    rw [houtput]
    decide +kernel
  obtain ⟨-, hgenerated, -⟩ :=
    execute_refused_write d settings arguments 30 true ⟨none, .standard⟩ rfl cut
  rw [hgenerated, houtput, htaken]
  rfl

/-- The two drivers do not tell their runtimes the same about a full sink. -/
theorem not_hooks_eq_of_cut :
    ¬ ∀ (d : Declaration) (settings : DriverSettings) (source : String) (code : Code)
        (arguments : List Bytes) (options : ParsedOptions) (limit : Nat) (runtime : Runtime),
      Quotable settings.program →
      (Package.Renderer.builtIn.renderDriver d settings :
        Generating (StateM FileTree) String) = pure source →
      Code.read? source = some code →
      runtime.startupFailure = none →
      (Schema.ofDeclaration settings.program d).parse arguments = .ok options →
      limit < ((Schema.ofDeclaration settings.program d).run arguments .unlimited).2.stored.length →
      (execute runtime ⟨[], some limit, false⟩ (code.body arguments)).hooks =
        ((Schema.ofDeclaration settings.program d).execute runtime arguments
          ⟨[], some limit, false⟩).hooks := by
  intro h
  let d : Declaration := ⟨[], by simp, by simp⟩
  let settings : DriverSettings := ⟨"driver", "lifecycle"⟩
  let arguments := ["driver", "--output_dir=o"].map Utf8.encode
  have hquotable : Quotable settings.program := by decide
  have cut :
      5 < ((Schema.ofDeclaration settings.program d).run arguments .unlimited).2.stored.length := by
    decide +kernel
  have hparse : (Schema.ofDeclaration settings.program d).parse arguments =
      .ok ⟨["output_dir"], [("output_dir", "o")]⟩ := by decide +kernel
  have hhooks := h d settings _ _ arguments _ 5 ⟨none, .standard⟩ hquotable
    (Package.Renderer.renderDriver_builtIn d settings) (read?_sourceLines d hquotable) rfl hparse
    cut
  obtain ⟨hgenerated, hinterpreted⟩ := bodies_of_cut false cut
  rw [execute_of_ending rfl, Schema.execute, execute_of_ending rfl, hgenerated, hinterpreted]
    at hhooks
  exact absurd hhooks (by decide +kernel)

end PointDriver.Emitted

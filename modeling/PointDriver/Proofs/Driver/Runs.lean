import PointDriver.Proofs.Lifecycle.Guard
import PointDriver.Proofs.Driver.FailFast

/-!
# Runs with little room

A driver evaluates its arguments before it writes anything, so an error about
them leaves the sink as it was. After that it writes one text. In a sink with
less room the start of that text is stored, wherever the cut falls, and the
run fails exactly when something is cut off.
-/

namespace PointDriver

namespace Sink
variable (limit : Nat) (failFlush : Bool) (bytes : Bytes)

theorem store_of_empty :
    (Sink.mk [] (some limit) failFlush).store bytes =
      ⟨bytes.take limit, some limit, failFlush⟩ := rfl

theorem fits_of_empty :
    (Sink.mk [] (some limit) failFlush).fits bytes = decide (bytes.length ≤ limit) := rfl

end Sink

namespace Schema
variable {program : String} {d : Declaration} {vector : List Bytes}

/-- How a run ends decides how its execution ends, once the runtime has started. -/
theorem execute_of_run {s : Schema} {runtime : Runtime} (h : runtime.startupFailure = none)
    (sink : Sink) :
    s.execute runtime vector sink = match s.run vector sink with
      | (.ok status, after) => ⟨some (runtime.exitCode status), [.startup, .shutdown], after⟩
      | (.error e, after) =>
          ⟨some runtime.codes.runtimeError,
            [.startup, .error (": ".intercalate e.chain), .shutdown], after⟩ := by
  rw [execute, execute_of_ending h, body]
  rcases s.run vector sink with ⟨e | status, after⟩
  · rfl
  · rfl

/-- The error of reading numbers is the error of one of them. -/
theorem exists_double_of_readValues {o : ParsedOptions} {names : List String} {e : DriverError}
    (h : readValues o names = .error e) : ∃ name ∈ names, o.double name = .error e := by
  induction names with
  | nil => cases h
  | cons name rest ih =>
      cases hx : o.double name with
      | error fault =>
          rw [readValues, hx] at h
          obtain rfl := Except.error.inj h
          exact ⟨name, List.mem_cons_self, hx⟩
      | ok x =>
          cases hrest : readValues o rest with
          | ok values =>
              rw [readValues, hx, hrest] at h
              cases h
          | error fault =>
              rw [readValues, hx, hrest] at h
              obtain rfl := Except.error.inj h
              obtain ⟨other, hm, hd⟩ := ih hrest
              exact ⟨other, List.mem_cons_of_mem _ hm, hd⟩

/-- Options that are assessed with an error lack nothing, and the error is that of the directory
or of a parameter. -/
theorem error_of_assess {s : Schema} {o : ParsedOptions} {e : DriverError}
    (h : s.assess o = .error e) :
    validate s o = .ready ∧ (o.string outputDirName = .error e ∨
      ∃ name ∈ s.parameters.map (·.name), o.double name = .error e) := by
  unfold assess at h
  split at h
  · cases h
  · cases h
  · cases h
  next hready =>
  refine ⟨hready, ?_⟩
  cases hdir : o.string outputDirName with
  | error fault =>
      rw [hdir] at h
      exact Or.inl (congrArg Except.error (Except.error.inj h))
  | ok dir =>
      rw [hdir] at h
      cases hread : readValues o (s.parameters.map (·.name)) with
      | ok values =>
          rw [hread] at h
          cases h
      | error fault =>
          rw [hread] at h
          obtain rfl := Except.error.inj h
          exact Or.inr (exists_double_of_readValues hread)

/-- What is ready has a directory and a value for every parameter. -/
theorem isPresent_of_ready {o : ParsedOptions}
    (h : validate (ofDeclaration program d) o = .ready) :
    ∀ name ∈ d.valueNames, o.isPresent name = true := by
  rw [validate_ofDeclaration] at h
  split at h
  · cases h
  split at h
  · cases h
  next hdir =>
  split at h
  · cases h
  next hnames =>
  intro name hm
  rcases List.mem_cons.mp hm with rfl | hm
  · simpa using hdir
  · simpa using List.find?_eq_none.mp hnames name hm

/-- An option with a text is a number, or its text is none. -/
theorem double_cases {o : ParsedOptions} {name text : String} (h : o.value? name = some text) :
    (∃ x, o.double name = .ok x) ∨ o.double name = .error (.invalidDouble name text) := by
  rw [ParsedOptions.double, h]
  cases hx : Double.read? (trim text.toList) with
  | some x => exact Or.inl ⟨x, by simp only [hx]⟩
  | none => exact Or.inr (by simp only [hx])

/-- With everything present, only a value that is no number is an error. -/
theorem invalidDouble_of_assess {r : CommandLine.Reading} {e : DriverError}
    (h : (ofDeclaration program d).assess ((ofDeclaration program d).collect r) = .error e) :
    ∃ name ∈ d.names, ∃ value, e = .invalidDouble name value := by
  obtain ⟨hready, he⟩ := error_of_assess h
  have hvalue : ∀ name ∈ d.valueNames,
      ∃ value, ((ofDeclaration program d).collect r).value? name = some value := by
    intro name hm
    apply (isPresent_collect_of_ne r (d.ne_helpName_of_mem_valueNames hm)).mp
    exact isPresent_of_ready hready name hm
  rw [map_name_parameters] at he
  rcases he with hdir | ⟨name, hm, hdouble⟩
  · obtain ⟨dir, hv⟩ := hvalue outputDirName List.mem_cons_self
    rw [ParsedOptions.string, hv] at hdir
    cases hdir
  · obtain ⟨value, hv⟩ := hvalue name (List.mem_cons_of_mem _ hm)
    refine ⟨name, hm, value, ?_⟩
    rcases double_cases hv with ⟨x, hx⟩ | hx
    · rw [hx] at hdouble
      cases hdouble
    · rw [hx] at hdouble
      exact (Except.error.inj hdouble).symm

/-- Arguments that cannot be evaluated cannot be read, or hold a value that is no number. -/
theorem error_of_evaluate {e : DriverError}
    (h : (ofDeclaration program d).evaluate vector = .error e) :
    (∃ fault, e = .commandLine ((ofDeclaration program d).commandName vector) fault) ∨
      ∃ name ∈ d.names, ∃ value, e = .invalidDouble name value := by
  rw [evaluate, parse] at h
  cases hs : CommandLine.scanOptions (ofDeclaration program d).table (vector.drop 1) with
  | error fault =>
      rw [hs] at h
      exact Or.inl ⟨fault, (Except.error.inj h).symm⟩
  | ok r =>
      rw [hs] at h
      exact Or.inr (invalidDouble_of_assess h)

/-- In a sink with little room a run fails with the error that it has anyway and stores
nothing, or it stores what there is room for of its text. It then ends as it does with room
for everything, unless something was cut off. A failing flush changes nothing. -/
theorem run_in_little_room (d : Declaration) (program : String) (vector : List Bytes)
    (limit : Nat) (failFlush : Bool) (runtime : Runtime)
    (starts : runtime.startupFailure = none) :
    let s := ofDeclaration program d
    let sink : Sink := ⟨[], some limit, failFlush⟩
    let free := s.run vector .unlimited
    (∀ e, free.1 = .error e →
      ((∃ fault, e = .commandLine (s.commandName vector) fault) ∨
          ∃ name ∈ d.names, ∃ value, e = .invalidDouble name value) ∧
        free.2.stored = [] ∧ s.run vector sink = (.error e, sink) ∧
        s.execute runtime vector sink =
          ⟨some runtime.codes.runtimeError,
            [.startup, .error (": ".intercalate e.chain), .shutdown], sink⟩) ∧
      ∀ status, free.1 = .ok status →
        let output := free.2.stored
        let after : Sink := ⟨output.take limit, some limit, failFlush⟩
        (output.length ≤ limit → s.run vector sink = (.ok status, after) ∧
            s.execute runtime vector sink =
              ⟨some (runtime.exitCode status), [.startup, .shutdown], after⟩) ∧
          (limit < output.length → s.run vector sink = (.error (.output .full), after) ∧
            s.execute runtime vector sink =
              ⟨some runtime.codes.runtimeError,
                [.startup, .error "Failed to write driver output: disk full", .shutdown],
                after⟩) := by
  intro s sink free
  -- The evaluation is complete before the first byte, and it does not depend on the sink.
  cases he : s.evaluate vector with
  | error e =>
      have hfree : free = (.error e, .unlimited) := run_of_error he .unlimited
      have hrun : s.run vector sink = (.error e, sink) := run_of_error he sink
      rw [hfree, execute_of_run starts, hrun]
      constructor
      · intro e' h
        obtain rfl := Except.error.inj h
        exact ⟨error_of_evaluate he, rfl, rfl, rfl⟩
      · intro status h
        cases h
  | ok evaluation =>
      let output := Utf8.encode (s.responseText evaluation)
      have hfree : free = (.ok (statusOf evaluation), ⟨output, none, false⟩) := by
        exact run_of_ok he .unlimited
      have hrun : s.run vector sink =
          (if output.length ≤ limit then .ok (statusOf evaluation) else .error (.output .full),
            ⟨output.take limit, some limit, failFlush⟩) := by
        rw [run_of_ok he, Sink.fits_of_empty, Sink.store_of_empty]
        simp only [decide_eq_true_eq]
        rfl
      rw [hfree, execute_of_run starts, hrun]
      constructor
      · intro e h
        cases h
      · intro status h
        obtain rfl := Except.ok.inj h
        constructor
        · intro fits
          simp only [if_pos fits, and_self]
        · intro cut
          simp only [if_neg (Nat.not_le.mpr cut), true_and]
          rfl

/-- The only line of a driver without parameters is cut off after five bytes. -/
theorem run_in_five_bytes :
    (ofDeclaration "driver" ⟨[], by simp, by simp⟩).execute ⟨none, .standard⟩
        [Utf8.encode "driver", Utf8.encode "--output_dir=o"] ⟨[], some 5, true⟩ =
      ⟨some 2, [.startup, .error "Failed to write driver output: disk full", .shutdown],
        ⟨Utf8.encode "Outpu", some 5, true⟩⟩ := by
  let d : Declaration := ⟨[], by simp, by simp⟩
  let vector := [Utf8.encode "driver", Utf8.encode "--output_dir=o"]
  have hfree : (ofDeclaration "driver" d).run vector .unlimited =
      (.ok .success, ⟨Utf8.encode "Output will be saved to o\n", none, false⟩) := by decide +kernel
  obtain ⟨-, hok⟩ := run_in_little_room d "driver" vector 5 true ⟨none, .standard⟩ rfl
  rw [hfree] at hok
  obtain ⟨-, hcut⟩ := hok .success rfl
  exact (hcut (by decide)).2

end Schema

end PointDriver

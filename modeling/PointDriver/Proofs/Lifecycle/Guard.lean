import PointDriver.Lifecycle.Execution
import PointDriver.Proofs.Output.Texts

/-!
# Guarded work

Work is a sequence of steps that write, until one of them ends it. The rules
say how each step goes on; a run follows them to exactly one ending. Around
that ending the hooks are called in a fixed order, and the shutdown is always
the last call and the only one of its kind.
-/

namespace PointDriver

namespace Script

/-- The text that a step writes, if it writes one. -/
def text? : Step → Option String
  | .write text => some text
  | .line text => some (text ++ "\n")
  | .outputDir dir => some ("Output will be saved to " ++ dir ++ "\n")
  | _ => none

/-- Work started with the first sink ends in this way and leaves the second sink behind.
A text that does not fit is stored as far as it fits. -/
inductive Ends : List Step → Sink → Ending → Sink → Prop
  | done {s} : Ends [] s (.finished .success) s
  | wrote {step rest text s ending after} (h : text? step = some text)
      (fits : s.fits (Utf8.encode text) = true)
      (tail : Ends rest (s.store (Utf8.encode text)) ending after) :
      Ends (step :: rest) s ending after
  | refused {step rest text s} (h : text? step = some text)
      (full : s.fits (Utf8.encode text) = false) :
      Ends (step :: rest) s (.failed ["disk full"]) (s.store (Utf8.encode text))
  | flushed {rest s ending after} (ok : s.failFlush = false) (tail : Ends rest s ending after) :
      Ends (.flush :: rest) s ending after
  | unflushed {rest s} (fails : s.failFlush = true) :
      Ends (.flush :: rest) s (.failed ["flush failed"]) s
  | finish {rest s status} : Ends (.finish status :: rest) s (.finished status) s
  | fail {rest s chain} : Ends (.fail chain :: rest) s (.failed chain) s
  | panic {rest s} : Ends (.panic :: rest) s .panicked s

theorem writing?_of_text? {step : Step} {text : String} (h : text? step = some text) :
    ∃ w, writing? step = some w ∧ Writes w text := by
  cases step with
  | write t =>
      obtain rfl := Option.some.inj h
      exact ⟨_, rfl, writes_write _⟩
  | line t =>
      obtain rfl := Option.some.inj h
      exact ⟨_, rfl, writes_write _⟩
  | outputDir dir =>
      obtain rfl := Option.some.inj h
      exact ⟨_, rfl, writes_write _⟩
  | flush => cases h
  | finish status => cases h
  | fail chain => cases h
  | panic => cases h

/-- The count of begun steps has no part in how a run ends. -/
theorem run_fst (steps : List Step) (s : Sink) (m n : Nat) :
    (run steps s m).1 = (run steps s n).1 := by
  induction steps generalizing s m n with
  | nil => rfl
  | cons step rest ih =>
      simp only [run]
      cases writing? step with
      | none => rfl
      | some w =>
          rcases hw : w s with ⟨_ | _, t⟩
          · simp [hw]
          · simpa [hw] using ih t (m + 1) (n + 1)

theorem body_cons_of_writes {step : Step} {rest : List Step} {s : Sink} {w : Writing Unit}
    (hw : writing? step = some w) :
    body (step :: rest) s = match w s with
      | (.ok (), t) => body rest t
      | (.error fault, t) => (.failed [fault.message], t) := by
  simp only [body, run, hw]
  rcases w s with ⟨_ | _, t⟩
  · rfl
  · exact run_fst rest t _ _

/-- A run follows the rules of its steps. -/
theorem ends_body (steps : List Step) (s : Sink) :
    Ends steps s (body steps s).1 (body steps s).2 := by
  induction steps generalizing s with
  | nil => exact .done
  | cons step rest ih =>
      cases ht : text? step with
      | some text =>
          obtain ⟨w, hw, hwrites⟩ := writing?_of_text? ht
          rw [body_cons_of_writes hw, hwrites s]
          cases hf : s.fits (Utf8.encode text) with
          | true => exact .wrote ht hf (ih _)
          | false => exact .refused ht hf
      | none =>
          cases step with
          | write t => cases ht
          | line t => cases ht
          | outputDir dir => cases ht
          | flush =>
              rw [body_cons_of_writes (w := Sink.flush) rfl]
              cases hf : s.failFlush with
              | true =>
                  simp only [Sink.flush, hf, if_true]
                  exact .unflushed hf
              | false =>
                  simp only [Sink.flush, hf]
                  exact .flushed hf (ih s)
          | finish status => exact .finish
          | fail chain => exact .fail
          | panic => exact .panic

/-- Work that does not flush by itself takes no notice of whether flushing fails. -/
theorem Ends.setFailFlush {steps : List Step} {s after : Sink} {ending : Ending}
    (h : Ends steps s ending after) (hf : .flush ∉ steps) (failFlush : Bool) :
    Ends steps { s with failFlush } ending { after with failFlush } := by
  induction h with
  | done => exact .done
  | wrote ht fits tail ih => exact .wrote ht fits (ih fun hm => hf (List.mem_cons_of_mem _ hm))
  | refused ht full => exact .refused ht full
  | flushed ok tail ih => exact absurd List.mem_cons_self hf
  | unflushed fails => exact absurd List.mem_cons_self hf
  | finish => exact .finish
  | fail => exact .fail
  | panic => exact .panic

/-- The rules leave no choice: what they allow is what a run does. -/
theorem Ends.body_eq {steps : List Step} {s after : Sink} {ending : Ending}
    (h : Ends steps s ending after) : body steps s = (ending, after) := by
  induction h with
  | done => rfl
  | wrote ht fits tail ih =>
      obtain ⟨w, hw, hwrites⟩ := writing?_of_text? ht
      rw [body_cons_of_writes hw, hwrites, fits]
      exact ih
  | refused ht full =>
      obtain ⟨w, hw, hwrites⟩ := writing?_of_text? ht
      rw [body_cons_of_writes hw, hwrites, full]
      rfl
  | flushed ok tail ih =>
      rw [body_cons_of_writes (w := Sink.flush) rfl, Sink.flush, ok]
      exact ih
  | unflushed fails =>
      rw [body_cons_of_writes (w := Sink.flush) rfl, Sink.flush, fails]
      rfl
  | finish => rfl
  | fail => rfl
  | panic => rfl

/-- A script ends by the rules exactly as it runs, so it ends in one way. -/
theorem ends_iff {steps : List Step} {s after : Sink} {ending : Ending} :
    Ends steps s ending after ↔ body steps s = (ending, after) := by
  constructor
  · exact Ends.body_eq
  · intro h
    have hends := ends_body steps s
    rwa [h] at hends

end Script

/-- The exit code of a runtime for work that ends with a status. -/
def Runtime.exitCode (runtime : Runtime) : Status → UInt8
  | .success => runtime.codes.success
  | .usageError => 1
  | .runtimeError => runtime.codes.runtimeError

theorem execute_of_startupFailure {runtime : Runtime} {chain : ErrorChain}
    (h : runtime.startupFailure = some chain) (sink : Sink) (body : Body) :
    execute runtime sink body =
      ⟨some runtime.codes.runtimeError, [.startup, .error (": ".intercalate chain), .shutdown],
        sink⟩ := by
  simp only [execute, h]
  rfl

theorem execute_of_ending {runtime : Runtime} (h : runtime.startupFailure = none) (sink : Sink)
    (body : Body) :
    execute runtime sink body = match body sink with
      | (.finished status, after) =>
          ⟨some (runtime.exitCode status), [.startup, .shutdown], after⟩
      | (.failed chain, after) =>
          ⟨some runtime.codes.runtimeError,
            [.startup, .error (": ".intercalate chain), .shutdown], after⟩
      | (.panicked, after) => ⟨none, [.startup, .shutdown], after⟩ := by
  simp only [execute, h]
  rcases body sink with ⟨status | chain | _, after⟩
  · cases status <;> rfl
  · rfl
  · rfl

/-- Work that ends alike for both settings of the flush is executed alike for both. -/
theorem execute_setFailFlush (runtime : Runtime) {sink : Sink} (body other : Body)
    {failFlush : Bool}
    (h : other { sink with failFlush } = ((body sink).1, { (body sink).2 with failFlush })) :
    (execute runtime { sink with failFlush } other).code = (execute runtime sink body).code ∧
      (execute runtime { sink with failFlush } other).hooks = (execute runtime sink body).hooks ∧
      (execute runtime { sink with failFlush } other).sink.stored =
        (execute runtime sink body).sink.stored := by
  cases hs : runtime.startupFailure with
  | some chain => simp only [execute_of_startupFailure hs, and_self]
  | none =>
      simp only [execute_of_ending hs, h]
      rcases body sink with ⟨status | chain | _, after⟩
      · exact ⟨rfl, rfl, rfl⟩
      · exact ⟨rfl, rfl, rfl⟩
      · exact ⟨rfl, rfl, rfl⟩

/-- An execution starts the runtime, reports the failure of its startup or of the work if
there is one, and shuts the runtime down; nothing else is called. Work is not begun when the
startup fails, work that is cut off leaves no code and no report, and whether the last flush
succeeds is not seen. Every script of steps ends by the rules in exactly one way. -/
theorem execute_guarded (runtime : Runtime) (sink : Sink) :
    (∀ body : Body,
      (∀ chain, runtime.startupFailure = some chain →
        execute runtime sink body =
          ⟨some runtime.codes.runtimeError,
            [.startup, .error (": ".intercalate chain), .shutdown], sink⟩) ∧
      (runtime.startupFailure = none →
        execute runtime sink body = match body sink with
          | (.finished status, after) =>
              ⟨some (runtime.exitCode status), [.startup, .shutdown], after⟩
          | (.failed chain, after) =>
              ⟨some runtime.codes.runtimeError,
                [.startup, .error (": ".intercalate chain), .shutdown], after⟩
          | (.panicked, after) => ⟨none, [.startup, .shutdown], after⟩) ∧
      ∀ failFlush : Bool,
        let other := execute runtime { sink with failFlush } fun _ =>
          ((body sink).1, { (body sink).2 with failFlush })
        other.code = (execute runtime sink body).code ∧
          other.hooks = (execute runtime sink body).hooks) ∧
    ∀ steps : List Script.Step,
      (∀ ending after, Script.Ends steps sink ending after ↔
        Script.body steps sink = (ending, after)) ∧
      (runtime.startupFailure ≠ none → Script.begun runtime sink steps = 0) ∧
      (.flush ∉ steps → ∀ failFlush : Bool,
        let other := execute runtime { sink with failFlush } (Script.body steps)
        let run := execute runtime sink (Script.body steps)
        other.code = run.code ∧ other.hooks = run.hooks ∧
          other.sink.stored = run.sink.stored) := by
  refine ⟨fun body => ⟨?_, ?_, ?_⟩, fun steps => ⟨fun ending after => ?_, ?_, ?_⟩⟩
  · intro chain h
    exact execute_of_startupFailure h sink body
  · intro h
    exact execute_of_ending h sink body
  · intro failFlush
    obtain ⟨hcode, hhooks, -⟩ := execute_setFailFlush runtime body
      (fun _ => ((body sink).1, { (body sink).2 with failFlush })) rfl
    exact ⟨hcode, hhooks⟩
  · exact Script.ends_iff
  · intro h
    cases hs : runtime.startupFailure with
    | none => exact absurd hs h
    | some chain => simp [Script.begun, hs]
  · intro hf failFlush
    apply execute_setFailFlush
    exact ((Script.ends_body steps sink).setFailFlush hf failFlush).body_eq

end PointDriver

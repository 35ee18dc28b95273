import PointDriver.SweepPoint

/-!
# The text that an activity writes

Writing pieces one after the other has the effect of writing them as one text:
the same bytes are stored, also when the sink becomes full on the way, and the
activity fails exactly when the whole text does not fit.
-/

namespace PointDriver

/-- The activity writes the text and does nothing else. -/
def Writes (w : Writing Unit) (text : String) : Prop :=
  ∀ s : Sink, w s =
    (if s.fits (Utf8.encode text) then .ok () else .error .full, s.store (Utf8.encode text))

/-- What comes second runs in the sink that the first leaves, unless the first fails. -/
theorem sink_bind {ε α β : Type} (v : ExceptT ε (StateM Sink) α) (f : α → ExceptT ε (StateM Sink) β)
    (s : Sink) : (v >>= f) s = match v s with
      | (.ok x, t) => f x t
      | (.error e, t) => (.error e, t) := by
  change (ExceptT.bind v f) s = _
  simp only [ExceptT.bind, ExceptT.mk, bind, StateT.bind]
  rcases v s with ⟨_ | _, t⟩ <;> rfl

theorem writing_bind {v w : Writing Unit} (s : Sink) :
    (do v; w : Writing Unit) s = match v s with
      | (.ok (), t) => w t
      | (.error e, t) => (.error e, t) := by
  refine (sink_bind v (fun _ => w) s).trans ?_
  rcases v s with ⟨_ | _, t⟩ <;> rfl

namespace Sink
variable {s : Sink} {a b : Bytes}

theorem fits_append : s.fits (a ++ b) = (s.fits a && (s.store a).fits b) := by
  cases h : s.limit with
  | none => simp [fits, store, room, h]
  | some n =>
      by_cases hn : a.length ≤ n - s.stored.length
      · simp only [fits, store, room, h, Option.map_some, List.length_append, List.length_take,
          Nat.min_eq_right hn, hn, decide_true, Bool.true_and, decide_eq_decide]
        omega
      · have hf : ¬ (a ++ b).length ≤ n - s.stored.length := by
          rw [List.length_append]
          omega
        simp only [fits, room, h, Option.map_some, hn, hf, decide_false, Bool.false_and]

/-- What follows a text that does not fit is not stored. -/
theorem store_append_of_not_fits (h : s.fits a = false) : s.store (a ++ b) = s.store a := by
  cases hl : s.limit with
  | none => simp [fits, room, hl] at h
  | some n =>
      simp only [fits, room, hl, Option.map_some, decide_eq_false_iff_not, Nat.not_le] at h
      simp only [store, room, hl, Option.map_some]
      rw [List.take_append_of_le_length (Nat.le_of_lt h)]

theorem fits_of_limit_none (h : s.limit = none) : s.fits a = true := by
  simp [fits, room, h]

theorem stored_store_of_limit_none (h : s.limit = none) :
    (s.store a).stored = s.stored ++ a := by
  simp [store, room, h]

end Sink

theorem writes_write (text : String) : Writes (Sink.write text) text := fun _ => rfl

theorem writes_pure : Writes (pure ()) "" := by
  intro s
  have hs : s.store [] = s := by
    cases hr : s.room <;> simp [Sink.store, hr]
  have hf : s.fits [] = true := by
    cases hr : s.room <;> simp [Sink.fits, hr]
  have he : Utf8.encode "" = [] := rfl
  rw [he, hs, hf]
  rfl

/-- Activities that write two texts in order write the whole text. -/
theorem Writes.bind {v w : Writing Unit} {a b : String} (hv : Writes v a) (hw : Writes w b) :
    Writes (do v; w) (a ++ b) := by
  intro s
  rw [writing_bind, hv s, Utf8.encode_append, Sink.fits_append]
  cases hf : s.fits (Utf8.encode a) with
  | true => simp [hw _, Sink.store_store]
  | false => simp [Sink.store_append_of_not_fits hf]

namespace Report

theorem writes_usage (s : Schema) : Writes (usage s) (usageText s) := writes_write _

theorem writes_missingOutputDir (s : Schema) :
    Writes (missingOutputDir s) (missingOutputDirLine ++ usageText s) :=
  (writes_write _).bind (writes_usage s)

theorem writes_missingParameter (s : Schema) (name : String) :
    Writes (missingParameter s name) (missingParameterLine name ++ usageText s) :=
  (writes_write _).bind (writes_usage s)

/-- The lines of parameters in order. -/
def parameterLines (values : List (String × Double)) : String :=
  String.join (values.map fun v => parameterLine v.1 v.2)

theorem writes_parameters (values : List (String × Double)) :
    Writes (parameters values) (parameterLines values) := by
  induction values with
  | nil => exact writes_pure
  | cons v rest ih =>
      have := (writes_write (parameterLine v.1 v.2)).bind ih
      rw [parameterLines] at this ⊢
      rwa [List.map_cons, String.join_cons]

end Report

/-- The lines about a point. -/
def SweepPoint.text (p : SweepPoint) : String :=
  Report.outputDirLine p.outputDir ++ Report.parameterLines p.values

theorem SweepPoint.writes_report (p : SweepPoint) : Writes p.report p.text :=
  (writes_write _).bind (Report.writes_parameters p.values)

namespace Schema

/-- All that is printed about an evaluation. -/
def responseText (s : Schema) : Evaluation → String
  | .help => Report.usageText s
  | .missingOutputDir => Report.missingOutputDirLine ++ Report.usageText s
  | .missingParameter name => Report.missingParameterLine name ++ Report.usageText s
  | .ready point => point.text

theorem writes_respond (s : Schema) (evaluation : Evaluation) :
    Writes (s.respond evaluation) (s.responseText evaluation) := by
  cases evaluation with
  | help => exact Report.writes_usage s
  | missingOutputDir => exact Report.writes_missingOutputDir s
  | missingParameter name => exact Report.writes_missingParameter s name
  | ready point => exact point.writes_report

section Run
variable {s : Schema} {vector : List Bytes}

/-- Arguments that cannot be evaluated leave the sink as it was. -/
theorem run_of_error {e : DriverError} (h : s.evaluate vector = .error e) (sink : Sink) :
    s.run vector sink = (.error e, sink) := by
  simp only [run, h]

/-- A run whose arguments are evaluated writes the text about the evaluation. -/
theorem run_of_ok {evaluation : Evaluation} (h : s.evaluate vector = .ok evaluation)
    (sink : Sink) :
    s.run vector sink =
      (if sink.fits (Utf8.encode (s.responseText evaluation)) then .ok (statusOf evaluation)
        else .error (.output .full),
        sink.store (Utf8.encode (s.responseText evaluation))) := by
  simp only [run, h, s.writes_respond evaluation sink]
  cases sink.fits (Utf8.encode (s.responseText evaluation)) <;> rfl

end Run

end Schema

end PointDriver

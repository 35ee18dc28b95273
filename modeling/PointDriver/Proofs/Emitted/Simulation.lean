import PointDriver.Proofs.Driver.FailFast
import PointDriver.Proofs.Emitted.Evaluation
import PointDriver.Proofs.Emitted.DriverCode

/-!
# The work of a driver's code

The code of a driver does, statement by statement, what the driver does by going
through its schema. The locals it needs keep their values because no parameter
has the name of another local or of another parameter.
-/

namespace PointDriver.Emitted

/-- How a function that does the work ends. -/
def outcome (run : Running Value) (sink : Sink) : Ending × Sink :=
  (Code.ending (Running.function run sink).1, (Running.function run sink).2)

theorem body_eq_outcome (code : Code) (arguments : List Bytes) (sink : Sink) :
    code.body arguments sink =
      outcome (runStatements (code.world arguments) [("out", .out)] code.drive) sink := rfl

section Outcome
variable {run : Value → Running Value} {sink : Sink}

theorem outcome_throw_bind (chain : ErrorChain) :
    outcome (throw (.returned (.failure chain)) >>= run) sink = (.failed chain, sink) := rfl

/-- Writes, and returns its failure. -/
def written (w : Writing Unit) : Running Value := do .attempt (← .ofWriting w)

theorem written_apply (w : Writing Unit) (sink : Sink) :
    written w sink = match w sink with
      | (.ok (), sink) => (.ok .unit, sink)
      | (.error fault, sink) => (.error (.returned (.failure [fault.message])), sink) := by
  rw [written, sink_bind, Running.ofWriting]
  rcases w sink with ⟨_ | _, t⟩ <;> rfl

theorem outcome_written_bind (w : Writing Unit) :
    outcome (written w >>= run) sink = match w sink with
      | (.ok (), sink) => outcome (run .unit) sink
      | (.error fault, sink) => (.failed [fault.message], sink) := by
  simp only [outcome, Running.function, sink_bind, written_apply]
  rcases w sink with ⟨_ | _, t⟩ <;> rfl

end Outcome

/-- How work ends that writes and then has a status. -/
def responded (w : Writing Unit) (status : Status) (sink : Sink) : Ending × Sink :=
  match w sink with
  | (.ok (), sink) => (.finished status, sink)
  | (.error fault, sink) => (.failed [fault.message], sink)

theorem responded_bind (v w : Writing Unit) (status : Status) (sink : Sink) :
    responded (do v; w) status sink = match v sink with
      | (.ok (), sink) => responded w status sink
      | (.error fault, sink) => (.failed [fault.message], sink) := by
  rw [responded, writing_bind]
  rcases v sink with ⟨_ | _, t⟩ <;> rfl

/-- The names that the statements of a driver look up. -/
def neededNames : List String := ["out", "schema", "options", "Ok"]

/-- What the locals are for the checks and reports: the output, the schema and the options. -/
structure Given (locals : Locals) (s : Schema) (o : ParsedOptions) : Prop where
  out : locals.lookup "out" = some .out
  schema : locals.lookup "schema" = some (.schema s)
  options : locals.lookup "options" = some (.options o)
  ok : locals.lookup "Ok" = none

theorem lookup_cons_ne {locals : Locals} {name other : String} (h : other ≠ name) (value : Value) :
    List.lookup other ((name, value) :: locals) = locals.lookup other := by
  rw [List.lookup_cons, beq_eq_false_iff_ne.mpr h]

/-- Only the needed names matter. -/
theorem Given.of_lookup {locals others : Locals} {s : Schema} {o : ParsedOptions}
    (h : Given locals s o)
    (hl : ∀ name ∈ neededNames, others.lookup name = locals.lookup name) : Given others s o where
  out := (hl "out" (by decide)).trans h.out
  schema := (hl "schema" (by decide)).trans h.schema
  options := (hl "options" (by decide)).trans h.options
  ok := (hl "Ok" (by decide)).trans h.ok

/-- A local of another name changes nothing about these. -/
theorem Given.bind {locals : Locals} {s : Schema} {o : ParsedOptions} (h : Given locals s o)
    {name : String} (hn : name ∉ neededNames) (value : Value) :
    Given ((name, value) :: locals) s o := by
  apply h.of_lookup
  intro other ho
  apply lookup_cons_ne
  rintro rfl
  exact hn ho

section Expressions
variable {world : World} {locals : Locals} {s : Schema} {o : ParsedOptions}

theorem run_localOf (world : World) {name : String} {value : Value}
    (h : locals.lookup name = some value) :
    (localOf name).run world locals = pure value := by
  simp [localOf, pathValue, h, Running.require]

theorem run_text (content : String) :
    (Expr.text content).run world locals = pure (.text content) := by
  rw [Expr.run]

/-- What a status is written as. -/
theorem run_statusExpr (world : World) (h : Given locals s o) {word : String} {status : Status}
    (hs : pathValue locals ["Status", word] = some (.status status)) :
    (statusExpr word).run world locals = pure (.okay (.status status)) := by
  simp [statusExpr, Expr.run.runAll, callPath, callName, hs, h.ok, Running.require]

theorem run_missingExpr (h : Given locals s o) (name : String) :
    (missingExpr name).run world locals = pure (.truth !o.isPresent name) := by
  have hoptions := run_localOf world h.options
  simp [missingExpr, Expr.run.runAll, hoptions, callMethod, negate, Running.require]

theorem run_extractExpr (h : Given locals s o) {α : Type} {value : α → Value} {method name : String}
    {x : Except DriverError α}
    (hm : callMethod (.options o) method [.text name] = some (.ofExcept value x)) :
    (extractExpr method name).run world locals = .attempt (.ofExcept value x) := by
  have hoptions := run_localOf world h.options
  simp [extractExpr, Expr.run.runAll, hoptions, hm, Running.require]

theorem run_borrowed_schema (h : Given locals s o) :
    (Expr.borrow (localOf "schema")).run world locals = pure (.schema s) := by
  rw [Expr.run]
  exact run_localOf world h.schema

/-- A report writes what the call of its values means. -/
theorem run_reportExpr (h : Given locals s o) {name : String} {arguments : List Expr}
    {values : List Value} {w : Writing Unit}
    (ha : Expr.run.runAll world locals arguments = pure values)
    (hc : callPath world locals ["report", name] (.out :: values) = Running.ofWriting w) :
    (reportExpr name arguments).run world locals = written w := by
  have hout := run_localOf world h.out
  simp only [reportExpr, Expr.run, Expr.run.runAll, hout, ha, pure_bind, hc]
  rfl

end Expressions

section Statements
variable {world : World} {locals : Locals} {s : Schema} {o : ParsedOptions} {sink : Sink}

/-- A check that applies writes its report and ends the work; else the work goes on. -/
theorem outcome_when (h : Given locals s o) {condition : Expr} {holds : Bool} {name word : String}
    {arguments : List Expr} {w : Writing Unit} {status : Status}
    (hc : condition.run world locals = pure (.truth holds))
    (hw : (reportExpr name arguments).run world locals = written w)
    (hs : pathValue locals ["Status", word] = some (.status status)) (rest : List Statement) :
    outcome (runStatements world locals (.when condition
        [.perform (reportExpr name arguments), .leave (statusExpr word)] :: rest)) sink =
      if holds then responded w status sink
      else outcome (runStatements world locals rest) sink := by
  have hstatus := run_statusExpr world h hs
  cases holds with
  | false => simp [hc]
  | true =>
      simp only [runStatements, Statement.run, hc, hw, hstatus, pure_bind, bind_assoc]
      rw [outcome_written_bind]
      rfl

/-- A statement that gives a local its value. -/
theorem outcome_bind {name : String} {type : Option String} {e : Expr} {value : Value}
    (he : e.run world locals = pure value) (ht : type.all (value.hasType ·) = true)
    (rest : List Statement) :
    outcome (runStatements world locals (.bind name type e :: rest)) sink =
      outcome (runStatements world ((name, value) :: locals) rest) sink := by
  simp only [runStatements, Statement.run, he, pure_bind, ht, if_true]

theorem outcome_bind_failure {name : String} {type : Option String} {e : Expr} {chain : ErrorChain}
    (he : e.run world locals = throw (.returned (.failure chain))) (rest : List Statement) :
    outcome (runStatements world locals (.bind name type e :: rest)) sink =
      (.failed chain, sink) := by
  simp only [runStatements, Statement.run, he, bind_assoc]
  exact outcome_throw_bind chain

theorem outcome_perform {e : Expr} {w : Writing Unit} (he : e.run world locals = written w)
    (rest : List Statement) :
    outcome (runStatements world locals (.perform e :: rest)) sink = match w sink with
      | (.ok (), sink) => outcome (runStatements world locals rest) sink
      | (.error fault, sink) => (.failed [fault.message], sink) := by
  simp only [runStatements, Statement.run, he, pure_bind, bind_assoc]
  exact outcome_written_bind w

/-- The checks of the parameters end the work at the first that is missing. -/
theorem outcome_checks (h : Given locals s o) (names : List String) (rest : List Statement) :
    outcome (runStatements world locals (names.map checkStatement ++ rest)) sink =
      match names.find? fun n => !o.isPresent n with
      | some n => responded (Report.missingParameter s n) .usageError sink
      | none => outcome (runStatements world locals rest) sink := by
  induction names with
  | nil => rfl
  | cons name names ih =>
      have hvalues : Expr.run.runAll world locals [.borrow (localOf "schema"), .text name] =
          pure [.schema s, .text name] := by
        simp only [Expr.run.runAll, run_borrowed_schema h, run_text, pure_bind]
      have hreport : (reportExpr "missing_parameter" [.borrow (localOf "schema"), .text name]).run
          world locals = written (Report.missingParameter s name) := run_reportExpr h hvalues rfl
      rw [List.map_cons, List.cons_append, checkStatement,
        outcome_when h (run_missingExpr h name) hreport rfl, ih, List.find?_cons]
      cases !o.isPresent name <;> rfl

/-- The locals with those of the parameters, the latest first. -/
def bound (locals : Locals) (values : List (String × Double)) : Locals :=
  values.foldl (fun locals v => (v.1, .number v.2) :: locals) locals

theorem lookup_bound_of_not_mem {values : List (String × Double)} {name : String}
    (h : name ∉ values.map Prod.fst) : (bound locals values).lookup name = locals.lookup name := by
  induction values generalizing locals with
  | nil => rfl
  | cons v values ih =>
      rw [List.map_cons, List.mem_cons, not_or] at h
      calc (bound ((v.1, .number v.2) :: locals) values).lookup name
          = ((v.1, Value.number v.2) :: locals).lookup name := ih h.2
        _ = locals.lookup name := lookup_cons_ne h.1 _

/-- A local keeps its value when none of its name comes later. -/
theorem lookup_bound {values : List (String × Double)} (hd : (values.map Prod.fst).Nodup)
    {v : String × Double} (hv : v ∈ values) :
    (bound locals values).lookup v.1 = some (.number v.2) := by
  induction values generalizing locals with
  | nil => cases hv
  | cons u values ih =>
      rw [List.map_cons, List.nodup_cons] at hd
      rcases List.mem_cons.mp hv with rfl | hv
      · calc (bound ((v.1, .number v.2) :: locals) values).lookup v.1
            = ((v.1, Value.number v.2) :: locals).lookup v.1 := lookup_bound_of_not_mem hd.1
          _ = some (.number v.2) := List.lookup_cons_self
      · exact ih hd.2 hv

theorem Given.bound (h : Given locals s o) {values : List (String × Double)}
    (hn : ∀ n ∈ values.map Prod.fst, n ∉ neededNames) : Given (bound locals values) s o := by
  apply h.of_lookup
  intro other ho
  apply lookup_bound_of_not_mem
  intro hm
  exact hn other hm ho

/-- The statements that read the parameters do so in their order, up to the first that is
no number. -/
theorem outcome_bindings {names : List String} (h : Given locals s o)
    (hn : ∀ n ∈ names, n ∉ neededNames) (rest : List Statement) :
    outcome (runStatements world locals (names.map bindingStatement ++ rest)) sink =
      match Schema.readValues o names with
      | .error e => (.failed e.chain, sink)
      | .ok values => outcome (runStatements world (bound locals values) rest) sink := by
  induction names generalizing locals with
  | nil => rfl
  | cons name names ih =>
      have hvalue : (extractExpr "double" name).run world locals =
          .attempt (.ofExcept .number (o.double name)) := run_extractExpr h rfl
      rw [List.map_cons, List.cons_append, bindingStatement, Schema.readValues]
      cases hd : o.double name with
      | error e =>
          rw [hd] at hvalue
          exact outcome_bind_failure hvalue _
      | ok x =>
          rw [hd] at hvalue
          rw [outcome_bind hvalue rfl,
            ih (h.bind (hn name List.mem_cons_self) _) fun n hm => hn n (List.mem_cons_of_mem _ hm)]
          cases Schema.readValues o names <;> rfl

/-- The reports of the parameters, when each local has its value. -/
theorem outcome_reports (h : Given locals s o) {values : List (String × Double)}
    (hv : ∀ v ∈ values, locals.lookup v.1 = some (.number v.2)) :
    outcome (runStatements world locals ((values.map Prod.fst).map reportStatement ++
        [.result (statusExpr "Success")])) sink =
      responded (Report.parameters values) .success sink := by
  induction values generalizing sink with
  | nil =>
      have hstatus : (statusExpr "Success").run world locals = pure (.okay (.status .success)) :=
        run_statusExpr world h rfl
      simp only [List.map_nil, List.nil_append, runStatements, hstatus]
      rfl
  | cons v values ih =>
      have hlocal := run_localOf world (hv v List.mem_cons_self)
      have hvalues : Expr.run.runAll world locals [.text v.1, localOf v.1] =
          pure [.text v.1, .number v.2] := by
        simp only [Expr.run.runAll, hlocal, run_text, pure_bind]
      have hreport : (reportExpr "parameter" [.text v.1, localOf v.1]).run world locals =
          written (Report.parameter v.1 v.2) := run_reportExpr h hvalues rfl
      rw [List.map_cons, List.map_cons, List.cons_append, reportStatement, outcome_perform hreport,
        Report.parameters, responded_bind]
      rcases Report.parameter v.1 v.2 sink with ⟨_ | _, t⟩
      · rfl
      · exact ih fun v hm => hv v (List.mem_cons_of_mem _ hm)

end Statements

end PointDriver.Emitted

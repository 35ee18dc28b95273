import PointDriver.Proofs.Driver.Extraction
import PointDriver.Proofs.Emitted.Simulation
import PointDriver.Proofs.Emitted.SourceReading
import PointDriver.Proofs.Lifecycle.Guard

/-!
# A generated driver and its schema

A driver's source is read as the code of its declaration, and running that code
has the effect of going through the schema of the declaration: the same exit
code, the same output and the same hooks. Only the words for a refused write
differ.
-/

namespace PointDriver.Emitted

section Function
variable {program : String} {names : List String} {arguments : List Bytes}

/-- The expression of the schema adds the parameters one after the other. -/
theorem run_schemaExpr (world : World) (program : String) (names : List String) :
    (schemaExpr program names).run world [] = pure (.schema (Schema.ofNames program names)) := by
  have hfold : ∀ (e : Expr) (s : Schema), e.run world [] = pure (.schema s) →
      (names.foldl (fun schema name => .method schema "parameter" [.text name]) e).run world [] =
        pure (.schema (names.foldl Schema.parameter s)) := by
    induction names with
    | nil => exact fun e s he => he
    | cons name names ih =>
        intro e s he
        apply ih
        simp [Expr.run.runAll, he, callMethod, Running.require]
  apply hfold
  simp only [Expr.run, Expr.run.runAll, pure_bind]
  rfl

theorem run_schemaCall :
    (Expr.call ["schema"] []).run ((driverCode program names).world arguments) [("out", .out)] =
      pure (.schema (Schema.ofNames program names)) := by
  have hschema : runStatements ⟨arguments, fun _ => none⟩ [] (driverCode program names).schema =
      pure (.schema (Schema.ofNames program names)) := by
    rw [driverCode, runStatements]
    exact run_schemaExpr _ program names
  have hcall : (Expr.call ["schema"] []).run ((driverCode program names).world arguments)
      [("out", .out)] = Running.function
        (runStatements ⟨arguments, fun _ => none⟩ [] (driverCode program names).schema) := by
    simp only [Expr.run, Expr.run.runAll, pure_bind]
    rfl
  rw [hcall, hschema]
  rfl

end Function

section Statements
variable {world : World} {locals : Locals} {s : Schema} {o : ParsedOptions} {sink : Sink}

/-- The locals when the arguments are read. -/
def opened (s : Schema) (o : ParsedOptions) : Locals :=
  [("options", .options o), ("schema", .schema s), ("out", .out)]

theorem given_opened (s : Schema) (o : ParsedOptions) : Given (opened s o) s o :=
  ⟨rfl, rfl, rfl, rfl⟩

/-- The opening reads the arguments, answers a request for help, and asks for the directory. -/
theorem outcome_opening
    (hs : (Expr.call ["schema"] []).run world [("out", .out)] = pure (.schema s))
    (rest : List Statement) :
    outcome (runStatements world [("out", .out)] (openingStatements ++ rest)) sink =
      match s.parse world.arguments with
      | .error e => (.failed e.chain, sink)
      | .ok o =>
          if o.help then responded (Report.usage s) .success sink
          else if !o.isPresent outputDirName then
            responded (Report.missingOutputDir s) .usageError sink
          else outcome (runStatements world (opened s o) rest) sink := by
  have hparse : (Expr.attempt (.method (localOf "schema") "parse"
      [.call ["std", "env", "args_os"] []])).run world [("schema", .schema s), ("out", .out)] =
      .attempt (.ofExcept .options (s.parse world.arguments)) := by
    simp only [Expr.run, Expr.run.runAll, pure_bind]
    rfl
  rw [openingStatements, List.cons_append, outcome_bind hs rfl, List.cons_append]
  cases hp : s.parse world.arguments with
  | error e =>
      rw [hp] at hparse
      exact outcome_bind_failure hparse _
  | ok o =>
      rw [hp] at hparse
      have hgiven := given_opened s o
      have hvalues : Expr.run.runAll world (opened s o) [.borrow (localOf "schema")] =
          pure [.schema s] := by
        simp only [Expr.run.runAll, run_borrowed_schema hgiven, pure_bind]
      have hhelp : (Expr.method (localOf "options") "help" []).run world (opened s o) =
          pure (.truth o.help) := by
        simp only [Expr.run, Expr.run.runAll, run_localOf world hgiven.options, pure_bind]
        rfl
      have husage : (reportExpr "usage" [.borrow (localOf "schema")]).run world (opened s o) =
          written (Report.usage s) := run_reportExpr hgiven hvalues rfl
      have hmissing : (reportExpr "missing_output_dir" [.borrow (localOf "schema")]).run world
          (opened s o) = written (Report.missingOutputDir s) := run_reportExpr hgiven hvalues rfl
      rw [outcome_bind hparse rfl]
      change outcome (runStatements world (opened s o) _) sink = _
      rw [List.cons_append, outcome_when hgiven hhelp husage rfl, List.cons_append,
        outcome_when hgiven (run_missingExpr hgiven outputDirName) hmissing rfl]
      rfl

/-- The work after all checks. -/
def pointStatements (names : List String) : List Statement :=
  outputDirStatement :: names.map bindingStatement ++ outputDirReport ::
    names.map reportStatement ++ [.result (statusExpr "Success")]

/-- What the options make the point of a sweep. -/
def point (o : ParsedOptions) (names : List String) : Except DriverError SweepPoint := do
  let dir ← o.string outputDirName
  let values ← Schema.readValues o names
  pure ⟨dir, values⟩

/-- When nothing is missing, the point is read and then reported. -/
theorem outcome_pointStatements {names : List String} (h : Given locals s o)
    (hn : ∀ n ∈ names, n ∉ neededNames) (ho : outputDirName ∉ names) (hd : names.Nodup) :
    outcome (runStatements world locals (pointStatements names)) sink =
      match point o names with
      | .error e => (.failed e.chain, sink)
      | .ok p => responded p.report .success sink := by
  have hdir : (extractExpr "string" outputDirName).run world locals =
      .attempt (.ofExcept .text (o.string outputDirName)) := run_extractExpr h rfl
  rw [pointStatements, point, outputDirStatement]
  simp only [List.cons_append, List.append_assoc]
  cases hs : o.string outputDirName with
  | error e =>
      rw [hs] at hdir
      exact outcome_bind_failure hdir _
  | ok dir =>
      rw [hs] at hdir
      rw [outcome_bind hdir rfl, outcome_bindings (h.bind (by decide) _) hn]
      cases hr : Schema.readValues o names with
      | error e => rfl
      | ok values =>
          have hnames := Schema.map_fst_readValues hr
          subst hnames
          -- Neither the directory nor a parameter is hidden by a later local.
          have hdirGiven : Given ((outputDirName, .text dir) :: locals) s o := h.bind (by decide) _
          have hgiven := hdirGiven.bound hn
          have hkept : (bound ((outputDirName, .text dir) :: locals) values).lookup outputDirName =
              some (.text dir) :=
            (lookup_bound_of_not_mem ho).trans List.lookup_cons_self
          have hvalues : Expr.run.runAll world (bound ((outputDirName, .text dir) :: locals) values)
              [.borrow (localOf outputDirName)] = pure [.text dir] := by
            simp only [Expr.run.runAll, Expr.run, run_localOf world hkept, pure_bind]
          have hreport : (reportExpr "output_dir" [.borrow (localOf outputDirName)]).run world
              (bound ((outputDirName, .text dir) :: locals) values) =
                written (Report.outputDir dir) := run_reportExpr hgiven hvalues rfl
          change outcome (runStatements world _ (outputDirReport :: _)) sink =
            responded (SweepPoint.report ⟨dir, values⟩) .success sink
          rw [outputDirReport, outcome_perform hreport, SweepPoint.report, responded_bind]
          rcases Report.outputDir dir sink with ⟨_ | _, t⟩
          · rfl
          · exact outcome_reports hgiven fun v hv => lookup_bound hd hv

end Statements

section Body
variable {program : String} {d : Declaration} {arguments : List Bytes} {sink : Sink}

theorem not_neededNames (d : Declaration) : ∀ n ∈ d.names, n ∉ neededNames := by
  intro n hn hm
  have hreserved := d.not_reserved hn
  simp only [neededNames, List.mem_cons, List.not_mem_nil, or_false] at hm
  rcases hm with rfl | rfl | rfl | rfl
  · exact hreserved (by decide)
  · exact hreserved (by decide)
  · exact hreserved (by decide)
  · exact absurd (nameError?_eq_none_iff.mp (d.legal _ hn)).1 (by decide)

/-- What the options of a declaration amount to, with the point as the code reads it. -/
theorem assess_ofDeclaration (o : ParsedOptions) :
    (Schema.ofDeclaration program d).assess o =
      if o.help then .ok .help
      else if !o.isPresent outputDirName then .ok .missingOutputDir
      else match d.names.find? fun n => !o.isPresent n with
        | some n => .ok (.missingParameter n)
        | none => (point o d.names).map .ready := by
  rw [Schema.assess, Schema.validate_ofDeclaration, Schema.map_name_parameters]
  cases o.help with
  | true => rfl
  | false =>
      cases o.isPresent outputDirName with
      | false => rfl
      | true =>
          cases d.names.find? fun n => !o.isPresent n with
          | some n => rfl
          | none =>
              simp only [Bool.not_true, Bool.false_eq_true, if_false, point]
              cases o.string outputDirName with
              | error e => rfl
              | ok dir =>
                  cases Schema.readValues o d.names <;> rfl

/-- The code of a driver evaluates the arguments, and then responds as the driver does. -/
theorem body_driverCode (program : String) (d : Declaration) (arguments : List Bytes)
    (sink : Sink) :
    (driverCode program d.names).body arguments sink =
      match (Schema.ofDeclaration program d).evaluate arguments with
      | .error e => (.failed e.chain, sink)
      | .ok evaluation => responded ((Schema.ofDeclaration program d).respond evaluation)
          (Schema.statusOf evaluation) sink := by
  have hdrive : (driverCode program d.names).drive = openingStatements ++
      (d.names.map checkStatement ++ pointStatements d.names) := by
    simp [driverCode, pointStatements]
  have hschema : (Expr.call ["schema"] []).run ((driverCode program d.names).world arguments)
      [("out", .out)] = pure (.schema (Schema.ofDeclaration program d)) := run_schemaCall
  have hparse : (Schema.ofDeclaration program d).parse
      ((driverCode program d.names).world arguments).arguments =
        (Schema.ofDeclaration program d).parse arguments := rfl
  rw [body_eq_outcome, hdrive, outcome_opening hschema, Schema.evaluate, hparse]
  cases (Schema.ofDeclaration program d).parse arguments with
  | error e => rfl
  | ok o =>
      have hgiven := given_opened (Schema.ofDeclaration program d) o
      simp only [bind, Except.bind, assess_ofDeclaration]
      cases o.help with
      | true => rfl
      | false =>
          cases o.isPresent outputDirName with
          | false => rfl
          | true =>
              simp only [Bool.false_eq_true, if_false, Bool.not_true]
              rw [outcome_checks hgiven, outcome_pointStatements hgiven (not_neededNames d)
                (fun hm => d.ne_outputDirName hm rfl) d.distinct]
              cases d.names.find? fun n => !o.isPresent n with
              | some n => rfl
              | none =>
                  cases point o d.names <;> rfl

/-- The code of a driver does what the driver does, but for the words about a refused write. -/
theorem body_driverCode_cases (program : String) (d : Declaration) (arguments : List Bytes)
    (sink : Sink) :
    (driverCode program d.names).body arguments sink =
        (Schema.ofDeclaration program d).body arguments sink ∨
      ∃ fault after,
        (Schema.ofDeclaration program d).run arguments sink = (.error (.output fault), after) ∧
          (driverCode program d.names).body arguments sink = (.failed [fault.message], after) := by
  rw [body_driverCode, Schema.body, Schema.run]
  cases (Schema.ofDeclaration program d).evaluate arguments with
  | error e => exact Or.inl rfl
  | ok evaluation =>
      simp only [responded]
      rcases (Schema.ofDeclaration program d).respond evaluation sink with ⟨fault | _, after⟩
      · exact Or.inr ⟨fault, after, rfl, rfl⟩
      · exact Or.inl rfl

end Body

/-- A hook without what it is told. -/
inductive HookKind where
  | startup
  | error
  | shutdown
  deriving DecidableEq, Repr

/-- The kind of a hook. -/
def kindOf : Hook → HookKind
  | .startup => .startup
  | .error _ => .error
  | .shutdown => .shutdown

/-- A generated driver and the driver that goes through its schema are the same program. The
source of a declaration is read as code, and whatever the runtime, the arguments and the sink,
that code ends with the same exit code, the same sink and the same kinds of hooks. The hooks
are told the same unless a write is refused. -/
theorem execute_driverCode (d : Declaration) (settings : DriverSettings)
    (quotable : Quotable settings.program) :
    ∃ source code,
      (∀ (m : Type → Type) [Monad m] [LawfulMonad m] [Files m],
        (Package.Renderer.builtIn.renderDriver d settings : Generating m String) = pure source) ∧
      Code.read? source = some code ∧
      ∀ runtime arguments sink,
        let s := Schema.ofDeclaration settings.program d
        let generated := execute runtime sink (code.body arguments)
        let interpreted := s.execute runtime arguments sink
        generated.code = interpreted.code ∧
          generated.sink = interpreted.sink ∧
          generated.hooks.map kindOf = interpreted.hooks.map kindOf ∧
          ((runtime.startupFailure = none →
              ∀ fault, (s.run arguments sink).1 ≠ .error (.output fault)) →
            generated.hooks = interpreted.hooks) := by
  refine ⟨_, driverCode settings.program d.names, fun m _ _ _ =>
      Package.Renderer.renderDriver_builtIn d settings,
    read?_sourceLines d quotable, fun runtime arguments sink => ?_⟩
  intro s generated interpreted
  cases hs : runtime.startupFailure with
  | some chain =>
      have hsame : generated = interpreted :=
        (execute_of_startupFailure hs _ _).trans (execute_of_startupFailure hs _ _).symm
      rw [hsame]
      exact ⟨rfl, rfl, rfl, fun _ => rfl⟩
  | none =>
      have hgenerated : generated = _ := execute_of_ending hs sink _
      have hinterpreted : interpreted = _ := execute_of_ending hs sink _
      rcases body_driverCode_cases settings.program d arguments sink with hsame | hrefused
      · rw [hgenerated, hinterpreted, hsame]
        exact ⟨rfl, rfl, rfl, fun _ => rfl⟩
      · obtain ⟨fault, after, hrun, hbody⟩ := hrefused
        have hfailed : s.body arguments sink =
            (.failed (DriverError.output fault).chain, after) := by
          rw [Schema.body, hrun]
        rw [hgenerated, hinterpreted, hbody, hfailed]
        refine ⟨rfl, rfl, rfl, fun hwrites => ?_⟩
        exact absurd (congrArg Prod.fst hrun) (hwrites rfl fault)

/-- The generated driver of one parameter, run without arguments, asks for the directory. -/
theorem execute_driverCode_without_arguments :
    ∃ (d : Declaration) (source : String) (code : Code), d.names = ["alpha"] ∧
      Quotable DriverSettings.standard.program ∧
      (Package.Renderer.builtIn.renderDriver d .standard :
        Generating (StateM FileTree) String) = pure source ∧
      Code.read? source = some code ∧
      (execute ⟨none, ⟨7, 9⟩⟩ .unlimited (code.body [Utf8.encode "driver"])).code = some 1 := by
  let d : Declaration := ⟨["alpha"], by decide, by decide⟩
  have hquotable : Quotable DriverSettings.standard.program := by decide
  obtain ⟨source, code, hsource, hcode, hagrees⟩ :=
    execute_driverCode d DriverSettings.standard hquotable
  obtain ⟨hsame, -⟩ := hagrees ⟨none, ⟨7, 9⟩⟩ [Utf8.encode "driver"] .unlimited
  refine ⟨d, source, code, rfl, hquotable, hsource _, hcode, hsame.trans ?_⟩
  decide

end PointDriver.Emitted

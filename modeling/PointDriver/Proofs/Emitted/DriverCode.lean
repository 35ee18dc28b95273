import PointDriver.Proofs.Emitted.Syntax
import PointDriver.Proofs.Package.DriverText
import PointDriver.Proofs.Schema.Names

/-!
# The statements of a driver's source

The lines of a driver's source are read group by group. Each group is read as
its statements whatever follows it, so the groups of all parameters together are
read as one list of statements.
-/

namespace PointDriver.Emitted

/-- A local by its name. -/
def localOf (name : String) : Expr := .path [name]

/-- Returns the status, or yields it at the end. -/
def statusExpr (status : String) : Expr := .call ["Ok"] [.path ["Status", status]]

/-- Calls a report with the output and further arguments, and returns its failure. -/
def reportExpr (name : String) (arguments : List Expr) : Expr :=
  .attempt (.call ["report", name] (localOf "out" :: arguments))

/-- Asks whether an option is missing. -/
def missingExpr (name : String) : Expr :=
  .not (.method (localOf "options") "is_present" [.text name])

/-- Reads the value of an option by the method. -/
def extractExpr (method name : String) : Expr :=
  .attempt (.method (localOf "options") method [.text name])

/-- Makes the schema. -/
def schemaExpr (program : String) (names : List String) : Expr :=
  names.foldl (fun schema name => .method schema "parameter" [.text name])
    (.call ["OptionSchema", "new"] [.text program])

/-- The statements up to the checks of parameters. -/
def openingStatements : List Statement :=
  [ .bind "schema" none (.call ["schema"] []),
    .bind "options" none
      (.attempt (.method (localOf "schema") "parse" [.call ["std", "env", "args_os"] []])),
    .when (.method (localOf "options") "help" [])
      [ .perform (reportExpr "usage" [.borrow (localOf "schema")]),
        .leave (statusExpr "Success") ],
    .when (missingExpr outputDirName)
      [ .perform (reportExpr "missing_output_dir" [.borrow (localOf "schema")]),
        .leave (statusExpr "UsageError") ] ]

/-- Checks that a parameter is given. -/
def checkStatement (name : String) : Statement :=
  .when (missingExpr name)
    [ .perform (reportExpr "missing_parameter" [.borrow (localOf "schema"), .text name]),
      .leave (statusExpr "UsageError") ]

/-- Reads the directory. -/
def outputDirStatement : Statement :=
  .bind outputDirName none (extractExpr "string" outputDirName)

/-- Reads a parameter. -/
def bindingStatement (name : String) : Statement :=
  .bind name (some "f64") (extractExpr "double" name)

/-- Reports the directory. -/
def outputDirReport : Statement :=
  .perform (reportExpr "output_dir" [.borrow (localOf outputDirName)])

/-- Reports a parameter. -/
def reportStatement (name : String) : Statement :=
  .perform (reportExpr "parameter" [.text name, localOf name])

/-- The code of a driver. -/
def driverCode (program : String) (names : List String) : Code where
  schema := [.result (schemaExpr program names)]
  drive := openingStatements ++ names.map checkStatement ++ outputDirStatement ::
    names.map bindingStatement ++ outputDirReport :: names.map reportStatement ++
    [.result (statusExpr "Success")]

/-- Tokens that are read as statements, whatever follows them. -/
structure Reads (tokens : List Token) (statements : List Statement) : Prop where
  read : ∀ fuel rest, statements? (fuel + statements.length + 4) (tokens ++ rest) =
    (statements? (fuel + 4) rest).map fun x => (statements ++ x.1, x.2)
  short : statements.length ≤ tokens.length

namespace Reads
variable {a b : List Token} {x y : List Statement}

theorem nil : Reads [] [] := by
  refine ⟨fun fuel rest => ?_, Nat.le_refl _⟩
  cases h : statements? (fuel + 4) rest <;> simp [h]

theorem append (ha : Reads a x) (hb : Reads b y) : Reads (a ++ b) (x ++ y) := by
  refine ⟨fun fuel rest => ?_, ?_⟩
  · have hfuel : fuel + (x ++ y).length + 4 = fuel + y.length + x.length + 4 := by
      rw [List.length_append]
      omega
    rw [hfuel, List.append_assoc, ha.read, hb.read]
    cases statements? (fuel + 4) rest <;> simp
  · have hx := ha.short
    have hy := hb.short
    rw [List.length_append, List.length_append]
    omega

theorem of_single {s : Statement} (hne : a ≠ [])
    (h : ∀ fuel rest, statements? (fuel + 5) (a ++ rest) =
      (statements? (fuel + 4) rest).map fun x => (s :: x.1, x.2)) : Reads a [s] := by
  refine ⟨fun fuel rest => ?_, List.length_pos_iff.mpr hne⟩
  exact h fuel rest

end Reads

/-- Lines that are read as statements, whatever follows them. -/
def LinesRead (lines : List String) (statements : List Statement) : Prop :=
  ∃ tokens, linesTokens? lines = some tokens ∧ Reads tokens statements

theorem linesTokens?_nil : linesTokens? [] = some [] := rfl

theorem linesTokens?_cons {line : String} {lines : List String} {x y : List Token}
    (h : tokens? line = some x) (hs : linesTokens? lines = some y) :
    linesTokens? (line :: lines) = some (x ++ y) := by
  simp [linesTokens?, h, hs]

theorem linesTokens?_append {a b : List String} {x y : List Token} (ha : linesTokens? a = some x)
    (hb : linesTokens? b = some y) : linesTokens? (a ++ b) = some (x ++ y) := by
  induction a generalizing x with
  | nil =>
      obtain rfl := Option.some.inj ha
      exact hb
  | cons line a ih =>
      rw [linesTokens?] at ha
      cases hl : tokens? line with
      | none => simp [hl] at ha
      | some tokens =>
          cases hm : linesTokens? a with
          | none => simp [hl, hm] at ha
          | some more =>
              obtain rfl : tokens ++ more = x := by simpa [hl, hm] using ha
              simp [linesTokens?, hl, ih hm]

namespace LinesRead

theorem nil : LinesRead [] [] := ⟨[], rfl, Reads.nil⟩

theorem of_single {lines : List String} {tokens : List Token} {s : Statement}
    (hl : linesTokens? lines = some tokens) (hne : tokens ≠ [])
    (h : ∀ fuel rest, statements? (fuel + 5) (tokens ++ rest) =
      (statements? (fuel + 4) rest).map fun x => (s :: x.1, x.2)) : LinesRead lines [s] :=
  ⟨tokens, hl, Reads.of_single hne h⟩

theorem append {a b : List String} {x y : List Statement} (ha : LinesRead a x)
    (hb : LinesRead b y) : LinesRead (a ++ b) (x ++ y) := by
  obtain ⟨s, hs, hx⟩ := ha
  obtain ⟨t, ht, hy⟩ := hb
  exact ⟨s ++ t, linesTokens?_append hs ht, hx.append hy⟩

/-- The groups of all names are read as the statements of all names. -/
theorem each {lines : String → List String} {statement : String → Statement}
    {names : List String} (h : ∀ name ∈ names, LinesRead (lines name) [statement name]) :
    LinesRead (names.flatMap lines) (names.map statement) := by
  induction names with
  | nil => exact nil
  | cons name names ih =>
      rw [List.flatMap_cons, List.map_cons]
      exact (h name List.mem_cons_self).append (ih fun n hn => h n (List.mem_cons_of_mem _ hn))

end LinesRead

/-- A text that can stand between quotes as it is. -/
def Quotable (text : String) : Prop := ∀ c ∈ text.toList, c ≠ '"' ∧ breaksText c = false

theorem quotable_iff {text : String} :
    Quotable text ↔ text.toList.all (fun c => c != '"' && !breaksText c) = true := by
  simp [Quotable]

instance (text : String) : Decidable (Quotable text) := decidable_of_iff _ quotable_iff.symm

/-- A name that can stand as a word. -/
structure Wordlike (name : String) : Prop where
  nonempty : name.toList ≠ []
  word : ∀ c ∈ name.toList, continuesWord c = true

theorem Wordlike.quotable {name : String} (h : Wordlike name) : Quotable name := by
  intro c hc
  have hw := h.word c hc
  refine ⟨?_, ?_⟩
  · rintro rfl
    exact absurd hw (by decide)
  · cases hb : breaksText c with
    | false => rfl
    | true =>
        have hc : c = '\\' ∨ c = '\n' ∨ c = '\r' := by simpa [breaksText, or_assoc] using hb
        rcases hc with rfl | rfl | rfl <;> exact absurd hw (by decide)

theorem wordlike_of_spellsName {name : String} (h : spellsName name.toList = true) :
    Wordlike name := by
  obtain ⟨hne, hall⟩ := continuesName_of_spellsName h
  refine ⟨hne, fun c hc => ?_⟩
  have hn := hall c hc
  have halnum : c.isAlphanum = (c.isUpper || c.isLower || c.isDigit) := rfl
  simp only [continuesName, startsName, Bool.or_eq_true, Bool.and_eq_true, decide_eq_true_eq,
    beq_iff_eq] at hn
  rcases hn with (hl | rfl) | hd
  · have hlower : c.isLower = true := by
      change (decide ('a' ≤ c) && decide (c ≤ 'z')) = true
      simpa using hl
    simp [continuesWord, halnum, hlower]
  · decide
  · have hdigit : c.isDigit = true := by
      simp only [Char.isDigit, Bool.and_eq_true, decide_eq_true_eq]
      exact hd
    simp [continuesWord, halnum, hdigit]

section Pieces
variable {name line : String} {cs : List Char} {s : List Token} {mode : Mode}

/-- A quoted text ends at its quote. -/
theorem scan_quoted (h : Quotable name) (hl : line = String.ofList ('"' :: cs))
    (hs : Mode.between.scan cs = some (s, mode)) :
    (Mode.text []).scan (name ++ line).toList = some (.text name :: s, mode) := by
  have hname : (Mode.text []).scan name.toList = some ([], .text name.toList) :=
    Mode.scan_text h []
  refine Mode.scan_join hname (Mode.scan_literal hl ?_)
  simp [Mode.scan, Mode.step, hs]

/-- A word ends at a character of another kind. -/
theorem scan_bare (h : Wordlike name) {c : Char} (hc : continuesWord c = false)
    (hl : line = String.ofList (c :: cs)) (hs : Mode.between.scan (c :: cs) = some (s, mode)) :
    Mode.between.scan (name ++ line).toList = some (.word name :: s, mode) := by
  have hname : Mode.between.scan name.toList = some ([], .word name.toList) :=
    Mode.scan_between_word h.nonempty h.word
  refine Mode.scan_join hname (Mode.scan_literal hl ?_)
  rw [Mode.scan_word_end hc, hs]
  simp

end Pieces

section Groups
variable {name : String}

theorem tokens?_empty : tokens? "" = some [] := rfl

theorem tokens?_closing : tokens? "    \x7d" = some [.mark '\x7d'] := tokens?_literal rfl rfl

theorem tokens?_usageError :
    tokens? "        return Ok(Status::UsageError);" = some
      [.word "return", .word "Ok", .mark '(', .word "Status", .mark ':', .mark ':',
        .word "UsageError", .mark ')', .mark ';'] := tokens?_literal rfl rfl

theorem linesRead_check (h : Wordlike name) :
    LinesRead (Package.checkLines name) [checkStatement name] := by
  have hask : Mode.between.scan "    if !options.is_present(\"".toList = some
      ([.word "if", .mark '!', .word "options", .mark '.', .word "is_present", .mark '('],
        .text []) := Mode.scan_literal rfl rfl
  have hcall : Mode.between.scan "        report::missing_parameter(out, &schema, \"".toList = some
      ([.word "report", .mark ':', .mark ':', .word "missing_parameter", .mark '(', .word "out",
        .mark ',', .mark '&', .word "schema", .mark ','], .text []) := Mode.scan_literal rfl rfl
  have hopen : (Mode.text []).scan (name ++ "\") \x7b").toList = some
      ([.text name, .mark ')', .mark '\x7b'], .between) := scan_quoted h.quotable rfl rfl
  have hend : (Mode.text []).scan (name ++ "\")?;").toList = some
      ([.text name, .mark ')', .mark '?', .mark ';'], .between) := scan_quoted h.quotable rfl rfl
  have hasked := tokens?_of_scan (Mode.scan_join hask hopen)
  have hcalled := tokens?_of_scan (Mode.scan_join hcall hend)
  have hlines := linesTokens?_cons tokens?_empty <| linesTokens?_cons hasked <|
    linesTokens?_cons hcalled <| linesTokens?_cons tokens?_usageError <|
      linesTokens?_cons tokens?_closing linesTokens?_nil
  apply LinesRead.of_single hlines (by simp)
  intro fuel rest
  cases hr : statements? (fuel + 4) rest <;>
    simp [checkStatement, missingExpr, reportExpr, statusExpr, localOf, hr]

theorem linesRead_binding (h : Wordlike name) :
    LinesRead [Package.bindingLine name] [bindingStatement name] := by
  have hlet : Mode.between.scan "    let ".toList = some ([.word "let"], .between) :=
    Mode.scan_literal rfl rfl
  have hname : Mode.between.scan (name ++ ": f64 = options.double(\"").toList = some
      ([.word name, .mark ':', .word "f64", .mark '=', .word "options", .mark '.', .word "double",
        .mark '('], .text []) := scan_bare h rfl rfl rfl
  have hquoted : (Mode.text []).scan (name ++ "\")?;").toList = some
      ([.text name, .mark ')', .mark '?', .mark ';'], .between) := scan_quoted h.quotable rfl rfl
  have hline := tokens?_of_scan (Mode.scan_join hlet (Mode.scan_join hname hquoted))
  rw [String.append_assoc] at hline
  have hlines := linesTokens?_cons hline linesTokens?_nil
  apply LinesRead.of_single hlines (by simp)
  intro fuel rest
  cases hr : statements? (fuel + 4) rest <;>
    simp [bindingStatement, extractExpr, localOf, hr]

theorem linesRead_report (h : Wordlike name) :
    LinesRead [Package.reportLine name] [reportStatement name] := by
  have hcall : Mode.between.scan "    report::parameter(out, \"".toList = some
      ([.word "report", .mark ':', .mark ':', .word "parameter", .mark '(', .word "out",
        .mark ','], .text []) := Mode.scan_literal rfl rfl
  have hquoted : (Mode.text []).scan (name ++ "\", ").toList = some
      ([.text name, .mark ','], .between) := scan_quoted h.quotable rfl rfl
  have hname : Mode.between.scan (name ++ ")?;").toList = some
      ([.word name, .mark ')', .mark '?', .mark ';'], .between) := scan_bare h rfl rfl rfl
  have hline := tokens?_of_scan (Mode.scan_join hcall (Mode.scan_join hquoted hname))
  rw [String.append_assoc] at hline
  have hlines := linesTokens?_cons hline linesTokens?_nil
  apply LinesRead.of_single hlines (by simp)
  intro fuel rest
  cases hr : statements? (fuel + 4) rest <;>
    simp [reportStatement, reportExpr, localOf, hr]

theorem linesRead_outputDir :
    LinesRead ["", "    let output_dir = options.string(\"output_dir\")?;"]
      [outputDirStatement] := by
  have h : tokens? "    let output_dir = options.string(\"output_dir\")?;" = some
      [.word "let", .word "output_dir", .mark '=', .word "options", .mark '.', .word "string",
        .mark '(', .text "output_dir", .mark ')', .mark '?', .mark ';'] := tokens?_literal rfl rfl
  have hlines := linesTokens?_cons tokens?_empty (linesTokens?_cons h linesTokens?_nil)
  apply LinesRead.of_single hlines (by simp)
  intro fuel rest
  cases hr : statements? (fuel + 4) rest <;>
    simp [outputDirStatement, extractExpr, localOf, outputDirName, hr]

theorem linesRead_outputDirReport :
    LinesRead ["", "    report::output_dir(out, &output_dir)?;"] [outputDirReport] := by
  have h : tokens? "    report::output_dir(out, &output_dir)?;" = some
      [.word "report", .mark ':', .mark ':', .word "output_dir", .mark '(', .word "out",
        .mark ',', .mark '&', .word "output_dir", .mark ')', .mark '?', .mark ';'] :=
    tokens?_literal rfl rfl
  have hlines := linesTokens?_cons tokens?_empty (linesTokens?_cons h linesTokens?_nil)
  apply LinesRead.of_single hlines (by simp)
  intro fuel rest
  cases hr : statements? (fuel + 4) rest <;>
    simp [outputDirReport, reportExpr, localOf, outputDirName, hr]

theorem linesRead_schema :
    LinesRead ["    let schema = schema();"] [.bind "schema" none (.call ["schema"] [])] := by
  have h : tokens? "    let schema = schema();" = some
      [.word "let", .word "schema", .mark '=', .word "schema", .mark '(', .mark ')', .mark ';'] :=
    tokens?_literal rfl rfl
  have hlines := linesTokens?_cons h linesTokens?_nil
  apply LinesRead.of_single hlines (by simp)
  intro fuel rest
  cases hr : statements? (fuel + 4) rest <;>
    simp [hr]

theorem linesRead_options :
    LinesRead ["    let options = schema.parse(std::env::args_os())?;"]
      [.bind "options" none
        (.attempt (.method (localOf "schema") "parse" [.call ["std", "env", "args_os"] []]))] := by
  have h : tokens? "    let options = schema.parse(std::env::args_os())?;" = some
      [.word "let", .word "options", .mark '=', .word "schema", .mark '.', .word "parse",
        .mark '(', .word "std", .mark ':', .mark ':', .word "env", .mark ':', .mark ':',
        .word "args_os", .mark '(', .mark ')', .mark ')', .mark '?', .mark ';'] :=
    tokens?_literal rfl rfl
  have hlines := linesTokens?_cons h linesTokens?_nil
  apply LinesRead.of_single hlines (by simp)
  intro fuel rest
  cases hr : statements? (fuel + 4) rest <;>
    simp [localOf, hr]

theorem linesRead_help :
    LinesRead ["", "    if options.help() \x7b", "        report::usage(out, &schema)?;",
        "        return Ok(Status::Success);", "    \x7d"]
      [.when (.method (localOf "options") "help" [])
        [.perform (reportExpr "usage" [.borrow (localOf "schema")]),
          .leave (statusExpr "Success")]] := by
  have h1 : tokens? "    if options.help() \x7b" = some
      [.word "if", .word "options", .mark '.', .word "help", .mark '(', .mark ')',
        .mark '\x7b'] := tokens?_literal rfl rfl
  have h2 : tokens? "        report::usage(out, &schema)?;" = some
      [.word "report", .mark ':', .mark ':', .word "usage", .mark '(', .word "out", .mark ',',
        .mark '&', .word "schema", .mark ')', .mark '?', .mark ';'] := tokens?_literal rfl rfl
  have h3 : tokens? "        return Ok(Status::Success);" = some
      [.word "return", .word "Ok", .mark '(', .word "Status", .mark ':', .mark ':',
        .word "Success", .mark ')', .mark ';'] := tokens?_literal rfl rfl
  have hlines := linesTokens?_cons tokens?_empty <| linesTokens?_cons h1 <|
    linesTokens?_cons h2 <| linesTokens?_cons h3 <|
      linesTokens?_cons tokens?_closing linesTokens?_nil
  apply LinesRead.of_single hlines (by simp)
  intro fuel rest
  cases hr : statements? (fuel + 4) rest <;>
    simp [localOf, reportExpr, statusExpr, hr]

theorem linesRead_missingOutputDir :
    LinesRead ["", "    if !options.is_present(\"output_dir\") \x7b",
        "        report::missing_output_dir(out, &schema)?;",
        "        return Ok(Status::UsageError);", "    \x7d"]
      [.when (missingExpr outputDirName)
        [.perform (reportExpr "missing_output_dir" [.borrow (localOf "schema")]),
          .leave (statusExpr "UsageError")]] := by
  have h1 : tokens? "    if !options.is_present(\"output_dir\") \x7b" = some
      [.word "if", .mark '!', .word "options", .mark '.', .word "is_present", .mark '(',
        .text "output_dir", .mark ')', .mark '\x7b'] := tokens?_literal rfl rfl
  have h2 : tokens? "        report::missing_output_dir(out, &schema)?;" = some
      [.word "report", .mark ':', .mark ':', .word "missing_output_dir", .mark '(', .word "out",
        .mark ',', .mark '&', .word "schema", .mark ')', .mark '?', .mark ';'] :=
    tokens?_literal rfl rfl
  have hlines := linesTokens?_cons tokens?_empty <| linesTokens?_cons h1 <|
    linesTokens?_cons h2 <| linesTokens?_cons tokens?_usageError <|
      linesTokens?_cons tokens?_closing linesTokens?_nil
  apply LinesRead.of_single hlines (by simp)
  intro fuel rest
  cases hr : statements? (fuel + 4) rest <;>
    simp [localOf, missingExpr, reportExpr, statusExpr, outputDirName, hr]

end Groups

/-- The lines of the work before its last two are read as the statements before the last. -/
theorem linesRead_drive {names : List String} (h : ∀ name ∈ names, Wordlike name) :
    ∃ lines, Package.driveLines names = lines ++ ["", "    Ok(Status::Success)"] ∧
      LinesRead lines (openingStatements ++ names.map checkStatement ++ outputDirStatement ::
        names.map bindingStatement ++ outputDirReport :: names.map reportStatement) := by
  have hopening := linesRead_schema.append
    (linesRead_options.append (linesRead_help.append linesRead_missingOutputDir))
  have hchecks := LinesRead.each fun name hn => linesRead_check (h name hn)
  have hbindings := LinesRead.each fun name hn => linesRead_binding (h name hn)
  have hreports := LinesRead.each fun name hn => linesRead_report (h name hn)
  have hall := ((((hopening.append hchecks).append linesRead_outputDir).append hbindings).append
    linesRead_outputDirReport).append hreports
  have hsingle : ∀ f : String → String, names.flatMap (fun name => [f name]) = names.map f :=
    fun f => List.map_eq_flatMap.symm
  rw [hsingle, hsingle] at hall
  refine ⟨_, rfl, ?_⟩
  simpa [openingStatements] using hall

end PointDriver.Emitted

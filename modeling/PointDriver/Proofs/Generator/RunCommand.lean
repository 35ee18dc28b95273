import PointDriver.Main
import PointDriver.Proofs.Driver.Runs
import PointDriver.Proofs.Generator.Escape
import PointDriver.Proofs.Generator.Loading

/-!
# The command that runs a driver

The command reads the configuration and the declaration and writes no file.
After that it is the driver: the exit code and the output are those of its
execution under the name it goes by, and an error that its runtime was told of
is the only message.
-/

namespace PointDriver

namespace DeclarationFile

theorem leavesFiles_readNames (path : Path) :
    LeavesFiles (readNames path : Generating (StateM FileTree) (List String)).run := by
  apply LeavesFiles.generating ((LeavesFiles.readText path).orFail _)
  intro text
  cases ofText? text <;> exact .pure _

theorem leavesFiles_load (names : List String) (path : Option Path) :
    LeavesFiles (load names path : Generating (StateM FileTree) Declaration).run := by
  have hnames : ∀ names : List String,
      LeavesFiles (load names none : Generating (StateM FileTree) Declaration).run := by
    intro names
    simp only [load, pure_bind, List.nil_append]
    cases Declaration.ofNames names <;> exact .pure _
  cases path with
  | some path =>
      exact (leavesFiles_readNames path).generating fun before => hnames (before ++ names)
  | none => exact hnames names

end DeclarationFile

namespace Generator

open CommandLine

section Answer
variable {files : FileTree} {configHome : Option Path} {i : Invocation} {config : Config}
  {d : Declaration}

/-- When everything can be loaded, what is shown comes of the command. -/
theorem serve_of_loads
    (hconfig : ((Config.load configHome i.config : Generating (StateM FileTree) Config) files).1 =
      .ok config)
    (hd : ((DeclarationFile.load i.params i.paramsFile :
      Generating (StateM FileTree) Declaration) files).1 = .ok d) :
    let done := (perform config d i.command : Generating (StateM FileTree) Product) files
    (serve configHome i : StateM FileTree Transcript) files =
      (.ofResult (warningsAbout configHome i.config i.logLevel files) done.1, done.2) := by
  -- What is loaded first leaves the files to what is loaded next.
  have hload : (Config.load configHome i.config : Generating (StateM FileTree) Config) files =
      (.ok config, files) :=
    Prod.ext hconfig (Config.leavesFiles_load configHome i.config files)
  have hdeclared : (DeclarationFile.load i.params i.paramsFile :
      Generating (StateM FileTree) Declaration) files = (.ok d, files) :=
    Prod.ext hd (DeclarationFile.leavesFiles_load i.params i.paramsFile files)
  have hserve := serve_eq configHome files i
  rw [work_of_loaded hload hdeclared] at hserve
  exact hserve

/-- What is shown of a run when everything that it needs can be loaded. -/
theorem serve_run {program : Option String} {texts : List String}
    (hcommand : i.command = .run program texts)
    (hconfig : ((Config.load configHome i.config : Generating (StateM FileTree) Config) files).1 =
      .ok config)
    (hd : ((DeclarationFile.load i.params i.paramsFile :
      Generating (StateM FileTree) Declaration) files).1 = .ok d) :
    (serve configHome i : StateM FileTree Transcript) files =
      (.ofResult (warningsAbout configHome i.config i.logLevel files)
        (.ok (runDriver (program.getD config.program) d texts)), files) := by
  have hserve := serve_of_loads hconfig hd
  rw [hcommand] at hserve
  exact hserve

/-- The messages about a run without a warning. -/
theorem messages_of_no_warnings (p : Product) :
    Console.messages (.ofResult [] (.ok p)) =
      p.complaint.elim "" fun message => "Error: " ++ message ++ "\n" := by
  obtain ⟨exit, out, complaint⟩ := p
  cases complaint <;> simp [Transcript.ofResult, Console.messages]

/-- What a driver yields is what its execution leaves behind. -/
theorem runDriver_eq (name : String) (d : Declaration) (texts : List String) :
    let s := Schema.ofDeclaration name d
    let argv := (name :: texts).map Utf8.encode
    let e := s.execute standardRuntime argv .unlimited
    e.code = some (runDriver name d texts).exit ∧ (runDriver name d texts).out = e.sink.stored ∧
      (runDriver name d texts).complaint = match (s.run argv .unlimited).1 with
        | .error error => some (joinChain error.chain)
        | .ok _ => Option.none := by
  intro s argv e
  have he : e = _ := Schema.execute_of_run rfl .unlimited
  have hdriver : runDriver name d texts =
      ⟨e.code.getD Status.usageErrorCode, e.sink.stored, reported? e.hooks⟩ := rfl
  rw [hdriver, he]
  rcases s.run argv .unlimited with ⟨error | status, after⟩
  · exact ⟨rfl, rfl, rfl⟩
  · exact ⟨rfl, rfl, rfl⟩

end Answer

/-- The command that runs a driver shows what the execution of the driver leaves behind. The
texts behind the first two dashes are the driver's arguments whatever they are, and the arguments
before the dashes may be any that ask for the command; among them are those that attach the values
to their options. -/
theorem respond_run (configHome : Option Path) (files : FileTree) :
    (∀ l : RunLine, l.IsLegal → twoDashes ∉ l.arguments ∧
      parse (l.arguments ++ [twoDashes]) =
        .ok ⟨l.config, none, l.params, l.paramsFile, .run l.program []⟩) ∧
    ∀ (arguments : List Bytes) (i : Invocation) (program : Option String) (config : Config)
      (d : Declaration) (texts : List String),
      twoDashes ∉ arguments → parse (arguments ++ [twoDashes]) = .ok i →
      i.command = .run program [] →
      ((Config.load configHome i.config : Generating (StateM FileTree) Config) files).1 =
        .ok config →
      ((DeclarationFile.load i.params i.paramsFile :
        Generating (StateM FileTree) Declaration) files).1 = .ok d →
      let name := program.getD config.program
      let s := Schema.ofDeclaration name d
      let argv := (name :: texts).map Utf8.encode
      let e := s.execute ⟨none, ⟨0, 2⟩⟩ argv .unlimited
      let configured := ((Config.loadLogLevel configHome i.config :
        StateM FileTree (Option String)) files).1
      ∃ t : Transcript,
        (respond configHome (arguments ++ twoDashes :: texts.map Utf8.encode) :
          StateM FileTree Transcript) files = (t, files) ∧
        e.code = some t.exit ∧ t.out = e.sink.stored ∧
        ((i.logLevel.orElse fun _ => configured).bind levelWarning? = none →
          Console.messages t = match (s.run argv .unlimited).1 with
            | .error error => "Error: " ++ joinChain error.chain ++ "\n"
            | .ok _ => "") := by
  constructor
  · intro l hl
    exact ⟨l.twoDashes_not_mem_arguments, RunLine.parse_arguments hl⟩
  · intro arguments i program config d texts hfirst hparse hcommand hconfig hd name s argv e
      configured
    have hserve := serve_run (i := { i with command := .run program texts }) rfl hconfig hd
    obtain ⟨hcode, hout, hcomplaint⟩ := runDriver_eq name d texts
    have hrespond : (respond configHome (arguments ++ twoDashes :: texts.map Utf8.encode) :
        StateM FileTree Transcript) =
          serve configHome { i with command := .run program texts } := by
      rw [respond, parse_twoDashes hfirst hparse hcommand texts]
    rw [← hrespond] at hserve
    refine ⟨_, hserve, hcode, hout, ?_⟩
    intro hlevel
    have hquiet : warningsAbout configHome i.config i.logLevel files = [] :=
      congrArg Option.toList hlevel
    rw [hquiet, messages_of_no_warnings, hcomplaint]
    cases (s.run argv .unlimited).1 <;> rfl

/-- Further dashes reach the driver, which has no use for what stands behind them. -/
theorem respond_run_further_dashes :
    let l : RunLine := ⟨none, ["alpha"], none, none⟩
    ∃ t : Transcript,
      (respond none (l.arguments ++ twoDashes :: ["--", "--param=beta"].map Utf8.encode) :
        StateM FileTree Transcript) FileTree.empty = (t, FileTree.empty) ∧
      t.exit = 2 ∧ t.out = [] ∧
      Console.messages t = "Error: Failed to parse command line: error: unexpected argument " ++
        "'--param=beta' found\n\nUsage: sweep-driver [OPTIONS]\n\n" := by
  intro l
  obtain ⟨hlines, hruns⟩ := respond_run none FileTree.empty
  have hlegal : l.IsLegal := ⟨by decide, by decide, by decide⟩
  obtain ⟨hfirst, hparse⟩ := hlines l hlegal
  let d : Declaration := ⟨["alpha"], by decide, by decide⟩
  obtain ⟨t, ht, hcode, hout, hmessages⟩ :=
    hruns l.arguments _ none .standard d ["--", "--param=beta"] hfirst hparse rfl rfl rfl
  refine ⟨t, ht, ?_, ?_, ?_⟩
  · exact (Option.some.inj (hcode.symm.trans (by decide +kernel)))
  · exact hout.trans (by decide +kernel)
  · exact (hmessages rfl).trans (by decide +kernel)

end Generator

end PointDriver

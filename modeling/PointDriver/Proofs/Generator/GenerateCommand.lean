import PointDriver.Proofs.Emitted.Agreement
import PointDriver.Proofs.Files.Writable
import PointDriver.Proofs.Generator.RunCommand
import PointDriver.Proofs.Generator.Surroundings

/-!
# The command that renders a driver

The command comes to one text, or to one failure, before it looks at where the
text is to go. Without a file for it the text is what is shown. A file gets this
text and nothing else changes, also when the file was read for the text itself;
if the text cannot be had or the file cannot be written, everything is left as
it was.
-/

namespace PointDriver.Generator

section Stages
variable {m : Type → Type} [Monad m] [Files m]

/-- The source of the driver that an invocation is about. -/
def renderSource (configHome : Option Path) (i : Invocation) (program : Option String) :
    Generating m String := do
  let config ← Config.load configHome i.config
  let d ← DeclarationFile.load i.params i.paramsFile
  let renderer ← (Package.Renderer.make config.templateDir : m _)
  renderer.renderDriver d (config.driverSettings program)

/-- Brings a source to where it is to go. -/
def deliver (output : Option Path) (quiet : Bool) (source : String) : Generating m Product :=
  match output with
  | none => pure (.ofText source)
  | some path => do
      Package.Request.writeFile path source
      pure (.ofText (wroteLine "driver to " path ++ if quiet then "" else echoHeading ++ source))

variable [LawfulMonad m]

/-- The source does not depend on where it goes. -/
theorem work_generate (configHome : Option Path) (i : Invocation) (output : Option Path)
    (program : Option String) (quiet : Bool) :
    (work configHome { i with command := .generate output program quiet } :
        Generating m Product) =
      renderSource configHome i program >>= deliver output quiet := by
  simp only [work, perform, generate, renderSource, bind_assoc]
  cases output <;> rfl

end Stages

theorem leavesFiles_renderSource (configHome : Option Path) (i : Invocation)
    (program : Option String) :
    LeavesFiles (renderSource configHome i program :
      Generating (StateM FileTree) String).run := by
  refine (Config.leavesFiles_load configHome i.config).generating fun config => ?_
  refine (DeclarationFile.leavesFiles_load i.params i.paramsFile).generating fun d => ?_
  exact (Package.Renderer.leavesFiles_liftM_make config.templateDir).generating fun renderer =>
    Package.Renderer.leavesFiles_renderDriver renderer d _

theorem eq_ok_of_toOption {ε α : Type} {x : Except ε α} {a : α} (h : x.toOption = some a) :
    x = .ok a := by
  cases x with
  | error e => cases h
  | ok b => exact congrArg Except.ok (Option.some.inj h)

/-- Whether arguments ask for what an invocation is about, rendered to a file or shown. -/
def Asks (i : Invocation) (program : Option String) (arguments : List Bytes)
    (output : Option Path) (quiet : Bool) : Prop :=
  parse arguments = .ok { i with command := .generate output program quiet }

/-- What a run shows, and the files that it leaves. -/
def Shows (configHome : Option Path) (files : FileTree) (arguments : List Bytes)
    (t : Transcript) (after : FileTree) : Prop :=
  (respond configHome arguments : StateM FileTree Transcript) files = (t, after)

section Runs
variable {configHome : Option Path} {files : FileTree} {i : Invocation} {program : Option String}
  {arguments : List Bytes} {output : Option Path} {quiet : Bool} {source : String}

theorem renderSource_run (configHome : Option Path) (files : FileTree) (i : Invocation)
    (program : Option String) :
    (renderSource configHome i program : Generating (StateM FileTree) String) files =
      (((renderSource configHome i program : Generating (StateM FileTree) String) files).1,
        files) :=
  Prod.ext rfl (leavesFiles_renderSource configHome i program files)

/-- With the built-in templates there is always a source once all is loaded. -/
theorem renderSource_of_loaded {config : Config} {d : Declaration}
    (hconfig : (Config.load configHome i.config : Generating (StateM FileTree) Config) files =
      (.ok config, files))
    (hd : (DeclarationFile.load i.params i.paramsFile :
      Generating (StateM FileTree) Declaration) files = (.ok d, files))
    (hbuiltIn : config.templateDir = none) :
    (renderSource configHome i program : Generating (StateM FileTree) String) files =
      (.ok (Skeleton.unlines (Package.sourceLines d (config.driverSettings program))), files) := by
  have hmake : (liftM (Package.Renderer.make config.templateDir :
      StateM FileTree Package.Renderer) : Generating (StateM FileTree) Package.Renderer) files =
      (.ok .builtIn, files) := by
    rw [hbuiltIn]
    rfl
  rw [renderSource, Generating.bind_of_ok hconfig, Generating.bind_of_ok hd,
    Generating.bind_of_ok hmake, Package.Renderer.renderDriver_builtIn]
  rfl

theorem ofResult_source (warnings : List String) (source : String) :
    Transcript.ofResult warnings ((Except.ok source).map Product.ofText) =
      ⟨0, Utf8.encode source, warnings, .none⟩ := rfl

/-- A run shows what comes of its source and of bringing it to where it goes. -/
theorem shows_of_work {done : Except Failure Product} {after : FileTree}
    (hasks : Asks i program arguments output quiet)
    (hwork : (work configHome { i with command := .generate output program quiet } :
      Generating (StateM FileTree) Product) files = (done, after)) :
    Shows configHome files arguments
      (.ofResult (warningsAbout configHome i.config i.logLevel files) done) after := by
  have hserve := serve_eq configHome files { i with command := .generate output program quiet }
  rw [hwork] at hserve
  rw [Shows, respond, hasks]
  exact hserve

/-- Without a source there is nothing to bring anywhere. -/
theorem shows_of_failure {failure : Failure}
    (hsource : ((renderSource configHome i program :
      Generating (StateM FileTree) String) files).1 = .error failure)
    (hasks : Asks i program arguments output quiet) :
    Shows configHome files arguments
      (.ofResult (warningsAbout configHome i.config i.logLevel files) (.error failure)) files := by
  have hrun := renderSource_run configHome files i program
  rw [hsource] at hrun
  apply shows_of_work hasks
  rw [work_generate]
  exact Generating.bind_of_error hrun

section Source
variable (hsource : ((renderSource configHome i program :
  Generating (StateM FileTree) String) files).1 = .ok source)
include hsource

theorem shows_of_source {done : Except Failure Product} {after : FileTree}
    (hdeliver : (deliver output quiet source : Generating (StateM FileTree) Product) files =
      (done, after))
    (hasks : Asks i program arguments output quiet) :
    Shows configHome files arguments
      (.ofResult (warningsAbout configHome i.config i.logLevel files) done) after := by
  have hrun := renderSource_run configHome files i program
  rw [hsource] at hrun
  apply shows_of_work hasks
  rw [work_generate]
  exact (Generating.bind_of_ok hrun).trans hdeliver

/-- A file that cannot be written is the only thing that is said. -/
theorem shows_of_unwritable {path : Path} {fault : FileFault}
    (hfault : files.Unwritable path fault)
    (hasks : Asks i program arguments (some path) quiet) :
    Shows configHome files arguments
      (.ofResult (warningsAbout configHome i.config i.logLevel files)
        (.error (.fileNotWritten path fault))) files := by
  refine shows_of_source hsource ?_ hasks
  have hwrite := Package.Request.writeFile_run path source files
  rw [FileTree.write_eq_error_iff.mpr hfault] at hwrite
  exact Generating.bind_of_error hwrite

/-- When the file has been written, this is said, and what it holds is shown if asked for. -/
theorem shows_of_written {path : Path} {after : FileTree}
    (hwritten : files.write path (Utf8.encode source) = .ok after)
    (hasks : Asks i program arguments (some path) quiet) :
    Shows configHome files arguments
      (.ofResult (warningsAbout configHome i.config i.logLevel files)
        (.ok (.ofText (wroteLine "driver to " path ++
          if quiet then "" else echoHeading ++ source)))) after := by
  refine shows_of_source hsource ?_ hasks
  have hwrite := Package.Request.writeFile_run path source files
  rw [hwritten] at hwrite
  exact Generating.bind_of_ok hwrite

end Source

end Runs

/-- The run without an output file shows a source or a failure and leaves the files as they were.
With an output file, the same failure is shown, and the files are left; or the file cannot be
written, and the files are left; or the file gets exactly the source, all else is as it was, and
the source is shown once more behind the line about the file, unless the run is to be quiet. -/
theorem respond_generate (configHome : Option Path) (files : FileTree) (i : Invocation)
    (program : Option String) :
    let source := ((renderSource configHome i program :
      Generating (StateM FileTree) String) files).1
    let plain := Transcript.ofResult (warningsAbout configHome i.config i.logLevel files)
      (source.map Product.ofText)
    (∀ arguments quiet, Asks i program arguments none quiet →
      Shows configHome files arguments plain files) ∧
    (plain.exit ≠ 0 → plain.exit = 1 ∧ plain.out = [] ∧
      ∀ arguments path quiet, Asks i program arguments (some path) quiet →
        Shows configHome files arguments plain files) ∧
    (plain.exit = 0 → ∀ path,
      (∃ fault, files.Unwritable path fault ∧
        ∀ arguments quiet, Asks i program arguments (some path) quiet →
          Shows configHome files arguments ⟨1, [], plain.warnings,
            .report ["Failed to write " ++ path.display, fault.message]⟩ files) ∨
      (∀ fault, ¬ files.Unwritable path fault) ∧
        ∃ after, files.Written path plain.out after ∧
          ∀ arguments quiet, Asks i program arguments (some path) quiet →
            Shows configHome files arguments
              ⟨0, Utf8.encode (wroteLine "driver to " path) ++
                  (if quiet then [] else Utf8.encode echoHeading ++ plain.out),
                plain.warnings, .none⟩ after) := by
  intro source plain
  cases hsource : source with
  | error failure =>
      have hplain : plain = .ofResult (warningsAbout configHome i.config i.logLevel files)
          (.error failure) := by
        simp only [plain, hsource]
        rfl
      rw [hplain]
      refine ⟨fun arguments quiet hasks => shows_of_failure hsource hasks,
        fun _ => ⟨rfl, rfl, fun arguments path quiet hasks => shows_of_failure hsource hasks⟩,
        fun hexit => ?_⟩
      cases hexit
  | ok text =>
      have hplain : plain = ⟨0, Utf8.encode text,
          warningsAbout configHome i.config i.logLevel files, .none⟩ := by
        simp only [plain, hsource, ofResult_source]
      rw [hplain]
      refine ⟨fun arguments quiet hasks => shows_of_source hsource rfl hasks,
        fun hexit => absurd rfl hexit, fun _ path => ?_⟩
      -- The source is there before the path is looked at, so the write alone decides.
      cases hwrite : files.write path (Utf8.encode text) with
      | error fault =>
          have hfault := FileTree.write_eq_error_iff.mp hwrite
          exact Or.inl ⟨fault, hfault,
            fun arguments quiet hasks => shows_of_unwritable hsource hfault hasks⟩
      | ok after =>
          refine Or.inr ⟨fun fault hfault => ?_, after, FileTree.written_of_write hwrite,
            fun arguments quiet hasks => ?_⟩
          · rw [FileTree.write_eq_error_iff.mpr hfault] at hwrite
            cases hwrite
          · have hshown := shows_of_written hsource hwrite hasks
            rw [Transcript.ofResult, Product.ofText, Utf8.encode_append] at hshown
            cases quiet with
            | true => exact hshown
            | false => simpa only [Bool.false_eq_true, if_false, Utf8.encode_append] using hshown

/-- The source may replace the file that the names were read from. -/
theorem respond_generate_over_names :
    let path := Path.ofString "p.yml"
    let files := FileTree.directory [(path, .file (Utf8.encode "- alpha\n"))]
    let d : Declaration := ⟨["alpha"], by decide, by decide⟩
    let source := Utf8.encode (Skeleton.unlines
      (Package.sourceLines d (Config.standard.driverSettings none)))
    let line (more : List String) := (["generate", "-f", "p.yml"] ++ more).map Utf8.encode
    let confirmation := Utf8.encode "✓ Wrote driver to p.yml\n"
    let heading := Utf8.encode "\n**** Generated code below ****\n\n"
    Shows none files (line []) ⟨0, source, [], .none⟩ files ∧
      ∃ after, after.read path = .ok source ∧
        Shows none files (line ["-o", "p.yml"])
          ⟨0, confirmation ++ (heading ++ source), [], .none⟩ after ∧
        Shows none files (line ["-o", "p.yml", "-q"]) ⟨0, confirmation ++ [], [], .none⟩ after := by
  intro path files d source line confirmation heading
  let i : Invocation := ⟨none, none, [], some path, .schema false⟩
  have hasks : Asks i none (line []) none false := eq_ok_of_toOption (by decide +kernel)
  have hasks_output : Asks i none (line ["-o", "p.yml"]) (some path) false :=
    eq_ok_of_toOption (by decide +kernel)
  have hasks_quiet : Asks i none (line ["-o", "p.yml", "-q"]) (some path) true :=
    eq_ok_of_toOption (by decide +kernel)
  have hsource : ((renderSource none i none : Generating (StateM FileTree) String) files).1 =
      .ok (Skeleton.unlines
        (Package.sourceLines d (Config.standard.driverSettings none))) := by
    have hconfig : (Config.load none none : Generating (StateM FileTree) Config) files =
        (.ok Config.standard, files) := rfl
    have hnames : DeclarationFile.NamesIn files (some path) ["alpha"] :=
      ⟨"- alpha\n", by decide +kernel, by decide +kernel⟩
    have hd : (DeclarationFile.load [] (some path) :
        Generating (StateM FileTree) Declaration) files = (.ok d, files) :=
      DeclarationFile.load_of_namesIn hnames []
    exact congrArg Prod.fst (renderSource_of_loaded hconfig hd rfl)
  have hwarnings : warningsAbout none i.config i.logLevel files = [] := rfl
  have hconfirmed : Utf8.encode (wroteLine "driver to " path) = confirmation := by decide +kernel
  have hwritable : ∀ fault, ¬ files.Unwritable path fault := by
    intro fault hfault
    have hwrite : files.write path [] = .error fault := FileTree.write_eq_error_iff.mpr hfault
    cases hwrite
  obtain ⟨hshown, -, hwrites⟩ := respond_generate none files i none
  rw [hsource, hwarnings, ofResult_source] at hshown hwrites
  dsimp only at hwrites
  rcases hwrites rfl path with ⟨fault, hfault, -⟩ | ⟨-, after, hwritten, hafter⟩
  · exact absurd hfault (hwritable fault)
  · rw [hconfirmed] at hafter
    exact ⟨hshown _ _ hasks, after, hwritten.read, hafter _ _ hasks_output, hafter _ _ hasks_quiet⟩

end PointDriver.Generator

import PointDriver.Generator.Transcript
import PointDriver.Proofs.Generator.Configuration

/-!
# What every command loads first

Each command begins with the configuration and the declaration, in this order,
and loading them only reads. What stops the loading is an obstacle in the files
or in the names, and it is reported in the same way whatever the command was to
do. Without an obstacle the command finds the files as they were.
-/

namespace PointDriver

/-- The text of the file at a path. -/
def FileTree.textAt (files : FileTree) (path : Path) : Except ReadFault String :=
  match files.read path with
  | .error fault => .error (.file fault)
  | .ok bytes =>
      match Utf8.decode? bytes with
      | some text => .ok text
      | none => .error .notText

theorem readText_run (path : Path) (files : FileTree) :
    (Files.readText path : StateM FileTree (Except ReadFault String)) files =
      (files.textAt path, files) := by
  have hread : (Files.read path : StateM FileTree (Except FileFault Bytes)) files =
      (files.read path, files) := rfl
  simp only [Files.readText, bind, StateT.bind, hread, FileTree.textAt]
  cases files.read path with
  | error fault => rfl
  | ok bytes => cases h : Utf8.decode? bytes <;> simp only [h] <;> rfl

section Reading
variable {α : Type} {files : FileTree} {path : Path} {fail : ReadFault → Failure}
  {next : String → Generating (StateM FileTree) α}

theorem orFail_readText_bind_of_ok {text : String} (h : files.textAt path = .ok text) :
    (Generating.orFail fail (Files.readText path) >>= next) files = next text files := by
  have hread := readText_run path files
  rw [h] at hread
  exact Generating.bind_of_ok (Generating.orFail_of_ok hread fail)

theorem orFail_readText_bind_of_error {fault : ReadFault} (h : files.textAt path = .error fault) :
    (Generating.orFail fail (Files.readText path) >>= next) files =
      (.error (fail fault), files) := by
  have hread := readText_run path files
  rw [h] at hread
  exact Generating.bind_of_error (Generating.orFail_of_error hread fail)

end Reading

namespace Config

/-- What keeps a given configuration from being loaded. -/
inductive Obstacle (files : FileTree) (explicit : Option Path) : Failure → Prop
  | unreadable {path fault} (given : explicit = some path)
      (unread : files.textAt path = .error fault) :
      Obstacle files explicit (.configUnreadable path fault)
  | malformed {path text} (given : explicit = some path) (read : files.textAt path = .ok text)
      (refused : ofText? text = none) : Obstacle files explicit (.configMalformed path)

theorem loadFile_of_error {files : FileTree} {path : Path} {fault : ReadFault}
    (h : files.textAt path = .error fault) :
    (loadFile path : Generating (StateM FileTree) Config) files =
      (.error (.configUnreadable path fault), files) :=
  orFail_readText_bind_of_error h

theorem loadFile_of_ok {files : FileTree} {path : Path} {text : String}
    (h : files.textAt path = .ok text) :
    (loadFile path : Generating (StateM FileTree) Config) files =
      ((ofText? text).elim (.error (.configMalformed path)) .ok, files) := by
  rw [loadFile, orFail_readText_bind_of_ok h]
  cases ofText? text <;> rfl

/-- A configuration is loaded, or an obstacle is the failure. -/
theorem load_cases (configHome explicit : Option Path) (files : FileTree) :
    (∃ config, (load configHome explicit : Generating (StateM FileTree) Config) files =
      (.ok config, files) ∧ ∀ f, ¬ Obstacle files explicit f) ∨
    ∃ f, Obstacle files explicit f ∧
      (load configHome explicit : Generating (StateM FileTree) Config) files =
        (.error f, files) := by
  cases explicit with
  | none =>
      refine Or.inl ⟨_, load_run configHome files, ?_⟩
      rintro f (⟨⟨⟩, -⟩ | ⟨⟨⟩, -⟩)
  | some path =>
      cases htext : files.textAt path with
      | error fault => exact Or.inr ⟨_, .unreadable rfl htext, loadFile_of_error htext⟩
      | ok text =>
          have hrun := loadFile_of_ok htext
          cases hconfig : ofText? text with
          | none =>
              rw [hconfig] at hrun
              exact Or.inr ⟨_, .malformed rfl htext hconfig, hrun⟩
          | some config =>
              rw [hconfig] at hrun
              refine Or.inl ⟨config, hrun, ?_⟩
              rintro f (⟨⟨⟩, hunread⟩ | ⟨⟨⟩, hread, hrefused⟩)
              · rw [htext] at hunread
                cases hunread
              · rw [htext] at hread
                obtain rfl := Except.ok.inj hread
                rw [hconfig] at hrefused
                cases hrefused

end Config

namespace DeclarationFile

/-- The names that a file puts before the others, if one is given. -/
def NamesIn (files : FileTree) : Option Path → List String → Prop
  | none, before => before = []
  | some path, before => ∃ text, files.textAt path = .ok text ∧ ofText? text = some before

/-- What keeps a declaration from being loaded. -/
inductive Obstacle (files : FileTree) (names : List String) (path : Option Path) : Failure → Prop
  | unreadable {file fault} (given : path = some file) (unread : files.textAt file = .error fault) :
      Obstacle files names path (.declarationUnreadable file fault)
  | malformed {file text} (given : path = some file) (read : files.textAt file = .ok text)
      (refused : ofText? text = none) : Obstacle files names path (.declarationMalformed file)
  | rejected {before error} (stored : NamesIn files path before)
      (refused : Declaration.ofNames (before ++ names) = .error error) :
      Obstacle files names path (.declarationRejected error)

theorem readNames_of_error {files : FileTree} {path : Path} {fault : ReadFault}
    (h : files.textAt path = .error fault) :
    (readNames path : Generating (StateM FileTree) (List String)) files =
      (.error (.declarationUnreadable path fault), files) :=
  orFail_readText_bind_of_error h

theorem readNames_of_ok {files : FileTree} {path : Path} {text : String}
    (h : files.textAt path = .ok text) :
    (readNames path : Generating (StateM FileTree) (List String)) files =
      ((ofText? text).elim (.error (.declarationMalformed path)) .ok, files) := by
  rw [readNames, orFail_readText_bind_of_ok h]
  cases ofText? text <;> rfl

/-- A file whose text has no names comes to nothing, whatever names are given besides. -/
theorem load_of_ofText?_none {files : FileTree} {path : Path} {text : String}
    (h : files.textAt path = .ok text) (hnone : ofText? text = none) (names : List String) :
    (load names (some path) : Generating (StateM FileTree) Declaration) files =
      (.error (.declarationMalformed path), files) := by
  have hread := readNames_of_ok h
  rw [hnone] at hread
  exact Generating.bind_of_error hread

variable {files : FileTree} {path : Option Path}

/-- With the names of the file at hand, all names together make the declaration or do not. -/
theorem load_of_namesIn {before : List String} (h : NamesIn files path before)
    (names : List String) :
    (load names path : Generating (StateM FileTree) Declaration) files =
      ((Declaration.ofNames (before ++ names)).mapError .declarationRejected, files) := by
  cases path with
  | none =>
      obtain rfl : before = [] := h
      simp only [load, pure_bind]
      cases Declaration.ofNames ([] ++ names) <;> rfl
  | some file =>
      obtain ⟨text, htext, hbefore⟩ := h
      have hrun := readNames_of_ok htext
      rw [hbefore] at hrun
      refine (Generating.bind_of_ok hrun).trans ?_
      cases hd : Declaration.ofNames (before ++ names) <;> simp only [hd] <;> rfl

theorem namesIn_unique {before other : List String} (h : NamesIn files path before)
    (ho : NamesIn files path other) : before = other := by
  cases path with
  | none => exact Eq.trans h (Eq.symm ho)
  | some file =>
      obtain ⟨text, htext, hnames⟩ := h
      obtain ⟨text', htext', hnames'⟩ := ho
      rw [htext] at htext'
      obtain rfl := Except.ok.inj htext'
      exact Option.some.inj (hnames.symm.trans hnames')

/-- A declaration is loaded, or an obstacle is the failure. -/
theorem load_cases (names : List String) (path : Option Path) (files : FileTree) :
    (∃ d, (load names path : Generating (StateM FileTree) Declaration) files = (.ok d, files) ∧
      ∀ f, ¬ Obstacle files names path f) ∨
    ∃ f, Obstacle files names path f ∧
      (load names path : Generating (StateM FileTree) Declaration) files = (.error f, files) := by
  by_cases hstored : ∃ before, NamesIn files path before
  · obtain ⟨before, hbefore⟩ := hstored
    have hrun := load_of_namesIn hbefore names
    cases hd : Declaration.ofNames (before ++ names) with
    | error error =>
        rw [hd] at hrun
        exact Or.inr ⟨_, .rejected hbefore hd, hrun⟩
    | ok d =>
        rw [hd] at hrun
        refine Or.inl ⟨d, hrun, ?_⟩
        rintro f (⟨rfl, hunread⟩ | ⟨rfl, hread, hrefused⟩ | ⟨hother, hrefused⟩)
        · obtain ⟨text, htext, -⟩ := hbefore
          rw [hunread] at htext
          cases htext
        · obtain ⟨text, htext, hnames⟩ := hbefore
          rw [hread] at htext
          obtain rfl := Except.ok.inj htext
          rw [hrefused] at hnames
          cases hnames
        · rw [← namesIn_unique hbefore hother, hd] at hrefused
          cases hrefused
  · cases path with
    | none => exact absurd ⟨[], rfl⟩ hstored
    | some file =>
        right
        cases htext : files.textAt file with
        | error fault =>
            exact ⟨_, .unreadable rfl htext, Generating.bind_of_error (readNames_of_error htext)⟩
        | ok text =>
            cases hnames : ofText? text with
            | some before => exact absurd ⟨before, text, htext, hnames⟩ hstored
            | none =>
                exact ⟨_, .malformed rfl htext hnames, load_of_ofText?_none htext hnames names⟩

end DeclarationFile

namespace Generator

/-- What a run shows of the result of its work. -/
def Transcript.ofResult (warnings : List String) : Except Failure Product → Transcript
  | .error f => ⟨1, [], warnings, .report (reportChain f)⟩
  | .ok p => ⟨p.exit, p.out, warnings, match p.complaint with
      | some message => .runtimeError message
      | Option.none => .none⟩

/-- What is said about the level to log at, given or configured. -/
def warningsAbout (configHome config : Option Path) (logLevel : Option String)
    (files : FileTree) : List String :=
  let configured := ((Config.loadLogLevel configHome config : StateM FileTree (Option String))
    files).1
  ((logLevel.orElse fun _ => configured).bind levelWarning?).toList

section Work
variable {configHome : Option Path} {files : FileTree} {i : Invocation}

/-- Looking for the level leaves the files to the work. -/
theorem serve_eq (configHome : Option Path) (files : FileTree) (i : Invocation) :
    let done := (work configHome i : Generating (StateM FileTree) Product) files
    (serve configHome i : StateM FileTree Transcript) files =
      (.ofResult (warningsAbout configHome i.config i.logLevel files) done.1, done.2) := by
  intro done
  have hlevel : (Config.loadLogLevel configHome i.config : StateM FileTree (Option String)) files =
      (((Config.loadLogLevel configHome i.config : StateM FileTree (Option String)) files).1,
        files) :=
    Prod.ext rfl (Config.leavesFiles_loadLogLevel configHome i.config files)
  simp only [serve, bind, StateT.bind, ExceptT.run]
  rw [hlevel]
  simp only [done]
  rcases (work configHome i : Generating (StateM FileTree) Product) files with ⟨f | p, after⟩
  · rfl
  · rfl

/-- An obstacle to the configuration is met before anything else. -/
theorem work_of_config_obstacle {f : Failure}
    (h : (Config.load configHome i.config : Generating (StateM FileTree) Config) files =
      (.error f, files)) :
    (work configHome i : Generating (StateM FileTree) Product) files = (.error f, files) :=
  Generating.bind_of_error h

section Loaded
variable {config : Config}
  (hconfig : (Config.load configHome i.config : Generating (StateM FileTree) Config) files =
    (.ok config, files))
include hconfig

/-- An obstacle to the declaration is met before the command. -/
theorem work_of_declaration_obstacle {f : Failure}
    (h : (DeclarationFile.load i.params i.paramsFile :
      Generating (StateM FileTree) Declaration) files = (.error f, files)) :
    (work configHome i : Generating (StateM FileTree) Product) files = (.error f, files) :=
  (Generating.bind_of_ok hconfig).trans (Generating.bind_of_error h)

/-- A command is performed on the files as they were. -/
theorem work_of_loaded {d : Declaration}
    (h : (DeclarationFile.load i.params i.paramsFile :
      Generating (StateM FileTree) Declaration) files = (.ok d, files)) :
    (work configHome i : Generating (StateM FileTree) Product) files =
      (perform config d i.command : Generating (StateM FileTree) Product) files :=
  (Generating.bind_of_ok hconfig).trans (Generating.bind_of_ok h)

end Loaded

end Work

/-- Every run whose loading meets an obstacle ends in the same way: with exit code 1, without
output, with the files as they were, and with the chain about the first obstacle. The command and
its own options have no part in this. -/
theorem respond_of_obstacle (configHome : Option Path) (files : FileTree) (config : Option Path)
    (logLevel : Option String) (params : List String) (paramsFile : Option Path)
    (h : (∃ f, Config.Obstacle files config f) ∨
      ∃ f, DeclarationFile.Obstacle files params paramsFile f) :
    ∃ f warnings,
      (Config.Obstacle files config f ∨
        (∀ g, ¬ Config.Obstacle files config g) ∧
          DeclarationFile.Obstacle files params paramsFile f) ∧
      ∀ arguments i, parse arguments = .ok i → i.config = config → i.logLevel = logLevel →
        i.params = params → i.paramsFile = paramsFile →
        (respond configHome arguments : StateM FileTree Transcript) files =
          (⟨1, [], warnings, .report (reportChain f)⟩, files) := by
  have hrespond : ∀ f arguments i, parse arguments = .ok i → i.config = config →
      i.logLevel = logLevel →
      (work configHome i : Generating (StateM FileTree) Product) files = (.error f, files) →
      (respond configHome arguments : StateM FileTree Transcript) files =
        (⟨1, [], warningsAbout configHome config logLevel files, .report (reportChain f)⟩,
          files) := by
    rintro f arguments i hparse rfl rfl hwork
    rw [respond, hparse]
    have hserve := serve_eq configHome files i
    rw [hwork] at hserve
    exact hserve
  rcases Config.load_cases configHome config files with ⟨loaded, hload, hfree⟩ | ⟨f, hf, hload⟩
  · have hdeclaration := h.resolve_left (fun ⟨f, hf⟩ => hfree f hf)
    rcases DeclarationFile.load_cases params paramsFile files with
      ⟨d, -, hfree'⟩ | ⟨f, hf, hdeclared⟩
    · obtain ⟨f, hf⟩ := hdeclaration
      exact absurd hf (hfree' f)
    · refine ⟨f, warningsAbout configHome config logLevel files, Or.inr ⟨hfree, hf⟩, ?_⟩
      rintro arguments i hparse rfl rfl rfl rfl
      exact hrespond f arguments i hparse rfl rfl (work_of_declaration_obstacle hload hdeclared)
  · refine ⟨f, warningsAbout configHome config logLevel files, Or.inl hf, ?_⟩
    rintro arguments i hparse rfl rfl - -
    exact hrespond f arguments i hparse rfl rfl (work_of_config_obstacle hload)

/-- Every command refuses the name with a capital letter in the same words. -/
theorem respond_refused_name :
    let lines : List (List String × Command) :=
      [(["generate", "-p", "Alpha"], .generate none none false),
        (["generate", "-p", "Alpha", "-o", "a.rs"], .generate (Path.ofString "a.rs") none false),
        (["init", "a", "-p", "Alpha"], .init (Path.ofString "a") none none false),
        (["init", "a", "-p", "Alpha", "--force"], .init (Path.ofString "a") none none true),
        (["schema", "-p", "Alpha"], .schema false),
        (["schema", "-p", "Alpha", "--json"], .schema true),
        (["run", "-p", "Alpha", "--", "--help"], .run none ["--help"])]
    ∃ warnings, ∀ l ∈ lines,
      (respond none (l.1.map Utf8.encode) : StateM FileTree Transcript) FileTree.empty =
        (⟨1, [], warnings, .report ["Invalid parameter declaration",
          "Parameter name 'Alpha' must start with a lowercase letter or '_' and contain only " ++
            "[a-z0-9_]"]⟩, FileTree.empty) := by
  intro lines
  have hnames : Declaration.ofNames ([] ++ ["Alpha"]) = .error (.invalidName "Alpha") := rfl
  obtain ⟨f, warnings, hf, hrespond⟩ := respond_of_obstacle none FileTree.empty none none ["Alpha"]
    none (Or.inr ⟨_, .rejected rfl hnames⟩)
  refine ⟨warnings, fun l hl => ?_⟩
  have hparses : ∀ l ∈ lines, (parse (l.1.map Utf8.encode)).toOption =
      some ⟨none, none, ["Alpha"], none, l.2⟩ := by decide +kernel
  have hparse : parse (l.1.map Utf8.encode) = .ok ⟨none, none, ["Alpha"], none, l.2⟩ := by
    have hl := hparses l hl
    cases hp : parse (l.1.map Utf8.encode) with
    | error refusal =>
        rw [hp] at hl
        cases hl
    | ok i =>
        rw [hp] at hl
        exact congrArg Except.ok (Option.some.inj hl)
  rw [hrespond _ _ hparse rfl rfl rfl rfl]
  rcases hf with (⟨⟨⟩, -⟩ | ⟨⟨⟩, -⟩) | ⟨-, ⟨⟨⟩, -⟩ | ⟨⟨⟩, -⟩ | ⟨rfl, hrefused⟩⟩
  rw [hnames] at hrefused
  cases hrefused
  rfl

end Generator

end PointDriver

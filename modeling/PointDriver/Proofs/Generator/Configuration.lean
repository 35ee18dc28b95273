import PointDriver.Generator.Config
import PointDriver.Proofs.Files.Reading

/-!
# Loading a configuration

Loading leaves the files as they are. Without a given path the configuration is
that of the first file that is there and can be used. The level to log at is
read early, from the first file that is there, whether or not it can be used.
The two agree unless the configuration has a level and that file is unusable.
-/

namespace PointDriver

namespace Config

theorem leavesFiles_loadFile (path : Path) :
    LeavesFiles (loadFile path : Generating (StateM FileTree) Config).run := by
  apply LeavesFiles.generating ((LeavesFiles.readText path).orFail _)
  intro text
  cases ofText? text <;> exact .pure _

theorem leavesFiles_loadFirst (paths : List Path) :
    LeavesFiles (loadFirst paths : StateM FileTree Config) := by
  induction paths with
  | nil => exact .pure _
  | cons path rest ih =>
      apply (LeavesFiles.isThere path).bind
      rintro (_ | _)
      · exact ih
      · apply (leavesFiles_loadFile path).bind
        rintro (fault | config)
        · exact ih
        · exact .pure _

theorem leavesFiles_load (configHome explicit : Option Path) :
    LeavesFiles (load configHome explicit : Generating (StateM FileTree) Config).run := by
  cases explicit with
  | some path => exact leavesFiles_loadFile path
  | none =>
      have hfirst := leavesFiles_loadFirst (defaultPaths configHome)
      exact LeavesFiles.bind hfirst fun config => .pure (Except.ok config)

theorem leavesFiles_firstThere (paths : List Path) :
    LeavesFiles (firstThere paths : StateM FileTree (Option Path)) := by
  induction paths with
  | nil => exact .pure _
  | cons path rest ih =>
      apply (LeavesFiles.isThere path).bind
      rintro (_ | _)
      · exact ih
      · exact .pure _

theorem leavesFiles_loadLogLevel (configHome explicit : Option Path) :
    LeavesFiles (loadLogLevel configHome explicit : StateM FileTree (Option String)) := by
  have hlevel : ∀ path : Path,
      LeavesFiles (loadLogLevel configHome (some path) : StateM FileTree (Option String)) := by
    intro path
    simp only [loadLogLevel, pure_bind]
    apply (leavesFiles_loadFile path).bind
    rintro (fault | config)
    · exact .pure _
    · exact .pure _
  cases explicit with
  | some path => exact hlevel path
  | none =>
      apply (leavesFiles_firstThere _).bind
      rintro (_ | path)
      · exact .pure _
      · exact hlevel path

/-- Whether a path leads to something. -/
def isThere (files : FileTree) (path : Path) : Bool := (files.find path).isOk

/-- The configuration in a file, if it can be used. -/
def usable? (files : FileTree) (path : Path) : Option Config :=
  ((loadFile path : Generating (StateM FileTree) Config) files).1.toOption

/-- The file that the level is read from. -/
def levelSource? (files : FileTree) (configHome explicit : Option Path) : Option Path :=
  explicit.or ((defaultPaths configHome).find? (isThere files))

section Loading
variable {configHome explicit : Option Path} {files : FileTree} {config : Config} {path : Path}

/-- A file can be used or not; reading it changes nothing. -/
theorem loadFile_cases (path : Path) (files : FileTree) :
    (∃ config, usable? files path = some config ∧
      (loadFile path : Generating (StateM FileTree) Config) files = (.ok config, files)) ∨
    ∃ failure, usable? files path = none ∧
      (loadFile path : Generating (StateM FileTree) Config) files = (.error failure, files) := by
  rcases (leavesFiles_loadFile path).run_cases files with ⟨config, hrun⟩ | ⟨failure, hrun⟩
  · exact Or.inl ⟨config, by rw [usable?, hrun]; rfl, hrun⟩
  · exact Or.inr ⟨failure, by rw [usable?, hrun]; rfl, hrun⟩

theorem loadFile_of_usable? (h : usable? files path = some config) :
    (loadFile path : Generating (StateM FileTree) Config) files = (.ok config, files) := by
  rcases loadFile_cases path files with ⟨loaded, husable, hrun⟩ | ⟨failure, husable, hrun⟩
  · rwa [← Option.some.inj (husable.symm.trans h)]
  · rw [h] at husable
    cases husable

theorem isThere_bind {α : Type} (path : Path) (f : Bool → StateM FileTree α) (files : FileTree) :
    ((Files.isThere path : StateM FileTree Bool) >>= f) files = f (isThere files path) files := rfl

/-- The configuration is that of the first file that is there and can be used. -/
theorem loadFirst_run (paths : List Path) (files : FileTree) :
    (loadFirst paths : StateM FileTree Config) files =
      (((paths.filter (isThere files)).findSome? (usable? files)).getD standard, files) := by
  induction paths with
  | nil => rfl
  | cons path rest ih =>
      rw [loadFirst, isThere_bind, List.filter_cons]
      cases isThere files path with
      | false => exact ih
      | true =>
          rcases loadFile_cases path files with ⟨config, husable, hrun⟩ | ⟨failure, husable, hrun⟩
          · simp only [if_true, bind, StateT.bind, ExceptT.run, hrun, List.findSome?_cons, husable]
            rfl
          · simp only [if_true, bind, StateT.bind, ExceptT.run, hrun, List.findSome?_cons, husable]
            exact ih

theorem load_run (configHome : Option Path) (files : FileTree) :
    (load configHome none : Generating (StateM FileTree) Config) files =
      (.ok ((((defaultPaths configHome).filter (isThere files)).findSome? (usable? files)).getD
        standard), files) := by
  have hlift : (load configHome none : Generating (StateM FileTree) Config) files =
      ((.ok ((loadFirst (defaultPaths configHome) : StateM FileTree Config) files).1),
        ((loadFirst (defaultPaths configHome) : StateM FileTree Config) files).2) := rfl
  rw [hlift, loadFirst_run]

theorem firstThere_run (paths : List Path) (files : FileTree) :
    (firstThere paths : StateM FileTree (Option Path)) files =
      (paths.find? (isThere files), files) := by
  induction paths with
  | nil => rfl
  | cons path rest ih =>
      rw [firstThere, isThere_bind, List.find?_cons]
      cases isThere files path with
      | false => exact ih
      | true => rfl

/-- The level is read from one file, if that can be used. -/
theorem loadLogLevel_run (configHome explicit : Option Path) (files : FileTree) :
    (loadLogLevel configHome explicit : StateM FileTree (Option String)) files =
      (((levelSource? files configHome explicit).bind (usable? files)).bind (·.logLevel),
        files) := by
  have hgiven : ∀ path : Path,
      (loadLogLevel configHome (some path) : StateM FileTree (Option String)) files =
        ((usable? files path).bind (·.logLevel), files) := by
    intro path
    simp only [loadLogLevel, pure_bind]
    simp only [bind, StateT.bind, ExceptT.run]
    rcases loadFile_cases path files with ⟨config, husable, hrun⟩ | ⟨failure, husable, hrun⟩
    · rw [hrun, husable]
      rfl
    · rw [hrun, husable]
      rfl
  cases explicit with
  | some path => exact hgiven path
  | none =>
      simp only [loadLogLevel, bind, StateT.bind, firstThere_run, levelSource?, Option.none_or]
      cases (defaultPaths configHome).find? (isThere files) with
      | none => rfl
      | some path => exact hgiven path

/-- A usable file that the level is read from is the file that is loaded. -/
theorem eq_of_levelSource? {found : Config}
    (h : ((load configHome explicit : Generating (StateM FileTree) Config) files).1 = .ok config)
    (hsource : levelSource? files configHome explicit = some path)
    (hfound : usable? files path = some found) : config = found := by
  cases explicit with
  | some given =>
      obtain rfl : given = path := Option.some.inj hsource
      rw [load, loadFile_of_usable? hfound] at h
      exact (Except.ok.inj h).symm
  | none =>
      rw [levelSource?, Option.none_or, ← List.head?_filter] at hsource
      obtain ⟨rest, hthere⟩ := List.head?_eq_some_iff.mp hsource
      rw [load_run, hthere, List.findSome?_cons, hfound] at h
      exact (Except.ok.inj h).symm

/-- Where the level is read from no file, the configuration has none. -/
theorem logLevel_of_levelSource?
    (h : ((load configHome explicit : Generating (StateM FileTree) Config) files).1 = .ok config)
    (hsource : levelSource? files configHome explicit = none) : config.logLevel = none := by
  cases explicit with
  | some given => cases hsource
  | none =>
      rw [levelSource?, Option.none_or, ← List.head?_filter] at hsource
      rw [load_run, List.head?_eq_none_iff.mp hsource] at h
      rw [← Except.ok.inj h]
      rfl

/-- When a configuration is loaded, the level read early is that of the configuration, or none.
It is that of the configuration exactly if this has no level or the file that the level is read
from can be used. -/
theorem loadLogLevel_eq_iff
    (h : ((load configHome explicit : Generating (StateM FileTree) Config) files).1 = .ok config) :
    let level := ((loadLogLevel configHome explicit : StateM FileTree (Option String)) files).1
    (level = config.logLevel ∨ level = none) ∧
      (level = config.logLevel ↔ config.logLevel = none ∨
        ∀ path, levelSource? files configHome explicit = some path →
          (usable? files path).isSome = true) := by
  intro level
  have hlevel : level =
      ((levelSource? files configHome explicit).bind (usable? files)).bind (·.logLevel) :=
    congrArg Prod.fst (loadLogLevel_run configHome explicit files)
  cases hsource : levelSource? files configHome explicit with
  | none =>
      rw [hsource] at hlevel
      have hnone := logLevel_of_levelSource? h hsource
      simp [hlevel, hnone]
  | some path =>
      rw [hsource, Option.bind_some] at hlevel
      cases husable : usable? files path with
      | some found =>
          obtain rfl := eq_of_levelSource? h hsource husable
          simp [hlevel, husable]
      | none =>
          rw [husable, Option.bind_none] at hlevel
          refine ⟨Or.inr hlevel, ?_⟩
          rw [hlevel]
          constructor
          · exact fun hnone => Or.inl hnone.symm
          · rintro (hnone | hall)
            · exact hnone.symm
            · have hsome := hall path rfl
              rw [husable] at hsome
              cases hsome

end Loading

/-- A malformed file stands before a good one. -/
def malformedFirst : FileTree :=
  .directory [(Path.ofString ".sweepgen.yml", .file (Utf8.encode "log-level: [")),
    (Path.ofString "home", .directory [(Path.ofString "sweepgen", .directory
      [(Path.ofString "sweepgen.yml", .file (Utf8.encode "log-level: debug"))])])]

/-- The good file alone is read for its level. -/
theorem loadLogLevel_given :
    let path := Path.ofString "home/sweepgen/sweepgen.yml"
    let config := { standard with logLevel := some "debug" }
    ((load none (some path) : Generating (StateM FileTree) Config) malformedFirst).1 = .ok config ∧
      ((loadLogLevel none (some path) : StateM FileTree (Option String)) malformedFirst).1 =
        config.logLevel := by
  intro path config
  have hload : ((load none (some path) : Generating (StateM FileTree) Config) malformedFirst).1 =
      .ok config :=
    congrArg Prod.fst (loadFile_of_usable? (by decide +kernel))
  refine ⟨hload, (loadLogLevel_eq_iff hload).2.mpr (Or.inr ?_)⟩
  rintro _ ⟨⟩
  decide +kernel

/-- The malformed file hides the level of the good one, which is loaded. -/
theorem not_loadLogLevel_eq : ¬ ∀ (configHome explicit : Option Path) (files : FileTree)
    (config : Config),
    ((load configHome explicit : Generating (StateM FileTree) Config) files).1 = .ok config →
      ((loadLogLevel configHome explicit : StateM FileTree (Option String)) files).1 =
        config.logLevel := by
  intro hall
  have hconfig : (((defaultPaths (some (Path.ofString "home"))).filter
      (isThere malformedFirst)).findSome? (usable? malformedFirst)).getD standard =
      { standard with logLevel := some "debug" } := by decide +kernel
  have hload := congrArg Prod.fst (load_run (some (Path.ofString "home")) malformedFirst)
  rw [hconfig] at hload
  exact absurd (hall _ none malformedFirst _ hload) (by decide +kernel)

end Config

end PointDriver

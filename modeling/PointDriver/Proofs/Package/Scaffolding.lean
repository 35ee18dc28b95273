import PointDriver.Package.Scaffold
import PointDriver.Proofs.Files.Clearing
import PointDriver.Proofs.Files.Reading

/-!
# Steps of scaffolding

A package is laid down in two stages. What is to be written is prepared first,
which changes nothing. Then the directories are made and the two files written
at fixed places below the location that the root leads to.
-/

namespace PointDriver.Package
open FileTree Files

/-- The name of a manifest. -/
def manifestName : Bytes := Path.ofString "Cargo.toml"

/-- The name of the directory of a source file. -/
def sourceName : Bytes := Path.ofString "src"

/-- The name of a source file. -/
def mainName : Bytes := Path.ofString "main.rs"

/-- Where a package is, given its root. -/
def home (root : Path) : Location := destination [] root.pieces

/-- Where the manifest of a package is. -/
def manifestPlace (root : Path) : Location := home root ++ [manifestName]

/-- Where the directory of the source file of a package is. -/
def sourcePlace (root : Path) : Location := home root ++ [sourceName]

/-- Where the source file of a package is. -/
def mainPlace (root : Path) : Location := sourcePlace root ++ [mainName]

/-- Whether all that a root leads through lies on the way to where it leads. -/
def IsDirect (root : Path) : Prop := ∀ place ∈ route [] root.pieces, place <+: home root

instance (root : Path) : Decidable (IsDirect root) :=
  inferInstanceAs (Decidable (∀ place ∈ route [] root.pieces, place <+: home root))

section Names

theorem onward_manifestName : Path.Onward manifestName := by decide +kernel

theorem onward_sourceName : Path.Onward sourceName := by decide +kernel

theorem onward_mainName : Path.Onward mainName := by decide +kernel

theorem onward_main : Path.Onward (sourceName ++ Path.slash :: mainName) := by decide +kernel

/-- Of the paths below a root, the one to the source file is the longest. -/
theorem lengths_increase : sourceName.length ≤ manifestName.length ∧
    manifestName.length ≤ (sourceName ++ Path.slash :: mainName).length := by
  decide +kernel

theorem manifestName_ne_sourceName : manifestName ≠ sourceName := by decide +kernel

theorem sourceName_ne_here : sourceName ≠ Path.here := by decide +kernel

theorem sourceName_ne_up : sourceName ≠ Path.up := by decide +kernel

end Names

section Places

/-- A root that never goes up leads straight to where it leads. -/
theorem isDirect_of_up_notMem {root : Path} (h : Path.up ∉ root.pieces) : IsDirect root :=
  fun _ hp => isPrefix_destination h hp

theorem mainPlace_eq (root : Path) : mainPlace root = home root ++ [sourceName, mainName] := by
  simp [mainPlace, sourcePlace]

theorem manifestPlace_not_prefix_sourcePlace (root : Path) :
    ¬ manifestPlace root <+: sourcePlace root := by
  rw [manifestPlace, sourcePlace, List.prefix_append_right_inj, List.cons_prefix_cons]
  rintro ⟨h, -⟩
  exact absurd h manifestName_ne_sourceName

theorem manifestPlace_not_prefix_mainPlace (root : Path) :
    ¬ manifestPlace root <+: mainPlace root := by
  rw [manifestPlace, mainPlace_eq, List.prefix_append_right_inj, List.cons_prefix_cons]
  rintro ⟨h, -⟩
  exact absurd h manifestName_ne_sourceName

theorem mainPlace_not_prefix_manifestPlace (root : Path) :
    ¬ mainPlace root <+: manifestPlace root := by
  rw [manifestPlace, mainPlace_eq, List.prefix_append_right_inj, List.cons_prefix_cons]
  rintro ⟨-, h⟩
  exact absurd (List.prefix_nil.mp h) (List.cons_ne_nil _ _)

theorem mainPlace_not_prefix_sourcePlace (root : Path) :
    ¬ mainPlace root <+: sourcePlace root := by
  intro h
  have hlength := h.length_le
  rw [mainPlace, List.length_append, List.length_singleton] at hlength
  exact Nat.not_succ_le_self _ hlength

end Places

namespace Renderer

theorem leavesFiles_builtInTemplate (name : String) :
    LeavesFiles (builtInTemplate name : Generating (StateM FileTree) String).run := by
  unfold builtInTemplate
  cases Skeleton.template? name <;> exact .pure _

theorem leavesFiles_template (renderer : Renderer) (name : String) :
    LeavesFiles (renderer.template name : Generating (StateM FileTree) String).run := by
  unfold template
  cases renderer.templateDir with
  | none => exact leavesFiles_builtInTemplate name
  | some dir =>
      have hthere : LeavesFiles (liftM (Files.isThere (dir.join (Path.ofString (name ++ ".hbs"))) :
          StateM FileTree Bool) : Generating (StateM FileTree) Bool).run :=
        (LeavesFiles.isThere _).bind fun _ => .pure _
      refine hthere.generating fun there => ?_
      cases there with
      | true => exact .orFail (.readText _) _
      | false => exact leavesFiles_builtInTemplate name

theorem leavesFiles_render (renderer : Renderer) (name : String) (context : Json) :
    LeavesFiles (renderer.render name context : Generating (StateM FileTree) String).run := by
  refine (leavesFiles_template renderer name).generating fun text => ?_
  cases Template.render? text context <;> exact .pure _

theorem leavesFiles_renderDriver (renderer : Renderer) (d : Declaration) (s : DriverSettings) :
    LeavesFiles (renderer.renderDriver d s : Generating (StateM FileTree) String).run :=
  leavesFiles_render renderer _ _

theorem leavesFiles_renderManifest (renderer : Renderer) (package : String) (d : Declaration)
    (s : DriverSettings) (dependency : String) :
    LeavesFiles
      (renderer.renderManifest package d s dependency : Generating (StateM FileTree) String).run :=
  leavesFiles_render renderer _ _

end Renderer

namespace Request
variable {r : Request}

theorem pieces_manifest (r : Request) : r.files.manifest.pieces = r.root.pieces ++ [manifestName] :=
  Path.pieces_join r.root onward_manifestName.relative

theorem pieces_sourceDir (r : Request) : r.sourceDir.pieces = r.root.pieces ++ [sourceName] :=
  Path.pieces_join r.root onward_sourceName.relative

theorem up_notMem_sourceDir (h : Path.up ∉ r.root.pieces) : Path.up ∉ r.sourceDir.pieces := by
  rw [pieces_sourceDir, List.mem_append, List.mem_singleton, not_or]
  exact ⟨h, sourceName_ne_up.symm⟩

theorem pieces_main (r : Request) : r.files.main.pieces = r.sourceDir.pieces ++ [mainName] :=
  Path.pieces_join r.sourceDir onward_mainName.relative

theorem endsWithSlash_manifest (r : Request) : endsWithSlash r.files.manifest = false :=
  onward_manifestName.endsWithSlash r.root

theorem endsWithSlash_main (r : Request) : endsWithSlash r.files.main = false :=
  onward_mainName.endsWithSlash r.sourceDir

/-- The source file is below the root, as the manifest and the directory of the source file are. -/
theorem main_eq_join (r : Request) :
    r.files.main = r.root.join (sourceName ++ Path.slash :: mainName) :=
  onward_sourceName.join_join onward_mainName r.root

section Limits

theorem fits_manifest_or_refused (h : r.sourceDir.Fits) :
    r.files.manifest.Fits ∨
      Path.lengthLimit < r.files.manifest.length ∧
        refusal? r.files.manifest = some .nameTooLong :=
  h.join_cases onward_sourceName onward_manifestName

theorem fits_main_or_refused (h : r.sourceDir.Fits) :
    r.files.main.Fits ∨
      Path.lengthLimit < r.files.main.length ∧ refusal? r.files.main = some .nameTooLong := by
  rw [main_eq_join]
  exact h.join_cases onward_sourceName onward_main

theorem fits_sourceDir_of_manifest (h : r.files.manifest.Fits) : r.sourceDir.Fits :=
  h.join_of_le onward_manifestName onward_sourceName lengths_increase.1

theorem fits_manifest_of_main (h : r.files.main.Fits) : r.files.manifest.Fits := by
  rw [main_eq_join] at h
  exact h.join_of_le onward_main onward_manifestName lengths_increase.2

end Limits

theorem route_sourceDir (r : Request) :
    route [] r.sourceDir.pieces = route [] r.root.pieces ++ [sourcePlace r.root] := by
  have hstep : step (home r.root) sourceName = sourcePlace r.root := rfl
  rw [pieces_sourceDir, route_concat, ← hstep]
  rfl

theorem mem_route_sourceDir {place : Location} (h : place ∈ route [] r.root.pieces) :
    place ∈ route [] r.sourceDir.pieces := by
  rw [route_sourceDir]
  exact List.mem_append_left _ h

theorem home_mem_route_sourceDir (r : Request) : home r.root ∈ route [] r.sourceDir.pieces :=
  mem_route_sourceDir (destination_mem_route [] r.root.pieces)

theorem sourcePlace_mem_route (r : Request) :
    sourcePlace r.root ∈ route [] r.sourceDir.pieces := by
  rw [route_sourceDir]
  exact List.mem_append_right _ List.mem_cons_self

theorem step_manifest (r : Request) :
    step (destination [] r.root.pieces) manifestName = manifestPlace r.root := rfl

theorem step_main (r : Request) :
    step (destination [] r.sourceDir.pieces) mainName = mainPlace r.root := by
  rw [pieces_sourceDir, destination_append]
  rfl

section Rendering
variable {m : Type → Type} [Monad m] [Files m]

/-- Makes the directories and writes the files. -/
def lay (r : Request) (manifest main : String) : Generating m Scaffolded := do
  Generating.orFail (.directoryNotMade r.sourceDir) (Files.makeDirectories r.sourceDir)
  writeFile r.files.manifest manifest
  writeFile r.files.main main
  pure r.files

end Rendering

/-- What an unforced request needs before anything is changed: a name for the package, both
texts, and no file or directory where they go. -/
structure Ready (renderer : Renderer) (r : Request) (files : FileTree) (manifest main : String) :
    Prop where
  manifestFree : (files.find r.files.manifest).isOk = false
  mainFree : (files.find r.files.main).isOk = false
  manifest : ∃ package, r.packageName? = some package ∧
    (renderer.renderManifest package r.declaration r.settings r.dependency :
      Generating (StateM FileTree) String) files = (.ok manifest, files)
  main : (renderer.renderDriver r.declaration r.settings :
    Generating (StateM FileTree) String) files = (.ok main, files)

/-- Why an unforced request is stopped before anything is changed. -/
inductive Unready (renderer : Renderer) (r : Request) (files : FileTree) : Failure → Prop
  | unnamed (h : r.packageName? = none) : Unready renderer r files (.packageNameMissing r.root)
  | manifestThere (h : (files.find r.files.manifest).isOk = true) :
      Unready renderer r files (.overwriteRefused r.files.manifest)
  | mainThere (h : (files.find r.files.main).isOk = true) :
      Unready renderer r files (.overwriteRefused r.files.main)
  | manifestUnrendered {failure : Failure} {package : String}
      (hname : r.packageName? = some package)
      (h : ((renderer.renderManifest package r.declaration r.settings r.dependency :
        Generating (StateM FileTree) String) files).1 = .error failure) :
      Unready renderer r files failure
  | mainUnrendered {failure : Failure}
      (h : ((renderer.renderDriver r.declaration r.settings :
        Generating (StateM FileTree) String) files).1 = .error failure) :
      Unready renderer r files failure

section Preparing
variable {renderer : Renderer} {files : FileTree} {manifest main package : String}

theorem refuse_run (path : Path) (files : FileTree) :
    (refuse path : Generating (StateM FileTree) Unit) files =
      if (files.find path).isOk then (.error (.overwriteRefused path), files)
      else (.ok (), files) := by
  unfold refuse
  have hthere : (liftM (Files.isThere path : StateM FileTree Bool) :
      Generating (StateM FileTree) Bool) files = (.ok (files.find path).isOk, files) := rfl
  rw [Generating.bind_of_ok hthere]
  cases (files.find path).isOk <;> rfl

theorem scaffold_eq (hname : r.packageName? = some package) (hforce : r.force = false) :
    (r.scaffold renderer : Generating (StateM FileTree) Scaffolded) = (do
      refuse r.files.manifest
      refuse r.files.main
      let manifest ← renderer.renderManifest package r.declaration r.settings r.dependency
      let main ← renderer.renderDriver r.declaration r.settings
      r.lay manifest main) := by
  simp [scaffold, hname, hforce, lay]

/-- A request that is ready is laid down. -/
theorem scaffold_of_ready (hforce : r.force = false) (h : Ready renderer r files manifest main) :
    (r.scaffold renderer : Generating (StateM FileTree) Scaffolded) files =
      (r.lay manifest main : Generating (StateM FileTree) Scaffolded) files := by
  obtain ⟨hmanifestFree, hmainFree, ⟨package, hname, hmanifest⟩, hmain⟩ := h
  have hfirst := refuse_run r.files.manifest files
  have hsecond := refuse_run r.files.main files
  rw [hmanifestFree] at hfirst
  rw [hmainFree] at hsecond
  rw [scaffold_eq hname hforce, Generating.bind_of_ok hfirst, Generating.bind_of_ok hsecond,
    Generating.bind_of_ok hmanifest, Generating.bind_of_ok hmain]

/-- A manifest that is there is not overwritten. -/
theorem scaffold_refused (hname : r.packageName? ≠ none) (hforce : r.force = false)
    (h : (files.find r.files.manifest).isOk = true) :
    (r.scaffold renderer : Generating (StateM FileTree) Scaffolded) files =
      (.error (.overwriteRefused r.files.manifest), files) := by
  obtain ⟨package, hname⟩ := Option.ne_none_iff_exists'.mp hname
  have hfirst := refuse_run r.files.manifest files
  rw [h] at hfirst
  rw [scaffold_eq hname hforce, Generating.bind_of_error hfirst]

/-- An unforced request is ready, or there is a reason why it is stopped and nothing changes. -/
theorem ready_or_unready (renderer : Renderer) (hforce : r.force = false) (files : FileTree) :
    (∃ manifest main, Ready renderer r files manifest main) ∨
      ∃ failure, Unready renderer r files failure ∧
        (r.scaffold renderer : Generating (StateM FileTree) Scaffolded) files =
          (.error failure, files) := by
  cases hname : r.packageName? with
  | none =>
      refine Or.inr ⟨_, .unnamed hname, ?_⟩
      rw [scaffold, hname]
      rfl
  | some package =>
      have hfirst := refuse_run r.files.manifest files
      have hsecond := refuse_run r.files.main files
      cases hmanifestThere : (files.find r.files.manifest).isOk with
      | true =>
          exact Or.inr ⟨_, .manifestThere hmanifestThere,
            scaffold_refused (by simp [hname]) hforce hmanifestThere⟩
      | false =>
          rw [hmanifestThere] at hfirst
          cases hmainThere : (files.find r.files.main).isOk with
          | true =>
              rw [hmainThere] at hsecond
              refine Or.inr ⟨_, .mainThere hmainThere, ?_⟩
              rw [scaffold_eq hname hforce, Generating.bind_of_ok hfirst,
                Generating.bind_of_error hsecond]
          | false =>
              rw [hmainThere] at hsecond
              rcases (renderer.leavesFiles_renderManifest package r.declaration r.settings
                r.dependency).run_cases files with ⟨manifest, hmanifest⟩ | ⟨failure, hmanifest⟩
              · rcases (renderer.leavesFiles_renderDriver r.declaration r.settings).run_cases files
                  with ⟨main, hmain⟩ | ⟨failure, hmain⟩
                · exact Or.inl ⟨manifest, main, hmanifestThere, hmainThere,
                    ⟨package, hname, hmanifest⟩, hmain⟩
                · refine Or.inr ⟨failure, .mainUnrendered (congrArg Prod.fst hmain), ?_⟩
                  rw [scaffold_eq hname hforce, Generating.bind_of_ok hfirst,
                    Generating.bind_of_ok hsecond, Generating.bind_of_ok hmanifest,
                    Generating.bind_of_error hmain]
              · refine Or.inr ⟨failure, .manifestUnrendered hname (congrArg Prod.fst hmanifest), ?_⟩
                rw [scaffold_eq hname hforce, Generating.bind_of_ok hfirst,
                  Generating.bind_of_ok hsecond, Generating.bind_of_error hmanifest]

end Preparing

section Finding
variable {files : FileTree}

/-- What stands in the place of a file is found where the root is direct and the path of the file
keeps to the limits. -/
theorem find_manifest (hfits : r.files.manifest.Fits) (hd : IsDirect r.root) {found : FileTree}
    (h : files.get? (manifestPlace r.root) = some found) :
    files.find r.files.manifest = .ok found := by
  have hhome : files.holdsDirectory (home r.root) := holdsDirectory_of_get? h (List.cons_ne_nil _ _)
  have hroot : ∀ place ∈ route [] r.root.pieces, files.holdsDirectory place := fun place hp =>
    holdsDirectory_of_isPrefix (hd place hp) hhome
  exact find_of_route r.pieces_manifest hfits r.endsWithSlash_manifest hroot h

theorem find_main (hfits : r.files.main.Fits) (hd : IsDirect r.root) {found : FileTree}
    (h : files.get? (mainPlace r.root) = some found) :
    files.find r.files.main = .ok found := by
  have hsource : files.holdsDirectory (sourcePlace r.root) :=
    holdsDirectory_of_get? h (List.cons_ne_nil _ _)
  have hhome : files.holdsDirectory (home r.root) := holdsDirectory_of_append _ _ hsource
  have hroute : ∀ place ∈ route [] r.sourceDir.pieces, files.holdsDirectory place := by
    rw [route_sourceDir, List.forall_mem_append, List.forall_mem_singleton]
    exact ⟨fun place hp => holdsDirectory_of_isPrefix (hd place hp) hhome, hsource⟩
  rw [← step_main] at h
  exact find_of_route r.pieces_main hfits r.endsWithSlash_main hroute h

/-- Where a direct root leads, a request that is ready finds nothing in the places of its files. -/
theorem Ready.get?_manifest {renderer : Renderer} {manifest main : String}
    (h : Ready renderer r files manifest main) (hfits : r.files.manifest.Fits)
    (hd : IsDirect r.root) : files.get? (manifestPlace r.root) = none :=
  get?_eq_none_of_find h.manifestFree fun _ => find_manifest hfits hd

theorem Ready.get?_main {renderer : Renderer} {manifest main : String}
    (h : Ready renderer r files manifest main) (hfits : r.files.main.Fits)
    (hd : IsDirect r.root) : files.get? (mainPlace r.root) = none :=
  get?_eq_none_of_find h.mainFree fun _ => find_main hfits hd

end Finding

/-- What comes of writing the two files once the directories are there. A file is not written if
its path is too long or a directory stands in its place. -/
inductive Laying (r : Request) (manifest main : String) (made : FileTree) :
    Except Failure Scaffolded × FileTree → Prop
  | manifestTooLong (long : Path.lengthLimit < r.files.manifest.length) :
      Laying r manifest main made (.error (.fileNotWritten r.files.manifest .nameTooLong), made)
  | manifestTaken (fits : r.files.manifest.Fits)
      (directory : made.holdsDirectory (manifestPlace r.root)) :
      Laying r manifest main made (.error (.fileNotWritten r.files.manifest .isDirectory), made)
  | mainTooLong (fits : r.files.manifest.Fits)
      (free : ¬ made.holdsDirectory (manifestPlace r.root))
      (long : Path.lengthLimit < r.files.main.length) :
      Laying r manifest main made (.error (.fileNotWritten r.files.main .nameTooLong),
        made.put (manifestPlace r.root) (.file (Utf8.encode manifest)))
  | mainTaken (fits : r.files.main.Fits) (free : ¬ made.holdsDirectory (manifestPlace r.root))
      (directory : (made.put (manifestPlace r.root) (.file (Utf8.encode manifest))).holdsDirectory
        (mainPlace r.root)) :
      Laying r manifest main made (.error (.fileNotWritten r.files.main .isDirectory),
        made.put (manifestPlace r.root) (.file (Utf8.encode manifest)))
  | done (fits : r.files.main.Fits) (free : ¬ made.holdsDirectory (manifestPlace r.root))
      (free' : ¬ (made.put (manifestPlace r.root) (.file (Utf8.encode manifest))).holdsDirectory
        (mainPlace r.root)) :
      Laying r manifest main made (.ok r.files,
        (made.put (manifestPlace r.root) (.file (Utf8.encode manifest))).put (mainPlace r.root)
          (.file (Utf8.encode main)))

section Laying
variable {files : FileTree} {manifest main : String}

/-- The directories for a package are made, or not all of them. The files stay as they are. -/
theorem sourceDir_made (r : Request) (files : FileTree) :
    (∃ fault made, (Files.makeDirectories r.sourceDir : Change) files = (.error fault, made) ∧
      Grown files made (route [] r.sourceDir.pieces)) ∨
    ∃ made, (Files.makeDirectories r.sourceDir : Change) files = (.ok (), made) ∧
      Grown files made (route [] r.sourceDir.pieces) ∧ r.sourceDir.Fits ∧
      ∀ place ∈ route [] r.sourceDir.pieces, made.holdsDirectory place := by
  obtain ⟨hgrown, hdirs⟩ := grown_makeDirectories r.pieces_sourceDir sourceName_ne_here files
  rcases hmake : (Files.makeDirectories r.sourceDir : Change) files with ⟨fault | _, made⟩
  · rw [hmake] at hgrown
    exact Or.inl ⟨fault, made, rfl, hgrown⟩
  · rw [hmake] at hgrown hdirs
    exact Or.inr ⟨made, rfl, hgrown, hdirs rfl⟩

/-- The directories for a package are made when no file is in the way. -/
theorem sourceDir_made_of_free (hfits : r.sourceDir.Fits)
    (hfree : ∀ place ∈ route [] r.sourceDir.pieces, ¬ files.holdsFile place) :
    ∃ made, (Files.makeDirectories r.sourceDir : Change) files = (.ok (), made) ∧
      Grown files made (route [] r.sourceDir.pieces) ∧
      ∀ place ∈ route [] r.sourceDir.pieces, made.holdsDirectory place := by
  have hok := makeDirectories_eq_ok r.pieces_sourceDir sourceName_ne_here hfits hfree
  rcases sourceDir_made r files with ⟨fault, made, hmake, -⟩ | ⟨made, hmake, hgrown, -, hopen⟩
  · rw [hmake] at hok
    cases hok
  · exact ⟨made, hmake, hgrown, hopen⟩

theorem writeFile_run (path : Path) (text : String) (t : FileTree) :
    (writeFile path text : Generating (StateM FileTree) Unit) t =
      match t.write path (Utf8.encode text) with
      | .ok t' => (.ok (), t')
      | .error fault => (.error (.fileNotWritten path fault), t) := by
  have hrun : (Files.write path (Utf8.encode text) : Change) t =
      match t.write path (Utf8.encode text) with
      | .ok t' => (.ok (), t')
      | .error fault => (.error fault, t) := rfl
  unfold writeFile
  cases hwrite : t.write path (Utf8.encode text) with
  | ok t' =>
      rw [hwrite] at hrun
      exact Generating.orFail_of_ok hrun _
  | error fault =>
      rw [hwrite] at hrun
      exact Generating.orFail_of_error hrun _

/-- Nothing is written when the directories cannot be made. -/
theorem lay_of_error {fault : FileFault} {made : FileTree}
    (h : (Files.makeDirectories r.sourceDir : Change) files = (.error fault, made)) :
    (r.lay manifest main : Generating (StateM FileTree) Scaffolded) files =
      (.error (.directoryNotMade r.sourceDir fault), made) :=
  Generating.bind_of_error (Generating.orFail_of_error h _)

/-- Once the directories are there, the manifest is written and then the source file. -/
theorem lay_of_ok (manifest main : String) {made : FileTree}
    (h : (Files.makeDirectories r.sourceDir : Change) files = (.ok (), made))
    (hfits : r.sourceDir.Fits)
    (hopen : ∀ place ∈ route [] r.sourceDir.pieces, made.holdsDirectory place) :
    Laying r manifest main made
      ((r.lay manifest main : Generating (StateM FileTree) Scaffolded) files) := by
  have hroot : ∀ place ∈ route [] r.root.pieces, made.holdsDirectory place :=
    fun place hp => hopen place (mem_route_sourceDir hp)
  have hmade : (Generating.orFail (.directoryNotMade r.sourceDir)
      (Files.makeDirectories r.sourceDir) : Generating (StateM FileTree) Unit) files =
      (.ok (), made) := Generating.orFail_of_ok h _
  have hmanifest := writeFile_run r.files.manifest manifest made
  rcases fits_manifest_or_refused hfits with hfitsManifest | ⟨hlong, hrefusal⟩
  swap
  · rw [write_of_refused hrefusal] at hmanifest
    rw [lay, Generating.bind_of_ok hmade, Generating.bind_of_error hmanifest]
    exact .manifestTooLong hlong
  rcases write_of_route r.pieces_manifest hfitsManifest r.endsWithSlash_manifest hroot
    (Utf8.encode manifest) with ⟨hdir, hwrite⟩ | ⟨hdir, hwrite⟩
  · rw [hwrite] at hmanifest
    rw [lay, Generating.bind_of_ok hmade, Generating.bind_of_error hmanifest]
    exact .manifestTaken hfitsManifest hdir
  rw [hwrite, step_manifest] at hmanifest
  rw [step_manifest] at hdir
  have hkept : ∀ place ∈ route [] r.sourceDir.pieces,
      (made.put (manifestPlace r.root) (.file (Utf8.encode manifest))).holdsDirectory place :=
    fun place hp => holdsDirectory_put (hopen place hp) hdir _
  have hmain := writeFile_run r.files.main main
    (made.put (manifestPlace r.root) (.file (Utf8.encode manifest)))
  rcases fits_main_or_refused hfits with hfitsMain | ⟨hlong, hrefusal⟩
  swap
  · rw [write_of_refused hrefusal] at hmain
    rw [lay, Generating.bind_of_ok hmade, Generating.bind_of_ok hmanifest,
      Generating.bind_of_error hmain]
    exact .mainTooLong hfitsManifest hdir hlong
  rcases write_of_route r.pieces_main hfitsMain r.endsWithSlash_main hkept (Utf8.encode main) with
    ⟨hdir', hwrite'⟩ | ⟨hdir', hwrite'⟩
  · rw [hwrite'] at hmain
    rw [step_main] at hdir'
    rw [lay, Generating.bind_of_ok hmade, Generating.bind_of_ok hmanifest,
      Generating.bind_of_error hmain]
    exact .mainTaken hfitsMain hdir hdir'
  · rw [hwrite'] at hmain
    rw [step_main] at hdir' hmain
    rw [lay, Generating.bind_of_ok hmade, Generating.bind_of_ok hmanifest,
      Generating.bind_of_ok hmain]
    exact .done hfitsMain hdir hdir'

end Laying

end Request
end PointDriver.Package

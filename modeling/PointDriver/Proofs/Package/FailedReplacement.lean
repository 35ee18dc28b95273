import PointDriver.Proofs.Package.AllOrNothing

/-!
# What a failed replacement leaves behind

A forced request prepares its texts before it changes anything, and then takes
three steps that nothing undoes: the directories, the manifest and the source
file. A step that fails leaves what the steps before it did. A directory in the
place of a file is found that late, and so is a path that is too long, so the
manifest may be replaced, or the directory of the source file made, by a request
that fails.
-/

namespace PointDriver.Package
open FileTree Files

namespace Request
variable {renderer : Renderer} {r : Request} {files : FileTree} {manifest main package : String}

/-- What a forced request needs before anything is changed: a name for the package and both
texts. -/
structure Rendered (renderer : Renderer) (r : Request) (files : FileTree) (manifest main : String) :
    Prop where
  manifest : ∃ package, r.packageName? = some package ∧
    (renderer.renderManifest package r.declaration r.settings r.dependency :
      Generating (StateM FileTree) String) files = (.ok manifest, files)
  main : (renderer.renderDriver r.declaration r.settings :
    Generating (StateM FileTree) String) files = (.ok main, files)

/-- Why a forced request is stopped before anything is changed. -/
inductive Unrendered (renderer : Renderer) (r : Request) (files : FileTree) : Failure → Prop
  | unnamed (h : r.packageName? = none) : Unrendered renderer r files (.packageNameMissing r.root)
  | manifest {failure : Failure} {package : String} (hname : r.packageName? = some package)
      (h : ((renderer.renderManifest package r.declaration r.settings r.dependency :
        Generating (StateM FileTree) String) files).1 = .error failure) :
      Unrendered renderer r files failure
  | main {failure : Failure}
      (h : ((renderer.renderDriver r.declaration r.settings :
        Generating (StateM FileTree) String) files).1 = .error failure) :
      Unrendered renderer r files failure

theorem scaffold_eq_of_force (hname : r.packageName? = some package) (hforce : r.force = true) :
    (r.scaffold renderer : Generating (StateM FileTree) Scaffolded) = (do
      let manifest ← renderer.renderManifest package r.declaration r.settings r.dependency
      let main ← renderer.renderDriver r.declaration r.settings
      r.lay manifest main) := by
  simp [scaffold, hname, hforce, lay]

/-- A forced request with both texts is laid down. -/
theorem scaffold_of_rendered (hforce : r.force = true)
    (h : Rendered renderer r files manifest main) :
    (r.scaffold renderer : Generating (StateM FileTree) Scaffolded) files =
      (r.lay manifest main : Generating (StateM FileTree) Scaffolded) files := by
  obtain ⟨⟨package, hname, hmanifest⟩, hmain⟩ := h
  rw [scaffold_eq_of_force hname hforce, Generating.bind_of_ok hmanifest,
    Generating.bind_of_ok hmain]

/-- A forced request has both texts, or there is a reason why it is stopped and nothing
changes. -/
theorem rendered_or_unrendered (renderer : Renderer) (hforce : r.force = true) (files : FileTree) :
    (∃ manifest main, Rendered renderer r files manifest main) ∨
      ∃ failure, Unrendered renderer r files failure ∧
        (r.scaffold renderer : Generating (StateM FileTree) Scaffolded) files =
          (.error failure, files) := by
  cases hname : r.packageName? with
  | none =>
      refine Or.inr ⟨_, .unnamed hname, ?_⟩
      rw [scaffold, hname]
      rfl
  | some package =>
      rw [scaffold_eq_of_force hname hforce]
      rcases (renderer.leavesFiles_renderManifest package r.declaration r.settings
        r.dependency).run_cases files with ⟨manifest, hmanifest⟩ | ⟨failure, hmanifest⟩
      · rw [Generating.bind_of_ok hmanifest]
        rcases (renderer.leavesFiles_renderDriver r.declaration r.settings).run_cases files
          with ⟨main, hmain⟩ | ⟨failure, hmain⟩
        · exact Or.inl ⟨manifest, main, ⟨package, hname, hmanifest⟩, hmain⟩
        · exact Or.inr ⟨failure, .main (congrArg Prod.fst hmain), Generating.bind_of_error hmain⟩
      · exact Or.inr ⟨failure, .manifest hname (congrArg Prod.fst hmanifest),
          Generating.bind_of_error hmanifest⟩

/-- The way to the source file has been cleared: files are as they were, and directories are new
on this way only. -/
structure Cleared (r : Request) (files made : FileTree) : Prop where
  grown : Grown files made (route [] r.sourceDir.pieces)
  widened : Widened files made

theorem cleared_makeDirectories (r : Request) (files : FileTree) :
    Cleared r files ((Files.makeDirectories r.sourceDir : Change) files).2 :=
  ⟨(grown_makeDirectories r.pieces_sourceDir sourceName_ne_here files).1,
    widened_makeDirectories r.sourceDir files⟩

/-- What a forced request that failed leaves behind, by the step that failed. Where the root never
goes up and nothing is too long, the directory of the source file is all that can be new. -/
inductive Remains (renderer : Renderer) (r : Request) (files : FileTree) : Failure → FileTree → Prop
  | unrendered {failure} (why : Unrendered renderer r files failure) :
      Remains renderer r files failure files
  | blocked {fault made} (cleared : Cleared r files made)
      (direct : Path.up ∉ r.root.pieces →
        made = files ∨ fault = .nameTooLong ∧ CutShort r.sourceDir files made) :
      Remains renderer r files (.directoryNotMade r.sourceDir fault) made
  | manifestTooLong {made} (cleared : Cleared r files made)
      (there : ∀ place ∈ route [] r.sourceDir.pieces, made.holdsDirectory place)
      (long : Path.lengthLimit < r.files.manifest.length) :
      Remains renderer r files (.fileNotWritten r.files.manifest .nameTooLong) made
  | manifestBlocked {made} (cleared : Cleared r files made)
      (there : made.holdsDirectory (manifestPlace r.root))
      (direct : Path.up ∉ r.root.pieces → made = files ∨
        files.get? (sourcePlace r.root) = none ∧ made = files.put (sourcePlace r.root) empty) :
      Remains renderer r files (.fileNotWritten r.files.manifest .isDirectory) made
  | mainTooLong {made manifest main} (rendered : Rendered renderer r files manifest main)
      (cleared : Cleared r files made)
      (there : ∀ place ∈ route [] r.sourceDir.pieces, made.holdsDirectory place)
      (free : ¬ made.holdsDirectory (manifestPlace r.root))
      (long : Path.lengthLimit < r.files.main.length) :
      Remains renderer r files (.fileNotWritten r.files.main .nameTooLong)
        (made.put (manifestPlace r.root) (file (Utf8.encode manifest)))
  | mainBlocked {made manifest main} (rendered : Rendered renderer r files manifest main)
      (cleared : Cleared r files made) (free : ¬ made.holdsDirectory (manifestPlace r.root))
      (there : made.holdsDirectory (mainPlace r.root))
      (direct : Path.up ∉ r.root.pieces → made = files) :
      Remains renderer r files (.fileNotWritten r.files.main .isDirectory)
        (made.put (manifestPlace r.root) (file (Utf8.encode manifest)))

section Direct
variable {made : FileTree}

/-- What is not on the way to the source file is untouched when the way is cleared. -/
theorem Cleared.get?_eq (h : Cleared r files made) (hroot : Path.up ∉ r.root.pieces)
    {location : Location} (hl : ¬ location <+: sourcePlace r.root) :
    made.get? location = files.get? location :=
  get?_of_grown (isDirect_of_up_notMem hroot) h.grown hl

/-- Where a direct root is a directory, at most the directory of the source file is made. -/
theorem makeDirectories_of_home (hfits : r.sourceDir.Fits) (hdirect : IsDirect r.root)
    (hhome : files.holdsDirectory (home r.root)) :
    files.get? (sourcePlace r.root) = none ∧
        (Files.makeDirectories r.sourceDir : Change) files =
          (.ok (), files.put (sourcePlace r.root) empty) ∨
      files.holdsDirectory (sourcePlace r.root) ∧
        (Files.makeDirectories r.sourceDir : Change) files = (.ok (), files) ∨
      files.holdsFile (sourcePlace r.root) ∧
        (Files.makeDirectories r.sourceDir : Change) files = (.error .alreadyThere, files) :=
  makeDirectories_of_open r.pieces_sourceDir sourceName_ne_here hfits fun place hp =>
    holdsDirectory_of_isPrefix (hdirect place hp) hhome

/-- At most this directory is new when all directories have been made. -/
theorem made_of_home (hfits : r.sourceDir.Fits) (hdirect : IsDirect r.root)
    (hhome : files.holdsDirectory (home r.root))
    (hmake : (Files.makeDirectories r.sourceDir : Change) files = (.ok (), made)) :
    files.holdsDirectory (sourcePlace r.root) ∧ made = files ∨
      files.get? (sourcePlace r.root) = none ∧ made = files.put (sourcePlace r.root) empty := by
  rcases makeDirectories_of_home hfits hdirect hhome with
    ⟨hfree, hrun⟩ | ⟨hdir, hrun⟩ | ⟨-, hrun⟩
  · exact Or.inr ⟨hfree, (Prod.mk.inj (hmake.symm.trans hrun)).2⟩
  · exact Or.inl ⟨hdir, (Prod.mk.inj (hmake.symm.trans hrun)).2⟩
  · cases (Prod.mk.inj (hmake.symm.trans hrun)).1

end Direct

theorem eq_of_error_eq {failure failure' : Failure} {after after' : FileTree}
    (h : ((.error failure, after) : Except Failure Scaffolded × FileTree) =
      (.error failure', after')) : failure = failure' ∧ after = after' :=
  ⟨Except.error.inj (Prod.mk.inj h).1, (Prod.mk.inj h).2⟩

/-- Laying down a package fails at one of its steps, and what the steps before it did remains. -/
theorem remains_of_lay (hrendered : Rendered renderer r files manifest main) {failure : Failure}
    {after : FileTree}
    (hrun : (r.lay manifest main : Generating (StateM FileTree) Scaffolded) files =
      (.error failure, after)) : Remains renderer r files failure after := by
  have hcleared := cleared_makeDirectories r files
  rcases sourceDir_made r files with ⟨fault, made, hmake, -⟩ | ⟨made, hmake, -, hfits, hopen⟩
  · rw [hmake] at hcleared
    rw [lay_of_error hmake] at hrun
    obtain ⟨rfl, rfl⟩ := eq_of_error_eq hrun
    refine .blocked hcleared fun hroot => ?_
    -- A root that never goes up is stopped before anything is made, or by a name that is too long.
    have hclearing := clearing_makeDirectories r.pieces_sourceDir sourceName_ne_here
      (up_notMem_sourceDir hroot) files
    rw [hmake] at hclearing
    cases hclearing with
    | refused why => exact Or.inl rfl
    | blocked file => exact Or.inl rfl
    | cutShort cut => exact Or.inr ⟨rfl, cut⟩
  · rw [hmake] at hcleared
    have hlay := lay_of_ok manifest main hmake hfits hopen
    rw [hrun] at hlay
    cases hlay with
    | manifestTooLong long => exact .manifestTooLong hcleared hopen long
    | manifestTaken fits directory =>
        refine .manifestBlocked hcleared directory fun hroot => ?_
        have hthere : files.holdsDirectory (manifestPlace r.root) := by
          rwa [holdsDirectory, ← hcleared.get?_eq hroot (manifestPlace_not_prefix_sourcePlace _)]
        exact (made_of_home hfits (isDirect_of_up_notMem hroot)
          (holdsDirectory_of_append _ _ hthere) hmake).imp_left And.right
    | mainTooLong fits free long => exact .mainTooLong hrendered hcleared hopen free long
    | mainTaken fitsMain free directory =>
        have hthere : made.holdsDirectory (mainPlace r.root) := by
          rwa [holdsDirectory, get?_put_of_ne (mainPlace_not_prefix_manifestPlace _)
            (manifestPlace_not_prefix_mainPlace _)] at directory
        refine .mainBlocked hrendered hcleared free hthere fun hroot => ?_
        have hbefore : files.holdsDirectory (mainPlace r.root) := by
          rwa [holdsDirectory, ← hcleared.get?_eq hroot (mainPlace_not_prefix_sourcePlace _)]
        have hsource : files.holdsDirectory (sourcePlace r.root) :=
          holdsDirectory_of_append _ _ hbefore
        rcases made_of_home hfits (isDirect_of_up_notMem hroot)
          (holdsDirectory_of_append _ _ hsource) hmake with ⟨-, hmade⟩ | ⟨hnone, -⟩
        · exact hmade
        · exact absurd hsource (not_holdsDirectory_of_get? hnone)

section Blocked

/-- With the built-in templates both texts are there. -/
theorem rendered_builtIn (hname : r.packageName? = some package) :
    Rendered Renderer.builtIn r files
      (Skeleton.unlines (manifestTextLines package r.declaration r.settings r.dependency))
      (Skeleton.unlines (sourceLines r.declaration r.settings)) where
  manifest := ⟨package, hname, congrFun
    (Renderer.renderManifest_builtIn package r.declaration r.settings r.dependency) files⟩
  main := congrFun (Renderer.renderDriver_builtIn r.declaration r.settings) files

variable (hforce : r.force = true) (hrendered : Rendered renderer r files manifest main)
  (hfits : r.files.main.Fits) (hdirect : IsDirect r.root)
include hforce hrendered hfits hdirect

/-- A directory in the place of the manifest is met when the directories have been made. -/
theorem scaffold_of_manifestBlocked (hfree : files.get? (sourcePlace r.root) = none)
    (hdir : files.holdsDirectory (manifestPlace r.root)) :
    (r.scaffold renderer : Generating (StateM FileTree) Scaffolded) files =
      (.error (.fileNotWritten r.files.manifest .isDirectory),
        files.put (sourcePlace r.root) empty) := by
  have hhome := holdsDirectory_of_append _ _ hdir
  have hfitsManifest := fits_manifest_of_main hfits
  have hfitsSource := fits_sourceDir_of_manifest hfitsManifest
  rw [scaffold_of_rendered hforce hrendered]
  rcases makeDirectories_of_home hfitsSource hdirect hhome with
    ⟨-, hmake⟩ | ⟨hsource, -⟩ | ⟨⟨_, hfile⟩, -⟩
  · have hmade : (files.put (sourcePlace r.root) empty).holdsDirectory (manifestPlace r.root) :=
      holdsDirectory_put hdir (not_holdsDirectory_of_get? hfree) _
    rcases sourceDir_made r files with ⟨fault, made, hrun, -⟩ | ⟨made, hrun, -, -, hopen⟩
    · cases (Prod.mk.inj (hmake.symm.trans hrun)).1
    · obtain rfl := (Prod.mk.inj (hmake.symm.trans hrun)).2
      have hlay := lay_of_ok manifest main hmake hfitsSource hopen
      generalize (r.lay manifest main : Generating (StateM FileTree) Scaffolded) files = run
        at hlay ⊢
      cases hlay with
      | manifestTooLong long => exact absurd hfitsManifest.length_le (Nat.not_le.mpr long)
      | manifestTaken fits directory => rfl
      | mainTooLong fits free long => exact absurd hmade free
      | mainTaken fits free directory => exact absurd hmade free
      | done fits free free' => exact absurd hmade free
  · exact absurd hsource (not_holdsDirectory_of_get? hfree)
  · rw [hfree] at hfile
    cases hfile

/-- A directory in the place of the source file is met when the manifest has been replaced. -/
theorem scaffold_of_mainBlocked (hfree : ¬ files.holdsDirectory (manifestPlace r.root))
    (hmain : files.holdsDirectory (mainPlace r.root)) :
    (r.scaffold renderer : Generating (StateM FileTree) Scaffolded) files =
      (.error (.fileNotWritten r.files.main .isDirectory),
        files.put (manifestPlace r.root) (file (Utf8.encode manifest))) := by
  have hsource := holdsDirectory_of_append _ _ hmain
  have hopen : ∀ place ∈ route [] r.sourceDir.pieces, files.holdsDirectory place :=
    fun place hp => holdsDirectory_of_isPrefix (isPrefix_sourcePlace hdirect hp) hsource
  rw [scaffold_of_rendered hforce hrendered]
  have hfitsSource := fits_sourceDir_of_manifest (fits_manifest_of_main hfits)
  rcases makeDirectories_of_home hfitsSource hdirect (holdsDirectory_of_append _ _ hsource) with
    ⟨hnone, -⟩ | ⟨-, hmake⟩ | ⟨hfile, -⟩
  · exact absurd hsource (not_holdsDirectory_of_get? hnone)
  · have hlay := lay_of_ok manifest main hmake hfitsSource hopen
    generalize (r.lay manifest main : Generating (StateM FileTree) Scaffolded) files = run at hlay ⊢
    cases hlay with
    | manifestTooLong long =>
        exact absurd (fits_manifest_of_main hfits).length_le (Nat.not_le.mpr long)
    | manifestTaken fits directory => exact absurd directory hfree
    | mainTooLong fits free long => exact absurd hfits.length_le (Nat.not_le.mpr long)
    | mainTaken fits free directory => rfl
    | done fits free free' => exact absurd (holdsDirectory_put hmain free _) free'
  · exact absurd hfile (not_holdsFile_of_holdsDirectory hsource)

end Blocked

/-- Only the manifest is replaced behind a way that has been cleared. -/
theorem Cleared.kept_put {made : FileTree} (h : Cleared r files made)
    (hhome : made.holdsDirectory (home r.root))
    (hfree : ¬ made.holdsDirectory (manifestPlace r.root)) (new : FileTree) :
    (∀ location, files.holdsDirectory location →
      (made.put (manifestPlace r.root) new).holdsDirectory location) ∧
      ∀ location content, location ≠ manifestPlace r.root →
        files.get? location = some (file content) →
        (made.put (manifestPlace r.root) new).get? location = some (file content) :=
  ⟨fun location hl => holdsDirectory_put (h.grown.directories location hl) hfree new,
    fun location content hne hl =>
      get?_put_of_file hhome hfree hne ((h.grown.files location content).mpr hl)⟩

/-- Whichever step fails, directories stay, and so do all files but the manifest. -/
theorem Remains.kept {failure : Failure} {after : FileTree}
    (h : Remains renderer r files failure after) :
    (∀ location, files.holdsDirectory location → after.holdsDirectory location) ∧
      ∀ location content, location ≠ manifestPlace r.root →
        files.get? location = some (file content) → after.get? location = some (file content) := by
  cases h with
  | unrendered why => exact ⟨fun _ h => h, fun _ _ _ h => h⟩
  | blocked cleared direct =>
      exact ⟨cleared.grown.directories, fun _ _ _ h => (cleared.grown.files _ _).mpr h⟩
  | manifestTooLong cleared there long =>
      exact ⟨cleared.grown.directories, fun _ _ _ h => (cleared.grown.files _ _).mpr h⟩
  | manifestBlocked cleared there direct =>
      exact ⟨cleared.grown.directories, fun _ _ _ h => (cleared.grown.files _ _).mpr h⟩
  | mainTooLong rendered cleared there free long =>
      exact cleared.kept_put (there _ (home_mem_route_sourceDir r)) free _
  | mainBlocked rendered cleared free there direct =>
      have hhome := holdsDirectory_of_append _ _ (holdsDirectory_of_append _ _ there)
      exact cleared.kept_put hhome free _

/-- A forced request that fails keeps every directory and every file but the manifest. What it
leaves behind depends on the step that failed: the tree is as it was if no texts could be
prepared; directories on the way to the source file may be new if they could not all be made, or
if the manifest could not be written; and the manifest has its new text if the source file could
not be written. Where the root never goes up, a name or a path that is too long is the only reason
for more than one new directory. -/
theorem scaffold_forced_failure (renderer : Renderer) (r : Request) (files after : FileTree)
    (failure : Failure) (hforce : r.force = true)
    (hrun : (r.scaffold renderer : Generating (StateM FileTree) Scaffolded) files =
      (.error failure, after)) :
    Remains renderer r files failure after ∧
      (∀ location, files.holdsDirectory location → after.holdsDirectory location) ∧
      ∀ location content, location ≠ manifestPlace r.root →
        files.get? location = some (file content) → after.get? location = some (file content) := by
  have hremains : Remains renderer r files failure after := by
    rcases rendered_or_unrendered renderer hforce files with
      ⟨manifest, main, hrendered⟩ | ⟨failure', hwhy, hstopped⟩
    · exact remains_of_lay hrendered ((scaffold_of_rendered hforce hrendered).symm.trans hrun)
    · rw [hstopped] at hrun
      obtain ⟨rfl, rfl⟩ := eq_of_error_eq hrun
      exact .unrendered hwhy
  exact ⟨hremains, hremains.kept⟩

/-- A package whose manifest cannot be written gets a directory for its source file. -/
theorem scaffold_forced_manifest_directory :
    let r : Request := ⟨Path.ofString "p", none, .empty, .standard, "", true⟩
    let files := directory [(Path.ofString "p", directory [(manifestName, empty)])]
    let after := files.put (sourcePlace r.root) empty
    (r.scaffold .builtIn : Generating (StateM FileTree) Scaffolded) files =
        (.error (.fileNotWritten r.files.manifest .isDirectory), after) ∧
      Remains .builtIn r files (.fileNotWritten r.files.manifest .isDirectory) after ∧
      after ≠ files := by
  intro r files after
  have hname : r.packageName? = some "p" := by decide +kernel
  have hnone : files.get? (sourcePlace r.root) = none := by rfl
  have hdir : files.holdsDirectory (manifestPlace r.root) := ⟨[], by rfl⟩
  have hrun : (r.scaffold .builtIn : Generating (StateM FileTree) Scaffolded) files =
      (.error (.fileNotWritten r.files.manifest .isDirectory), after) :=
    scaffold_of_manifestBlocked rfl (rendered_builtIn hname) (by decide +kernel)
      (by decide +kernel) hnone hdir
  refine ⟨hrun, (scaffold_forced_failure .builtIn r files after _ rfl hrun).1, fun hsame => ?_⟩
  have hnew := get?_put_self (holdsDirectory_of_append _ _ hdir) sourceName empty
  change after.get? (sourcePlace r.root) = _ at hnew
  rw [hsame, hnone] at hnew
  cases hnew

/-- A failed replacement does not keep the manifest if a directory stands in the place of the
source file. -/
theorem not_unchanged_of_failure :
    ¬ ∀ (renderer : Renderer) (r : Request) (files after : FileTree) (failure : Failure),
      r.force = true →
      (r.scaffold renderer : Generating (StateM FileTree) Scaffolded) files =
        (.error failure, after) → after = files := by
  intro h
  let r : Request := ⟨Path.ofString "p", none, .empty, .standard, "", true⟩
  let files := directory [(Path.ofString "p",
    directory [(manifestName, file []), (sourceName, directory [(mainName, empty)])])]
  have hfits : r.files.main.Fits := by decide +kernel
  have hdirect : IsDirect r.root := by decide +kernel
  have hname : r.packageName? = some "p" := by decide +kernel
  have hfree : ¬ files.holdsDirectory (manifestPlace r.root) :=
    fun hd => not_holdsFile_of_holdsDirectory hd ⟨[], by rfl⟩
  have hmain : files.holdsDirectory (mainPlace r.root) := ⟨[], by rfl⟩
  have hsame := h .builtIn r files _ _ rfl
    (scaffold_of_mainBlocked rfl (rendered_builtIn hname) hfits hdirect hfree hmain)
  have hhome : files.holdsDirectory (home r.root) :=
    holdsDirectory_of_append _ _ (holdsDirectory_of_append _ _ hmain)
  have hnew := get?_put_self hhome manifestName (file (Utf8.encode (Skeleton.unlines
    (manifestTextLines "p" r.declaration r.settings r.dependency))))
  have hold : files.get? (home r.root ++ [manifestName]) = some (file []) := by rfl
  change (files.put (manifestPlace r.root) _).get? _ = _ at hnew
  rw [hsame, hold] at hnew
  have hhead := head?_manifest "p" r.declaration r.settings r.dependency
  rw [← FileTree.file.inj (Option.some.inj hnew)] at hhead
  cases hhead

end Request
end PointDriver.Package

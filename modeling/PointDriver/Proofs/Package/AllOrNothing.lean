import PointDriver.Proofs.Package.KeptFiles

/-!
# All or nothing

A root that never goes up is above everything that its route leads through. An
unforced request whose files keep to the limits then either is stopped with the
tree as it was, or adds the missing directories and the two files and nothing
else. Beyond the limits there is a third way for it to end: a name or a path is
found to be too long when directories, or the manifest, have been made.
-/

namespace PointDriver.Package
open FileTree Files

namespace Request

/-- Why an unforced request comes to nothing. -/
inductive Stopped (renderer : Renderer) (r : Request) (files : FileTree) : Failure → Prop
  | unready {failure : Failure} (h : Unready renderer r files failure) :
      Stopped renderer r files failure
  | refused {fault : FileFault} (h : refusal? r.sourceDir = some fault) :
      Stopped renderer r files (.directoryNotMade r.sourceDir fault)
  | blocked {fault : FileFault} (h : ∃ place ∈ route [] r.sourceDir.pieces, files.holdsFile place) :
      Stopped renderer r files (.directoryNotMade r.sourceDir fault)

/-- A package has been laid down: the directories down to its source file are there, both files
are new and hold the texts, and the rest is as it was. -/
structure Laid (r : Request) (manifest main : String) (before after : FileTree) : Prop where
  manifestNew : before.get? (manifestPlace r.root) = none
  mainNew : before.get? (mainPlace r.root) = none
  unblocked : ∀ place, place <+: sourcePlace r.root → ¬ before.holdsFile place
  directories : ∀ place, place <+: sourcePlace r.root → after.holdsDirectory place
  manifest : after.get? (manifestPlace r.root) = some (file (Utf8.encode manifest))
  main : after.get? (mainPlace r.root) = some (file (Utf8.encode main))
  elsewhere : ∀ location, ¬ location <+: sourcePlace r.root → location ≠ manifestPlace r.root →
    location ≠ mainPlace r.root → after.get? location = before.get? location

/-- What an unforced request leaves when something is found to be too long: directories as far as a
name, all directories if it is the path of the manifest, and the manifest as well if it is the path
of the source file. -/
inductive Overrun (r : Request) (manifest : String) (files : FileTree) : Failure → FileTree → Prop
  | directory {made} (cut : CutShort r.sourceDir files made) :
      Overrun r manifest files (.directoryNotMade r.sourceDir .nameTooLong) made
  | manifest {made} (long : Path.lengthLimit < r.files.manifest.length)
      (grown : Grown files made (route [] r.sourceDir.pieces))
      (there : ∀ place ∈ route [] r.sourceDir.pieces, made.holdsDirectory place) :
      Overrun r manifest files (.fileNotWritten r.files.manifest .nameTooLong) made
  | main {made} (long : Path.lengthLimit < r.files.main.length)
      (grown : Grown files made (route [] r.sourceDir.pieces))
      (there : ∀ place ∈ route [] r.sourceDir.pieces, made.holdsDirectory place)
      (new : files.get? (manifestPlace r.root) = none) :
      Overrun r manifest files (.fileNotWritten r.files.main .nameTooLong)
        (made.put (manifestPlace r.root) (file (Utf8.encode manifest)))

variable {renderer : Renderer} {r r' : Request} {files before after made : FileTree}
  {manifest main : String}

/-- Only where the source file does not keep to the limits is anything found to be too long. -/
theorem Overrun.not_fits {failure : Failure} (h : Overrun r manifest files failure after) :
    ¬ r.files.main.Fits := by
  intro hfits
  cases h with
  | directory cut =>
      obtain ⟨way, -, long, -, -⟩ := cut
      refine Nat.not_le.mpr long (hfits.short _ ?_)
      rw [pieces_main, way]
      exact List.mem_append_left _ (List.mem_append_right _ List.mem_cons_self)
  | manifest long grown there => exact Nat.not_le.mpr long (fits_manifest_of_main hfits).length_le
  | main long grown there new => exact Nat.not_le.mpr long hfits.length_le

/-- A direct root is above all that the way to the source file leads through. -/
theorem isPrefix_sourcePlace (hd : IsDirect r.root) {place : Location}
    (h : place ∈ route [] r.sourceDir.pieces) : place <+: sourcePlace r.root := by
  rw [route_sourceDir, List.mem_append, List.mem_singleton] at h
  rcases h with h | rfl
  · exact (hd place h).trans (List.prefix_append _ _)
  · exact List.prefix_refl _

/-- What is not on the way to the source file is untouched when the directories are made. -/
theorem get?_of_grown (hd : IsDirect r.root)
    (hgrown : Grown files made (route [] r.sourceDir.pieces)) {location : Location}
    (hl : ¬ location <+: sourcePlace r.root) : made.get? location = files.get? location :=
  hgrown.elsewhere location fun _ hp hpre => hl (hpre.trans (isPrefix_sourcePlace hd hp))

/-- Nothing stands in the place of the manifest, also when the directories have been made. -/
theorem Ready.get?_manifest_made (h : Ready renderer r files manifest main)
    (hfits : r.files.manifest.Fits) (hd : IsDirect r.root)
    (hgrown : Grown files made (route [] r.sourceDir.pieces)) :
    made.get? (manifestPlace r.root) = none :=
  (get?_of_grown hd hgrown (manifestPlace_not_prefix_sourcePlace _)).trans
    (h.get?_manifest hfits hd)

/-- Within the limits, and where no file is in the way, a request that is ready is carried out. -/
theorem laid_of_ready (hd : IsDirect r.root) (hforce : r.force = false)
    (h : Ready renderer r files manifest main) (hfits : r.files.main.Fits)
    (hfree : ∀ place ∈ route [] r.sourceDir.pieces, ¬ files.holdsFile place) :
    ∃ after, (r.scaffold renderer : Generating (StateM FileTree) Scaffolded) files =
      (.ok r.files, after) ∧ Laid r manifest main files after := by
  have hfitsManifest := fits_manifest_of_main hfits
  have hfitsSource := fits_sourceDir_of_manifest hfitsManifest
  obtain ⟨made, hmake, hgrown, hopen⟩ := sourceDir_made_of_free hfitsSource hfree
  have hsource : made.holdsDirectory (sourcePlace r.root) := hopen _ (sourcePlace_mem_route r)
  have hhome : made.holdsDirectory (home r.root) := hopen _ (home_mem_route_sourceDir r)
  -- Nothing stands where the files go, before and after the directories are made.
  have hmanifestNew : files.get? (manifestPlace r.root) = none := h.get?_manifest hfitsManifest hd
  have hmainNew : files.get? (mainPlace r.root) = none := h.get?_main hfits hd
  have hmanifestFree := h.get?_manifest_made hfitsManifest hd hgrown
  have hmainFree : made.get? (mainPlace r.root) = none :=
    (get?_of_grown hd hgrown (mainPlace_not_prefix_sourcePlace _)).trans hmainNew
  have hmanifestDir := not_holdsDirectory_of_get? hmanifestFree
  let written := made.put (manifestPlace r.root) (file (Utf8.encode manifest))
  have hwrittenMain : written.get? (mainPlace r.root) = none :=
    (get?_put_of_ne (mainPlace_not_prefix_manifestPlace _) (manifestPlace_not_prefix_mainPlace _)
      _ _).trans hmainFree
  have hmainDir := not_holdsDirectory_of_get? hwrittenMain
  have hwrittenDir : ∀ place, made.holdsDirectory place → written.holdsDirectory place :=
    fun place hp => holdsDirectory_put hp hmanifestDir _
  have hrun : (r.lay manifest main : Generating (StateM FileTree) Scaffolded) files =
      (.ok r.files, written.put (mainPlace r.root) (file (Utf8.encode main))) := by
    have hlay := lay_of_ok manifest main hmake hfitsSource hopen
    generalize (r.lay manifest main : Generating (StateM FileTree) Scaffolded) files = run at hlay
    cases hlay with
    | manifestTooLong long => exact absurd hfitsManifest.length_le (Nat.not_le.mpr long)
    | manifestTaken fits directory => exact absurd directory hmanifestDir
    | mainTooLong fits free long => exact absurd hfits.length_le (Nat.not_le.mpr long)
    | mainTaken fits free directory => exact absurd directory hmainDir
    | done fits free free' => rfl
  refine ⟨_, (scaffold_of_ready hforce h).trans hrun, hmanifestNew, hmainNew, ?_, ?_, ?_, ?_, ?_⟩
  · intro place hp hfile
    exact not_holdsFile_of_holdsDirectory (holdsDirectory_of_isPrefix hp hsource)
      (hgrown.holdsFile_iff.mpr hfile)
  · intro place hp
    exact holdsDirectory_put (hwrittenDir place (holdsDirectory_of_isPrefix hp hsource)) hmainDir _
  · rw [get?_put_of_ne (manifestPlace_not_prefix_mainPlace _)
      (mainPlace_not_prefix_manifestPlace _)]
    exact get?_put_self hhome _ _
  · exact get?_put_self (hwrittenDir _ hsource) _ _
  · intro location hl hmanifest hmain
    calc (written.put (mainPlace r.root) (file (Utf8.encode main))).get? location
      _ = written.get? location :=
          get?_put_of_free (hwrittenDir _ hsource) hwrittenMain hmain hl _
      _ = made.get? location :=
          get?_put_of_free hhome hmanifestFree hmanifest
            (fun hp => hl (hp.trans (List.prefix_append _ _))) _
      _ = files.get? location := get?_of_grown hd hgrown hl

/-- Where the source file does not keep to the limits, one of the two files is not written. -/
theorem overrun_of_ready (hd : IsDirect r.root) (h : Ready renderer r files manifest main)
    (hover : ¬ r.files.main.Fits) (hfits : r.sourceDir.Fits)
    (hmake : (Files.makeDirectories r.sourceDir : Change) files = (.ok (), made))
    (hgrown : Grown files made (route [] r.sourceDir.pieces))
    (hopen : ∀ place ∈ route [] r.sourceDir.pieces, made.holdsDirectory place) :
    ∃ failure after, Overrun r manifest files failure after ∧
      (r.lay manifest main : Generating (StateM FileTree) Scaffolded) files =
        (.error failure, after) := by
  have hlay := lay_of_ok manifest main hmake hfits hopen
  generalize (r.lay manifest main : Generating (StateM FileTree) Scaffolded) files = run at hlay ⊢
  cases hlay with
  | manifestTooLong long => exact ⟨_, _, .manifest long hgrown hopen, rfl⟩
  | manifestTaken fits directory =>
      exact absurd directory (not_holdsDirectory_of_get? (h.get?_manifest_made fits hd hgrown))
  | mainTooLong fits free long =>
      exact ⟨_, _, .main long hgrown hopen (h.get?_manifest fits hd), rfl⟩
  | mainTaken fits free directory => exact absurd fits hover
  | done fits free free' => exact absurd fits hover

/-- What was written is read back by the paths of the files. -/
theorem Laid.read_files (h : Laid r manifest main before after) (hfits : r.files.main.Fits)
    (hd : IsDirect r.root) :
    after.read r.files.manifest = .ok (Utf8.encode manifest) ∧
      after.read r.files.main = .ok (Utf8.encode main) := by
  simp [FileTree.read, find_manifest (fits_manifest_of_main hfits) hd h.manifest,
    find_main hfits hd h.main]

/-- The name of a package depends on the root and the given name only. -/
theorem packageName?_congr (hroot : r'.root = r.root) (hpackage : r'.package = r.package) :
    r'.packageName? = r.packageName? := by
  rw [packageName?, packageName?, hroot, hpackage]

/-- A package that has been laid down is not laid down again. -/
theorem Laid.scaffold_again (h : Laid r manifest main before after) (hfits : r.files.main.Fits)
    (hd : IsDirect r.root) (hname : r.packageName? ≠ none) (hroot : r'.root = r.root)
    (hpackage : r'.package = r.package) (hforce : r'.force = false) (renderer : Renderer) :
    (r'.scaffold renderer : Generating (StateM FileTree) Scaffolded) after =
      (.error (.overwriteRefused r.files.manifest), after) := by
  have hfiles : r'.files = r.files := by
    rw [Request.files, Request.files, sourceDir, sourceDir, hroot]
  rw [← hfiles]
  apply scaffold_refused
  · rwa [packageName?_congr hroot hpackage]
  · exact hforce
  · rw [hfiles, find_manifest (fits_manifest_of_main hfits) hd h.manifest]
    rfl

/-- An unforced request whose root never goes up is all or nothing if its files keep to the limits.
Either it is stopped and the tree is as it was, or its package is laid down with both texts, and
then no unforced request for the same place and package changes anything. Beyond the limits it may
also fail with directories, or with the manifest, left behind. -/
theorem scaffold_all_or_nothing (renderer : Renderer) (r : Request) (files : FileTree)
    (hforce : r.force = false) (hroot : Path.up ∉ r.root.pieces) :
    (∃ failure, Stopped renderer r files failure ∧
      (r.scaffold renderer : Generating (StateM FileTree) Scaffolded) files =
        (.error failure, files)) ∨
    (∃ manifest main after, Ready renderer r files manifest main ∧
      (r.scaffold renderer : Generating (StateM FileTree) Scaffolded) files = (.ok r.files, after) ∧
      Laid r manifest main files after ∧
      after.read r.files.manifest = .ok (Utf8.encode manifest) ∧
      after.read r.files.main = .ok (Utf8.encode main) ∧
      ∀ (renderer' : Renderer) (r' : Request), r'.root = r.root → r'.package = r.package →
        r'.force = false →
        (r'.scaffold renderer' : Generating (StateM FileTree) Scaffolded) after =
          (.error (.overwriteRefused r.files.manifest), after)) ∨
    ¬ r.files.main.Fits ∧ ∃ manifest main failure after, Ready renderer r files manifest main ∧
      Overrun r manifest files failure after ∧
      (r.scaffold renderer : Generating (StateM FileTree) Scaffolded) files =
        (.error failure, after) := by
  have hd := isDirect_of_up_notMem hroot
  rcases ready_or_unready renderer hforce files with
    ⟨manifest, main, hready⟩ | ⟨failure, hunready, hrun⟩
  swap
  · exact Or.inl ⟨failure, .unready hunready, hrun⟩
  have hscaffold := scaffold_of_ready hforce hready
  have hclearing := clearing_makeDirectories r.pieces_sourceDir sourceName_ne_here
    (up_notMem_sourceDir hroot) files
  rcases hmake : (Files.makeDirectories r.sourceDir : Change) files with ⟨result, made⟩
  rw [hmake] at hclearing
  cases hclearing with
  | refused why => exact Or.inl ⟨_, .refused why, hscaffold.trans (lay_of_error hmake)⟩
  | blocked file => exact Or.inl ⟨_, .blocked file, hscaffold.trans (lay_of_error hmake)⟩
  | cutShort cut =>
      have hover : Overrun r manifest files (.directoryNotMade r.sourceDir .nameTooLong) made :=
        .directory cut
      exact Or.inr (Or.inr ⟨hover.not_fits, manifest, main, _, _, hready, hover,
        hscaffold.trans (lay_of_error hmake)⟩)
  | made fits free grown there =>
      by_cases hfits : r.files.main.Fits
      · obtain ⟨after, hrun, hlaid⟩ := laid_of_ready hd hforce hready hfits free
        obtain ⟨hmanifest, hmain⟩ := hlaid.read_files hfits hd
        obtain ⟨package, hname, -⟩ := hready.manifest
        have hnamed : r.packageName? ≠ none := by simp [hname]
        exact Or.inr (Or.inl ⟨manifest, main, after, hready, hrun, hlaid, hmanifest, hmain,
          fun renderer' r' hroot' hpackage hforce' =>
            hlaid.scaffold_again hfits hd hnamed hroot' hpackage hforce' renderer'⟩)
      · obtain ⟨failure, after, hover, hrun⟩ :=
          overrun_of_ready hd hready hfits fits hmake grown there
        exact Or.inr (Or.inr ⟨hfits, manifest, main, failure, after, hready, hover,
          hscaffold.trans hrun⟩)

/-- A file `p/src` is in the way of the package `p`. -/
theorem scaffold_blocked_by_source :
    let r : Request := ⟨Path.ofString "p", none, .empty, .standard, "", false⟩
    let files := directory [(Path.ofString "p", directory [(sourceName, file [])])]
    Path.up ∉ r.root.pieces ∧ ∃ failure, Stopped .builtIn r files failure ∧
      (r.scaffold .builtIn : Generating (StateM FileTree) Scaffolded) files =
        (.error failure, files) := by
  intro r files
  have hroot : Path.up ∉ r.root.pieces := by decide +kernel
  have hfits : r.files.main.Fits := by decide +kernel
  refine ⟨hroot, (scaffold_all_or_nothing .builtIn r files rfl hroot).resolve_right ?_⟩
  rintro (⟨manifest, main, after, -, -, hlaid, -⟩ | ⟨hover, -⟩)
  · exact hlaid.unblocked (sourcePlace r.root) (List.prefix_refl _) ⟨[], by rfl⟩
  · exact hover hfits

/-- A directory `p` is left behind if the name below it is too long. -/
theorem not_all_or_nothing :
    ¬ ∀ (renderer : Renderer) (r : Request) (files : FileTree), r.force = false →
      Path.up ∉ r.root.pieces →
      (∃ failure, (r.scaffold renderer : Generating (StateM FileTree) Scaffolded) files =
        (.error failure, files)) ∨
      ∃ after, (r.scaffold renderer : Generating (StateM FileTree) Scaffolded) files =
        (.ok r.files, after) := by
  intro h
  let root : Path := Path.ofString "p/" ++ List.replicate 256 0x78
  let r : Request := ⟨root, some "p", .empty, .standard, "", false⟩
  have hgap : ∃ place ∈ route [] root.pieces, ¬ empty.holdsDirectory place := by
    refine ⟨[Path.ofString "p"], by decide +kernel, ?_⟩
    rintro ⟨entries, he⟩
    cases he
  have hready : Ready .builtIn r empty _ _ := ready_of_gap hgap
  have hresult : ((Files.makeDirectories r.sourceDir : Change) empty).1 =
      .error .nameTooLong := by decide +kernel
  have hleft : (((Files.makeDirectories r.sourceDir : Change) empty).2.get?
      [Path.ofString "p"]).isSome = true := by decide +kernel
  rcases hmake : (Files.makeDirectories r.sourceDir : Change) empty with ⟨result, made⟩
  rw [hmake] at hresult hleft
  obtain rfl : result = .error .nameTooLong := hresult
  have hrun := (scaffold_of_ready rfl hready).trans (lay_of_error (r := r) hmake)
  rcases h .builtIn r empty rfl (by decide +kernel) with ⟨failure, hsame⟩ | ⟨after, hdone⟩
  · rw [(Prod.mk.inj (hrun.symm.trans hsame)).2] at hleft
    cases hleft
  · cases (Prod.mk.inj (hrun.symm.trans hdone)).1

end Request
end PointDriver.Package

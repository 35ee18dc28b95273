import PointDriver.Proofs.Package.ManifestText
import PointDriver.Proofs.Package.Scaffolding

/-!
# Files that scaffolding keeps

An unforced request keeps every file beside the two that it writes. It keeps
these two as well when its root leads straight to where it leads: a file that
stands there is then found before anything is made. A root with a detour
through something missing hides the file until the directories are made.
-/

namespace PointDriver.Package
open FileTree Files

/-- Whether a root leads through the place of its own manifest. -/
def CrossesManifest (root : Path) : Prop :=
  ∃ place ∈ route [] root.pieces, manifestPlace root <+: place

instance (root : Path) : Decidable (CrossesManifest root) :=
  inferInstanceAs (Decidable (∃ place ∈ route [] root.pieces, manifestPlace root <+: place))

/-- Every file of a tree is in another one. -/
def KeepsFiles (t t' : FileTree) : Prop :=
  ∀ location content, t.get? location = some (file content) →
    t'.get? location = some (file content)

namespace Request
variable {r : Request} {renderer : Renderer} {files : FileTree} {manifest main : String}

/-- Laying down a package replaces no file but the two, and neither of them where its path does not
keep to the limits. -/
theorem lay_keeps (files : FileTree) (manifest main : String) {location : Location}
    {content : Bytes} (h : files.get? location = some (file content))
    (hmanifest : r.files.manifest.Fits → location ≠ manifestPlace r.root)
    (hmain : r.files.main.Fits → location ≠ mainPlace r.root) :
    ((r.lay manifest main : Generating (StateM FileTree) Scaffolded) files).2.get? location =
      some (file content) := by
  rcases sourceDir_made r files with
    ⟨fault, made, hmake, hgrown⟩ | ⟨made, hmake, hgrown, hfits, hopen⟩
  · rw [lay_of_error hmake]
    exact (hgrown.files location content).mpr h
  · have hmade := (hgrown.files location content).mpr h
    have hhome := hopen (home r.root) (home_mem_route_sourceDir r)
    have hsource := hopen (sourcePlace r.root) (sourcePlace_mem_route r)
    have hlay := lay_of_ok manifest main hmake hfits hopen
    generalize (r.lay manifest main : Generating (StateM FileTree) Scaffolded) files = run at hlay ⊢
    cases hlay with
    | manifestTooLong long => exact hmade
    | manifestTaken fits directory => exact hmade
    | mainTooLong fits free long => exact get?_put_of_file hhome free (hmanifest fits) hmade
    | mainTaken fits free directory =>
        exact get?_put_of_file hhome free (hmanifest (fits_manifest_of_main fits)) hmade
    | done fits free free' =>
        refine get?_put_of_file ?_ free' (hmain fits)
          (get?_put_of_file hhome free (hmanifest (fits_manifest_of_main fits)) hmade)
        exact holdsDirectory_put hsource free _

/-- A root that leads through the place of its manifest makes a directory there, and no file can
be written. -/
theorem lay_keeps_of_crosses (hcross : CrossesManifest r.root) (files : FileTree)
    (manifest main : String) :
    KeepsFiles files
      ((r.lay manifest main : Generating (StateM FileTree) Scaffolded) files).2 := by
  intro location content h
  rcases sourceDir_made r files with
    ⟨fault, made, hmake, hgrown⟩ | ⟨made, hmake, hgrown, hfits, hopen⟩
  · rw [lay_of_error hmake]
    exact (hgrown.files location content).mpr h
  · obtain ⟨place, hp, hpre⟩ := hcross
    have hdir : made.holdsDirectory (manifestPlace r.root) :=
      holdsDirectory_of_isPrefix hpre (hopen place (mem_route_sourceDir hp))
    have hlay := lay_of_ok manifest main hmake hfits hopen
    generalize (r.lay manifest main : Generating (StateM FileTree) Scaffolded) files = run at hlay ⊢
    cases hlay with
    | manifestTooLong long => exact (hgrown.files location content).mpr h
    | manifestTaken fits directory => exact (hgrown.files location content).mpr h
    | mainTooLong fits free long => exact absurd hdir free
    | mainTaken fits free directory => exact absurd hdir free
    | done fits free free' => exact absurd hdir free

end Request

/-- The first byte of a manifest is an opening bracket. -/
theorem head?_manifest (package : String) (d : Declaration) (s : DriverSettings)
    (dependency : String) :
    (Utf8.encode (Skeleton.unlines (manifestTextLines package d s dependency))).head? =
      some 0x5B := by
  have hheader : (Utf8.encode "[package]").head? = some 0x5B := by decide +kernel
  rw [manifestTextLines, Skeleton.unlines_cons, Utf8.encode_append, List.head?_append, hheader]
  rfl

/-- The tree that holds only one thing at a location. -/
def planted : Location → FileTree → FileTree
  | [], t => t
  | name :: rest, t => directory [(name, planted rest t)]

theorem get?_planted_self (location : Location) (t : FileTree) :
    (planted location t).get? location = some t := by
  induction location with
  | nil => cases t <;> rfl
  | cons name rest ih => simpa [planted, get?_cons] using ih

/-- A planted file is all there is: everything else leads to it. -/
theorem isPrefix_of_get?_planted {location place : Location} {content : Bytes} {found : FileTree}
    (h : (planted location (file content)).get? place = some found) : place <+: location := by
  induction location generalizing place with
  | nil =>
      cases place with
      | nil => exact List.prefix_refl []
      | cons first more => cases h
  | cons name rest ih =>
      cases place with
      | nil => exact List.nil_prefix
      | cons first more =>
          rw [planted, get?_cons, List.lookup_cons] at h
          by_cases hname : first = name
          · subst hname
            rw [beq_self_eq_true] at h
            exact List.cons_prefix_cons.mpr ⟨rfl, ih h⟩
          · rw [beq_eq_false_iff_ne.mpr hname] at h
            cases h

theorem eq_of_holdsFile_planted {location place : Location} {content : Bytes}
    (h : (planted location (file content)).holdsFile place) : place = location := by
  obtain ⟨found, hfound⟩ := h
  obtain ⟨below, rfl⟩ := isPrefix_of_get?_planted hfound
  by_cases hbelow : below = []
  · rw [hbelow, List.append_nil]
  · have hdir := holdsDirectory_of_get? (get?_planted_self (place ++ below) (file content)) hbelow
    exact absurd ⟨found, hfound⟩ (not_holdsFile_of_holdsDirectory hdir)

section Detour
variable {root : Path} {d : Declaration} {s : DriverSettings} {package dependency : String}
  {files : FileTree}

/-- Where the root leads through something that is no directory, neither file is found. -/
theorem ready_of_gap
    (hgap : ∃ place ∈ route [] root.pieces, ¬ files.holdsDirectory place) :
    Request.Ready Renderer.builtIn ⟨root, some package, d, s, dependency, false⟩ files
      (Skeleton.unlines (manifestTextLines package d s dependency))
      (Skeleton.unlines (sourceLines d s)) := by
  obtain ⟨place, hp, hgap⟩ := hgap
  refine ⟨isOk_find_of_gap (Request.pieces_manifest _) ⟨place, hp, hgap⟩,
    isOk_find_of_gap (Request.pieces_main _) ⟨place, Request.mem_route_sourceDir hp, hgap⟩,
    ⟨package, rfl, ?_⟩, ?_⟩
  · exact congrFun (Renderer.renderManifest_builtIn package d s dependency) files
  · exact congrFun (Renderer.renderDriver_builtIn d s) files

/-- A detour leads through nothing where only the manifest is. -/
theorem gap_of_detour (hdetour : ¬ IsDirect root) (hcross : ¬ CrossesManifest root)
    (old : Bytes) : ∃ place ∈ route [] root.pieces,
      ¬ (planted (manifestPlace root) (file old)).holdsDirectory place := by
  obtain ⟨place, hp, hoff⟩ : ∃ place ∈ route [] root.pieces, ¬ place <+: home root := by
    simpa [IsDirect] using hdetour
  refine ⟨place, hp, ?_⟩
  rintro ⟨entries, he⟩
  rcases List.prefix_concat_iff.mp (isPrefix_of_get?_planted he) with rfl | hpre
  · exact hcross ⟨_, hp, List.prefix_refl _⟩
  · exact hoff hpre

/-- The manifest alone is not in the way of the directories. -/
theorem free_of_not_crosses (hcross : ¬ CrossesManifest root) (old : Bytes) {r : Request}
    (hr : r.root = root) : ∀ place ∈ route [] r.sourceDir.pieces,
      ¬ (planted (manifestPlace root) (file old)).holdsFile place := by
  subst hr
  rw [Request.route_sourceDir, List.forall_mem_append, List.forall_mem_singleton]
  constructor
  · intro place hp hfile
    obtain rfl := eq_of_holdsFile_planted hfile
    exact hcross ⟨_, hp, List.prefix_refl _⟩
  · intro hfile
    exact manifestPlace_not_prefix_sourcePlace r.root
      (eq_of_holdsFile_planted hfile ▸ List.prefix_refl _)

/-- A root with a detour through something missing hides a manifest until the directories are
made. The manifest is then replaced, if its path keeps to the limits. -/
theorem manifest_lost (hdetour : ¬ IsDirect root) (hcross : ¬ CrossesManifest root)
    (hfits : (root.join (Path.ofString "Cargo.toml")).Fits)
    (package : String) (d : Declaration) (s : DriverSettings) (dependency : String)
    (old : Bytes) :
    ((Request.scaffold Renderer.builtIn ⟨root, some package, d, s, dependency, false⟩ :
        Generating (StateM FileTree) Scaffolded)
        (planted (manifestPlace root) (file old))).2.get? (manifestPlace root) =
      some (file (Utf8.encode (Skeleton.unlines (manifestTextLines package d s dependency)))) := by
  let r : Request := ⟨root, some package, d, s, dependency, false⟩
  have hfitsSource : r.sourceDir.Fits := Request.fits_sourceDir_of_manifest (r := r) hfits
  rw [Request.scaffold_of_ready rfl (ready_of_gap (gap_of_detour hdetour hcross old))]
  obtain ⟨made, hmake, hgrown, hopen⟩ :=
    Request.sourceDir_made_of_free hfitsSource (free_of_not_crosses hcross old (r := r) rfl)
  have hthere := (hgrown.files _ _).mpr (get?_planted_self (manifestPlace root) (file old))
  have hhome : made.holdsDirectory (home root) := hopen _ (Request.home_mem_route_sourceDir _)
  have hwritten := get?_put_self hhome manifestName
    (file (Utf8.encode (Skeleton.unlines (manifestTextLines package d s dependency))))
  have hlay := Request.lay_of_ok (Skeleton.unlines (manifestTextLines package d s dependency))
    (Skeleton.unlines (sourceLines d s)) hmake hfitsSource hopen
  generalize (r.lay _ _ : Generating (StateM FileTree) Scaffolded) _ = run at hlay ⊢
  cases hlay with
  | manifestTooLong long => exact absurd hfits.length_le (Nat.not_le.mpr long)
  | manifestTaken fits directory =>
      exact absurd ⟨old, hthere⟩ (not_holdsFile_of_holdsDirectory directory)
  | mainTooLong fits free long => exact hwritten
  | mainTaken fits free directory => exact hwritten
  | done fits free free' =>
      exact (get?_put_of_ne (manifestPlace_not_prefix_mainPlace root)
        (mainPlace_not_prefix_manifestPlace root) _ _).trans hwritten

end Detour

/-- An unforced request replaces no file but the two that it writes, and it replaces none at all
when its root leads straight to where it leads. The roots that lead through the place of their
own manifest come to nothing, and so do those below which the path of a manifest does not keep to
the limits. Every other root replaces a manifest in some tree. -/
theorem scaffold_keeps_files (root : Path) :
    (∀ (renderer : Renderer) (r : Request) (files : FileTree), r.root = root → r.force = false →
      ∀ location content, files.get? location = some (file content) →
        location ≠ manifestPlace root → location ≠ mainPlace root →
        ((r.scaffold renderer : Generating (StateM FileTree) Scaffolded) files).2.get? location =
          some (file content)) ∧
    ((∀ (renderer : Renderer) (r : Request) (files : FileTree), r.root = root → r.force = false →
      KeepsFiles files
        ((r.scaffold renderer : Generating (StateM FileTree) Scaffolded) files).2) ↔
      IsDirect root ∨ CrossesManifest root ∨
        ¬ (root.join (Path.ofString "Cargo.toml")).Fits) := by
  refine ⟨?_, ?_, ?_⟩
  · rintro renderer r files rfl hforce location content h hmanifest hmain
    rcases Request.ready_or_unready renderer hforce files with
      ⟨manifest, main, hready⟩ | ⟨failure, -, hrun⟩
    · rw [Request.scaffold_of_ready hforce hready]
      exact Request.lay_keeps files manifest main h (fun _ => hmanifest) fun _ => hmain
    · rw [hrun]
      exact h
  · intro hkeeps
    by_contra hbent
    rw [not_or, not_or, not_not] at hbent
    have hlost := manifest_lost hbent.1 hbent.2.1 hbent.2.2 "" .empty .standard "" []
    have hkept := hkeeps Renderer.builtIn
      ⟨root, some "", .empty, .standard, "", false⟩ _ rfl rfl _ _
      (get?_planted_self (manifestPlace root) (file []))
    have hhead := head?_manifest "" .empty .standard ""
    rw [FileTree.file.inj (Option.some.inj (hlost.symm.trans hkept))] at hhead
    cases hhead
  · rintro hroot renderer r files rfl hforce location content h
    rcases Request.ready_or_unready renderer hforce files with
      ⟨manifest, main, hready⟩ | ⟨failure, -, hrun⟩
    · rw [Request.scaffold_of_ready hforce hready]
      rcases hroot with hdirect | hcross | hover
      · apply Request.lay_keeps files manifest main h
        · rintro hfits rfl
          rw [hready.get?_manifest hfits hdirect] at h
          cases h
        · rintro hfits rfl
          rw [hready.get?_main hfits hdirect] at h
          cases h
      · exact Request.lay_keeps_of_crosses hcross files manifest main location content h
      · exact Request.lay_keeps files manifest main h (fun hfits => absurd hfits hover)
          fun hfits => absurd (Request.fits_manifest_of_main hfits) hover
    · rw [hrun]
      exact h

/-- In `x/../x` nothing is passed but what is above the package. -/
theorem scaffold_keeps_manifest :
    let root := Path.ofString "x/../x"
    let r : Request := ⟨root, some "p", .empty, .standard, "", false⟩
    IsDirect root ∧
      ((r.scaffold .builtIn : Generating (StateM FileTree) Scaffolded)
        (planted (manifestPlace root) (file []))).2.get? (manifestPlace root) = some (file []) := by
  intro root r
  have hdirect : IsDirect root := by decide +kernel
  exact ⟨hdirect, (scaffold_keeps_files root).2.mpr (Or.inl hdirect) .builtIn r _ rfl rfl _ _
    (get?_planted_self _ _)⟩

/-- In `a/../b` the directory `a` is passed, which is not above the package. -/
theorem not_keepsFiles : ¬ ∀ (renderer : Renderer) (r : Request) (files : FileTree),
    r.force = false →
      KeepsFiles files
        ((r.scaffold renderer : Generating (StateM FileTree) Scaffolded) files).2 := by
  intro hkeeps
  let root := Path.ofString "a/../b"
  let old := Utf8.encode "old"
  have hdetour : ¬ IsDirect root := by decide +kernel
  have hcross : ¬ CrossesManifest root := by decide +kernel
  have hfits : (root.join (Path.ofString "Cargo.toml")).Fits := by decide +kernel
  have hlost := manifest_lost hdetour hcross hfits "p" .empty .standard "" old
  have hkept := hkeeps .builtIn ⟨root, some "p", .empty, .standard, "", false⟩
    _ rfl _ _ (get?_planted_self (manifestPlace root) (file old))
  have hhead := head?_manifest "p" .empty .standard ""
  rw [FileTree.file.inj (Option.some.inj (hlost.symm.trans hkept))] at hhead
  exact absurd hhead (by decide +kernel)

end PointDriver.Package

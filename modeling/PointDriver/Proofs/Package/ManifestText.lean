import PointDriver.Proofs.Package.DriverText

/-!
# The texts of a package

The built-in template of a manifest means an explicit list of lines, as that of
a driver's source does. Rendering with the built-in templates gives these lines
for every declaration and whatever the texts are that stand in them: tags and
quotes in such a text are copied like any other character.
-/

namespace PointDriver.Package
open Template Skeleton

/-- The parts of the template of a manifest. -/
def manifestParts : List Part :=
  [ .shown (joined ["[package]", "name = \""]) "package",
    .shown (joined ["\"", "version = \"0.1.0\"", "edition = \"2024\"",
      "description = \"Sweep point driver for: "]) "parameter_list",
    .shown (joined ["\"", "", "[[bin]]", "name = \""]) "program",
    .shown (joined ["\"", "path = \"src/main.rs\"", "", "[dependencies]", ""])
      "runtime_dependency" ]

/-- What follows the last tag of the manifest's template. -/
def manifestEnd : String := joined ["", ""]

/-- The manifest's template is its parts. -/
theorem manifest_eq_sourceOf :
    Skeleton.manifest = sourceOf (manifestParts.flatMap Part.cuts) manifestEnd := by
  have hpackage : "name = \"\x7b\x7bpackage\x7d\x7d\"" =
      "name = \"" ++ ("\x7b\x7b" ++ ("package" ++ ("\x7d\x7d" ++ "\""))) := rfl
  have hlist : "description = \"Sweep point driver for: \x7b\x7bparameter_list\x7d\x7d\"" =
      "description = \"Sweep point driver for: " ++
        ("\x7b\x7b" ++ ("parameter_list" ++ ("\x7d\x7d" ++ "\""))) := rfl
  have hprogram : "name = \"\x7b\x7bprogram\x7d\x7d\"" =
      "name = \"" ++ ("\x7b\x7b" ++ ("program" ++ ("\x7d\x7d" ++ "\""))) := rfl
  have hdependency : "\x7b\x7bruntime_dependency\x7d\x7d" =
      "\x7b\x7b" ++ ("runtime_dependency" ++ "\x7d\x7d") := rfl
  simp only [Skeleton.manifest, unlines, manifestLines, hpackage, hlist, hprogram, hdependency,
    List.map_cons, List.map_nil, String.join_cons, String.join_nil, sourceOf, manifestParts,
    manifestEnd, Part.cuts, Cut.source, Mark.inside, joined, List.flatMap_cons, List.flatMap_nil,
    List.cons_append, List.nil_append, String.append_assoc, String.empty_append,
    String.append_empty, -String.reduceAppend]

theorem isRead_manifestParts : ∀ part ∈ manifestParts, part.IsRead := by
  have hname : ∀ name ∈ ["package", "parameter_list", "program", "runtime_dependency"],
      Referable name ∧ name ≠ Part.current := by
    simp only [List.forall_mem_cons]
    refine ⟨?_, ?_, ?_, ?_, List.forall_mem_nil _⟩ <;>
      exact ⟨⟨by decide, by decide, by decide, by decide⟩, by decide⟩
  simp only [manifestParts, List.forall_mem_cons, Part.IsRead]
  exact ⟨⟨by decide +kernel, hname _ (by decide)⟩, ⟨by decide +kernel, hname _ (by decide)⟩,
    ⟨by decide +kernel, hname _ (by decide)⟩, ⟨by decide +kernel, hname _ (by decide)⟩,
    List.forall_mem_nil _⟩

/-- The lines of a manifest. -/
def manifestTextLines (package : String) (d : Declaration) (s : DriverSettings)
    (dependency : String) : List String :=
  [ "[package]",
    "name = \"" ++ (package ++ "\""),
    "version = \"0.1.0\"",
    "edition = \"2024\"",
    "description = \"Sweep point driver for: " ++ (parameterList d ++ "\""),
    "",
    "[[bin]]",
    "name = \"" ++ (s.program ++ "\""),
    "path = \"src/main.rs\"",
    "",
    "[dependencies]",
    dependency ]

/-- The texts that the names in the manifest's template stand for. -/
def manifestValue (package : String) (d : Declaration) (s : DriverSettings)
    (dependency name : String) : String :=
  ([("package", package), ("program", s.program), ("parameter_list", parameterList d),
    ("runtime_dependency", dependency)].lookup name).getD ""

section Manifest
variable (package : String) (d : Declaration) (s : DriverSettings) (dependency : String)

theorem rendered_manifestParts :
    String.join (manifestParts.map
      (Part.rendered (manifestValue package d s dependency) fun _ => [])) ++ manifestEnd =
      unlines (manifestTextLines package d s dependency) := by
  have hpackage : manifestValue package d s dependency "package" = package := rfl
  have hlist : manifestValue package d s dependency "parameter_list" = parameterList d := rfl
  have hprogram : manifestValue package d s dependency "program" = s.program := rfl
  have hdependency : manifestValue package d s dependency "runtime_dependency" = dependency := rfl
  simp only [manifestParts, manifestEnd, manifestTextLines, List.map_cons, List.map_nil,
    Part.rendered, hpackage, hlist, hprogram, hdependency, joined, String.join_cons,
    String.join_nil, unlines_cons, unlines_nil, String.append_assoc, String.empty_append,
    String.append_empty, -String.reduceAppend]

/-- The built-in template of a manifest can be rendered for all values, and it means these
lines. -/
theorem render?_manifest :
    Template.render? Skeleton.manifest (manifestContext package d s dependency) =
      some (unlines (manifestTextLines package d s dependency)) := by
  have hdefined : ∀ part ∈ manifestParts, part.Defined
      [("package", .text package), ("program", .text s.program),
        ("parameter_list", .text (parameterList d)), ("runtime_dependency", .text dependency)]
      (manifestValue package d s dependency) (fun _ => []) := by
    simp only [manifestParts, List.forall_mem_cons]
    exact ⟨rfl, rfl, rfl, rfl, List.forall_mem_nil _⟩
  rw [manifest_eq_sourceOf, manifestContext,
    render?_parts isRead_manifestParts (by decide) hdefined, rendered_manifestParts]

/-- The built-in template gives a manifest for all values. -/
theorem Renderer.renderManifest_builtIn {m : Type → Type} [Monad m] [LawfulMonad m] [Files m] :
    (Renderer.builtIn.renderManifest package d s dependency : Generating m String) =
      pure (unlines (manifestTextLines package d s dependency)) :=
  render_of_template? rfl (render?_manifest package d s dependency)

end Manifest

/-- With the built-in templates rendering does not fail. The source of a driver and the
manifest of a package are fixed lines with the given texts copied into them, and the source
has its lines for the parameters in declaration order at four places. -/
theorem render_builtIn_texts {m : Type → Type} [Monad m] [LawfulMonad m] [Files m]
    (d : Declaration) (settings : DriverSettings) (package dependency : String) :
    (Renderer.builtIn.renderDriver d settings : Generating m String) =
        pure (unlines (sourceLines d settings)) ∧
      (Renderer.builtIn.renderManifest package d settings dependency : Generating m String) =
        pure (unlines (manifestTextLines package d settings dependency)) :=
  ⟨Renderer.renderDriver_builtIn d settings,
    Renderer.renderManifest_builtIn package d settings dependency⟩

/-- Tags, quotes, marks and line breaks in the texts are copied. -/
theorem renderManifest_with_tags :
    (Renderer.builtIn.renderManifest "\x7b\x7bprogram\x7d\x7d"
        ⟨["alpha", "beta"], by decide, by decide⟩ ⟨"a <\nb", "x"⟩
        "\x7b\x7b#each x\x7d\x7d = \"1\" & more" : Generating (StateM FileTree) String) =
      pure ("[package]\nname = \"\x7b\x7bprogram\x7d\x7d\"\nversion = \"0.1.0\"\n" ++
        "edition = \"2024\"\ndescription = \"Sweep point driver for: alpha, beta\"\n\n" ++
        "[[bin]]\nname = \"a <\nb\"\npath = \"src/main.rs\"\n\n[dependencies]\n" ++
        "\x7b\x7b#each x\x7d\x7d = \"1\" & more\n") := by
  obtain ⟨-, hmanifest⟩ := render_builtIn_texts (m := StateM FileTree)
    ⟨["alpha", "beta"], by decide, by decide⟩ ⟨"a <\nb", "x"⟩ "\x7b\x7bprogram\x7d\x7d"
    "\x7b\x7b#each x\x7d\x7d = \"1\" & more"
  rw [hmanifest]
  exact congrArg pure (by decide +kernel)

end PointDriver.Package

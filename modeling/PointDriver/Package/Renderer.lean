import PointDriver.Generator.Failure
import PointDriver.Package.Context
import PointDriver.Package.Skeleton
import PointDriver.Template.Render

/-! # Rendering drivers and manifests

A template directory may override the built-in templates, each by a file of its
name. -/

namespace PointDriver.Package

/-- A source of templates: a directory that goes first, if there is one. -/
structure Renderer where
  templateDir : Option Path
  deriving DecidableEq, Repr

namespace Renderer

/-- Uses the built-in templates alone. -/
def builtIn : Renderer := ⟨none⟩

variable {m : Type → Type} [Monad m] [Files m]

/-- Uses a directory of templates, if it is one. -/
def make (templateDir : Option Path) : m Renderer := do
  match templateDir with
  | none => pure builtIn
  | some dir => if ← Files.isDirectory dir then pure ⟨some dir⟩ else pure builtIn

/-- The built-in template with the name. -/
def builtInTemplate (name : String) : Generating m String :=
  match Skeleton.template? name with
  | some text => pure text
  | none => throw (.templateNotFound name)

/-- The template with the name. -/
def template (r : Renderer) (name : String) : Generating m String := do
  match r.templateDir with
  | none => builtInTemplate name
  | some dir =>
      let path := dir.join (Path.ofString (name ++ ".hbs"))
      if ← (Files.isThere path : m Bool) then
        Generating.orFail (.templateUnreadable path) (Files.readText path)
      else builtInTemplate name

/-- The text of a template for a context. -/
def render (r : Renderer) (name : String) (context : Json) : Generating m String := do
  match Template.render? (← r.template name) context with
  | some text => pure text
  | none => throw (.templateUnusable name)

/-- The source of a driver. -/
def renderDriver (r : Renderer) (d : Declaration) (s : DriverSettings) : Generating m String :=
  r.render Skeleton.driverName (driverContext d s)

/-- The manifest of a package. -/
def renderManifest (r : Renderer) (package : String) (d : Declaration) (s : DriverSettings)
    (dependency : String) : Generating m String :=
  r.render Skeleton.manifestName (manifestContext package d s dependency)

end Renderer

end PointDriver.Package

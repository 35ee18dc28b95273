import PointDriver.Package.Renderer

/-! # Scaffolding

A package of its own for a driver: a directory with a manifest and a source
file. Files that are there are kept unless the request says otherwise. -/

namespace PointDriver.Package

/-- What package to make, and where. -/
structure Request where
  root : Path
  package : Option String
  declaration : Declaration
  settings : DriverSettings
  dependency : String
  /-- Whether files that are there may be replaced. -/
  force : Bool
  deriving DecidableEq, Repr

/-- The files of a package. -/
structure Scaffolded where
  manifest : Path
  main : Path
  deriving DecidableEq, Repr

namespace Request

/-- The name of the package: the given one, else the name of its directory. -/
def packageName? (r : Request) : Option String :=
  match r.package with
  | some name => some name
  | none => r.root.fileName?.bind Utf8.decode?

/-- The directory of the source file. -/
def sourceDir (r : Request) : Path := r.root.join (Path.ofString "src")

/-- The files to be written. -/
def files (r : Request) : Scaffolded :=
  ⟨r.root.join (Path.ofString "Cargo.toml"), r.sourceDir.join (Path.ofString "main.rs")⟩

variable {m : Type → Type} [Monad m] [Files m]

/-- Stops if a path leads to something. -/
def refuse (path : Path) : Generating m Unit := do
  if ← (Files.isThere path : m Bool) then throw (.overwriteRefused path)

/-- Writes a file. -/
def writeFile (path : Path) (text : String) : Generating m Unit :=
  Generating.orFail (.fileNotWritten path) (Files.write path (Utf8.encode text))

/-- Makes the package. Both texts are rendered before anything is written. -/
def scaffold (renderer : Renderer) (r : Request) : Generating m Scaffolded := do
  match r.packageName? with
  | none => throw (.packageNameMissing r.root)
  | some package =>
      unless r.force do
        refuse r.files.manifest
        refuse r.files.main
      let manifest ← renderer.renderManifest package r.declaration r.settings r.dependency
      let main ← renderer.renderDriver r.declaration r.settings
      Generating.orFail (.directoryNotMade r.sourceDir) (Files.makeDirectories r.sourceDir)
      writeFile r.files.manifest manifest
      writeFile r.files.main main
      pure r.files

end Request

end PointDriver.Package

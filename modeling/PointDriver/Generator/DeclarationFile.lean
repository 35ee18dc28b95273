import PointDriver.Generator.Failure
import PointDriver.Yaml.Document

/-! # Declaration files

A file with parameter names: a sequence of names, or a mapping that holds one
under the key for parameters. Here a scalar counts as a name only if it means a
text. -/

namespace PointDriver.DeclarationFile

/-- The names of a sequence of texts. -/
def sequenceNames? : Yaml.Node → Option (List String)
  | .sequence items => items.mapM Yaml.Node.meantText?
  | _ => none

/-- What a key of a mapping stands for. -/
inductive Key where
  | parameters
  | other
  deriving DecidableEq, Repr

/-- Reads a key. The number zero stands for the first key there is, and other
numbers that are not negative stand for none. -/
def key? : Yaml.Node → Option Key
  | .quoted text => some (if text == "parameters" then .parameters else .other)
  | .plain text =>
      match Yaml.meaning text with
      | .text text => some (if text == "parameters" then .parameters else .other)
      | .integer n =>
          if n == 0 then some .parameters
          else if 0 < n && n.toNat < Nat.pow 2 64 then some .other
          else none
      | _ => none
  | _ => none

/-- The names under the key for parameters, which stands there once. -/
def mappingNames? (entries : List (Yaml.Node × Yaml.Node)) : Option (List String) := do
  let keyed ← entries.mapM fun (key, value) => (key? key).map fun key => (key, value)
  match keyed.filter fun (key, _) => key == .parameters with
  | [(_, value)] => sequenceNames? value
  | _ => none

/-- The names that a document holds. -/
def names? : Yaml.Node → Option (List String)
  | .sequence items => sequenceNames? (.sequence items)
  | .mapping entries => mappingNames? entries
  | _ => none

/-- The names that a text holds. -/
def ofText? (text : String) : Option (List String) :=
  match Yaml.read? text with
  | some (some node) => names? node
  | _ => none

variable {m : Type → Type} [Monad m] [Files m]

/-- Reads the names in a file. -/
def readNames (path : Path) : Generating m (List String) := do
  let text ← Generating.orFail (.declarationUnreadable path) (Files.readText path)
  match ofText? text with
  | some names => pure names
  | none => throw (.declarationMalformed path)

/-- The declaration of the names in a file, if one is given, and further names
after them. -/
def load (names : List String) (path : Option Path) : Generating m Declaration := do
  let before ← match path with
    | some path => readNames path
    | none => pure []
  match Declaration.ofNames (before ++ names) with
  | .ok d => pure d
  | .error error => throw (.declarationRejected error)

end PointDriver.DeclarationFile

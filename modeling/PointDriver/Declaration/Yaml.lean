import PointDriver.Declaration.Basic
import PointDriver.Yaml.Document

/-! # Declarations as YAML

A declaration is written as a sequence with one name to a line. A name is put
between quotes when it would mean something other than a text without them. -/

namespace PointDriver.Declaration

/-- A name as it stands behind its dash. -/
def yamlScalar (name : String) : String :=
  match Yaml.meaning name with
  | .text _ => name
  | _ => "'" ++ name ++ "'"

/-- The sequence of the names as a document. -/
def toYaml (d : Declaration) : String :=
  if d.names.isEmpty then "[]\n"
  else String.join (d.names.map fun name => "- " ++ yamlScalar name ++ "\n")

/-- The texts of a sequence of scalars. A missing sequence is empty. -/
def scalarTexts? : Option Yaml.Node → Option (List String)
  | none => some []
  | some (.plain text) => if text.isEmpty then some [] else none
  | some (.sequence items) => items.mapM Yaml.Node.scalarText?
  | some _ => none

/-- The declaration that a document holds. Every scalar counts as a text. -/
def ofYaml? (text : String) : Option Declaration := do
  let names ← scalarTexts? (← Yaml.read? text)
  (ofNames names).toOption

end PointDriver.Declaration

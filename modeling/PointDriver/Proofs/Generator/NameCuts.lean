import PointDriver.Proofs.Generator.Lines
import PointDriver.Proofs.Generator.StoredNames
import PointDriver.Proofs.Generator.Surroundings

/-!
# Cuts of a list of names

The names of a declaration may be cut anywhere into a first part that is stored
in a file and a rest that is given among the arguments, in any number of pieces.
The whole list alone decides what is declared, which error is reported and what
a run shows.
-/

namespace PointDriver.Generator

open CommandLine

namespace Line

/-- A line and the file that it names cut the list into what is stored and what is given. -/
def Cuts (l : Line) (files : FileTree) (names : List String) : Prop :=
  ∃ stored, DeclarationFile.Stored files l.paramsFile stored ∧ stored ++ l.names = names

end Line

section Work
variable {configHome : Option Path} {files : FileTree} {names : List String}

variable {l : Line}

theorem Line.Cuts.load (h : l.Cuts files names) :
    (DeclarationFile.load l.names l.paramsFile : Generating (StateM FileTree) Declaration) files =
      ((Declaration.ofNames names).mapError .declarationRejected, files) := by
  obtain ⟨stored, hstored, rfl⟩ := h
  exact DeclarationFile.load_of_namesIn hstored.namesIn l.names

end Work

end PointDriver.Generator

import PointDriver.Generator.Transcript
import PointDriver.Proofs.Files.Answers
import PointDriver.Proofs.Generator.Configuration
import PointDriver.Proofs.Package.Scaffolding

/-!
# What a run asks of its surroundings

A run that renders a driver asks for the configuration, for the template and
for the file to write. Two trees that answer these questions alike lead to the
same result, whatever else they hold.
-/

namespace PointDriver

variable {a b : FileTree}

namespace Config

end Config

namespace Package.Renderer

theorem leavesFiles_make (templateDir : Option Path) :
    LeavesFiles (make templateDir : StateM FileTree Renderer) := by
  cases templateDir with
  | none => exact .pure _
  | some dir =>
      refine LeavesFiles.bind (x := Files.isDirectory dir) (fun _ => rfl) fun there => ?_
      cases there <;> exact .pure _

theorem leavesFiles_liftM_make (templateDir : Option Path) :
    LeavesFiles (liftM (make templateDir : StateM FileTree Renderer) :
      Generating (StateM FileTree) Renderer).run :=
  (leavesFiles_make templateDir).bind fun _ => .pure _

end Package.Renderer

namespace Generator

open Package

section Same
variable {configHome explicit output : Option Path}

end Same

end Generator

end PointDriver

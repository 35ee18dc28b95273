import PointDriver.Generator.Failure
import PointDriver.Proofs.Files.Writing
import PointDriver.Proofs.Text.Decoding

/-!
# Activities that only read

Reading leaves the files as they are, and so does everything that is built from
reading, whether or not it fails.
-/

namespace PointDriver

/-- An activity that leaves the files as they are. -/
def LeavesFiles {α : Type} (activity : StateM FileTree α) : Prop :=
  ∀ files, (activity files).2 = files

namespace LeavesFiles
variable {α β : Type}

theorem pure (a : α) : LeavesFiles (Pure.pure a : StateM FileTree α) := fun _ => rfl

theorem bind {x : StateM FileTree α} {f : α → StateM FileTree β} (hx : LeavesFiles x)
    (hf : ∀ a, LeavesFiles (f a)) : LeavesFiles (x >>= f) := by
  intro files
  have hstep : (x >>= f) files = f (x files).1 (x files).2 := rfl
  rw [hstep, hf, hx]

/-- What follows a failure is left out. -/
theorem generating {x : Generating (StateM FileTree) α} {f : α → Generating (StateM FileTree) β}
    (hx : LeavesFiles x.run) (hf : ∀ a, LeavesFiles (f a).run) : LeavesFiles (x >>= f).run := by
  rw [ExceptT.run_bind]
  apply hx.bind
  rintro (e | a)
  · exact .pure _
  · exact hf a

theorem isThere (path : Path) : LeavesFiles (Files.isThere path : StateM FileTree Bool) :=
  fun _ => rfl

theorem readText (path : Path) :
    LeavesFiles (Files.readText path : StateM FileTree (Except ReadFault String)) := by
  apply LeavesFiles.bind (x := Files.read path) fun _ => rfl
  rintro (fault | bytes)
  · exact .pure _
  · intro files
    simp only
    cases Utf8.decode? bytes <;> rfl

theorem orFail {ε : Type} {activity : StateM FileTree (Except ε α)} (h : LeavesFiles activity)
    (fail : ε → Failure) :
    LeavesFiles (Generating.orFail fail activity : Generating (StateM FileTree) α).run := by
  have hlift : LeavesFiles (liftM activity : Generating (StateM FileTree) (Except ε α)).run :=
    h.bind fun _ => .pure _
  apply hlift.generating
  rintro (fault | value)
  · exact .pure _
  · exact .pure _

theorem run_cases {x : Generating (StateM FileTree) α} (h : LeavesFiles x.run) (files : FileTree) :
    (∃ a, x files = (.ok a, files)) ∨ ∃ failure, x files = (.error failure, files) := by
  rcases hrun : x files with ⟨failure | a, after⟩
  · exact Or.inr ⟨failure, Prod.ext rfl ((congrArg Prod.snd hrun).symm.trans (h files))⟩
  · exact Or.inl ⟨a, Prod.ext rfl ((congrArg Prod.snd hrun).symm.trans (h files))⟩

end LeavesFiles

/-- A text that was written is read back. -/
theorem readText_of_write {files written : FileTree} {path : Path} {text : String}
    (h : files.write path (Utf8.encode text) = .ok written) :
    (Files.readText path : StateM FileTree (Except ReadFault String)) written =
      (.ok text, written) := by
  have hread : (Files.read path : StateM FileTree (Except FileFault Bytes)) written =
      (.ok (Utf8.encode text), written) := by
    rw [← FileTree.read_of_write h]
    rfl
  simp only [Files.readText, bind, StateT.bind, hread, Utf8.decode?_encode]
  rfl

namespace Generating
variable {α β ε : Type} {files after : FileTree}

/-- An activity that succeeds is followed by the next. -/
theorem bind_of_ok {x : Generating (StateM FileTree) α} {f : α → Generating (StateM FileTree) β}
    {a : α} (h : x files = (.ok a, after)) : (x >>= f) files = f a after := by
  simp only [bind, ExceptT.bind, ExceptT.mk, StateT.bind, h]
  rfl

/-- An activity that fails is followed by nothing. -/
theorem bind_of_error {x : Generating (StateM FileTree) α} {f : α → Generating (StateM FileTree) β}
    {failure : Failure} (h : x files = (.error failure, after)) :
    (x >>= f) files = (.error failure, after) := by
  simp only [bind, ExceptT.bind, ExceptT.mk, StateT.bind, h]
  rfl

theorem orFail_of_ok {activity : StateM FileTree (Except ε α)} {a : α}
    (h : activity files = (.ok a, after)) (fail : ε → Failure) :
    (Generating.orFail fail activity : Generating (StateM FileTree) α) files = (.ok a, after) := by
  have hlift : (liftM activity : Generating (StateM FileTree) (Except ε α)) files =
      (.ok (.ok a), after) := by
    simp only [liftM, monadLift, MonadLift.monadLift, ExceptT.lift, ExceptT.mk, Functor.map,
      StateT.map, h]
    rfl
  rw [orFail, bind_of_ok hlift]
  rfl

theorem orFail_of_error {activity : StateM FileTree (Except ε α)} {fault : ε}
    (h : activity files = (.error fault, after)) (fail : ε → Failure) :
    (Generating.orFail fail activity : Generating (StateM FileTree) α) files =
      (.error (fail fault), after) := by
  have hlift : (liftM activity : Generating (StateM FileTree) (Except ε α)) files =
      (.ok (.error fault), after) := by
    simp only [liftM, monadLift, MonadLift.monadLift, ExceptT.lift, ExceptT.mk, Functor.map,
      StateT.map, h]
    rfl
  rw [orFail, bind_of_ok hlift]
  rfl

end Generating

end PointDriver

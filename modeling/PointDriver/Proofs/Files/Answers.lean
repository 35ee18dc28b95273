import PointDriver.Proofs.Files.Reading

/-!
# The same answers from two trees

An activity that asks two trees only about paths of which both say the same
comes to the same result, and so does everything that is built from such
activities, as long as the files stay as they are.
-/

namespace PointDriver

/-- An activity with the same result on both trees. -/
def SameAnswer {α : Type} (a b : FileTree) (activity : StateM FileTree α) : Prop :=
  (activity a).1 = (activity b).1

/-- A path of which two trees say the same: what is there, what it holds and whether it can be
written. -/
structure FileTree.Alike (a b : FileTree) (path : Path) : Prop where
  isThere : SameAnswer a b (Files.isThere path)
  isDirectory : SameAnswer a b (Files.isDirectory path)
  read : SameAnswer a b (Files.read path)
  write : ∀ content, SameAnswer a b (Files.write path content)

namespace SameAnswer
variable {α β ε : Type} {a b : FileTree}

theorem pure (value : α) : SameAnswer a b (Pure.pure value : StateM FileTree α) := rfl

theorem bind {x : StateM FileTree α} {f : α → StateM FileTree β} (hx : SameAnswer a b x)
    (hl : LeavesFiles x) (hf : ∀ value, (x a).1 = value → SameAnswer a b (f value)) :
    SameAnswer a b (x >>= f) := by
  have hstep : ∀ files, (x >>= f) files = f (x files).1 (x files).2 := fun _ => rfl
  rw [SameAnswer, hstep, hstep, hl a, hl b, ← show (x a).1 = (x b).1 from hx]
  exact hf (x a).1 rfl

/-- What is done with the result alone may also follow a change. -/
theorem bind_result {x : StateM FileTree α} {f : α → StateM FileTree β} (hx : SameAnswer a b x)
    (hf : ∀ value files other, (f value files).1 = (f value other).1) :
    SameAnswer a b (x >>= f) := by
  have hstep : ∀ files, (x >>= f) files = f (x files).1 (x files).2 := fun _ => rfl
  rw [SameAnswer, hstep, hstep, ← show (x a).1 = (x b).1 from hx]
  exact hf _ _ _

/-- What follows a failure is left out. -/
theorem generating {x : Generating (StateM FileTree) α} {f : α → Generating (StateM FileTree) β}
    (hx : SameAnswer a b x.run) (hl : LeavesFiles x.run)
    (hf : ∀ value, (x a).1 = .ok value → SameAnswer a b (f value).run) :
    SameAnswer a b (x >>= f).run := by
  rw [ExceptT.run_bind]
  apply hx.bind hl
  rintro (failure | value) hvalue
  · exact .pure _
  · exact hf value hvalue

theorem orFail {activity : StateM FileTree (Except ε α)} (h : SameAnswer a b activity)
    (fail : ε → Failure) :
    SameAnswer a b (Generating.orFail fail activity : Generating (StateM FileTree) α).run := by
  have hlift : SameAnswer a b
      (liftM activity : Generating (StateM FileTree) (Except ε α)).run :=
    congrArg Except.ok h
  rw [Generating.orFail, ExceptT.run_bind]
  apply hlift.bind_result
  rintro (failure | fault | value) files other
  · rfl
  · rfl
  · rfl

theorem readText {path : Path} (h : a.Alike b path) :
    SameAnswer a b (Files.readText path : StateM FileTree (Except ReadFault String)) := by
  apply h.read.bind_result
  rintro (fault | bytes) files other
  · rfl
  · simp only
    cases Utf8.decode? bytes <;> rfl

end SameAnswer

end PointDriver

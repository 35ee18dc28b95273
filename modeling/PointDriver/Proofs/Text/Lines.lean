import PointDriver.Package.Skeleton

/-!
# Lines of a text

A text that was put together from lines without breaks falls into these lines
again, with what follows them.
-/

namespace PointDriver.Skeleton

theorem unlines_nil : unlines [] = "" := rfl

theorem unlines_append (a b : List String) : unlines (a ++ b) = unlines a ++ unlines b := by
  simp [unlines, String.join_append]

theorem unlines_cons (line : String) (rest : List String) :
    unlines (line :: rest) = line ++ ("\n" ++ unlines rest) := by
  simp [unlines, String.join_cons, String.append_assoc]

/-- Lines without breaks are found again, with what follows them. -/
theorem splitOn_unlines {lines : List String} (h : ∀ line ∈ lines, '\n' ∉ line.toList)
    (rest : List Char) :
    ((unlines lines).toList ++ rest).splitOn '\n' =
      lines.map String.toList ++ rest.splitOn '\n' := by
  induction lines with
  | nil => rfl
  | cons line lines ih =>
      have hbreak : "\n".toList = ['\n'] := rfl
      rw [unlines_cons, String.toList_append, String.toList_append, hbreak,
        List.append_assoc, List.append_assoc, List.singleton_append,
        List.splitOn_append_cons_self_of_not_mem (h line List.mem_cons_self),
        ih fun l hl => h l (List.mem_cons_of_mem _ hl)]
      rfl

end PointDriver.Skeleton

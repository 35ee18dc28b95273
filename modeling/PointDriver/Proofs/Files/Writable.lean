import PointDriver.Proofs.Files.Routes

/-!
# When a file can be written, and what that changes

A path either leads to a place for a file, or there is a first reason why not:
the path itself, something in its way, or what stands at its end. A file that is
written changes what stands at its place and nothing else: every path leads where
it led before, and every other file and directory is there as before.
-/

namespace PointDriver.FileTree

/-- Why a file cannot be written at a path. -/
inductive Unwritable (t : FileTree) (p : Path) : FileFault → Prop
  /-- The path is empty, holds a zero byte or is too long. -/
  | refused {fault} (why : refusal? p = some fault) : Unwritable t p fault
  /-- A directory on the way is missing, a file is on the way, or a name is too long. -/
  | way {fault} (accepted : refusal? p = none) (stop : t.Obstructed [] p.pieces fault) :
      Unwritable t p fault
  /-- The path leads to a directory. -/
  | directory (accepted : refusal? p = none) (opens : t.Opens [] p.pieces)
      (there : t.holdsDirectory (destination [] p.pieces)) : Unwritable t p .isDirectory
  /-- The path can only mean a directory, whatever is there. -/
  | slashed (accepted : refusal? p = none) (opens : t.Opens [] p.pieces)
      (slash : endsWithSlash p = true) : Unwritable t p .isDirectory

section Writing
variable {t : FileTree} {p : Path} {content : Bytes} {fault : FileFault}

/-- A way that is open to its end has nothing that stops it. -/
theorem not_obstructed_of_opens (h : t.Opens [] p.pieces) : ¬ t.Obstructed [] p.pieces fault := by
  intro hstop
  have herror := locateFrom_eq_error_iff.mpr hstop
  rw [locateFrom_eq_ok_iff.mpr ⟨h, rfl⟩] at herror
  cases herror

/-- At the end of the way it counts what stands there. -/
theorem write_eq_error_iff_of_opens (hp : refusal? p = none) (h : t.Opens [] p.pieces) :
    t.write p content = .error fault ↔ t.Unwritable p fault := by
  have hlocate : t.locate p = .ok (destination [] p.pieces) := by
    rw [locate_of_accepted hp, locateFrom_eq_ok_iff.mpr ⟨h, rfl⟩]
  simp only [write, hlocate]
  constructor
  · intro hwrite
    by_cases hslash : endsWithSlash p = true
    · have hfault : fault = .isDirectory := by
        cases hget : t.get? (destination [] p.pieces) with
        | none => simpa [hget, hslash, eq_comm] using hwrite
        | some found => cases found <;> simpa [hget, hslash, eq_comm] using hwrite
      exact hfault ▸ .slashed hp h hslash
    · cases hget : t.get? (destination [] p.pieces) with
      | none => simp [hget, hslash] at hwrite
      | some found =>
          rw [hget] at hwrite
          cases found with
          | directory entries => exact Except.error.inj hwrite ▸ .directory hp h ⟨entries, hget⟩
          | file old => simp [hslash] at hwrite
  · rintro (hrefusal | ⟨-, hstop⟩ | ⟨-, -, entries, hget⟩ | ⟨-, -, hslash⟩)
    · cases hp.symm.trans hrefusal
    · exact absurd hstop (not_obstructed_of_opens h)
    · rw [hget]
    · cases hget : t.get? (destination [] p.pieces) with
      | none => simp [hslash]
      | some found => cases found <;> simp [hslash]

/-- A file cannot be written for the first reason that is met, and for no other. -/
theorem write_eq_error_iff : t.write p content = .error fault ↔ t.Unwritable p fault := by
  cases hrefusal : refusal? p with
  | some refused =>
      rw [write_of_refused hrefusal, Except.error.injEq]
      constructor
      · rintro rfl
        exact .refused hrefusal
      · rintro (hwhy | ⟨haccepted, -⟩ | ⟨haccepted, -⟩ | ⟨haccepted, -⟩)
        · exact Option.some.inj (hrefusal.symm.trans hwhy)
        all_goals cases hrefusal.symm.trans haccepted
  | none =>
      cases hlocate : t.locateFrom [] p.pieces with
      | ok location =>
          exact write_eq_error_iff_of_opens hrefusal (locateFrom_eq_ok_iff.mp hlocate).1
      | error stop =>
          have hclosed : ¬ t.Opens [] p.pieces :=
            fun h => not_obstructed_of_opens h (locateFrom_eq_error_iff.mp hlocate)
          rw [write, locate_of_accepted hrefusal, hlocate, Except.error.injEq]
          constructor
          · rintro rfl
            exact .way hrefusal (locateFrom_eq_error_iff.mp hlocate)
          · rintro (hwhy | ⟨-, hstop⟩ | ⟨-, hall, -⟩ | ⟨-, hall, -⟩)
            · cases hrefusal.symm.trans hwhy
            · exact Except.error.inj (hlocate.symm.trans (locateFrom_eq_error_iff.mpr hstop))
            all_goals exact absurd hall hclosed

end Writing

/-- What stands at a location: nothing, a directory, or a file with its content. What a directory
holds stands at other locations. -/
def standing? (t : FileTree) (location : Location) : Option (Option Bytes) :=
  (t.get? location).map fun
    | file content => some content
    | directory _ => none

theorem standing?_eq_some_none_iff {t : FileTree} {location : Location} :
    t.standing? location = some none ↔ t.holdsDirectory location := by
  unfold standing? holdsDirectory
  rcases t.get? location with - | (content | entries) <;> simp

/-- What a tree is like after a file has been written at a path. -/
structure Written (before : FileTree) (p : Path) (content : Bytes) (after : FileTree) : Prop where
  read : after.read p = .ok content
  /-- Every path leads where it led before. -/
  ways : ∀ q location, after.locate q = .ok location ↔ before.locate q = .ok location
  others : ∀ location, before.locate p ≠ .ok location →
    after.standing? location = before.standing? location

/-- A file put where no directory stands changes what stands there and nothing else. -/
theorem standing?_put {t : FileTree} {location other : Location} {content : Bytes}
    (hplace : location = [] ∨ ∃ parent name, location = parent ++ [name] ∧ t.holdsDirectory parent)
    (hfree : ¬ t.holdsDirectory location) (hother : other ≠ location) :
    (t.put location (file content)).standing? other = t.standing? other := by
  rcases hplace with rfl | ⟨parent, name, rfl, hparent⟩
  · obtain ⟨first, rest, rfl⟩ := List.exists_cons_of_ne_nil hother
    cases t with
    | file old => rfl
    | directory entries => exact absurd ⟨entries, rfl⟩ hfree
  · by_cases habove : other <+: parent
    · have hdir := holdsDirectory_of_isPrefix habove hparent
      rw [standing?_eq_some_none_iff.mpr hdir,
        standing?_eq_some_none_iff.mpr (holdsDirectory_put hdir hfree _)]
    · by_cases hbelow : parent ++ [name] <+: other
      · -- Nothing is below a file, and nothing was.
        obtain ⟨below, rfl⟩ := hbelow
        have hne : below ≠ [] := fun he => hother (by rw [he, List.append_nil])
        have hnone : t.get? (parent ++ [name] ++ below) = none :=
          Option.eq_none_iff_forall_not_mem.mpr fun found hfound =>
            hfree (holdsDirectory_of_get? hfound hne)
        obtain ⟨next, more, rfl⟩ := List.exists_cons_of_ne_nil hne
        rw [standing?, standing?, hnone, get?_append _ (parent ++ [name]), get?_put_self hparent]
        rfl
      · rw [standing?, standing?, get?_put_of_ne
          (fun h => (List.prefix_concat_iff.mp h).elim hother habove) hbelow]

/-- What has been written can be read, and all the rest is as before. -/
theorem written_of_write {t after : FileTree} {p : Path} {content : Bytes}
    (h : t.write p content = .ok after) : t.Written p content after := by
  obtain ⟨-, place, hplace, hfree, rfl⟩ := write_eq_ok h
  have hlocated : place = [] ∨ ∃ parent name, place = parent ++ [name] ∧
      t.holdsDirectory parent := by
    rcases locateFrom_cases (locate_eq_ok.mp hplace).2 with hnil | hdir | hparent
    · exact Or.inl hnil
    · exact absurd hdir hfree
    · exact Or.inr hparent
  have hself : (t.put place (file content)).get? place = some (file content) := by
    rcases hlocated with rfl | ⟨parent, name, rfl, hparent⟩
    · cases t <;> rfl
    · exact get?_put_self hparent name _
  have hothers : ∀ location, location ≠ place →
      (t.put place (file content)).standing? location = t.standing? location :=
    fun location => standing?_put hlocated hfree
  have hdirectories : ∀ location, (t.put place (file content)).holdsDirectory location ↔
      t.holdsDirectory location := by
    intro location
    by_cases hl : location = place
    · subst hl
      exact iff_of_false (fun hd => not_holdsFile_of_holdsDirectory hd ⟨content, hself⟩) hfree
    · rw [← standing?_eq_some_none_iff, hothers location hl, standing?_eq_some_none_iff]
  refine ⟨read_of_write h, fun q location => ?_, fun location hl => ?_⟩
  · have hopens : ∀ way, (t.put place (file content)).Opens [] way ↔ t.Opens [] way := fun way =>
      ⟨fun h => ⟨fun passed hp => (hdirectories passed).mp (h.directories passed hp), h.short⟩,
        fun h => ⟨fun passed hp => (hdirectories passed).mpr (h.directories passed hp), h.short⟩⟩
    rw [locate_eq_ok, locate_eq_ok, locateFrom_eq_ok_iff, locateFrom_eq_ok_iff, hopens]
  · exact hothers location fun he => hl (he ▸ hplace)

end PointDriver.FileTree

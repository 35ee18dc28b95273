import PointDriver.Files.Access

/-!
# Reading what was written

A file that has been written holds what was written, whatever path it was
written by: nothing that the path leads through is touched. Only a directory is
led through, and only something else is written over.
-/

namespace PointDriver.FileTree

section Entries
variable {name : Bytes} {new : FileTree}

theorem lookup_replaceEntry_self (entries : List (Bytes × FileTree)) :
    (replaceEntry name new entries).lookup name = some new := by
  induction entries with
  | nil => simp [replaceEntry]
  | cons entry entries ih =>
      obtain ⟨n, t⟩ := entry
      rw [replaceEntry]
      by_cases hn : n = name
      · simp [hn]
      · have hne : (name == n) = false := by simpa using fun h => hn h.symm
        simp [hn, List.lookup_cons, hne, ih]

theorem lookup_replaceEntry_of_ne {other : Bytes} (h : other ≠ name)
    (entries : List (Bytes × FileTree)) :
    (replaceEntry name new entries).lookup other = entries.lookup other := by
  have hname : (other == name) = false := by simpa using h
  induction entries with
  | nil => simp [replaceEntry, List.lookup_cons, hname]
  | cons entry entries ih =>
      obtain ⟨n, t⟩ := entry
      rw [replaceEntry]
      by_cases hn : n = name
      · subst hn
        simp [List.lookup_cons, hname]
      · simp [hn, List.lookup_cons, ih]

end Entries

/-- Whether a directory is at a location. -/
def holdsDirectory (t : FileTree) (location : Location) : Prop :=
  ∃ entries, t.get? location = some (directory entries)

theorem get?_cons (entries : List (Bytes × FileTree)) (name : Bytes) (rest : Location) :
    (directory entries).get? (name :: rest) = (entries.lookup name).bind fun t => t.get? rest := by
  rw [get?]
  cases entries.lookup name <;> rfl

/-- Only a directory holds anything. -/
theorem exists_entry_of_get? {t found : FileTree} {name : Bytes} {rest : Location}
    (h : t.get? (name :: rest) = some found) :
    ∃ entries child, t = directory entries ∧ entries.lookup name = some child ∧
      child.get? rest = some found := by
  cases t with
  | file content => cases h
  | directory entries =>
      rw [get?_cons] at h
      obtain ⟨child, hl, hc⟩ := Option.bind_eq_some_iff.mp h
      exact ⟨entries, child, rfl, hl, hc⟩

theorem put_cons {entries : List (Bytes × FileTree)} {name : Bytes} {child : FileTree}
    (h : entries.lookup name = some child) {rest : Location} (hr : rest ≠ []) (new : FileTree) :
    (directory entries).put (name :: rest) new =
      directory (replaceEntry name (child.put rest new) entries) := by
  obtain ⟨next, more, rfl⟩ := List.exists_cons_of_ne_nil hr
  simp [put, h]

/-- What is put into a directory is there afterwards. -/
theorem get?_put_self {t : FileTree} {parent : Location} (h : t.holdsDirectory parent)
    (name : Bytes) (new : FileTree) :
    (t.put (parent ++ [name]) new).get? (parent ++ [name]) = some new := by
  obtain ⟨entries, h⟩ := h
  induction parent generalizing t with
  | nil =>
      obtain rfl := Option.some.inj h
      simp [put, get?_cons, lookup_replaceEntry_self, get?]
  | cons first parent ih =>
      obtain ⟨siblings, child, rfl, hlookup, hchild⟩ := exists_entry_of_get? h
      rw [List.cons_append, put_cons hlookup (by simp), get?_cons, lookup_replaceEntry_self]
      exact ih hchild

/-- What leads to a directory are directories. -/
theorem holdsDirectory_of_append {t : FileTree} (above below : Location)
    (h : t.holdsDirectory (above ++ below)) : t.holdsDirectory above := by
  obtain ⟨entries, h⟩ := h
  induction above generalizing t with
  | nil =>
      cases below with
      | nil => exact ⟨entries, h⟩
      | cons name below =>
          obtain ⟨siblings, child, rfl, -, -⟩ := exists_entry_of_get? h
          exact ⟨siblings, rfl⟩
  | cons first above ih =>
      obtain ⟨siblings, child, rfl, hlookup, hchild⟩ := exists_entry_of_get? h
      obtain ⟨inner, hinner⟩ := ih hchild
      refine ⟨inner, ?_⟩
      rw [get?_cons, hlookup]
      exact hinner

/-- Directories stay directories when something else is written over. -/
theorem holdsDirectory_put {t : FileTree} {at_ location : Location} (h : t.holdsDirectory at_)
    (hl : ¬ t.holdsDirectory location) (new : FileTree) :
    (t.put location new).holdsDirectory at_ := by
  induction location generalizing t at_ with
  | nil => exact absurd (holdsDirectory_of_append [] at_ h) hl
  | cons name rest ih =>
      cases at_ with
      | nil =>
          obtain ⟨entries, h⟩ := h
          obtain rfl := Option.some.inj h
          cases rest with
          | nil => exact ⟨_, rfl⟩
          | cons next rest =>
              rw [put]
              cases entries.lookup name <;> exact ⟨_, rfl⟩
      | cons first at_ =>
          obtain ⟨found, h⟩ := h
          obtain ⟨entries, child, rfl, hlookup, hchild⟩ := exists_entry_of_get? h
          by_cases hname : first = name
          · subst hname
            have hbelow : ∀ {location : Location}, child.holdsDirectory location →
                (directory entries).holdsDirectory (first :: location) := by
              rintro location ⟨inner, hinner⟩
              exact ⟨inner, by rw [get?_cons, hlookup]; exact hinner⟩
            have hrest : rest ≠ [] := by
              rintro rfl
              exact hl (hbelow (holdsDirectory_of_append [] at_ ⟨found, hchild⟩))
            obtain ⟨inner, hinner⟩ := ih ⟨found, hchild⟩ fun hr => hl (hbelow hr)
            refine ⟨inner, ?_⟩
            rw [put_cons hlookup hrest, get?_cons, lookup_replaceEntry_self]
            exact hinner
          · refine ⟨found, ?_⟩
            have hother : ∀ changed : FileTree, (directory (replaceEntry name changed entries)).get?
                (first :: at_) = some (directory found) := by
              intro changed
              rw [get?_cons, lookup_replaceEntry_of_ne hname, hlookup]
              exact hchild
            cases rest with
            | nil => exact hother new
            | cons next rest =>
                rw [put]
                cases entries.lookup name with
                | some changed => exact hother _
                | none => exact h

theorem get?_append (t : FileTree) (above below : Location) :
    t.get? (above ++ below) = (t.get? above).bind fun found => found.get? below := by
  induction above generalizing t with
  | nil => cases below <;> simp [get?]
  | cons name above ih =>
      cases t with
      | file content => rfl
      | directory entries =>
          rw [List.cons_append, get?_cons, get?_cons]
          cases entries.lookup name with
          | none => rfl
          | some child => exact ih child

/-- Nothing changes beside the location where something is put. -/
theorem get?_put_of_ne {location other : Location} (habove : ¬ other <+: location)
    (hbelow : ¬ location <+: other) (t new : FileTree) :
    (t.put location new).get? other = t.get? other := by
  induction location generalizing t other with
  | nil => exact absurd List.nil_prefix hbelow
  | cons name rest ih =>
      cases t with
      | file content => cases rest <;> rfl
      | directory entries =>
          obtain ⟨first, other, rfl⟩ : ∃ first more, other = first :: more :=
            List.exists_cons_of_ne_nil fun he => habove (he ▸ List.nil_prefix)
          -- Either another entry is looked up, or the same one with something put into it.
          by_cases hname : first = name
          · subst hname
            rw [List.cons_prefix_cons, not_and] at habove hbelow
            obtain ⟨next, more, rfl⟩ : ∃ next more, rest = next :: more :=
              List.exists_cons_of_ne_nil fun he => hbelow rfl (he ▸ List.nil_prefix)
            cases hlookup : entries.lookup first with
            | none => simp [put, hlookup]
            | some child =>
                rw [put_cons hlookup (by simp), get?_cons, get?_cons, lookup_replaceEntry_self,
                  hlookup]
                exact ih (habove rfl) (hbelow rfl) child
          · have hother : ∀ changed, (directory (replaceEntry name changed entries)).get?
                (first :: other) = (directory entries).get? (first :: other) := by
              intro changed
              rw [get?_cons, get?_cons, lookup_replaceEntry_of_ne hname]
            cases rest with
            | nil => exact hother new
            | cons next more =>
                rw [put]
                cases entries.lookup name with
                | none => rfl
                | some child => exact hother _

/-- What leads to something are directories. -/
theorem holdsDirectory_of_get? {t found : FileTree} {above below : Location}
    (h : t.get? (above ++ below) = some found) (hb : below ≠ []) : t.holdsDirectory above := by
  rw [get?_append] at h
  obtain ⟨between, habove, hbelow⟩ := Option.bind_eq_some_iff.mp h
  obtain ⟨name, rest, rfl⟩ := List.exists_cons_of_ne_nil hb
  obtain ⟨entries, -, rfl, -, -⟩ := exists_entry_of_get? hbelow
  exact ⟨entries, habove⟩

/-- Whether a file is at a location. -/
def holdsFile (t : FileTree) (location : Location) : Prop :=
  ∃ content, t.get? location = some (file content)

theorem not_holdsFile_of_holdsDirectory {t : FileTree} {location : Location}
    (h : t.holdsDirectory location) : ¬ t.holdsFile location := by
  obtain ⟨entries, h⟩ := h
  rintro ⟨content, hc⟩
  rw [h] at hc
  cases hc

theorem not_holdsDirectory_of_get? {t : FileTree} {location : Location}
    (h : t.get? location = none) : ¬ t.holdsDirectory location := by
  rintro ⟨entries, he⟩
  rw [h] at he
  cases he

theorem get?_of_isPrefix {t : FileTree} {above below : Location} (h : above <+: below)
    (hnone : t.get? above = none) : t.get? below = none := by
  obtain ⟨rest, rfl⟩ := h
  rw [get?_append, hnone]
  rfl

theorem holdsDirectory_of_isPrefix {t : FileTree} {above location : Location}
    (h : above <+: location) (hl : t.holdsDirectory location) : t.holdsDirectory above := by
  obtain ⟨below, rfl⟩ := h
  exact holdsDirectory_of_append above below hl

/-- A new file changes nothing but the directories on its way. -/
theorem get?_put_of_free {t : FileTree} {parent location : Location} {name : Bytes}
    (hp : t.holdsDirectory parent) (hfree : t.get? (parent ++ [name]) = none)
    (hne : location ≠ parent ++ [name]) (habove : ¬ location <+: parent) (content : Bytes) :
    (t.put (parent ++ [name]) (file content)).get? location = t.get? location := by
  by_cases hbelow : parent ++ [name] <+: location
  · obtain ⟨below, rfl⟩ := hbelow
    have hne : below ≠ [] := by
      rintro rfl
      exact hne (List.append_nil _)
    obtain ⟨next, more, rfl⟩ := List.exists_cons_of_ne_nil hne
    rw [get?_append _ (parent ++ [name]), get?_append _ (parent ++ [name]),
      get?_put_self hp, hfree]
    rfl
  · exact get?_put_of_ne (fun h => (List.prefix_concat_iff.mp h).elim hne habove) hbelow t _

/-- A file put where no directory stands replaces no other. -/
theorem get?_put_of_file {t new : FileTree} {parent location : Location} {name : Bytes}
    {content : Bytes} (hp : t.holdsDirectory parent)
    (hd : ¬ t.holdsDirectory (parent ++ [name])) (hne : location ≠ parent ++ [name])
    (h : t.get? location = some (file content)) :
    (t.put (parent ++ [name]) new).get? location = some (file content) := by
  rw [get?_put_of_ne ?_ ?_, h]
  · intro habove
    rcases List.prefix_concat_iff.mp habove with he | habove
    · exact hne he
    · exact not_holdsFile_of_holdsDirectory (holdsDirectory_of_isPrefix habove hp) ⟨content, h⟩
  · rintro ⟨below, rfl⟩
    refine hd (holdsDirectory_of_get? h ?_)
    rintro rfl
    exact hne (List.append_nil _)

/-- Going on from a location, as the components say. -/
theorem locateFrom_cons {t : FileTree} {at_ location : Location} {component : Bytes}
    {rest : List Bytes} :
    t.locateFrom at_ (component :: rest) = .ok location ↔
      t.holdsDirectory at_ ∧ component.length ≤ Path.nameLimit ∧
        t.locateFrom (step at_ component) rest = .ok location := by
  rw [locateFrom]
  cases hg : t.get? at_ with
  | none => simp [holdsDirectory, hg]
  | some found =>
      cases found with
      | file content => simp [holdsDirectory, hg]
      | directory entries =>
          by_cases hlong : Path.nameLimit < component.length
          · simp [holdsDirectory, hg, hlong, Nat.not_le.mpr hlong]
          · simp [holdsDirectory, hg, hlong, Nat.not_lt.mp hlong]

/-- The way to a location is not touched by what is put there. -/
theorem locateFrom_put {t : FileTree} {at_ location other : Location} {components : List Bytes}
    (hl : ¬ t.holdsDirectory location) (new : FileTree)
    (h : t.locateFrom at_ components = .ok other) :
    (t.put location new).locateFrom at_ components = .ok other := by
  induction components generalizing at_ with
  | nil => exact h
  | cons component components ih =>
      obtain ⟨hdir, hshort, hrest⟩ := locateFrom_cons.mp h
      exact locateFrom_cons.mpr ⟨holdsDirectory_put hdir hl new, hshort, ih hrest⟩

/-- A path leads to where it started, to a directory, or to a name in a directory. -/
theorem locateFrom_cases {t : FileTree} {at_ location : Location} {components : List Bytes}
    (h : t.locateFrom at_ components = .ok location) :
    location = at_ ∨ t.holdsDirectory location ∨
      ∃ parent name, location = parent ++ [name] ∧ t.holdsDirectory parent := by
  induction components generalizing at_ with
  | nil => exact Or.inl (Except.ok.inj h).symm
  | cons component components ih =>
      obtain ⟨hdir, -, hrest⟩ := locateFrom_cons.mp h
      rcases ih hrest with rfl | hcases
      · right
        unfold step
        split
        · exact Or.inl hdir
        · split
          · rcases List.eq_nil_or_concat at_ with rfl | ⟨above, last, rfl⟩
            · exact Or.inl hdir
            · rw [List.concat_eq_append] at hdir ⊢
              rw [List.dropLast_concat]
              exact Or.inl (holdsDirectory_of_append above [last] hdir)
          · exact Or.inr ⟨at_, component, rfl, hdir⟩
      · exact Or.inr hcases

/-- A path that is not refused leads where its pieces lead. -/
theorem locate_eq_ok {t : FileTree} {p : Path} {location : Location} :
    t.locate p = .ok location ↔
      refusal? p = none ∧ t.locateFrom [] p.pieces = .ok location := by
  unfold locate
  cases refusal? p <;> simp

/-- What is written stands at the location of the path, which was no directory. -/
theorem write_eq_ok {t t' : FileTree} {p : Path} {content : Bytes}
    (h : t.write p content = .ok t') :
    endsWithSlash p = false ∧ ∃ location, t.locate p = .ok location ∧
      ¬ t.holdsDirectory location ∧ t' = t.put location (file content) := by
  unfold write at h
  cases hloc : t.locate p with
  | error fault =>
      rw [hloc] at h
      cases h
  | ok location =>
      rw [hloc] at h
      simp only [holdsDirectory] at h ⊢
      have hplaced : ∀ {result : FileTree},
          (if endsWithSlash p then .error .isDirectory
            else .ok (t.put location (file content)) : Except FileFault FileTree) = .ok result →
          endsWithSlash p = false ∧ result = t.put location (file content) := by
        intro result hresult
        split at hresult
        · cases hresult
        · next hslash => exact ⟨by simpa using hslash, (Except.ok.inj hresult).symm⟩
      cases hfound : t.get? location with
      | none =>
          simp only [hfound] at h
          obtain ⟨hslash, rfl⟩ := hplaced h
          exact ⟨hslash, location, rfl, by simp [hfound], rfl⟩
      | some found =>
          simp only [hfound] at h
          cases found with
          | directory entries => cases h
          | file old =>
              obtain ⟨hslash, rfl⟩ := hplaced h
              exact ⟨hslash, location, rfl, by simp [hfound], rfl⟩

/-- A file that was written is read back by the same path. -/
theorem read_of_write {t t' : FileTree} {p : Path} {content : Bytes}
    (h : t.write p content = .ok t') : t'.read p = .ok content := by
  obtain ⟨hslash, location, hloc, hdir, rfl⟩ := write_eq_ok h
  obtain ⟨haccepted, hfrom⟩ := locate_eq_ok.mp hloc
  have hagain : (t.put location (file content)).locate p = .ok location :=
    locate_eq_ok.mpr ⟨haccepted, locateFrom_put hdir _ hfrom⟩
  have hself : (t.put location (file content)).get? location = some (file content) := by
    rcases locateFrom_cases hfrom with rfl | hcases | ⟨parent, name, rfl, hparent⟩
    · cases t <;> rfl
    · exact absurd hcases hdir
    · exact get?_put_self hparent name _
  simp [read, find, hagain, hself, hslash]

end PointDriver.FileTree

import Mathlib.Data.List.Induction
import PointDriver.Proofs.Files.Limits

/-!
# Making directories

Making a directory makes those above it that are missing. Files stay as they
are, and directories come to be on the route only. All goes well when the path
keeps to the limits and no file is on the route. A file on a route that never
goes up is found before anything is made. A name that is too long is not: the
directories before it are made first.
-/

namespace PointDriver

namespace FileTree
variable {t t' t'' : FileTree} {location : Location} {q : Path} {front : List Bytes}
  {name c : Bytes}

/-- A tree with more directories: the files are the same, and every new directory leads to one of
the places. -/
structure Grown (t t' : FileTree) (places : List Location) : Prop where
  files : ∀ location content,
    t'.get? location = some (file content) ↔ t.get? location = some (file content)
  directories : ∀ location, t.holdsDirectory location → t'.holdsDirectory location
  elsewhere : ∀ location, (∀ place ∈ places, ¬ location <+: place) →
    t'.get? location = t.get? location

namespace Grown
variable {places more : List Location}

theorem refl (t : FileTree) (places : List Location) : Grown t t places :=
  ⟨fun _ _ => Iff.rfl, fun _ h => h, fun _ _ => rfl⟩

theorem trans (h : Grown t t' places) (h' : Grown t' t'' places) : Grown t t'' places where
  files location content := (h'.files location content).trans (h.files location content)
  directories location hl := h'.directories location (h.directories location hl)
  elsewhere location hl := (h'.elsewhere location hl).trans (h.elsewhere location hl)

theorem mono (h : Grown t t' places) (hsub : ∀ p ∈ places, p ∈ more) : Grown t t' more where
  files := h.files
  directories := h.directories
  elsewhere location hl := h.elsewhere location fun p hp => hl p (hsub p hp)

theorem holdsFile_iff (h : Grown t t' places) : t'.holdsFile location ↔ t.holdsFile location :=
  exists_congr fun content => h.files location content

end Grown

/-- Putting a directory where nothing is. -/
theorem grown_put {parent : Location} (hp : t.holdsDirectory parent)
    (hfree : t.get? (parent ++ [name]) = none) :
    Grown t (t.put (parent ++ [name]) empty) [parent ++ [name]] ∧
      (t.put (parent ++ [name]) empty).holdsDirectory (parent ++ [name]) := by
  have hself := get?_put_self hp name empty
  have hkept : ∀ location, t.holdsDirectory location →
      (t.put (parent ++ [name]) empty).holdsDirectory location := fun _ hl =>
    holdsDirectory_put hl (not_holdsDirectory_of_get? hfree) empty
  refine ⟨⟨?_, hkept, ?_⟩, _, hself⟩
  · intro location content
    by_cases hbelow : parent ++ [name] <+: location
    · -- Nothing was there, and below an empty directory there is nothing.
      obtain ⟨below, rfl⟩ := hbelow
      rw [get?_append _ (parent ++ [name]), get?_append _ (parent ++ [name]), hself, hfree]
      cases below <;> simp [get?, empty]
    · by_cases habove : location <+: parent ++ [name]
      · have hparent : location <+: parent := by
          rcases List.prefix_concat_iff.mp habove with rfl | h
          · exact absurd (List.prefix_refl _) hbelow
          · exact h
        have hold := holdsDirectory_of_isPrefix hparent hp
        exact iff_of_false (fun h => not_holdsFile_of_holdsDirectory (hkept location hold) ⟨_, h⟩)
          fun h => not_holdsFile_of_holdsDirectory hold ⟨_, h⟩
      · rw [get?_put_of_ne habove hbelow]
  · intro location hl
    have habove := hl _ List.mem_cons_self
    by_cases hbelow : parent ++ [name] <+: location
    · obtain ⟨below, rfl⟩ := hbelow
      have hne : below ≠ [] := by
        rintro rfl
        exact habove (by simp)
      obtain ⟨next, more, rfl⟩ := List.exists_cons_of_ne_nil hne
      rw [get?_append _ (parent ++ [name]), get?_append _ (parent ++ [name]), hself, hfree]
      rfl
    · exact get?_put_of_ne habove hbelow t empty

/-- What is made behind directories. -/
theorem grown_of_made {front : List Bytes} {c : Bytes}
    (hopen : ∀ p ∈ route [] front, t.holdsDirectory p)
    (hfree : t.get? (step (destination [] front) c) = none) :
    Grown t (t.put (step (destination [] front) c) empty) (route [] (front ++ [c])) ∧
      ∀ p ∈ route [] (front ++ [c]),
        (t.put (step (destination [] front) c) empty).holdsDirectory p := by
  have hlast := hopen _ (destination_mem_route [] front)
  rcases step_cases (destination [] front) c with habove | hstep
  · obtain ⟨entries, he⟩ := holdsDirectory_of_isPrefix habove hlast
    rw [hfree] at he
    cases he
  · rw [route_concat]
    rw [hstep] at hfree ⊢
    obtain ⟨hgrown, hnew⟩ := grown_put hlast hfree
    refine ⟨hgrown.mono (fun p hp => List.mem_append_right _ hp), ?_⟩
    intro p hp
    rcases List.mem_append.mp hp with hp | hp
    · exact hgrown.directories p (hopen p hp)
    · obtain rfl := List.mem_singleton.mp hp
      exact hnew

/-- Whether a path leads to a directory. -/
def leadsToDirectory (t : FileTree) (p : Path) : Bool :=
  match t.find p with
  | .ok found => found.isDirectory
  | .error _ => false

/-- What comes of making a directory at a location behind others. -/
inductive Making (t : FileTree) (q : Path) (passed : List Location) (location : Location) : Prop
  | made (fits : q.Fits) (open_ : ∀ p ∈ passed, t.holdsDirectory p)
      (free : t.get? location = none) (run : t.makeDirectory q = .ok (t.put location empty))
  | there (fits : q.Fits) (open_ : ∀ p ∈ passed, t.holdsDirectory p)
      (directory : t.holdsDirectory location) (run : t.makeDirectory q = .error .alreadyThere)
      (found : t.leadsToDirectory q = true)
  | taken (file : t.holdsFile location) (run : t.makeDirectory q = .error .alreadyThere)
      (found : t.leadsToDirectory q = false)
  | missing (gap : ∃ p ∈ passed, t.get? p = none) (run : t.makeDirectory q = .error .notFound)
  | blocked (file : ∃ p ∈ passed, t.holdsFile p) (run : t.makeDirectory q = .error .notDirectory)
  | refused {fault} (beyond : ¬ q.Fits) (why : fault = .zeroByte ∨ fault = .nameTooLong)
      (run : t.makeDirectory q = .error fault)

theorem makeDirectory_of_error {fault : FileFault} (h : t.locate q = .error fault) :
    t.makeDirectory q = .error fault := by
  rw [makeDirectory, h]

theorem making (hq : q.pieces = front ++ [c]) :
    Making t q (route [] front) (step (destination [] front) c) := by
  cases hlocate : t.locate q with
  | error fault =>
      have hrun := makeDirectory_of_error hlocate
      rcases locate_concat_eq_error hq hlocate with ⟨rfl, hgap⟩ | ⟨rfl, hfile⟩ | ⟨hwhy, hover⟩
      · exact .missing hgap hrun
      · exact .blocked hfile hrun
      · exact .refused hover hwhy hrun
  | ok location =>
      obtain ⟨hfits, hopen, rfl⟩ := (locate_concat_eq_ok hq).mp hlocate
      cases hget : t.get? (step (destination [] front) c) with
      | none =>
          refine .made hfits hopen hget ?_
          simp only [makeDirectory, hlocate, hget]
      | some found =>
          have hrun : t.makeDirectory q = .error .alreadyThere := by
            simp only [makeDirectory, hlocate, hget]
          cases found with
          | directory entries =>
              refine .there hfits hopen ⟨entries, hget⟩ hrun ?_
              simp only [leadsToDirectory, find, hlocate, hget]
              rfl
          | file content =>
              refine .taken ⟨content, hget⟩ hrun ?_
              simp only [leadsToDirectory, find, hlocate, hget]
              cases endsWithSlash q <;> rfl

end FileTree

namespace Files
open FileTree

variable {t : FileTree}

/-- A change of a tree that may fail. -/
abbrev Change := StateM FileTree (Except FileFault Unit)

theorem makeDirectory_run (q : Path) :
    (Files.makeDirectory q : Change) t = match t.makeDirectory q with
      | .ok t' => (.ok (), t')
      | .error fault => (.error fault, t) := rfl

theorem isDirectory_run (q : Path) :
    (Files.isDirectory q : StateM FileTree Bool) t = (t.leadsToDirectory q, t) := rfl

/-- Makes a directory, after those of the given ones above it that are missing. -/
def makeMissing (paths : List Path) : Change := do
  match ← missingDirectories paths with
  | .ok missing => makeAll missing.reverse
  | .error fault => pure (.error fault)

theorem makeDirectories_eq_makeMissing (p : Path) :
    (makeDirectories p : Change) = makeMissing p.ancestors := rfl

theorem makeAll_cons (q : Path) (rest : List Path) :
    (makeAll (q :: rest) : Change) t =
      match t.makeDirectory q with
      | .ok t' => (makeAll rest : Change) t'
      | .error fault =>
          if fault == .alreadyThere then
            if t.leadsToDirectory q then (makeAll rest : Change) t else (.error fault, t)
          else (.error fault, t) := by
  simp only [makeAll, bind, StateT.bind, makeDirectory_run]
  cases t.makeDirectory q with
  | ok t' => rfl
  | error fault =>
      dsimp only
      split
      · simp only [StateT.bind, isDirectory_run]
        cases t.leadsToDirectory q <;> rfl
      · rfl

theorem makeAll_append (a b : List Path) :
    (makeAll (a ++ b) : Change) t =
      match (makeAll a : Change) t with
      | (.ok (), t') => (makeAll b : Change) t'
      | (.error fault, t') => (.error fault, t') := by
  induction a generalizing t with
  | nil => rfl
  | cons q rest ih =>
      rw [List.cons_append, makeAll_cons, makeAll_cons]
      cases t.makeDirectory q with
      | ok t' => exact ih
      | error fault =>
          dsimp only
          split
          · split
            · exact ih
            · rfl
          · rfl

/-- A directory is made at once, or after those above it. -/
theorem makeMissing_cons (q : Path) (above : List Path) :
    makeMissing (q :: above) t =
      match t.makeDirectory q with
      | .ok t' => (.ok (), t')
      | .error .notFound =>
          match makeMissing above t with
          | (.ok (), t') => (makeAll [q] : Change) t'
          | (.error fault, t') => (.error fault, t')
      | .error .alreadyThere =>
          if t.leadsToDirectory q then (.ok (), t) else (.error .alreadyThere, t)
      | .error fault => (.error fault, t) := by
  simp only [makeMissing, missingDirectories, bind, StateT.bind, makeDirectory_run]
  cases t.makeDirectory q with
  | ok t' => rfl
  | error fault =>
      cases fault with
      | notFound =>
          dsimp only
          cases hmissing : (missingDirectories above :
            StateM FileTree (Except FileFault (List Path))) t with
          | mk result t' =>
              simp only [StateT.bind, hmissing]
              cases result with
              | error fault => rfl
              | ok missing =>
                  have happend := makeAll_append (t := t') missing.reverse [q]
                  rw [← List.reverse_cons] at happend
                  exact happend
      | alreadyThere =>
          simp only [StateT.bind, isDirectory_run]
          cases t.leadsToDirectory q <;> rfl
      | _ => rfl

/-- Only a directory that is missing, or something in its place, is no reason to stop at once. -/
theorem makeMissing_of_error {fault : FileFault} (h : t.makeDirectory q = .error fault)
    (hmissing : fault ≠ .notFound) (hthere : fault ≠ .alreadyThere) (above : List Path) :
    makeMissing (q :: above) t = (.error fault, t) := by
  rw [makeMissing_cons, h]
  cases fault with
  | notFound => exact absurd rfl hmissing
  | alreadyThere => exact absurd rfl hthere
  | _ => rfl

end Files

namespace Path

/-- The beginnings of a list are the list itself and the beginnings of what is before its end. -/
theorem beginnings_concat (front : List Bytes) (c : Bytes) :
    beginnings (front ++ [c]) = (front ++ [c]) :: beginnings front := by
  induction front with
  | nil => rfl
  | cons first rest ih =>
      rw [List.cons_append, beginnings, ih, beginnings]
      rfl

end Path

namespace Files
open FileTree PointDriver.Path

variable {t : FileTree} {q : Path} {names front : List Bytes} {c : Bytes} {absolute : Bool}

/-- The paths to the places on a route, the longest first. -/
def pathsTo (absolute : Bool) (names : List Bytes) : List Path :=
  (beginnings names).map (ofComponents absolute)

theorem pathsTo_concat (absolute : Bool) (front : List Bytes) (c : Bytes) :
    pathsTo absolute (front ++ [c]) =
      ofComponents absolute (front ++ [c]) :: pathsTo absolute front := by
  rw [pathsTo, beginnings_concat]
  rfl

/-- One more directory behind the others. -/
theorem makeAll_singleton (hq : q.pieces = front ++ [c]) :
    Grown t ((makeAll [q] : Change) t).2 (route [] (front ++ [c])) ∧
      (((makeAll [q] : Change) t).1 = .ok () →
        q.Fits ∧ ∀ p ∈ route [] (front ++ [c]), ((makeAll [q] : Change) t).2.holdsDirectory p) := by
  rw [makeAll_cons]
  cases making (t := t) hq with
  | made hfits hopen hfree hrun =>
      rw [hrun]
      obtain ⟨hgrown, hdirs⟩ := grown_of_made hopen hfree
      exact ⟨hgrown, fun _ => ⟨hfits, hdirs⟩⟩
  | there hfits hopen hdir hrun hfound =>
      simp only [hrun, hfound, beq_self_eq_true, if_true]
      refine ⟨.refl t _, fun _ => ⟨hfits, ?_⟩⟩
      rw [route_concat]
      exact List.forall_mem_append.mpr ⟨hopen, List.forall_mem_singleton.mpr hdir⟩
  | taken hfile hrun hfound =>
      simp only [hrun, hfound, beq_self_eq_true, if_true]
      exact ⟨.refl t _, fun h => nomatch h⟩
  | missing hgap hrun =>
      rw [hrun]
      exact ⟨.refl t _, fun h => nomatch h⟩
  | blocked hfile hrun =>
      rw [hrun]
      exact ⟨.refl t _, fun h => nomatch h⟩
  | refused hover hwhy hrun =>
      rcases hwhy with rfl | rfl <;> rw [hrun] <;> exact ⟨.refl t _, fun h => nomatch h⟩

section Step
variable {above : List Path} {made : FileTree}

/-- When those above it are made on the way to it only, so is a directory. -/
theorem grown_makeMissing_cons (hq : q.pieces = front ++ [c])
    (habove : Grown t (makeMissing above t).2 (route [] front)) :
    Grown t (makeMissing (q :: above) t).2 (route [] (front ++ [c])) ∧
      ((makeMissing (q :: above) t).1 = .ok () → q.Fits ∧
        ∀ p ∈ route [] (front ++ [c]), (makeMissing (q :: above) t).2.holdsDirectory p) := by
  rw [makeMissing_cons]
  cases making (t := t) hq with
  | made hfits hopen hfree hrun =>
      rw [hrun]
      obtain ⟨hgrown, hdirs⟩ := grown_of_made hopen hfree
      exact ⟨hgrown, fun _ => ⟨hfits, hdirs⟩⟩
  | there hfits hopen hdir hrun hfound =>
      simp only [hrun, hfound, if_true]
      refine ⟨.refl t _, fun _ => ⟨hfits, ?_⟩⟩
      rw [route_concat]
      exact List.forall_mem_append.mpr ⟨hopen, List.forall_mem_singleton.mpr hdir⟩
  | taken hfile hrun hfound =>
      simp only [hrun, hfound, Bool.false_eq_true, if_false]
      exact ⟨.refl t _, fun h => nomatch h⟩
  | missing hgap hrun =>
      rw [hrun]
      have habove := habove.mono fun p hp => mem_route_append_left hp [c]
      rcases hmade : makeMissing above t with ⟨fault | _, t'⟩
      · rw [hmade] at habove
        exact ⟨habove, fun h => nomatch h⟩
      · rw [hmade] at habove
        obtain ⟨hgrown, hdirs⟩ := makeAll_singleton (t := t') hq
        exact ⟨habove.trans hgrown, hdirs⟩
  | blocked hfile hrun =>
      rw [hrun]
      exact ⟨.refl t _, fun h => nomatch h⟩
  | refused hover hwhy hrun =>
      rcases hwhy with rfl | rfl <;> rw [hrun] <;> exact ⟨.refl t _, fun h => nomatch h⟩

/-- When those above it can be made and no file is in the way, a directory can be made. -/
theorem makeMissing_cons_eq_ok (hq : q.pieces = front ++ [c]) (hfits : q.Fits)
    (hfree : ∀ p ∈ route [] (front ++ [c]), ¬ t.holdsFile p)
    (habove : makeMissing above t = (.ok (), made)) (hgrown : Grown t made (route [] front))
    (hopen : ∀ p ∈ route [] front, made.holdsDirectory p) :
    (makeMissing (q :: above) t).1 = .ok () := by
  rw [route_concat, List.forall_mem_append, List.forall_mem_singleton] at hfree
  rw [makeMissing_cons]
  cases making (t := t) hq with
  | made hfits hopen hfree hrun => rw [hrun]
  | there hfits hopen hdir hrun hfound => simp only [hrun, hfound, if_true]
  | taken hfile hrun hfound => exact absurd hfile hfree.2
  | blocked hfile hrun =>
      obtain ⟨p, hp, hfile⟩ := hfile
      exact absurd hfile (hfree.1 p hp)
  | refused hover hwhy hrun => exact absurd hfits hover
  | missing hgap hrun =>
      simp only [hrun, habove]
      rw [makeAll_cons]
      -- Now that those above it are there, nothing else can be in the way.
      cases making (t := made) hq with
      | made hfits hopen hfree hrun => rw [hrun]; rfl
      | there hfits hopen hdir hrun hfound =>
          simp only [hrun, hfound, beq_self_eq_true, if_true]
          rfl
      | taken hfile hrun hfound => exact absurd (hgrown.holdsFile_iff.mp hfile) hfree.2
      | missing hgap hrun =>
          obtain ⟨p, hp, hnone⟩ := hgap
          exact absurd (hopen p hp) (not_holdsDirectory_of_get? hnone)
      | blocked hfile hrun =>
          obtain ⟨p, hp, hfile⟩ := hfile
          exact absurd (hgrown.holdsFile_iff.mp hfile) (hfree.1 p hp)
      | refused hover hwhy hrun => exact absurd hfits hover

end Step

/-- A tree that keeps its directories. If anything differs in it, there is a directory where
nothing was. -/
structure Widened (t t' : FileTree) : Prop where
  directories : ∀ location, t.holdsDirectory location → t'.holdsDirectory location
  changed : t' = t ∨ ∃ location, t.get? location = none ∧ t'.holdsDirectory location

namespace Widened
variable {t t' t'' : FileTree}

theorem refl (t : FileTree) : Widened t t := ⟨fun _ h => h, Or.inl rfl⟩

theorem trans (h : Widened t t') (h' : Widened t' t'') : Widened t t'' := by
  refine ⟨fun location hl => h'.directories location (h.directories location hl), ?_⟩
  rcases h.changed with rfl | ⟨location, hfree, hdir⟩
  · exact h'.changed
  · exact Or.inr ⟨location, hfree, h'.directories location hdir⟩

/-- One directory is made where nothing was. -/
theorem of_makeDirectory (h : t.makeDirectory q = .ok t') : Widened t t' := by
  unfold FileTree.makeDirectory at h
  cases hlocate : t.locate q with
  | error fault =>
      rw [hlocate] at h
      cases h
  | ok location =>
      simp only [hlocate] at h
      cases hfree : t.get? location with
      | some found =>
          rw [hfree] at h
          cases h
      | none =>
          simp only [hfree] at h
          obtain rfl := Except.ok.inj h
          have hdir : ¬ t.holdsDirectory location := not_holdsDirectory_of_get? hfree
          refine ⟨fun other ho => holdsDirectory_put ho hdir empty, Or.inr ⟨location, hfree, ?_⟩⟩
          unfold locate at hlocate
          split at hlocate
          · cases hlocate
          · rcases locateFrom_cases hlocate with rfl | hcases | ⟨parent, name, rfl, hparent⟩
            · simp [get?] at hfree
            · exact absurd hcases hdir
            · exact ⟨_, get?_put_self hparent name empty⟩

theorem makeAll (paths : List Path) (t : FileTree) :
    Widened t ((Files.makeAll paths : Change) t).2 := by
  induction paths generalizing t with
  | nil => exact refl t
  | cons q rest ih =>
      rw [makeAll_cons]
      cases hmake : t.makeDirectory q with
      | ok t' => exact (of_makeDirectory hmake).trans (ih t')
      | error fault =>
          dsimp only
          split
          · split
            · exact ih t
            · exact refl t
          · exact refl t

theorem makeMissing (paths : List Path) (t : FileTree) :
    Widened t (Files.makeMissing paths t).2 := by
  induction paths generalizing t with
  | nil => exact refl t
  | cons q above ih =>
      rw [makeMissing_cons]
      cases hmake : t.makeDirectory q with
      | ok t' => exact of_makeDirectory hmake
      | error fault =>
          cases fault with
          | notFound =>
              have habove := ih t
              rcases hmade : Files.makeMissing above t with ⟨_ | _, t'⟩
              · rw [hmade] at habove
                exact habove
              · rw [hmade] at habove
                exact habove.trans (makeAll [q] t')
          | alreadyThere =>
              dsimp only
              split <;> exact refl t
          | _ => exact refl t

end Widened

section Directories
variable {p : Path} {t : FileTree}

/-- Making directories changes nothing, or there is a new one. -/
theorem widened_makeDirectories (p : Path) (t : FileTree) :
    Widened t ((makeDirectories p : Change) t).2 :=
  Widened.makeMissing p.ancestors t

/-- Directories are made on the way to the last of the names only. -/
theorem grown_makeMissing (absolute : Bool) (hnames : ∀ n ∈ names, IsName n) (t : FileTree) :
    Grown t (makeMissing (pathsTo absolute names) t).2 (route [] names) := by
  induction names using List.reverseRecOn with
  | nil => exact .refl t _
  | append_singleton front c ih =>
      have hfront := ih fun n hn => hnames n (List.mem_append_left _ hn)
      rw [pathsTo_concat]
      exact (grown_makeMissing_cons (pieces_ofComponents absolute hnames) hfront).1

/-- Where the paths keep to the limits and no file is in the way, all directories are made. -/
theorem makeMissing_eq_ok (hnames : ∀ n ∈ names, IsName n)
    (haccepted : ∀ few, few ≠ [] → few <+: names → refusal? (ofComponents absolute few) = none)
    (hshort : ∀ n ∈ names, n.length ≤ nameLimit)
    (hfree : ∀ p ∈ route [] names, ¬ t.holdsFile p) :
    ∃ made, makeMissing (pathsTo absolute names) t = (.ok (), made) ∧
      Grown t made (route [] names) ∧ ∀ p ∈ route [] names, made.holdsDirectory p := by
  induction names using List.reverseRecOn with
  | nil =>
      refine ⟨t, rfl, .refl t _, List.forall_mem_singleton.mpr ?_⟩
      have hstart := hfree [] List.mem_cons_self
      cases t with
      | file content => exact absurd ⟨content, rfl⟩ hstart
      | directory entries => exact ⟨entries, rfl⟩
  | append_singleton front c ih =>
      obtain ⟨made, habove, hgrown, hopen⟩ := ih (fun n hn => hnames n (List.mem_append_left _ hn))
        (fun few hne hpre => haccepted few hne (hpre.trans (List.prefix_append front [c])))
        (fun n hn => hshort n (List.mem_append_left _ hn))
        fun p hp => hfree p (mem_route_append_left hp [c])
      have hq := pieces_ofComponents absolute hnames
      have hlast : (ofComponents absolute (front ++ [c])).Fits :=
        ⟨haccepted _ (by simp) (List.prefix_refl _), hq.symm ▸ hshort⟩
      have hok := makeMissing_cons_eq_ok hq hlast hfree habove hgrown hopen
      have hall := grown_makeMissing_cons hq (by rwa [habove])
      rw [pathsTo_concat]
      rcases hrun : makeMissing (ofComponents absolute (front ++ [c]) :: pathsTo absolute front) t
        with ⟨result, after⟩
      rw [hrun] at hok hall
      obtain rfl : result = .ok () := hok
      exact ⟨after, rfl, hall.1, (hall.2 rfl).2⟩

theorem ancestors_concat (h : p.components = front ++ [c]) :
    p.ancestors = p :: pathsTo p.isAbsolute front := by
  rw [ancestors, h, beginnings_concat]
  rfl

/-- A path that ends in a name is made behind the paths to what is above it. -/
theorem makeDirectories_eq (hp : p.pieces = front ++ [c]) (hc : c ≠ here) :
    ∃ kept, kept.Sublist front ∧ (∀ place, place ∈ route [] kept ↔ place ∈ route [] front) ∧
      (makeDirectories p : Change) = makeMissing (p :: pathsTo p.isAbsolute kept) := by
  obtain ⟨kept, hkept, hsub, hroute, -⟩ := components_append_cons hp hc
  rw [List.filter_nil] at hkept
  exact ⟨kept, hsub, hroute, by rw [makeDirectories_eq_makeMissing, ancestors_concat hkept]⟩

/-- Directories are made on the route of a path only. If all goes well then the path keeps to the
limits and all of its route is there. -/
theorem grown_makeDirectories (hp : p.pieces = front ++ [c]) (hc : c ≠ here) (t : FileTree) :
    Grown t ((makeDirectories p : Change) t).2 (route [] p.pieces) ∧
      (((makeDirectories p : Change) t).1 = .ok () →
        p.Fits ∧ ∀ place ∈ route [] p.pieces,
          ((makeDirectories p : Change) t).2.holdsDirectory place) := by
  obtain ⟨kept, hsub, hroute, hrun⟩ := makeDirectories_eq hp hc
  have hnames : ∀ n ∈ kept, IsName n := fun n hn =>
    isName_of_mem_pieces (hp ▸ List.mem_append_left [c] (hsub.subset hn))
  have habove := (grown_makeMissing p.isAbsolute hnames t).mono fun place => (hroute place).mp
  rw [hrun, hp]
  exact grown_makeMissing_cons hp habove

/-- Where the path keeps to the limits and no file is in the way, a directory can be made. -/
theorem makeDirectories_eq_ok (hp : p.pieces = front ++ [c]) (hc : c ≠ here) (hfits : p.Fits)
    (hfree : ∀ place ∈ route [] p.pieces, ¬ t.holdsFile place) :
    ((makeDirectories p : Change) t).1 = .ok () := by
  obtain ⟨kept, hsub, hroute, hrun⟩ := makeDirectories_eq hp hc
  have hpieces : kept.Sublist p.pieces := hp ▸ hsub.trans (List.sublist_append_left front [c])
  have hnames : ∀ n ∈ kept, IsName n := fun n hn => isName_of_mem_pieces (hpieces.subset hn)
  have hpassed : ∀ place ∈ route [] kept, ¬ t.holdsFile place := fun place hm =>
    hfree place (hp ▸ mem_route_append_left ((hroute place).mp hm) [c])
  obtain ⟨made, habove, hgrown, hopen⟩ := makeMissing_eq_ok hnames
    (fun few hne hpre => refusal?_ofComponents hfits.accepted (hpre.sublist.trans hpieces) hne)
    (fun n hn => hfits.short n (hpieces.subset hn)) hpassed
  rw [hrun]
  exact makeMissing_cons_eq_ok hp hfits (hp ▸ hfree) habove
    (hgrown.mono fun place => (hroute place).mp) fun place hm => hopen place ((hroute place).mpr hm)

/-- Where the way to a directory is open, it is made at once if nothing is in its place. -/
theorem makeDirectories_of_open (hp : p.pieces = front ++ [c]) (hc : c ≠ here) (hfits : p.Fits)
    (hopen : ∀ place ∈ route [] front, t.holdsDirectory place) :
    t.get? (step (destination [] front) c) = none ∧
        (makeDirectories p : Change) t =
          (.ok (), t.put (step (destination [] front) c) empty) ∨
      t.holdsDirectory (step (destination [] front) c) ∧
        (makeDirectories p : Change) t = (.ok (), t) ∨
      t.holdsFile (step (destination [] front) c) ∧
        (makeDirectories p : Change) t = (.error .alreadyThere, t) := by
  obtain ⟨kept, -, -, hrun⟩ := makeDirectories_eq hp hc
  rw [hrun, makeMissing_cons]
  cases making (t := t) hp with
  | made hfits hopen hfree hrun => exact Or.inl ⟨hfree, by rw [hrun]⟩
  | there hfits hopen hdir hrun hfound =>
      exact Or.inr (Or.inl ⟨hdir, by simp only [hrun, hfound, if_true]⟩)
  | taken hfile hrun hfound =>
      exact Or.inr (Or.inr ⟨hfile, by simp only [hrun, hfound, Bool.false_eq_true, if_false]⟩)
  | missing hgap hrun =>
      obtain ⟨place, hm, hnone⟩ := hgap
      exact absurd (hopen place hm) (not_holdsDirectory_of_get? hnone)
  | blocked hfile hrun =>
      obtain ⟨place, hm, hfile⟩ := hfile
      exact absurd hfile (not_holdsFile_of_holdsDirectory (hopen place hm))
  | refused hover hwhy hrun => exact absurd hfits hover

end Directories

end Files

end PointDriver

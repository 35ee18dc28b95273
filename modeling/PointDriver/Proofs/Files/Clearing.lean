import PointDriver.Proofs.Files.Directories

/-!
# Clearing a way that never goes up

A path that never goes up is made as a whole, or as far as a name that is too
long, or not at all: a file in its way is met before anything is made, and so is
the length of the path. A name that is too long is only met by the directory
that would hold it.
-/

namespace PointDriver

namespace FileTree
variable {t : FileTree} {location : Location} {q : Path} {front : List Bytes} {c : Bytes}

/-- A file on a route that never goes up is met before anything that is missing. -/
theorem makeDirectory_ne_notFound (hq : q.pieces = front ++ [c]) (hup : Path.up ∉ front)
    (hp : location ∈ route [] front) (hfile : t.holdsFile location) :
    t.makeDirectory q ≠ .error .notFound := by
  have hmet := locate_ne_notFound hq hup hp hfile
  unfold makeDirectory
  cases hlocate : t.locate q with
  | error fault => simpa [hlocate] using hmet
  | ok location => cases hget : t.get? location <;> simp [hget]

/-- Where no file is in front of a name that is too long, either something is missing there, or the
name is refused. -/
theorem locateFrom_of_overlong {at_ : Location} {name : Bytes} {front : List Bytes}
    (hfree : ∀ p ∈ route at_ front, ¬ t.holdsFile p)
    (hshort : ∀ n ∈ front, n.length ≤ Path.nameLimit) (hlong : Path.nameLimit < name.length)
    (back : List Bytes) :
    t.locateFrom at_ (front ++ name :: back) = .error .notFound ∧
        (∃ p ∈ route at_ front, t.get? p = none) ∨
      t.locateFrom at_ (front ++ name :: back) = .error .nameTooLong ∧
        ∀ p ∈ route at_ front, t.holdsDirectory p := by
  induction front generalizing at_ with
  | nil =>
      have hstart := hfree at_ (mem_route_self at_ [])
      rw [List.nil_append, locateFrom, route, List.forall_mem_singleton]
      cases hget : t.get? at_ with
      | none => exact Or.inl ⟨rfl, at_, List.mem_cons_self, hget⟩
      | some found =>
          cases found with
          | file content => exact absurd ⟨content, hget⟩ hstart
          | directory entries => exact Or.inr ⟨if_pos hlong, entries, hget⟩
  | cons first rest ih =>
      have hstart := hfree at_ (mem_route_self at_ (first :: rest))
      rw [route, List.forall_mem_cons] at hfree
      rw [List.forall_mem_cons] at hshort
      rw [List.cons_append, locateFrom, route, List.forall_mem_cons]
      cases hget : t.get? at_ with
      | none => exact Or.inl ⟨rfl, at_, List.mem_cons_self, hget⟩
      | some found =>
          cases found with
          | file content => exact absurd ⟨content, hget⟩ hstart
          | directory entries =>
              simp only [if_neg (Nat.not_lt.mpr hshort.1)]
              rcases ih hfree.2 hshort.2 with ⟨hrest, p, hp, hgap⟩ | ⟨hrest, hopen⟩
              · exact Or.inl ⟨hrest, p, List.mem_cons_of_mem _ hp, hgap⟩
              · exact Or.inr ⟨hrest, ⟨entries, hget⟩, hopen⟩

end FileTree

namespace Files
open FileTree PointDriver.Path

/-- Directories have been made as far as a name that is too long. -/
inductive CutShort (p : Path) (t made : FileTree) : Prop
  | before {front name back} (way : p.pieces = front ++ name :: back)
      (short : ∀ n ∈ front, n.length ≤ nameLimit) (long : nameLimit < name.length)
      (grown : Grown t made (route [] front))
      (there : ∀ place ∈ route [] front, made.holdsDirectory place) : CutShort p t made

/-- What comes of making a directory and those above it that are missing, where the path never
goes up. -/
inductive Clearing (p : Path) (t : FileTree) : Except FileFault Unit × FileTree → Prop
  | refused {fault} (why : refusal? p = some fault) : Clearing p t (.error fault, t)
  | blocked {fault} (file : ∃ place ∈ route [] p.pieces, t.holdsFile place) :
      Clearing p t (.error fault, t)
  | cutShort {made} (cut : CutShort p t made) : Clearing p t (.error .nameTooLong, made)
  | made {made} (fits : p.Fits) (free : ∀ place ∈ route [] p.pieces, ¬ t.holdsFile place)
      (grown : Grown t made (route [] p.pieces))
      (there : ∀ place ∈ route [] p.pieces, made.holdsDirectory place) :
      Clearing p t (.ok (), made)

variable {t made : FileTree} {p q : Path} {names front : List Bytes} {c : Bytes} {absolute : Bool}
  {above : List Path}

/-- A file in the way of a route that never goes up keeps any directory from being made. -/
theorem makeMissing_cons_eq_error (hq : q.pieces = front ++ [c]) (hup : up ∉ front ++ [c])
    (hfile : ∃ p ∈ route [] (front ++ [c]), t.holdsFile p) (above : List Path) :
    ∃ fault, makeMissing (q :: above) t = (.error fault, t) := by
  obtain ⟨p, hp, hfile⟩ := hfile
  rw [makeMissing_cons]
  rw [route_concat, List.mem_append, List.mem_singleton] at hp
  cases making (t := t) hq with
  | made hfits hopen hfree hrun =>
      rcases hp with hp | rfl
      · exact absurd hfile (not_holdsFile_of_holdsDirectory (hopen p hp))
      · obtain ⟨content, hcontent⟩ := hfile
        rw [hfree] at hcontent
        cases hcontent
  | there hfits hopen hdir hrun hfound =>
      rcases hp with hp | rfl
      · exact absurd hfile (not_holdsFile_of_holdsDirectory (hopen p hp))
      · exact absurd hfile (not_holdsFile_of_holdsDirectory hdir)
  | taken htaken hrun hfound =>
      exact ⟨.alreadyThere, by simp only [hrun, hfound, Bool.false_eq_true, if_false]⟩
  | missing hgap hrun =>
      have hfront : up ∉ front := fun h => hup (List.mem_append_left _ h)
      rcases hp with hp | rfl
      · exact absurd hrun (makeDirectory_ne_notFound hq hfront hp hfile)
      · -- What is behind something missing is missing.
        obtain ⟨gap, hmem, hnone⟩ := hgap
        have hc : c ≠ up := fun h => hup (h ▸ List.mem_append_right _ List.mem_cons_self)
        have hpre := (isPrefix_destination hfront hmem).trans (isPrefix_step hc _)
        obtain ⟨content, hcontent⟩ := hfile
        rw [get?_of_isPrefix hpre hnone] at hcontent
        cases hcontent
  | blocked hblock hrun => exact ⟨.notDirectory, by rw [hrun]⟩
  | refused hover hwhy hrun => rcases hwhy with rfl | rfl <;> exact ⟨_, by rw [hrun]⟩

/-- A name that is too long is refused once the directories before it are there, whether they are
made for it or for a path that goes on behind it. -/
theorem makeMissing_cons_of_overlong {name : Bytes} {back : List Bytes}
    (hq : q.pieces = front ++ name :: back) (haccepted : refusal? q = none)
    (hshort : ∀ n ∈ front, n.length ≤ nameLimit) (hlong : nameLimit < name.length)
    (hfree : ∀ p ∈ route [] front, ¬ t.holdsFile p)
    (habove : makeMissing above t = (.ok (), made) ∨
      makeMissing above t = (.error .nameTooLong, made))
    (hgrown : Grown t made (route [] front))
    (hopen : ∀ p ∈ route [] front, made.holdsDirectory p) :
    ∃ after, makeMissing (q :: above) t = (.error .nameTooLong, after) ∧
      Grown t after (route [] front) ∧ ∀ p ∈ route [] front, after.holdsDirectory p := by
  have hmake : ∀ {t : FileTree} {fault : FileFault},
      t.locateFrom [] (front ++ name :: back) = .error fault →
        t.makeDirectory q = .error fault := by
    intro t fault h
    apply makeDirectory_of_error
    rwa [locate_of_accepted haccepted, hq]
  rcases locateFrom_of_overlong hfree hshort hlong back with ⟨hmissing, -⟩ | ⟨hrun, hthere⟩
  · rcases habove with habove | habove
    · -- The directories have been made for this name.
      have hfree' : ∀ p ∈ route [] front, ¬ made.holdsFile p := fun p hp =>
        not_holdsFile_of_holdsDirectory (hopen p hp)
      rcases locateFrom_of_overlong hfree' hshort hlong back with ⟨-, p, hp, hgap⟩ | ⟨hrun, -⟩
      · exact absurd (hopen p hp) (not_holdsDirectory_of_get? hgap)
      · refine ⟨made, ?_, hgrown, hopen⟩
        simp only [makeMissing_cons, hmake hmissing, habove, makeAll_cons, hmake hrun]
        rfl
    · refine ⟨made, ?_, hgrown, hopen⟩
      simp only [makeMissing_cons, hmake hmissing, habove]
  · refine ⟨t, ?_, .refl t _, hthere⟩
    exact makeMissing_of_error (hmake hrun) (fun h => nomatch h) (fun h => nomatch h) above

/-- The way to names behind one that is too long is cleared up to this one. -/
theorem makeMissing_of_overlong {name : Bytes} (back : List Bytes)
    (hnames : ∀ n ∈ front ++ name :: back, IsName n)
    (haccepted : ∀ few, few ≠ [] → few <+: front ++ name :: back →
      refusal? (ofComponents absolute few) = none)
    (hshort : ∀ n ∈ front, n.length ≤ nameLimit) (hlong : nameLimit < name.length)
    (hfree : ∀ p ∈ route [] front, ¬ t.holdsFile p) :
    ∃ made, makeMissing (pathsTo absolute (front ++ name :: back)) t =
        (.error .nameTooLong, made) ∧
      Grown t made (route [] front) ∧ ∀ p ∈ route [] front, made.holdsDirectory p := by
  induction back using List.reverseRecOn with
  | nil =>
      have hfront : ∀ n ∈ front, IsName n := fun n hn => hnames n (List.mem_append_left _ hn)
      obtain ⟨made, habove, hgrown, hopen⟩ := makeMissing_eq_ok hfront
        (fun few hne hpre => haccepted few hne (hpre.trans (List.prefix_append _ _))) hshort hfree
      rw [pathsTo_concat]
      exact makeMissing_cons_of_overlong (pieces_ofComponents absolute hnames)
        (haccepted _ (by simp) (List.prefix_refl _)) hshort hlong hfree (Or.inl habove) hgrown hopen
  | append_singleton back c ih =>
      have hcut : front ++ name :: (back ++ [c]) = (front ++ name :: back) ++ [c] := by simp
      rw [hcut] at hnames haccepted ⊢
      obtain ⟨made, habove, hgrown, hopen⟩ :=
        ih (fun n hn => hnames n (List.mem_append_left _ hn))
          fun few hne hpre => haccepted few hne (hpre.trans (List.prefix_append _ [c]))
      have hq := pieces_ofComponents absolute hnames
      rw [List.append_assoc, List.cons_append] at hq
      rw [pathsTo_concat]
      refine makeMissing_cons_of_overlong (by simpa using hq)
        (haccepted _ (by simp) (List.prefix_refl _)) hshort hlong hfree (Or.inr habove) hgrown hopen

/-- The first name of a path that is too long. -/
theorem exists_overlong (h : ¬ ∀ n ∈ names, n.length ≤ nameLimit) :
    ∃ front name back, names = front ++ name :: back ∧
      (∀ n ∈ front, n.length ≤ nameLimit) ∧ nameLimit < name.length := by
  obtain ⟨name, hfound⟩ :
      ∃ name, names.find? (fun n => decide (nameLimit < n.length)) = some name := by
    rw [← Option.isSome_iff_exists, List.find?_isSome]
    simpa using h
  obtain ⟨hlong, front, back, hcut, hshort⟩ := List.find?_eq_some_iff_append.mp hfound
  exact ⟨front, name, back, hcut, by simpa using hshort, by simpa using hlong⟩

/-- Directories are made as far as the first name that is too long. -/
theorem cutShort_makeDirectories {name : Bytes} {back last : List Bytes}
    (hlast : p.pieces = last ++ [c]) (hc : c ≠ here) (haccepted : refusal? p = none)
    (hp : p.pieces = front ++ name :: back) (hshort : ∀ n ∈ front, n.length ≤ nameLimit)
    (hlong : nameLimit < name.length) (hfree : ∀ place ∈ route [] p.pieces, ¬ t.holdsFile place) :
    ∃ made, (makeDirectories p : Change) t = (.error .nameTooLong, made) ∧ CutShort p t made := by
  have hname : name ≠ here := by
    rintro rfl
    exact absurd hlong (by decide)
  obtain ⟨kept, hkept, hsub, hroute, -⟩ := components_append_cons hp hname
  have hnames : ∀ n ∈ p.components, IsName n := fun n hn =>
    isName_of_mem_pieces ((components_sublist p).subset hn)
  have habove : ∀ few, few ≠ [] → few <+: p.components →
      refusal? (ofComponents p.isAbsolute few) = none := fun few hne hpre =>
    refusal?_ofComponents haccepted (hpre.sublist.trans (components_sublist p)) hne
  have hpassed : ∀ place ∈ route [] front, ¬ t.holdsFile place := fun place hm =>
    hfree place (hp ▸ mem_route_append_left hm _)
  have hkeptFree : ∀ place ∈ route [] kept, ¬ t.holdsFile place := fun place hm =>
    hpassed place ((hroute place).mp hm)
  have hkeptShort : ∀ n ∈ kept, n.length ≤ nameLimit := fun n hn => hshort n (hsub.subset hn)
  -- The paths above are those to the names before, or they go on to the last name but one.
  obtain ⟨above, made, hancestors, hmake, hgrown, hopen⟩ : ∃ above made, p.ancestors = p :: above ∧
      (makeMissing above t = (.ok (), made) ∨ makeMissing above t = (.error .nameTooLong, made)) ∧
      Grown t made (route [] kept) ∧ ∀ place ∈ route [] kept, made.holdsDirectory place := by
    rcases List.eq_nil_or_concat back with rfl | ⟨back, final, rfl⟩
    · rw [List.filter_nil] at hkept
      rw [hkept] at hnames habove
      obtain ⟨made, hmake, hmade⟩ := makeMissing_eq_ok
        (fun n hn => hnames n (List.mem_append_left _ hn))
        (fun few hne hpre => habove few hne (hpre.trans (List.prefix_append _ _)))
        hkeptShort hkeptFree
      exact ⟨_, made, ancestors_concat hkept, Or.inl hmake, hmade⟩
    · have hfinal : final ≠ here := by
        rw [List.concat_eq_append, hlast, ← List.cons_append, ← List.append_assoc] at hp
        rwa [← List.singleton_inj.mp (List.append_inj' hp rfl).2]
      have hcut : p.components = (kept ++ name :: back.filter (· != here)) ++ [final] := by
        rw [hkept]
        simp [hfinal]
      rw [hcut] at hnames habove
      obtain ⟨made, hmake, hmade⟩ := makeMissing_of_overlong (back.filter (· != here))
        (fun n hn => hnames n (List.mem_append_left _ hn))
        (fun few hne hpre => habove few hne (hpre.trans (List.prefix_append _ _)))
        hkeptShort hlong hkeptFree
      exact ⟨_, made, ancestors_concat hcut, Or.inr hmake, hmade⟩
  obtain ⟨after, hrun, hafter⟩ :=
    makeMissing_cons_of_overlong hp haccepted hshort hlong hpassed hmake
      (hgrown.mono fun place => (hroute place).mp)
      fun place hm => hopen place ((hroute place).mpr hm)
  refine ⟨after, ?_, .before hp hshort hlong hafter.1 hafter.2⟩
  rw [makeDirectories_eq_makeMissing, hancestors, hrun]

/-- A path that never goes up is made as a whole, or up to a name that is too long, or not at
all. -/
theorem clearing_makeDirectories (hp : p.pieces = front ++ [c]) (hc : c ≠ here)
    (hup : up ∉ p.pieces) (t : FileTree) : Clearing p t ((makeDirectories p : Change) t) := by
  cases hrefusal : refusal? p with
  | some fault =>
      obtain ⟨kept, -, -, hrun⟩ := makeDirectories_eq hp hc
      have hpieces : p.pieces ≠ [] := by simp [hp]
      have hmake := makeDirectory_of_error (t := t) (locate_of_refused hrefusal)
      rw [hrun]
      rcases refusal?_cases hpieces hrefusal with rfl | rfl <;>
        rw [makeMissing_of_error hmake (fun h => nomatch h) (fun h => nomatch h)] <;>
        exact .refused hrefusal
  | none =>
      by_cases hfile : ∃ place ∈ route [] p.pieces, t.holdsFile place
      · obtain ⟨kept, -, -, hrun⟩ := makeDirectories_eq hp hc
        obtain ⟨fault, hstop⟩ := makeMissing_cons_eq_error hp (hp ▸ hup) (hp ▸ hfile)
          (pathsTo p.isAbsolute kept)
        rw [hrun, hstop]
        exact .blocked hfile
      · have hfree : ∀ place ∈ route [] p.pieces, ¬ t.holdsFile place :=
          fun place hm hthere => hfile ⟨place, hm, hthere⟩
        by_cases hshort : ∀ n ∈ p.pieces, n.length ≤ nameLimit
        · have hfits : p.Fits := ⟨hrefusal, hshort⟩
          have hok := makeDirectories_eq_ok hp hc hfits hfree
          obtain ⟨hgrown, hthere⟩ := grown_makeDirectories hp hc t
          rcases hrun : (makeDirectories p : Change) t with ⟨result, made⟩
          rw [hrun] at hok hgrown hthere
          obtain rfl : result = .ok () := hok
          exact .made hfits hfree hgrown (hthere rfl).2
        · obtain ⟨before, name, back, hcut, hshort, hlong⟩ := exists_overlong hshort
          obtain ⟨made, hrun, hmade⟩ :=
            cutShort_makeDirectories hp hc hrefusal hcut hshort hlong hfree
          rw [hrun]
          exact .cutShort hmade

end Files

end PointDriver

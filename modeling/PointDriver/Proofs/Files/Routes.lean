import PointDriver.Proofs.Files.Writing

/-!
# Routes

A path is followed piece by piece. The locations on the way make up its route,
and the path leads somewhere when it keeps to the limits and all of them but the
last are directories. Otherwise there is a first thing that stops it. A route
that never goes up stays on the way to its end.
-/

namespace PointDriver

namespace Path

/-- The pieces of which the first is still being read: it counts if it holds anything. -/
def closed (s : Bytes × List Bytes) : List Bytes := if s.1.isEmpty then s.2 else s.1 :: s.2

/-- Reads a byte in front of pieces. -/
def cut (b : UInt8) (s : Bytes × List Bytes) : Bytes × List Bytes :=
  if b == slash then ([], closed s) else (b :: s.1, s.2)

theorem pieces_eq_closed (p : Path) : p.pieces = closed (p.foldr cut ([], [])) := rfl

/-- Finished pieces are kept behind what is read in front of them. -/
theorem foldr_cut (a : Path) (s : Bytes) (done : List Bytes) :
    a.foldr cut (s, done) = ((a.foldr cut (s, [])).1, (a.foldr cut (s, [])).2 ++ done) := by
  induction a with
  | nil => rfl
  | cons b a ih =>
      rw [List.foldr_cons, ih, List.foldr_cons]
      unfold cut closed
      split
      · split <;> rfl
      · rfl

theorem pieces_append_slash (a b : Path) : pieces (a ++ slash :: b) = a.pieces ++ b.pieces := by
  have hslash : cut slash (b.foldr cut ([], [])) = ([], b.pieces) := by
    simp [cut, pieces_eq_closed]
  rw [pieces_eq_closed, List.foldr_append, List.foldr_cons, hslash, foldr_cut, pieces_eq_closed a]
  unfold closed
  split <;> rfl

/-- A name of bytes without slashes is a piece. -/
structure IsName (name : Bytes) : Prop where
  filled : name ≠ []
  unbroken : slash ∉ name

theorem foldr_cut_name {name : Bytes} (h : slash ∉ name) (s : Bytes × List Bytes) :
    name.foldr cut s = (name ++ s.1, s.2) := by
  induction name with
  | nil => rfl
  | cons b rest ih =>
      rw [List.mem_cons, not_or] at h
      rw [List.foldr_cons, ih h.2]
      simp [cut, Ne.symm h.1]

theorem pieces_name {name : Bytes} (h : IsName name) : pieces name = [name] := by
  rw [pieces_eq_closed, foldr_cut_name h.unbroken]
  simp [closed, h.filled]

theorem isName_of_mem_pieces {p : Path} {piece : Bytes} (h : piece ∈ p.pieces) : IsName piece := by
  -- The bytes being read hold no slash, and what is finished is a name.
  have hread : slash ∉ (p.foldr cut ([], [])).1 ∧ ∀ n ∈ (p.foldr cut ([], [])).2, IsName n := by
    clear h
    induction p with
    | nil => simp
    | cons b p ih =>
        rw [List.foldr_cons]
        generalize p.foldr cut ([], []) = s at ih
        obtain ⟨hcurrent, hdone⟩ := ih
        unfold cut closed
        split
        · refine ⟨List.not_mem_nil, ?_⟩
          split
          · exact hdone
          · next hfilled =>
              rintro n (_ | ⟨_, hn⟩)
              · exact ⟨by simpa using hfilled, hcurrent⟩
              · exact hdone n hn
        · next hb =>
            have hne : slash ≠ b := fun he => hb (by simp [he])
            exact ⟨by simp [hne, hcurrent], hdone⟩
  rw [pieces_eq_closed] at h
  unfold closed at h
  split at h
  · exact hread.2 piece h
  · next hfilled =>
      rcases h with _ | ⟨_, h⟩
      · exact ⟨by simpa using hfilled, hread.1⟩
      · exact hread.2 piece h

theorem pieces_join (base : Path) {p : Path} (h : p.isAbsolute = false) :
    (base.join p).pieces = base.pieces ++ p.pieces := by
  unfold join
  rw [h]
  by_cases hbase : base = []
  · subst hbase
    rfl
  · have hempty : base.isEmpty = false := by simpa using hbase
    rw [hempty]
    simp only [Bool.or_self, Bool.false_eq_true, if_false]
    split
    · next hlast =>
        obtain ⟨front, rfl⟩ : ∃ front, base = front ++ [slash] :=
          List.getLast?_eq_some_iff.mp (by simpa using hlast)
        rw [List.append_assoc, List.singleton_append, pieces_append_slash, pieces_append_slash]
        simp [pieces_eq_closed, closed]
    · exact pieces_append_slash base p

theorem endsWithSlash_join (base : Path) {p : Path} (ha : p.isAbsolute = false) (hp : p ≠ []) :
    FileTree.endsWithSlash (base.join p) =
      FileTree.endsWithSlash p := by
  unfold join FileTree.endsWithSlash
  obtain ⟨b, rest, rfl⟩ := List.exists_cons_of_ne_nil hp
  split
  · rfl
  · split <;> simp [List.getLast?_append, List.getLast?_cons]

theorem pieces_ofComponents {components : List Bytes} (absolute : Bool)
    (h : ∀ c ∈ components, IsName c) : (ofComponents absolute components).pieces = components := by
  have hjoined : pieces ([slash].intercalate components) = components := by
    induction components with
    | nil => rfl
    | cons c rest ih =>
        have hc := pieces_name (h c List.mem_cons_self)
        have hrest := ih fun x hx => h x (List.mem_cons_of_mem _ hx)
        cases rest with
        | nil => simpa [List.intercalate] using hc
        | cons next more =>
            rw [List.intercalate_cons_cons, List.append_assoc, List.singleton_append,
              pieces_append_slash, hc, hrest]
            rfl
  unfold ofComponents
  cases absolute with
  | false => exact hjoined
  | true => exact (pieces_append_slash [] ([slash].intercalate components)).trans hjoined

/-- A path within the limits: it is not refused, and each of its names may be as long as it is. -/
structure Fits (p : Path) : Prop where
  accepted : FileTree.refusal? p = none
  short : ∀ piece ∈ p.pieces, piece.length ≤ nameLimit

instance (p : Path) : Decidable p.Fits :=
  decidable_of_iff (FileTree.refusal? p = none ∧ ∀ piece ∈ p.pieces, piece.length ≤ nameLimit)
    ⟨fun h => ⟨h.1, h.2⟩, fun h => ⟨h.accepted, h.short⟩⟩

/-- A path with pieces is refused for a zero byte or for its length. -/
theorem refusal?_cases {p : Path} {fault : FileFault} (hp : p.pieces ≠ [])
    (h : FileTree.refusal? p = some fault) : fault = .zeroByte ∨ fault = .nameTooLong := by
  have hfilled : p.isEmpty = false := by
    cases p with
    | nil => exact absurd rfl hp
    | cons b p => rfl
  unfold FileTree.refusal? at h
  rw [hfilled, if_neg Bool.false_ne_true] at h
  split at h
  · exact Or.inl (Option.some.inj h).symm
  · split at h
    · exact Or.inr (Option.some.inj h).symm
    · cases h

end Path

namespace FileTree

/-- The location that components lead to. -/
def destination (at_ : Location) (components : List Bytes) : Location := components.foldl step at_

/-- The locations that components lead through, with the first and the last. -/
def route (at_ : Location) : List Bytes → List Location
  | [] => [at_]
  | c :: rest => at_ :: route (step at_ c) rest

@[simp] theorem destination_nil (at_ : Location) : destination at_ [] = at_ := rfl

@[simp] theorem destination_append (at_ : Location) (a b : List Bytes) :
    destination at_ (a ++ b) = destination (destination at_ a) b := List.foldl_append

theorem route_concat (at_ : Location) (components : List Bytes) (c : Bytes) :
    route at_ (components ++ [c]) =
      route at_ components ++ [step (destination at_ components) c] := by
  induction components generalizing at_ with
  | nil => rfl
  | cons first rest ih => exact congrArg (at_ :: ·) (ih (step at_ first))

theorem mem_route_self (at_ : Location) (components : List Bytes) : at_ ∈ route at_ components := by
  cases components <;> exact List.mem_cons_self

theorem destination_mem_route (at_ : Location) (components : List Bytes) :
    destination at_ components ∈ route at_ components := by
  induction components generalizing at_ with
  | nil => exact List.mem_cons_self
  | cons c rest ih => exact List.mem_cons_of_mem _ (ih (step at_ c))

theorem mem_route_append_left {at_ location : Location} {a : List Bytes}
    (h : location ∈ route at_ a) (b : List Bytes) : location ∈ route at_ (a ++ b) := by
  induction a generalizing at_ with
  | nil =>
      obtain rfl := List.mem_singleton.mp h
      exact mem_route_self location b
  | cons c rest ih =>
      rcases List.mem_cons.mp h with rfl | h
      · exact List.mem_cons_self
      · exact List.mem_cons_of_mem _ (ih h)

/-- Components that stay where they are lead nowhere else. -/
theorem mem_route_filter_here {at_ location : Location} (components : List Bytes) :
    location ∈ route at_ (components.filter (· != Path.here)) ↔
      location ∈ route at_ components := by
  induction components generalizing at_ with
  | nil => rfl
  | cons c rest ih =>
      by_cases hc : c = Path.here
      · subst hc
        have hstep : step at_ Path.here = at_ := by simp [step]
        have hself := mem_route_self at_ rest
        simp only [List.filter_cons, bne_self_eq_false, Bool.false_eq_true, if_false, ih, route,
          hstep, List.mem_cons]
        exact ⟨Or.inr, fun h => h.elim (fun he => he ▸ hself) id⟩
      · simp only [List.filter_cons, bne_iff_ne, ne_eq, hc, not_false_eq_true, if_true, route,
          List.mem_cons, ih]

/-- All that components lead through before their end are directories, and each may have its
name. -/
structure Opens (t : FileTree) (at_ : Location) (components : List Bytes) : Prop where
  directories : ∀ passed ∈ (route at_ components).dropLast, t.holdsDirectory passed
  short : ∀ name ∈ components, name.length ≤ Path.nameLimit

/-- The first thing in the way of components is missing, or a file, or a name that is too long. -/
inductive Obstructed (t : FileTree) (at_ : Location) (components : List Bytes) : FileFault → Prop
  | missing {front rest} (way : components = front ++ rest) (more : rest ≠ [])
      (opens : t.Opens at_ front) (gap : t.get? (destination at_ front) = none) :
      Obstructed t at_ components .notFound
  | blocked {front rest} (way : components = front ++ rest) (more : rest ≠ [])
      (opens : t.Opens at_ front) (there : t.holdsFile (destination at_ front)) :
      Obstructed t at_ components .notDirectory
  | overlong {front name rest} (way : components = front ++ name :: rest)
      (opens : t.Opens at_ front) (there : t.holdsDirectory (destination at_ front))
      (long : Path.nameLimit < name.length) : Obstructed t at_ components .nameTooLong

section Locating
variable {t : FileTree} {at_ p location : Location} {components front rest : List Bytes}
  {c : Bytes} {q : Path} {fault : FileFault}

theorem opens_nil (t : FileTree) (at_ : Location) : t.Opens at_ [] :=
  ⟨List.forall_mem_nil _, List.forall_mem_nil _⟩

theorem opens_cons :
    t.Opens at_ (c :: rest) ↔
      t.holdsDirectory at_ ∧ c.length ≤ Path.nameLimit ∧ t.Opens (step at_ c) rest := by
  have hroute : (route at_ (c :: rest)).dropLast = at_ :: (route (step at_ c) rest).dropLast := by
    cases rest <;> rfl
  constructor
  · rintro ⟨hdirs, hshort⟩
    rw [hroute, List.forall_mem_cons] at hdirs
    rw [List.forall_mem_cons] at hshort
    exact ⟨hdirs.1, hshort.1, hdirs.2, hshort.2⟩
  · rintro ⟨hdir, hc, hdirs, hshort⟩
    refine ⟨?_, List.forall_mem_cons.mpr ⟨hc, hshort⟩⟩
    rw [hroute]
    exact List.forall_mem_cons.mpr ⟨hdir, hdirs⟩

theorem opens_concat :
    t.Opens at_ (front ++ [c]) ↔ (∀ passed ∈ route at_ front, t.holdsDirectory passed) ∧
      ∀ name ∈ front ++ [c], name.length ≤ Path.nameLimit := by
  have hroute : (route at_ (front ++ [c])).dropLast = route at_ front := by
    rw [route_concat, List.dropLast_concat]
  exact ⟨fun h => ⟨hroute ▸ h.directories, h.short⟩, fun h => ⟨hroute ▸ h.1, h.2⟩⟩

theorem locateFrom_eq_ok_iff :
    t.locateFrom at_ components = .ok location ↔
      t.Opens at_ components ∧ location = destination at_ components := by
  induction components generalizing at_ with
  | nil =>
      rw [locateFrom, Except.ok.injEq]
      exact ⟨fun h => ⟨opens_nil t at_, h.symm⟩, fun h => h.2.symm⟩
  | cons c rest ih =>
      rw [locateFrom_cons, ih, opens_cons, and_assoc, and_assoc]
      rfl

/-- What is in the way is where the components start, or it is in the way of the rest. -/
theorem obstructed_cons :
    t.Obstructed at_ (c :: rest) fault ↔
      fault = .notFound ∧ t.get? at_ = none ∨ fault = .notDirectory ∧ t.holdsFile at_ ∨
      t.holdsDirectory at_ ∧ (fault = .nameTooLong ∧ Path.nameLimit < c.length ∨
        c.length ≤ Path.nameLimit ∧ t.Obstructed (step at_ c) rest fault) := by
  constructor
  · rintro (@⟨_ | ⟨first, front⟩, rest, hcut, hmore, hopens, hgap⟩ |
      @⟨_ | ⟨first, front⟩, rest, hcut, hmore, hopens, hfile⟩ |
      @⟨_ | ⟨first, front⟩, name, rest, hcut, hopens, hdir, hlong⟩)
    · exact Or.inl ⟨rfl, hgap⟩
    · obtain ⟨rfl, rfl⟩ := List.cons.inj hcut
      obtain ⟨hdir, hshort, hfront⟩ := opens_cons.mp hopens
      exact Or.inr (Or.inr ⟨hdir, Or.inr ⟨hshort, .missing rfl hmore hfront hgap⟩⟩)
    · exact Or.inr (Or.inl ⟨rfl, hfile⟩)
    · obtain ⟨rfl, rfl⟩ := List.cons.inj hcut
      obtain ⟨hdir, hshort, hfront⟩ := opens_cons.mp hopens
      exact Or.inr (Or.inr ⟨hdir, Or.inr ⟨hshort, .blocked rfl hmore hfront hfile⟩⟩)
    · obtain ⟨rfl, rfl⟩ := List.cons.inj hcut
      exact Or.inr (Or.inr ⟨hdir, Or.inl ⟨rfl, hlong⟩⟩)
    · obtain ⟨rfl, rfl⟩ := List.cons.inj hcut
      obtain ⟨hstart, hshort, hfront⟩ := opens_cons.mp hopens
      exact Or.inr (Or.inr ⟨hstart, Or.inr ⟨hshort, .overlong rfl hfront hdir hlong⟩⟩)
  · rintro (⟨rfl, hgap⟩ | ⟨rfl, hfile⟩ | ⟨hdir, ⟨rfl, hlong⟩ | ⟨hshort, hstop⟩⟩)
    · exact .missing (List.nil_append _).symm (List.cons_ne_nil c rest) (opens_nil t at_) hgap
    · exact .blocked (List.nil_append _).symm (List.cons_ne_nil c rest) (opens_nil t at_) hfile
    · exact .overlong (List.nil_append _).symm (opens_nil t at_) hdir hlong
    · have hfront : ∀ {front}, t.Opens (step at_ c) front → t.Opens at_ (c :: front) :=
        fun hopens => opens_cons.mpr ⟨hdir, hshort, hopens⟩
      cases hstop with
      | missing way more opens gap =>
          exact .missing (congrArg (c :: ·) way) more (hfront opens) gap
      | blocked way more opens there =>
          exact .blocked (congrArg (c :: ·) way) more (hfront opens) there
      | overlong way opens there long =>
          exact .overlong (congrArg (c :: ·) way) (hfront opens) there long

theorem locateFrom_eq_error_iff :
    t.locateFrom at_ components = .error fault ↔ t.Obstructed at_ components fault := by
  induction components generalizing at_ with
  | nil =>
      refine iff_of_false (by simp [locateFrom]) ?_
      rintro (⟨hway, hmore, -⟩ | ⟨hway, hmore, -⟩ | ⟨hway, -⟩)
      · exact hmore (List.append_eq_nil_iff.mp hway.symm).2
      · exact hmore (List.append_eq_nil_iff.mp hway.symm).2
      · exact List.cons_ne_nil _ _ (List.append_eq_nil_iff.mp hway.symm).2
  | cons c components ih =>
      rw [obstructed_cons, locateFrom, ← ih]
      cases hget : t.get? at_ with
      | none => simp [holdsFile, holdsDirectory, hget, eq_comm]
      | some found =>
          cases found with
          | file content => simp [holdsFile, holdsDirectory, hget, eq_comm]
          | directory entries =>
              by_cases hlong : Path.nameLimit < c.length
              · simp [holdsFile, holdsDirectory, hget, hlong, Nat.not_le.mpr hlong, eq_comm]
              · simp [holdsFile, holdsDirectory, hget, hlong, Nat.not_lt.mp hlong]

/-- What is in the way of a name is missing or a file on the route to it, or a name is too long. -/
theorem Obstructed.concat_cases (h : t.Obstructed at_ (front ++ [c]) fault) :
    fault = .notFound ∧ (∃ p ∈ route at_ front, t.get? p = none) ∨
      fault = .notDirectory ∧ (∃ p ∈ route at_ front, t.holdsFile p) ∨
      fault = .nameTooLong ∧ ∃ name ∈ front ++ [c], Path.nameLimit < name.length := by
  have hmem : ∀ {before rest : List Bytes}, front ++ [c] = before ++ rest → rest ≠ [] →
      destination at_ before ∈ route at_ front := by
    intro before rest hway hmore
    rw [← List.dropLast_concat_getLast hmore, ← List.append_assoc] at hway
    rw [(List.append_inj' hway rfl).1]
    exact mem_route_append_left (destination_mem_route at_ before) _
  cases h with
  | missing way more opens gap => exact Or.inl ⟨rfl, _, hmem way more, gap⟩
  | blocked way more opens there => exact Or.inr (Or.inl ⟨rfl, _, hmem way more, there⟩)
  | overlong way opens there long =>
      refine Or.inr (Or.inr ⟨rfl, _, ?_, long⟩)
      rw [way]
      exact List.mem_append_right _ List.mem_cons_self

theorem locate_of_accepted (h : refusal? q = none) : t.locate q = t.locateFrom [] q.pieces := by
  rw [locate, h]

theorem locate_of_refused (h : refusal? q = some fault) : t.locate q = .error fault := by
  rw [locate, h]

/-- A path leads to its last name when it keeps to the limits and all before are directories. -/
theorem locate_concat_eq_ok (hq : q.pieces = front ++ [c]) :
    t.locate q = .ok location ↔ q.Fits ∧ (∀ p ∈ route [] front, t.holdsDirectory p) ∧
      location = step (destination [] front) c := by
  have hend : destination [] (front ++ [c]) = step (destination [] front) c :=
    destination_append [] front [c]
  rw [locate_eq_ok, hq, locateFrom_eq_ok_iff, opens_concat, hend, ← hq]
  constructor
  · rintro ⟨haccepted, ⟨hdirs, hshort⟩, hlocation⟩
    exact ⟨⟨haccepted, hshort⟩, hdirs, hlocation⟩
  · rintro ⟨⟨haccepted, hshort⟩, hdirs, hlocation⟩
    exact ⟨haccepted, ⟨hdirs, hshort⟩, hlocation⟩

/-- A path leads nowhere when something it leads through is missing or a file, or when it does not
keep to the limits. -/
theorem locate_concat_eq_error (hq : q.pieces = front ++ [c]) (h : t.locate q = .error fault) :
    fault = .notFound ∧ (∃ p ∈ route [] front, t.get? p = none) ∨
      fault = .notDirectory ∧ (∃ p ∈ route [] front, t.holdsFile p) ∨
      (fault = .zeroByte ∨ fault = .nameTooLong) ∧ ¬ q.Fits := by
  cases hrefusal : refusal? q with
  | some refused =>
      rw [locate_of_refused hrefusal] at h
      obtain rfl := Except.error.inj h
      have hpieces : q.pieces ≠ [] := by simp [hq]
      refine Or.inr (Or.inr ⟨Path.refusal?_cases hpieces hrefusal, fun hfits => ?_⟩)
      cases hrefusal.symm.trans hfits.accepted
  | none =>
      rw [locate_of_accepted hrefusal, hq] at h
      rcases (locateFrom_eq_error_iff.mp h).concat_cases with
        hgap | hfile | ⟨rfl, name, hname, hlong⟩
      · exact Or.inl hgap
      · exact Or.inr (Or.inl hfile)
      · exact Or.inr (Or.inr ⟨Or.inr rfl, fun hfits =>
          Nat.not_le.mpr hlong (hfits.short name (hq ▸ hname))⟩)

/-- The location that a component leads to is above, the same, or a name in the directory. -/
theorem step_cases (at_ : Location) (c : Bytes) : step at_ c <+: at_ ∨ step at_ c = at_ ++ [c] := by
  unfold step
  split
  · exact Or.inl (List.prefix_refl at_)
  · split
    · exact Or.inl (List.dropLast_prefix at_)
    · exact Or.inr rfl

theorem isPrefix_step (hc : c ≠ Path.up) (at_ : Location) : at_ <+: step at_ c := by
  unfold step
  split
  · exact List.prefix_refl at_
  · split
    · next hup => exact absurd (eq_of_beq hup) hc
    · exact List.prefix_append at_ [c]

/-- A route that never goes up goes on from where it starts. -/
theorem isPrefix_of_mem_route (hup : Path.up ∉ components) (h : p ∈ route at_ components) :
    at_ <+: p := by
  induction components generalizing at_ with
  | nil =>
      obtain rfl := List.mem_singleton.mp h
      exact List.prefix_refl p
  | cons c rest ih =>
      rw [List.mem_cons, not_or] at hup
      rcases List.mem_cons.mp h with rfl | h
      · exact List.prefix_refl p
      · exact (isPrefix_step (Ne.symm hup.1) at_).trans (ih hup.2 h)

/-- A route that never goes up stays on the way to its end. -/
theorem isPrefix_destination (hup : Path.up ∉ components) (h : p ∈ route at_ components) :
    p <+: destination at_ components := by
  induction components generalizing at_ with
  | nil =>
      obtain rfl := List.mem_singleton.mp h
      exact List.prefix_refl p
  | cons c rest ih =>
      rcases List.mem_cons.mp h with rfl | h
      · exact isPrefix_of_mem_route hup (destination_mem_route p (c :: rest))
      · exact ih (List.not_mem_of_not_mem_cons hup) h

/-- A file on a route that never goes up is met before anything that is missing. -/
theorem locateFrom_ne_notFound (hup : Path.up ∉ front) (hp : p ∈ route at_ front)
    (hfile : t.holdsFile p) (c : Bytes) :
    t.locateFrom at_ (front ++ [c]) ≠ .error .notFound := by
  intro h
  induction front generalizing at_ with
  | nil =>
      obtain rfl := List.mem_singleton.mp hp
      obtain ⟨content, hcontent⟩ := hfile
      simp [locateFrom, hcontent] at h
  | cons first rest ih =>
      rw [List.cons_append, locateFrom_eq_error_iff, obstructed_cons] at h
      rcases h with ⟨-, hgap⟩ | ⟨hfault, -⟩ | ⟨hdir, ⟨hfault, -⟩ | ⟨-, hrest⟩⟩
      · obtain ⟨content, hcontent⟩ := hfile
        rw [get?_of_isPrefix (isPrefix_of_mem_route hup hp) hgap] at hcontent
        cases hcontent
      · cases hfault
      · cases hfault
      · rw [List.mem_cons, not_or] at hup
        rcases List.mem_cons.mp hp with rfl | hp
        · exact absurd hfile (not_holdsFile_of_holdsDirectory hdir)
        · exact ih hup.2 hp (locateFrom_eq_error_iff.mpr hrest)

theorem locate_ne_notFound (hq : q.pieces = front ++ [c]) (hup : Path.up ∉ front)
    (hp : p ∈ route [] front) (hfile : t.holdsFile p) : t.locate q ≠ .error .notFound := by
  cases hrefusal : refusal? q with
  | some fault =>
      have hpieces : q.pieces ≠ [] := by simp [hq]
      rw [locate_of_refused hrefusal]
      rcases Path.refusal?_cases hpieces hrefusal with rfl | rfl <;> simp
  | none =>
      rw [locate_of_accepted hrefusal, hq]
      exact locateFrom_ne_notFound hup hp hfile c

theorem locate_of_route (hq : q.pieces = front ++ [c]) (hfits : q.Fits)
    (hopen : ∀ p ∈ route [] front, t.holdsDirectory p) :
    t.locate q = .ok (step (destination [] front) c) :=
  (locate_concat_eq_ok hq).mpr ⟨hfits, hopen, rfl⟩

/-- What a path leads to, once its route can be taken. -/
theorem find_of_route (hq : q.pieces = front ++ [c]) (hfits : q.Fits)
    (hslash : endsWithSlash q = false) (hopen : ∀ p ∈ route [] front, t.holdsDirectory p)
    {found : FileTree} (h : t.get? (step (destination [] front) c) = some found) :
    t.find q = .ok found := by
  simp only [find, locate_of_route hq hfits hopen, h, hslash]
  cases found <;> rfl

/-- Where a path leads there is nothing if nothing is found by it. -/
theorem get?_eq_none_of_find {location : Location} (hfree : (t.find q).isOk = false)
    (hfind : ∀ found, t.get? location = some found → t.find q = .ok found) :
    t.get? location = none := by
  rw [Option.eq_none_iff_forall_ne_some]
  intro found h
  rw [hfind found h] at hfree
  cases hfree

/-- A path leads nowhere when something on its route is no directory. -/
theorem isOk_find_of_gap (hq : q.pieces = front ++ [c])
    (hgap : ∃ p ∈ route [] front, ¬ t.holdsDirectory p) : (t.find q).isOk = false := by
  obtain ⟨p, hp, hdir⟩ := hgap
  rw [find]
  cases hlocate : t.locate q with
  | error fault => rfl
  | ok location => exact absurd (((locate_concat_eq_ok hq).mp hlocate).2.1 p hp) hdir

/-- What is written stands where the path leads, unless a directory stands there. -/
theorem write_of_route (hq : q.pieces = front ++ [c]) (hfits : q.Fits)
    (hslash : endsWithSlash q = false) (hopen : ∀ p ∈ route [] front, t.holdsDirectory p)
    (content : Bytes) :
    t.holdsDirectory (step (destination [] front) c) ∧
        t.write q content = .error .isDirectory ∨
      ¬ t.holdsDirectory (step (destination [] front) c) ∧
        t.write q content = .ok (t.put (step (destination [] front) c) (file content)) := by
  simp only [write, locate_of_route hq hfits hopen, hslash, holdsDirectory]
  cases hget : t.get? (step (destination [] front) c) with
  | none => exact Or.inr ⟨by simp, rfl⟩
  | some found =>
      cases found with
      | file old => exact Or.inr ⟨by simp, rfl⟩
      | directory entries => exact Or.inl ⟨⟨entries, rfl⟩, rfl⟩

/-- Nothing is written at a path that is refused. -/
theorem write_of_refused (h : refusal? q = some fault) (content : Bytes) :
    t.write q content = .error fault := by
  rw [write, locate_of_refused h]

end Locating

end FileTree

namespace Path
open FileTree

theorem components_sublist (p : Path) : p.components.Sublist p.pieces := by
  unfold components
  split
  · exact List.nil_sublist _
  · next first rest hp =>
      rw [hp]
      have hrest : (rest.filter (· != here)).Sublist rest := List.filter_sublist
      split
      · exact hrest.cons first
      · exact hrest.cons_cons first

/-- Components that stay where they are do not change where the others lead. -/
theorem destination_filter_here (at_ : Location) (components : List Bytes) :
    destination at_ (components.filter (· != here)) = destination at_ components := by
  induction components generalizing at_ with
  | nil => rfl
  | cons c rest ih =>
      by_cases hc : c = here
      · subst hc
        simpa [destination, step] using ih at_
      · simpa [destination, hc] using ih (step at_ c)

/-- A name in a path is one of its components, and the components before it lead the same way as
the pieces before it. -/
theorem components_append_cons {p : Path} {front back : List Bytes} {c : Bytes}
    (hp : p.pieces = front ++ c :: back) (hc : c ≠ here) :
    ∃ kept, p.components = kept ++ c :: back.filter (· != here) ∧ kept.Sublist front ∧
      (∀ location, location ∈ route [] kept ↔ location ∈ route [] front) ∧
      destination [] kept = destination [] front := by
  unfold components
  rw [hp]
  cases front with
  | nil => exact ⟨[], by simp [hc], List.nil_sublist _, fun _ => Iff.rfl, rfl⟩
  | cons first rest =>
      have hlast : (rest ++ c :: back).filter (· != here) =
          rest.filter (· != here) ++ c :: back.filter (· != here) := by
        simp [hc]
      have hrest : (rest.filter (· != here)).Sublist rest := List.filter_sublist
      dsimp only [List.cons_append]
      rw [hlast]
      by_cases hfirst : (first == here && p.isAbsolute) = true
      · obtain rfl : first = here := by
          rw [Bool.and_eq_true] at hfirst
          exact eq_of_beq hfirst.1
        have hstep : step [] here = [] := rfl
        refine ⟨rest.filter (· != here), by rw [if_pos hfirst], hrest.cons here,
          fun location => ?_, ?_⟩
        · rw [mem_route_filter_here, route, hstep, List.mem_cons]
          exact ⟨Or.inr, fun h => h.elim (fun he => he ▸ mem_route_self [] rest) id⟩
        · exact destination_filter_here [] rest
      · refine ⟨first :: rest.filter (· != here), by rw [if_neg hfirst]; rfl, hrest.cons_cons first,
          fun location => ?_, ?_⟩
        · rw [route, route, List.mem_cons, List.mem_cons, mem_route_filter_here]
        · exact destination_filter_here (step [] first) rest

end Path

end PointDriver

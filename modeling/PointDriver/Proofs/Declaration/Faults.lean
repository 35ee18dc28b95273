import PointDriver.Declaration.Json
import PointDriver.Proofs.Schema.Names

/-!
# What makes a list of names a declaration

A list of names is a declaration exactly when each name is legal and none occurs
twice. Of several faults, the first name that is not legal decides, whatever is
repeated before it, and only then the first repetition. The items of an array
are judged in the same order, where an item that is no text is a fault of its
own.
-/

namespace PointDriver

/-- The form of a name: a lower-case letter or an underscore, then lower-case letters,
digits and underscores, and more than one underscore alone. -/
def HasNameForm (name : String) : Prop :=
  name ≠ "_" ∧ ∃ first rest, name.toList = first :: rest ∧
    (('a' ≤ first ∧ first ≤ 'z') ∨ first = '_') ∧
    ∀ c ∈ rest, ('a' ≤ c ∧ c ≤ 'z') ∨ c = '_' ∨ ('0' ≤ c ∧ c ≤ '9')

/-- A name that a parameter can have. -/
structure IsLegalName (name : String) : Prop where
  spelled : HasNameForm name
  usable : name ∉ keywords
  free : name ∉ reservedNames

/-- What is wrong with a name, the first of four faults. -/
inductive NameFault : String → DeclarationError → Prop
  | empty : NameFault "" .emptyName
  | invalid {name : String} (filled : name ≠ "") (unspelled : ¬ HasNameForm name) :
      NameFault name (.invalidName name)
  | keyword {name : String} (spelled : HasNameForm name) (taken : name ∈ keywords) :
      NameFault name (.keyword name)
  | reserved {name : String} (spelled : HasNameForm name) (usable : name ∉ keywords)
      (taken : name ∈ reservedNames) : NameFault name (.reserved name)

theorem startsName_iff {c : Char} : startsName c = true ↔ ('a' ≤ c ∧ c ≤ 'z') ∨ c = '_' := by
  simp [startsName]

theorem continuesName_iff {c : Char} :
    continuesName c = true ↔ ('a' ≤ c ∧ c ≤ 'z') ∨ c = '_' ∨ ('0' ≤ c ∧ c ≤ '9') := by
  simp [continuesName, startsName, or_assoc]

theorem spellsName_iff {name : String} : spellsName name.toList = true ↔ HasNameForm name := by
  unfold HasNameForm
  cases hn : name.toList with
  | nil => simp [spellsName]
  | cons c rest =>
      have hunderscore : name = "_" ↔ c = '_' ∧ rest = [] := by
        have hlist : "_".toList = ['_'] := rfl
        rw [← String.toList_inj, hn, hlist]
        exact List.cons_eq_cons
      have halone : (!(c == '_' && rest.isEmpty)) = true ↔ name ≠ "_" := by
        rw [ne_eq, hunderscore, not_and_or]
        simp
      rw [spellsName, Bool.and_eq_true, Bool.and_eq_true, halone, startsName_iff,
        List.all_eq_true]
      simp only [continuesName_iff]
      constructor
      · rintro ⟨⟨hfirst, hrest⟩, hne⟩
        exact ⟨hne, c, rest, rfl, hfirst, hrest⟩
      · rintro ⟨hne, first, more, heq, hfirst, hrest⟩
        obtain ⟨rfl, rfl⟩ := List.cons.inj heq
        exact ⟨⟨hfirst, hrest⟩, hne⟩

theorem nameError?_eq_none_iff_isLegalName {name : String} :
    nameError? name = none ↔ IsLegalName name := by
  rw [nameError?_eq_none_iff, spellsName_iff]
  exact ⟨fun h => ⟨h.1, h.2.1, h.2.2⟩, fun h => ⟨h.spelled, h.usable, h.free⟩⟩

/-- The check of a name finds the fault that the name has. -/
theorem nameError?_eq_some_iff {name : String} {e : DeclarationError} :
    nameError? name = some e ↔ NameFault name e := by
  constructor
  · intro h
    unfold nameError? at h
    split at h
    · next hempty =>
        obtain rfl := Option.some.inj h
        obtain rfl : name = "" := by simpa using hempty
        exact .empty
    · next hfilled =>
        have hne : name ≠ "" := by simpa using hfilled
        split at h
        · next hs =>
            obtain rfl := Option.some.inj h
            have hform : ¬ HasNameForm name := fun hn => by simp [spellsName_iff.mpr hn] at hs
            exact .invalid hne hform
        · next hs =>
            have hform : HasNameForm name := spellsName_iff.mp (by simpa using hs)
            split at h
            · next hk =>
                obtain rfl := Option.some.inj h
                exact .keyword hform (by simpa using hk)
            · next hk =>
                split at h
                · next hr =>
                    obtain rfl := Option.some.inj h
                    exact .reserved hform (by simpa using hk) (by simpa using hr)
                · cases h
  · intro h
    have hfilled : ∀ {name}, HasNameForm name → name.toList.isEmpty = false := by
      rintro name ⟨-, c, rest, hn, -⟩
      rw [hn]
      rfl
    cases h with
    | empty => rfl
    | invalid hne hs =>
        have hbad : spellsName name.toList = false := by
          rw [← Bool.not_eq_true, spellsName_iff]
          exact hs
        simp [nameError?, hne, hbad]
    | keyword hs hk => simp [nameError?, hfilled hs, spellsName_iff.mpr hs, hk]
    | reserved hs hk hr => simp [nameError?, hfilled hs, spellsName_iff.mpr hs, hk, hr]

/-- New names without repetitions are passed over. -/
theorem repeatedAfter_append {seen before : List String} (hdistinct : before.Nodup)
    (hfresh : ∀ n ∈ before, n ∉ seen) (rest : List String) :
    repeatedAfter seen (before ++ rest) = repeatedAfter (before.reverse ++ seen) rest := by
  induction before generalizing seen with
  | nil => rfl
  | cons first before ih =>
      obtain ⟨hfirst, hbefore⟩ := List.nodup_cons.mp hdistinct
      obtain ⟨hnew, hmore⟩ := List.forall_mem_cons.mp hfresh
      have hnext : ∀ n ∈ before, n ∉ first :: seen := by
        intro n hn hm
        rcases List.mem_cons.mp hm with rfl | hm
        · exact hfirst hn
        · exact hmore n hn hm
      rw [List.cons_append, repeatedAfter, if_neg (by simpa using hnew), ih hbefore hnext]
      simp

/-- What is found equals a name before it or one that was seen, and nothing before it does. -/
theorem exists_of_repeatedAfter {seen names : List String} {name : String}
    (h : repeatedAfter seen names = some name) :
    ∃ before after, names = before ++ name :: after ∧ before.Nodup ∧
      (∀ n ∈ before, n ∉ seen) ∧ (name ∈ before ∨ name ∈ seen) := by
  induction names generalizing seen with
  | nil => simp [repeatedAfter] at h
  | cons first rest ih =>
      rw [repeatedAfter] at h
      split at h
      · next hs =>
          obtain rfl := Option.some.inj h
          exact ⟨[], rest, rfl, List.nodup_nil, List.forall_mem_nil _, Or.inr (by simpa using hs)⟩
      · next hs =>
          have hfirst : first ∉ seen := by simpa using hs
          obtain ⟨before, after, rfl, hdistinct, hfresh, hmem⟩ := ih h
          have hnew : first ∉ before := fun hm => hfresh first hm List.mem_cons_self
          refine ⟨first :: before, after, rfl, List.nodup_cons.mpr ⟨hnew, hdistinct⟩, ?_, ?_⟩
          · refine List.forall_mem_cons.mpr ⟨hfirst, fun n hn hm => ?_⟩
            exact hfresh n hn (List.mem_cons_of_mem first hm)
          · rcases hmem with hb | hs
            · exact Or.inl (List.mem_cons_of_mem first hb)
            · rcases List.mem_cons.mp hs with rfl | hs
              · exact Or.inl List.mem_cons_self
              · exact Or.inr hs

/-- The first repetition splits the list behind names that are distinct. -/
theorem repeatedAfter_nil_eq_some_iff {names : List String} {name : String} :
    repeatedAfter [] names = some name ↔
      ∃ before after, names = before ++ name :: after ∧ before.Nodup ∧ name ∈ before := by
  constructor
  · intro h
    obtain ⟨before, after, hsplit, hdistinct, -, hmem⟩ := exists_of_repeatedAfter h
    exact ⟨before, after, hsplit, hdistinct, hmem.resolve_right List.not_mem_nil⟩
  · rintro ⟨before, after, rfl, hdistinct, hmem⟩
    rw [repeatedAfter_append hdistinct fun _ _ => List.not_mem_nil, repeatedAfter,
      if_pos (by simpa using hmem)]

/-- The fault that decides about a list: that of the first name that is not legal, and if all
are, the first that equals one before it. -/
inductive FirstFault (names : List String) (e : DeclarationError) : Prop
  | name {before after : List String} {name : String} (split : names = before ++ name :: after)
      (legal : ∀ n ∈ before, IsLegalName n) (fault : NameFault name e) : FirstFault names e
  | repetition {before after : List String} {name : String}
      (legal : ∀ n ∈ names, IsLegalName n) (split : names = before ++ name :: after)
      (distinct : before.Nodup) (again : name ∈ before) (duplicate : e = .duplicate name) :
      FirstFault names e

namespace Declaration

/-- Legal names without repetitions are a declaration, with their order. -/
theorem ofNames_eq_ok_iff {names : List String} {d : Declaration} :
    ofNames names = .ok d ↔ (∀ n ∈ names, IsLegalName n) ∧ names.Nodup ∧ d.names = names := by
  constructor
  · intro h
    obtain rfl := names_of_ofNames h
    exact ⟨fun n hn => nameError?_eq_none_iff_isLegalName.mp (d.legal n hn), d.distinct, rfl⟩
  · rintro ⟨-, -, rfl⟩
    exact ofNames_names d

theorem ofNames_of_nameError {names : List String} {e : DeclarationError}
    (h : names.findSome? nameError? = some e) : ofNames names = .error e := by
  unfold ofNames
  split
  · next h' =>
      rw [h] at h'
      rw [Option.some.inj h']
  · next h' =>
      rw [h] at h'
      cases h'

theorem ofNames_of_legal {names : List String} (h : names.findSome? nameError? = none)
    {name : String} (hr : repeatedAfter [] names = some name) :
    ofNames names = .error (.duplicate name) := by
  unfold ofNames
  split
  · next h' =>
      rw [h] at h'
      cases h'
  · split
    · next h' =>
        rw [hr] at h'
        rw [Option.some.inj h']
    · next h' =>
        rw [hr] at h'
        cases h'

/-- A list that is no declaration is refused for the fault that decides about it. -/
theorem ofNames_eq_error_iff {names : List String} {e : DeclarationError} :
    ofNames names = .error e ↔ FirstFault names e := by
  constructor
  · intro h
    cases hn : names.findSome? nameError? with
    | some e' =>
        rw [ofNames_of_nameError hn] at h
        obtain rfl := Except.error.inj h
        obtain ⟨before, name, after, rfl, hfault, hlegal⟩ := List.findSome?_eq_some_iff.mp hn
        exact .name rfl (fun n hm => nameError?_eq_none_iff_isLegalName.mp (hlegal n hm))
          (nameError?_eq_some_iff.mp hfault)
    | none =>
        have hlegal : ∀ n ∈ names, IsLegalName n := fun n hm =>
          nameError?_eq_none_iff_isLegalName.mp (List.findSome?_eq_none_iff.mp hn n hm)
        cases hr : repeatedAfter [] names with
        | some name =>
            rw [ofNames_of_legal hn hr] at h
            obtain rfl := Except.error.inj h
            obtain ⟨before, after, rfl, hdistinct, hagain⟩ := repeatedAfter_nil_eq_some_iff.mp hr
            exact .repetition hlegal rfl hdistinct hagain rfl
        | none =>
            have hdistinct := ((repeatedAfter_eq_none_iff [] names).mp hr).1
            have hok : ofNames names = .ok ⟨names, List.findSome?_eq_none_iff.mp hn, hdistinct⟩ :=
              ofNames_eq_ok_iff.mpr ⟨hlegal, hdistinct, rfl⟩
            rw [hok] at h
            cases h
  · rintro (⟨hsplit, hlegal, hfault⟩ | ⟨hlegal, hsplit, hdistinct, hagain, rfl⟩)
    · apply ofNames_of_nameError
      apply List.findSome?_eq_some_iff.mpr
      exact ⟨_, _, _, hsplit, nameError?_eq_some_iff.mpr hfault,
        fun n hm => nameError?_eq_none_iff_isLegalName.mpr (hlegal n hm)⟩
    · apply ofNames_of_legal
      · exact List.findSome?_eq_none_iff.mpr fun n hm =>
          nameError?_eq_none_iff_isLegalName.mpr (hlegal n hm)
      · exact repeatedAfter_nil_eq_some_iff.mpr ⟨_, _, hsplit, hdistinct, hagain⟩

end Declaration

/-- What is wrong with an item of an array: it holds a name with a fault, or no text at all. -/
inductive ItemFault : Json → JsonError → Prop
  | name {name : String} {e : DeclarationError} (fault : NameFault name e) :
      ItemFault (.text name) (.rejected e)
  | type {item : Json} (other : ∀ name, item ≠ .text name) : ItemFault item (.notString item)

namespace Declaration

theorem nameOfJson_eq_ok_iff {item : Json} {name : String} :
    nameOfJson item = .ok name ↔ item = .text name ∧ IsLegalName name := by
  rw [← nameError?_eq_none_iff_isLegalName]
  cases item with
  | text t =>
      rw [nameOfJson]
      cases ht : nameError? t with
      | none =>
          simp only [Except.ok.injEq, Json.text.injEq]
          constructor
          · rintro rfl
            exact ⟨rfl, ht⟩
          · exact fun h => h.1
      | some e =>
          simp only [reduceCtorEq, Json.text.injEq, false_iff, not_and]
          rintro rfl
          rw [ht]
          exact Option.some_ne_none e
  | _ => simp [nameOfJson]

theorem nameOfJson_eq_error_iff {item : Json} {e : JsonError} :
    nameOfJson item = .error e ↔ ItemFault item e := by
  cases item with
  | text t =>
      constructor
      · intro h
        rw [nameOfJson] at h
        cases ht : nameError? t with
        | none =>
            rw [ht] at h
            cases h
        | some fault =>
            rw [ht] at h
            obtain rfl := Except.error.inj h
            exact .name (nameError?_eq_some_iff.mp ht)
      · rintro (hfault | hother)
        · rw [nameOfJson, nameError?_eq_some_iff.mpr hfault]
        · exact absurd rfl (hother t)
  | _ =>
      constructor
      · intro h
        obtain rfl := Except.error.inj h
        exact .type fun _ => nofun
      · rintro (_ | _)
        rfl

section Items
variable {item : Json} {items : List Json}

theorem mapM_nameOfJson_of_error {e : JsonError} (h : nameOfJson item = .error e) :
    (item :: items).mapM nameOfJson = .error e := by
  rw [List.mapM_cons, h]
  rfl

theorem mapM_nameOfJson_of_ok {name : String} (h : nameOfJson item = .ok name) :
    (item :: items).mapM nameOfJson = (items.mapM nameOfJson).map (name :: ·) := by
  rw [List.mapM_cons, h]
  cases items.mapM nameOfJson <;> rfl

/-- Legal names are taken, and the items behind them decide. -/
theorem mapM_nameOfJson_append {names : List String} (h : ∀ n ∈ names, IsLegalName n)
    (items : List Json) :
    (names.map Json.text ++ items).mapM nameOfJson = (items.mapM nameOfJson).map (names ++ ·) := by
  induction names with
  | nil =>
      simp only [List.map_nil, List.nil_append]
      cases items.mapM nameOfJson <;> rfl
  | cons name names ih =>
      obtain ⟨hname, hnames⟩ := List.forall_mem_cons.mp h
      have htext := nameOfJson_eq_ok_iff.mpr ⟨rfl, hname⟩
      rw [List.map_cons, List.cons_append, mapM_nameOfJson_of_ok htext, ih hnames]
      cases items.mapM nameOfJson <;> rfl

theorem mapM_nameOfJson_texts {names : List String} (h : ∀ n ∈ names, IsLegalName n) :
    (names.map Json.text).mapM nameOfJson = .ok names := by
  have hall := mapM_nameOfJson_append h []
  rw [List.append_nil] at hall
  rw [hall]
  simp [Except.map, pure, Except.pure]

theorem mapM_nameOfJson_fault {names : List String} (h : ∀ n ∈ names, IsLegalName n)
    {e : JsonError} (he : ItemFault item e) (after : List Json) :
    (names.map Json.text ++ item :: after).mapM nameOfJson = .error e := by
  rw [mapM_nameOfJson_append h, mapM_nameOfJson_of_error (nameOfJson_eq_error_iff.mpr he)]
  rfl

/-- Items are legal names throughout, or they are up to the first that has a fault. -/
theorem texts_or_fault (items : List Json) :
    (∃ names : List String, items = names.map .text ∧ ∀ n ∈ names, IsLegalName n) ∨
      ∃ (before : List String) (item : Json) (after : List Json) (e : JsonError),
        items = before.map .text ++ item :: after ∧ (∀ n ∈ before, IsLegalName n) ∧
          ItemFault item e := by
  induction items with
  | nil => exact Or.inl ⟨[], rfl, List.forall_mem_nil _⟩
  | cons item items ih =>
      cases hi : nameOfJson item with
      | error e =>
          exact Or.inr ⟨[], item, items, e, rfl, List.forall_mem_nil _,
            nameOfJson_eq_error_iff.mp hi⟩
      | ok name =>
          obtain ⟨rfl, hname⟩ := nameOfJson_eq_ok_iff.mp hi
          rcases ih with ⟨names, rfl, hnames⟩ | ⟨before, found, after, e, rfl, hbefore, he⟩
          · exact Or.inl ⟨name :: names, rfl, List.forall_mem_cons.mpr ⟨hname, hnames⟩⟩
          · exact Or.inr ⟨name :: before, found, after, e, rfl,
              List.forall_mem_cons.mpr ⟨hname, hbefore⟩, he⟩

/-- The items of an array are its names when each is a text and legal. -/
theorem mapM_nameOfJson_eq_ok_iff {names : List String} :
    items.mapM nameOfJson = .ok names ↔
      items = names.map .text ∧ ∀ n ∈ names, IsLegalName n := by
  constructor
  · intro h
    rcases texts_or_fault items with ⟨others, rfl, hlegal⟩ | ⟨before, item, after, e, rfl, hb, he⟩
    · obtain rfl := Except.ok.inj ((mapM_nameOfJson_texts hlegal).symm.trans h)
      exact ⟨rfl, hlegal⟩
    · rw [mapM_nameOfJson_fault hb he] at h
      cases h
  · rintro ⟨rfl, hlegal⟩
    exact mapM_nameOfJson_texts hlegal

/-- The first item that is no legal name decides. -/
theorem mapM_nameOfJson_eq_error_iff {e : JsonError} :
    items.mapM nameOfJson = .error e ↔
      ∃ (before : List String) (item : Json) (after : List Json),
        items = before.map .text ++ item :: after ∧ (∀ n ∈ before, IsLegalName n) ∧
          ItemFault item e := by
  constructor
  · intro h
    rcases texts_or_fault items with ⟨names, rfl, hlegal⟩ | ⟨before, item, after, e', rfl, hb, he⟩
    · rw [mapM_nameOfJson_texts hlegal] at h
      cases h
    · obtain rfl := Except.error.inj ((mapM_nameOfJson_fault hb he after).symm.trans h)
      exact ⟨before, item, after, rfl, hb, he⟩
  · rintro ⟨before, item, after, rfl, hlegal, hfault⟩
    exact mapM_nameOfJson_fault hlegal hfault after

end Items

theorem ofJson_of_items {items : List Json} {names : List String}
    (h : items.mapM nameOfJson = .ok names) :
    ofJson (.array items) = (ofNames names).mapError .rejected := by
  simp only [ofJson, h]

/-- An array is refused for its first item that is no legal name, and an array of legal names
for the first repetition. -/
theorem ofJson_array_eq_error_iff {items : List Json} {e : JsonError} :
    ofJson (.array items) = .error e ↔
      (∃ (before : List String) (item : Json) (after : List Json),
        items = before.map .text ++ item :: after ∧ (∀ n ∈ before, IsLegalName n) ∧
          ItemFault item e) ∨
      ∃ (names : List String) (fault : DeclarationError), items = names.map .text ∧
        (∀ n ∈ names, IsLegalName n) ∧ FirstFault names fault ∧ e = .rejected fault := by
  rw [← mapM_nameOfJson_eq_error_iff]
  cases hi : items.mapM nameOfJson with
  | error e' =>
      have hread : ofJson (.array items) = .error e' := by
        simp only [ofJson, hi]
      rw [hread]
      constructor
      · exact fun h => Or.inl (by rw [Except.error.inj h])
      · rintro (h | ⟨names, fault, hitems, hlegal, -⟩)
        · rw [Except.error.inj h]
        · rw [mapM_nameOfJson_eq_ok_iff.mpr ⟨hitems, hlegal⟩] at hi
          cases hi
  | ok names =>
      obtain ⟨rfl, hlegal⟩ := mapM_nameOfJson_eq_ok_iff.mp hi
      rw [ofJson_of_items hi]
      constructor
      · intro h
        cases hn : ofNames names with
        | ok d =>
            rw [hn] at h
            cases h
        | error fault =>
            rw [hn] at h
            obtain rfl := Except.error.inj h
            exact Or.inr ⟨names, fault, rfl, hlegal, ofNames_eq_error_iff.mp hn, rfl⟩
      · rintro (h | ⟨others, fault, hitems, -, hfault, rfl⟩)
        · cases h
        · obtain rfl := (List.map_inj_right fun _ _ => Json.text.inj).mp hitems
          rw [ofNames_eq_error_iff.mpr hfault]
          rfl

/-- The array of names is judged as the names are. -/
theorem ofJson_texts (names : List String) :
    ofJson (.array (names.map .text)) = (ofNames names).mapError .rejected := by
  cases hn : names.findSome? nameError? with
  | none =>
      have hlegal : ∀ n ∈ names, IsLegalName n := fun n hm =>
        nameError?_eq_none_iff_isLegalName.mp (List.findSome?_eq_none_iff.mp hn n hm)
      exact ofJson_of_items (mapM_nameOfJson_eq_ok_iff.mpr ⟨rfl, hlegal⟩)
  | some e =>
      rw [ofNames_of_nameError hn]
      obtain ⟨before, name, after, rfl, hfault, hlegal⟩ := List.findSome?_eq_some_iff.mp hn
      apply ofJson_array_eq_error_iff.mpr
      refine Or.inl ⟨before, .text name, after.map .text, by simp, ?_, .name ?_⟩
      · exact fun n hm => nameError?_eq_none_iff_isLegalName.mp (hlegal n hm)
      · exact nameError?_eq_some_iff.mp hfault

end Declaration

end PointDriver

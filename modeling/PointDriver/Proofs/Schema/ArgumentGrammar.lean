import PointDriver.Proofs.Schema.ItemReading
import PointDriver.Proofs.Schema.Presence

/-!
# The grammar of a driver's arguments

Reading succeeds exactly on the arguments that spell items, and what it answers
about an option is what the item of that name says. The order of the items and
the way in which each is written leave no trace in the answer.
-/

namespace PointDriver
open CommandLine

/-- What an item says: which option is used, and with which value. -/
def Item.use (i : Item) : String × Option String := (i.name, i.value?)

namespace Schema
variable {program : String} {d : Declaration} {items : List Item}

theorem has_occurrences {name : String} :
    (Reading.settled (items.map Item.occurrence)).has name = true ↔ ∃ i ∈ items, i.name = name := by
  simp [Reading.has, Reading.settled]

/-- With distinct names, the value of a name is the value of the item of that name. -/
theorem text?_occurrences (hd : (items.map Item.name).Nodup) {name value : String} :
    (Reading.settled (items.map Item.occurrence)).text? name = some value ↔
      ∃ i ∈ items, i.name = name ∧ i.value? = some value := by
  have hv : ∀ items : List Item,
      (Reading.settled (items.map Item.occurrence)).values name =
        (items.filter fun i => i.name == name).filterMap fun i => i.value?.map Utf8.encode := by
    intro items
    simp [Reading.values, Reading.settled, List.filter_map, List.filterMap_map, Function.comp_def,
      Item.occurrence_name]
    rfl
  rw [Reading.text?, hv]
  induction items with
  | nil => simp
  | cons i rest ih =>
      have hcons := List.nodup_cons.mp hd
      by_cases h : i.name = name
      · have hrest : rest.filter (fun j => j.name == name) = [] := by
          apply List.filter_eq_nil_iff.mpr
          intro j hj he
          apply hcons.1
          rw [h, ← eq_of_beq he]
          exact List.mem_map_of_mem hj
        have hother : ¬ ∃ j ∈ rest, j.name = name ∧ j.value? = some value := by
          rintro ⟨j, hj, he, -⟩
          exact hcons.1 (h ▸ he ▸ List.mem_map_of_mem hj)
        have hsplit : (∃ j ∈ i :: rest, j.name = name ∧ j.value? = some value) ↔
            i.value? = some value := by
          simp only [List.mem_cons, exists_eq_or_imp, hother, or_false, h, true_and]
        rw [hsplit, List.filter_cons_of_pos (by simpa using h), hrest]
        cases hi : i.value? with
        | none => simp [hi]
        | some v => simp [hi]
      · have hi : (i.name == name) = false := by simpa using h
        rw [List.filter_cons_of_neg (by simp [hi])]
        exact (ih hcons.2).trans (by simp [h])

/-- Arguments are accepted exactly when they spell items, and the options are then
collected from these. -/
theorem parse_eq_ok_iff {vector : List Bytes} {o : ParsedOptions} :
    (ofDeclaration program d).parse vector = .ok o ↔
      ∃ items, Spells d items vector.tail ∧
        o = (ofDeclaration program d).collect (.settled (items.map Item.occurrence)) := by
  simp only [parse, List.drop_one]
  cases hs : scanOptions (ofDeclaration program d).table vector.tail with
  | error e =>
      simp only [reduceCtorEq, false_iff]
      rintro ⟨items, hi, -⟩
      have hok : scanOptions (ofDeclaration program d).table vector.tail = .ok _ :=
        scanOptions_eq_ok_iff.mpr ⟨items, hi, rfl⟩
      simp [hs] at hok
  | ok r =>
      obtain ⟨items, hi, rfl⟩ := scanOptions_eq_ok_iff.mp hs
      constructor
      · intro h
        exact ⟨items, hi, (Except.ok.inj h).symm⟩
      · rintro ⟨others, ho, rfl⟩
        have hok : scanOptions (ofDeclaration program d).table vector.tail = .ok _ :=
          scanOptions_eq_ok_iff.mpr ⟨others, ho, rfl⟩
        rw [hs] at hok
        rw [Except.ok.inj hok]

theorem parse_of_spells {vector : List Bytes} (h : Spells d items vector.tail) :
    (ofDeclaration program d).parse vector =
      .ok ((ofDeclaration program d).collect (.settled (items.map Item.occurrence))) :=
  parse_eq_ok_iff.mpr ⟨items, h, rfl⟩

section Answers
variable {arguments : List Bytes}

theorem value?_of_spells (h : Spells d items arguments) {name value : String} :
    ((ofDeclaration program d).collect (.settled (items.map Item.occurrence))).value? name =
        some value ↔ ∃ i ∈ items, i.name = name ∧ i.value? = some value := by
  rw [value?_collect]
  split
  · exact text?_occurrences h.distinct
  · next hn =>
      simp only [reduceCtorEq, false_iff]
      rintro ⟨i, hi, rfl, hv⟩
      have hl := h.legal i hi
      cases i with
      | help => cases hv
      | attached name value => exact hn hl
      | separate name value => exact hn hl.1

theorem name_eq_helpName_iff (h : Spells d items arguments) {i : Item} (hi : i ∈ items) :
    i.name = helpName ↔ i = .help := by
  have hl := h.legal i hi
  cases i with
  | help => simp [Item.name]
  | attached name value =>
      simpa [Item.name] using d.ne_helpName_of_mem_valueNames hl
  | separate name value =>
      simpa [Item.name] using d.ne_helpName_of_mem_valueNames hl.1

theorem isPresent_of_spells (h : Spells d items arguments) {name : String} :
    ((ofDeclaration program d).collect (.settled (items.map Item.occurrence))).isPresent name =
        true ↔ ∃ i ∈ items, i.name = name := by
  have hvalue : ∀ value, ((ofDeclaration program d).collect
      (.settled (items.map Item.occurrence))).value? name = some value ↔
        ∃ i ∈ items, i.name = name ∧ i.value? = some value := fun value => value?_of_spells h
  rw [isPresent_collect_iff]
  constructor
  · rintro (⟨rfl, hh⟩ | ⟨value, hv⟩)
    · exact has_occurrences.mp hh
    · obtain ⟨i, hi, hn, -⟩ := (hvalue value).mp hv
      exact ⟨i, hi, hn⟩
  · rintro ⟨i, hi, hn⟩
    cases hv : i.value? with
    | some value => exact Or.inr ⟨value, (hvalue value).mpr ⟨i, hi, hn, hv⟩⟩
    | none =>
        have hh : i.name = helpName := by
          cases i with
          | help => rfl
          | attached name value => cases hv
          | separate name value => cases hv
        exact Or.inl ⟨hn.symm.trans hh, has_occurrences.mpr ⟨i, hi, hh⟩⟩

theorem help_of_spells (h : Spells d items arguments) :
    ((ofDeclaration program d).collect (.settled (items.map Item.occurrence))).help = true ↔
      .help ∈ items := by
  rw [ParsedOptions.help, isPresent_of_spells h]
  constructor
  · rintro ⟨i, hi, hn⟩
    exact (name_eq_helpName_iff h hi).mp hn ▸ hi
  · intro hm
    exact ⟨_, hm, rfl⟩

end Answers

/-- Which values a reading has, and so what is collected, is a matter of the uses alone. -/
theorem collect_eq_of_perm {others : List Item} (hd : (items.map Item.name).Nodup)
    (hp : (items.map Item.use).Perm (others.map Item.use)) :
    (ofDeclaration program d).collect (.settled (items.map Item.occurrence)) =
      (ofDeclaration program d).collect (.settled (others.map Item.occurrence)) := by
  have hnames : (items.map Item.name).Perm (others.map Item.name) := by
    have := hp.map Prod.fst
    simpa [Item.use, Function.comp_def] using this
  have huse : ∀ (list : List Item) (name value : String),
      (∃ i ∈ list, i.name = name ∧ i.value? = some value) ↔
        (name, some value) ∈ list.map Item.use := by
    intro list name value
    simp [Item.use]
  have hhas : (Reading.settled (items.map Item.occurrence)).has helpName =
      (Reading.settled (others.map Item.occurrence)).has helpName := by
    rw [Bool.eq_iff_iff, has_occurrences, has_occurrences]
    simpa only [List.mem_map] using hnames.mem_iff (a := helpName)
  have htext : (Reading.settled (items.map Item.occurrence)).text? =
      (Reading.settled (others.map Item.occurrence)).text? := by
    funext name
    apply Option.ext
    intro value
    rw [text?_occurrences hd, text?_occurrences (hnames.nodup_iff.mp hd),
      huse, huse]
    exact hp.mem_iff
  rw [collect_ofDeclaration, collect_ofDeclaration, hhas, htext]

/-- A driver accepts exactly the arguments that spell items. Help is asked for when an item
asks for it, a value is the one of the item of that name, and only the options of items
are present. Items that say the same in another order or writing are read alike. -/
theorem parse_spelled_items (d : Declaration) (program : String) (first : Bytes) :
    (∀ arguments, (∃ o, (ofDeclaration program d).parse (first :: arguments) = .ok o) ↔
        ∃ items, Spells d items arguments) ∧
      (∀ arguments items o, Spells d items arguments →
        (ofDeclaration program d).parse (first :: arguments) = .ok o →
        (o.help = true ↔ .help ∈ items) ∧
          (∀ name value, o.value? name = some value ↔
            ∃ i ∈ items, i.name = name ∧ i.value? = some value) ∧
          (∀ name, o.isPresent name = true ↔ ∃ i ∈ items, i.name = name)) ∧
      (∀ arguments rearranged items others, Spells d items arguments →
        Spells d others rearranged → (items.map Item.use).Perm (others.map Item.use) →
        (ofDeclaration program d).parse (first :: arguments) =
          (ofDeclaration program d).parse (first :: rearranged)) := by
  refine ⟨fun arguments => ?_, ?_, ?_⟩
  · constructor
    · rintro ⟨o, ho⟩
      obtain ⟨items, hi, -⟩ := parse_eq_ok_iff.mp ho
      exact ⟨items, hi⟩
    · rintro ⟨items, hi⟩
      have hfirst : Spells d items (first :: arguments).tail := hi
      exact ⟨_, parse_of_spells hfirst⟩
  · intro arguments items o hi ho
    have hfirst : Spells d items (first :: arguments).tail := hi
    rw [parse_of_spells hfirst] at ho
    obtain rfl := Except.ok.inj ho
    exact ⟨help_of_spells hi, fun _ _ => value?_of_spells hi, fun _ => isPresent_of_spells hi⟩
  · intro arguments rearranged items others hi ho hp
    have hfirst : Spells d items (first :: arguments).tail := hi
    have hsecond : Spells d others (first :: rearranged).tail := ho
    rw [parse_of_spells hfirst, parse_of_spells hsecond, collect_eq_of_perm hi.distinct hp]

/-- A negative number may follow its parameter, before a request for help and two dashes. -/
theorem parse_negative_number :
    ∃ o, (ofDeclaration "driver" (.single "alpha" (by decide))).parse
        [Utf8.encode "driver", Utf8.encode "--alpha", Utf8.encode "-2.5", Utf8.encode "--help",
          Utf8.encode "--"] = .ok o ∧
      o.help = true ∧ o.value? "alpha" = some "-2.5" ∧ o.isPresent outputDirName = false := by
  have hspells : Spells (.single "alpha" (by decide)) [.separate "alpha" "-2.5", .help]
      [Utf8.encode "--alpha", Utf8.encode "-2.5", Utf8.encode "--help", Utf8.encode "--"] := by
    refine ⟨?_, by decide, Or.inr (by decide)⟩
    intro i hi
    rcases List.mem_cons.mp hi with rfl | hi
    · refine ⟨by decide, Or.inr (Or.inr ⟨by decide, "2.5".toList, by decide, ?_⟩)⟩
      exact isNumberLike_iff.mp (by decide)
    · obtain rfl := List.mem_singleton.mp hi
      trivial
  obtain ⟨haccepted, hanswers, -⟩ := parse_spelled_items (.single "alpha" (by decide)) "driver"
    (Utf8.encode "driver")
  obtain ⟨o, ho⟩ := (haccepted _).mpr ⟨_, hspells⟩
  obtain ⟨hhelp, hvalue, hpresent⟩ := hanswers _ _ o hspells ho
  refine ⟨o, ho, hhelp.mpr (by decide), (hvalue _ _).mpr ⟨_, List.mem_cons_self, rfl, rfl⟩, ?_⟩
  rw [Bool.eq_false_iff]
  intro h
  obtain ⟨i, hi, hn⟩ := (hpresent _).mp h
  rcases List.mem_cons.mp hi with rfl | hi
  · exact absurd hn (by decide)
  · obtain rfl := List.mem_singleton.mp hi
    exact absurd hn (by decide)

end Schema

end PointDriver

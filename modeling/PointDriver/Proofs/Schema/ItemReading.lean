import Mathlib.Data.Nat.Init
import PointDriver.Proofs.Schema.Items

/-!
# Reading items

From a settled reading, arguments are read to their end exactly when they are
used up or when a legal item with a new name comes first and the arguments
behind it are read. Applying this step along the arguments gives all items.
-/

namespace PointDriver.Schema
open CommandLine

variable {program : String} {d : Declaration} {recorded : List Occurrence} {f : Reading}

theorem giveNamed_encode (r : Reading) (name : String) (attached : Option Bytes) :
    r.giveNamed (ofDeclaration program d).table (Utf8.encode name) attached = .ok f ↔
      name ∈ d.optionNames ∧ r.give (optionSpec name) attached = .ok f := by
  by_cases h : name ∈ d.optionNames <;> simp [Reading.giveNamed, named?_table, h]

section Words
variable {name : String} {arguments : List Bytes}

theorem ofBytes_dashes (h : name ∈ d.optionNames) :
    Word.ofBytes (Utf8.encode ("--" ++ name)) = .long (Utf8.encode name) none := by
  obtain ⟨hne, heq⟩ := encode_name (d.spellsName_of_mem_optionNames h)
  have hword : Word.ofBytes (dash :: dash :: (Utf8.encode name ++ attachment none)) =
      .long (Utf8.encode name) none := Word.ofBytes_long heq (Or.inl hne)
  rwa [attachment_none, List.append_nil, ← encode_dashes] at hword

theorem ofBytes_attached (h : name ∈ d.optionNames) (value : String) :
    Word.ofBytes (Utf8.encode ("--" ++ name ++ "=" ++ value)) =
      .long (Utf8.encode name) (some (Utf8.encode value)) := by
  obtain ⟨-, heq⟩ := encode_name (d.spellsName_of_mem_optionNames h)
  rw [encode_attached]
  exact Word.ofBytes_long heq (Or.inr (by simp))

/-- Reading an argument that names an option takes the option and goes on. -/
theorem readFrom_named {r : Reading} {a : Bytes} {attached : Option Bytes}
    (ha : Word.ofBytes a = .long (Utf8.encode name) attached) :
    readFrom (ofDeclaration program d).table r (a :: arguments) = .ok f ↔
      name ∈ d.optionNames ∧ ∃ r₁, r.give (optionSpec name) attached = .ok r₁ ∧
        readFrom (ofDeclaration program d).table r₁ arguments = .ok f := by
  rw [readFrom_long_eq_ok_iff ha]
  constructor
  · rintro ⟨r₁, hg, h⟩
    obtain ⟨hm, hs⟩ := (giveNamed_encode r name attached).mp hg
    exact ⟨hm, r₁, hs, h⟩
  · rintro ⟨hm, r₁, hs, h⟩
    exact ⟨r₁, (giveNamed_encode r name attached).mpr ⟨hm, hs⟩, h⟩

end Words

/-- After a name alone, an option with a value takes the next argument. -/
theorem readFrom_give_alone {name : String} (hn : name ∈ d.valueNames)
    {arguments : List Bytes} :
    (∃ r₁, (Reading.settled recorded).give (optionSpec name) none = .ok r₁ ∧
        readFrom (ofDeclaration program d).table r₁ arguments = .ok f) ↔
      ∃ value rest, arguments = Utf8.encode value :: rest ∧ StandsAlone d name value ∧
        (Reading.settled recorded).has name = false ∧
        readFrom (ofDeclaration program d).table
          (.settled (recorded ++ [(Item.separate name value).occurrence])) rest = .ok f := by
  have hs := takesText_optionSpec (d.ne_helpName_of_mem_valueNames hn)
  have ht := letterless_table program d
  have hspec := optionSpec_name name
  constructor
  · rintro ⟨r₁, hg, h⟩
    obtain rfl := (Reading.give_text_alone hs).mp hg
    obtain ⟨a, rest, rfl, hsep, h⟩ := (readFrom_awaiting_eq_ok_iff ht).mp h
    obtain ⟨r₂, hr, h⟩ := (readFrom_eq_ok_iff_settle ht Reading.waiting?_holding).mp h
    obtain ⟨hnew, ⟨value, rfl⟩, rfl⟩ := (Reading.settle_holding_eq_ok_iff hs).mp hr
    rw [hspec] at hnew
    exact ⟨value, rest, rfl, (separable_encode_iff hn).mp hsep, hnew, h⟩
  · rintro ⟨value, rest, rfl, hstands, hnew, h⟩
    refine ⟨_, (Reading.give_text_alone hs).mpr rfl, ?_⟩
    refine (readFrom_awaiting_eq_ok_iff ht).mpr
      ⟨_, rest, rfl, (separable_encode_iff hn).mpr hstands, ?_⟩
    refine (readFrom_eq_ok_iff_settle ht Reading.waiting?_holding).mpr ⟨_, ?_, h⟩
    rw [← hspec] at hnew
    exact (Reading.settle_holding_eq_ok_iff hs).mpr ⟨hnew, ⟨value, rfl⟩, rfl⟩

/-- Reading takes a legal item at the front if its name is new. -/
theorem readFrom_words {i : Item} (hi : i.Legal d)
    (hnew : (Reading.settled recorded).has i.name = false) (arguments : List Bytes) :
    readFrom (ofDeclaration program d).table (.settled recorded) (i.words ++ arguments) = .ok f ↔
      readFrom (ofDeclaration program d).table (.settled (recorded ++ [i.occurrence]))
        arguments = .ok f := by
  cases i with
  | help =>
      have hm : helpName ∈ d.optionNames := Item.name_mem_optionNames hi
      have hnew' : (Reading.settled recorded).has (optionSpec helpName).name = false := by
        rwa [optionSpec_name]
      simp only [Item.words, List.singleton_append, readFrom_named (ofBytes_dashes hm),
        Reading.give_flag_alone optionSpec_help]
      constructor
      · rintro ⟨-, r₁, ⟨-, rfl⟩, h⟩
        exact h
      · intro h
        exact ⟨hm, _, ⟨hnew', rfl⟩, h⟩
  | attached name value =>
      have hm : name ∈ d.optionNames := Item.name_mem_optionNames hi
      have hs := takesText_optionSpec (d.ne_helpName_of_mem_valueNames hi)
      have hnew' : (Reading.settled recorded).has (optionSpec name).name = false := by
        rwa [optionSpec_name]
      simp only [Item.words, List.singleton_append, readFrom_named (ofBytes_attached hm value),
        Reading.give_text_attached hs]
      constructor
      · rintro ⟨-, r₁, ⟨-, -, rfl⟩, h⟩
        exact h
      · intro h
        exact ⟨hm, _, ⟨hnew', ⟨value, rfl⟩, rfl⟩, h⟩
  | separate name value =>
      have hm : name ∈ d.optionNames := Item.name_mem_optionNames hi
      simp only [Item.words, List.cons_append, List.nil_append,
        readFrom_named (ofBytes_dashes hm), readFrom_give_alone hi.1]
      constructor
      · rintro ⟨-, value', rest, h, -, -, hf⟩
        obtain ⟨hv, rfl⟩ := List.cons.inj h
        rwa [Utf8.encode_inj.mp hv]
      · intro h
        exact ⟨hm, value, arguments, rfl, hi.2, hnew, h⟩

/-- An option that is named at the front, and taken, is the first part of a legal item. -/
theorem item_of_give {name : String} {attached : Option Bytes} {arguments : List Bytes}
    {r₁ : Reading} (hm : name ∈ d.optionNames)
    (hg : (Reading.settled recorded).give (optionSpec name) attached = .ok r₁)
    (hr : readFrom (ofDeclaration program d).table r₁ arguments = .ok f) :
    ∃ i rest, Item.Legal d i ∧
      (dash :: dash :: (Utf8.encode name ++ attachment attached)) :: arguments =
          i.words ++ rest ∧
        (Reading.settled recorded).has i.name = false := by
  have hspec := optionSpec_name name
  by_cases hh : name = helpName
  · subst hh
    cases attached with
    | some value => exact absurd hg (Reading.give_flag_attached_ne_ok optionSpec_help)
    | none =>
        obtain ⟨hnew, -⟩ := (Reading.give_flag_alone optionSpec_help).mp hg
        rw [hspec] at hnew
        refine ⟨.help, arguments, trivial, ?_, hnew⟩
        rw [Item.words, encode_dashes, attachment_none, List.append_nil]
        rfl
  · have hv : name ∈ d.valueNames := (List.mem_cons.mp hm).resolve_left hh
    cases attached with
    | some value =>
        obtain ⟨hnew, ⟨text, rfl⟩, -⟩ :=
          (Reading.give_text_attached (takesText_optionSpec hh)).mp hg
        rw [hspec] at hnew
        refine ⟨.attached name text, arguments, hv, ?_, hnew⟩
        rw [Item.words, encode_attached]
        rfl
    | none =>
        obtain ⟨value, rest, rfl, hstands, hnew, -⟩ := (readFrom_give_alone hv).mp ⟨r₁, hg, hr⟩
        refine ⟨.separate name value, rest, ⟨hv, hstands⟩, ?_, hnew⟩
        rw [Item.words, encode_dashes, attachment_none, List.append_nil]
        rfl

/-- Arguments that are read to their end are used up, or a legal item comes first. -/
theorem item_of_readFrom {arguments : List Bytes}
    (h : readFrom (ofDeclaration program d).table (.settled recorded) arguments = .ok f) :
    (arguments = [] ∨ arguments = [Utf8.encode "--"]) ∧ f = .settled recorded ∨
      ∃ i rest, Item.Legal d i ∧ arguments = i.words ++ rest ∧
        (Reading.settled recorded).has i.name = false := by
  cases arguments with
  | nil =>
      rw [readFrom_nil, Reading.settle_settled] at h
      exact Or.inl ⟨Or.inl rfl, (Except.ok.inj h).symm⟩
  | cons a rest =>
      cases ha : Word.ofBytes a with
      | escape =>
          obtain rfl := Word.ofBytes_eq_escape_iff.mp ha
          obtain ⟨rfl, hr⟩ := readFrom_escape_eq_ok_iff.mp h
          rw [Reading.settle_settled] at hr
          exact Or.inl ⟨Or.inr (by rw [encode_escape]), (Except.ok.inj hr).symm⟩
      | letters letters =>
          exact absurd h (readFrom_letters_ne_ok (letterless_table program d) ha
            (takesNumber_of_waiting? Reading.waiting?_settled letters))
      | plain => exact absurd h (readFrom_plain_ne_ok ha Reading.waiting?_settled)
      | long bytes attached =>
          right
          have hbytes : ∃ name, bytes = Utf8.encode name := by
            obtain ⟨r₁, hg, -⟩ := (readFrom_long_eq_ok_iff ha).mp h
            cases hd : Utf8.decode? bytes with
            | none => simp [Reading.giveNamed, hd] at hg
            | some name => exact ⟨name, Utf8.decode?_eq_some_iff.mp hd⟩
          obtain ⟨name, rfl⟩ := hbytes
          obtain ⟨hm, r₁, hg, hr⟩ := (readFrom_named ha).mp h
          rw [(Word.ofBytes_eq_long_iff.mp ha).1]
          exact item_of_give hm hg hr

theorem has_settled_append {name : String} {i : Item} :
    (Reading.settled (recorded ++ [i.occurrence])).has name = false ↔
      (Reading.settled recorded).has name = false ∧ i.name ≠ name := by
  simp [Reading.has, Reading.settled]

/-- Names are new after an item exactly when they were new before and differ from its name. -/
theorem fresh_append_iff {items : List Item} {i : Item} :
    (∀ j ∈ items, (Reading.settled (recorded ++ [i.occurrence])).has j.name = false) ↔
      (∀ j ∈ items, (Reading.settled recorded).has j.name = false) ∧
        i.name ∉ items.map Item.name := by
  simp only [has_settled_append]
  constructor
  · intro h
    refine ⟨fun j hj => (h j hj).1, fun hm => ?_⟩
    obtain ⟨j, hj, he⟩ := List.mem_map.mp hm
    exact (h j hj).2 he.symm
  · rintro ⟨hfresh, hn⟩ j hj
    exact ⟨hfresh j hj, fun he => hn (he ▸ List.mem_map_of_mem hj)⟩

/-- The arguments read from a settled reading spell legal items with new and distinct names,
and these are recorded in order. -/
theorem readFrom_settled_eq_ok_iff {arguments : List Bytes} :
    readFrom (ofDeclaration program d).table (.settled recorded) arguments = .ok f ↔
      ∃ items, Spells d items arguments ∧
        (∀ i ∈ items, (Reading.settled recorded).has i.name = false) ∧
        f = .settled (recorded ++ items.map Item.occurrence) := by
  constructor
  · intro h
    induction hl : arguments.length using Nat.strong_induction_on
      generalizing arguments recorded with
    | _ n ih =>
        rcases item_of_readFrom h with ⟨hargs, rfl⟩ | ⟨i, rest, hi, rfl, hnew⟩
        · exact ⟨[], spells_nil_iff.mpr hargs, by simp, by simp⟩
        · have hlt : rest.length < n := by
            have hpos := List.length_pos_iff.mpr i.words_ne_nil
            rw [← hl, List.length_append]
            omega
          obtain ⟨items, hs, hfresh, rfl⟩ := ih rest.length hlt
            ((readFrom_words hi hnew rest).mp h) rfl
          obtain ⟨hold, hn⟩ := fresh_append_iff.mp hfresh
          refine ⟨i :: items, spells_cons_iff.mpr ⟨rest, rfl, hi, hn, hs⟩, ?_, by simp⟩
          exact List.forall_mem_cons.mpr ⟨hnew, hold⟩
  · rintro ⟨items, hs, hfresh, rfl⟩
    induction items generalizing arguments recorded with
    | nil =>
        rcases spells_nil_iff.mp hs with rfl | rfl
        · simp
        · simp [encode_escape, readFrom_escape_eq_ok_iff]
    | cons i items ih =>
        obtain ⟨rest, rfl, hi, hn, hs⟩ := spells_cons_iff.mp hs
        obtain ⟨hnew, hold⟩ := List.forall_mem_cons.mp hfresh
        have hrest := ih hs (fresh_append_iff.mpr ⟨hold, hn⟩)
        rw [readFrom_words hi hnew]
        simpa using hrest

/-- Reading a driver's arguments succeeds exactly on spelled items and records them all. -/
theorem scanOptions_eq_ok_iff {arguments : List Bytes} :
    scanOptions (ofDeclaration program d).table arguments = .ok f ↔
      ∃ items, Spells d items arguments ∧ f = .settled (items.map Item.occurrence) := by
  have h : readFrom (ofDeclaration program d).table (.settled []) arguments = .ok f ↔ _ :=
    readFrom_settled_eq_ok_iff
  simpa [scanOptions_eq_readFrom, Reading.has, Reading.settled, Reading.start] using h

end PointDriver.Schema

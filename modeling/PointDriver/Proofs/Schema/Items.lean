import PointDriver.Proofs.CommandLine.NumberShape
import PointDriver.Proofs.Schema.Names

/-!
# The items of a driver's command line

A command line is a list of items: the request for help, and values that are
attached to a name or stand in an argument of their own. The items say nothing
about the state of a reader; reading succeeds exactly on what they spell.
-/

namespace PointDriver
open CommandLine

/-- One use of an option. -/
inductive Item where
  | help
  /-- The value stands behind an equals sign. -/
  | attached (name value : String)
  /-- The value is an argument of its own. -/
  | separate (name value : String)
  deriving DecidableEq, Repr

/-- A value may stand alone unless it could be taken for an option: it starts with no
dash, or it is the dash, or it is a negative number for a parameter. -/
def StandsAlone (d : Declaration) (name value : String) : Prop :=
  value.toList.head? ≠ some '-' ∨ value = "-" ∨
    name ∈ d.names ∧ ∃ number, value.toList = '-' :: number ∧ NumberShaped number

namespace Item

def name : Item → String
  | help => helpName
  | attached name _ | separate name _ => name

def value? : Item → Option String
  | help => none
  | attached _ value | separate _ value => some value

/-- The arguments that an item consists of. -/
def words : Item → List Bytes
  | help => [Utf8.encode ("--" ++ helpName)]
  | attached name value => [Utf8.encode ("--" ++ name ++ "=" ++ value)]
  | separate name value => [Utf8.encode ("--" ++ name), Utf8.encode value]

/-- The names and the values that a declaration admits. -/
def Legal (d : Declaration) : Item → Prop
  | help => True
  | attached name _ => name ∈ d.valueNames
  | separate name value => name ∈ d.valueNames ∧ StandsAlone d name value

/-- What reading records about an item. -/
def occurrence (i : Item) : Occurrence :=
  ⟨Schema.optionSpec i.name, i.value?.map Utf8.encode⟩

@[simp] theorem occurrence_name (i : Item) : i.occurrence.option.name = i.name :=
  Schema.optionSpec_name i.name

theorem words_ne_nil (i : Item) : i.words ≠ [] := by
  cases i <;> simp [words]

theorem name_mem_optionNames {d : Declaration} {i : Item} (h : i.Legal d) :
    i.name ∈ d.optionNames := by
  cases i with
  | help => exact List.mem_cons_self
  | attached name value => exact List.mem_cons_of_mem _ h
  | separate name value => exact List.mem_cons_of_mem _ h.1

end Item

/-- The arguments spell legal items in order, no option twice, perhaps with two dashes
alone at the end. -/
structure Spells (d : Declaration) (items : List Item) (arguments : List Bytes) : Prop where
  legal : ∀ i ∈ items, i.Legal d
  distinct : (items.map Item.name).Nodup
  words : arguments = items.flatMap Item.words ∨
    arguments = items.flatMap Item.words ++ [Utf8.encode "--"]

theorem spells_nil_iff {d : Declaration} {arguments : List Bytes} :
    Spells d [] arguments ↔ arguments = [] ∨ arguments = [Utf8.encode "--"] := by
  constructor
  · intro h
    simpa using h.words
  · intro h
    exact ⟨by simp, by simp, by simpa using h⟩

/-- The first item of a list is spelled at the front, and the others behind it. -/
theorem spells_cons_iff {d : Declaration} {i : Item} {items : List Item} {arguments : List Bytes} :
    Spells d (i :: items) arguments ↔
      ∃ rest, arguments = i.words ++ rest ∧ i.Legal d ∧ i.name ∉ items.map Item.name ∧
        Spells d items rest := by
  constructor
  · intro h
    obtain ⟨hi, hlegal⟩ := List.forall_mem_cons.mp h.legal
    obtain ⟨hn, hdistinct⟩ := List.nodup_cons.mp h.distinct
    rcases h.words with hw | hw
    · exact ⟨items.flatMap Item.words, hw, hi, hn, hlegal, hdistinct, Or.inl rfl⟩
    · exact ⟨items.flatMap Item.words ++ [Utf8.encode "--"], by simp [hw], hi, hn, hlegal,
        hdistinct, Or.inr rfl⟩
  · rintro ⟨rest, rfl, hi, hn, hs⟩
    refine ⟨List.forall_mem_cons.mpr ⟨hi, hs.legal⟩, List.nodup_cons.mpr ⟨hn, hs.distinct⟩, ?_⟩
    rcases hs.words with hw | hw
    · exact Or.inl (by simp [hw])
    · exact Or.inr (by simp [hw])

section Bytes

theorem encode_escape : Utf8.encode "--" = [dash, dash] := by decide

theorem encode_dashes (s : String) :
    Utf8.encode ("--" ++ s) = dash :: dash :: Utf8.encode s := by
  rw [Utf8.encode_append, encode_escape]
  rfl

theorem encode_attached (name value : String) :
    Utf8.encode ("--" ++ name ++ "=" ++ value) =
      dash :: dash :: (Utf8.encode name ++ attachment (some (Utf8.encode value))) := by
  have h : Utf8.encode "=" = [equals] := by decide
  rw [Utf8.encode_append, Utf8.encode_append, encode_dashes, h]
  simp

theorem head?_encode_dash (value : String) :
    (Utf8.encode value).head? = some dash ↔ value.toList.head? = some '-' :=
  Utf8.head?_encodeChars (a := '-') (by decide) value.toList

theorem encode_eq_dash_iff {value : String} : Utf8.encode value = [dash] ↔ value = "-" := by
  have h : Utf8.encode "-" = [dash] := by decide
  rw [← h, Utf8.encode_inj]

theorem encode_dash (s : String) : Utf8.encode ("-" ++ s) = dash :: Utf8.encode s := by
  have h : Utf8.encode "-" = [dash] := by decide
  rw [Utf8.encode_append, h]
  rfl

/-- A text whose bytes start with a dash starts with that character, and the rest follows. -/
theorem toList_of_encode_dash {value rest : String}
    (h : Utf8.encode value = dash :: Utf8.encode rest) : value.toList = '-' :: rest.toList := by
  rw [← encode_dash, Utf8.encode_inj] at h
  simp [h]

end Bytes

namespace Schema
variable {d : Declaration} {name : String}

theorem takesNumber_optionSpec_iff (hn : name ∈ d.valueNames) {letters : Bytes} :
    takesNumber (.awaiting [] (optionSpec name)) letters = true ↔
      name ∈ d.names ∧ ∃ number, letters = Utf8.encode number ∧ NumberShaped number.toList := by
  have hne := d.ne_helpName_of_mem_valueNames hn
  have hmem : name ≠ outputDirName ↔ name ∈ d.names :=
    ⟨fun h => (List.mem_cons.mp hn).resolve_left h, d.ne_outputDirName⟩
  have hdecode : ((Utf8.decode? letters).map fun s => isNumberLike s.toList).getD false = true ↔
      ∃ number, letters = Utf8.encode number ∧ NumberShaped number.toList := by
    cases hd : Utf8.decode? letters with
    | none =>
        simp only [Option.map_none, Option.getD_none, Bool.false_eq_true, false_iff]
        rintro ⟨number, rfl, -⟩
        simp at hd
    | some text =>
        obtain rfl := Utf8.decode?_eq_some_iff.mp hd
        simp [isNumberLike_iff]
  simp only [takesNumber, Reading.waiting?_awaiting, valueOf_optionSpec_numeric hne,
    Bool.and_eq_true, hdecode, ← hmem]
  simp

/-- The arguments that a waiting option takes are the texts that may stand alone. -/
theorem separable_encode_iff (hn : name ∈ d.valueNames) {value : String} :
    Separable (optionSpec name) (Utf8.encode value) ↔ StandsAlone d name value := by
  simp only [Separable, Word.ofBytes_eq_plain_iff, encode_eq_dash_iff,
    takesNumber_optionSpec_iff hn, Word.ofBytes_eq_letters_iff, StandsAlone, Ne,
    head?_encode_dash]
  constructor
  · rintro ((h | h) | ⟨letters, ⟨hv, -, -⟩, hmem, number, rfl, hs⟩)
    · exact Or.inr (Or.inl h)
    · exact Or.inl h
    · exact Or.inr (Or.inr ⟨hmem, number.toList, toList_of_encode_dash hv, hs⟩)
  · rintro (h | h | ⟨hmem, number, hv, hs⟩)
    · exact Or.inl (Or.inr h)
    · exact Or.inl (Or.inl h)
    · refine Or.inr ⟨Utf8.encodeChars number, ⟨?_, ?_, ?_⟩, hmem, String.ofList number, ?_, ?_⟩
      · rw [Utf8.encode, hv, Utf8.encodeChars_cons, Utf8.utf8EncodeChar_ascii (by decide)]
        rfl
      · obtain ⟨c, rest, rfl⟩ := List.exists_cons_of_ne_nil hs.nonempty
        simp [String.utf8EncodeChar_ne_nil]
      · have hh : (Utf8.encode (String.ofList number)).head? = some dash ↔
            number.head? = some '-' := by
          simpa using head?_encode_dash (String.ofList number)
        simp only [Utf8.encode, String.toList_ofList] at hh
        rw [hh]
        intro hc
        rcases hs.alphabet '-' (List.mem_of_mem_head? hc) with h | h | h
        · exact absurd h (by decide)
        · exact absurd h (by decide)
        · exact absurd h (by decide)
      · simp [Utf8.encode]
      · simpa using hs

end Schema

end PointDriver

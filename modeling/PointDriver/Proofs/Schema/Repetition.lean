import Mathlib.Data.List.Induction
import Mathlib.Data.List.Nodup
import PointDriver.Proofs.Schema.ItemReading

/-!
# Options given more than once

Legal items may follow each other in any number. Reading goes through them up to
the first item whose option was given before, and that option is then the fault,
whatever comes later. A value in an argument of its own is checked only when the
next option comes, so each step is stated for arguments that begin by settling.
-/

namespace PointDriver

/-- Items without distinct names have a first one whose name came before. -/
theorem Item.exists_repetition {items : List Item} (h : ¬ (items.map Item.name).Nodup) :
    ∃ before i after, items = before ++ i :: after ∧ (before.map Item.name).Nodup ∧
      i.name ∈ before.map Item.name := by
  -- From the end: the last item is the repetition unless there is one before it.
  induction items using List.reverseRecOn with
  | nil => exact absurd List.nodup_nil h
  | append_singleton items i ih =>
      by_cases hd : (items.map Item.name).Nodup
      · refine ⟨items, i, [], rfl, hd, ?_⟩
        by_contra hn
        apply h
        rw [List.map_append, List.map_singleton]
        exact hd.append (List.nodup_singleton _) (List.disjoint_singleton.mpr hn)
      · obtain ⟨before, j, after, rfl, hb, hj⟩ := ih hd
        exact ⟨before, j, after ++ [i], by simp, hb, hj⟩

namespace CommandLine

namespace Reading
variable {r : Reading} {s : Spec} {recorded : List Occurrence}

/-- An option that is named settles the reading first and fails if that fails. -/
theorem give_eq_bind_settle {attached : Option Bytes}
    (h : attached = none ∨ (valueOf s).isSome = true) :
    r.give s attached = r.settle.bind fun r₀ => r₀.give s attached := by
  cases hr : r.settle with
  | error e =>
      cases hv : valueOf s <;> cases attached <;>
        simp_all [give, bind, Except.bind]
  | ok r₀ =>
      have h₀ := settle_of_pending (pending_of_settle hr)
      cases hv : valueOf s <;> cases attached <;>
        simp_all [give, bind, Except.bind]

/-- A text is recorded unless its option was given before. -/
theorem record_text (hs : s.TakesText) (value : String) :
    (settled recorded).record ⟨s, some (Utf8.encode value)⟩ =
      if (settled recorded).has s.name then .error (.repeatedOption s)
      else .ok (settled (recorded ++ [⟨s, some (Utf8.encode value)⟩])) := by
  cases hh : (settled recorded).has s.name with
  | true =>
      obtain ⟨v, hrole, -, hrepeats⟩ := hs
      simp [record, hh, mayRepeat, valueOf, hrole, hrepeats]
  | false => exact (record_eq_ok_iff hs none).mpr ⟨hh, ⟨value, rfl⟩, rfl⟩

theorem settle_holding (value : Bytes) :
    (holding recorded s value).settle = (settled recorded).record ⟨s, some value⟩ := rfl

/-- A flag is recorded unless it was given before. -/
theorem give_flag (hs : s.role = .flag) :
    (settled recorded).give s none =
      if (settled recorded).has s.name then .error (.repeatedOption s)
      else .ok (settled (recorded ++ [⟨s, none⟩])) := by
  cases hh : (settled recorded).has s.name with
  | true =>
      have hv : valueOf s = none := by simp [valueOf, hs]
      simp [give, hv, hs, hh, bind, Except.bind]
  | false => exact (give_flag_alone hs).mpr ⟨hh, rfl⟩

end Reading

/-- Arguments before which it makes no difference whether the reading is settled. -/
def Settling (table : List Spec) (arguments : List Bytes) : Prop :=
  ∀ r : Reading, readFrom table r arguments =
    r.settle.bind fun r₀ => readFrom table r₀ arguments

section Settling
variable {table : List Spec}

theorem settle_bind_settle (r : Reading) : (r.settle.bind fun r₀ => r₀.settle) = r.settle := by
  cases hr : r.settle with
  | error e => rfl
  | ok r₀ => exact Reading.settle_of_pending (Reading.pending_of_settle hr)

theorem settling_nil : Settling table [] := fun r => (settle_bind_settle r).symm

theorem settling_escape : Settling table [[dash, dash]] := fun r => (settle_bind_settle r).symm

end Settling

end CommandLine

namespace Schema
open CommandLine

variable {program : String} {d : Declaration} {recorded : List Occurrence}

theorem giveNamed_optionSpec {name : String} (hn : name ∈ d.optionNames) (r : Reading)
    (attached : Option Bytes) :
    r.giveNamed (ofDeclaration program d).table (Utf8.encode name) attached =
      r.give (optionSpec name) attached := by
  simp [Reading.giveNamed, named?_table, hn]

/-- Reading an argument that names an option, whether or not it goes well. -/
theorem readFrom_option {name : String} (hn : name ∈ d.optionNames) {a : Bytes}
    {attached : Option Bytes} (ha : Word.ofBytes a = .long (Utf8.encode name) attached)
    (r : Reading) (rest : List Bytes) :
    readFrom (ofDeclaration program d).table r (a :: rest) =
      (r.give (optionSpec name) attached).bind
        fun r₁ => readFrom (ofDeclaration program d).table r₁ rest := by
  rw [readFrom_cons, ha]
  simp only [giveNamed_optionSpec hn]

/-- An option with a value that is named alone waits for its value. -/
theorem readFrom_alone {name : String} (hn : name ∈ d.valueNames) (recorded : List Occurrence)
    (rest : List Bytes) :
    readFrom (ofDeclaration program d).table (.settled recorded)
        (Utf8.encode ("--" ++ name) :: rest) =
      readFrom (ofDeclaration program d).table (.awaiting recorded (optionSpec name)) rest := by
  have hm : name ∈ d.optionNames := List.mem_cons_of_mem _ hn
  have htext := takesText_optionSpec (d.ne_helpName_of_mem_valueNames hn)
  rw [readFrom_option hm (ofBytes_dashes hm), (Reading.give_text_alone htext).mpr rfl]
  rfl

theorem settling_option {name : String} (hn : name ∈ d.optionNames) {a : Bytes}
    {attached : Option Bytes} (ha : Word.ofBytes a = .long (Utf8.encode name) attached)
    (hv : attached = none ∨ name ≠ helpName) (rest : List Bytes) :
    Settling (ofDeclaration program d).table (a :: rest) := by
  intro r
  have hspec : attached = none ∨ (Reading.valueOf (optionSpec name)).isSome = true := by
    refine hv.imp_right fun hne => ?_
    obtain ⟨v, hrole, -⟩ := takesText_optionSpec hne
    simp [Reading.valueOf, hrole]
  simp only [readFrom_option hn ha]
  rw [Reading.give_eq_bind_settle hspec]
  cases r.settle <;> rfl

theorem settling_words {i : Item} (hi : i.Legal d) (rest : List Bytes) :
    Settling (ofDeclaration program d).table (i.words ++ rest) := by
  have hn := Item.name_mem_optionNames hi
  cases i with
  | help => exact settling_option hn (ofBytes_dashes hn) (Or.inl rfl) rest
  | attached name value =>
      exact settling_option hn (ofBytes_attached hn value)
        (Or.inr (d.ne_helpName_of_mem_valueNames hi)) rest
  | separate name value =>
      exact settling_option hn (ofBytes_dashes hn) (Or.inl rfl) (Utf8.encode value :: rest)

/-- After a name alone, a value that may stand alone is held until it is settled. -/
theorem readFrom_holding {name value : String} (hn : name ∈ d.valueNames)
    (hv : StandsAlone d name value) (rest : List Bytes) :
    readFrom (ofDeclaration program d).table (.awaiting recorded (optionSpec name))
        (Utf8.encode value :: rest) =
      readFrom (ofDeclaration program d).table
        (.holding recorded (optionSpec name) (Utf8.encode value)) rest := by
  rcases (separable_encode_iff hn).mpr hv with hp | ⟨letters, hl, ht⟩
  · exact readFrom_awaiting_plain hp
  · exact readFrom_awaiting_letters hl ht

/-- One legal item is read and recorded, unless its option was given before. -/
theorem readFrom_item {i : Item} (hi : i.Legal d) {rest : List Bytes}
    (hrest : Settling (ofDeclaration program d).table rest) :
    readFrom (ofDeclaration program d).table (.settled recorded) (i.words ++ rest) =
      if (Reading.settled recorded).has i.name then .error (.repeatedOption (optionSpec i.name))
      else readFrom (ofDeclaration program d).table
        (.settled (recorded ++ [i.occurrence])) rest := by
  have hspec := optionSpec_name i.name
  cases i with
  | help =>
      have hn : helpName ∈ d.optionNames := Item.name_mem_optionNames hi
      rw [Item.name] at hspec ⊢
      rw [Item.words, List.singleton_append, readFrom_option hn (ofBytes_dashes hn),
        Reading.give_flag optionSpec_help, hspec]
      split <;> rfl
  | attached name value =>
      have hn : name ∈ d.optionNames := Item.name_mem_optionNames hi
      have htext := takesText_optionSpec (d.ne_helpName_of_mem_valueNames hi)
      have hgive : (Reading.settled recorded).give (optionSpec name) (some (Utf8.encode value)) =
          (Reading.settled recorded).record ⟨optionSpec name, some (Utf8.encode value)⟩ := by
        obtain ⟨v, hrole, -⟩ := htext
        simp [Reading.give, Reading.valueOf, hrole, bind, Except.bind]
      rw [Item.name] at hspec ⊢
      rw [Item.words, List.singleton_append, readFrom_option hn (ofBytes_attached hn value), hgive,
        Reading.record_text htext, hspec]
      split <;> rfl
  | separate name value =>
      have hn : name ∈ d.optionNames := Item.name_mem_optionNames hi
      have htext := takesText_optionSpec (d.ne_helpName_of_mem_valueNames hi.1)
      have hgive : (Reading.settled recorded).give (optionSpec name) none =
          .ok (.awaiting recorded (optionSpec name)) :=
        (Reading.give_text_alone htext).mpr rfl
      rw [Item.name] at hspec ⊢
      rw [Item.words, List.cons_append, List.singleton_append,
        readFrom_option hn (ofBytes_dashes hn)]
      -- The value is held until what follows settles it; only then is it checked.
      calc ((Reading.settled recorded).give (optionSpec name) none).bind
              (fun r => readFrom (ofDeclaration program d).table r (Utf8.encode value :: rest))
          = readFrom (ofDeclaration program d).table
              (.holding recorded (optionSpec name) (Utf8.encode value)) rest := by
            rw [hgive]
            exact readFrom_holding hi.1 hi.2 rest
        _ = ((Reading.settled recorded).record ⟨optionSpec name, some (Utf8.encode value)⟩).bind
              (fun r => readFrom (ofDeclaration program d).table r rest) := by
            rw [hrest, Reading.settle_holding]
        _ = _ := by
            rw [Reading.record_text htext, hspec]
            split <;> rfl

theorem settling_items {items : List Item} (hl : ∀ i ∈ items, i.Legal d) {rest : List Bytes}
    (hrest : Settling (ofDeclaration program d).table rest) :
    Settling (ofDeclaration program d).table (items.flatMap Item.words ++ rest) := by
  cases items with
  | nil => exact hrest
  | cons i items =>
      rw [List.flatMap_cons, List.append_assoc]
      exact settling_words (hl i List.mem_cons_self) _

/-- Legal items with new and distinct names are read and recorded in order. -/
theorem readFrom_items {items : List Item} (hl : ∀ i ∈ items, i.Legal d)
    (hd : (items.map Item.name).Nodup)
    (hnew : ∀ i ∈ items, (Reading.settled recorded).has i.name = false) {rest : List Bytes}
    (hrest : Settling (ofDeclaration program d).table rest) :
    readFrom (ofDeclaration program d).table (.settled recorded)
        (items.flatMap Item.words ++ rest) =
      readFrom (ofDeclaration program d).table
        (.settled (recorded ++ items.map Item.occurrence)) rest := by
  induction items generalizing recorded with
  | nil => simp
  | cons i items ih =>
      obtain ⟨hi, hl⟩ := List.forall_mem_cons.mp hl
      obtain ⟨hn, hd⟩ := List.nodup_cons.mp hd
      obtain ⟨hfirst, hnew⟩ := List.forall_mem_cons.mp hnew
      rw [List.flatMap_cons, List.append_assoc, readFrom_item hi (settling_items hl hrest), hfirst,
        if_neg Bool.false_ne_true, ih hl hd (fresh_append_iff.mpr ⟨hnew, hn⟩), List.map_cons,
        List.append_assoc, List.singleton_append]

/-- Items with distinct names may be followed by an option alone, which then waits. -/
theorem scanOptions_alone {before : List Item} (hl : ∀ i ∈ before, i.Legal d)
    (hd : (before.map Item.name).Nodup) {name : String} (hn : name ∈ d.valueNames)
    (rest : List Bytes) :
    scanOptions (ofDeclaration program d).table
        (before.flatMap Item.words ++ Utf8.encode ("--" ++ name) :: rest) =
      readFrom (ofDeclaration program d).table
        (.awaiting (before.map Item.occurrence) (optionSpec name)) rest := by
  have hm : name ∈ d.optionNames := List.mem_cons_of_mem _ hn
  calc scanOptions (ofDeclaration program d).table
          (before.flatMap Item.words ++ Utf8.encode ("--" ++ name) :: rest)
      = readFrom (ofDeclaration program d).table (.settled (before.map Item.occurrence))
          (Utf8.encode ("--" ++ name) :: rest) := by
        apply readFrom_items hl hd (fun _ _ => rfl)
        exact settling_option hm (ofBytes_dashes hm) (Or.inl rfl) rest
    _ = readFrom (ofDeclaration program d).table
          (.awaiting (before.map Item.occurrence) (optionSpec name)) rest :=
        readFrom_alone hn _ rest

/-- The first item whose option was given before is the fault. -/
theorem readFrom_repeated {items : List Item} {i : Item} (hl : ∀ j ∈ items, j.Legal d)
    (hd : (items.map Item.name).Nodup) (hi : i.Legal d) (hm : i.name ∈ items.map Item.name)
    {rest : List Bytes} (hrest : Settling (ofDeclaration program d).table rest) :
    readFrom (ofDeclaration program d).table .start
        (items.flatMap Item.words ++ (i.words ++ rest)) =
      .error (.repeatedOption (optionSpec i.name)) := by
  have hgiven : (Reading.settled (items.map Item.occurrence)).has i.name = true := by
    obtain ⟨j, hj, he⟩ := List.mem_map.mp hm
    simp only [Reading.has, Reading.settled, List.any_map, List.any_eq_true]
    exact ⟨j, hj, by simp [he]⟩
  calc readFrom (ofDeclaration program d).table (.settled [])
          (items.flatMap Item.words ++ (i.words ++ rest))
      = readFrom (ofDeclaration program d).table (.settled (items.map Item.occurrence))
          (i.words ++ rest) := by
        apply readFrom_items hl hd (fun _ _ => rfl)
        exact settling_words hi rest
    _ = .error (.repeatedOption (optionSpec i.name)) := by
        rw [readFrom_item hi hrest, if_pos hgiven]

end Schema

end PointDriver

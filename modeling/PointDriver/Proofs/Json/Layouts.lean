import PointDriver.Proofs.Json.Texts

/-!
# Values without numbers in JSON

A value without numbers is read back as it was written, in either layout and at
any depth, with anything behind it. Reading it takes no more steps into its
depth than it has characters.
-/

namespace PointDriver.Json

/-- A value without numbers. -/
inductive Worded : Json → Prop
  | null : Worded .null
  | boolean (value : Bool) : Worded (.boolean value)
  | text (value : String) : Worded (.text value)
  | array {items : List Json} (all : ∀ item ∈ items, Worded item) : Worded (.array items)
  | object {members : List (String × Json)} (all : ∀ m ∈ members, Worded m.2) :
      Worded (.object members)

/-- A value that is read back from either layout wherever it stands. -/
def ReadBack (value : Json) : Prop :=
  ∀ (depth : Option Nat) (blanks : List Char), IsSpace blanks →
    ∀ (fuel : Nat) (rest : List Char), (layout depth value).length ≤ fuel →
      value? fuel (blanks ++ (layout depth value ++ rest)) = some (value, rest)

theorem isSpace_nil : IsSpace [] := fun _ h => absurd h List.not_mem_nil

/-- A value without numbers starts with a character that is neither blank nor closes an array. -/
theorem Worded.starts {value : Json} (h : Worded value) (depth : Option Nat) :
    ∃ c more, layout depth value = c :: more ∧ isSpace c = false ∧ c ≠ ']' := by
  cases h with
  | null => exact ⟨'n', "ull".toList, by simp [layout], rfl, by decide⟩
  | boolean value =>
      cases value with
      | true => exact ⟨'t', "rue".toList, by simp [layout], rfl, by decide⟩
      | false => exact ⟨'f', "alse".toList, by simp [layout], rfl, by decide⟩
  | text value => exact ⟨'"', _, by rw [layout, quoted], rfl, by decide⟩
  | @array items all => cases items <;> exact ⟨'[', _, by rw [layout], rfl, by decide⟩
  | @object members all => cases members <;> exact ⟨'\x7b', _, by rw [layout], rfl, by decide⟩

section Words

theorem word?_append (word : String) (value : Json) (rest : List Char) :
    word? word value (word.toList ++ rest) = some (value, rest) := by
  simp [word?, List.isPrefixOf_iff_prefix, List.drop_left' (String.length_toList (s := word))]

theorem readBack_null : ReadBack .null := by
  intro depth blanks hb fuel rest hfuel
  obtain ⟨fuel, rfl⟩ : ∃ k, fuel = k + 1 := ⟨fuel - 1, by simp [layout] at hfuel; omega⟩
  have hword := word?_append "null" .null rest
  rw [layout, value?, skipSpace_append hb]
  exact hword

theorem readBack_boolean (value : Bool) : ReadBack (.boolean value) := by
  intro depth blanks hb fuel rest hfuel
  cases value with
  | true =>
      obtain ⟨fuel, rfl⟩ : ∃ k, fuel = k + 1 := ⟨fuel - 1, by simp [layout] at hfuel; omega⟩
      have hword := word?_append "true" (.boolean true) rest
      rw [layout, value?, skipSpace_append hb]
      exact hword
  | false =>
      obtain ⟨fuel, rfl⟩ : ∃ k, fuel = k + 1 := ⟨fuel - 1, by simp [layout] at hfuel; omega⟩
      have hword := word?_append "false" (.boolean false) rest
      rw [layout, value?, skipSpace_append hb]
      exact hword

theorem readBack_text (text : String) : ReadBack (.text text) := by
  intro depth blanks hb fuel rest hfuel
  rw [layout] at hfuel ⊢
  obtain ⟨fuel, rfl⟩ : ∃ k, fuel = k + 1 := ⟨fuel - 1, by simp [quoted] at hfuel; omega⟩
  exact value?_text text hb fuel rest

end Words

section Brackets
variable {blanks : List Char} {fuel : Nat}

/-- Items are read up to the closing bracket. -/
theorem items?_layout (outer inner : Option Nat) {item : Json} {items : List Json}
    (h : ∀ value ∈ item :: items, ReadBack value) (hb : IsSpace blanks)
    (hfuel : (layout inner item ++ layout.layoutItems inner items).length < fuel)
    (rest : List Char) :
    items? fuel (blanks ++ (layout inner item ++ (layout.layoutItems inner items ++
        (layout.close outer ']' ++ rest)))) = some (item :: items, rest) := by
  induction items generalizing item blanks fuel with
  | nil =>
      obtain ⟨fuel, rfl⟩ : ∃ k, fuel = k + 1 := ⟨fuel - 1, by omega⟩
      rw [List.length_append] at hfuel
      have hread := h item List.mem_cons_self inner blanks hb fuel
        (layout.close outer ']' ++ rest) (by omega)
      have hspace : isSpace ']' = false := rfl
      simp only [layout.layoutItems, List.nil_append, items?, hread, bind, Option.bind_some,
        skipSpace_close outer hspace, pure]
  | cons next items ih =>
      obtain ⟨fuel, rfl⟩ : ∃ k, fuel = k + 1 := ⟨fuel - 1, by omega⟩
      obtain ⟨hitem, hitems⟩ := List.forall_mem_cons.mp h
      have hcut : layout.layoutItems inner (next :: items) ++ (layout.close outer ']' ++ rest) =
          ',' :: (layout.opening inner ++ (layout inner next ++
            (layout.layoutItems inner items ++ (layout.close outer ']' ++ rest)))) := by
        simp [layout.layoutItems]
      simp only [layout.layoutItems, List.length_append, List.length_cons] at hfuel
      have hread := hitem inner blanks hb fuel
        (',' :: (layout.opening inner ++ (layout inner next ++
          (layout.layoutItems inner items ++ (layout.close outer ']' ++ rest))))) (by omega)
      have hmore : items? fuel (layout.opening inner ++ (layout inner next ++
          (layout.layoutItems inner items ++ (layout.close outer ']' ++ rest)))) =
            some (next :: items, rest) :=
        ih hitems (isSpace_opening inner) (by rw [List.length_append]; omega)
      have hcomma : isSpace ',' = false := rfl
      simp only [hcut, items?, hread, bind, Option.bind_some, skipSpace_cons hcomma, hmore, pure]

/-- What is in brackets, if they hold anything, are items. -/
theorem value?_items (hb : IsSpace blanks) {cs more : List Char} {c : Char}
    (h : skipSpace cs = c :: more) (hc : c ≠ ']') (fuel : Nat) :
    value? (fuel + 1) (blanks ++ '[' :: cs) =
      (items? fuel (c :: more)).map fun r => (.array r.1, r.2) := by
  have hopen : isSpace '[' = false := rfl
  rw [value?, skipSpace_append hb, skipSpace_cons hopen]
  simp [h, hc]

/-- An array is read when its items are. -/
theorem readBack_array {items : List Json} (hworded : ∀ item ∈ items, Worded item)
    (h : ∀ item ∈ items, ReadBack item) : ReadBack (.array items) := by
  intro depth blanks hb fuel rest hfuel
  cases items with
  | nil =>
      rw [layout] at hfuel ⊢
      obtain ⟨fuel, rfl⟩ : ∃ k, fuel = k + 1 := ⟨fuel - 1, by simp at hfuel; omega⟩
      have hopen : isSpace '[' = false := rfl
      have hclose : isSpace ']' = false := rfl
      rw [value?, skipSpace_append hb, List.cons_append, skipSpace_cons hopen]
      simp [skipSpace_cons hclose]
  | cons item items =>
      let inner := depth.map (· + 1)
      have hshape : layout depth (.array (item :: items)) ++ rest =
          '[' :: (layout.opening inner ++ (layout inner item ++ (layout.layoutItems inner items ++
            (layout.close depth ']' ++ rest)))) := by
        simp [layout, layout.first, inner]
      have hlength : (layout inner item ++ layout.layoutItems inner items).length + 2 ≤
          (layout depth (.array (item :: items))).length := by
        cases depth <;> simp [layout, layout.first, layout.close, inner] <;> omega
      obtain ⟨fuel, rfl⟩ : ∃ k, fuel = k + 1 := ⟨fuel - 1, by omega⟩
      obtain ⟨c, more, hstart, hspace, hc⟩ := (hworded item List.mem_cons_self).starts inner
      have hfirst : skipSpace (layout.opening inner ++ (layout inner item ++
          (layout.layoutItems inner items ++ (layout.close depth ']' ++ rest)))) =
            layout inner item ++ (layout.layoutItems inner items ++
              (layout.close depth ']' ++ rest)) := by
        rw [skipSpace_append (isSpace_opening inner), hstart, List.cons_append,
          skipSpace_cons hspace]
      have hitems : items? fuel (layout inner item ++ (layout.layoutItems inner items ++
          (layout.close depth ']' ++ rest))) = some (item :: items, rest) :=
        items?_layout depth inner h isSpace_nil (by omega) rest
      rw [hstart, List.cons_append] at hfirst hitems
      rw [hshape, hstart, List.cons_append, value?_items hb hfirst hc, hitems]
      rfl

/-- Behind a key there is a colon, and perhaps a blank. -/
theorem colon_cases (depth : Option Nat) :
    ∃ gap, IsSpace gap ∧ layout.colon depth = ':' :: gap := by
  cases depth with
  | none => exact ⟨[], isSpace_nil, rfl⟩
  | some depth => exact ⟨[' '], fun c hc => List.mem_singleton.mp hc ▸ rfl, rfl⟩

/-- Members are read up to the closing brace. -/
theorem members?_layout (outer inner : Option Nat) {key : String} {value : Json}
    {members : List (String × Json)} (h : ∀ m ∈ (key, value) :: members, ReadBack m.2)
    (shown : Option Nat) (hb : IsSpace blanks)
    (hfuel : (layout inner value ++ layout.layoutMembers inner members).length < fuel)
    (rest : List Char) :
    members? fuel (blanks ++ (quoted key ++ (layout.colon shown ++ (layout inner value ++
        (layout.layoutMembers inner members ++ (layout.close outer '\x7d' ++ rest)))))) =
      some ((key, value) :: members, rest) := by
  have hkey : ∀ (key : String) {blanks : List Char}, IsSpace blanks → ∀ behind : List Char,
      skipSpace (blanks ++ (quoted key ++ behind)) =
        '"' :: (key.toList.flatMap quotedChar ++ '"' :: behind) := by
    intro key blanks hb behind
    rw [skipSpace_append hb, quoted, List.cons_append, skipSpace_cons rfl, List.append_assoc]
    rfl
  have hcolon : isSpace ':' = false := rfl
  -- Each member takes one step into the depth, and has at least as many characters to pay for it.
  induction members generalizing key value shown blanks fuel with
  | nil =>
      obtain ⟨fuel, rfl⟩ : ∃ k, fuel = k + 1 := ⟨fuel - 1, by omega⟩
      rw [List.length_append] at hfuel
      obtain ⟨gap, hgap, hshown⟩ := colon_cases shown
      have hvalue : ReadBack value := h (key, value) List.mem_cons_self
      have hread := hvalue inner gap hgap fuel (layout.close outer '\x7d' ++ rest) (by omega)
      have hspace : isSpace '\x7d' = false := rfl
      simp only [layout.layoutMembers, List.nil_append, members?, hkey key hb, string?_written,
        hshown, List.cons_append, skipSpace_cons hcolon, hread, skipSpace_close outer hspace,
        bind, Option.bind_some, pure]
  | cons next members ih =>
      obtain ⟨fuel, rfl⟩ : ∃ k, fuel = k + 1 := ⟨fuel - 1, by omega⟩
      obtain ⟨name, item⟩ := next
      have hvalue : ReadBack value := h (key, value) List.mem_cons_self
      have hmembers := (List.forall_mem_cons.mp h).2
      obtain ⟨gap, hgap, hshown⟩ := colon_cases shown
      have hcut : layout.layoutMembers inner ((name, item) :: members) ++
          (layout.close outer '\x7d' ++ rest) = ',' :: (layout.opening inner ++ (quoted name ++
            (layout.colon inner ++ (layout inner item ++ (layout.layoutMembers inner members ++
              (layout.close outer '\x7d' ++ rest)))))) := by
        simp [layout.layoutMembers]
      simp only [layout.layoutMembers, List.length_append, List.length_cons] at hfuel
      have hread := hvalue inner gap hgap fuel (',' :: (layout.opening inner ++ (quoted name ++
        (layout.colon inner ++ (layout inner item ++ (layout.layoutMembers inner members ++
          (layout.close outer '\x7d' ++ rest))))))) (by omega)
      have hmore : members? fuel (layout.opening inner ++ (quoted name ++ (layout.colon inner ++
          (layout inner item ++ (layout.layoutMembers inner members ++
            (layout.close outer '\x7d' ++ rest)))))) = some ((name, item) :: members, rest) :=
        ih hmembers inner (isSpace_opening inner) (by rw [List.length_append]; omega)
      have hcomma : isSpace ',' = false := rfl
      simp only [hcut, members?, hkey key hb, string?_written, hshown, List.cons_append,
        skipSpace_cons hcolon, hread, skipSpace_cons hcomma, hmore, bind, Option.bind_some, pure]

/-- What is in braces, if they hold anything, are members. -/
theorem value?_members (hb : IsSpace blanks) {cs more : List Char}
    (h : skipSpace cs = '"' :: more) (fuel : Nat) :
    value? (fuel + 1) (blanks ++ '\x7b' :: cs) =
      (members? fuel ('"' :: more)).map fun r => (.object r.1, r.2) := by
  have hopen : isSpace '\x7b' = false := rfl
  rw [value?, skipSpace_append hb, skipSpace_cons hopen]
  simp [h]

/-- An object is read when the values of its members are. -/
theorem readBack_object {members : List (String × Json)} (h : ∀ m ∈ members, ReadBack m.2) :
    ReadBack (.object members) := by
  intro depth blanks hb fuel rest hfuel
  cases members with
  | nil =>
      rw [layout] at hfuel ⊢
      obtain ⟨fuel, rfl⟩ : ∃ k, fuel = k + 1 := ⟨fuel - 1, by simp at hfuel; omega⟩
      have hopen : isSpace '\x7b' = false := rfl
      have hclose : isSpace '\x7d' = false := rfl
      rw [value?, skipSpace_append hb, List.cons_append, skipSpace_cons hopen]
      simp [skipSpace_cons hclose]
  | cons m members =>
      obtain ⟨key, value⟩ := m
      let inner := depth.map (· + 1)
      obtain ⟨behind, hbehind⟩ : ∃ behind, behind = layout.colon depth ++ (layout inner value ++
        (layout.layoutMembers inner members ++ (layout.close depth '\x7d' ++ rest))) := ⟨_, rfl⟩
      have hshape : layout depth (.object ((key, value) :: members)) ++ rest =
          '\x7b' :: (layout.opening inner ++ (quoted key ++ behind)) := by
        simp [layout, inner, hbehind]
      have hlength : (layout inner value ++ layout.layoutMembers inner members).length + 2 ≤
          (layout depth (.object ((key, value) :: members))).length := by
        cases depth <;> simp [layout, layout.close, inner] <;> omega
      obtain ⟨fuel, rfl⟩ : ∃ k, fuel = k + 1 := ⟨fuel - 1, by omega⟩
      obtain ⟨more, hquoted⟩ : ∃ more, quoted key ++ behind = '"' :: more := ⟨_, rfl⟩
      have hfirst : skipSpace (layout.opening inner ++ (quoted key ++ behind)) = '"' :: more := by
        rw [skipSpace_append (isSpace_opening inner), hquoted, skipSpace_cons rfl]
      have hmembers : members? fuel (quoted key ++ behind) =
          some ((key, value) :: members, rest) := by
        rw [hbehind]
        exact members?_layout depth inner h depth isSpace_nil (by omega) rest
      rw [hshape, value?_members hb hfirst, ← hquoted, hmembers]
      rfl

end Brackets

/-- Every value without numbers is read back. -/
theorem Worded.readBack {value : Json} (h : Worded value) : ReadBack value := by
  induction h with
  | null => exact readBack_null
  | boolean value => exact readBack_boolean value
  | text value => exact readBack_text value
  | array all ih => exact readBack_array all ih
  | object all ih => exact readBack_object ih

/-- A text that lays out a value without numbers spells this value, and blanks behind it do no
harm. -/
theorem read?_layout {value : Json} (h : Worded value) (depth : Option Nat) {blanks : List Char}
    (hb : IsSpace blanks) :
    read? (String.ofList (layout depth value ++ blanks)) = some value := by
  have hread := h.readBack depth [] isSpace_nil (2 * (layout depth value ++ blanks).length + 2)
    blanks (by rw [List.length_append]; omega)
  have hbehind : skipSpace blanks = [] := by
    rw [← List.append_nil blanks, skipSpace_append hb]
    rfl
  rw [List.nil_append] at hread
  simp only [read?, String.toList_ofList, hread, hbehind]
  rfl

/-- An array of texts is read back from either layout. -/
theorem read?_texts (depth : Option Nat) (texts : List String) :
    read? (String.ofList (layout depth (.array (texts.map .text)))) =
      some (.array (texts.map .text)) := by
  have hworded : Worded (.array (texts.map .text)) := by
    refine .array fun item hitem => ?_
    obtain ⟨text, -, rfl⟩ := List.mem_map.mp hitem
    exact .text text
  simpa using read?_layout hworded depth isSpace_nil

end PointDriver.Json

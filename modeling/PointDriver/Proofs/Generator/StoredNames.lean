import PointDriver.Proofs.Generator.Loading
import PointDriver.Proofs.Yaml.Blocks

/-!
# Names stored in files

A file holds names as a sequence of quoted texts, or under the key for
parameters among entries that hold something else. The keys of these entries
may be any that stand for a field: texts, or numbers that a field can have. A
single other key makes the file unusable.
-/

namespace PointDriver.DeclarationFile

/-- A key that means the text under which names stand. -/
def IsParametersKey (key : Yaml.Node) : Prop := key.meantText? = some "parameters"

instance (key : Yaml.Node) : Decidable (IsParametersKey key) :=
  inferInstanceAs (Decidable (key.meantText? = some "parameters"))

/-- A key for another field: another text, or a positive number of at most 64 bits. -/
inductive OtherKey : Yaml.Node → Prop
  | text {key text} (h : key.meantText? = some text) (hne : text ≠ "parameters") : OtherKey key
  | number {text n} (h : Yaml.meaning text = .integer n) (positive : 0 < n)
      (small : n.toNat < Nat.pow 2 64) : OtherKey (.plain text)

/-- A document that stores names, as a sequence or under their key. The other entries hold quoted
texts under keys of one sort. -/
inductive StoredAs (others : Yaml.Node → Prop) (names : List String) : Yaml.Node → Prop
  | sequence : StoredAs others names (.sequence (names.map .quoted))
  | mapping {before key after} (isKey : IsParametersKey key)
      (other : ∀ e ∈ before ++ after, others e.1 ∧ ∃ text, e.2 = .quoted text) :
      StoredAs others names (.mapping (before ++ (key, .sequence (names.map .quoted)) :: after))

section Keys
variable {key : Yaml.Node}

theorem key?_of_isParametersKey (h : IsParametersKey key) : key? key = some .parameters := by
  unfold IsParametersKey Yaml.Node.meantText? at h
  split at h
  · obtain rfl := Option.some.inj h
    rfl
  · split at h
    · next text read hm =>
        obtain rfl := Option.some.inj h
        simp [key?, hm]
    · cases h
  · cases h

/-- The reader passes over exactly the keys for other fields. -/
theorem key?_eq_other_iff : key? key = some .other ↔ OtherKey key := by
  constructor
  · intro h
    cases key with
    | quoted text =>
        refine .text rfl ?_
        rintro rfl
        simp [key?] at h
    | plain text =>
        simp only [key?] at h
        split at h
        · next read hm =>
            have hread : (Yaml.Node.plain text).meantText? = some read := by
              simp [Yaml.Node.meantText?, hm]
            refine .text hread ?_
            rintro rfl
            simp at h
        · next n hm =>
            split at h
            · cases h
            · split at h
              · next hn =>
                  simp only [Bool.and_eq_true, decide_eq_true_eq] at hn
                  exact .number hm hn.1 hn.2
              · cases h
        · cases h
    | sequence items => simp [key?] at h
    | mapping entries => simp [key?] at h
  · intro h
    cases h with
    | @text key text h hne =>
        unfold Yaml.Node.meantText? at h
        split at h
        · obtain rfl := Option.some.inj h
          simp [key?, hne]
        · split at h
          · next hm =>
              obtain rfl := Option.some.inj h
              simp [key?, hm, hne]
          · cases h
        · cases h
    | @number text n h positive small =>
        have hzero : (n == 0) = false := beq_eq_false_iff_ne.mpr (by omega)
        have hfits : (decide (0 < n) && decide (n.toNat < Nat.pow 2 64)) = true :=
          Bool.and_eq_true_iff.mpr ⟨decide_eq_true positive, decide_eq_true small⟩
        simp only [key?, h, hzero, Bool.false_eq_true, if_false]
        exact if_pos hfits

end Keys

section Entries

/-- The entries with what their keys stand for, if all of them stand for something. -/
def keyed? (entries : List (Yaml.Node × Yaml.Node)) : Option (List (Key × Yaml.Node)) :=
  entries.mapM fun e => (key? e.1).map fun key => (key, e.2)

variable {entries before after : List (Yaml.Node × Yaml.Node)} {key value : Yaml.Node}
  {names : List String}

theorem keyed?_cons (e : Yaml.Node × Yaml.Node) (entries : List (Yaml.Node × Yaml.Node)) :
    keyed? (e :: entries) =
      (key? e.1).bind fun key => (keyed? entries).map fun keyed => (key, e.2) :: keyed := by
  rw [keyed?, List.mapM_cons]
  cases key? e.1 <;> cases hk : keyed? entries <;> simp_all [keyed?]

/-- Entries for other fields are those among which no names are found. -/
theorem forall_otherKey_iff : (∀ e ∈ entries, OtherKey e.1) ↔
    ∃ keyed, keyed? entries = some keyed ∧ keyed.filter (·.1 == .parameters) = [] := by
  induction entries with
  | nil => simp [keyed?]
  | cons e entries ih =>
      rw [List.forall_mem_cons, ih, keyed?_cons, ← key?_eq_other_iff]
      constructor
      · rintro ⟨he, keyed, hkeyed, hnone⟩
        exact ⟨(.other, e.2) :: keyed, by rw [he, hkeyed]; rfl, hnone⟩
      · rintro ⟨keyed, hkeyed, hnone⟩
        cases hk : key? e.1 with
        | none => simp [hk] at hkeyed
        | some key =>
            cases hrest : keyed? entries with
            | none => simp [hk, hrest] at hkeyed
            | some more =>
                simp only [hk, hrest, Option.bind_some, Option.map_some,
                  Option.some.injEq] at hkeyed
                subst hkeyed
                cases key with
                | parameters => simp at hnone
                | other => exact ⟨rfl, more, rfl, hnone⟩

theorem keyed?_append (front back : List (Yaml.Node × Yaml.Node)) :
    keyed? (front ++ back) =
      (keyed? front).bind fun keyed => (keyed? back).map fun more => keyed ++ more := by
  induction front with
  | nil => simp [keyed?]
  | cons e front ih =>
      rw [List.cons_append, keyed?_cons, keyed?_cons, ih]
      cases key? e.1 <;> cases keyed? front <;> cases keyed? back <;> rfl

/-- The names under an entry that is the only one. -/
def soleNames? : List (Key × Yaml.Node) → Option (List String)
  | [(_, value)] => sequenceNames? value
  | _ => none

theorem mappingNames?_eq (entries : List (Yaml.Node × Yaml.Node)) :
    mappingNames? entries =
      (keyed? entries).bind fun keyed => soleNames? (keyed.filter (·.1 == .parameters)) := rfl

/-- Names stand under their key once if all other keys are for other fields. With any other key
there are none. -/
theorem mappingNames?_cases (hk : IsParametersKey key) (hv : sequenceNames? value = some names)
    (before after : List (Yaml.Node × Yaml.Node)) :
    (mappingNames? (before ++ (key, value) :: after) = some names ∧
      ∀ e ∈ before ++ after, OtherKey e.1) ∨
    (mappingNames? (before ++ (key, value) :: after) = none ∧
      ∃ e ∈ before ++ after, ¬ OtherKey e.1) := by
  have hsplit : ¬ (∀ e ∈ before ++ after, OtherKey e.1) ↔
      ∃ e ∈ before ++ after, ¬ OtherKey e.1 := by
    simp
  rw [← hsplit, mappingNames?_eq, keyed?_append, keyed?_cons, key?_of_isParametersKey hk,
    List.forall_mem_append, forall_otherKey_iff, forall_otherKey_iff]
  cases hb : keyed? before with
  | none => exact Or.inr ⟨rfl, by simp⟩
  | some front =>
      cases ha : keyed? after with
      | none => exact Or.inr ⟨rfl, by simp⟩
      | some back =>
          simp only [Option.bind_some, Option.map_some, List.filter_append, Option.some.injEq,
            exists_eq_left', List.filter_cons, beq_self_eq_true, if_true]
          -- The entry with the names is the only one of its key if there is none on either side.
          generalize front.filter (·.1 == .parameters) = first
          generalize back.filter (·.1 == .parameters) = second
          cases first with
          | nil =>
              cases second with
              | nil => exact Or.inl ⟨hv, rfl, rfl⟩
              | cons e others => exact Or.inr ⟨rfl, by simp⟩
          | cons e others => exact Or.inr ⟨by cases others <;> rfl, by simp⟩

end Entries

theorem sequenceNames?_quoted (names : List String) :
    sequenceNames? (.sequence (names.map .quoted)) = some names := by
  rw [sequenceNames?]
  induction names with
  | nil => rfl
  | cons name names ih =>
      rw [List.map_cons, List.mapM_cons, ih]
      rfl

/-- The names of a document are found if all its other keys are for other fields. -/
theorem names?_of_storedAs {names : List String} {node : Yaml.Node}
    (h : StoredAs OtherKey names node) : names? node = some names := by
  cases h with
  | sequence => exact sequenceNames?_quoted names
  | @mapping before key after isKey other =>
      rcases mappingNames?_cases isKey (sequenceNames?_quoted names) before after with
        ⟨hnames, -⟩ | ⟨-, e, he, hkey⟩
      · exact hnames
      · exact absurd (other e he).1 hkey

/-- The names stored in a file that is given, if there is one. -/
def Stored (files : FileTree) : Option Path → List String → Prop
  | none, names => names = []
  | some path, names => ∃ text node, files.textAt path = .ok text ∧
      Yaml.read? text = some (some node) ∧ StoredAs OtherKey names node

/-- Names that are stored go before the others. -/
theorem Stored.namesIn {files : FileTree} {path : Option Path} {names : List String}
    (h : Stored files path names) : NamesIn files path names := by
  cases path with
  | none => exact h
  | some path =>
      obtain ⟨text, node, htext, hread, hnode⟩ := h
      refine ⟨text, htext, ?_⟩
      simp only [ofText?, hread, names?_of_storedAs hnode]

end PointDriver.DeclarationFile

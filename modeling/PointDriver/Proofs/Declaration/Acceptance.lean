import PointDriver.Declaration.Yaml
import PointDriver.Generator.DeclarationFile
import PointDriver.Proofs.Declaration.Faults
import PointDriver.Proofs.Json.Layouts
import PointDriver.Proofs.Yaml.Sequences

/-!
# One judgement of names

Names become a declaration in four ways: as a list, as an array of JSON, as a
sequence of YAML, and from a command line. All of them accept the same lists,
keep them in order, and refuse the others for the same fault.
-/

namespace PointDriver.Declaration

/-- The names as a sequence with one quoted name to a line. -/
def quotedLines (names : List String) : String :=
  String.join (names.map fun name => "- '" ++ (name ++ "'\n"))

/-- The names as a sequence of quoted names between brackets. -/
def quotedList (names : List String) : String :=
  "[" ++ (", ".intercalate (names.map fun name => "'" ++ (name ++ "'")) ++ "]\n")

theorem toList_quotedLines (names : List String) :
    (quotedLines names).toList = Yaml.linesOfItems (names.map .quoted) := by
  induction names with
  | nil => rfl
  | cons name names ih =>
      have hopen : "- '".toList = ['-', ' ', '\''] := rfl
      have hclose : "'\n".toList = ['\'', '\n'] := rfl
      have hline : quotedLines (name :: names) = "- '" ++ (name ++ "'\n") ++ quotedLines names := by
        simp only [quotedLines, List.map_cons, String.join_cons]
      rw [hline]
      simp [hopen, hclose, ih, Yaml.linesOfItems, Yaml.Written.letters]

theorem toList_quotedList (names : List String) :
    (quotedList names).toList = '[' :: (Yaml.bracketed names ++ ['\n']) := by
  have hquote : "'".toList = ['\''] := rfl
  have hcomma : ", ".toList = [',', ' '] := rfl
  have hitems : ∀ names : List String,
      (", ".intercalate (names.map fun name => "'" ++ (name ++ "'"))).toList ++ [']'] =
        Yaml.bracketed names := by
    intro names
    induction names with
    | nil => rfl
    | cons name names ih =>
        cases names with
        | nil => simp [hquote, Yaml.bracketed, Yaml.quotedLetters]
        | cons next names =>
            rw [List.map_cons, List.map_cons, String.intercalate_cons_cons, Yaml.bracketed, ← ih]
            simp [hquote, hcomma, Yaml.quotedLetters]
  have hopen : "[".toList = ['['] := rfl
  have hclose : "]\n".toList = [']', '\n'] := rfl
  rw [quotedList, String.toList_append, String.toList_append, hopen, hclose, ← hitems]
  simp

/-- A document that holds a sequence of scalars is judged as their texts are. -/
theorem ofYaml?_of_sequence {text : String} {items : List Yaml.Node} {names : List String}
    (h : Yaml.read? text = some (some (.sequence items)))
    (hs : items.mapM Yaml.Node.scalarText? = some names) :
    ofYaml? text = (ofNames names).toOption := by
  simp [ofYaml?, h, scalarTexts?, hs]

theorem mapM_scalarText?_quoted (names : List String) :
    (names.map Yaml.Node.quoted).mapM Yaml.Node.scalarText? = some names := by
  induction names with
  | nil => rfl
  | cons name names ih => simp [ih, Yaml.Node.scalarText?]

section Words
variable {names : List String} (h : ∀ n ∈ names, Yaml.IsWord n.toList)
include h

theorem ofYaml?_quotedLines : ofYaml? (quotedLines names) = (ofNames names).toOption := by
  cases names with
  | nil => rfl
  | cons name names =>
      have hlegal : ∀ w ∈ (name :: names).map Yaml.Written.quoted, w.IsLegal := by
        intro w hw
        obtain ⟨n, hn, rfl⟩ := List.mem_map.mp hw
        exact h n hn
      have hread := Yaml.readDocument?_linesOfItems hlegal (List.cons_ne_nil _ _)
      rw [← toList_quotedLines, List.map_map] at hread
      exact ofYaml?_of_sequence hread (mapM_scalarText?_quoted (name :: names))

theorem ofYaml?_quotedList : ofYaml? (quotedList names) = (ofNames names).toOption := by
  have hread := Yaml.readDocument?_bracketed h
  rw [← toList_quotedList] at hread
  exact ofYaml?_of_sequence hread (mapM_scalarText?_quoted names)

end Words

/-- Names from a command line are judged without any file. -/
theorem load_without_file {m : Type → Type} [Monad m] [LawfulMonad m] [Files m]
    (names : List String) :
    (DeclarationFile.load names none : Generating m Declaration) =
      match ofNames names with
      | .ok d => pure d
      | .error e => throw (.declarationRejected e) := by
  cases h : ofNames names <;>
    simp only [DeclarationFile.load, pure_bind, List.nil_append, h]

/-- There is one judgement of names, whatever the way in. Legal and distinct names are accepted
with their order. Of other lists the first name that is not legal decides, with the first of its
faults, even behind a repetition; and if all are legal, the first that equals one before it.
An array of texts, printed and read again, names from a command line, and, if they
consist of letters, digits and underscores, sequences of quoted names are judged alike. Of an
array with other items, the first item that is no legal name decides. -/
theorem acceptance (names : List String) :
    (∀ d, ofNames names = .ok d ↔
      (∀ n ∈ names, IsLegalName n) ∧ names.Nodup ∧ d.names = names) ∧
    (∀ e, ofNames names = .error e ↔ FirstFault names e) ∧
    ofJson (.array (names.map .text)) = (ofNames names).mapError .rejected ∧
    (∀ depth, Json.read? (String.ofList (Json.layout depth (.array (names.map .text)))) =
      some (.array (names.map .text))) ∧
    (∀ (m : Type → Type) [Monad m] [LawfulMonad m] [Files m],
      (DeclarationFile.load names none : Generating m Declaration) =
        match ofNames names with
        | .ok d => pure d
        | .error e => throw (.declarationRejected e)) ∧
    ((∀ n ∈ names, ∀ c ∈ n.toList, c.isAlphanum ∨ c = '_') →
      ofYaml? (quotedLines names) = (ofNames names).toOption ∧
        ofYaml? (quotedList names) = (ofNames names).toOption) ∧
    ∀ items e, ofJson (.array items) = .error e ↔
      (∃ (before : List String) (item : Json) (after : List Json),
        items = before.map .text ++ item :: after ∧ (∀ n ∈ before, IsLegalName n) ∧
          ItemFault item e) ∨
      ∃ (texts : List String) (fault : DeclarationError), items = texts.map .text ∧
        (∀ n ∈ texts, IsLegalName n) ∧ FirstFault texts fault ∧ e = .rejected fault := by
  refine ⟨fun d => ofNames_eq_ok_iff, fun e => ofNames_eq_error_iff, ofJson_texts names,
    fun depth => Json.read?_texts depth names, fun m _ _ _ => load_without_file names, ?_,
    fun items e => ofJson_array_eq_error_iff⟩
  intro hchars
  have hwords : ∀ n ∈ names, Yaml.IsWord n.toList := by
    intro n hn c hc
    simpa [Yaml.isWordChar] using hchars n hn c hc
  exact ⟨ofYaml?_quotedLines hwords, ofYaml?_quotedList hwords⟩

/-- A name with a capital is refused although a repetition stands before it. -/
theorem acceptance_of_two_faults :
    FirstFault ["alpha", "alpha", "Beta"] (.invalidName "Beta") ∧
      ofYaml? (quotedLines ["alpha", "alpha", "Beta"]) = none := by
  obtain ⟨-, herror, -, -, -, hyaml, -⟩ := acceptance ["alpha", "alpha", "Beta"]
  have hrefused : ofNames ["alpha", "alpha", "Beta"] = .error (.invalidName "Beta") := by rfl
  have hread := (hyaml (by simp)).1
  rw [hrefused] at hread
  exact ⟨(herror _).mp hrefused, hread⟩

end PointDriver.Declaration

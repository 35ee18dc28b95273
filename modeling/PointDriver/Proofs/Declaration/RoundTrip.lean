import PointDriver.Proofs.Declaration.Acceptance
import PointDriver.Proofs.Files.Reading

/-!
# Declarations that were written

A declaration is read back from every form in which it is written: from its
JSON, from its YAML, and from a file that holds its YAML, by itself or under the
key for parameters. The writer puts a name between quotes exactly when it would
mean no text without them, so both readers of YAML find the same texts.
-/

namespace PointDriver

/-- A scalar that means a text means itself. -/
theorem Yaml.meaning_eq_text {s t : String} (h : Yaml.meaning s = .text t) : t = s := by
  unfold Yaml.meaning at h
  split at h
  · cases h
  · split at h
    · cases h
    · split at h
      · cases h
      · split at h
        · cases h
        · exact (Yaml.Meaning.text.inj h).symm

/-- A name is a word. -/
theorem isWord_of_spellsName {cs : List Char} (h : spellsName cs = true) : Yaml.IsWord cs := by
  intro c hc
  have hname := continuesName_iff.mp ((continuesName_of_spellsName h).2 c hc)
  apply Yaml.isWordChar_iff.mpr
  rcases hname with hlower | hunderscore | hdigit
  · exact Or.inr (Or.inl hlower)
  · exact Or.inr (Or.inr (Or.inr hunderscore))
  · exact Or.inr (Or.inr (Or.inl hdigit))

namespace Declaration

/-- A name as an item of a sequence. -/
def written (name : String) : Yaml.Written :=
  match Yaml.meaning name with
  | .text _ => .bare name
  | _ => .quoted name

theorem letters_written (name : String) : (written name).letters = (yamlScalar name).toList := by
  have hquote : "'".toList = ['\''] := rfl
  unfold written yamlScalar
  cases Yaml.meaning name <;> simp [Yaml.Written.letters, hquote]

theorem isLegal_written {name : String} (h : spellsName name.toList = true) :
    (written name).IsLegal := by
  have hword := isWord_of_spellsName h
  have hne := (continuesName_of_spellsName h).1
  unfold written
  cases Yaml.meaning name with
  | text t => exact ⟨hword, hne⟩
  | _ => exact hword

theorem scalarText?_written (name : String) : (written name).node.scalarText? = some name := by
  unfold written
  cases Yaml.meaning name <;> rfl

/-- A written name means a text without knowing that it is one. -/
theorem meantText?_written (name : String) : (written name).node.meantText? = some name := by
  unfold written
  cases hm : Yaml.meaning name with
  | text t =>
      obtain rfl := Yaml.meaning_eq_text hm
      simp [Yaml.Written.node, Yaml.Node.meantText?, hm]
  | _ => rfl

variable {d : Declaration}

theorem isLegal_items (d : Declaration) : ∀ w ∈ d.names.map written, w.IsLegal := by
  intro w hw
  obtain ⟨name, hn, rfl⟩ := List.mem_map.mp hw
  exact isLegal_written (nameError?_eq_none_iff.mp (d.legal name hn)).1

/-- The document has one item to a line. -/
theorem toList_toYaml (h : d.names ≠ []) :
    d.toYaml.toList = Yaml.linesOfItems (d.names.map written) := by
  have hopen : "- ".toList = ['-', ' '] := rfl
  have hbreak : "\n".toList = ['\n'] := rfl
  have hlines : ∀ names : List String,
      (String.join (names.map fun name => "- " ++ yamlScalar name ++ "\n")).toList =
        Yaml.linesOfItems (names.map written) := by
    intro names
    induction names with
    | nil => rfl
    | cons name names ih =>
        rw [List.map_cons, String.join_cons, String.toList_append, ih]
        simp [hopen, hbreak, Yaml.linesOfItems, letters_written]
  have hfilled : d.names.isEmpty = false := by simpa using h
  rw [toYaml, hfilled]
  exact hlines d.names

/-- The document of a declaration is the sequence of its items. -/
theorem read?_toYaml (d : Declaration) :
    Yaml.read? d.toYaml =
      some (some (.sequence ((d.names.map written).map Yaml.Written.node))) := by
  by_cases h : d.names = []
  · have hempty : d.toYaml = "[]\n" := by simp [toYaml, h]
    rw [hempty, h]
    exact Yaml.readDocument?_bracketed (List.forall_mem_nil _)
  · rw [Yaml.read?, toList_toYaml h]
    exact Yaml.readDocument?_linesOfItems (isLegal_items d) (by simpa using h)

/-- The document under a key is the mapping of the key to the sequence. -/
theorem read?_keyed (h : d.names ≠ []) :
    Yaml.read? ("parameters:\n" ++ d.toYaml) = some (some (.mapping [(.plain "parameters",
      .sequence ((d.names.map written).map Yaml.Written.node))])) := by
  have hword : Yaml.IsWord "parameters".toList := isWord_of_spellsName (by decide)
  have hkey : "parameters:\n".toList = "parameters".toList ++ [':', '\n'] := by decide
  have hread := Yaml.readDocument?_key (isLegal_items d) hword (by decide) (by simpa using h)
  rw [← toList_toYaml h] at hread
  rw [Yaml.read?, String.toList_append, hkey, List.append_assoc]
  exact hread

theorem mapM_items {f : Yaml.Node → Option String} (h : ∀ name, f (written name).node = some name)
    (names : List String) : ((names.map written).map Yaml.Written.node).mapM f = some names := by
  induction names with
  | nil => rfl
  | cons name names ih =>
      rw [List.map_cons, List.map_cons, List.mapM_cons, h, ih]
      rfl

theorem ofYaml?_toYaml (d : Declaration) : ofYaml? d.toYaml = some d := by
  have hnames : ofYaml? d.toYaml = (ofNames d.names).toOption :=
    ofYaml?_of_sequence (read?_toYaml d) (mapM_items scalarText?_written d.names)
  rw [hnames, ofNames_names]
  rfl

/-- The YAML of a declaration as it may stand in a file. -/
inductive FileText (d : Declaration) : String → Prop
  | plain : FileText d d.toYaml
  | keyed (filled : d.names ≠ []) : FileText d ("parameters:\n" ++ d.toYaml)

theorem ofText?_of_fileText {text : String} (h : FileText d text) :
    DeclarationFile.ofText? text = some d.names := by
  have hnames : DeclarationFile.sequenceNames?
      (.sequence ((d.names.map written).map Yaml.Written.node)) = some d.names :=
    mapM_items meantText?_written d.names
  cases h with
  | plain => simp only [DeclarationFile.ofText?, read?_toYaml, DeclarationFile.names?, hnames]
  | keyed hfilled =>
      have hkey : DeclarationFile.key? (.plain "parameters") = some .parameters := by
        decide +kernel
      rw [← hnames]
      simp only [DeclarationFile.ofText?, read?_keyed hfilled, DeclarationFile.names?]
      simp [DeclarationFile.mappingNames?, hkey]

/-- A declaration is read back from its JSON in either layout, from its YAML, and from every file
to which its YAML has been written, by itself or under the key for parameters. Reading leaves the
files as they are. -/
theorem written_and_read (d : Declaration) :
    ofJson d.toJson = .ok d ∧
    (∀ depth, Json.read? (String.ofList (Json.layout depth d.toJson)) = some d.toJson) ∧
    ofYaml? d.toYaml = some d ∧
    ∀ (text : String) (files written : FileTree) (path : Path), FileText d text →
      files.write path (Utf8.encode text) = .ok written →
      (DeclarationFile.load [] (some path) : Generating (StateM FileTree) Declaration) written =
        (.ok d, written) := by
  refine ⟨?_, fun depth => Json.read?_texts depth d.names, ofYaml?_toYaml d, ?_⟩
  · rw [toJson, ofJson_texts, ofNames_names]
    rfl
  · intro text files written path htext hwrite
    have hread := readText_of_write hwrite
    have hnames : (DeclarationFile.readNames path :
        Generating (StateM FileTree) (List String)) written = (.ok d.names, written) := by
      rw [DeclarationFile.readNames, Generating.bind_of_ok (Generating.orFail_of_ok hread _)]
      simp only [ofText?_of_fileText htext]
      rfl
    rw [DeclarationFile.load, Generating.bind_of_ok hnames]
    simp only [List.append_nil, ofNames_names]
    rfl

/-- A declaration whose only name would mean no text is read back from a new file. -/
theorem written_and_read_null :
    ∃ (d : Declaration) (written : FileTree), d.names = ["null"] ∧
      FileTree.empty.write (Path.ofString "names.yml") (Utf8.encode ("parameters:\n" ++ d.toYaml)) =
        .ok written ∧
      (DeclarationFile.load [] (some (Path.ofString "names.yml")) :
        Generating (StateM FileTree) Declaration) written = (.ok d, written) := by
  let d : Declaration := ⟨["null"], by decide, by decide⟩
  obtain ⟨-, -, -, hfile⟩ := written_and_read d
  refine ⟨d, FileTree.empty.put [Utf8.encode "names.yml"]
    (.file (Utf8.encode ("parameters:\n" ++ d.toYaml))), rfl, rfl, ?_⟩
  exact hfile _ FileTree.empty _ _ (.keyed (by decide)) rfl

end Declaration

end PointDriver

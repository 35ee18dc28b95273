/-! # Declarations

A declaration is the list of parameter names that a driver takes a value for.
Its names are legal and distinct, and their order is the order in which the
driver asks for values, reads them and reports them. -/

namespace PointDriver

/-- The option that asks for the usage text. -/
def helpName : String := "help"

/-- The option that takes the directory for the results. -/
def outputDirName : String := "output_dir"

/-- Names that a driver uses itself. -/
def reservedNames : List String := [helpName, outputDirName, "out", "options", "schema"]

/-- Words that cannot name a local variable in a generated driver. -/
def keywords : List String :=
  ["abstract", "as", "async", "await", "become", "box", "break", "const", "continue", "crate",
    "do", "dyn", "else", "enum", "extern", "false", "final", "fn", "for", "gen", "if", "impl",
    "in", "let", "loop", "macro", "match", "mod", "move", "mut", "override", "priv", "pub",
    "ref", "return", "self", "static", "struct", "super", "trait", "true", "try", "type",
    "typeof", "unsafe", "unsized", "use", "virtual", "where", "while", "yield"]

/-- Why a list of names is no declaration. -/
inductive DeclarationError where
  | emptyName
  | invalidName (name : String)
  | keyword (name : String)
  | reserved (name : String)
  | duplicate (name : String)
  deriving DecidableEq, Repr

namespace DeclarationError

/-- The error in words. -/
def message : DeclarationError → String
  | emptyName => "Parameter name must not be empty"
  | invalidName name =>
      "Parameter name '" ++ name ++
        "' must start with a lowercase letter or '_' and contain only [a-z0-9_]"
  | keyword name => "Parameter name '" ++ name ++ "' is a Rust keyword"
  | reserved name => "Parameter name '" ++ name ++ "' is reserved by the driver"
  | duplicate name => "Parameter '" ++ name ++ "' is declared more than once"

end DeclarationError

/-- A character that a name may start with. -/
def startsName (c : Char) : Bool := ('a' ≤ c && c ≤ 'z') || c == '_'

/-- A character that may follow in a name. -/
def continuesName (c : Char) : Bool := startsName c || ('0' ≤ c && c ≤ '9')

/-- Whether the characters spell a name: lower-case letters, digits and
underscores, no digit first, and not the underscore alone. -/
def spellsName : List Char → Bool
  | [] => false
  | c :: rest => startsName c && rest.all continuesName && !(c == '_' && rest.isEmpty)

/-- What is wrong with a name taken by itself. -/
def nameError? (name : String) : Option DeclarationError :=
  if name.toList.isEmpty then some .emptyName
  else if !spellsName name.toList then some (.invalidName name)
  else if keywords.contains name then some (.keyword name)
  else if reservedNames.contains name then some (.reserved name)
  else none

/-- The first name of a list that is equal to one before it. -/
def repeatedAfter (before : List String) : List String → Option String
  | [] => none
  | name :: rest =>
      if before.contains name then some name else repeatedAfter (name :: before) rest

theorem repeatedAfter_eq_none_iff (before names : List String) :
    repeatedAfter before names = none ↔ names.Nodup ∧ ∀ n ∈ names, n ∉ before := by
  induction names generalizing before with
  | nil => simp [repeatedAfter]
  | cons name rest ih =>
    by_cases h : name ∈ before
    · simp [repeatedAfter, h]
    · simp only [repeatedAfter, List.contains_iff_mem, h, ↓reduceIte, ih, List.mem_cons,
        List.nodup_cons, not_or]
      constructor
      · rintro ⟨distinct, apart⟩
        refine ⟨⟨fun again => (apart name again).1 rfl, distinct⟩, ?_⟩
        rintro n (rfl | later)
        · exact h
        · exact (apart n later).2
      · rintro ⟨⟨fresh, distinct⟩, apart⟩
        refine ⟨distinct, fun n later => ⟨?_, apart n (.inr later)⟩⟩
        rintro rfl
        exact fresh later

/-- A declaration: legal and distinct names in order. -/
structure Declaration where
  names : List String
  /-- Each name is legal by itself. -/
  legal : ∀ n ∈ names, nameError? n = none
  /-- No name occurs twice. -/
  distinct : names.Nodup
  deriving DecidableEq, Repr

namespace Declaration

/-- The declaration without parameters. -/
def empty : Declaration := ⟨[], by simp, by simp⟩

instance : Inhabited Declaration := ⟨empty⟩

/-- The declaration with the given names. Each name is judged by itself before
repetitions are looked for. -/
def ofNames (names : List String) : Except DeclarationError Declaration :=
  match legal : names.findSome? nameError? with
  | some error => .error error
  | none =>
      match distinct : repeatedAfter [] names with
      | some name => .error (.duplicate name)
      | none =>
          .ok ⟨names, List.findSome?_eq_none_iff.1 legal,
            ((repeatedAfter_eq_none_iff [] names).1 distinct).1⟩

/-- Legal and distinct names make a declaration, and it keeps their order. -/
theorem ofNames_names (d : Declaration) : ofNames d.names = .ok d := by
  have legal : d.names.findSome? nameError? = none := List.findSome?_eq_none_iff.2 d.legal
  have distinct : repeatedAfter [] d.names = none :=
    (repeatedAfter_eq_none_iff [] d.names).2 ⟨d.distinct, by simp⟩
  unfold ofNames
  split
  · next h => rw [legal] at h; cases h
  · split
    · next h => rw [distinct] at h; cases h
    · rfl

/-- The declaration of accepted names holds just these names. -/
theorem names_of_ofNames {names : List String} {d : Declaration} (h : ofNames names = .ok d) :
    d.names = names := by
  unfold ofNames at h
  split at h
  · cases h
  · split at h
    · cases h
    · cases h; rfl

end Declaration

end PointDriver

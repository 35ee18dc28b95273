import PointDriver.Proofs.Generator.Escape

/-!
# Names among the arguments

A line is a command with options before it and behind it. Names for the
declaration may be given several at a time and in any number of places among
the other options. What is read of a line are all its names in order, whatever
places they have, and the other options as if there were no names.
-/

namespace PointDriver.Generator

open CommandLine

/-- A name that can be given together with others. -/
structure Givable (name : String) : Prop where
  nonempty : name ≠ ""
  whole : ',' ∉ name.toList
  undashed : name.toList.head? ≠ some '-'

/-- A part of the arguments of a command. -/
inductive Part where
  /-- Names for the declaration, with commas between them. -/
  | names (spelling : Spelling) (given : List String)
  | other (use : Use)

namespace Part

/-- Names as one value. -/
def joined (given : List String) : Bytes := Utf8.encode (",".intercalate given)

/-- The option that is used. -/
def use : Part → Use
  | names spelling given => .value spelling paramOption (joined given)
  | other u => u

/-- The names that are given. -/
def given : Part → List String
  | names _ given => given
  | other _ => []

/-- A part that the command has a place for. Other options do not give names, and a name right
behind the letter does not start with an equals sign. -/
inductive Legal (table : List Spec) (operand : Option Spec) : Part → Prop
  | names {spelling name more} (all : ∀ n ∈ name :: more, Givable n)
      (shown : spelling.Shown table paramOption)
      (apart : ∀ flags, spelling = .letterAttached flags → name.toList.head? ≠ some '=') :
      Legal table operand (.names spelling (name :: more))
  | other {u} (legal : u.Legal table operand)
      (unnamed : ∀ o ∈ u.occurrences, o.option.name ≠ paramOption.name) :
      Legal table operand (.other u)

end Part

/-- A command with its options and those before it. -/
structure Line where
  before : List Use
  command : CommandName
  parts : List Part

namespace Line

/-- The arguments of a line. -/
def arguments (l : Line) : List Bytes :=
  l.before.flatMap Use.words ++
    Utf8.encode l.command.word :: l.parts.flatMap fun p => p.use.words

/-- The names of a line in order. -/
def names (l : Line) : List String := l.parts.flatMap Part.given

/-- What is recorded before the command. -/
def readingBefore (l : Line) : Reading := .settled (l.before.flatMap Use.occurrences)

/-- What is recorded behind the command. -/
def reading (l : Line) : Reading := .settled (l.parts.flatMap fun p => p.use.occurrences)

/-- The file with further names. -/
def paramsFile (l : Line) : Option Path := pathOf l.reading paramsFileOption

/-- The configuration file; the one behind the command counts first. -/
def config (l : Line) : Option Path :=
  (pathOf l.reading configOption).orElse fun _ => pathOf l.readingBefore configOption

/-- The level to log at; the one behind the command counts first. -/
def logLevel (l : Line) : Option String :=
  (textOf l.reading logLevelOption).orElse fun _ => textOf l.readingBefore logLevelOption

/-- Each option has its place, only those that may be are repeated, and no operand is missing. -/
structure IsLegal (l : Line) : Prop where
  before : ∀ u ∈ l.before, u.Legal (specs programOptions) none
  before_once : Unrepeated (l.readingBefore.recorded.map (·.option))
  parts : ∀ p ∈ l.parts, p.Legal (specs (commandOptions l.command)) (operandOf l.command)
  once : Unrepeated (l.reading.recorded.map (·.option))
  complete : ∀ s, operandOf l.command = some s → ∃ bytes, Part.other (.operand s bytes) ∈ l.parts

end Line

section Commas

theorem splitCommas_append {part : List Char} (h : ',' ∉ part) (rest : List Char) :
    splitCommas (part ++ ',' :: rest) = part :: splitCommas rest := by
  have hne : ∀ cs, splitCommas cs ≠ [] := by
    intro cs
    induction cs with
    | nil => simp [splitCommas]
    | cons c cs ih =>
        rw [splitCommas]
        split
        · exact absurd ‹_› ih
        · split <;> simp
  induction part with
  | nil =>
      obtain ⟨first, others, hrest⟩ := List.exists_cons_of_ne_nil (hne rest)
      simp [splitCommas, hrest]
  | cons c part ih =>
      obtain ⟨hc, hpart⟩ := not_or.mp (mt List.mem_cons.mpr h)
      simp [splitCommas, ih hpart, Ne.symm hc]

/-- Parts without commas are found again between the commas. -/
theorem splitCommas_intercalate {part : List Char} {parts : List (List Char)}
    (h : ∀ cs ∈ part :: parts, ',' ∉ cs) :
    splitCommas ([','].intercalate (part :: parts)) = part :: parts := by
  induction parts generalizing part with
  | nil => simpa using RunLine.splitCommas_of_not_mem (h part List.mem_cons_self)
  | cons next parts ih =>
      obtain ⟨hpart, hparts⟩ := List.forall_mem_cons.mp h
      rw [List.intercalate_cons_cons, List.append_assoc, List.singleton_append,
        splitCommas_append hpart, ih hparts]

end Commas

namespace Part
variable {table : List Spec} {operand : Option Spec}

/-- The value that names make starts as the first of them. -/
theorem head?_intercalate {name : String} (h : name ≠ "") (more : List String) :
    (",".intercalate (name :: more)).toList.head? = name.toList.head? := by
  obtain ⟨c, cs, hcs⟩ := List.exists_cons_of_ne_nil (show name.toList ≠ [] by simpa using h)
  cases more with
  | nil => simp
  | cons next more => simp [String.intercalate_cons_cons, hcs]

theorem head?_joined {name : String} (h : name ≠ "") (more : List String) {a : Char}
    (ha : a.toNat < 128) :
    (joined (name :: more)).head? = some (UInt8.ofNat a.toNat) ↔ name.toList.head? = some a := by
  rw [joined, Utf8.encode, Utf8.head?_encodeChars ha, head?_intercalate h]

theorem joined_ne_nil {name : String} (h : name ≠ "") (more : List String) :
    joined (name :: more) ≠ [] := by
  intro hnil
  have htext : ",".intercalate (name :: more) = "" := Utf8.encode_injective hnil
  have hhead := head?_intercalate h more
  rw [htext] at hhead
  exact h (by simpa using hhead.symm)

/-- Every part is a use that the command has a place for. -/
theorem Legal.use {p : Part} (h : p.Legal table operand) (hp : paramOption ∈ table) :
    p.use.Legal table operand := by
  cases h with
  | other legal unnamed => exact legal
  | @names spelling name more all shown apart =>
      have hname := all name List.mem_cons_self
      have hplain : Word.ofBytes (joined (name :: more)) = .plain :=
        Word.ofBytes_eq_plain_iff.mpr
          (Or.inr (mt (head?_joined hname.nonempty more (a := '-') (by decide)).mp hname.undashed))
      refine Use.Legal.value hp rfl (RunLine.contentFault?_text rfl _) shown ?_
      cases spelling with
      | name => exact hplain
      | nameEquals => trivial
      | letter flags => exact hplain
      | letterEquals flags => trivial
      | letterAttached flags =>
          exact ⟨joined_ne_nil hname.nonempty more,
            mt (head?_joined hname.nonempty more (a := '=') (by decide)).mp (apart flags rfl)⟩

theorem paramsOf_append (a b : List Occurrence) :
    paramsOf (.settled (a ++ b)) = paramsOf (.settled a) ++ paramsOf (.settled b) := by
  simp [paramsOf, Reading.values, Reading.settled]

/-- Flags hold no names. -/
theorem paramsOf_flags (flags : List Spec) : paramsOf (.settled (flags.map (⟨·, none⟩))) = [] := by
  simp [paramsOf, Reading.values, Reading.settled]

/-- What is read of a part are the names that it gives. -/
theorem Legal.paramsOf_eq {p : Part} (h : p.Legal table operand) :
    paramsOf (.settled p.use.occurrences) = p.given := by
  cases h with
  | @names spelling name more all shown apart =>
      have hwhole : ∀ cs ∈ (name :: more).map String.toList, ',' ∉ cs := by
        intro cs hcs
        obtain ⟨n, hn, rfl⟩ := List.mem_map.mp hcs
        exact (all n hn).whole
      have hsplit := splitCommas_intercalate hwhole
      have hjoined : paramsOf (.settled [⟨paramOption, some (joined (name :: more))⟩]) =
          name :: more := by
        simp [paramsOf, Reading.values, Reading.settled, joined]
        rw [hsplit]
        simp
      rw [Part.use, Use.occurrences, paramsOf_append, paramsOf_flags, hjoined]
      rfl
  | @other u legal unnamed =>
      have hvalues : (Reading.settled u.occurrences).values paramOption.name = [] := by
        have hnone : u.occurrences.filter (fun o => o.option.name == paramOption.name) = [] :=
          List.filter_eq_nil_iff.mpr fun o ho => by simpa using unnamed o ho
        simp [Reading.values, Reading.settled, hnone]
      rw [Part.use, paramsOf, hvalues]
      rfl

end Part

namespace Line
variable {l : Line}

/-- The names that are read of a line are all its names in order. -/
theorem paramsOf_reading (h : l.IsLegal) : paramsOf l.reading = l.names := by
  have hparts := h.parts
  rw [reading, names]
  generalize l.parts = parts at hparts
  induction parts with
  | nil => rfl
  | cons p parts ih =>
      obtain ⟨hp, hrest⟩ := List.forall_mem_cons.mp hparts
      rw [List.flatMap_cons, List.flatMap_cons, Part.paramsOf_append, hp.paramsOf_eq, ih hrest]

/-- The options of a line are read as they are meant. -/
theorem readCommand_parts (h : l.IsLegal) :
    readCommand l.command (l.parts.flatMap fun p => p.use.words) = .ok (l.reading, []) := by
  have huses : ∀ u ∈ l.parts.map Part.use,
      u.Legal (specs (commandOptions l.command)) (operandOf l.command) := by
    intro u hu
    obtain ⟨p, hp, rfl⟩ := List.mem_map.mp hu
    exact (h.parts p hp).use (paramOption_mem l.command)
  have honce := h.once
  obtain ⟨r, hr, hscan⟩ := scan_uses (wellNamed_commandOptions l.command) huses
    (amountsTo_settled []) (by simpa [reading, Reading.settled, List.flatMap_map] using honce) []
  simp only [List.flatMap_map, List.append_nil] at hscan
  simp only [List.flatMap_map, List.nil_append] at hr
  have hstart : Reading.start = .settled [] := rfl
  simp only [readCommand, hstart, hscan, scan, bind, Except.bind, hr.settle]
  rfl

/-- A command is found, with its operand if it has one. -/
theorem commandOf_reading (h : l.IsLegal) :
    ∃ command, commandOf l.command l.reading [] = .ok command := by
  cases hc : l.command with
  | generate => exact ⟨_, rfl⟩
  | schema => exact ⟨_, rfl⟩
  | run => exact ⟨_, rfl⟩
  | init =>
      obtain ⟨dir, hdir⟩ := h.complete dirOperand (by rw [hc]; rfl)
      have hvalue : dir ∈ l.reading.values dirOperand.name := by
        refine List.mem_filterMap.mpr
          ⟨⟨dirOperand, some dir⟩, List.mem_filter.mpr ⟨?_, by simp⟩, rfl⟩
        exact List.mem_flatMap.mpr ⟨_, hdir, List.mem_singleton.mpr rfl⟩
      obtain ⟨first, others, hfirst⟩ := List.exists_cons_of_ne_nil (List.ne_nil_of_mem hvalue)
      simp [commandOf, pathOf, hfirst]

/-- A line is read as it is meant. -/
theorem parse_arguments (h : l.IsLegal) :
    ∃ command, commandOf l.command l.reading [] = .ok command ∧
      parse l.arguments = .ok ⟨l.config, l.logLevel, l.names, l.paramsFile, command⟩ := by
  obtain ⟨command, hcommand⟩ := commandOf_reading h
  refine ⟨command, hcommand, ?_⟩
  have hwords : ∀ c : CommandName, Word.ofBytes (Utf8.encode c.word) = .plain ∧
      CommandName.ofWord? c.word = some c ∧ (c.word == helpWord) = false := by
    intro c
    cases c <;> decide +kernel
  obtain ⟨hplain, hname, hhelp⟩ := hwords l.command
  obtain ⟨r, hr, hscan⟩ := scan_uses wellNamed_programOptions h.before (amountsTo_settled [])
    h.before_once (Utf8.encode l.command.word :: l.parts.flatMap fun p => p.use.words)
  have hstart : Reading.start = .settled [] := rfl
  have hstop : scan (specs programOptions) none .start l.arguments =
      .ok (r, .word (Utf8.encode l.command.word) (l.parts.flatMap fun p => p.use.words)) := by
    rw [hstart, arguments, hscan]
    simp only [scan, hplain, hr.waiting]
  simp only [parse, hstop, Utf8.decode?_encode, hhelp, hname, readInvocation,
    readCommand_parts h, hcommand, hr.settle, paramsOf_reading h, Except.mapError, bind,
    Except.bind, pure, Except.pure, Bool.false_eq_true, if_false]
  rfl

end Line

end PointDriver.Generator

import PointDriver.Proofs.Emitted.SourceReading
import PointDriver.Proofs.Package.ManifestText
import PointDriver.Proofs.Text.Literals

/-!
# Names between quotes

A driver's source has the program's name between quotes, and a manifest has the
names of the package and of its program there. The names are copied as they
are. They are read as themselves exactly if the quotes can hold all of their
characters.
-/

namespace PointDriver.Package
open Skeleton Emitted

/-- How texts are spelled in a source. -/
def sourceLiteral : LiteralRules where
  allows c := c != '\r'
  letters := [('n', '\n'), ('r', '\r'), ('t', '\t'), ('\\', '\\'), ('0', '\x00'), ('\'', '\''),
    ('"', '"')]
  codes := [('x', 2, 0x7F)]
  braces := true
  breaks := true
  quote := by decide

/-- How texts are spelled in a manifest, on one line. -/
def manifestLiteral : LiteralRules where
  allows c := c == '\t' || (0x20 ≤ c.toNat && c.toNat != 0x7F)
  letters := [('b', '\x08'), ('t', '\t'), ('n', '\n'), ('f', '\x0c'), ('r', '\r'), ('"', '"'),
    ('\\', '\\')]
  codes := [('u', 4, 0x10FFFF), ('U', 8, 0x10FFFF)]
  braces := false
  breaks := false
  quote := by decide

/-- What follows the first occurrence of a mark. -/
def behind? (mark : List Char) : List Char → Option (List Char)
  | [] => none
  | c :: cs =>
      if mark.isPrefixOf (c :: cs) then some ((c :: cs).drop mark.length) else behind? mark cs

/-- The mark before the argument that a schema is made with. -/
def schemaMark : String := "OptionSchema::new("

/-- The text of an argument that is one text between quotes. -/
def soleText? : List Char → Option (List Char)
  | '"' :: cs =>
      match sourceLiteral.read? cs with
      | some (text, ')' :: _) => some text
      | _ => none
  | _ => none

/-- The text that a schema is made with. -/
def schemaArgument? (source : String) : Option String :=
  ((behind? schemaMark.toList source.toList).bind soleText?).map String.ofList

/-- A line of a manifest. -/
inductive ManifestLine where
  | blank
  | header (table : List Char)
  | entry (key value : List Char)
  deriving DecidableEq, Repr

namespace ManifestLine

/-- A character of a key that needs no quotes. -/
def isKeyChar (c : Char) : Bool := c.isAlphanum || c == '_' || c == '-'

/-- The characters behind spaces and tabs. -/
def unspaced (cs : List Char) : List Char := cs.dropWhile fun c => c == ' ' || c == '\t'

/-- Whether nothing but a comment is left of a line. -/
def isEnd (cs : List Char) : Bool :=
  match unspaced cs with
  | [] => true
  | c :: rest => c == '#' || (c == '\r' && rest.isEmpty)

/-- Whether characters are a key. -/
def isKey (cs : List Char) : Bool := !cs.isEmpty && cs.all isKeyChar

/-- Reads the text of a key. -/
def readText? (key cs : List Char) : Option ManifestLine :=
  (manifestLiteral.read? cs).bind fun p => if isEnd p.2 then some (.entry key p.1) else none

/-- Reads a key and its text. -/
def readPair? (line : List Char) : Option ManifestLine :=
  let key := line.takeWhile isKeyChar
  match unspaced (line.dropWhile isKeyChar) with
  | '=' :: cs =>
      match unspaced cs with
      | '"' :: cs => if isKey key then readText? key cs else none
      | _ => none
  | _ => none

/-- Reads a line: nothing, the header of a table, or a key with a text. -/
def read? (line : List Char) : Option ManifestLine :=
  if isEnd line then some .blank
  else if line.head? == some '[' then
    if line.all fun c => isKeyChar c || c == '[' || c == ']' then some (.header line) else none
  else readPair? line

end ManifestLine

/-- The first name in a table, given the table that the lines are in. -/
def nameFrom? (target : List Char) : List Char → List (List Char) → Option (List Char)
  | _, [] => none
  | table, line :: lines =>
      match ManifestLine.read? line with
      | none => none
      | some .blank => nameFrom? target table lines
      | some (.header table) => nameFrom? target table lines
      | some (.entry key value) =>
          if table = target ∧ key = "name".toList then some value else nameFrom? target table lines

/-- The first name in a table of a manifest. -/
def tableName? (target manifest : String) : Option String :=
  (nameFrom? target.toList [] (manifest.toList.splitOn '\n')).map String.ofList

section Marks
variable {mark line rest : List Char}

/-- A mark that is not in a line is looked for in the next one. -/
theorem behind?_line (hne : mark ≠ []) (hbreak : '\n' ∉ mark) (h : ¬ mark <:+: line) :
    behind? mark (line ++ '\n' :: rest) = behind? mark rest := by
  induction line with
  | nil =>
      have hpre : mark.isPrefixOf ('\n' :: rest) = false := by
        obtain ⟨c, more, rfl⟩ := List.exists_cons_of_ne_nil hne
        have hc : c ≠ '\n' := fun he => hbreak (he ▸ List.mem_cons_self)
        simp [List.isPrefixOf, hc]
      rw [List.nil_append, behind?, hpre]
      rfl
  | cons c line ih =>
      have hpre : mark.isPrefixOf (c :: (line ++ '\n' :: rest)) = false := by
        rw [← Bool.not_eq_true, List.isPrefixOf_iff_prefix]
        intro hp
        have hwhole : (c :: line) ++ ['\n'] <+: c :: (line ++ '\n' :: rest) := ⟨rest, by simp⟩
        rcases List.prefix_or_prefix_of_prefix hp hwhole with hin | hover
        · rcases List.prefix_concat_iff.mp hin with rfl | hin
          · exact hbreak (by simp)
          · exact h hin.isInfix
        · exact hbreak (hover.subset (by simp))
      rw [List.cons_append, behind?, hpre]
      exact ih fun hin => h (hin.trans (List.suffix_cons c line).isInfix)

theorem behind?_unlines {lines : List String} (hne : mark ≠ []) (hbreak : '\n' ∉ mark)
    (h : ∀ line ∈ lines, ¬ mark <:+: line.toList) :
    behind? mark ((unlines lines).toList ++ rest) = behind? mark rest := by
  induction lines with
  | nil => rfl
  | cons line lines ih =>
      have hsplit : (unlines (line :: lines)).toList ++ rest =
          line.toList ++ '\n' :: ((unlines lines).toList ++ rest) := by
        rw [unlines_cons, String.toList_append, String.toList_append, List.append_assoc,
          List.append_assoc]
        rfl
      rw [hsplit, behind?_line hne hbreak (h line List.mem_cons_self)]
      exact ih fun l hl => h l (List.mem_cons_of_mem _ hl)

end Marks

/-- A text is found exactly if its characters are. -/
theorem map_ofList_eq_some_iff {found : Option (List Char)} {text : String} :
    found.map String.ofList = some text ↔ found = some text.toList := by
  constructor
  · intro h
    obtain ⟨cs, rfl, rfl⟩ := Option.map_eq_some_iff.mp h
    rw [String.toList_ofList]
  · rintro rfl
    rw [Option.map_some, String.ofList_toList]

section Source
variable (d : Declaration) (s : DriverSettings)

/-- The lines behind that on which the schema is made. -/
def linesBehindSchema : List String :=
  d.names.map schemaLine ++
    "\x7d" :: "" :: driveHeader :: (driveLines d.names ++ "\x7d" :: mainLines s.lifecycle)

/-- What follows the program's name in a source. -/
def behindProgram : List Char := ')' :: '\n' :: (unlines (linesBehindSchema d s)).toList

/-- The mark is not in the lines before it: each of them lacks one of its characters. -/
theorem not_schemaMark_infix_head : ∀ line ∈ headLines d ++ [schemaHeader],
    ¬ schemaMark.toList <:+: line.toList := by
  have hlacks : ∀ {c : Char} {line : String}, schemaMark.toList.contains c = true →
      c ∉ line.toList → ¬ schemaMark.toList <:+: line.toList := fun hc hl hin =>
    hl (hin.subset (List.contains_iff_mem.mp hc))
  have hname : ∀ name ∈ d.names, 'O' ∉ name.toList := fun name hn hm =>
    absurd ((continuesName_of_spellsName (nameError?_eq_none_iff.mp (d.legal name hn)).1).2 'O' hm)
      (by decide)
  have hlist : 'O' ∉ ("//! Sweep point driver for: " ++ parameterList d).toList := by
    rw [String.toList_append, List.mem_append, not_or]
    exact ⟨not_mem_literal rfl rfl,
      not_mem_parameterList d hname (not_mem_literal rfl rfl) (not_mem_literal rfl rfl)⟩
  have hversion : 'O' ∉ ("//! Generated by sweepgen " ++
      (generatorVersion ++ ". Regenerate instead of editing by hand.")).toList := by
    rw [String.toList_append, String.toList_append, List.mem_append, List.mem_append, not_or,
      not_or]
    exact ⟨not_mem_literal rfl rfl, not_mem_literal rfl rfl, not_mem_literal rfl rfl⟩
  have hcapital : schemaMark.toList.contains 'O' = true := Template.toList_of_eq rfl rfl
  have hbracket : schemaMark.toList.contains '(' = true := Template.toList_of_eq rfl rfl
  have hcolon : schemaMark.toList.contains ':' = true := Template.toList_of_eq rfl rfl
  unfold headLines
  simp only [List.cons_append, List.nil_append, List.forall_mem_cons]
  exact ⟨hlacks hcapital hlist, hlacks hcapital (not_mem_literal rfl rfl),
    hlacks hcapital hversion, hlacks hcapital (not_mem_literal rfl rfl),
    hlacks hcapital (not_mem_literal rfl rfl), hlacks hcapital (not_mem_literal rfl rfl),
    hlacks hcapital (not_mem_literal rfl rfl), hlacks hcapital (not_mem_literal rfl rfl),
    hlacks hbracket (not_mem_literal rfl rfl), hlacks hcapital (not_mem_literal rfl rfl),
    hlacks hcolon (not_mem_literal rfl rfl), List.forall_mem_nil _⟩

theorem behind?_source : behind? schemaMark.toList (unlines (sourceLines d s)).toList =
    some ('"' :: (s.program.toList ++ '"' :: behindProgram d s)) := by
  have hlines : sourceLines d s = (headLines d ++ [schemaHeader]) ++
      ("    OptionSchema::new(\"" ++ (s.program ++ "\")")) :: linesBehindSchema d s := by
    simp [sourceLines, schemaLines, linesBehindSchema]
  have hline : (unlines (("    OptionSchema::new(\"" ++ (s.program ++ "\")")) ::
      linesBehindSchema d s)).toList = "    ".toList ++ (schemaMark.toList ++
        ('"' :: (s.program.toList ++ '"' :: behindProgram d s))) := by
    rw [unlines_cons]
    simp only [String.toList_append, List.append_assoc]
    rfl
  rw [hlines, unlines_append, String.toList_append,
    behind?_unlines (by decide) (by decide) (not_schemaMark_infix_head d), hline]
  rfl

/-- The lines between the schema and the first text between quotes in what follows. -/
def openingLines : List String :=
  ["\x7d", "", driveHeader, "    let schema = schema();",
    "    let options = schema.parse(std::env::args_os())?;", "", "    if options.help() \x7b",
    "        report::usage(out, &schema)?;", "        return Ok(Status::Success);", "    \x7d", ""]

theorem isClear_unlines {lines : List String}
    (h : ∀ line ∈ lines, sourceLiteral.isClear line.toList = true) :
    sourceLiteral.isClear (unlines lines).toList = true := by
  induction lines with
  | nil => rfl
  | cons line lines ih =>
      have hbreak : sourceLiteral.isClear "\n".toList = true := Template.toList_of_eq rfl rfl
      rw [unlines_cons, String.toList_append, String.toList_append]
      refine LiteralRules.isClear_append (h line List.mem_cons_self)
        (LiteralRules.isClear_append hbreak ?_)
      exact ih fun l hl => h l (List.mem_cons_of_mem _ hl)

theorem isClear_openingLines :
    ∀ line ∈ openingLines, sourceLiteral.isClear line.toList = true := by
  unfold openingLines
  simp only [List.forall_mem_cons]
  and_intros <;> first | exact Template.toList_of_eq rfl rfl | exact List.forall_mem_nil _

/-- A line that breaks off at a quote, and the clear lines before it. -/
structure Quoting (lines front : List String) (before behind : String) (others : List String) :
    Prop where
  split : lines = front ++ (before ++ ("\"" ++ behind)) :: others
  clear : ∀ line ∈ front, sourceLiteral.isClear line.toList = true
  clearBefore : sourceLiteral.isClear before.toList = true
  bracket : before.toList.getLast? = some '('

theorem schemaLine_eq (name : String) :
    schemaLine name = "        .parameter(" ++ ("\"" ++ (name ++ "\")")) := by
  have hline : "        .parameter(\"" = "        .parameter(" ++ "\"" := rfl
  exact (congrArg (· ++ (name ++ "\")")) hline).trans String.append_assoc

theorem quoting_linesBehindSchema : ∃ front before behind others,
    Quoting (linesBehindSchema d s) front before behind others := by
  have hbracket : ∀ {text : String} {cs : List Char}, text = String.ofList cs →
      cs.getLast? = some '(' → text.toList.getLast? = some '(' := by
    intro text cs htext hcs
    rw [htext, String.toList_ofList, hcs]
  unfold linesBehindSchema
  cases d.names with
  | nil =>
      have hline : "    if !options.is_present(\"output_dir\") \x7b" =
          "    if !options.is_present(" ++ ("\"" ++ "output_dir\") \x7b") := rfl
      refine ⟨openingLines, "    if !options.is_present(", "output_dir\") \x7b",
        (driveLines [] ++ "\x7d" :: mainLines s.lifecycle).drop 9, ?_,
        isClear_openingLines, Template.toList_of_eq rfl rfl, hbracket rfl rfl⟩
      rw [← hline]
      rfl
  | cons name names =>
      refine ⟨[], "        .parameter(", name ++ "\")",
        names.map schemaLine ++ "\x7d" :: "" :: driveHeader ::
          (driveLines (name :: names) ++ "\x7d" :: mainLines s.lifecycle), ?_,
        fun l hl => absurd hl List.not_mem_nil, Template.toList_of_eq rfl rfl, hbracket rfl rfl⟩
      rw [List.map_cons, schemaLine_eq]
      rfl

/-- The next quote behind the program's name comes after characters that stand for themselves,
the last of them a bracket. -/
theorem behindProgram_quote : ∃ mid more, behindProgram d s = mid ++ '"' :: more ∧
    sourceLiteral.isClear mid = true ∧ mid.getLast? = some '(' := by
  obtain ⟨front, before, behind, others, hquoting⟩ := quoting_linesBehindSchema d s
  have hquote : "\"".toList = ['"'] := rfl
  refine ⟨')' :: '\n' :: (unlines front).toList ++ before.toList,
    behind.toList ++ ("\n" ++ unlines others).toList, ?_, ?_, ?_⟩
  · rw [behindProgram, hquoting.split, unlines_append, unlines_cons]
    simp only [String.toList_append, List.append_assoc, hquote, List.cons_append, List.nil_append]
  · have hclose : sourceLiteral.isClear [')', '\n'] = true := rfl
    exact LiteralRules.isClear_append
      (LiteralRules.isClear_append hclose (isClear_unlines hquoting.clear)) hquoting.clearBefore
  · rw [List.getLast?_append, hquoting.bracket]
    rfl

/-- Nothing that could be read behind the program's name ends in a backslash. -/
theorem read?_behindProgram {more rest : List Char}
    (h : sourceLiteral.read? (behindProgram d s) = some (more, rest)) :
    ∃ c, more.getLast? = some c ∧ c ≠ '\\' := by
  obtain ⟨mid, behind, hsplit, hclear, hlast⟩ := behindProgram_quote d s
  rw [hsplit, LiteralRules.read?_of_stands (LiteralRules.isClear_iff.mp hclear)] at h
  obtain ⟨rfl, -⟩ := Prod.mk.inj (Option.some.inj h)
  exact ⟨'(', hlast, by decide⟩

theorem soleText?_quote {cs text : List Char} : soleText? ('"' :: cs) = some text ↔
    ∃ rest, sourceLiteral.read? cs = some (text, ')' :: rest) := by
  simp only [soleText?]
  split
  · next found rest hread =>
      rw [hread]
      simp
  · next hother =>
      constructor
      · exact fun h => nomatch h
      · rintro ⟨rest, hread⟩
        exact absurd hread (hother text rest)

/-- The argument is the program's name exactly if the characters of the name stand for
themselves. -/
theorem schemaArgument?_source :
    schemaArgument? (unlines (sourceLines d s)) = some s.program ↔
      ∀ c ∈ s.program.toList, sourceLiteral.Stands c := by
  rw [schemaArgument?, behind?_source, Option.bind_some, map_ofList_eq_some_iff, soleText?_quote]
  constructor
  · rintro ⟨rest, hread⟩
    exact LiteralRules.stands_of_read? hread fun more rest hmore => read?_behindProgram d s hmore
  · intro h
    exact ⟨_, LiteralRules.read?_of_stands h (behindProgram d s)⟩

end Source

namespace ManifestLine

theorem unspaced_cons {c : Char} (hs : c ≠ ' ') (ht : c ≠ '\t') (cs : List Char) :
    unspaced (c :: cs) = c :: cs := by
  simp [unspaced, hs, ht]

/-- A line with a key, an equals sign and an opening quote. -/
theorem read?_key {key : List Char} (hkey : isKey key = true) (q : List Char) :
    read? (key ++ (' ' :: '=' :: ' ' :: '"' :: q)) = readText? key q := by
  have hkeyChars := hkey
  rw [isKey, Bool.and_eq_true, List.all_eq_true] at hkeyChars
  obtain ⟨hfilled, hall⟩ := hkeyChars
  obtain ⟨c, more, rfl⟩ : ∃ c more, key = c :: more :=
    List.exists_cons_of_ne_nil (by simpa using hfilled)
  have hother : ∀ d, isKeyChar d = false → c ≠ d := by
    rintro d hd rfl
    rw [hall c List.mem_cons_self] at hd
    cases hd
  have hspaced : ∀ cs, unspaced (c :: cs) = c :: cs :=
    unspaced_cons (hother ' ' rfl) (hother '\t' rfl)
  have hend : isEnd (c :: more ++ ' ' :: '=' :: ' ' :: '"' :: q) = false := by
    rw [List.cons_append, isEnd, hspaced]
    simp [hother '#' rfl, hother '\r' rfl]
  have hheader : (c :: more ++ ' ' :: '=' :: ' ' :: '"' :: q).head? ≠ some '[' := by
    simpa using hother '[' rfl
  have htake : (c :: more ++ ' ' :: '=' :: ' ' :: '"' :: q).takeWhile isKeyChar = c :: more := by
    rw [List.takeWhile_append_of_pos hall, List.takeWhile_cons_of_neg (by decide), List.append_nil]
  have hdrop : unspaced ((c :: more ++ ' ' :: '=' :: ' ' :: '"' :: q).dropWhile isKeyChar) =
      '=' :: ' ' :: '"' :: q := by
    rw [List.dropWhile_append_of_pos hall, List.dropWhile_cons_of_neg (by decide)]
    rfl
  have hquote : unspaced (' ' :: '"' :: q) = '"' :: q := rfl
  rw [read?, hend, if_neg Bool.false_ne_true, if_neg (by simpa using hheader)]
  simp only [readPair?, htake, hdrop, hquote, hkey, if_true]

/-- A key with a text whose characters stand for themselves. -/
theorem read?_entry {line key value : String} (h : line = key ++ (" = \"" ++ (value ++ "\"")))
    (hkey : isKey key.toList = true) (hvalue : manifestLiteral.isClear value.toList = true) :
    read? line.toList = some (.entry key.toList value.toList) := by
  have hopen : " = \"".toList = [' ', '=', ' ', '"'] := rfl
  have hclose : "\"".toList = ['"'] := rfl
  rw [h, String.toList_append, String.toList_append, String.toList_append, hopen, hclose]
  simp only [List.cons_append, List.nil_append]
  rw [read?_key hkey, readText?, LiteralRules.read?_of_stands (LiteralRules.isClear_iff.mp hvalue)]
  rfl

end ManifestLine

section Lines
variable {target table : List Char} {lines : List (List Char)} {line name : List Char}

theorem nameFrom?_blank (h : ManifestLine.read? line = some .blank) :
    nameFrom? target table (line :: lines) = nameFrom? target table lines := by
  rw [nameFrom?, h]

theorem nameFrom?_header {next : List Char} (h : ManifestLine.read? line = some (.header next)) :
    nameFrom? target table (line :: lines) = nameFrom? target next lines := by
  rw [nameFrom?, h]

theorem nameFrom?_entry {key value : List Char}
    (h : ManifestLine.read? line = some (.entry key value))
    (hne : ¬ (table = target ∧ key = "name".toList)) :
    nameFrom? target table (line :: lines) = nameFrom? target table lines := by
  rw [nameFrom?, h]
  exact if_neg hne

/-- The line of a name, up to a break in it. -/
theorem exists_first_line (front name behind : List Char) (hfront : '\n' ∉ front) :
    ∃ q others, (front ++ (name ++ '"' :: '\n' :: behind)).splitOn '\n' = (front ++ q) :: others ∧
      q <+: name ++ ['"'] ∧ ('\n' ∉ name → q = name ++ ['"']) := by
  by_cases hbreak : '\n' ∈ name
  · obtain ⟨before, after, rfl, hbefore⟩ := List.eq_append_cons_of_mem hbreak
    refine ⟨before, (after ++ '"' :: '\n' :: behind).splitOn '\n', ?_, ?_, fun h => absurd hbreak h⟩
    · have hunbroken : '\n' ∉ front ++ before := by simp [hfront, hbefore]
      rw [← List.splitOn_append_cons_self_of_not_mem hunbroken]
      simp
    · rw [List.append_assoc]
      exact List.prefix_append _ _
  · have hunbroken : '\n' ∉ front ++ (name ++ ['"']) := by simp [hfront, hbreak]
    refine ⟨name ++ ['"'], behind.splitOn '\n', ?_, List.prefix_refl _, fun _ => rfl⟩
    rw [← List.splitOn_append_cons_self_of_not_mem hunbroken]
    simp

/-- In the table that is looked for, the text of a name is the answer. -/
theorem nameFrom?_text (q : List Char) :
    nameFrom? target target (("name".toList ++ ' ' :: '=' :: ' ' :: '"' :: q) :: lines) =
      (manifestLiteral.read? q).bind fun p =>
        if ManifestLine.isEnd p.2 then some p.1 else none := by
  have hkey : ManifestLine.isKey "name".toList = true := Template.toList_of_eq rfl rfl
  rw [nameFrom?, ManifestLine.read?_key hkey, ManifestLine.readText?]
  cases manifestLiteral.read? q with
  | none => rfl
  | some p =>
      rw [Option.bind_some, Option.bind_some]
      cases ManifestLine.isEnd p.2 with
      | false => rfl
      | true => exact if_pos ⟨rfl, rfl⟩

/-- A name is read as it is exactly if its characters stand for themselves. -/
theorem nameFrom?_name {q : List Char} (hq : q <+: name ++ ['"'])
    (hwhole : '\n' ∉ name → q = name ++ ['"']) :
    nameFrom? target target (("name".toList ++ ' ' :: '=' :: ' ' :: '"' :: q) :: lines) =
        some name ↔
      ∀ c ∈ name, manifestLiteral.Stands c := by
  rw [nameFrom?_text]
  constructor
  · intro h
    obtain ⟨⟨value, rest⟩, hread, hvalue⟩ := Option.bind_eq_some_iff.mp h
    obtain rfl : value = name := by
      split at hvalue
      · exact Option.some.inj hvalue
      · cases hvalue
    -- What is read is no longer than the name and its closing quote.
    have hlength := hq.length_le
    rw [List.length_append, List.length_singleton] at hlength
    exact ((LiteralRules.reads_of_read? hread).stands_of_length (by omega)).2
  · intro h
    have hbreak : '\n' ∉ name := fun hm => absurd (h _ hm) (by decide)
    rw [hwhole hbreak, LiteralRules.read?_of_stands h]
    rfl

end Lines

section Manifest
variable (package : String) (d : Declaration) (s : DriverSettings) (dependency : String)

/-- The characters of parameter names stand for themselves. -/
theorem stands_of_continuesName {c : Char} (h : continuesName c = true) :
    manifestLiteral.Stands c := by
  have hle : ∀ a b : Char, a ≤ b ↔ a.toNat ≤ b.toNat := fun _ _ => Iff.rfl
  have hrange : 48 ≤ c.toNat ∧ c.toNat ≤ 122 ∧ c.toNat ≠ 92 := by
    have ha : 'a'.toNat = 97 := rfl
    have hz : 'z'.toNat = 122 := rfl
    have h0 : '0'.toNat = 48 := rfl
    have h9 : '9'.toNat = 57 := rfl
    simp only [continuesName, startsName, Bool.or_eq_true, Bool.and_eq_true, decide_eq_true_eq,
      beq_iff_eq, hle] at h
    rcases h with (h | rfl) | h
    · omega
    · decide
    · omega
  refine ⟨?_, ?_, ?_⟩
  · rintro rfl
    exact absurd hrange (by decide)
  · rintro rfl
    exact absurd hrange (by decide)
  · have hlow : 0x20 ≤ c.toNat := by omega
    have hhigh : c.toNat ≠ 0x7F := by omega
    simp [manifestLiteral, hlow, hhigh]

/-- The list of the names stands for itself. -/
theorem stands_parameterList : ∀ c ∈ (parameterList d).toList, manifestLiteral.Stands c := by
  intro c hc
  by_contra hnot
  have hname : ∀ name ∈ d.names, c ∉ name.toList := fun name hn hm =>
    hnot (stands_of_continuesName
      ((continuesName_of_spellsName (nameError?_eq_none_iff.mp (d.legal name hn)).1).2 c hm))
  have hlacks : ∀ {text : String}, manifestLiteral.isClear text.toList = true → c ∉ text.toList :=
    fun h hm => hnot (LiteralRules.isClear_iff.mp h c hm)
  exact not_mem_parameterList d hname (hlacks (Template.toList_of_eq rfl rfl))
    (hlacks (Template.toList_of_eq rfl rfl)) hc

/-- The line of a name. -/
def nameLine (name : String) : String := "name = \"" ++ (name ++ "\"")

theorem toList_nameLine (name : String) : (nameLine name).toList =
    ("name".toList ++ [' ', '=', ' ', '"']) ++ (name.toList ++ ['"']) := by
  have hopen : "name = \"".toList = "name".toList ++ [' ', '=', ' ', '"'] := rfl
  have hclose : "\"".toList = ['"'] := rfl
  rw [nameLine, String.toList_append, String.toList_append, hopen, hclose]

/-- A name behind lines that lead to its table is read as it is exactly if its characters stand
for themselves. -/
theorem tableName?_nameLine {target name : String} {before : List String}
    (hbefore : ∀ line ∈ before, '\n' ∉ line.toList)
    (hpass : ∀ rest, nameFrom? target.toList [] (before.map String.toList ++ rest) =
      nameFrom? target.toList target.toList rest) (after : List String) :
    tableName? target (unlines (before ++ nameLine name :: after)) = some name ↔
      ∀ c ∈ name.toList, manifestLiteral.Stands c := by
  obtain ⟨q, others, hsplit, hq, hwhole⟩ :=
    exists_first_line ("name".toList ++ [' ', '=', ' ', '"']) name.toList (unlines after).toList
      (by decide)
  have hline : (unlines (nameLine name :: after)).toList =
      ("name".toList ++ [' ', '=', ' ', '"']) ++
        (name.toList ++ '"' :: '\n' :: (unlines after).toList) := by
    have hbreak : "\n".toList = ['\n'] := rfl
    rw [unlines_cons, String.toList_append, String.toList_append, toList_nameLine, hbreak]
    simp only [List.append_assoc, List.cons_append, List.nil_append]
  have hfront : ("name".toList ++ [' ', '=', ' ', '"']) ++ q =
      "name".toList ++ ' ' :: '=' :: ' ' :: '"' :: q := List.append_assoc ..
  rw [tableName?, map_ofList_eq_some_iff, unlines_append, String.toList_append, hline,
    splitOn_unlines hbefore, hsplit, hpass, hfront]
  exact nameFrom?_name hq hwhole

/-- The lines between the names of a package and of its program. -/
def linesBetween : List String :=
  ["version = \"0.1.0\"", "edition = \"2024\"",
    "description = \"Sweep point driver for: " ++ (parameterList d ++ "\""), "", "[[bin]]"]

theorem manifestTextLines_eq : manifestTextLines package d s dependency =
    (["[package]"] ++ nameLine package :: linesBetween d) ++ nameLine s.program ::
      ["path = \"src/main.rs\"", "", "[dependencies]", dependency] := rfl

theorem tableName?_package :
    tableName? "[package]" (unlines (manifestTextLines package d s dependency)) = some package ↔
      ∀ c ∈ package.toList, manifestLiteral.Stands c := by
  rw [manifestTextLines_eq, List.append_assoc]
  apply tableName?_nameLine
  · simp only [List.forall_mem_singleton]
    exact not_mem_literal rfl rfl
  · exact fun rest => nameFrom?_header rfl

/-- The lines between the names are read whatever the parameters are. -/
theorem nameFrom?_linesBetween (rest : List (List Char)) :
    nameFrom? "[[bin]]".toList "[package]".toList ((linesBetween d).map String.toList ++ rest) =
      nameFrom? "[[bin]]".toList "[[bin]]".toList rest := by
  have hother : ∀ {key : List Char},
      ¬ ("[package]".toList = "[[bin]]".toList ∧ key = "name".toList) :=
    fun h => absurd h.1 (by decide)
  have hversion : ManifestLine.read? "version = \"0.1.0\"".toList =
      some (.entry "version".toList "0.1.0".toList) :=
    ManifestLine.read?_entry rfl (Template.toList_of_eq rfl rfl) (Template.toList_of_eq rfl rfl)
  have hedition : ManifestLine.read? "edition = \"2024\"".toList =
      some (.entry "edition".toList "2024".toList) :=
    ManifestLine.read?_entry rfl (Template.toList_of_eq rfl rfl) (Template.toList_of_eq rfl rfl)
  have hvalue :
      manifestLiteral.isClear ("Sweep point driver for: " ++ parameterList d).toList = true := by
    rw [String.toList_append]
    exact LiteralRules.isClear_append (Template.toList_of_eq rfl rfl)
      (LiteralRules.isClear_iff.mpr (stands_parameterList d))
  have hline : "description = \"Sweep point driver for: " ++ (parameterList d ++ "\"") =
      "description" ++ (" = \"" ++ ("Sweep point driver for: " ++ parameterList d ++ "\"")) := by
    have hopen : "description = \"Sweep point driver for: " =
        "description" ++ (" = \"" ++ "Sweep point driver for: ") := rfl
    simp only [hopen, String.append_assoc]
  have hdescription := ManifestLine.read?_entry hline (Template.toList_of_eq rfl rfl) hvalue
  simp only [linesBetween, List.map_cons, List.map_nil, List.cons_append, List.nil_append]
  rw [nameFrom?_entry hversion hother, nameFrom?_entry hedition hother,
    nameFrom?_entry hdescription hother, nameFrom?_blank rfl, nameFrom?_header rfl]

/-- The lines before the program's name are whole when the package's name is. -/
theorem unbroken_linesBefore (h : ∀ c ∈ package.toList, manifestLiteral.Stands c) :
    ∀ line ∈ ["[package]"] ++ nameLine package :: linesBetween d, '\n' ∉ line.toList := by
  have hbreak : ¬ manifestLiteral.Stands '\n' := by decide
  have hpackage : '\n' ∉ (nameLine package).toList :=
    not_break_append (not_mem_literal rfl rfl)
      (not_break_append (fun hm => hbreak (h _ hm)) (not_mem_literal rfl rfl))
  have hdescription : '\n' ∉
      ("description = \"Sweep point driver for: " ++ (parameterList d ++ "\"")).toList :=
    not_break_append (not_mem_literal rfl rfl)
      (not_break_append (fun hm => hbreak (stands_parameterList d _ hm)) (not_mem_literal rfl rfl))
  simp only [linesBetween, List.cons_append, List.nil_append, List.forall_mem_cons]
  exact ⟨not_mem_literal rfl rfl, hpackage, not_mem_literal rfl rfl, not_mem_literal rfl rfl,
    hdescription, not_mem_literal rfl rfl, not_mem_literal rfl rfl, List.forall_mem_nil _⟩

theorem tableName?_program (h : ∀ c ∈ package.toList, manifestLiteral.Stands c) :
    tableName? "[[bin]]" (unlines (manifestTextLines package d s dependency)) = some s.program ↔
      ∀ c ∈ s.program.toList, manifestLiteral.Stands c := by
  rw [manifestTextLines_eq]
  apply tableName?_nameLine
  · exact unbroken_linesBefore package d h
  · intro rest
    have hname : ManifestLine.read? (nameLine package).toList =
        some (.entry "name".toList package.toList) :=
      ManifestLine.read?_entry rfl (Template.toList_of_eq rfl rfl) (LiteralRules.isClear_iff.mpr h)
    simp only [List.map_cons, List.cons_append, List.nil_append]
    rw [nameFrom?_header rfl, nameFrom?_entry hname fun hn => absurd hn.1 (by decide)]
    exact nameFrom?_linesBetween d rest

end Manifest

/-- The built-in templates copy names between quotes. In a source the program's name is read as
itself exactly if it has no quote, backslash or carriage return. In a manifest the names of the
package and of the program are read as themselves exactly if they have no quote, no backslash and
no control character but tabs. -/
theorem rendered_names_read (d : Declaration) (s : DriverSettings) (package dependency : String) :
    ∃ source manifest,
      (∀ (m : Type → Type) [Monad m] [LawfulMonad m] [Files m],
        (Renderer.builtIn.renderDriver d s : Generating m String) = pure source ∧
          (Renderer.builtIn.renderManifest package d s dependency : Generating m String) =
            pure manifest) ∧
      (schemaArgument? source = some s.program ↔
        ∀ c ∈ s.program.toList, sourceLiteral.Stands c) ∧
      (tableName? "[package]" manifest = some package ↔
        ∀ c ∈ package.toList, manifestLiteral.Stands c) ∧
      (tableName? "[package]" manifest = some package ∧
          tableName? "[[bin]]" manifest = some s.program ↔
        (∀ c ∈ package.toList, manifestLiteral.Stands c) ∧
          ∀ c ∈ s.program.toList, manifestLiteral.Stands c) := by
  refine ⟨unlines (sourceLines d s), unlines (manifestTextLines package d s dependency), ?_,
    schemaArgument?_source d s, tableName?_package package d s dependency, ?_⟩
  · intro m _ _ _
    exact ⟨Renderer.renderDriver_builtIn d s,
      Renderer.renderManifest_builtIn package d s dependency⟩
  · rw [tableName?_package]
    exact and_congr_right fun hpackage => tableName?_program package d s dependency hpackage

/-- A quote in the program's name ends the text that the schema is made with. -/
theorem not_rendered_names_read : ¬ ∀ (d : Declaration) (s : DriverSettings)
    (package dependency source manifest : String),
    (Renderer.builtIn.renderDriver d s : Generating (StateM FileTree) String) = pure source →
    (Renderer.builtIn.renderManifest package d s dependency :
        Generating (StateM FileTree) String) = pure manifest →
      schemaArgument? source = some s.program ∧ tableName? "[package]" manifest = some package ∧
        tableName? "[[bin]]" manifest = some s.program := by
  intro hall
  let s : DriverSettings := ⟨"a\"b", "x"⟩
  obtain ⟨hsource, -⟩ := hall .empty s "p" "" _ _
    (Renderer.renderDriver_builtIn .empty s) (Renderer.renderManifest_builtIn "p" .empty s "")
  have hstands := (schemaArgument?_source .empty s).mp hsource
  exact absurd (hstands '"' (by decide)) (by decide)

end PointDriver.Package

import PointDriver.Proofs.Schema.Entries
import PointDriver.Proofs.Text.Lines
import PointDriver.Text.Blank

/-!
# Reading a description of options

A description shows each option on a line of its own, and what the option means
either on the same line or on the next. Which of the two it is, and how wide the
gap is, depends on all the options together. A reader that knows nothing of this
finds every option with its meaning again, in order.
-/

namespace PointDriver

namespace Description

/-- What stands before the name on the line of an option. -/
def mark : List Char := "      --".toList

/-- What stands behind the dashes, if the line is that of an option. -/
def option? (line : List Char) : Option (List Char) :=
  if mark.isPrefixOf line then some (line.drop mark.length) else none

/-- The options of lines. An option has its name, and all that stands behind the name before the
next option. -/
def options : List (List Char) → List (List Char × List Char)
  | [] => []
  | line :: rest =>
      match option? line with
      | none => options rest
      | some shown =>
          (shown.takeWhile (· != ' '), shown.dropWhile (· != ' ') ++
            (rest.takeWhile fun l => (option? l).isNone).flatten) :: options rest

/-- What is said about an option: all behind its name but for the placeholder of its value and the
blanks at both ends. -/
def meaning (behind : List Char) : List Char :=
  match trimStart behind with
  | '<' :: rest => trim ((rest.dropWhile (· != '>')).drop 1)
  | said => trimEnd said

/-- The options of a description, each with what is said about it. -/
def read (text : String) : List (String × String) :=
  (options (text.toList.splitOn '\n')).map fun o => (String.ofList o.1, String.ofList (meaning o.2))

section Lines
variable {line shown name tail : List Char} {lines rest : List (List Char)}

theorem option?_mark (shown : List Char) : option? (mark ++ shown) = some shown := by
  simp [option?, List.isPrefixOf_iff_prefix]

/-- Lines before the first option are passed over. -/
theorem options_append (h : ∀ line ∈ lines, option? line = none) (rest : List (List Char)) :
    options (lines ++ rest) = options rest := by
  induction lines with
  | nil => rfl
  | cons line lines ih =>
      obtain ⟨hline, hlines⟩ := List.forall_mem_cons.mp h
      simp only [List.cons_append, options, hline, ih hlines]

/-- A name ends at the first blank or with its line. -/
theorem takeWhile_name (h : ' ' ∉ name) (ht : ∀ c ∈ tail.head?, c = ' ') :
    (name ++ tail).takeWhile (· != ' ') = name ∧ (name ++ tail).dropWhile (· != ' ') = tail := by
  have hname : ∀ c ∈ name, (c != ' ') = true := fun c hc => bne_iff_ne.mpr fun he => h (he ▸ hc)
  rw [List.takeWhile_append_of_pos hname, List.dropWhile_append_of_pos hname]
  cases tail with
  | nil => exact ⟨List.append_nil _, rfl⟩
  | cons c tail =>
      obtain rfl := ht c rfl
      exact ⟨by simp, by simp⟩

/-- An option is read with the lines up to the next one. -/
theorem options_mark (h : ' ' ∉ name) (ht : ∀ c ∈ tail.head?, c = ' ')
    (hlines : ∀ line ∈ lines, option? line = none)
    (hrest : (rest.takeWhile fun l => (option? l).isNone).flatten = []) :
    options ((mark ++ (name ++ tail)) :: (lines ++ rest)) =
      (name, tail ++ lines.flatten) :: options rest := by
  have hnone : ∀ line ∈ lines, (option? line).isNone = true :=
    fun line hl => Option.isNone_iff_eq_none.mpr (hlines line hl)
  obtain ⟨htake, hdrop⟩ := takeWhile_name h ht
  rw [options, option?_mark]
  simp only [htake, hdrop, options_append hlines, List.takeWhile_append_of_pos hnone,
    List.flatten_append, hrest, List.append_nil]

end Lines

section Meaning
variable {help : List Char}

theorem isBlank_of_mem_replicate {n : Nat} {c : Char} (h : c ∈ List.replicate n ' ') :
    isBlank c = true := by
  obtain rfl := List.eq_of_mem_replicate h
  rfl

/-- A text between characters that are not blank, of which the first opens no placeholder. -/
structure IsHelp (help : List Char) : Prop where
  starts : ∃ c rest, help = c :: rest ∧ isBlank c = false ∧ c ≠ '<'
  ends : ∃ front c, help = front ++ [c] ∧ isBlank c = false

theorem IsHelp.trimStart_gap (h : IsHelp help) (n : Nat) :
    trimStart (List.replicate n ' ' ++ help) = help := by
  obtain ⟨c, rest, rfl, hc, -⟩ := h.starts
  rw [trimStart, List.dropWhile_append_of_pos fun _ => isBlank_of_mem_replicate]
  exact trimStart_eq_self hc

theorem IsHelp.trimEnd_eq (h : IsHelp help) : trimEnd help = help := by
  obtain ⟨front, c, rfl, hc⟩ := h.ends
  exact trimEnd_append_singleton front hc

/-- What is said behind a gap is found. -/
theorem IsHelp.meaning_gap (h : IsHelp help) (n : Nat) :
    meaning (List.replicate n ' ' ++ help) = help := by
  obtain ⟨c, rest, hhelp, -, hc⟩ := h.starts
  have hends := h.trimEnd_eq
  rw [meaning, h.trimStart_gap n]
  rw [hhelp] at hends ⊢
  split
  · next heq => exact absurd (List.cons.inj heq).1 hc
  · exact hends

/-- What is said behind a placeholder and a gap is found. -/
theorem IsHelp.meaning_placeholder (h : IsHelp help) {placeholder : List Char}
    (hp : '>' ∉ placeholder) (n : Nat) :
    meaning (' ' :: '<' :: (placeholder ++ '>' :: (List.replicate n ' ' ++ help))) = help := by
  have hpass : ∀ c ∈ placeholder, (c != '>') = true :=
    fun c hc => bne_iff_ne.mpr fun he => hp (he ▸ hc)
  have hstart : trimStart (' ' :: '<' :: (placeholder ++ '>' :: (List.replicate n ' ' ++ help))) =
      '<' :: (placeholder ++ '>' :: (List.replicate n ' ' ++ help)) := rfl
  rw [meaning, hstart]
  simp only [List.dropWhile_append_of_pos hpass]
  rw [List.dropWhile_cons_of_neg (by simp), List.drop_one, List.tail_cons, trim, h.trimStart_gap n,
    h.trimEnd_eq]

end Meaning

end Description

namespace CommandLine
open Skeleton

/-- The lines of a row. -/
def Row.lines (stacked : Bool) (width : Nat) (row : Row) : List String :=
  if stacked then ["  " ++ row.label, blanks 10 ++ row.help]
  else ["  " ++ row.label ++ blanks (width - row.label.length) ++ "  " ++ row.help]

theorem Row.text_eq (stacked : Bool) (width : Nat) (row : Row) :
    row.text stacked width = unlines (row.lines stacked width) := by
  cases stacked <;> simp [Row.text, Row.lines, unlines, String.append_assoc]

theorem tableText_eq (heading : String) (rows : List Row) :
    tableText heading rows = unlines ((heading ++ ":") ::
      rows.flatMap (Row.lines (isStacked rows) (labelWidth rows))) := by
  have hrows : ∀ some : List Row, String.join (some.map (Row.text (isStacked rows)
      (labelWidth rows))) =
        unlines (some.flatMap (Row.lines (isStacked rows) (labelWidth rows))) := by
    intro some
    induction some with
    | nil => rfl
    | cons row some ih =>
        rw [List.map_cons, List.flatMap_cons, String.join_cons, unlines_append, ih, Row.text_eq]
  rw [tableText, unlines_cons, hrows, String.append_assoc, String.append_assoc]
  rfl

end CommandLine

namespace OptionEntry
open CommandLine Skeleton

/-- What stands for the value of an option behind its name. -/
def placeholder (e : OptionEntry) : List Char :=
  match e.kind with
  | .flag => []
  | .string => " <PATH>".toList
  | .double => " <VALUE>".toList

/-- An option with a name and a meaning that its lines keep apart. -/
structure Describable (e : OptionEntry) : Prop where
  name : ∀ c ∈ e.name.toList, c ≠ ' ' ∧ c ≠ '\n'
  help : Description.IsHelp e.help.toList
  unbroken : '\n' ∉ e.help.toList

/-- The row of an option in the table. -/
def row (e : OptionEntry) : Row := ⟨e.spec.tableLabel, e.help⟩

theorem toList_tableLabel (e : OptionEntry) :
    "  ".toList ++ e.spec.tableLabel.toList =
      Description.mark ++ (e.name.toList ++ e.placeholder) := by
  have hmark : Description.mark = "  ".toList ++ (List.replicate 4 ' ' ++ "--".toList) := by decide
  have hpath : " <PATH>".toList = " <".toList ++ ("PATH".toList ++ ">".toList) := by decide
  have hvalue : " <VALUE>".toList = " <".toList ++ ("VALUE".toList ++ ">".toList) := by decide
  obtain ⟨name, kind, required, help⟩ := e
  cases kind <;> simp only [spec, Spec.tableLabel, Spec.label, OptionKind.role, placeholder, blanks,
    hmark, hpath, hvalue, String.toList_append, String.toList_ofList, List.append_assoc,
    List.append_nil]

section Lines
variable {e : OptionEntry}

theorem head?_placeholder (e : OptionEntry) : ∀ c ∈ e.placeholder.head?, c = ' ' := by
  obtain ⟨name, kind, required, help⟩ := e
  cases kind <;> simp [placeholder]

theorem meaning_placeholder (h : e.Describable) (n : Nat) :
    Description.meaning (e.placeholder ++ (List.replicate n ' ' ++ e.help.toList)) =
      e.help.toList := by
  unfold placeholder
  cases e.kind with
  | flag => exact h.help.meaning_gap n
  | string => exact h.help.meaning_placeholder (by decide : '>' ∉ "PATH".toList) n
  | double => exact h.help.meaning_placeholder (by decide : '>' ∉ "VALUE".toList) n

/-- In either layout the lines of an option begin with its name, and what stands behind it is its
meaning behind a gap. -/
theorem lines_row (stacked : Bool) (width : Nat) (e : OptionEntry) :
    ∃ (tail : List Char) (more : List (List Char)) (gap : Nat),
      (e.row.lines stacked width).map String.toList =
        (Description.mark ++ (e.name.toList ++ tail)) :: more ∧
      (∀ c ∈ tail.head?, c = ' ') ∧ (∀ line ∈ more, Description.option? line = none) ∧
      tail ++ more.flatten = e.placeholder ++ (List.replicate gap ' ' ++ e.help.toList) := by
  have hlabel := toList_tableLabel e
  -- Either the meaning is the line behind the name, or the gap before it starts on the same line.
  cases stacked with
  | true =>
      refine ⟨e.placeholder, [List.replicate 10 ' ' ++ e.help.toList], 10, ?_,
        head?_placeholder e, ?_, by simp⟩
      · simp [Row.lines, row, blanks, ← hlabel]
      · exact List.forall_mem_singleton.mpr rfl
  | false =>
      let gap := width - e.spec.tableLabel.length + 2
      refine ⟨e.placeholder ++ (List.replicate gap ' ' ++ e.help.toList), [], gap, ?_, ?_,
        List.forall_mem_nil _, by simp⟩
      · have hgap : List.replicate gap ' ' =
            List.replicate (width - e.spec.tableLabel.length) ' ' ++ "  ".toList :=
          List.replicate_append_replicate.symm
        simp only [Row.lines, row, blanks, hgap, Bool.false_eq_true, if_false, List.map_cons,
          List.map_nil, String.toList_append, String.toList_ofList, hlabel, List.append_assoc]
      · cases hp : e.placeholder with
        | nil => simp [gap, List.replicate_succ]
        | cons c rest =>
            have hhead := head?_placeholder e
            rw [hp] at hhead
            exact hhead

/-- Before the next option there is nothing but the end of the text. -/
theorem takeWhile_rows (stacked : Bool) (width : Nat) (entries : List OptionEntry) :
    (((entries.flatMap fun e : OptionEntry =>
        (e.row.lines stacked width).map String.toList) ++ [[]]).takeWhile
      fun l => (Description.option? l).isNone).flatten = [] := by
  cases entries with
  | nil => rfl
  | cons e entries =>
      obtain ⟨tail, more, gap, hlines, -⟩ := lines_row stacked width e
      rw [List.flatMap_cons, hlines, List.cons_append, List.cons_append,
        List.takeWhile_cons_of_neg (by simp [Description.option?_mark])]
      rfl

/-- The rows of a table are read in order. -/
theorem options_rows (stacked : Bool) (width : Nat) {entries : List OptionEntry}
    (h : ∀ e ∈ entries, e.Describable) :
    ((Description.options ((entries.flatMap fun e : OptionEntry =>
        (e.row.lines stacked width).map String.toList) ++ [[]])).map
      fun o => (String.ofList o.1, String.ofList (Description.meaning o.2))) =
      entries.map fun e => (e.name, e.help) := by
  -- What the layout is does not matter: it is the same for all rows, and so a parameter here.
  induction entries with
  | nil => rfl
  | cons e entries ih =>
      obtain ⟨he, hentries⟩ := List.forall_mem_cons.mp h
      obtain ⟨tail, more, gap, hlines, htail, hmore, hbehind⟩ := lines_row stacked width e
      have hname : ' ' ∉ e.name.toList := fun hc => (he.name ' ' hc).1 rfl
      rw [List.flatMap_cons, hlines, List.append_assoc, List.cons_append,
        Description.options_mark hname htail hmore (takeWhile_rows stacked width entries),
        List.map_cons, List.map_cons, ih hentries, hbehind, meaning_placeholder he gap,
        String.ofList_toList, String.ofList_toList]

/-- The lines of an option hold no further breaks. -/
theorem not_mem_lines_row (stacked : Bool) (width : Nat) (he : e.Describable) :
    ∀ line ∈ e.row.lines stacked width, '\n' ∉ line.toList := by
  have hblanks : ∀ n, '\n' ∉ (blanks n).toList := by
    intro n hmem
    rw [blanks, String.toList_ofList] at hmem
    exact absurd (List.eq_of_mem_replicate hmem) (by decide)
  have hlabel : '\n' ∉ "  ".toList ++ e.spec.tableLabel.toList := by
    rw [toList_tableLabel]
    have hplaceholder : '\n' ∉ e.placeholder := by
      unfold placeholder
      cases e.kind <;> decide
    simp only [List.mem_append, not_or]
    exact ⟨by decide, fun hc => (he.name _ hc).2 rfl, hplaceholder⟩
  have hgap : '\n' ∉ "  ".toList := by decide
  intro line hl
  cases stacked with
  | true =>
      simp only [Row.lines, row, if_true, List.mem_cons, List.not_mem_nil, or_false] at hl
      rcases hl with rfl | rfl
      · simpa using hlabel
      · simpa using ⟨hblanks 10, he.unbroken⟩
  | false =>
      simp only [Row.lines, row, Bool.false_eq_true, if_false, List.mem_singleton] at hl
      subst hl
      simp only [String.toList_append, List.mem_append, not_or] at hlabel ⊢
      exact ⟨⟨⟨hlabel, hblanks _⟩, hgap⟩, he.unbroken⟩

end Lines

end OptionEntry

namespace Schema
open CommandLine Skeleton

/-- The lines of a description. -/
theorem describe_eq (s : Schema) :
    s.describe = unlines ([usageLine s.program ["[OPTIONS]"], "", "Options:"] ++
      (s.entries.flatMap fun e => e.row.lines (isStacked (s.entries.map OptionEntry.row))
        (labelWidth (s.entries.map OptionEntry.row)))) := by
  have hrows : (s.entries.map fun e => (⟨e.spec.tableLabel, e.help⟩ : Row)) =
      s.entries.map OptionEntry.row := rfl
  have hbreaks : "\n\n" = "\n" ++ "\n" := rfl
  have hheading : "Options" ++ ":" = "Options:" := rfl
  rw [describe, hrows, tableText_eq, List.flatMap_map, hbreaks, hheading]
  simp only [List.cons_append, List.nil_append, unlines_cons, String.append_assoc,
    String.empty_append]

/-- The usage line is a line, and none of an option. -/
theorem usageLine_options {program : String} (h : '\n' ∉ program.toList) :
    '\n' ∉ (usageLine program ["[OPTIONS]"]).toList ∧
      Description.option? (usageLine program ["[OPTIONS]"]).toList = none := by
  have hshape : ∃ rest, (usageLine program ["[OPTIONS]"]).toList = 'U' :: rest ∧
      '\n' ∉ 'U' :: rest := by
    by_cases hp : program = ""
    · subst hp
      exact ⟨"sage: [OPTIONS]".toList, by decide, by decide⟩
    · refine ⟨"sage: ".toList ++ (program.toList ++ " [OPTIONS]".toList), ?_, ?_⟩
      · simp [usageLine, hp, String.intercalate_cons_cons]
      · have hbefore : '\n' ∉ 'U' :: "sage: ".toList := by decide
        have hbehind : '\n' ∉ " [OPTIONS]".toList := by decide
        rw [← List.cons_append, List.mem_append, List.mem_append]
        exact fun hc => hc.elim hbefore fun hc => hc.elim h hbehind
  obtain ⟨rest, hrest, hbreak⟩ := hshape
  rw [hrest]
  exact ⟨hbreak, rfl⟩

/-- Every option of a description is read with its meaning, whatever the layout is. -/
theorem read_describe {s : Schema} (hprogram : '\n' ∉ s.program.toList)
    (h : ∀ e ∈ s.entries, e.Describable) :
    Description.read s.describe = s.entries.map fun e => (e.name, e.help) := by
  obtain ⟨husage, hfirst⟩ := usageLine_options hprogram
  let stacked := isStacked (s.entries.map OptionEntry.row)
  let width := labelWidth (s.entries.map OptionEntry.row)
  have hlines : ∀ line ∈ [usageLine s.program ["[OPTIONS]"], "", "Options:"] ++
      s.entries.flatMap (fun e => e.row.lines stacked width), '\n' ∉ line.toList := by
    intro line hl
    rcases List.mem_append.mp hl with hl | hl
    · simp only [List.mem_cons, List.not_mem_nil, or_false] at hl
      rcases hl with rfl | rfl | rfl
      · exact husage
      · decide
      · decide
    · obtain ⟨e, he, hl⟩ := List.mem_flatMap.mp hl
      exact OptionEntry.not_mem_lines_row stacked width (h e he) line hl
  have hhead : ∀ line ∈ [(usageLine s.program ["[OPTIONS]"]).toList, [], "Options:".toList],
      Description.option? line = none := by
    simp only [List.forall_mem_cons]
    exact ⟨hfirst, rfl, by decide, List.forall_mem_nil _⟩
  have hsplit := splitOn_unlines hlines []
  rw [List.append_nil, ← describe_eq] at hsplit
  have hrows := OptionEntry.options_rows stacked width h
  rw [Description.read, hsplit, List.map_append, List.map_flatMap, List.append_assoc]
  exact (congrArg _ (Description.options_append hhead _)).trans hrows

/-- No character of a name is blank. -/
theorem isBlank_of_continuesName {c : Char} (h : continuesName c = true) : isBlank c = false := by
  have hle : ∀ a b : Char, a ≤ b ↔ a.toNat ≤ b.toNat := fun _ _ => Iff.rfl
  have ha : 'a'.toNat = 97 := rfl
  have hz : 'z'.toNat = 122 := rfl
  have h0 : '0'.toNat = 48 := rfl
  have h9 : '9'.toNat = 57 := rfl
  have hrange : 48 ≤ c.toNat ∧ c.toNat ≤ 122 := by
    simp only [continuesName, startsName, Bool.or_eq_true, Bool.and_eq_true, decide_eq_true_eq,
      beq_iff_eq, hle] at h
    rcases h with (h | rfl) | h
    · omega
    · decide
    · omega
  simp only [isBlank, Bool.or_eq_false_iff, Bool.and_eq_false_iff, decide_eq_false_iff_not,
    beq_eq_false_iff_ne]
  omega

/-- A name is kept apart by blanks and breaks. -/
theorem apart_of_spellsName {name : String} (h : spellsName name.toList = true) :
    ∀ c ∈ name.toList, c ≠ ' ' ∧ c ≠ '\n' := by
  intro c hc
  have hblank := isBlank_of_continuesName ((continuesName_of_spellsName h).2 c hc)
  constructor
  · rintro rfl
    cases hblank
  · rintro rfl
    cases hblank

theorem describable_parameter {name : String} (h : spellsName name.toList = true) :
    (OptionEntry.parameter name).Describable := by
  obtain ⟨hne, hall⟩ := continuesName_of_spellsName h
  have hapart := apart_of_spellsName h
  have hhelp : (OptionEntry.parameter name).help.toList =
      "Set the value of ".toList ++ name.toList := String.toList_append
  refine ⟨hapart, ⟨⟨'S', "et the value of ".toList ++ name.toList, hhelp, rfl, by decide⟩, ?_⟩, ?_⟩
  · rcases List.eq_nil_or_concat name.toList with hnil | ⟨front, last, hlast⟩
    · exact absurd hnil hne
    · rw [List.concat_eq_append] at hlast
      refine ⟨"Set the value of ".toList ++ front, last, ?_, ?_⟩
      · rw [hhelp, hlast, List.append_assoc]
      · exact isBlank_of_continuesName (hall last (by simp [hlast]))
  · rw [hhelp, List.mem_append, not_or]
    exact ⟨by decide, fun hc => (hapart _ hc).2 rfl⟩

theorem describable_helpFlag : OptionEntry.helpFlag.Describable := by
  have hstarts : OptionEntry.helpFlag.help.toList = 'P' :: "roduce this help message".toList := by
    decide +kernel
  have hends : OptionEntry.helpFlag.help.toList = "Produce this help messag".toList ++ ['e'] := by
    decide +kernel
  have hbreak : '\n' ∉ OptionEntry.helpFlag.help.toList := by decide +kernel
  exact ⟨apart_of_spellsName (by decide), ⟨⟨_, _, hstarts, rfl, by decide⟩, _, _, hends, rfl⟩,
    hbreak⟩

theorem describable_outputDir : OptionEntry.outputDir.Describable := by
  have hstarts : OptionEntry.outputDir.help.toList =
      'D' :: "irectory to write simulation outputs".toList := by decide +kernel
  have hends : OptionEntry.outputDir.help.toList =
      "Directory to write simulation output".toList ++ ['s'] := by decide +kernel
  have hbreak : '\n' ∉ OptionEntry.outputDir.help.toList := by decide +kernel
  exact ⟨apart_of_spellsName (by decide), ⟨⟨_, _, hstarts, rfl, by decide⟩, _, _, hends, rfl⟩,
    hbreak⟩

/-- The options of a declaration can be described. -/
theorem describable_ofDeclaration (program : String) (d : Declaration) :
    ∀ e ∈ (ofDeclaration program d).entries, e.Describable := by
  rw [ofDeclaration, entries_ofNames]
  simp only [List.forall_mem_cons, List.forall_mem_map]
  refine ⟨describable_helpFlag, describable_outputDir, fun name hn => ?_⟩
  exact describable_parameter (nameError?_eq_none_iff.mp (d.legal name hn)).1

end Schema

end PointDriver

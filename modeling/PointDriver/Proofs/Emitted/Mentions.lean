import Mathlib.Data.List.Infix
import PointDriver.Proofs.Emitted.Agreement

/-!
# Where a driver's source names its parameters

Four kinds of lines name a parameter, each behind a marker of its own. Read from
top to bottom, the lines of a driver's source name the parameters of the
declaration once in each kind and nothing else but the directory, so the source
determines its declaration.
-/

namespace PointDriver.Emitted

/-- What a line does with the parameter that it names. -/
inductive Mention where
  /-- It adds the parameter to the schema. -/
  | schema
  /-- It asks whether the parameter is given. -/
  | check
  /-- It reads the value into a local. -/
  | binding
  /-- It prints the value. -/
  | report
  deriving DecidableEq, Repr

namespace Mention

/-- The kinds in the order in which a source has them. -/
def all : List Mention := [schema, check, binding, report]

/-- What stands in front of the quoted name. -/
def marker : Mention → String
  | schema => ".parameter("
  | check => "options.is_present("
  | binding => "options.double("
  | report => "report::parameter(out, "

/-- The line for a name without its indentation. -/
def statement (name : String) : Mention → String
  | schema => ".parameter(\"" ++ (name ++ "\")")
  | check => "if !options.is_present(\"" ++ (name ++ "\") \x7b")
  | binding => "let " ++ (name ++ (": f64 = options.double(\"" ++ (name ++ "\")?;")))
  | report => "report::parameter(out, \"" ++ (name ++ ("\", " ++ (name ++ ")?;")))

/-- The kinds whose marker ends a text. -/
def endingOf (before : List Char) : List Mention :=
  all.filter fun k => k.marker.toList.isSuffixOf before

end Mention

/-- What stands before each quote of a line, back to the quote before it, and what stands
behind it, up to the next quote. -/
def quotations (line : List Char) : List (List Char × List Char) :=
  (line.splitOn '"').zip (line.splitOn '"').tail

/-- The quoted names of a line that stand behind a marker. -/
def mentions (line : String) : List (Mention × String) :=
  (quotations line.toList).flatMap fun q =>
    (Mention.endingOf q.1).map fun k => (k, String.ofList q.2)

section Quotations
variable {before name rest : List Char}

theorem quotations_of_not_mem (h : '"' ∉ rest) : quotations rest = [] := by
  simp [quotations, List.splitOn_eq_singleton h]

theorem quotations_append (h : '"' ∉ before) (rest : List Char) :
    ∃ name, quotations (before ++ '"' :: rest) = (before, name) :: quotations rest := by
  obtain ⟨name, more, hs⟩ := List.exists_cons_of_ne_nil (List.splitOn_ne_nil '"' rest)
  refine ⟨name, ?_⟩
  simp [quotations, List.splitOn_append_cons_self_of_not_mem h, hs]

/-- The text between two quotes follows the first of them. -/
theorem quotations_quoted (hb : '"' ∉ before) (hn : '"' ∉ name) :
    quotations (before ++ '"' :: (name ++ '"' :: rest)) =
      (before, name) :: quotations (name ++ '"' :: rest) := by
  simp [quotations, List.splitOn_append_cons_self_of_not_mem hb,
    List.splitOn_append_cons_self_of_not_mem hn]

/-- A text with a quote at its end occurs before the first quote or behind it. -/
theorem infix_quote_iff {m : List Char} (hm : '"' ∉ m) (hb : '"' ∉ before) :
    m ++ ['"'] <:+: before ++ '"' :: rest ↔ m <:+ before ∨ m ++ ['"'] <:+: rest := by
  constructor
  · rintro ⟨s, t, h⟩
    have hcut : s ++ m ++ '"' :: t = before ++ '"' :: rest := by simpa using h
    by_cases hs : '"' ∈ s
    · obtain ⟨first, second, rfl, hf⟩ := List.eq_append_cons_of_mem hs
      have hsplit := congrArg (List.splitOn '"') hcut
      rw [List.append_assoc, List.append_assoc, List.cons_append,
        List.splitOn_append_cons_self_of_not_mem hf,
        List.splitOn_append_cons_self_of_not_mem hb] at hsplit
      obtain rfl := (List.cons.inj hsplit).1
      have hrest : second ++ m ++ '"' :: t = rest := by simpa using hcut
      exact Or.inr ⟨second, t, by simpa using hrest⟩
    · have hsm : '"' ∉ s ++ m := by simp [hs, hm]
      have hsplit := congrArg (List.splitOn '"') hcut
      rw [List.splitOn_append_cons_self_of_not_mem hsm,
        List.splitOn_append_cons_self_of_not_mem hb] at hsplit
      exact Or.inl ⟨s, (List.cons.inj hsplit).1⟩
  · rintro (⟨s, rfl⟩ | ⟨s, t, rfl⟩)
    · exact ⟨s, rest, by simp⟩
    · exact ⟨before ++ '"' :: s, t, by simp⟩

end Quotations

namespace Mention

theorem not_mem_marker (k : Mention) : '"' ∉ k.marker.toList := by
  cases k <;> exact not_mem_literal rfl rfl

theorem mem_endingOf {k : Mention} {before : List Char} :
    k ∈ endingOf before ↔ k.marker.toList <:+ before := by
  have hall : k ∈ all := by cases k <;> decide
  simp [endingOf, hall]

/-- A marker with a quote occurs in a text exactly when it stands before one of its quotes. -/
theorem infix_iff (k : Mention) (cs : List Char) :
    k.marker.toList ++ ['"'] <:+: cs ↔ ∃ q ∈ quotations cs, k ∈ endingOf q.1 := by
  induction hn : cs.length using Nat.strong_induction_on generalizing cs with
  | _ n ih =>
      by_cases hq : '"' ∈ cs
      · obtain ⟨before, rest, rfl, hb⟩ := List.eq_append_cons_of_mem hq
        obtain ⟨name, hs⟩ := quotations_append hb rest
        have hlt : rest.length < n := by
          rw [← hn, List.length_append, List.length_cons]
          omega
        rw [infix_quote_iff k.not_mem_marker hb, ih _ hlt rest rfl, hs]
        simp only [List.mem_cons, exists_eq_or_imp, mem_endingOf]
      · have hnot : ¬ k.marker.toList ++ ['"'] <:+: cs :=
          fun h => hq (h.subset (by simp))
        simp [quotations_of_not_mem hq, hnot]

end Mention

/-- A line mentions something in a way exactly when the marker occurs in it. -/
theorem exists_mem_mentions_iff {k : Mention} {line : String} :
    (∃ name, (k, name) ∈ mentions line) ↔ (k.marker ++ "\"").toList <:+: line.toList := by
  have hquote : "\"".toList = ['"'] := rfl
  rw [String.toList_append, hquote, k.infix_iff]
  simp only [mentions, List.mem_flatMap, List.mem_map, Prod.mk.injEq]
  constructor
  · rintro ⟨name, q, hq, k', hk, rfl, -⟩
    exact ⟨q, hq, hk⟩
  · rintro ⟨q, hq, hk⟩
    exact ⟨_, q, hq, k, hk, rfl, rfl⟩

namespace Mention

/-- A text that is as long as every marker decides which markers end it. -/
theorem endingOf_append {behind : List Char}
    (h : all.all fun k => k.marker.toList.length ≤ behind.length) (front : List Char) :
    endingOf (front ++ behind) = endingOf behind := by
  apply List.filter_congr
  intro k hk
  rw [Bool.eq_iff_iff, List.isSuffixOf_iff_suffix, List.isSuffixOf_iff_suffix]
  have hlength : k.marker.toList.length ≤ behind.length := by
    simpa using List.all_eq_true.mp h k hk
  exact ⟨fun hs => List.suffix_of_suffix_length_le hs (List.suffix_append front behind) hlength,
    fun hs => hs.trans (List.suffix_append front behind)⟩

/-- No marker ends in a name. -/
theorem endingOf_name {name : String} (h : Wordlike name) : endingOf name.toList = [] := by
  apply List.filter_eq_nil_iff.mpr
  intro k _ hk
  have hopen : ∃ c ∈ k.marker.toList, continuesWord c = false := by
    cases k <;> exact ⟨'(', by decide +kernel, by decide⟩
  obtain ⟨c, hc, hw⟩ := hopen
  have hname := h.word c ((List.isSuffixOf_iff_suffix.mp hk).subset hc)
  rw [hw] at hname
  exact Bool.false_ne_true hname

theorem length_marker_le :
    all.all fun k => k.marker.toList.length ≤ ": f64 = options.double(".toList.length := by
  decide +kernel

/-- What stands before a quoted name in the lines of a driver, and what each is marked as. -/
theorem endingOf_fronts :
    endingOf "        .parameter(".toList = [schema] ∧
      endingOf "    if !options.is_present(".toList = [check] ∧
      endingOf "        report::missing_parameter(out, &schema, ".toList = [] ∧
      endingOf ": f64 = options.double(".toList = [binding] ∧
      endingOf "    report::parameter(out, ".toList = [report] ∧
      endingOf "    let output_dir = options.string(".toList = [] := by
  decide +kernel

end Mention

section Lines
variable {name : String}

/-- The mentions of a line with one quoted name. -/
theorem mentions_quoted (h : Wordlike name) {line : String} {before after : List Char}
    (hl : line.toList = before ++ (['"'] ++ (name.toList ++ (['"'] ++ after)))) (hb : '"' ∉ before)
    (ha : '"' ∉ after) : mentions line = (Mention.endingOf before).map (·, name) := by
  have hname : '"' ∉ name.toList := fun hm => (h.quotable _ hm).1 rfl
  have hlast : quotations (name.toList ++ '"' :: after) = [(name.toList, after)] := by
    simp [quotations, List.splitOn_append_cons_self_of_not_mem hname, List.splitOn_eq_singleton ha]
  have hall : quotations line.toList = [(before, name.toList), (name.toList, after)] := by
    rw [hl, ← hlast]
    exact quotations_quoted hb hname
  simp [mentions, hall, Mention.endingOf_name h]

/-- The mentions of a line that is a name between two texts, which are written out. -/
theorem mentions_literal (h : Wordlike name) {before front back : String} {cs ds : List Char}
    {named : List Mention} (hk : Mention.endingOf before.toList = named)
    (hc : before = String.ofList cs) (hf : front = String.ofList (cs ++ ['"']))
    (hb : back = String.ofList ('"' :: ds)) (hq : (cs ++ ds).all (· != '"') = true) :
    mentions (front ++ (name ++ back)) = named.map (·, name) := by
  have hnone : (∀ c ∈ cs, c ≠ '"') ∧ ∀ c ∈ ds, c ≠ '"' := by simpa using hq
  have hl : (front ++ (name ++ back)).toList = cs ++ (['"'] ++ (name.toList ++ (['"'] ++ ds))) := by
    simp [hf, hb]
  have hcs : before.toList = cs := by rw [hc, String.toList_ofList]
  rw [mentions_quoted h hl (fun hm => hnone.1 _ hm rfl) (fun hm => hnone.2 _ hm rfl), ← hcs, hk]

/-- A line without quotes mentions nothing. -/
theorem mentions_of_not_mem {line : String} (h : '"' ∉ line.toList) : mentions line = [] := by
  rw [mentions, quotations_of_not_mem h, List.flatMap_nil]

theorem mentions_schemaLine (h : Wordlike name) :
    mentions (Package.schemaLine name) = [(.schema, name)] :=
  mentions_literal h Mention.endingOf_fronts.1 rfl rfl rfl rfl

theorem mentions_askLine (h : Wordlike name) :
    mentions ("    if !options.is_present(\"" ++ (name ++ "\") \x7b")) = [(.check, name)] :=
  mentions_literal h Mention.endingOf_fronts.2.1 rfl rfl rfl rfl

theorem mentions_missingLine (h : Wordlike name) :
    mentions ("        report::missing_parameter(out, &schema, \"" ++ (name ++ "\")?;")) = [] :=
  mentions_literal h Mention.endingOf_fronts.2.2.1 rfl rfl rfl rfl

theorem mentions_bindingLine (h : Wordlike name) :
    mentions (Package.bindingLine name) = [(.binding, name)] := by
  have hopen : ": f64 = options.double(\"".toList = ": f64 = options.double(".toList ++ ['"'] := by
    rw [← String.toList_singleton, ← String.toList_append]
    rfl
  have hclose : "\")?;".toList = ['"'] ++ [')', '?', ';'] := rfl
  have hl : (Package.bindingLine name).toList =
      ("    let ".toList ++ name.toList ++ ": f64 = options.double(".toList) ++
        (['"'] ++ (name.toList ++ (['"'] ++ [')', '?', ';']))) := by
    unfold Package.bindingLine
    simp only [String.toList_append]
    rw [hopen, hclose]
    simp only [List.append_assoc]
  have hname : '"' ∉ name.toList := fun hm => (h.quotable _ hm).1 rfl
  have hbefore : '"' ∉ "    let ".toList ++ name.toList ++ ": f64 = options.double(".toList := by
    simp only [List.mem_append, not_or]
    exact ⟨⟨not_mem_literal rfl rfl, hname⟩, not_mem_literal rfl rfl⟩
  rw [mentions_quoted h hl hbefore (by decide), Mention.endingOf_append Mention.length_marker_le,
    Mention.endingOf_fronts.2.2.2.1]
  rfl

theorem mentions_reportLine (h : Wordlike name) :
    mentions (Package.reportLine name) = [(.report, name)] := by
  have hopen : "    report::parameter(out, \"".toList =
      "    report::parameter(out, ".toList ++ ['"'] := by
    rw [← String.toList_singleton, ← String.toList_append]
    rfl
  have hnext : "\", ".toList = ['"'] ++ ", ".toList := rfl
  have hl : (Package.reportLine name).toList = "    report::parameter(out, ".toList ++
        (['"'] ++ (name.toList ++ (['"'] ++ (", ".toList ++ (name.toList ++ ")?;".toList))))) := by
    unfold Package.reportLine
    simp only [String.toList_append]
    rw [hopen, hnext, List.append_assoc, List.append_assoc]
  have hname : '"' ∉ name.toList := fun hm => (h.quotable _ hm).1 rfl
  have hafter : '"' ∉ ", ".toList ++ (name.toList ++ ")?;".toList) := by
    simp only [List.mem_append, not_or]
    exact ⟨not_mem_literal rfl rfl, hname, not_mem_literal rfl rfl⟩
  rw [mentions_quoted h hl (not_mem_literal rfl rfl) hafter, Mention.endingOf_fronts.2.2.2.2.1]
  rfl

end Lines

/-- Whether a line leaves the work with the status of a usage error. -/
def refuses (line : String) : Bool :=
  decide ("return Ok(Status::UsageError);".toList <:+: line.toList)

/-- A line without the blanks at its start. -/
def unindented (line : String) : String := String.ofList (line.toList.dropWhile (· == ' '))

/-- A line without the capital of the status does not refuse. -/
theorem refuses_of_not_mem {line : String} (h : 'U' ∉ line.toList) : refuses line = false := by
  have hmark : 'U' ∈ "return Ok(Status::UsageError);".toList := by decide +kernel
  exact decide_eq_false fun hi => h (hi.subset hmark)

theorem unindented_append {front text : String} {width : Nat}
    (h : front = CommandLine.blanks width ++ text)
    (ht : text.toList.head?.any (· != ' ') = true) (rest : String) :
    unindented (front ++ rest) = text ++ rest := by
  cases hc : text.toList with
  | nil => simp [hc] at ht
  | cons c cs =>
      have hne : (c == ' ') = false := by simpa [hc] using ht
      have hall : ∀ x ∈ List.replicate width ' ', (x == ' ') = true := by simp
      have hdrop : (front ++ rest).toList.dropWhile (· == ' ') = text.toList ++ rest.toList := by
        rw [h, hc, CommandLine.blanks, String.toList_append, String.toList_append,
          String.toList_ofList, hc, List.append_assoc, List.dropWhile_append_of_pos hall,
          List.cons_append, List.dropWhile_cons_of_neg (by simp [hne])]
      rw [unindented, hdrop, ← String.toList_append, String.ofList_toList]

/-- What the lines mention from top to bottom, each mention on the line stated for it, and how
many of them refuse. -/
structure Naming (lines : List String) (named : List (Mention × String)) (refusals : Nat) :
    Prop where
  mentioned : lines.flatMap mentions = named
  stated : ∀ line ∈ lines, ∀ m ∈ mentions line, unindented line = m.1.statement m.2
  refused : lines.countP refuses = refusals

namespace Naming
variable {a b lines : List String} {s t : List (Mention × String)} {m n : Nat}

theorem append (ha : Naming a s m) (hb : Naming b t n) : Naming (a ++ b) (s ++ t) (m + n) where
  mentioned := by rw [List.flatMap_append, ha.mentioned, hb.mentioned]
  stated := by
    intro line hl
    rcases List.mem_append.mp hl with hl | hl
    · exact ha.stated line hl
    · exact hb.stated line hl
  refused := by rw [List.countP_append, ha.refused, hb.refused]

theorem cons {line : String} (ha : Naming [line] s m) (hb : Naming lines t n) :
    Naming (line :: lines) (s ++ t) (m + n) := ha.append hb

theorem nil : Naming [] [] 0 := ⟨rfl, fun _ hl => absurd hl List.not_mem_nil, rfl⟩

/-- A single line with what it mentions. -/
theorem line {l : String} (hm : mentions l = s) (hs : ∀ m ∈ s, unindented l = m.1.statement m.2)
    (hr : refuses l = false) : Naming [l] s 0 where
  mentioned := by simpa using hm
  stated := by
    intro l' hl m hmem
    obtain rfl := List.mem_singleton.mp hl
    rw [hm] at hmem
    exact hs m hmem
  refused := by simp [hr]

/-- A line that mentions nothing. -/
theorem silent {l : String} (hm : mentions l = []) (hr : refuses l = false) : Naming [l] [] 0 :=
  line hm (fun _ hmem => absurd hmem List.not_mem_nil) hr

/-- A line with one mention. -/
theorem single {l name : String} {k : Mention} (hm : mentions l = [(k, name)])
    (hl : unindented l = k.statement name) (hr : refuses l = false) :
    Naming [l] [(k, name)] 0 := by
  apply line hm _ hr
  intro m hmem
  obtain rfl := List.mem_singleton.mp hmem
  exact hl

/-- Whether a line has neither a quote nor the capital of the status. -/
def isPlain (line : List Char) : Bool := line.all fun c => c != '"' && c != 'U'

theorem isPlain_append {a b : String} (ha : isPlain a.toList = true)
    (hb : isPlain b.toList = true) : isPlain (a ++ b).toList = true := by
  rw [isPlain, String.toList_append, List.all_append, Bool.and_eq_true]
  exact ⟨ha, hb⟩

/-- A plain line mentions nothing and does not refuse. -/
theorem plain {l : String} (h : isPlain l.toList = true) : Naming [l] [] 0 := by
  have hnone : ∀ c ∈ l.toList, c ≠ '"' ∧ c ≠ 'U' := by simpa [isPlain] using h
  exact silent (mentions_of_not_mem fun hm => (hnone _ hm).1 rfl)
    (refuses_of_not_mem fun hm => (hnone _ hm).2 rfl)

/-- A plain line is passed over. -/
theorem skip {l : String} {cs : List Char} (h : l = String.ofList cs) (hc : isPlain cs = true)
    (hb : Naming lines t n) : Naming (l :: lines) t n := by
  have hall := (plain (Template.toList_of_eq h hc)).cons hb
  rw [Nat.zero_add] at hall
  exact hall

/-- The lines of all names in order. -/
theorem each {names : List String} {lines : String → List String} {k : Mention} {n : Nat}
    (h : ∀ name ∈ names, Naming (lines name) [(k, name)] n) :
    Naming (names.flatMap lines) (names.map (k, ·)) (n * names.length) := by
  induction names with
  | nil => exact nil
  | cons name names ih =>
      have hrest := ih fun x hx => h x (List.mem_cons_of_mem _ hx)
      have hall := (h name List.mem_cons_self).append hrest
      rw [List.flatMap_cons, List.map_cons, List.length_cons, Nat.mul_succ, Nat.add_comm]
      exact hall

/-- One line for each name in order. -/
theorem eachLine {names : List String} {line : String → String} {k : Mention}
    (h : ∀ name ∈ names, Naming [line name] [(k, name)] 0) :
    Naming (names.map line) (names.map (k, ·)) 0 := by
  have hall := each h
  rw [Nat.zero_mul] at hall
  rw [List.map_eq_flatMap]
  exact hall

end Naming

/-- The last lines of a check. -/
theorem naming_refusal : Naming ["        return Ok(Status::UsageError);", "    \x7d"] [] 1 := by
  have hmentions : mentions "        return Ok(Status::UsageError);" = [] :=
    mentions_of_not_mem (not_mem_literal rfl rfl)
  have hmark : refuses "        return Ok(Status::UsageError);" = true :=
    decide_eq_true ⟨"        ".toList, [], rfl⟩
  have hleave : Naming ["        return Ok(Status::UsageError);"] [] 1 := by
    constructor
    · simpa using hmentions
    · simp [hmentions]
    · simp [hmark]
  exact hleave.append (.skip rfl rfl .nil)

section Groups
variable {name : String} (h : spellsName name.toList = true)
include h

theorem not_mem_name {c : Char} (hc : continuesName c = false) : c ∉ name.toList := by
  intro hm
  have hname := (continuesName_of_spellsName h).2 c hm
  rw [hc] at hname
  exact Bool.false_ne_true hname

theorem naming_schemaLine : Naming [Package.schemaLine name] [(.schema, name)] 0 := by
  have hname : 'U' ∉ name.toList := not_mem_name h rfl
  have hfixed : 'U' ∉ "        .parameter(\"".toList ∧ 'U' ∉ "\")".toList :=
    ⟨not_mem_literal rfl rfl, not_mem_literal rfl rfl⟩
  have hopen : "        .parameter(\"" = CommandLine.blanks 8 ++ ".parameter(\"" := rfl
  have hl : unindented (Package.schemaLine name) = Mention.schema.statement name :=
    unindented_append hopen (by decide +kernel) _
  refine .single (mentions_schemaLine (wordlike_of_spellsName h)) hl (refuses_of_not_mem ?_)
  unfold Package.schemaLine
  simp only [String.toList_append, List.mem_append, not_or]
  exact ⟨hfixed.1, hname, hfixed.2⟩

theorem naming_askLine :
    Naming ["    if !options.is_present(\"" ++ (name ++ "\") \x7b")] [(.check, name)] 0 := by
  have hname : 'U' ∉ name.toList := not_mem_name h rfl
  have hfixed : 'U' ∉ "    if !options.is_present(\"".toList ∧ 'U' ∉ "\") \x7b".toList :=
    ⟨not_mem_literal rfl rfl, not_mem_literal rfl rfl⟩
  have hopen : "    if !options.is_present(\"" =
      CommandLine.blanks 4 ++ "if !options.is_present(\"" := rfl
  refine .single (mentions_askLine (wordlike_of_spellsName h))
    (unindented_append hopen (by decide +kernel) _) (refuses_of_not_mem ?_)
  simp only [String.toList_append, List.mem_append, not_or]
  exact ⟨hfixed.1, hname, hfixed.2⟩

theorem naming_checkLines : Naming (Package.checkLines name) [(.check, name)] 1 := by
  have hname : 'U' ∉ name.toList := not_mem_name h rfl
  have hfixed : 'U' ∉ "        report::missing_parameter(out, &schema, \"".toList ∧
      'U' ∉ "\")?;".toList := ⟨not_mem_literal rfl rfl, not_mem_literal rfl rfl⟩
  have hcall : Naming ["        report::missing_parameter(out, &schema, \"" ++
      (name ++ "\")?;")] [] 0 := by
    refine .silent (mentions_missingLine (wordlike_of_spellsName h)) (refuses_of_not_mem ?_)
    simp only [String.toList_append, List.mem_append, not_or]
    exact ⟨hfixed.1, hname, hfixed.2⟩
  exact .skip rfl rfl ((naming_askLine h).cons (hcall.cons naming_refusal))

theorem naming_bindingLine : Naming [Package.bindingLine name] [(.binding, name)] 0 := by
  have hname : 'U' ∉ name.toList := not_mem_name h rfl
  have hfixed : 'U' ∉ "    let ".toList ∧ 'U' ∉ ": f64 = options.double(\"".toList ∧
      'U' ∉ "\")?;".toList :=
    ⟨not_mem_literal rfl rfl, not_mem_literal rfl rfl, not_mem_literal rfl rfl⟩
  have hopen : "    let " = CommandLine.blanks 4 ++ "let " := rfl
  have hl : unindented (Package.bindingLine name) = Mention.binding.statement name :=
    unindented_append hopen (by decide +kernel) _
  refine .single (mentions_bindingLine (wordlike_of_spellsName h)) hl (refuses_of_not_mem ?_)
  unfold Package.bindingLine
  simp only [String.toList_append, List.mem_append, not_or]
  exact ⟨hfixed.1, hname, hfixed.2.1, hname, hfixed.2.2⟩

theorem naming_reportLine : Naming [Package.reportLine name] [(.report, name)] 0 := by
  have hname : 'U' ∉ name.toList := not_mem_name h rfl
  have hfixed : 'U' ∉ "    report::parameter(out, \"".toList ∧ 'U' ∉ "\", ".toList ∧
      'U' ∉ ")?;".toList :=
    ⟨not_mem_literal rfl rfl, not_mem_literal rfl rfl, not_mem_literal rfl rfl⟩
  have hopen : "    report::parameter(out, \"" =
      CommandLine.blanks 4 ++ "report::parameter(out, \"" := rfl
  have hl : unindented (Package.reportLine name) = Mention.report.statement name :=
    unindented_append hopen (by decide +kernel) _
  refine .single (mentions_reportLine (wordlike_of_spellsName h)) hl (refuses_of_not_mem ?_)
  unfold Package.reportLine
  simp only [String.toList_append, List.mem_append, not_or]
  exact ⟨hfixed.1, hname, hfixed.2.1, hname, hfixed.2.2⟩

end Groups

/-- What the work mentions: the directory and all parameters are checked, and then the values
are read and reported. -/
def driveMentions (names : List String) : List (Mention × String) :=
  (.check, outputDirName) :: (names.map (.check, ·) ++
    (names.map (.binding, ·) ++ names.map (.report, ·)))

/-- The mentions of a driver's source: the schema names all parameters before the work does. -/
def sourceMentions (names : List String) : List (Mention × String) :=
  names.map (.schema, ·) ++ driveMentions names

theorem spellsName_outputDirName : spellsName outputDirName.toList = true := by decide

theorem naming_outputDirLine :
    Naming ["    let output_dir = options.string(\"output_dir\")?;"] [] 0 := by
  have hm : mentions ("    let output_dir = options.string(\"" ++ (outputDirName ++ "\")?;")) =
      [] := mentions_literal (wordlike_of_spellsName spellsName_outputDirName)
    Mention.endingOf_fronts.2.2.2.2.2 rfl rfl rfl rfl
  exact .silent hm (refuses_of_not_mem (not_mem_literal rfl rfl))

theorem naming_driveLines {names : List String}
    (h : ∀ name ∈ names, spellsName name.toList = true) :
    Naming (Package.driveLines names) (driveMentions names) (names.length + 1) := by
  have hask : Naming ["    if !options.is_present(\"output_dir\") \x7b"]
      [(.check, outputDirName)] 0 := naming_askLine spellsName_outputDirName
  have hopening : Naming [
      "    let schema = schema();",
      "    let options = schema.parse(std::env::args_os())?;",
      "",
      "    if options.help() \x7b",
      "        report::usage(out, &schema)?;",
      "        return Ok(Status::Success);",
      "    \x7d",
      "",
      "    if !options.is_present(\"output_dir\") \x7b",
      "        report::missing_output_dir(out, &schema)?;",
      "        return Ok(Status::UsageError);",
      "    \x7d" ] [(.check, outputDirName)] 1 := by
    iterate 8 refine .skip rfl rfl ?_
    exact hask.cons (.skip rfl rfl naming_refusal)
  have hdirectory : Naming ["", "    let output_dir = options.string(\"output_dir\")?;"] [] 0 :=
    .skip rfl rfl naming_outputDirLine
  have hreport : Naming ["", "    report::output_dir(out, &output_dir)?;"] [] 0 :=
    .skip rfl rfl (.skip rfl rfl .nil)
  have hlast : Naming ["", "    Ok(Status::Success)"] [] 0 := .skip rfl rfl (.skip rfl rfl .nil)
  have hchecks := hopening.append (Naming.each fun name hn => naming_checkLines (h name hn))
  have hbindings := (hchecks.append hdirectory).append
    (Naming.eachLine fun name hn => naming_bindingLine (h name hn))
  have hreports := (hbindings.append hreport).append
    (Naming.eachLine fun name hn => naming_reportLine (h name hn))
  have hall := hreports.append hlast
  simp only [List.append_nil, List.cons_append, List.nil_append, List.append_assoc, Nat.add_zero,
    Nat.one_mul] at hall
  rw [Nat.add_comm]
  unfold Package.driveLines driveMentions
  simp only [List.append_assoc, List.cons_append, List.nil_append]
  exact hall

theorem naming_headLines (d : Declaration) : Naming (Package.headLines d) [] 0 := by
  have hname : ∀ c, continuesName c = false → ∀ name ∈ d.names, c ∉ name.toList :=
    fun c hc name hn => not_mem_name (nameError?_eq_none_iff.mp (d.legal name hn)).1 hc
  have hquote : '"' ∉ ("//! Sweep point driver for: " ++ Package.parameterList d).toList := by
    rw [String.toList_append, List.mem_append]
    exact not_or.mpr ⟨not_mem_literal rfl rfl, not_mem_parameterList d (hname '"' rfl)
      (not_mem_literal rfl rfl) (not_mem_literal rfl rfl)⟩
  have hcapital : 'U' ∉ ("//! Sweep point driver for: " ++ Package.parameterList d).toList := by
    rw [String.toList_append, List.mem_append]
    exact not_or.mpr ⟨not_mem_literal rfl rfl, not_mem_parameterList d (hname 'U' rfl)
      (not_mem_literal rfl rfl) (not_mem_literal rfl rfl)⟩
  have hlist : Naming ["//! Sweep point driver for: " ++ Package.parameterList d] [] 0 :=
    .silent (mentions_of_not_mem hquote) (refuses_of_not_mem hcapital)
  have hversion : Naming.isPlain ("//! Generated by sweepgen " ++
      (generatorVersion ++ ". Regenerate instead of editing by hand.")).toList = true :=
    Naming.isPlain_append (Template.toList_of_eq rfl rfl)
      (Naming.isPlain_append (Template.toList_of_eq rfl rfl) (Template.toList_of_eq rfl rfl))
  have hrest : Naming ["", "use std::io::Write;", "use std::process::ExitCode;", "",
      "use sweeprun::eyre::Result;", "use sweeprun::\x7bOptionSchema, Status, report\x7d;",
      ""] [] 0 := by
    repeat refine .skip rfl rfl ?_
    exact .nil
  exact hlist.append (.skip rfl rfl ((Naming.plain hversion).append hrest))

theorem naming_schemaLines {names : List String}
    (h : ∀ name ∈ names, spellsName name.toList = true) :
    Naming (Package.schemaLines defaultProgram names) (names.map (.schema, ·)) 0 := by
  have hnew : Naming ["    OptionSchema::new(\"" ++ (defaultProgram ++ "\")")] [] 0 :=
    .silent (by decide +kernel) (by decide +kernel)
  exact hnew.cons (.eachLine fun name hn => naming_schemaLine (h name hn))

theorem naming_sourceLines (d : Declaration) :
    Naming (Package.sourceLines d .standard) (sourceMentions d.names) (d.names.length + 1) := by
  have hlegal : ∀ name ∈ d.names, spellsName name.toList = true :=
    fun name hn => (nameError?_eq_none_iff.mp (d.legal name hn)).1
  have hmain : Naming ("\x7d" :: Package.mainLines defaultLifecycle) [] 0 := by
    have hcall : Naming.isPlain ("    ExitCode::from(sweeprun::execute(" ++
        (defaultLifecycle ++ ", &mut stdout, drive))")).toList = true :=
      Naming.isPlain_append (Template.toList_of_eq rfl rfl)
        (Naming.isPlain_append (Template.toList_of_eq rfl rfl) (Template.toList_of_eq rfl rfl))
    unfold Package.mainLines
    iterate 4 refine .skip rfl rfl ?_
    exact (Naming.plain hcall).append (.skip rfl rfl .nil)
  have hdrive : Naming ("\x7d" :: "" :: Package.driveHeader :: (Package.driveLines d.names ++
      "\x7d" :: Package.mainLines defaultLifecycle)) (driveMentions d.names)
      (d.names.length + 1) := by
    have hbody := (naming_driveLines hlegal).append hmain
    rw [List.append_nil] at hbody
    exact .skip rfl rfl (.skip rfl rfl (.skip rfl rfl hbody))
  have hschema := (naming_schemaLines hlegal).append hdrive
  have hheader : Naming (Package.schemaHeader :: _) _ _ := .skip rfl rfl hschema
  have hall := (naming_headLines d).append hheader
  rw [Nat.zero_add, Nat.zero_add] at hall
  exact hall

theorem unbroken_sourceLines (d : Declaration) :
    ∀ line ∈ Package.sourceLines d .standard, '\n' ∉ line.toList := by
  have hcall : '\n' ∉ ("    ExitCode::from(sweeprun::execute(" ++
      (defaultLifecycle ++ ", &mut stdout, drive))")).toList :=
    not_break_append (not_mem_literal rfl rfl)
      (not_break_append (not_mem_literal rfl rfl) (not_mem_literal rfl rfl))
  have hmain : ∀ line ∈ Package.mainLines defaultLifecycle, '\n' ∉ line.toList := by
    unfold Package.mainLines
    simp only [List.forall_mem_cons]
    exact ⟨not_mem_literal rfl rfl, not_mem_literal rfl rfl, not_mem_literal rfl rfl, hcall,
      not_mem_literal rfl rfl, List.forall_mem_nil _⟩
  have hlines : Package.sourceLines d .standard =
      upToMain d defaultProgram ++ Package.mainLines defaultLifecycle := by
    simp [Package.sourceLines, upToMain, upToDrive, DriverSettings.standard]
  intro line hl
  rw [hlines, List.mem_append] at hl
  rcases hl with hl | hl
  · exact unbroken_upToMain (by decide) line hl
  · exact hmain line hl

/-- The lines of a source are found again, with an empty one behind the last break. -/
theorem linesOf_sourceLines (d : Declaration) :
    linesOf (Skeleton.unlines (Package.sourceLines d .standard)) =
      Package.sourceLines d .standard ++ [""] := by
  have h := linesOf_append (unbroken_sourceLines d) []
  rw [List.append_nil] at h
  exact h

/-- The names that the schema adds. -/
def schemaNames (mentioned : List (Mention × String)) : List String :=
  mentioned.filterMap fun m => if m.1 = .schema then some m.2 else none

theorem schemaNames_sourceMentions (names : List String) :
    schemaNames (sourceMentions names) = names := by
  simp [schemaNames, sourceMentions, driveMentions, List.filterMap_append, List.filterMap_map]

/-- A driver's source says what its declaration is. From top to bottom, its lines name the
parameters in order for the schema, after the directory for the checks, for the locals and for
the report, each name once in each of these parts. A marker stands nowhere but on the lines
stated for it. The work is left as a usage error once for the directory and once for each
parameter. No other declaration has this source. -/
theorem mentions_renderDriver (d : Declaration) :
    ∃ source,
      (∀ (m : Type → Type) [Monad m] [LawfulMonad m] [Files m],
        (Package.Renderer.builtIn.renderDriver d .standard : Generating m String) = pure source) ∧
      (linesOf source).flatMap mentions =
        d.names.map (.schema, ·) ++ (.check, outputDirName) :: (d.names.map (.check, ·) ++
          (d.names.map (.binding, ·) ++ d.names.map (.report, ·))) ∧
      d.names.Nodup ∧
      (∀ line ∈ linesOf source, ∀ k : Mention, (k.marker ++ "\"").toList <:+: line.toList →
        ∃ name, (k, name) ∈ mentions line ∧ unindented line = k.statement name) ∧
      (linesOf source).countP refuses = d.names.length + 1 ∧
      ∀ other, (Package.Renderer.builtIn.renderDriver other .standard :
        Generating (StateM FileTree) String) = pure source → other = d := by
  have hnaming : ∀ d : Declaration, Naming (linesOf (Skeleton.unlines
      (Package.sourceLines d .standard))) (sourceMentions d.names) (d.names.length + 1) := by
    intro d
    have hempty : Naming [""] [] 0 := .skip rfl rfl .nil
    have hall := (naming_sourceLines d).append hempty
    rw [linesOf_sourceLines]
    rw [List.append_nil, Nat.add_zero] at hall
    exact hall
  refine ⟨_, fun m _ _ _ => Package.Renderer.renderDriver_builtIn d .standard,
    (hnaming d).mentioned, d.distinct, ?_, (hnaming d).refused, ?_⟩
  · intro line hl k hk
    obtain ⟨name, hname⟩ := exists_mem_mentions_iff.mpr hk
    exact ⟨name, hname, (hnaming d).stated line hl _ hname⟩
  · intro other hother
    rw [Package.Renderer.renderDriver_builtIn] at hother
    have hsource : Skeleton.unlines (Package.sourceLines other .standard) =
        Skeleton.unlines (Package.sourceLines d .standard) := by
      have hrun := congrFun hother FileTree.empty
      exact Except.ok.inj (congrArg Prod.fst hrun)
    have hmentioned : sourceMentions other.names = sourceMentions d.names := by
      rw [← (hnaming other).mentioned, ← (hnaming d).mentioned, hsource]
    have hnames : other.names = d.names := by
      rw [← schemaNames_sourceMentions other.names, hmentioned, schemaNames_sourceMentions]
    have hsame : Declaration.ofNames other.names = Declaration.ofNames d.names := by rw [hnames]
    rw [Declaration.ofNames_names, Declaration.ofNames_names] at hsame
    exact Except.ok.inj hsame

end PointDriver.Emitted

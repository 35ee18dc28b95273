import PointDriver.Yaml.Document

/-!
# Words in documents

A word consists of letters, digits and underscores. None of these has a meaning
of its own in a document, so a word is read as it stands, by itself or between
quotes.
-/

namespace PointDriver.Yaml

/-- A character of a word. -/
def isWordChar (c : Char) : Bool := c.isAlphanum || c == '_'

theorem isWordChar_iff {c : Char} :
    isWordChar c = true ↔ ('A' ≤ c ∧ c ≤ 'Z') ∨ ('a' ≤ c ∧ c ≤ 'z') ∨ ('0' ≤ c ∧ c ≤ '9') ∨
      c = '_' := by
  have hranges : isWordChar c = ((decide ('A' ≤ c ∧ c ≤ 'Z') ||
      decide ('a' ≤ c) && decide (c ≤ 'z') || decide ('0' ≤ c) && decide (c ≤ '9')) ||
        c == '_') := rfl
  simp [hranges, or_assoc]

/-- Whether a text is made of the characters of words. -/
def IsWord (cs : List Char) : Prop := ∀ c ∈ cs, isWordChar c = true

instance (cs : List Char) : Decidable (IsWord cs) := List.decidableBAll _ cs

theorem IsWord.head {c : Char} {cs : List Char} (h : IsWord (c :: cs)) : isWordChar c = true :=
  h c List.mem_cons_self

theorem IsWord.tail {c : Char} {cs : List Char} (h : IsWord (c :: cs)) : IsWord cs :=
  fun d hd => h d (List.mem_cons_of_mem c hd)

section Characters
variable {c : Char} (h : isWordChar c = true)
include h

theorem ne_of_isWordChar {d : Char} (hd : isWordChar d = false) : c ≠ d := by
  rintro rfl
  rw [h] at hd
  exact Bool.noConfusion hd

theorem not_mem_of_isWordChar {marks : List Char} (hm : marks.any isWordChar = false) :
    c ∉ marks := by
  intro hc
  exact List.any_eq_false.mp hm c hc h

theorem beq_of_isWordChar {d : Char} (hd : isWordChar d = false) : (c == d) = false :=
  beq_eq_false_iff_ne.mpr (ne_of_isWordChar h hd)

theorem isBlankChar_of_isWordChar : isBlankChar c = false := by
  simp [isBlankChar, beq_of_isWordChar h (d := ' ') rfl, beq_of_isWordChar h (d := '\t') rfl]

theorem isFlowIndicator_of_isWordChar : isFlowIndicator c = false := by
  simp [isFlowIndicator, beq_of_isWordChar h (d := ',') rfl, beq_of_isWordChar h (d := '[') rfl,
    beq_of_isWordChar h (d := ']') rfl, beq_of_isWordChar h (d := '\x7b') rfl,
    beq_of_isWordChar h (d := '\x7d') rfl]

end Characters

theorem atDocumentMark_of_ne {c : Char} (hd : c ≠ '-') (hp : c ≠ '.') (column : Nat)
    (rest : List Char) : atDocumentMark column (c :: rest) = false := by
  have hmark : ∀ m : Char, c ≠ m → atMark m (c :: rest) = false := by
    intro m hm
    unfold atMark
    split
    · next heq =>
        obtain ⟨rfl, -⟩ := List.cons.inj heq
        simp [hm]
    · rfl
  simp [atDocumentMark, atDocumentStart, atDocumentEnd, hmark _ hd, hmark _ hp]

/-- An item of a sequence is not taken for a mark. -/
theorem atDocumentMark_item (column : Nat) (rest : List Char) :
    atDocumentMark column ('-' :: ' ' :: rest) = false := by
  cases rest <;> simp [atDocumentMark, atDocumentStart, atDocumentEnd, atMark]

namespace Gap

theorem crossesLine_none : Gap.none.crossesLine = false := rfl

theorem blanks_none : Gap.none.blanks = [] := rfl

theorem text_none : Gap.none.text = [] := rfl

end Gap

section Words
variable {cs : List Char} (h : IsWord cs) (rest : List Char)
include h

/-- A word at the front of an unquoted scalar is read before what follows. -/
theorem plainFrom_word (inFlow : Bool) (least line column : Nat) :
    plainFrom inFlow least .none line column (cs ++ rest) =
      (plainFrom inFlow least .none line (column + cs.length) rest).map fun r =>
        (cs ++ r.1, r.2) := by
  induction cs generalizing column with
  | nil => simp
  | cons c cs ih =>
      have hc := h.head
      have hcolumn : column + (c :: cs).length = column + 1 + cs.length := by
        rw [List.length_cons]
        omega
      rw [List.cons_append, plainFrom]
      simp only [beq_of_isWordChar hc (d := '\n') rfl, isBlankChar_of_isWordChar hc,
        beq_of_isWordChar hc (d := ':') rfl, isFlowIndicator_of_isWordChar hc,
        Gap.crossesLine_none, Gap.blanks_none, Gap.text_none, Bool.or_self, Bool.and_false,
        Bool.false_and, Bool.not_true, List.isEmpty_nil, Bool.false_eq_true, if_false,
        ih h.tail (column + 1), Option.map_map, hcolumn]
      rfl

end Words

/-- What may stand behind the spaces of a line: a token, or the end. -/
def StartsToken (rest : List Char) : Prop := ∀ c ∈ rest.head?, c ∉ ['\n', ' ', '\t', '#', ':']

section Lines
variable {token : List Char} (ht : StartsToken token)
include ht

/-- A scalar does not go on with a line that is not indented enough. -/
theorem plainFrom_indent {least column indent : Nat} (hl : column + indent < least) {gap : Gap}
    (hg : gap.crossesLine = true) (line : Nat) :
    plainFrom false least gap line column (List.replicate indent ' ' ++ token) =
      some ([], ⟨line, column + indent, token⟩) := by
  induction indent generalizing column with
  | zero =>
      cases token with
      | nil => simp [plainFrom]
      | cons c rest =>
          have hc := ht c rfl
          simp only [List.mem_cons, List.not_mem_nil, or_false, not_or] at hc
          have hcolumn : column < least := hl
          simp [plainFrom, isBlankChar, hc, hg, hcolumn]
  | succ indent ih =>
      have hcolumn : column + 1 + indent = column + (indent + 1) := by omega
      have hblank : gap.blank ' ' = gap := by simp [Gap.blank, hg]
      rw [List.replicate_succ, List.cons_append, plainFrom, hblank, ← hcolumn]
      simpa [isBlankChar] using ih (by omega)

/-- Behind a word, a scalar ends with its line if the next one is not indented enough. -/
theorem plainFrom_break {least indent : Nat} (hl : indent < least) (line column : Nat) :
    plainFrom false least .none line column ('\n' :: (List.replicate indent ' ' ++ token)) =
      some ([], ⟨line + 1, indent, token⟩) := by
  have hgap : Gap.none.lineBreak.crossesLine = true := rfl
  have hnext := plainFrom_indent ht (show 0 + indent < least by omega) hgap (line + 1)
  rw [Nat.zero_add] at hnext
  simpa [plainFrom] using hnext

end Lines

/-- Behind a word, a scalar ends at a colon before a separator. -/
theorem plainFrom_colon {rest : List Char} (hr : atSeparator rest = true)
    (least line column : Nat) :
    plainFrom false least .none line column (':' :: rest) =
      some ([], ⟨line, column, ':' :: rest⟩) := by
  simp [plainFrom, isBlankChar, hr]

/-- A character that starts a token is not passed over. -/
theorem spaceFrom_token {c : Char} (h : c ≠ '\n' ∧ isBlankChar c = false ∧ c ≠ '#')
    (inFlow tabs : Bool) (line column : Nat) (rest : List Char) :
    spaceFrom inFlow tabs false line column (c :: rest) = ⟨line, column, c :: rest⟩ := by
  obtain ⟨hbreak, hblank, hcomment⟩ := h
  have hspace : c ≠ ' ' ∧ c ≠ '\t' := by simpa [isBlankChar] using hblank
  simp [spaceFrom, hbreak, hspace, hcomment]

/-- A scalar that starts with a word stands without quotes. -/
theorem scalar?_word {c : Char} (h : isWordChar c = true) (inFlow : Bool) (least line column : Nat)
    (rest : List Char) :
    scalar? inFlow least ⟨line, column, c :: rest⟩ =
      (plainFrom inFlow least .none line column (c :: rest)).map fun r =>
        (.plain (String.ofList r.1), r.2) := by
  have hindicator : isIndicator c = false := by
    simp [isIndicator, isFlowIndicator_of_isWordChar h, beq_of_isWordChar h (d := '#') rfl,
      beq_of_isWordChar h (d := '&') rfl, beq_of_isWordChar h (d := '*') rfl,
      beq_of_isWordChar h (d := '!') rfl, beq_of_isWordChar h (d := '|') rfl,
      beq_of_isWordChar h (d := '>') rfl, beq_of_isWordChar h (d := '\'') rfl,
      beq_of_isWordChar h (d := '"') rfl, beq_of_isWordChar h (d := '%') rfl,
      beq_of_isWordChar h (d := '@') rfl, beq_of_isWordChar h (d := '\x60') rfl]
  have hstarts : startsPlain inFlow (c :: rest) = true := by
    simp [startsPlain, hindicator, isBlankChar_of_isWordChar h,
      beq_of_isWordChar h (d := '\n') rfl, beq_of_isWordChar h (d := '-') rfl,
      beq_of_isWordChar h (d := '?') rfl, beq_of_isWordChar h (d := ':') rfl]
  unfold scalar?
  split
  · next heq => exact absurd (List.cons.inj heq).1 (ne_of_isWordChar h rfl)
  · next heq => exact absurd (List.cons.inj heq).1 (ne_of_isWordChar h rfl)
  · rw [if_pos hstarts]

/-- The characters that documents of words are made of: line breaks and what can be seen. -/
def isSimple (c : Char) : Bool := c == '\n' || (0x20 ≤ c.toNat && c.toNat ≤ 0x7E)

theorem isPrintable_of_isSimple {c : Char} (h : isSimple c = true) : isPrintable c = true := by
  rw [isSimple, Bool.or_eq_true, beq_iff_eq, Bool.and_eq_true, decide_eq_true_eq,
    decide_eq_true_eq] at h
  rcases h with rfl | h
  · rfl
  · simp [isPrintable, h]

theorem ne_of_isSimple {c : Char} (h : isSimple c = true) {d : Char} (hd : isSimple d = false) :
    c ≠ d := by
  rintro rfl
  rw [h] at hd
  exact Bool.noConfusion hd

theorem unifyBreaks_simple {cs : List Char} (h : ∀ c ∈ cs, isSimple c = true) :
    unifyBreaks cs = cs := by
  induction cs with
  | nil => rfl
  | cons c cs ih =>
      have hc := h c List.mem_cons_self
      have hrest := ih fun d hd => h d (List.mem_cons_of_mem c hd)
      have hreturn := ne_of_isSimple hc (d := '\r') rfl
      have hline := ne_of_isSimple hc (d := '\u0085') rfl
      unfold unifyBreaks
      split
      · next heq => exact absurd (List.cons.inj heq).1 hreturn
      · next heq =>
          obtain ⟨rfl, rfl⟩ := List.cons.inj heq
          simp [hreturn, hline, hrest]
      · next heq => cases heq

/-- A text of such characters is read as it stands. -/
theorem prepare?_simple {cs : List Char} (h : ∀ c ∈ cs, isSimple c = true) :
    prepare? cs = some cs := by
  have hall : cs.all isPrintable = true :=
    List.all_eq_true.mpr fun c hc => isPrintable_of_isSimple (h c hc)
  have hmark : ∀ rest, cs ≠ '\uFEFF' :: rest := by
    rintro rest rfl
    exact ne_of_isSimple (h _ List.mem_cons_self) (d := '\uFEFF') rfl rfl
  unfold prepare?
  split
  · exact absurd rfl (hmark _)
  · rw [if_pos hall, unifyBreaks_simple h]

theorem isSimple_of_isWordChar {c : Char} (h : isWordChar c = true) : isSimple c = true := by
  have hrange : ∀ {low high : Char}, 0x20 ≤ low.toNat → high.toNat ≤ 0x7E → low ≤ c ∧ c ≤ high →
      0x20 ≤ c.toNat ∧ c.toNat ≤ 0x7E := by
    intro low high hlow hhigh hc
    exact ⟨Nat.le_trans hlow (UInt32.le_iff_toNat_le.mp hc.1),
      Nat.le_trans (UInt32.le_iff_toNat_le.mp hc.2) hhigh⟩
  have hvisible : 0x20 ≤ c.toNat ∧ c.toNat ≤ 0x7E := by
    rcases isWordChar_iff.mp h with h | h | h | rfl
    · exact hrange (by decide) (by decide) h
    · exact hrange (by decide) (by decide) h
    · exact hrange (by decide) (by decide) h
    · decide
  simp [isSimple, hvisible]

/-- A character that stands for itself between quotes, of either kind. -/
def isQuotable (c : Char) : Bool := isSimple c && !(['\n', '\'', '"', '\\'].contains c)

/-- The mark that stands before and behind a text in quotes. -/
def quoteMark (double : Bool) : Char := if double then '"' else '\''

/-- A text between quotes. -/
def inQuotes (double : Bool) (text : String) : List Char :=
  quoteMark double :: (text.toList ++ [quoteMark double])

/-- Whether all the characters stand for themselves between quotes. -/
def IsQuotable (text : String) : Prop := ∀ c ∈ text.toList, isQuotable c = true

instance (text : String) : Decidable (IsQuotable text) :=
  List.decidableBAll _ text.toList

theorem isQuotable_of_isWordChar {c : Char} (h : isWordChar c = true) : isQuotable c = true := by
  have hmarks : c ∉ ['\n', '\'', '"', '\\'] := not_mem_of_isWordChar h rfl
  rw [isQuotable, isSimple_of_isWordChar h, List.contains_eq_mem, decide_eq_false hmarks]
  rfl

theorem isQuotable_of_isWord {text : String} (h : IsWord text.toList) : IsQuotable text :=
  fun c hc => isQuotable_of_isWordChar (h c hc)

section Quotes
variable {double : Bool} {rest : List Char} (hr : double = false → rest.head? ≠ some '\'')
include hr

/-- A text between quotes is read up to the closing quote. Blanks in it are held back until it is
known that no line ends behind them. -/
theorem quotedFrom_quotable {cs : List Char} (h : ∀ c ∈ cs, isQuotable c = true)
    (blanks : List Char) (line : Nat) {column : Nat} (hc : 0 < column) :
    quotedFrom double 0 ⟨blanks, 0, false⟩ line column (cs ++ quoteMark double :: rest) =
      some (blanks ++ cs, ⟨line, column + cs.length + 1, rest⟩) := by
  have hmark : ∀ (column : Nat) (cs : List Char), 0 < column →
      atDocumentMark column cs = false := by
    intro column cs hc
    simp [atDocumentMark, Nat.ne_of_gt hc]
  induction cs generalizing blanks column with
  | nil =>
      cases double with
      | true =>
          rw [List.nil_append, quotedFrom.eq_def]
          simp [quoteMark, isBlankChar, hmark column _ hc, Gap.text]
      | false =>
          rw [List.nil_append, quotedFrom.eq_def]
          simp only [quoteMark, Bool.false_eq_true, if_false, hmark column _ hc]
          cases rest with
          | nil => simp [isBlankChar, Gap.text]
          | cons d rest =>
              have hd : d ≠ '\'' := by simpa using hr rfl
              simp [isBlankChar, Gap.text, hd]
  | cons c cs ih =>
      have hquotable := h c List.mem_cons_self
      simp only [isQuotable, Bool.and_eq_true, Bool.not_eq_true', List.contains_eq_mem,
        decide_eq_false_iff_not, List.mem_cons, List.not_mem_nil, or_false, not_or] at hquotable
      obtain ⟨-, hbreak, hsingle, hdouble, hescape⟩ := hquotable
      have hrest := fun blanks => ih (fun d hd => h d (List.mem_cons_of_mem c hd)) blanks
        (Nat.lt_succ_of_lt hc)
      have hcolumn : column + 1 + cs.length + 1 = column + (c :: cs).length + 1 := by
        rw [List.length_cons]
        omega
      rw [List.cons_append, quotedFrom.eq_def]
      cases hblank : isBlankChar c with
      | true =>
          simp [hbreak, hblank, Gap.blank, Gap.crossesLine, hrest, hcolumn]
      | false =>
          have hnone : Gap.none = ⟨[], 0, false⟩ := rfl
          simp [hbreak, hblank, hmark column _ hc, hdouble, hescape, hsingle, hnone, hrest, hcolumn,
            Gap.text]

/-- A text between quotes is a scalar wherever one can stand. -/
theorem scalar?_inQuotes {text : String} (h : IsQuotable text) (inFlow : Bool)
    (least line column : Nat) :
    scalar? inFlow least ⟨line, column, inQuotes double text ++ rest⟩ =
      some (.quoted text, ⟨line, column + text.toList.length + 2, rest⟩) := by
  have hread := quotedFrom_quotable hr h [] line (Nat.succ_pos column)
  have hcolumn : column + 1 + text.toList.length + 1 = column + text.toList.length + 2 := by omega
  have hscalar := congrArg (Option.map fun r => (Node.quoted (String.ofList r.1), r.2)) hread
  rw [hcolumn, List.nil_append, Option.map_some, String.ofList_toList] at hscalar
  rw [inQuotes, List.cons_append, List.append_assoc, List.singleton_append]
  cases double with
  | true => exact hscalar
  | false => exact hscalar

end Quotes

end PointDriver.Yaml

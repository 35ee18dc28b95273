import PointDriver.Proofs.Yaml.Brackets

/-!
# Documents in lines

A mapping with one entry to a line, whose values are words, quoted texts, nodes
in brackets, or items on lines of their own, which may be indented. The items
alone are a document too.
-/

namespace PointDriver.Yaml

/-- The characters of a scalar on one line. -/
inductive ScalarText : List Char → Node → Prop
  | word {text : String} (h : IsWord text.toList) (hne : text ≠ "") :
      ScalarText text.toList (.plain text)
  | quoted (double : Bool) {text} (h : IsQuotable text) :
      ScalarText (inQuotes double text) (.quoted text)

/-- An item of a sequence on its line. -/
def dashItem (cs : List Char) : List Char := '-' :: ' ' :: (cs ++ ['\n'])

/-- The items of a sequence, each behind this many spaces but the first. -/
def dashItems (indent : Nat) : List (List Char × Node) → List Char
  | [] => []
  | [item] => dashItem item.1
  | item :: next :: items =>
      dashItem item.1 ++ (List.replicate indent ' ' ++ dashItems indent (next :: items))

/-- What may start the line behind a sequence or an entry: the end, or a key. -/
def StartsLine (rest : List Char) : Prop :=
  ∀ c ∈ rest.head?, isWordChar c = true ∨ c = '\'' ∨ c = '"'

section Lines
variable {rest : List Char}

theorem spaceFrom_replicate (ht : StartsToken rest) (tabs : Bool) (line column indent : Nat) :
    spaceFrom false tabs false line column (List.replicate indent ' ' ++ rest) =
      ⟨line, column + indent, rest⟩ := by
  induction indent generalizing column with
  | zero =>
      cases rest with
      | nil => rfl
      | cons c rest =>
          have hc := ht c rfl
          simp only [List.mem_cons, List.not_mem_nil, or_false, not_or] at hc
          exact spaceFrom_token ⟨hc.1, by simp [isBlankChar, hc], hc.2.2.2.1⟩ _ _ _ _ _
  | succ indent ih =>
      have hcolumn : column + 1 + indent = column + (indent + 1) := by omega
      rw [List.replicate_succ, List.cons_append, ← hcolumn, ← ih (column + 1)]
      rfl

/-- What may start a line is neither space nor a mark nor the sign of a structure. -/
theorem StartsLine.cases (h : StartsLine rest) : rest = [] ∨ ∃ c more, rest = c :: more ∧
    c ∉ ['\n', ' ', '\t', '#', ':', '-', '.', '%', '[', '\x7b', '|', '>'] := by
  cases rest with
  | nil => exact Or.inl rfl
  | cons c more =>
      refine Or.inr ⟨c, more, rfl, ?_⟩
      rcases h c rfl with hc | rfl | rfl
      · exact not_mem_of_isWordChar hc rfl
      · decide
      · decide

theorem StartsLine.startsToken (h : StartsLine rest) : StartsToken rest := by
  rcases h.cases with rfl | ⟨c, more, rfl, hc⟩
  · simp [StartsToken]
  · intro d hd
    obtain rfl : c = d := by simpa using hd
    exact fun hd => hc (List.mem_append_left _ hd)

theorem StartsLine.spaceFrom (h : StartsLine rest) (tabs : Bool) (line : Nat) :
    spaceFrom false tabs false line 0 rest = ⟨line, 0, rest⟩ :=
  spaceFrom_replicate h.startsToken tabs line 0 0

theorem StartsLine.atEnd (h : StartsLine rest) (line column : Nat) :
    (Cursor.mk line column rest).atEnd = rest.isEmpty := by
  rcases h.cases with rfl | ⟨c, more, rfl, hc⟩
  · rfl
  · simp only [List.mem_cons, List.not_mem_nil, or_false, not_or] at hc
    simp [Cursor.atEnd, atDocumentMark_of_ne hc.2.2.2.2.2.1 hc.2.2.2.2.2.2.1]

theorem StartsLine.atDash (h : StartsLine rest) (line column : Nat) :
    atDash ⟨line, column, rest⟩ = false := by
  rcases h.cases with rfl | ⟨c, more, rfl, hc⟩
  · rfl
  · simp only [List.mem_cons, List.not_mem_nil, or_false, not_or] at hc
    simp [Yaml.atDash, hc]

end Lines

section Scalars
variable {cs rest : List Char} {node : Node}

theorem ScalarText.startsLine (h : ScalarText cs node) :
    cs ≠ [] ∧ ∀ rest, StartsLine (cs ++ rest) := by
  cases h with
  | @word text h hne =>
      obtain ⟨c, more, hc⟩ := List.exists_cons_of_ne_nil (mt String.toList_eq_nil_iff.mp hne)
      rw [hc] at h ⊢
      refine ⟨List.cons_ne_nil c more, fun rest d hd => Or.inl ?_⟩
      obtain rfl : c = d := by simpa using hd
      exact h.head
  | quoted double h =>
      refine ⟨List.cons_ne_nil _ _, fun rest d hd => Or.inr ?_⟩
      obtain rfl : quoteMark double = d := by simpa [inQuotes] using hd
      cases double <;> simp [quoteMark]

/-- A scalar has a first character, which is the sign of nothing else. -/
theorem ScalarText.exists_cons (h : ScalarText cs node) : ∃ c more, cs = c :: more ∧
    c ∉ ['\n', ' ', '\t', '#', ':', '-', '.', '%', '[', '\x7b', '|', '>'] := by
  obtain ⟨hne, hstarts⟩ := h.startsLine
  have hcases := (hstarts []).cases
  rw [List.append_nil] at hcases
  exact hcases.resolve_left hne

/-- A word is read up to what stops it. -/
theorem scalar?_wordText {text : String} (h : IsWord text.toList) (hne : text ≠ "") (inFlow : Bool)
    (least line column : Nat) (rest : List Char) :
    scalar? inFlow least ⟨line, column, text.toList ++ rest⟩ =
      (plainFrom inFlow least .none line (column + text.toList.length) rest).map fun r =>
        (.plain (String.ofList (text.toList ++ r.1)), r.2) := by
  obtain ⟨c, more, hc⟩ := List.exists_cons_of_ne_nil (mt String.toList_eq_nil_iff.mp hne)
  have hword := plainFrom_word h rest inFlow least line column
  rw [hc] at h hword ⊢
  rw [List.cons_append, scalar?_word h.head, ← List.cons_append, hword, Option.map_map]
  rfl

/-- A scalar at the end of its line is read before a line that is not indented enough to go on
with it. -/
theorem ScalarText.scalar?_line (h : ScalarText cs node) (ht : StartsToken rest)
    {least indent : Nat} (hl : indent < least) (line column : Nat) :
    ∃ last, scalar? false least ⟨line, column, cs ++ '\n' :: (List.replicate indent ' ' ++ rest)⟩ =
        some (node, last) ∧
      last.nextAfter = ⟨line + 1, indent, rest⟩ ∧ (skipBlanks last).rest.head? ≠ some ':' := by
  cases h with
  | @word text h hne =>
      refine ⟨⟨line + 1, indent, rest⟩, ?_, spaceFrom_replicate ht true (line + 1) indent 0, ?_⟩
      · rw [scalar?_wordText h hne, plainFrom_break ht hl]
        simp
      · cases rest with
        | nil => simp [skipBlanks, Cursor.skip]
        | cons c rest =>
            have hc := ht c rfl
            simp only [List.mem_cons, List.not_mem_nil, or_false, not_or] at hc
            simp [skipBlanks, Cursor.skip, isBlankChar, hc]
  | @quoted double text h =>
      refine ⟨_, scalar?_inQuotes (by simp) h false least line column, ?_, ?_⟩
      · have hspace := spaceFrom_replicate ht false (line + 1) 0 indent
        rw [Nat.zero_add] at hspace
        exact hspace
      · simp [skipBlanks, Cursor.skip, isBlankChar]

end Scalars

section Nodes
variable {cursor last : Cursor} {c : Char} {rest : List Char} {node : Node} {least : Nat}
  (hc : cursor.rest = c :: rest) (hn : c ∉ ['-', '[', '\x7b', '|', '>'])
  (hs : scalar? false least cursor = some (node, last)) (fuel : Nat)
include hc hn hs

/-- What starts with no sign of a structure is a scalar, and it is a key if a colon follows. -/
theorem blockNode?_eq_scalar (structured : Bool) :
    blockNode? (fuel + 1) least structured cursor =
      match (skipBlanks last).rest with
      | ':' :: rest =>
          if structured && atColon cursor.line (skipBlanks last) then do
            let (value, behind) ← blockValue? fuel cursor.column ((skipBlanks last).skip 1)
            let (entries, behind) ← blockEntries? fuel cursor.column behind
            pure (.mapping ((node, value) :: entries), behind)
          else if atSeparator rest then none
          else some (node, last)
      | _ => some (node, last) := by
  simp only [List.mem_cons, List.not_mem_nil, or_false, not_or] at hn
  obtain ⟨hdash, hbracket, hbrace, hliteral, hfolded⟩ := hn
  have hitem : atDash cursor = false := by simp [atDash, hc, hdash]
  unfold blockNode?
  simp only [hitem, Bool.false_eq_true, if_false, hc, hs]
  split
  · next heq => exact absurd (List.cons.inj heq).1 hbracket
  · next heq => exact absurd (List.cons.inj heq).1 hbrace
  · next heq => exact absurd (List.cons.inj heq).1 hliteral
  · next heq => exact absurd (List.cons.inj heq).1 hfolded
  · rfl

theorem blockNode?_of_scalar (hl : (skipBlanks last).rest.head? ≠ some ':') (structured : Bool) :
    blockNode? (fuel + 1) least structured cursor = some (node, last) := by
  rw [blockNode?_eq_scalar hc hn hs]
  split
  · next heq => exact absurd (by rw [heq, List.head?_cons]) hl
  · rfl

end Nodes

section Items
variable {cs rest : List Char} {node : Node} {items : List (List Char × Node)} {fuel : Nat}

/-- A scalar at the end of its line is a node in a block. -/
theorem ScalarText.blockNode? (h : ScalarText cs node) (ht : StartsToken rest)
    {least indent : Nat} (hl : indent < least) (structured : Bool) (fuel line column : Nat) :
    ∃ last, Yaml.blockNode? (fuel + 1) least structured
        ⟨line, column, cs ++ '\n' :: (List.replicate indent ' ' ++ rest)⟩ = some (node, last) ∧
      last.nextAfter = ⟨line + 1, indent, rest⟩ := by
  obtain ⟨last, hscalar, hnext, hcolon⟩ := h.scalar?_line ht hl line column
  obtain ⟨c, more, rfl, hc⟩ := h.exists_cons
  have hsign : c ∉ ['-', '[', '\x7b', '|', '>'] := by simp_all
  exact ⟨last, blockNode?_of_scalar rfl hsign hscalar fuel hcolon structured, hnext⟩

/-- An item is read up to the end of its line, and then those behind it. -/
theorem blockItems?_dashItem (h : ScalarText cs node) (ht : StartsToken rest)
    {indent next : Nat} (hn : next ≤ indent) (fuel line : Nat) (belongsToKey : Bool) :
    blockItems? (fuel + 2) indent belongsToKey
        ⟨line, indent, dashItem cs ++ (List.replicate next ' ' ++ rest)⟩ =
      let behind : Cursor := ⟨line + 1, next, rest⟩
      if behind.atEnd || next < indent then
        some ([node], behind)
      else if next = indent then
        if atDash behind then
          (blockItems? (fuel + 1) indent belongsToKey behind).map fun r => (node :: r.1, r.2)
        else if belongsToKey then some ([node], behind)
        else none
      else none := by
  obtain ⟨last, hitem, hnext⟩ := h.blockNode? ht (Nat.lt_succ_of_le hn) true fuel line
    (indent + 1 + 1)
  obtain ⟨c, more, hcs, hc⟩ := h.exists_cons
  have hstarts : StartsToken (cs ++ '\n' :: (List.replicate next ' ' ++ rest)) :=
    (h.startsLine.2 _).startsToken
  have hletters : dashItem cs ++ (List.replicate next ' ' ++ rest) =
      '-' :: (List.replicate 1 ' ' ++ (cs ++ '\n' :: (List.replicate next ' ' ++ rest))) := by
    simp [dashItem]
  have hstart : (Cursor.mk line (indent + 1) (List.replicate 1 ' ' ++
      (cs ++ '\n' :: (List.replicate next ' ' ++ rest)))).nextFresh =
        ⟨line, indent + 1 + 1, cs ++ '\n' :: (List.replicate next ' ' ++ rest)⟩ :=
    spaceFrom_replicate hstarts false line (indent + 1) 1
  have hmore : (cs ++ '\n' :: (List.replicate next ' ' ++ rest)).isEmpty = false := by
    rw [hcs]
    rfl
  rw [hletters, blockItems?]
  simp only [Cursor.skip, List.drop_succ_cons, List.drop_zero, hstart, hmore, hitem, hnext,
    beq_self_eq_true, Bool.not_false, Bool.and_self, if_true, bind, Option.bind_some, pure,
    beq_iff_eq, Option.map_eq_bind, Function.comp_def]

theorem exists_dashItems (indent : Nat) (hne : items ≠ []) :
    ∃ tail, dashItems indent items = '-' :: ' ' :: tail := by
  obtain ⟨item, items, rfl⟩ := List.exists_cons_of_ne_nil hne
  cases items <;> exact ⟨_, rfl⟩

/-- Where items stand, a dash is found. -/
theorem atDash_dashItems (indent : Nat) (hne : items ≠ []) (rest : List Char)
    (line column : Nat) :
    StartsToken (dashItems indent items ++ rest) ∧
      (Cursor.mk line column (dashItems indent items ++ rest)).atEnd = false ∧
      atDash ⟨line, column, dashItems indent items ++ rest⟩ = true := by
  obtain ⟨tail, htail⟩ := exists_dashItems indent hne
  rw [htail]
  refine ⟨by simp [StartsToken], ?_, rfl⟩
  simp [Cursor.atEnd, atDocumentMark_item]

/-- The items are read one after the other, up to a line that starts something else. -/
theorem blockItems?_dashItems (h : ∀ i ∈ items, ScalarText i.1 i.2) (hne : items ≠ [])
    (hr : StartsLine rest) (belongsToKey : Bool) (indent : Nat)
    (hb : rest = [] ∨ 0 < indent ∨ belongsToKey = true) (hf : items.length < fuel) (line : Nat) :
    ∃ line', blockItems? fuel indent belongsToKey ⟨line, indent, dashItems indent items ++ rest⟩ =
      some (items.map (·.2), ⟨line', 0, rest⟩) := by
  induction items generalizing fuel line with
  | nil => exact absurd rfl hne
  | cons item items ih =>
      obtain ⟨fuel, rfl⟩ : ∃ n, fuel = n + 2 := ⟨fuel - 2, by simp at hf; omega⟩
      have hitem := h item List.mem_cons_self
      cases items with
      | nil =>
          refine ⟨line + 1, ?_⟩
          have hread := blockItems?_dashItem hitem hr.startsToken (Nat.zero_le indent) fuel line
            belongsToKey
          -- Nothing follows, or a key left of the dashes or under them.
          simp only [List.replicate_zero, List.nil_append, hr.atEnd, hr.atDash] at hread
          rw [dashItems, hread]
          rcases hb with rfl | hb | rfl
          · rfl
          · simp [hb]
          · by_cases hi : 0 < indent
            · simp [hi]
            · simp [Nat.le_zero.mp (Nat.le_of_not_lt hi)]
      | cons next items =>
          obtain ⟨htoken, hend, hdash⟩ := atDash_dashItems indent (List.cons_ne_nil next items)
            rest (line + 1) indent
          have hlength : (next :: items).length < fuel + 1 := by
            rw [List.length_cons] at hf
            omega
          obtain ⟨line', hmore⟩ := ih (fun i hi => h i (List.mem_cons_of_mem item hi)) (by simp)
            hlength (line + 1)
          have hread := blockItems?_dashItem hitem htoken (Nat.le_refl indent) fuel line
            belongsToKey
          refine ⟨line', ?_⟩
          rw [dashItems, List.append_assoc, List.append_assoc, hread]
          simp [hend, hdash, hmore]

end Items

/-- The characters of a value, from behind the colon to the end of its last line. -/
inductive ValueText : List Char → Node → Prop
  | scalar {cs node} (h : ScalarText cs node) : ValueText (' ' :: (cs ++ ['\n'])) node
  | flow {cs node} (h : Flow .node cs node)
      (hopen : cs.head? = some '[' ∨ cs.head? = some '\x7b') :
      ValueText (' ' :: (cs ++ ['\n'])) node
  | lines (indent : Nat) {items} (h : ∀ i ∈ items, ScalarText i.1 i.2) (hne : items ≠ []) :
      ValueText ('\n' :: (List.replicate indent ' ' ++ dashItems indent items))
        (.sequence (items.map (·.2)))

/-- The characters of the entries of a mapping, each with its key at the start of a line. -/
inductive EntriesText : List Char → List (Node × Node) → Prop
  | nil : EntriesText [] []
  | cons {key cs rest k value entries} (hk : ScalarText key k) (hv : ValueText cs value)
      (hr : EntriesText rest entries) :
      EntriesText (key ++ ':' :: (cs ++ rest)) ((k, value) :: entries)

section Entries
variable {key cs rest : List Char} {k value : Node} {entries : List (Node × Node)} {fuel : Nat}

theorem EntriesText.startsLine (h : EntriesText cs entries) : StartsLine cs := by
  cases h with
  | nil => simp [StartsLine]
  | cons hk hv hr => exact hk.startsLine.2 _

theorem ValueText.atSeparator (hv : ValueText cs value) (rest : List Char) :
    atSeparator (cs ++ rest) = true := by
  cases hv <;> rfl

/-- A key is read up to its colon. -/
theorem ScalarText.scalar?_colon (hk : ScalarText key k) (hr : Yaml.atSeparator rest = true)
    (least line column : Nat) :
    ∃ column', Yaml.scalar? false least ⟨line, column, key ++ ':' :: rest⟩ =
      some (k, ⟨line, column', ':' :: rest⟩) := by
  cases hk with
  | @word text h hne =>
      refine ⟨column + text.toList.length, ?_⟩
      rw [scalar?_wordText h hne, plainFrom_colon hr]
      simp
  | @quoted double text h => exact ⟨_, scalar?_inQuotes (by simp) h false least line column⟩

theorem length_le_dashItems (indent : Nat) (items : List (List Char × Node)) :
    2 * items.length ≤ (dashItems indent items).length := by
  induction items with
  | nil => exact Nat.zero_le _
  | cons item items ih =>
      cases items with
      | nil => simp [dashItems, dashItem]
      | cons next items =>
          simp only [dashItems, dashItem, List.length_append, List.length_cons] at ih ⊢
          omega

/-- What follows the colon on its line is the value. -/
theorem blockValue?_sameLine (ht : StartsToken rest) (hne : rest ≠ []) (fuel line column : Nat) :
    blockValue? (fuel + 1) 0 ⟨line, column, ' ' :: rest⟩ =
      blockNode? fuel 1 false ⟨line, column + 1, rest⟩ := by
  have hstart : (Cursor.mk line column (' ' :: rest)).nextAfter = ⟨line, column + 1, rest⟩ :=
    spaceFrom_replicate ht true line column 1
  simp [blockValue?, hstart, hne]

/-- The value behind a colon is read up to the next key. -/
theorem blockValue?_text (hv : ValueText cs value) (hr : StartsLine rest) (hf : cs.length < fuel)
    (line column : Nat) :
    ∃ last line', blockValue? (fuel + 1) 0 ⟨line, column, cs ++ rest⟩ = some (value, last) ∧
      last.nextAfter = ⟨line', 0, rest⟩ := by
  have hbreak : ∀ line column, (Cursor.mk line column ('\n' :: rest)).nextAfter =
      ⟨line + 1, 0, rest⟩ := fun line column => hr.spaceFrom false (line + 1)
  obtain ⟨fuel, rfl⟩ : ∃ n, fuel = n + 1 := ⟨fuel - 1, by omega⟩
  cases hv with
  | @scalar cs node h =>
      obtain ⟨last, hnode, hnext⟩ := h.blockNode? hr.startsToken Nat.one_pos false fuel line
        (column + 1)
      have hvalue := blockValue?_sameLine (h.startsLine.2 ('\n' :: rest)).startsToken (by simp)
        (fuel + 1) line column
      refine ⟨last, line + 1, ?_, hnext⟩
      rw [← hnode, List.replicate_zero, List.nil_append, ← hvalue]
      simp
  | @flow cs node h hopen =>
      have hstarts : StartsToken (cs ++ '\n' :: rest) := by
        intro c hc
        cases cs with
        | nil => simp at hopen
        | cons d cs =>
            obtain rfl : d = c := by simpa using hc
            rcases hopen with hopen | hopen <;> cases hopen <;> decide
      obtain ⟨line', column', hnode⟩ := blockNode?_flow h hopen
        (show ('\n' :: rest).head? ≠ some '\'' by simp) fuel 1 line (column + 1) false
      have hvalue := blockValue?_sameLine hstarts (by simp) (fuel + 1) line column
      refine ⟨_, _, ?_, hbreak line' column'⟩
      rw [← hnode, ← hvalue]
      simp
  | @lines indent items h hne =>
      have hlength := length_le_dashItems indent items
      simp only [List.length_cons, List.length_append, List.length_replicate] at hf
      obtain ⟨htoken, hend, hdash⟩ := atDash_dashItems indent hne rest (line + 1) indent
      have hstart : (Cursor.mk line column ('\n' :: (List.replicate indent ' ' ++
          (dashItems indent items ++ rest)))).nextAfter =
            ⟨line + 1, indent, dashItems indent items ++ rest⟩ := by
        have hspaces := spaceFrom_replicate htoken false (line + 1) 0 indent
        rw [Nat.zero_add] at hspaces
        exact hspaces
      rw [List.cons_append, List.append_assoc, blockValue?, hstart]
      by_cases hi : 0 < indent
      · -- Indented items are a node of their own.
        have hsmall : items.length < fuel := by
          have := List.length_pos_iff.mpr hne
          omega
        obtain ⟨line', hread⟩ := blockItems?_dashItems h hne hr false indent
          (Or.inr (Or.inl hi)) hsmall (line + 1)
        refine ⟨⟨line', 0, rest⟩, line', ?_, hr.spaceFrom true line'⟩
        simp [hend, hi, blockNode?, hdash, hread]
      · -- The dashes stand under the key.
        obtain rfl : indent = 0 := Nat.le_zero.mp (Nat.le_of_not_lt hi)
        obtain ⟨line', hread⟩ := blockItems?_dashItems h hne hr true 0
          (Or.inr (Or.inr rfl)) (show items.length < fuel + 1 by omega) (line + 1)
        refine ⟨⟨line', 0, rest⟩, line', ?_, hr.spaceFrom true line'⟩
        simp [hend, hdash, hread]

/-- Entries are read one after the other, up to the end. -/
theorem blockEntries?_text (h : EntriesText cs entries) (hf : cs.length < fuel) {last : Cursor}
    {line : Nat} (hl : last.nextAfter = ⟨line, 0, cs⟩) :
    ∃ behind, blockEntries? fuel 0 last = some (entries, behind) ∧ behind.nextAfter.rest = [] := by
  induction h generalizing fuel last line with
  | nil =>
      obtain ⟨fuel, rfl⟩ : ∃ n, fuel = n + 1 := ⟨fuel - 1, by simp at hf; omega⟩
      refine ⟨⟨line, 0, []⟩, ?_, rfl⟩
      simp [blockEntries?, hl, Cursor.atEnd]
  | @cons key cs rest k value entries hk hv hr ih =>
      obtain ⟨hne, hkey⟩ := hk.startsLine
      have hstarts := hkey (':' :: (cs ++ rest))
      have hpositive := List.length_pos_iff.mpr hne
      simp only [List.length_append, List.length_cons] at hf
      obtain ⟨fuel, rfl⟩ : ∃ n, fuel = n + 2 := ⟨fuel - 2, by omega⟩
      obtain ⟨column, hscalar⟩ := hk.scalar?_colon (hv.atSeparator rest) 1 line 0
      obtain ⟨behind, line', hvalue, hnext⟩ := blockValue?_text hv hr.startsLine
        (show cs.length < fuel by omega) line (column + 1)
      obtain ⟨final, hentries, hfinal⟩ : ∃ final,
          blockEntries? (fuel + 1) 0 behind = some (entries, final) ∧ final.nextAfter.rest = [] :=
        ih (by omega) hnext
      have hread : key? 1 ⟨line, 0, key ++ ':' :: (cs ++ rest)⟩ =
          some (k, ⟨line, column + 1, cs ++ rest⟩) := by
        simp [key?, hscalar, skipBlanks, Cursor.skip, isBlankChar, atColon, hv.atSeparator rest]
      refine ⟨final, ?_, hfinal⟩
      rw [blockEntries?, hl]
      simp [hstarts.atEnd, hstarts.atDash, hread, hvalue, hentries]

theorem ScalarText.isSimple (hk : ScalarText key k) : ∀ c ∈ key, isSimple c = true := by
  cases hk with
  | word h hne => exact fun c hc => isSimple_of_isWordChar (h c hc)
  | quoted double h => exact isSimple_inQuotes h double

theorem isSimple_dashItems (indent : Nat) {items : List (List Char × Node)}
    (h : ∀ i ∈ items, ScalarText i.1 i.2) : ∀ c ∈ dashItems indent items, isSimple c = true := by
  have hitem : ∀ i ∈ items, ∀ c ∈ dashItem i.1, isSimple c = true := by
    intro i hi
    simp only [dashItem, List.forall_mem_cons, List.forall_mem_append]
    exact ⟨rfl, rfl, (h i hi).isSimple, rfl, List.forall_mem_nil _⟩
  induction items with
  | nil => exact List.forall_mem_nil _
  | cons item items ih =>
      have hfirst := hitem item List.mem_cons_self
      have hrest := ih (fun i hi => h i (List.mem_cons_of_mem item hi))
        (fun i hi => hitem i (List.mem_cons_of_mem item hi))
      cases items with
      | nil => exact hfirst
      | cons next items =>
          refine List.forall_mem_append.mpr ⟨hfirst, List.forall_mem_append.mpr ⟨?_, hrest⟩⟩
          intro c hc
          rw [List.eq_of_mem_replicate hc]
          rfl

theorem ValueText.isSimple (hv : ValueText cs value) : ∀ c ∈ cs, isSimple c = true := by
  cases hv with
  | scalar h =>
      simp only [List.forall_mem_cons, List.forall_mem_append]
      exact ⟨rfl, h.isSimple, rfl, List.forall_mem_nil _⟩
  | flow h hopen =>
      simp only [List.forall_mem_cons, List.forall_mem_append]
      exact ⟨rfl, h.isSimple, rfl, List.forall_mem_nil _⟩
  | lines indent h hne =>
      simp only [List.forall_mem_cons, List.forall_mem_append]
      refine ⟨rfl, fun c hc => ?_, isSimple_dashItems indent h⟩
      rw [List.eq_of_mem_replicate hc]
      rfl

theorem EntriesText.isSimple (h : EntriesText cs entries) : ∀ c ∈ cs, isSimple c = true := by
  induction h with
  | nil => exact List.forall_mem_nil _
  | cons hk hv hr ih =>
      simp only [List.forall_mem_cons, List.forall_mem_append]
      exact ⟨hk.isSimple, rfl, hv.isSimple, ih⟩

/-- A document of entries is a mapping. -/
theorem readDocument?_entries (h : EntriesText cs entries) (hne : entries ≠ []) :
    readDocument? cs = some (some (.mapping entries)) := by
  have hsimple := h.isSimple
  cases h with
  | nil => exact absurd rfl hne
  | @cons key cs rest k value entries hk hv hr =>
      have hpositive := List.length_pos_iff.mpr hk.startsLine.1
      obtain ⟨column, hscalar⟩ := hk.scalar?_colon (hv.atSeparator rest) 0 0 0
      generalize hlength : 2 * (key ++ ':' :: (cs ++ rest)).length = length
      simp only [List.length_append, List.length_cons] at hlength
      obtain ⟨last, line, hvalue, hnext⟩ := blockValue?_text hv hr.startsLine
        (show cs.length < length by omega) 0 (column + 1)
      obtain ⟨final, hentries, hfinal⟩ := blockEntries?_text hr
        (show rest.length < length + 1 by omega) hnext
      obtain ⟨c, more, hc, hfirst⟩ := hk.exists_cons
      simp only [List.mem_cons, List.not_mem_nil, or_false, not_or] at hfirst
      have hnode : blockNode? (length + 2) 0 true ⟨0, 0, key ++ ':' :: (cs ++ rest)⟩ =
          some (.mapping ((k, value) :: entries), final) := by
        rw [blockNode?_eq_scalar (by rw [hc]; rfl) (by simp [hfirst]) hscalar]
        simp [skipBlanks, Cursor.skip, isBlankChar, atColon, hv.atSeparator rest, hvalue, hentries]
      rw [hc, List.cons_append] at hnode hsimple ⊢
      refine readDocument?_node hsimple (by simp [hfirst]) ?_ ?_ hfinal
      · exact atDocumentMark_of_ne (by simp [hfirst]) (by simp [hfirst]) 0 _
      · have hfuel : length + 2 = 2 * (c :: (more ++ ':' :: (cs ++ rest))).length + 2 := by
          simp only [hc, List.length_append, List.length_cons] at hlength ⊢
          omega
        rwa [hfuel] at hnode

/-- A document of items is their sequence. -/
theorem readDocument?_dashItems {items : List (List Char × Node)}
    (h : ∀ i ∈ items, ScalarText i.1 i.2) (hne : items ≠ []) :
    readDocument? (dashItems 0 items) = some (some (.sequence (items.map (·.2)))) := by
  have hsimple := isSimple_dashItems 0 h
  have hlength := length_le_dashItems 0 items
  have hend : StartsLine [] := by simp [StartsLine]
  obtain ⟨line, hread⟩ := blockItems?_dashItems h hne hend false 0 (Or.inl rfl)
    (show items.length < 2 * (dashItems 0 items).length + 1 by omega) 0
  obtain ⟨-, -, hdash⟩ := atDash_dashItems 0 hne [] 0 0
  obtain ⟨tail, htail⟩ := exists_dashItems 0 hne
  rw [List.append_nil] at hread hdash
  have hnode : blockNode? (2 * (dashItems 0 items).length + 2) 0 true ⟨0, 0, dashItems 0 items⟩ =
      some (.sequence (items.map (·.2)), ⟨line, 0, []⟩) := by
    rw [blockNode?]
    simp only [hdash, if_true, hread, Option.map_some]
  rw [htail] at hsimple hnode ⊢
  exact readDocument?_node hsimple (by decide) (atDocumentMark_item 0 tail) hnode rfl

end Entries

/-- The characters of a document, in brackets with space behind it or in lines. -/
inductive DocumentText : List Char → Node → Prop
  | flow {cs node space} (h : Flow .node cs node)
      (hopen : cs.head? = some '[' ∨ cs.head? = some '\x7b') (hs : IsSpace space) :
      DocumentText (cs ++ space) node
  | items {items} (h : ∀ i ∈ items, ScalarText i.1 i.2) (hne : items ≠ []) :
      DocumentText (dashItems 0 items) (.sequence (items.map (·.2)))
  | entries {cs entries} (h : EntriesText cs entries) (hne : entries ≠ []) :
      DocumentText cs (.mapping entries)

/-- A document is read as the node that it spells. -/
theorem DocumentText.read {text : String} {node : Node} (h : DocumentText text.toList node) :
    read? text = some (some node) := by
  rw [read?]
  generalize text.toList = cs at h
  cases h with
  | flow h hopen hs => exact readDocument?_flow h hopen hs
  | items h hne => exact readDocument?_dashItems h hne
  | entries h hne => exact readDocument?_entries h hne

end PointDriver.Yaml

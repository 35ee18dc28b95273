import PointDriver.Proofs.Yaml.Words

/-!
# Documents in brackets

Quoted texts, sequences in brackets and mappings in braces, one inside the
other, with any space between the tokens. Both quotes will do, so documents in
JSON notation are among them. The grammar says what the characters mean; the
reader finds the same.
-/

namespace PointDriver.Yaml

section Documents
variable {c : Char} {cs : List Char}

/-- A document without marks is its node. -/
theorem readDocument?_node (hs : ∀ d ∈ c :: cs, isSimple d = true)
    (hc : c ∉ ['%', '\n', ' ', '\t', '#']) (hm : atDocumentMark 0 (c :: cs) = false)
    {node : Node} {last : Cursor}
    (hn : blockNode? (2 * (c :: cs).length + 2) 0 true ⟨0, 0, c :: cs⟩ = some (node, last))
    (hl : last.nextAfter.rest = []) : readDocument? (c :: cs) = some (some node) := by
  simp only [List.mem_cons, List.not_mem_nil, or_false, not_or] at hc
  have hstart : (Cursor.mk 0 0 (c :: cs)).nextFresh = ⟨0, 0, c :: cs⟩ :=
    spaceFrom_token ⟨hc.2.1, by simp [isBlankChar, hc], hc.2.2.2.2⟩ _ _ _ _ _
  have hversion : skipVersion? ⟨0, 0, c :: cs⟩ = some (false, ⟨0, 0, c :: cs⟩) := by
    simp [skipVersion?, hc]
  have hnomark : atDocumentStart (c :: cs) = false ∧ (Cursor.mk 0 0 (c :: cs)).atEnd = false := by
    simp [atDocumentMark] at hm
    simp [Cursor.atEnd, atDocumentMark, hm]
  have hlast : isLast last = true := by
    simp [isLast, hl]
  rw [List.length_cons] at hn
  simp [readDocument?, prepare?_simple hs, hstart, hversion, hnomark, hn, hlast]

end Documents

/-- Space between tokens in brackets. -/
def IsSpace (cs : List Char) : Prop := ∀ c ∈ cs, c = ' ' ∨ c = '\n'

/-- What is spelled: a node, or what follows an opening bracket or brace. -/
inductive FlowKind where
  | node
  | items
  | entries

/-- What the characters mean. -/
abbrev FlowKind.Content : FlowKind → Type
  | node => Node
  | items => List Node
  | entries => List (Node × Node)

/-- The characters of a node in brackets, and of the rest of a sequence or a mapping. -/
inductive Flow : (k : FlowKind) → List Char → k.Content → Prop
  | quoted (double : Bool) {text} (h : IsQuotable text) :
      Flow .node (inQuotes double text) (.quoted text)
  | sequence {cs items} (h : Flow .items cs items) : Flow .node ('[' :: cs) (.sequence items)
  | mapping {cs entries} (h : Flow .entries cs entries) :
      Flow .node ('\x7b' :: cs) (.mapping entries)
  | noItem {space} (hs : IsSpace space) : Flow .items (space ++ [']']) []
  | lastItem {space cs more node} (hs : IsSpace space) (h : Flow .node cs node)
      (hm : IsSpace more) : Flow .items (space ++ (cs ++ (more ++ [']']))) [node]
  | item {space cs more node rest items} (hs : IsSpace space) (h : Flow .node cs node)
      (hm : IsSpace more) (hr : Flow .items rest items) :
      Flow .items (space ++ (cs ++ (more ++ ',' :: rest))) (node :: items)
  | noEntry {space} (hs : IsSpace space) : Flow .entries (space ++ ['\x7d']) []
  | lastEntry {space} (double : Bool) {key between cs more value} (hs : IsSpace space)
      (hk : IsQuotable key) (hb : IsSpace between) (h : Flow .node cs value) (hm : IsSpace more) :
      Flow .entries
        (space ++ (inQuotes double key ++ ':' :: (between ++ (cs ++ (more ++ ['\x7d'])))))
        [(.quoted key, value)]
  | entry {space} (double : Bool) {key between cs more value rest entries} (hs : IsSpace space)
      (hk : IsQuotable key) (hb : IsSpace between) (h : Flow .node cs value) (hm : IsSpace more)
      (hr : Flow .entries rest entries) :
      Flow .entries
        (space ++ (inQuotes double key ++ ':' :: (between ++ (cs ++ (more ++ ',' :: rest)))))
        ((.quoted key, value) :: entries)

/-- Whether the reader finds the content wherever the characters stand and whatever follows. -/
def FlowKind.Reads : (k : FlowKind) → List Char → k.Content → Prop
  | node, cs, found => ∀ fuel least line column rest, cs.length < fuel → rest.head? ≠ some '\'' →
      ∃ line' column', flowNode? fuel least ⟨line, column, cs ++ rest⟩ =
        some (found, ⟨line', column', rest⟩)
  | items, cs, found => ∀ fuel least line column rest, cs.length < fuel →
      ∃ line' column', flowItems? fuel least ⟨line, column, cs ++ rest⟩ =
        some (found, ⟨line', column', rest⟩)
  | entries, cs, found => ∀ fuel least line column rest, cs.length < fuel →
      ∃ line' column', flowEntries? fuel least ⟨line, column, cs ++ rest⟩ =
        some (found, ⟨line', column', rest⟩)

section Space
variable {space : List Char} {c : Char}

/-- Space is passed over up to the next token. -/
theorem nextInFlow_space (hs : IsSpace space) (hc : c ∉ ['\n', ' ', '\t', '#'])
    (line column : Nat) (rest : List Char) :
    ∃ line' column', (Cursor.mk line column (space ++ c :: rest)).nextInFlow =
      ⟨line', column', c :: rest⟩ := by
  induction space generalizing line column with
  | nil =>
      simp only [List.mem_cons, List.not_mem_nil, or_false, not_or] at hc
      exact ⟨line, column, spaceFrom_token ⟨hc.1, by simp [isBlankChar, hc], hc.2.2.2⟩ _ _ _ _ _⟩
  | cons d space ih =>
      have hrest := ih fun e he => hs e (List.mem_cons_of_mem d he)
      rcases hs d List.mem_cons_self with rfl | rfl
      · exact hrest line (column + 1)
      · exact hrest (line + 1) 0

theorem rest_spaceFrom (hs : IsSpace space) (inFlow tabs : Bool) (line column : Nat) :
    (spaceFrom inFlow tabs false line column space).rest = [] := by
  induction space generalizing tabs line column with
  | nil => rfl
  | cons d space ih =>
      have hrest := ih fun e he => hs e (List.mem_cons_of_mem d he)
      rcases hs d List.mem_cons_self with rfl | rfl
      · exact hrest tabs line (column + 1)
      · exact hrest inFlow (line + 1) 0

theorem head?_space (hs : IsSpace space) (hc : c ≠ '\'') (rest : List Char) :
    (space ++ c :: rest).head? ≠ some '\'' := by
  cases space with
  | nil => simpa using hc
  | cons d space =>
      rcases hs d List.mem_cons_self with rfl | rfl <;> simp

end Space

/-- A node in brackets starts with a quote or an opening sign. -/
theorem Flow.exists_cons {cs : List Char} {node : Node} (h : Flow .node cs node) :
    ∃ c more, cs = c :: more ∧ c ∈ ['\'', '"', '[', '\x7b'] := by
  cases h with
  | quoted double h =>
      refine ⟨quoteMark double, _, rfl, ?_⟩
      cases double <;> simp [quoteMark]
  | sequence h => exact ⟨'[', _, rfl, by simp⟩
  | mapping h => exact ⟨'\x7b', _, rfl, by simp⟩

/-- A text between quotes is a node in brackets. -/
theorem flowNode?_inQuotes {double : Bool} {text : String} {rest : List Char}
    (hr : double = false → rest.head? ≠ some '\'') (h : IsQuotable text)
    (fuel least line column : Nat) :
    flowNode? (fuel + 1) least ⟨line, column, inQuotes double text ++ rest⟩ =
      some (.quoted text, ⟨line, column + text.toList.length + 2, rest⟩) := by
  have hscalar := scalar?_inQuotes hr h true least line column
  rw [flowNode?]
  cases double with
  | true =>
      have hmark : atDocumentMark column (inQuotes true text ++ rest) = false :=
        atDocumentMark_of_ne (c := '"') (by decide) (by decide) column _
      simp only [hmark, Bool.false_eq_true, if_false, hscalar]
      rfl
  | false =>
      have hmark : atDocumentMark column (inQuotes false text ++ rest) = false :=
        atDocumentMark_of_ne (c := '\'') (by decide) (by decide) column _
      simp only [hmark, Bool.false_eq_true, if_false, hscalar]
      rfl

section Steps
variable {space cs more : List Char} {node : Node} {d : Char} {fuel : Nat}

/-- One item is read with the space around it, and then what follows its comma. -/
theorem flowItems?_flow (hs : IsSpace space) (h : Flow .node cs node)
    (hread : FlowKind.Reads .node cs node) (hm : IsSpace more) (hd : d = ',' ∨ d = ']')
    (hf : cs.length < fuel) (least line column : Nat) (rest : List Char) :
    ∃ line' column',
      flowItems? (fuel + 1) least ⟨line, column, space ++ (cs ++ (more ++ d :: rest))⟩ =
        if d = ']' then some ([node], ⟨line', column', rest⟩)
        else (flowItems? fuel least ⟨line', column', rest⟩).map fun r => (node :: r.1, r.2) := by
  obtain ⟨c, tail, hcs, hc⟩ := h.exists_cons
  have hstarts : c ∉ ['\n', ' ', '\t', '#'] ∧ c ≠ ']' := by
    simp only [List.mem_cons, List.not_mem_nil, or_false] at hc
    rcases hc with rfl | rfl | rfl | rfl <;> decide
  have hends : d ∉ ['\n', ' ', '\t', '#'] ∧ d ≠ ':' ∧ d ≠ '\'' := by
    rcases hd with rfl | rfl <;> decide
  obtain ⟨line₁, column₁, hstart⟩ := nextInFlow_space hs hstarts.1 line column
    (tail ++ (more ++ d :: rest))
  rw [← List.cons_append, ← hcs] at hstart
  obtain ⟨line₂, column₂, hnode⟩ := hread fuel least line₁ column₁ (more ++ d :: rest) hf
    (head?_space hm hends.2.2 rest)
  obtain ⟨line₃, column₃, hnext⟩ := nextInFlow_space hm hends.1 line₂ column₂ rest
  have hopen : (cs ++ (more ++ d :: rest)).head? ≠ some ']' := by
    rw [hcs]
    simpa using hstarts.2
  refine ⟨line₃, column₃ + 1, ?_⟩
  rw [flowItems?]
  simp only [hstart, beq_iff_eq, hopen, if_false, hnode, bind, Option.bind_some, hnext]
  rcases hd with rfl | rfl
  · simp only [Cursor.skip, Option.map_eq_bind]
    rfl
  · simp [Cursor.skip]

/-- The value of an entry is read, with the space around it. -/
theorem flowValue?_flow (hs : IsSpace space) (h : Flow .node cs node)
    (hread : FlowKind.Reads .node cs node) (hm : IsSpace more) (hd : d = ',' ∨ d = '\x7d')
    (hf : cs.length < fuel) (least line column : Nat) (rest : List Char) :
    ∃ line' column',
      flowValue? (fuel + 1) least ⟨line, column, space ++ (cs ++ (more ++ d :: rest))⟩ =
        some (node, ⟨line', column', d :: rest⟩) := by
  obtain ⟨c, tail, hcs, hc⟩ := h.exists_cons
  have hstarts : c ∉ ['\n', ' ', '\t', '#'] ∧ c ≠ ',' ∧ c ≠ ']' ∧ c ≠ '\x7d' := by
    simp only [List.mem_cons, List.not_mem_nil, or_false] at hc
    rcases hc with rfl | rfl | rfl | rfl <;> decide
  have hends : d ∉ ['\n', ' ', '\t', '#'] ∧ d ≠ '\'' := by
    rcases hd with rfl | rfl <;> decide
  obtain ⟨line₁, column₁, hstart⟩ := nextInFlow_space hs hstarts.1 line column
    (tail ++ (more ++ d :: rest))
  rw [← List.cons_append, ← hcs] at hstart
  obtain ⟨line₂, column₂, hnode⟩ := hread fuel least line₁ column₁ (more ++ d :: rest) hf
    (head?_space hm hends.2 rest)
  obtain ⟨line₃, column₃, hnext⟩ := nextInFlow_space hm hends.1 line₂ column₂ rest
  refine ⟨line₃, column₃, ?_⟩
  rw [flowValue?, hstart]
  rw [hcs, List.cons_append] at hnode ⊢
  split
  · next heq => exact absurd (List.cons.inj heq).1 hstarts.2.1
  · next heq => exact absurd (List.cons.inj heq).1 hstarts.2.2.1
  · next heq => exact absurd (List.cons.inj heq).1 hstarts.2.2.2
  · simp only [hnode, Option.map_some, hnext]

/-- One entry is read with the space around it, and then what follows its comma. -/
theorem flowEntries?_flow (double : Bool) {key : String} {between : List Char} (hs : IsSpace space)
    (hk : IsQuotable key) (hb : IsSpace between) (h : Flow .node cs node)
    (hread : FlowKind.Reads .node cs node) (hm : IsSpace more) (hd : d = ',' ∨ d = '\x7d')
    (hf : cs.length < fuel) (least line column : Nat) (rest : List Char) :
    ∃ line' column',
      flowEntries? (fuel + 2) least
          ⟨line, column,
            space ++ (inQuotes double key ++ ':' :: (between ++ (cs ++ (more ++ d :: rest))))⟩ =
        if d = '\x7d' then
          some ([(.quoted key, node)], ⟨line', column', rest⟩)
        else (flowEntries? (fuel + 1) least ⟨line', column', rest⟩).map fun r =>
          ((.quoted key, node) :: r.1, r.2) := by
  have hquote : quoteMark double ∉ ['\n', ' ', '\t', '#'] ∧ quoteMark double ≠ '\x7d' := by
    cases double <;> decide
  have hvalue := fun line column => flowValue?_flow hb h hread hm hd hf least line column rest
  generalize hbehind : between ++ (cs ++ (more ++ d :: rest)) = behind at hvalue
  obtain ⟨line₁, column₁, hstart⟩ := nextInFlow_space hs hquote.1 line column
    (key.toList ++ [quoteMark double] ++ ':' :: behind)
  rw [← List.cons_append, ← inQuotes] at hstart
  have hkey : flowNode? (fuel + 1) least ⟨line₁, column₁, inQuotes double key ++ ':' :: behind⟩ =
      some (.quoted key,
        ⟨line₁, column₁ + key.toList.length + 2, ':' :: behind⟩) :=
    flowNode?_inQuotes (by simp) hk fuel least line₁ column₁
  have hcolon : (Cursor.mk line₁ (column₁ + key.toList.length + 2) (':' :: behind)).nextInFlow =
      ⟨line₁, column₁ + key.toList.length + 2, ':' :: behind⟩ :=
    spaceFrom_token (by decide) _ _ _ _ _
  obtain ⟨line₂, column₂, hnode⟩ := hvalue line₁ (column₁ + key.toList.length + 2 + 1)
  have hopen : (inQuotes double key ++ ':' :: behind).head? ≠ some '\x7d' := by
    simpa [inQuotes] using hquote.2
  refine ⟨line₂, column₂ + 1, ?_⟩
  rw [flowEntries?]
  simp only [hstart, beq_iff_eq, hopen, if_false, hkey, bind, Option.bind_some, hcolon,
    List.head?_cons, if_true, Node.scalarText?, Option.isSome_some, Bool.and_self, Cursor.skip,
    List.drop_succ_cons, List.drop_zero, hnode, beq_self_eq_true]
  rcases hd with rfl | rfl
  · simp only [Option.map_eq_bind]
    rfl
  · simp

end Steps

/-- The reader finds what the characters mean. -/
theorem Flow.reads {k : FlowKind} {cs : List Char} {content : k.Content} (h : Flow k cs content) :
    k.Reads cs content := by
  induction h with
  | quoted double h =>
      intro fuel least line column rest hf hr
      obtain ⟨fuel, rfl⟩ : ∃ n, fuel = n + 1 := ⟨fuel - 1, by omega⟩
      exact ⟨_, _, flowNode?_inQuotes (fun _ => hr) h fuel least line column⟩
  | @sequence cs items h ih =>
      intro fuel least line column rest hf hr
      rw [List.length_cons] at hf
      obtain ⟨fuel, rfl⟩ : ∃ n, fuel = n + 1 := ⟨fuel - 1, by omega⟩
      obtain ⟨line', column', hread⟩ := ih fuel least line (column + 1) rest (by omega)
      have hmark : atDocumentMark column ('[' :: (cs ++ rest)) = false :=
        atDocumentMark_of_ne (by decide) (by decide) column _
      refine ⟨line', column', ?_⟩
      rw [List.cons_append, flowNode?]
      simp only [hmark, Bool.false_eq_true, if_false, Cursor.skip, List.drop_succ_cons,
        List.drop_zero, hread, Option.map_some]
  | @mapping cs entries h ih =>
      intro fuel least line column rest hf hr
      rw [List.length_cons] at hf
      obtain ⟨fuel, rfl⟩ : ∃ n, fuel = n + 1 := ⟨fuel - 1, by omega⟩
      obtain ⟨line', column', hread⟩ := ih fuel least line (column + 1) rest (by omega)
      have hmark : atDocumentMark column ('\x7b' :: (cs ++ rest)) = false :=
        atDocumentMark_of_ne (by decide) (by decide) column _
      refine ⟨line', column', ?_⟩
      rw [List.cons_append, flowNode?]
      simp only [hmark, Bool.false_eq_true, if_false, Cursor.skip, List.drop_succ_cons,
        List.drop_zero, hread, Option.map_some]
  | @noItem space hs =>
      intro fuel least line column rest hf
      obtain ⟨fuel, rfl⟩ : ∃ n, fuel = n + 1 := ⟨fuel - 1, by omega⟩
      obtain ⟨line', column', hnext⟩ := nextInFlow_space hs (c := ']') (by decide) line column rest
      refine ⟨line', column' + 1, ?_⟩
      rw [List.append_assoc, List.singleton_append, flowItems?]
      simp [hnext, Cursor.skip]
  | @lastItem space cs more node hs h hm ih =>
      intro fuel least line column rest hf
      simp only [List.length_append, List.length_singleton] at hf
      obtain ⟨fuel, rfl⟩ : ∃ n, fuel = n + 1 := ⟨fuel - 1, by omega⟩
      obtain ⟨line', column', hread⟩ := flowItems?_flow hs h ih hm (Or.inr rfl)
        (show cs.length < fuel by omega) least line column rest
      exact ⟨line', column', by simpa using hread⟩
  | @item space cs more node rest items hs h hm hr ih ihr =>
      intro fuel least line column behind hf
      simp only [List.length_append, List.length_cons] at hf
      obtain ⟨fuel, rfl⟩ : ∃ n, fuel = n + 1 := ⟨fuel - 1, by omega⟩
      obtain ⟨line₁, column₁, hread⟩ := flowItems?_flow hs h ih hm (Or.inl rfl)
        (show cs.length < fuel by omega) least line column (rest ++ behind)
      obtain ⟨line₂, column₂, hrest⟩ := ihr fuel least line₁ column₁ behind (by omega)
      refine ⟨line₂, column₂, ?_⟩
      rw [if_neg (by decide), hrest] at hread
      simpa using hread
  | @noEntry space hs =>
      intro fuel least line column rest hf
      obtain ⟨fuel, rfl⟩ : ∃ n, fuel = n + 1 := ⟨fuel - 1, by omega⟩
      obtain ⟨line', column', hnext⟩ :=
        nextInFlow_space hs (c := '\x7d') (by decide) line column rest
      refine ⟨line', column' + 1, ?_⟩
      rw [List.append_assoc, List.singleton_append, flowEntries?]
      simp [hnext, Cursor.skip]
  | @lastEntry space double key between cs more value hs hk hb h hm ih =>
      intro fuel least line column rest hf
      simp only [List.length_append, List.length_cons, List.length_nil] at hf
      obtain ⟨fuel, rfl⟩ : ∃ n, fuel = n + 2 := ⟨fuel - 2, by omega⟩
      obtain ⟨line', column', hread⟩ := flowEntries?_flow double hs hk hb h ih hm (Or.inr rfl)
        (show cs.length < fuel by omega) least line column rest
      exact ⟨line', column', by simpa using hread⟩
  | @entry space double key between cs more value rest entries hs hk hb h hm hr ih ihr =>
      intro fuel least line column behind hf
      simp only [List.length_append, List.length_cons] at hf
      obtain ⟨fuel, rfl⟩ : ∃ n, fuel = n + 2 := ⟨fuel - 2, by omega⟩
      obtain ⟨line₁, column₁, hread⟩ := flowEntries?_flow double hs hk hb h ih hm
        (Or.inl rfl) (show cs.length < fuel by omega) least line column (rest ++ behind)
      obtain ⟨line₂, column₂, hrest⟩ := ihr (fuel + 1) least line₁ column₁ behind (by omega)
      refine ⟨line₂, column₂, ?_⟩
      rw [if_neg (by decide), hrest] at hread
      simpa using hread

theorem isSimple_of_isSpace {space : List Char} (h : IsSpace space) :
    ∀ c ∈ space, isSimple c = true := by
  intro c hc
  rcases h c hc with rfl | rfl <;> rfl

theorem isSimple_inQuotes {text : String} (h : IsQuotable text) (double : Bool) :
    ∀ c ∈ inQuotes double text, isSimple c = true := by
  have hquote : isSimple (quoteMark double) = true := by cases double <;> rfl
  have htext : ∀ c ∈ text.toList, isSimple c = true :=
    fun c hc => (Bool.and_eq_true_iff.mp (h c hc)).1
  exact List.forall_mem_cons.mpr
    ⟨hquote, List.forall_mem_append.mpr ⟨htext, List.forall_mem_singleton.mpr hquote⟩⟩

/-- Documents in brackets hold line breaks and what can be seen. -/
theorem Flow.isSimple {k : FlowKind} {cs : List Char} {content : k.Content}
    (h : Flow k cs content) : ∀ c ∈ cs, isSimple c = true := by
  induction h with
  | quoted double h => exact isSimple_inQuotes h double
  | sequence h ih => exact List.forall_mem_cons.mpr ⟨rfl, ih⟩
  | mapping h ih => exact List.forall_mem_cons.mpr ⟨rfl, ih⟩
  | noItem hs =>
      exact List.forall_mem_append.mpr ⟨isSimple_of_isSpace hs, List.forall_mem_singleton.mpr rfl⟩
  | lastItem hs h hm ih =>
      simp only [List.forall_mem_append, List.forall_mem_singleton]
      exact ⟨isSimple_of_isSpace hs, ih, isSimple_of_isSpace hm, rfl⟩
  | item hs h hm hr ih ihr =>
      simp only [List.forall_mem_append, List.forall_mem_cons]
      exact ⟨isSimple_of_isSpace hs, ih, isSimple_of_isSpace hm, rfl, ihr⟩
  | noEntry hs =>
      exact List.forall_mem_append.mpr ⟨isSimple_of_isSpace hs, List.forall_mem_singleton.mpr rfl⟩
  | lastEntry double hs hk hb h hm ih =>
      simp only [List.forall_mem_append, List.forall_mem_cons]
      exact ⟨isSimple_of_isSpace hs, isSimple_inQuotes hk double, rfl, isSimple_of_isSpace hb, ih,
        isSimple_of_isSpace hm, rfl, List.forall_mem_nil _⟩
  | entry double hs hk hb h hm hr ih ihr =>
      simp only [List.forall_mem_append, List.forall_mem_cons]
      exact ⟨isSimple_of_isSpace hs, isSimple_inQuotes hk double, rfl, isSimple_of_isSpace hb, ih,
        isSimple_of_isSpace hm, rfl, ihr⟩

/-- What opens with a bracket or a brace is read as a whole, also outside of brackets. -/
theorem blockNode?_flow {cs rest : List Char} {node : Node} (h : Flow .node cs node)
    (hopen : cs.head? = some '[' ∨ cs.head? = some '\x7b') (hr : rest.head? ≠ some '\'')
    (fuel least line column : Nat) (structured : Bool) :
    ∃ line' column', blockNode? (fuel + 1) least structured ⟨line, column, cs ++ rest⟩ =
      some (node, ⟨line', column', rest⟩) := by
  obtain ⟨line', column', hread⟩ := h.reads (2 * (cs ++ rest).length + 2) least line column rest
    (by rw [List.length_append]; omega) hr
  refine ⟨line', column', ?_⟩
  cases cs with
  | nil => simp at hopen
  | cons c cs =>
      have hc : c = '[' ∨ c = '\x7b' := by simpa using hopen
      rw [blockNode?]
      rcases hc with rfl | rfl <;> exact hread

/-- A document in brackets is read as the grammar says. -/
theorem readDocument?_flow {cs space : List Char} {node : Node} (h : Flow .node cs node)
    (hopen : cs.head? = some '[' ∨ cs.head? = some '\x7b') (hs : IsSpace space) :
    readDocument? (cs ++ space) = some (some node) := by
  have hsimple : ∀ c ∈ cs ++ space, isSimple c = true :=
    List.forall_mem_append.mpr ⟨h.isSimple, isSimple_of_isSpace hs⟩
  have hbehind : space.head? ≠ some '\'' := by
    cases space with
    | nil => simp
    | cons d space => rcases hs d List.mem_cons_self with rfl | rfl <;> simp
  obtain ⟨line, column, hread⟩ := blockNode?_flow h hopen hbehind (2 * (cs ++ space).length + 1) 0 0
    0 true
  cases cs with
  | nil => simp at hopen
  | cons c cs =>
      have hc : c = '[' ∨ c = '\x7b' := by simpa using hopen
      refine readDocument?_node hsimple ?_ ?_ hread (rest_spaceFrom hs _ _ _ _)
      · rcases hc with rfl | rfl <;> decide
      · rcases hc with rfl | rfl <;> exact atDocumentMark_of_ne (by decide) (by decide) 0 _

/-- A text between quotes. -/
def quotedLetters (text : String) : List Char := '\'' :: (text.toList ++ ['\''])

/-- The characters of a sequence between brackets, behind the bracket that opens it. -/
def bracketed : List String → List Char
  | [] => [']']
  | [text] => quotedLetters text ++ [']']
  | text :: next :: texts => quotedLetters text ++ ',' :: ' ' :: bracketed (next :: texts)

/-- Words between brackets, with a space behind each comma, are their sequence. -/
theorem flow_bracketed {texts : List String} (h : ∀ t ∈ texts, IsWord t.toList) {space : List Char}
    (hs : IsSpace space) : Flow .items (space ++ bracketed texts) (texts.map .quoted) := by
  induction texts generalizing space with
  | nil => exact .noItem hs
  | cons text texts ih =>
      have hnone : IsSpace [] := List.forall_mem_nil _
      have htext : Flow .node (quotedLetters text) (.quoted text) :=
        .quoted false (isQuotable_of_isWord (h text List.mem_cons_self))
      cases texts with
      | nil => exact .lastItem hs htext hnone
      | cons next texts =>
          have hblank : IsSpace [' '] := List.forall_mem_singleton.mpr (Or.inl rfl)
          exact .item hs htext hnone (ih (fun t ht => h t (List.mem_cons_of_mem text ht)) hblank)

/-- A document in brackets is the sequence of the texts between quotes. -/
theorem readDocument?_bracketed {texts : List String} (h : ∀ t ∈ texts, IsWord t.toList) :
    readDocument? ('[' :: (bracketed texts ++ ['\n'])) =
      some (some (.sequence (texts.map .quoted))) := by
  have hitems := flow_bracketed h (List.forall_mem_nil _)
  have hspace : IsSpace ['\n'] := List.forall_mem_singleton.mpr (Or.inr rfl)
  exact readDocument?_flow (.sequence hitems) (Or.inl rfl) hspace

end PointDriver.Yaml

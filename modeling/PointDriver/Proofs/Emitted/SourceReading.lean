import PointDriver.Proofs.Emitted.DriverCode

/-!
# Reading a driver's source

The source of a driver is read as its code, for every declaration and every
program name that can stand between quotes. What the source says about its
runtime comes behind both functions and is not looked at.
-/

namespace PointDriver.Emitted

/-- The lines of a function that begins and ends in a list of lines. -/
theorem functionLines?_eq {header : String} {before body after : List String}
    (hb : header ∉ before) (hc : "\x7d" ∉ body) :
    functionLines? header (before ++ header :: (body ++ "\x7d" :: after)) = some body := by
  have hdrop : (before ++ header :: (body ++ "\x7d" :: after)).dropWhile (· != header) =
      header :: (body ++ "\x7d" :: after) := by
    rw [List.dropWhile_append_of_pos, List.dropWhile_cons_of_neg (by simp)]
    intro line hl
    exact bne_iff_ne.mpr fun he => hb (he ▸ hl)
  have htake : (body ++ "\x7d" :: after).takeWhile (· != "\x7d") = body := by
    rw [List.takeWhile_append_of_pos, List.takeWhile_cons_of_neg (by simp), List.append_nil]
    intro line hl
    exact bne_iff_ne.mpr fun he => hc (he ▸ hl)
  simp only [functionLines?, hdrop, htake]

/-- The statements of a function that ends in a result. -/
theorem statements?_result {tokens last : List Token} {statements : List Statement} {e : Expr}
    (h : Reads tokens statements)
    (hl : ∀ fuel, statements? (fuel + 4) last = some ([.result e], [])) (hs : 3 ≤ last.length) :
    statements? ((tokens ++ last).length + 1) (tokens ++ last) =
      some (statements ++ [.result e], []) := by
  have hshort := h.short
  obtain ⟨fuel, hfuel⟩ : ∃ fuel, (tokens ++ last).length + 1 = fuel + statements.length + 4 :=
    ⟨(tokens ++ last).length + 1 - statements.length - 4, by
      rw [List.length_append]
      omega⟩
  rw [hfuel, h.read, hl]
  rfl

/-- Whether a line is a whole line that neither begins nor ends a function. -/
def isOrdinary (line : List Char) : Bool :=
  !line.contains '\n' && !(line.head?.any fun c => c == 'f' || c == '\x7d')

section Ordinary
variable {line : String}

theorem not_break_of_isOrdinary (h : isOrdinary line.toList = true) : '\n' ∉ line.toList := by
  intro hm
  simp [isOrdinary, hm] at h

theorem ne_of_isOrdinary (h : isOrdinary line.toList = true) {other : String} {c : Char}
    {cs : List Char} (ho : other = String.ofList (c :: cs)) (hc : c = 'f' ∨ c = '\x7d') :
    line ≠ other := by
  rintro rfl
  rw [ho, String.toList_ofList] at h
  rcases hc with rfl | rfl <;> simp [isOrdinary] at h

theorem isOrdinary_append {c : Char} {cs : List Char} {a b : String}
    (ha : a = String.ofList (c :: cs)) (hc : isOrdinary (c :: cs) = true) (hb : '\n' ∉ b.toList) :
    isOrdinary (a ++ b).toList = true := by
  rw [String.toList_append, ha, String.toList_ofList]
  simp only [isOrdinary, Bool.and_eq_true, Bool.not_eq_true', List.cons_append, List.head?_cons]
    at hc ⊢
  refine ⟨?_, hc.2⟩
  have hm : '\n' ∉ c :: cs := by simpa using hc.1
  rw [← Bool.not_eq_true, List.contains_iff_mem, ← List.cons_append, List.mem_append]
  exact not_or.mpr ⟨hm, hb⟩

theorem not_break_append {a b : String} (ha : '\n' ∉ a.toList) (hb : '\n' ∉ b.toList) :
    '\n' ∉ (a ++ b).toList := by
  rw [String.toList_append, List.mem_append]
  exact not_or.mpr ⟨ha, hb⟩

theorem not_mem_literal {text : String} {cs : List Char} {c : Char} (h : text = String.ofList cs)
    (hc : cs.contains c = false) : c ∉ text.toList := by
  rw [h, String.toList_ofList, ← List.contains_iff_mem, hc]
  exact Bool.false_ne_true

theorem Quotable.not_break {text : String} (h : Quotable text) : '\n' ∉ text.toList := by
  intro hm
  exact absurd (h _ hm).2 (by decide)

end Ordinary

/-- Every line of a list is ordinary. -/
def Ordinary (lines : List String) : Prop := ∀ line ∈ lines, isOrdinary line.toList = true

theorem Ordinary.append {a b : List String} (ha : Ordinary a) (hb : Ordinary b) :
    Ordinary (a ++ b) := by
  intro line hl
  rcases List.mem_append.mp hl with hl | hl
  · exact ha line hl
  · exact hb line hl

theorem Ordinary.cons {line : String} {lines : List String} (h : isOrdinary line.toList = true)
    (hs : Ordinary lines) : Ordinary (line :: lines) := by
  intro l hl
  rcases List.mem_cons.mp hl with rfl | hl
  · exact h
  · exact hs l hl

theorem Ordinary.nil : Ordinary [] := fun _ hl => absurd hl (List.not_mem_nil)

theorem Ordinary.not_mem {lines : List String} (h : Ordinary lines) {other : String} {c : Char}
    {cs : List Char} (ho : other = String.ofList (c :: cs)) (hc : c = 'f' ∨ c = '\x7d') :
    other ∉ lines :=
  fun hm => ne_of_isOrdinary (h other hm) ho hc rfl

/-- A character of the list of the names is in a name, between names, or in the words for an
empty list. -/
theorem not_mem_parameterList (d : Declaration) {c : Char} (h : ∀ name ∈ d.names, c ∉ name.toList)
    (hc : c ∉ ", ".toList) (he : c ∉ "(no parameters)".toList) :
    c ∉ (Package.parameterList d).toList := by
  unfold Package.parameterList
  split
  · exact he
  · have hall : ∀ names : List String, (∀ name ∈ names, c ∉ name.toList) →
        c ∉ (", ".intercalate names).toList := by
      intro names hn
      induction names with
      | nil => simp
      | cons name names ih =>
          have hname := hn name List.mem_cons_self
          cases names with
          | nil => simpa using hname
          | cons next rest =>
              have hrest := ih fun n hm => hn n (List.mem_cons_of_mem _ hm)
              rw [String.intercalate_cons_cons]
              simp only [String.toList_append, List.mem_append, not_or]
              exact ⟨⟨hname, hc⟩, hrest⟩
    exact hall d.names h

section Lines
variable {names : List String} (h : ∀ name ∈ names, Quotable name)

include h

theorem ordinary_schemaLines {program : String} (hp : Quotable program) :
    Ordinary (Package.schemaLines program names) := by
  have hclose : '\n' ∉ "\")".toList := not_mem_literal rfl rfl
  apply Ordinary.cons (isOrdinary_append rfl rfl (not_break_append hp.not_break hclose))
  intro line hl
  obtain ⟨name, hn, rfl⟩ := List.mem_map.mp hl
  exact isOrdinary_append rfl rfl (not_break_append (h name hn).not_break hclose)

theorem ordinary_checkLines : Ordinary (names.flatMap Package.checkLines) := by
  intro line hl
  obtain ⟨name, hn, hl⟩ := List.mem_flatMap.mp hl
  have hname := (h name hn).not_break
  have hask : '\n' ∉ "\") \x7b".toList := not_mem_literal rfl rfl
  have hcall : '\n' ∉ "\")?;".toList := not_mem_literal rfl rfl
  have hall : Ordinary (Package.checkLines name) := by
    refine .cons rfl (.cons ?_ (.cons ?_ (.cons ?_ (.cons ?_ .nil))))
    · exact isOrdinary_append rfl rfl (not_break_append hname hask)
    · exact isOrdinary_append rfl rfl (not_break_append hname hcall)
    · exact Template.toList_of_eq rfl rfl
    · exact Template.toList_of_eq rfl rfl
  exact hall line hl

theorem ordinary_bindingLines : Ordinary (names.map Package.bindingLine) := by
  intro line hl
  obtain ⟨name, hn, rfl⟩ := List.mem_map.mp hl
  have hname := (h name hn).not_break
  have htype : '\n' ∉ ": f64 = options.double(\"".toList := not_mem_literal rfl rfl
  have hclose : '\n' ∉ "\")?;".toList := not_mem_literal rfl rfl
  exact isOrdinary_append rfl rfl
    (not_break_append hname (not_break_append htype (not_break_append hname hclose)))

theorem ordinary_reportLines : Ordinary (names.map Package.reportLine) := by
  intro line hl
  obtain ⟨name, hn, rfl⟩ := List.mem_map.mp hl
  have hname := (h name hn).not_break
  have hcomma : '\n' ∉ "\", ".toList := not_mem_literal rfl rfl
  have hclose : '\n' ∉ ")?;".toList := not_mem_literal rfl rfl
  exact isOrdinary_append rfl rfl
    (not_break_append hname (not_break_append hcomma (not_break_append hname hclose)))

theorem ordinary_driveLines : Ordinary (Package.driveLines names) := by
  unfold Package.driveLines
  refine .append (.append (.append (.append (.append (.append ?_ (ordinary_checkLines h)) ?_)
    (ordinary_bindingLines h)) ?_) (ordinary_reportLines h)) ?_
  · refine .cons ?_ (.cons ?_ (.cons ?_ (.cons ?_ (.cons ?_ (.cons ?_ (.cons ?_ (.cons ?_
      (.cons ?_ (.cons ?_ (.cons ?_ (.cons ?_ .nil))))))))))) <;>
      exact Template.toList_of_eq rfl rfl
  · refine .cons ?_ (.cons ?_ .nil) <;> exact Template.toList_of_eq rfl rfl
  · refine .cons ?_ (.cons ?_ .nil) <;> exact Template.toList_of_eq rfl rfl
  · refine .cons ?_ (.cons ?_ .nil) <;> exact Template.toList_of_eq rfl rfl

end Lines

theorem ordinary_headLines {d : Declaration} (h : ∀ name ∈ d.names, Quotable name) :
    Ordinary (Package.headLines d) := by
  have hlist : '\n' ∉ (Package.parameterList d).toList :=
    not_mem_parameterList d (fun name hn => (h name hn).not_break) (not_mem_literal rfl rfl)
      (not_mem_literal rfl rfl)
  have hversion : '\n' ∉ (generatorVersion ++ ". Regenerate instead of editing by hand.").toList :=
    not_break_append (not_mem_literal rfl rfl) (not_mem_literal rfl rfl)
  unfold Package.headLines
  refine .cons (isOrdinary_append rfl rfl hlist) (.cons ?_
    (.cons (isOrdinary_append rfl rfl hversion) (.cons ?_ (.cons ?_ (.cons ?_ (.cons ?_
      (.cons ?_ (.cons ?_ (.cons ?_ .nil))))))))) <;> exact Template.toList_of_eq rfl rfl

/-- The tokens that add a parameter to a schema. -/
def parameterTokens (name : String) : List Token :=
  [.mark '.', .word "parameter", .mark '(', .text name, .mark ')']

theorem linesTokens?_schemaLines {names : List String} {program : String}
    (hn : ∀ name ∈ names, Quotable name) (hp : Quotable program) :
    linesTokens? (Package.schemaLines program names) =
      some ([.word "OptionSchema", .mark ':', .mark ':', .word "new", .mark '(', .text program,
        .mark ')'] ++ names.flatMap parameterTokens) := by
  have hnew : Mode.between.scan "    OptionSchema::new(\"".toList = some
      ([.word "OptionSchema", .mark ':', .mark ':', .word "new", .mark '('], .text []) :=
    Mode.scan_literal rfl rfl
  have hadd : Mode.between.scan "        .parameter(\"".toList = some
      ([.mark '.', .word "parameter", .mark '('], .text []) := Mode.scan_literal rfl rfl
  have hquoted : ∀ {text}, Quotable text → (Mode.text []).scan (text ++ "\")").toList = some
      ([.text text, .mark ')'], .between) := fun ht => scan_quoted ht rfl rfl
  have hfirst := tokens?_of_scan (Mode.scan_join hnew (hquoted hp))
  have hnames : linesTokens? (names.map Package.schemaLine) =
      some (names.flatMap parameterTokens) := by
    induction names with
    | nil => rfl
    | cons name names ih =>
        have hname := tokens?_of_scan (Mode.scan_join hadd
          (hquoted (hn name List.mem_cons_self)))
        have hrest := ih fun n hm => hn n (List.mem_cons_of_mem _ hm)
        unfold Package.schemaLine at hrest ⊢
        simp only [List.map_cons, linesTokens?, hname, hrest, bind, Option.bind_some,
          List.flatMap_cons]
        rfl
  simp only [Package.schemaLines, linesTokens?, hfirst, hnames, bind, Option.bind_some]
  rfl

/-- The tokens of a chain of parameters are read as the schema it makes. -/
theorem postfix?_parameters (names : List String) (value : Expr) (fuel : Nat) :
    postfix? (fuel + names.length + 4) value (names.flatMap parameterTokens) =
      some (names.foldl (fun schema name => .method schema "parameter" [.text name]) value,
        []) := by
  induction names generalizing value with
  | nil => simp
  | cons name names ih =>
      have hfuel : fuel + (name :: names).length + 4 = fuel + names.length + 4 + 1 := by
        rw [List.length_cons]
        omega
      rw [hfuel, List.flatMap_cons, List.foldl_cons, ← ih]
      simp [parameterTokens]

theorem length_parameterTokens (names : List String) :
    (names.flatMap parameterTokens).length = 5 * names.length := by
  induction names with
  | nil => rfl
  | cons name names ih =>
      rw [List.flatMap_cons, List.length_append, ih, List.length_cons, parameterTokens]
      simp only [List.length_cons, List.length_nil]
      omega

theorem function?_schema {names : List String} {program : String} {before after : List String}
    (hn : ∀ name ∈ names, Quotable name) (hp : Quotable program)
    (hb : Package.schemaHeader ∉ before) :
    function? Package.schemaHeader (before ++ Package.schemaHeader ::
        (Package.schemaLines program names ++ "\x7d" :: after)) =
      some [.result (schemaExpr program names)] := by
  have hclose : "\x7d" ∉ Package.schemaLines program names :=
    (ordinary_schemaLines hn hp).not_mem rfl (Or.inr rfl)
  have hlength := length_parameterTokens names
  have hchain := postfix?_parameters names (.call ["OptionSchema", "new"] [.text program])
    (4 * names.length + 2)
  rw [show 4 * names.length + 2 + names.length + 4 = 5 * names.length + 6 by omega] at hchain
  have hread : statements? (5 * names.length + 8) ([.word "OptionSchema", .mark ':', .mark ':',
      .word "new", .mark '(', .text program, .mark ')'] ++ names.flatMap parameterTokens) =
      some ([.result (schemaExpr program names)], []) := by
    simp [hlength, hchain, schemaExpr]
  have hfuel : ([.word "OptionSchema", .mark ':', .mark ':', .word "new", .mark '(',
      .text program, .mark ')'] ++ names.flatMap parameterTokens : List Token).length + 1 =
      5 * names.length + 8 := by
    rw [List.length_append, hlength]
    simp only [List.length_cons, List.length_nil]
    omega
  rw [function?, functionLines?_eq hb hclose]
  simp only [bind, Option.bind_some, linesTokens?_schemaLines hn hp, hfuel, hread]
  rfl

theorem function?_drive {names : List String} {before after : List String}
    (hn : ∀ name ∈ names, Wordlike name) (hb : Package.driveHeader ∉ before) :
    function? Package.driveHeader (before ++ Package.driveHeader ::
        (Package.driveLines names ++ "\x7d" :: after)) =
      some (openingStatements ++ names.map checkStatement ++ outputDirStatement ::
        names.map bindingStatement ++ outputDirReport :: names.map reportStatement ++
          [.result (statusExpr "Success")]) := by
  have hclose : "\x7d" ∉ Package.driveLines names :=
    (ordinary_driveLines fun name h => (hn name h).quotable).not_mem rfl (Or.inr rfl)
  obtain ⟨lines, hlines, tokens, htokens, hreads⟩ := linesRead_drive hn
  have hlast : linesTokens? ["", "    Ok(Status::Success)"] = some
      [.word "Ok", .mark '(', .word "Status", .mark ':', .mark ':', .word "Success",
        .mark ')'] := by
    have h : tokens? "    Ok(Status::Success)" = some
        [.word "Ok", .mark '(', .word "Status", .mark ':', .mark ':', .word "Success",
          .mark ')'] := tokens?_literal rfl rfl
    simp only [linesTokens?, h, bind, Option.bind_some]
    rfl
  have hresult : ∀ fuel, statements? (fuel + 4) [.word "Ok", .mark '(', .word "Status", .mark ':',
      .mark ':', .word "Success", .mark ')'] = some ([.result (statusExpr "Success")], []) := by
    intro fuel
    simp [statusExpr]
  rw [function?, functionLines?_eq hb hclose]
  simp only [bind, Option.bind_some, hlines, linesTokens?_append htokens hlast,
    statements?_result hreads hresult (by simp)]
  rfl

/-- The lines of a source that begins with unbroken lines. -/
theorem linesOf_append {front : List String} (h : ∀ line ∈ front, '\n' ∉ line.toList)
    (behind : List String) :
    linesOf (Skeleton.unlines (front ++ behind)) = front ++ linesOf (Skeleton.unlines behind) := by
  have hsame : (front.map String.toList).map String.ofList = front := by
    rw [List.map_map]
    exact (List.map_congr_left fun line _ => String.ofList_toList).trans (List.map_id _)
  rw [linesOf, Skeleton.unlines_append, String.toList_append, Skeleton.splitOn_unlines h,
    List.map_append, hsame]
  rfl

/-- The lines before the function that does the work. -/
def upToDrive (d : Declaration) (program : String) : List String :=
  Package.headLines d ++ Package.schemaHeader ::
    (Package.schemaLines program d.names ++ ["\x7d", ""])

/-- The lines of both functions with all that is before them. -/
def upToMain (d : Declaration) (program : String) : List String :=
  upToDrive d program ++ Package.driveHeader :: (Package.driveLines d.names ++ ["\x7d"])

section Source
variable {d : Declaration} {program : String} (hp : Quotable program)

theorem wordlike_names (d : Declaration) : ∀ name ∈ d.names, Wordlike name :=
  fun name hn => wordlike_of_spellsName (nameError?_eq_none_iff.mp (d.legal name hn)).1

theorem quotable_names (d : Declaration) : ∀ name ∈ d.names, Quotable name :=
  fun name hn => (wordlike_names d name hn).quotable

include hp

theorem unbroken_upToMain : ∀ line ∈ upToMain d program, '\n' ∉ line.toList := by
  intro line hl
  have hbroken : ∀ {lines}, Ordinary lines → line ∈ lines → '\n' ∉ line.toList :=
    fun ho hm => not_break_of_isOrdinary (ho line hm)
  simp only [upToMain, upToDrive, List.mem_append, List.mem_cons, List.not_mem_nil, or_false] at hl
  rcases hl with (hl | rfl | hl | rfl | rfl) | rfl | hl | rfl
  · exact hbroken (ordinary_headLines (quotable_names d)) hl
  · exact not_mem_literal rfl rfl
  · exact hbroken (ordinary_schemaLines (quotable_names d) hp) hl
  · exact not_mem_literal rfl rfl
  · exact not_mem_literal rfl rfl
  · exact not_mem_literal rfl rfl
  · exact hbroken (ordinary_driveLines (quotable_names d)) hl
  · exact not_mem_literal rfl rfl

theorem driveHeader_not_mem_upToDrive : Package.driveHeader ∉ upToDrive d program := by
  have hhead : Package.driveHeader ∉ Package.headLines d :=
    (ordinary_headLines (quotable_names d)).not_mem rfl (Or.inl rfl)
  have hschema : Package.driveHeader ∉ Package.schemaLines program d.names :=
    (ordinary_schemaLines (quotable_names d) hp).not_mem rfl (Or.inl rfl)
  simp only [upToDrive, List.mem_append, List.mem_cons, List.not_mem_nil, or_false, not_or]
  exact ⟨hhead, by decide, hschema, by decide, by decide⟩

theorem function?_schema_upToMain (behind : List String) :
    function? Package.schemaHeader (upToMain d program ++ behind) =
      some (driverCode program d.names).schema := by
  have hbefore : Package.schemaHeader ∉ Package.headLines d :=
    (ordinary_headLines (quotable_names d)).not_mem rfl (Or.inl rfl)
  have hshape : upToMain d program ++ behind = Package.headLines d ++ Package.schemaHeader ::
      (Package.schemaLines program d.names ++ "\x7d" :: "" :: Package.driveHeader ::
        (Package.driveLines d.names ++ "\x7d" :: behind)) := by
    simp [upToMain, upToDrive]
  rw [hshape]
  exact function?_schema (quotable_names d) hp hbefore

theorem function?_drive_upToMain (behind : List String) :
    function? Package.driveHeader (upToMain d program ++ behind) =
      some (driverCode program d.names).drive := by
  have hshape : upToMain d program ++ behind = upToDrive d program ++ Package.driveHeader ::
      (Package.driveLines d.names ++ "\x7d" :: behind) := by
    simp [upToMain]
  rw [hshape]
  exact function?_drive (wordlike_names d) (driveHeader_not_mem_upToDrive hp)

end Source

/-- The source of every declaration is read as its code. -/
theorem read?_sourceLines (d : Declaration) {settings : DriverSettings}
    (hp : Quotable settings.program) :
    Code.read? (Skeleton.unlines (Package.sourceLines d settings)) =
      some (driverCode settings.program d.names) := by
  have hlines : Package.sourceLines d settings =
      upToMain d settings.program ++ Package.mainLines settings.lifecycle := by
    simp [Package.sourceLines, upToMain, upToDrive]
  -- What follows both functions may break anywhere, and nothing depends on it.
  have hunbroken : ∀ line ∈ upToMain d settings.program, '\n' ∉ line.toList := unbroken_upToMain hp
  have hread := linesOf_append hunbroken (Package.mainLines settings.lifecycle)
  generalize linesOf (Skeleton.unlines (Package.mainLines settings.lifecycle)) = behind at hread
  rw [Code.read?, hlines, hread]
  change (function? Package.schemaHeader (upToMain d settings.program ++ behind)).bind _ = _
  rw [function?_schema_upToMain hp]
  change (function? Package.driveHeader (upToMain d settings.program ++ behind)).bind _ = _
  rw [function?_drive_upToMain hp]
  rfl

end PointDriver.Emitted

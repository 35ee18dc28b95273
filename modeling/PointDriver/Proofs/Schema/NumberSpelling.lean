import PointDriver.Proofs.Schema.ArgumentGrammar
import PointDriver.Proofs.Schema.Repetition

/-!
# Numbers in arguments of their own

A value that becomes a number may be attached to its parameter or follow it. The
two writings are read alike if the text has no dash in front, or if what follows
the dash has the shape that is looked for in arguments. The number texts are
more than these: with any other one the argument is refused.
-/

namespace PointDriver
open CommandLine

section Texts

/-- A character that is no blank stays in front when blanks at the end are left out. -/
theorem trimEnd_cons {c : Char} (h : isBlank c = false) (cs : List Char) :
    trimEnd (c :: cs) = c :: trimEnd cs := by
  have hc : [c].dropWhile isBlank = [c] := by simp [h]
  rw [trimEnd, trimEnd, List.reverse_cons, List.dropWhile_append, hc]
  split
  · next he => simp [List.isEmpty_iff.mp he]
  · simp

theorem trim_cons {c : Char} (h : isBlank c = false) (cs : List Char) :
    trim (c :: cs) = c :: trimEnd cs := by
  rw [trim, trimStart_eq_self h, trimEnd_cons h]

namespace Literal

theorem read?_dash (cs : List Char) :
    read? ('-' :: cs) = match magnitude? cs with
      | some (digits, e) => some (.decimal true digits e)
      | none => word? true cs := rfl

/-- A number text goes on behind a dash, and not with another dash. -/
theorem exists_of_read?_dash {cs : List Char} {x : Literal}
    (h : read? ('-' :: trimEnd cs) = some x) : ∃ c more, cs = c :: more ∧ c ≠ '-' := by
  cases cs with
  | nil => cases h
  | cons c more =>
      refine ⟨c, more, rfl, ?_⟩
      rintro rfl
      -- A second dash starts neither digits nor a word.
      have hm : magnitude? ('-' :: trimEnd more) = none := by simp [magnitude?, fraction]
      have hw : word? true ('-' :: trimEnd more) = none := by
        have hl : Char.toLower '-' = '-' := rfl
        simp [word?, hl]
      rw [trimEnd_cons (by decide), read?_dash, hm, hw] at h
      cases h

/-- An exponent of digits alone is one that number texts may have. -/
theorem exists_exponent? {digits : List Char} (h : ExponentDigits digits) :
    ∃ x, exponent? digits = some x := by
  obtain ⟨c, rest, rfl⟩ := List.exists_cons_of_ne_nil h.nonempty
  have hd : c.isDigit = true := h.digits c List.mem_cons_self
  have hsign : sign (c :: rest) = (false, c :: rest) := by
    unfold sign
    split
    · next heq => exact absurd ((List.cons.inj heq).1 ▸ hd) (by decide)
    · next heq => exact absurd ((List.cons.inj heq).1 ▸ hd) (by decide)
    · rfl
  have hall : (c :: rest).all Char.isDigit = true := List.all_eq_true.mpr h.digits
  refine ⟨digitsValue (c :: rest), ?_⟩
  simp only [exponent?, hsign, hall]
  rfl

/-- What has the shape that is looked for in arguments is a number without a sign. -/
theorem exists_magnitude?_of_numberShaped {cs : List Char} (h : NumberShaped cs) :
    ∃ x, magnitude? cs = some x := by
  obtain ⟨hwhole, hexponent⟩ :=
    (isNumberLike_iff_exponent cs).mp (isNumberLike_iff.mpr h)
  have hdigits : (cs.takeWhile Char.isDigit).isEmpty = false := by simpa using hwhole
  rcases hfraction : fraction (cs.dropWhile Char.isDigit) with ⟨places, rest⟩
  rw [hfraction] at hexponent
  simp only [magnitude?, hfraction, hdigits, Bool.false_and, Bool.false_eq_true, if_false]
  rcases hexponent with rfl | ⟨e, digits, rfl, he, hx⟩
  · exact ⟨_, rfl⟩
  · obtain ⟨x, hx⟩ := exists_exponent? hx
    rw [isExponentLetter] at he
    simp only [he, if_true, hx, Option.map_some]
    exact ⟨_, rfl⟩

end Literal

/-- A text that becomes a number goes on behind a dash, and not with another dash. -/
theorem exists_of_double_dash {o : ParsedOptions} {name value : String} {number : List Char}
    {x : Double} (given : o.value? name = some value) (converts : o.double name = .ok x)
    (hnumber : value.toList = '-' :: number) : ∃ c more, number = c :: more ∧ c ≠ '-' := by
  have htrim : trim value.toList = '-' :: trimEnd number := by
    rw [hnumber, trim_cons (by decide)]
  rw [ParsedOptions.double, given] at converts
  simp only [htrim, Double.read?] at converts
  cases hl : Literal.read? ('-' :: trimEnd number) with
  | none => simp [hl] at converts
  | some literal => exact Literal.exists_of_read?_dash hl

theorem isBlank_of_isDigit {c : Char} (h : c.isDigit = true) : isBlank c = false := by
  obtain ⟨hlow, hhigh⟩ : 48 ≤ c.toNat ∧ c.toNat ≤ 57 := by
    simpa [Char.isDigit, UInt32.le_iff_toNat_le] using h
  simp only [isBlank, Bool.or_eq_false_iff, Bool.and_eq_false_iff, decide_eq_false_iff_not,
    beq_eq_false_iff_ne]
  omega

/-- A dash and the shape that is looked for in arguments make a number text. -/
theorem exists_read?_of_numberShaped {number : List Char} (hshape : NumberShaped number) :
    ∃ x, Double.read? (trim ('-' :: number)) = some x := by
  have hblank : ∀ c ∈ '-' :: number, isBlank c = false := by
    intro c hc
    rcases List.mem_cons.mp hc with rfl | hc
    · decide
    rcases hshape.alphabet c hc with hdigit | rfl | hletter
    · exact isBlank_of_isDigit hdigit
    · decide
    · rw [isExponentLetter, Bool.or_eq_true, beq_iff_eq, beq_iff_eq] at hletter
      rcases hletter with rfl | rfl <;> decide
  obtain ⟨⟨digits, e⟩, hm⟩ := Literal.exists_magnitude?_of_numberShaped hshape
  refine ⟨(Literal.decimal true digits e).toDouble, ?_⟩
  rw [trim_eq_self hblank, Double.read?, Literal.read?_dash, hm]
  rfl

theorem exists_double_of_numberShaped {o : ParsedOptions} {name value : String}
    {number : List Char} (given : o.value? name = some value)
    (hnumber : value.toList = '-' :: number) (hshape : NumberShaped number) :
    ∃ x, o.double name = .ok x := by
  obtain ⟨x, hx⟩ := exists_read?_of_numberShaped hshape
  refine ⟨x, ?_⟩
  simp only [ParsedOptions.double, given, hnumber, hx]

end Texts

/-- An item of a new name may stand anywhere among others. -/
theorem Spells.insert {d : Declaration} {before after : List Item} {i : Item}
    {behind : List Bytes}
    (h : Spells d (before ++ after) (before.flatMap Item.words ++ behind)) (hi : i.Legal d)
    (hn : i.name ∉ (before ++ after).map Item.name) :
    Spells d (before ++ i :: after) (before.flatMap Item.words ++ (i.words ++ behind)) := by
  obtain ⟨hbefore, hafter⟩ := List.forall_mem_append.mp h.legal
  constructor
  · exact List.forall_mem_append.mpr ⟨hbefore, List.forall_mem_cons.mpr ⟨hi, hafter⟩⟩
  · apply (List.perm_middle.map Item.name).nodup_iff.mpr
    exact List.nodup_cons.mpr ⟨hn, h.distinct⟩
  · have hw := h.words
    simp only [List.flatMap_append, List.append_assoc, List.append_cancel_left_eq] at hw
    rcases hw with rfl | rfl
    · exact Or.inl (by simp)
    · exact Or.inr (by simp)

namespace Schema
variable {program : String} {d : Declaration} {name value : String}

/-- The argument behind a dash, when it is not a second dash, is read as letters. -/
theorem ofBytes_dash {c : Char} {more : List Char} (hv : value.toList = '-' :: c :: more)
    (hc : c ≠ '-') :
    Word.ofBytes (Utf8.encode value) = .letters (Utf8.encode (String.ofList (c :: more))) := by
  have hvalue : value = "-" ++ String.ofList (c :: more) := by
    rw [← String.toList_inj, hv]
    simp
  have hdash : Utf8.encode "-" = [dash] := by decide
  refine Word.ofBytes_eq_letters_iff.mpr ⟨?_, ?_, ?_⟩
  · rw [hvalue, Utf8.encode_append, hdash]
    rfl
  · have hempty : Utf8.encode "" = [] := rfl
    rw [← hempty, Ne, Utf8.encode_inj, ← String.toList_inj]
    simp
  · rw [Ne, head?_encode_dash]
    simpa using hc

/-- After a parameter alone, a dash with other than a number behind it is refused. -/
theorem readFrom_refused (hn : name ∈ d.valueNames) {c : Char} {more : List Char}
    (hv : value.toList = '-' :: c :: more) (hc : c ≠ '-')
    (hshape : ¬ NumberShaped (c :: more)) (recorded : List Occurrence) (rest : List Bytes) :
    readFrom (ofDeclaration program d).table (.awaiting recorded (optionSpec name))
        (Utf8.encode value :: rest) =
      .error (.unknownArgument ("-" ++ c.toString)) := by
  let letters := Utf8.encode (String.ofList (c :: more))
  have hnumber : takesNumber (.awaiting recorded (optionSpec name)) letters = false := by
    rw [Bool.eq_false_iff]
    intro hm
    obtain ⟨-, number, he, hs⟩ := (takesNumber_optionSpec_iff hn).mp hm
    apply hshape
    rw [← Utf8.encode_inj.mp he] at hs
    simpa using hs
  have hscan : Utf8.scan 0 letters = (c :: more, []) := by
    have h := Utf8.scan_encodeChars (c :: more) []
    rw [List.append_nil] at h
    simpa [letters, Utf8.encode, Utf8.scan] using h
  have hletter : lettered? (ofDeclaration program d).table c = none := by
    apply List.find?_eq_none.mpr
    intro s hs
    simp [letterless_table program d s hs]
  rw [readFrom_cons, ofBytes_dash hv hc]
  simp only [letters, hnumber, hscan, Reading.giveLetters, hletter]
  rfl

/-- A legal item of a new name is read among the others. -/
theorem parse_among {before after : List Item} {behind : List Bytes} {i : Item}
    (hi : i.Legal d) (others : Spells d (before ++ after) (before.flatMap Item.words ++ behind))
    (hn : i.name ∉ (before ++ after).map Item.name) (first : Bytes) :
    (ofDeclaration program d).parse
        (first :: (before.flatMap Item.words ++ (i.words ++ behind))) =
      .ok ((ofDeclaration program d).collect
        (.settled ((before ++ i :: after).map Item.occurrence))) := by
  apply parse_of_spells
  exact others.insert hi hn

/-- A parameter with its value among other items: what is read does not depend on how the
value is written, if both writings are legal. -/
theorem parse_separate_eq_attached {before after : List Item} {behind : List Bytes}
    (hn : name ∈ d.valueNames) (hv : StandsAlone d name value)
    (others : Spells d (before ++ after) (before.flatMap Item.words ++ behind))
    (unnamed : name ∉ (before ++ after).map Item.name) (first : Bytes) :
    (ofDeclaration program d).parse (first :: (before.flatMap Item.words ++
        ((Item.separate name value).words ++ behind))) =
      (ofDeclaration program d).parse (first :: (before.flatMap Item.words ++
        ((Item.attached name value).words ++ behind))) := by
  have hseparate : (Item.separate name value).Legal d := ⟨hn, hv⟩
  have hattached : (Item.attached name value).Legal d := hn
  have huses : (before ++ .separate name value :: after).map Item.use =
      (before ++ .attached name value :: after).map Item.use := by
    simp only [List.map_append, List.map_cons]
    rfl
  rw [parse_among hseparate others unnamed, parse_among hattached others unnamed]
  rw [collect_eq_of_perm (others.insert hseparate unnamed).distinct (List.Perm.of_eq huses)]

/-- A value with a dash in front that is no number among arguments is refused behind its
parameter, whatever the other items are. -/
theorem parse_refused {before after : List Item} {behind : List Bytes}
    (hn : name ∈ d.valueNames) {c : Char} {more : List Char}
    (hv : value.toList = '-' :: c :: more) (hc : c ≠ '-')
    (hshape : ¬ NumberShaped (c :: more))
    (others : Spells d (before ++ after) (before.flatMap Item.words ++ behind)) (first : Bytes) :
    (ofDeclaration program d).parse (first :: (before.flatMap Item.words ++
        ((Item.separate name value).words ++ behind))) =
      .error (.commandLine ((ofDeclaration program d).commandName [first])
        (.unknownArgument ("-" ++ c.toString))) := by
  obtain ⟨hlegal, -⟩ := List.forall_mem_append.mp others.legal
  have hdistinct : (before.map Item.name).Nodup := by
    have h := others.distinct
    rw [List.map_append] at h
    exact h.of_append_left
  have hscan : scanOptions (ofDeclaration program d).table (before.flatMap Item.words ++
      ((Item.separate name value).words ++ behind)) =
        .error (.unknownArgument ("-" ++ c.toString)) :=
    (scanOptions_alone hlegal hdistinct hn _).trans (readFrom_refused hn hv hc hshape _ _)
  rw [parse, List.drop_one, List.tail_cons, hscan]
  rfl

/-- A text is read as the value of a parameter when it is attached. In an argument of its own it
is read alike if it has no dash in front. Behind a dash the shape of a number is looked for: a
text that has it is read alike and becomes a number. A text that becomes a number without having
it is refused, and the first character behind the dash is shown. -/
theorem parse_both_spellings (d : Declaration) (program name value : String) (first : Bytes)
    (before after : List Item) (behind : List Bytes) (o : ParsedOptions)
    (declared : name ∈ d.names)
    (others : Spells d (before ++ after) (before.flatMap Item.words ++ behind))
    (unnamed : name ∉ (before ++ after).map Item.name)
    (given : o.value? name = some value) :
    let s := ofDeclaration program d
    let among (words : List Bytes) := first :: (before.flatMap Item.words ++ (words ++ behind))
    let attached := among [Utf8.encode ("--" ++ name ++ "=" ++ value)]
    let separate := among [Utf8.encode ("--" ++ name), Utf8.encode value]
    (∃ parsed, s.parse attached = .ok parsed ∧ parsed.value? name = some value ∧
        parsed.double name = o.double name) ∧
      (value.toList.head? ≠ some '-' → s.parse separate = s.parse attached) ∧
      ∀ number, value.toList = '-' :: number →
        (NumberShaped number →
          s.parse separate = s.parse attached ∧ ∃ x, o.double name = .ok x) ∧
        (¬ NumberShaped number → (∃ x, o.double name = .ok x) →
          ∃ c more, number = c :: more ∧
            s.parse separate = .error (.commandLine (s.commandName separate)
              (.unknownArgument ("-" ++ c.toString)))) := by
  have hn : name ∈ d.valueNames := List.mem_cons_of_mem _ declared
  refine ⟨?_, ?_, fun number hnumber => ⟨?_, ?_⟩⟩
  · have hattached : (Item.attached name value).Legal d := hn
    have hvalue : ((ofDeclaration program d).collect (.settled
        ((before ++ .attached name value :: after).map Item.occurrence))).value? name =
          some value := by
      apply (value?_of_spells (others.insert hattached unnamed)).mpr
      exact ⟨_, List.mem_append_right _ List.mem_cons_self, rfl, rfl⟩
    refine ⟨_, parse_among hattached others unnamed first, hvalue, ?_⟩
    rw [ParsedOptions.double, ParsedOptions.double, hvalue, given]
  · intro hv
    exact parse_separate_eq_attached hn (Or.inl hv) others unnamed first
  · intro hshape
    have hstands : StandsAlone d name value :=
      Or.inr (Or.inr ⟨declared, number, hnumber, hshape⟩)
    constructor
    · exact parse_separate_eq_attached hn hstands others unnamed first
    · exact exists_double_of_numberShaped given hnumber hshape
  · rintro hshape ⟨x, hx⟩
    obtain ⟨c, more, rfl, hc⟩ := exists_of_double_dash given hx hnumber
    exact ⟨c, more, rfl, parse_refused hn hnumber hc hshape others first⟩

/-- Before a request for help, a number with a sign in its exponent is read when it is attached
to its parameter, and refused in an argument of its own. -/
theorem parse_signed_exponent :
    (∃ parsed, (ofDeclaration "driver" (.single "alpha" (by decide))).parse
        [Utf8.encode "driver", Utf8.encode "--alpha=-2e-3", Utf8.encode "--help"] = .ok parsed ∧
      parsed.value? "alpha" = some "-2e-3" ∧ ∃ x, parsed.double "alpha" = .ok x) ∧
    (ofDeclaration "driver" (.single "alpha" (by decide))).parse
        [Utf8.encode "driver", Utf8.encode "--alpha", Utf8.encode "-2e-3",
          Utf8.encode "--help"] = .error (.commandLine "driver" (.unknownArgument "-2")) := by
  let d : Declaration := .single "alpha" (by decide)
  let o : ParsedOptions := ⟨[], [("alpha", "-2e-3")]⟩
  have hothers : Spells d ([] ++ [.help]) ([].flatMap Item.words ++ [Utf8.encode "--help"]) := by
    refine ⟨?_, by decide, Or.inl (by decide)⟩
    intro i hi
    obtain rfl := List.mem_singleton.mp hi
    trivial
  have hconverts : ∃ x, o.double "alpha" = .ok x :=
    ⟨Double.ofBits 0xbf60624dd2f1a9fc, by decide +kernel⟩
  have hshape : ¬ NumberShaped "2e-3".toList := by
    rw [← isNumberLike_iff]
    decide
  obtain ⟨⟨parsed, hparsed, hvalue, hdouble⟩, -, hdash⟩ :=
    parse_both_spellings d "driver" "alpha" "-2e-3" (Utf8.encode "driver") [] [.help]
      [Utf8.encode "--help"] o (by decide) hothers (by decide) rfl
  refine ⟨⟨parsed, hparsed, hvalue, hdouble ▸ hconverts⟩, ?_⟩
  obtain ⟨c, more, hnumber, hseparate⟩ := (hdash "2e-3".toList (by decide)).2 hshape hconverts
  obtain ⟨rfl, -⟩ : '2' = c ∧ _ := by simpa using hnumber
  exact hseparate

/-- The two writings of a number are not always read alike: a point may follow the dash. -/
theorem not_parse_both_spellings :
    ¬ ∀ (d : Declaration) (program name value : String) (first : Bytes)
        (before after : List Item) (behind : List Bytes) (o : ParsedOptions),
        name ∈ d.names →
        Spells d (before ++ after) (before.flatMap Item.words ++ behind) →
        name ∉ (before ++ after).map Item.name →
        o.value? name = some value → (∃ x, o.double name = .ok x) →
        (ofDeclaration program d).parse (first :: (before.flatMap Item.words ++
            ([Utf8.encode ("--" ++ name), Utf8.encode value] ++ behind))) =
          (ofDeclaration program d).parse (first :: (before.flatMap Item.words ++
            ([Utf8.encode ("--" ++ name ++ "=" ++ value)] ++ behind))) := by
  intro h
  let d : Declaration := .single "alpha" (by decide)
  let o : ParsedOptions := ⟨[], [("alpha", "-.5")]⟩
  have hconverts : ∃ x, o.double "alpha" = .ok x :=
    ⟨Double.ofBits 0xbfe0000000000000, by decide +kernel⟩
  have halike := h d "driver" "alpha" "-.5" (Utf8.encode "driver") [] [] [] o (by decide)
    (spells_nil_iff.mpr (Or.inl rfl)) (by decide) rfl hconverts
  revert halike
  decide +kernel

end Schema

end PointDriver

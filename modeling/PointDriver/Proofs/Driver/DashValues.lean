import PointDriver.Proofs.Driver.Extraction
import PointDriver.Proofs.Driver.Runs
import PointDriver.Proofs.Schema.NumberSpelling

/-!
# Values that start with a dash

In an argument of its own, a text with a dash in front is taken as a value only
when it has the shape of a number, and every text of that shape is a number. So
such a value is never refused late: it is a number, or the argument is unknown.
-/

namespace PointDriver
open CommandLine

/-- The fault is an argument that nothing takes. -/
inductive CommandLine.Fault.IsUnknown : Fault → Prop
  | argument (shown : String) : IsUnknown (.unknownArgument shown)
  | option (name : String) (similar : Option Spec) (used : List Spec) :
      IsUnknown (.unknownOption name similar used)

/-- The argument is the two dashes alone, or uses an option of a driver, perhaps with a value
attached to it. -/
def ReadAsOption (d : Declaration) (argument : Bytes) : Prop :=
  argument = Utf8.encode "--" ∨
    ∃ name ∈ d.optionNames, ∃ attached : Option Bytes,
      argument = Utf8.encode ("--" ++ name) ++ attachment attached

/-- What stands alone with a dash in front has the shape of a number behind it. -/
theorem StandsAlone.numberShaped {d : Declaration} {name text : String}
    (h : StandsAlone d name text) (hdash : text.toList.head? = some '-') (hlong : text ≠ "-") :
    ∃ number, text.toList = '-' :: number ∧ NumberShaped number := by
  rcases h with h | h | ⟨-, h⟩
  · exact absurd hdash h
  · exact absurd h hlong
  · exact h

namespace Schema
variable {program : String} {d : Declaration} {items before : List Item} {name : String}

/-- A value with a dash in front that stands among spelled items becomes a number. -/
theorem double_of_separate (program : String) {arguments : List Bytes} {text : String}
    (h : Spells d items arguments) (hm : .separate name text ∈ items)
    (hdash : text.toList.head? = some '-') (hlong : text ≠ "-") :
    let o := (ofDeclaration program d).collect (.settled (items.map Item.occurrence))
    o.value? name = some text ∧ ∃ x, o.double name = .ok x := by
  intro o
  have hvalue : o.value? name = some text := (value?_of_spells h).mpr ⟨_, hm, rfl, rfl⟩
  obtain ⟨-, hstands⟩ := h.legal _ hm
  obtain ⟨number, hnumber, hshape⟩ := hstands.numberShaped hdash hlong
  exact ⟨hvalue, exists_double_of_numberShaped hvalue hnumber hshape⟩

/-- Only the option itself ends with its own text being no number. -/
theorem eq_of_double_invalidDouble {o : ParsedOptions} {other text : String}
    (h : o.double other = .error (.invalidDouble name text)) : other = name := by
  unfold ParsedOptions.double at h
  split at h
  · cases h
  · split at h
    · cases h
    · exact (DriverError.invalidDouble.inj (Except.error.inj h)).1

/-- An evaluation that ends with a text that is no number has parsed the arguments. -/
theorem exists_parse_of_invalidDouble {s : Schema} {vector : List Bytes} {text : String}
    (h : s.evaluate vector = .error (.invalidDouble name text)) :
    ∃ o, s.parse vector = .ok o ∧ o.double name = .error (.invalidDouble name text) := by
  rw [evaluate] at h
  cases hp : s.parse vector with
  | error e =>
      rw [hp] at h
      obtain rfl := Except.error.inj h
      unfold parse at hp
      split at hp <;> cases hp
  | ok o =>
      rw [hp] at h
      refine ⟨o, rfl, ?_⟩
      obtain ⟨-, hdir | ⟨other, -, hother⟩⟩ := error_of_assess h
      · unfold ParsedOptions.string at hdir
        split at hdir <;> cases hdir
      · rwa [eq_of_double_invalidDouble hother] at hother

/-- When arguments that begin with items are read, the others are spelled by further items. -/
theorem exists_spells_behind {first : Bytes} {rest : List Bytes} {o : ParsedOptions}
    (hl : ∀ i ∈ before, i.Legal d) (hd : (before.map Item.name).Nodup)
    (hrest : Settling (ofDeclaration program d).table rest)
    (h : (ofDeclaration program d).parse (first :: (before.flatMap Item.words ++ rest)) = .ok o) :
    ∃ items, Spells d items rest ∧
      Spells d (before ++ items) (before.flatMap Item.words ++ rest) := by
  have hscan : readFrom (ofDeclaration program d).table (.settled (before.map Item.occurrence))
      rest = readFrom (ofDeclaration program d).table (.settled [])
        (before.flatMap Item.words ++ rest) := by
    symm
    exact readFrom_items hl hd (fun _ _ => rfl) hrest
  cases hr : readFrom (ofDeclaration program d).table (.settled [])
      (before.flatMap Item.words ++ rest) with
  | error e =>
      have hparse : scanOptions (ofDeclaration program d).table
          (before.flatMap Item.words ++ rest) = .error e := hr
      rw [parse, List.drop_one, List.tail_cons, hparse] at h
      cases h
  | ok f =>
      obtain ⟨items, hi, hnew, -⟩ := readFrom_settled_eq_ok_iff.mp (hscan.trans hr)
      refine ⟨items, hi, List.forall_mem_append.mpr ⟨hl, hi.legal⟩, ?_, ?_⟩
      · rw [List.map_append]
        refine hd.append hi.distinct fun n hn hm => ?_
        obtain ⟨i, him, rfl⟩ := List.mem_map.mp hm
        have hhas : (Reading.settled (before.map Item.occurrence)).has i.name = true :=
          has_occurrences.mpr (List.mem_map.mp hn)
        rw [hnew i him] at hhas
        cases hhas
      · rcases hi.words with rfl | rfl <;> simp

/-- A parameter alone is spelled together with the argument behind it. -/
theorem eq_separate_of_spells {argument : Bytes} {behind : List Bytes} (hn : name ∈ d.names)
    (h : Spells d items (Utf8.encode ("--" ++ name) :: argument :: behind)) :
    ∃ text rest, items = .separate name text :: rest ∧ argument = Utf8.encode text := by
  have hm : name ∈ d.optionNames := List.mem_cons_of_mem _ (List.mem_cons_of_mem _ hn)
  cases items with
  | nil => simp [spells_nil_iff] at h
  | cons i items =>
      obtain ⟨rest, hwords, hi, -, -⟩ := spells_cons_iff.mp h
      cases i with
      | help =>
          obtain ⟨hname, -⟩ := List.cons.inj hwords
          exact absurd (by simpa using Utf8.encode_inj.mp hname) (d.ne_helpName hn)
      | attached other value =>
          obtain ⟨hname, -⟩ := List.cons.inj hwords
          have hother : other ∈ d.optionNames := Item.name_mem_optionNames hi
          have hword := ofBytes_attached hother value
          rw [← hname, ofBytes_dashes hm] at hword
          simp at hword
      | separate other value =>
          obtain ⟨hname, hrest⟩ := List.cons.inj hwords
          obtain ⟨hvalue, -⟩ := List.cons.inj hrest
          have hother : name = other := by simpa using Utf8.encode_inj.mp hname
          exact ⟨value, items, by rw [hother], hvalue⟩

/-- Behind a parameter alone, a dash with other than a number ends the reading. -/
theorem readFrom_awaiting_unknown (program : String) (recorded : List Occurrence)
    {argument : Bytes} (behind : List Bytes) (hn : name ∈ d.names)
    (hdash : argument.head? = some dash) (hlong : argument ≠ [dash])
    (hoption : ¬ ReadAsOption d argument)
    (hnumber : ¬ ∃ number, argument = Utf8.encode ("-" ++ number) ∧ NumberShaped number.toList) :
    ∃ fault : Fault, fault.IsUnknown ∧
      readFrom (ofDeclaration program d).table (.awaiting recorded (optionSpec name))
        (argument :: behind) = .error fault := by
  have hv : name ∈ d.valueNames := List.mem_cons_of_mem _ hn
  cases ha : Word.ofBytes argument with
  | plain =>
      rcases Word.ofBytes_eq_plain_iff.mp ha with h | h
      · exact absurd h hlong
      · exact absurd hdash h
  | escape =>
      rw [Word.ofBytes_eq_escape_iff, ← encode_escape] at ha
      exact absurd (Or.inl ha) hoption
  | letters letters =>
      have htakes : takesNumber (.awaiting recorded (optionSpec name)) letters = false := by
        rw [Bool.eq_false_iff]
        intro h
        obtain ⟨-, number, rfl, hshape⟩ := (takesNumber_optionSpec_iff hv).mp h
        obtain ⟨hargument, -⟩ := Word.ofBytes_eq_letters_iff.mp ha
        exact hnumber ⟨number, by rw [hargument, encode_dash], hshape⟩
      obtain ⟨shown, h⟩ := readFrom_letters (letterless_table program d) ha htakes behind
      exact ⟨_, .argument shown, h⟩
  | long bytes attached =>
      have hunnamed :
          (Utf8.decode? bytes).bind (named? (ofDeclaration program d).table) = none := by
        cases hd : Utf8.decode? bytes with
        | none => rfl
        | some other =>
            obtain rfl := Utf8.decode?_eq_some_iff.mp hd
            rw [Option.bind_some, named?_table, if_neg]
            intro hm
            obtain ⟨hargument, -⟩ := Word.ofBytes_eq_long_iff.mp ha
            refine hoption (Or.inr ⟨other, hm, attached, ?_⟩)
            rw [hargument, encode_dashes]
            rfl
      rw [readFrom_cons, ha]
      simp only [Reading.giveNamed, hunnamed]
      exact ⟨_, .option _ _ _, rfl⟩

section Behind
variable {argument : Bytes} {behind : List Bytes}

/-- Whatever else the arguments are, a dash with more behind it that follows a parameter alone does
not become a value that is no number. -/
theorem evaluate_ne_invalidDouble (program : String) (first : Bytes)
    (hl : ∀ i ∈ before, i.Legal d) (hd : (before.map Item.name).Nodup) (hn : name ∈ d.names)
    (hdash : argument.head? = some dash) (hlong : argument ≠ [dash]) (text : String) :
    (ofDeclaration program d).evaluate (first :: (before.flatMap Item.words ++
        Utf8.encode ("--" ++ name) :: argument :: behind)) ≠
      .error (.invalidDouble name text) := by
  intro h
  have hm : name ∈ d.optionNames := List.mem_cons_of_mem _ (List.mem_cons_of_mem _ hn)
  obtain ⟨o, ho, hinvalid⟩ := exists_parse_of_invalidDouble h
  obtain ⟨items, hbehind, hspells⟩ := exists_spells_behind hl hd
    (settling_option hm (ofBytes_dashes hm) (Or.inl rfl) _) ho
  obtain ⟨value, rest, rfl, rfl⟩ := eq_separate_of_spells hn hbehind
  obtain rfl := Except.ok.inj ((parse_eq_ok_iff.mpr ⟨_, hspells, rfl⟩).symm.trans ho)
  obtain ⟨-, x, hx⟩ := double_of_separate program hspells
    (List.mem_append_right _ List.mem_cons_self) ((head?_encode_dash value).mp hdash)
    (fun he => hlong (encode_eq_dash_iff.mpr he))
  rw [hx] at hinvalid
  cases hinvalid

/-- A dash with more behind it that follows a parameter alone is a number, or is read as an option,
or is refused as unknown. -/
theorem number_or_unknown (program : String) (first : Bytes) (hl : ∀ i ∈ before, i.Legal d)
    (hd : (before.map Item.name).Nodup) (hn : name ∈ d.names)
    (hdash : argument.head? = some dash) (hlong : argument ≠ [dash]) :
    (∃ text, argument = Utf8.encode text ∧ (number? text).isSome = true) ∨
      ReadAsOption d argument ∨
      ∃ fault : Fault, fault.IsUnknown ∧
        (ofDeclaration program d).parse (first :: (before.flatMap Item.words ++
            Utf8.encode ("--" ++ name) :: argument :: behind)) =
          .error (.commandLine ((ofDeclaration program d).commandName [first]) fault) := by
  by_cases hoption : ReadAsOption d argument
  · exact Or.inr (Or.inl hoption)
  by_cases hnumber : ∃ number, argument = Utf8.encode ("-" ++ number) ∧
      NumberShaped number.toList
  · obtain ⟨number, rfl, hshape⟩ := hnumber
    obtain ⟨x, hx⟩ := exists_read?_of_numberShaped hshape
    have htext : ("-" ++ number).toList = '-' :: number.toList := by simp
    exact Or.inl ⟨"-" ++ number, rfl, by rw [number?, htext, hx, Option.isSome_some]⟩
  · obtain ⟨fault, hunknown, hfault⟩ := readFrom_awaiting_unknown program
      (before.map Item.occurrence) behind hn hdash hlong hoption hnumber
    have hscan : scanOptions (ofDeclaration program d).table (before.flatMap Item.words ++
        Utf8.encode ("--" ++ name) :: argument :: behind) = .error fault :=
      (scanOptions_alone hl hd (List.mem_cons_of_mem _ hn) _).trans hfault
    refine Or.inr (Or.inr ⟨fault, hunknown, ?_⟩)
    rw [parse, List.drop_one, List.tail_cons, hscan]
    rfl

end Behind

/-- A text with more than a dash in front that is given to a parameter in an argument of its own
is a number whenever the arguments are accepted. Such an argument never leads to a value that is
no number: it is a number itself, or it is read as an option, or it is refused as unknown. -/
theorem separate_dash_converts (d : Declaration) (program : String) :
    let s := ofDeclaration program d
    (∀ vector o, s.parse vector = .ok o →
      (∃ items, Spells d items vector.tail) ∧
      ∀ items, Spells d items vector.tail → ∀ name ∈ d.names, ∀ text,
        .separate name text ∈ items → text.toList.head? = some '-' → text ≠ "-" →
        o.value? name = some text ∧ ∃ x, o.double name = .ok x) ∧
    ∀ (first : Bytes) (before : List Item) (name : String) (argument : Bytes)
      (behind : List Bytes),
      (∀ i ∈ before, i.Legal d) → (before.map Item.name).Nodup → name ∈ d.names →
      argument.head? = some dash → argument ≠ [dash] →
      let vector := first :: (before.flatMap Item.words ++
        Utf8.encode ("--" ++ name) :: argument :: behind)
      (∀ text, s.evaluate vector ≠ .error (.invalidDouble name text)) ∧
      ((∃ text, argument = Utf8.encode text ∧ (number? text).isSome = true) ∨
        ReadAsOption d argument ∨
        ∃ fault : Fault, fault.IsUnknown ∧
          s.parse vector = .error (.commandLine (s.commandName vector) fault)) := by
  refine ⟨fun vector o ho => ?_, fun first before name argument behind hl hd hn hdash hlong => ?_⟩
  · obtain ⟨spelled, hspelled, -⟩ := parse_eq_ok_iff.mp ho
    refine ⟨⟨spelled, hspelled⟩, fun items hi name _ text hm hdash hlong => ?_⟩
    rw [parse_of_spells hi] at ho
    obtain rfl := Except.ok.inj ho
    exact double_of_separate program hi hm hdash hlong
  exact ⟨evaluate_ne_invalidDouble program first hl hd hn hdash hlong,
    number_or_unknown program first hl hd hn hdash hlong⟩

/-- A number may end its digits with a point and go on with an exponent. Without digits behind
the exponent letter it is refused, even before a request for help. -/
theorem separate_dash_converts_trailing_point :
    let s := ofDeclaration "driver" (.single "alpha" (by decide))
    let vector (text : String) := [Utf8.encode "driver", Utf8.encode "--output_dir=o",
      Utf8.encode "--alpha", Utf8.encode text, Utf8.encode "--help"]
    (∃ o, s.parse (vector "-1.e5") = .ok o ∧ o.value? "alpha" = some "-1.e5" ∧
      ∃ x, o.double "alpha" = .ok x) ∧
    ∃ fault : Fault, fault.IsUnknown ∧
      s.parse (vector "-1.e") = .error (.commandLine (s.commandName (vector "-1.e")) fault) := by
  intro s vector
  let d : Declaration := .single "alpha" (by decide)
  let directory : Item := .attached outputDirName "o"
  have hlegal : directory.Legal d := List.mem_cons_self
  have hspells : Spells d [directory, .separate "alpha" "-1.e5", .help] (vector "-1.e5").tail := by
    refine ⟨?_, by decide, Or.inl (by decide)⟩
    have hnumber : NumberShaped "1.e5".toList := isNumberLike_iff.mp (by decide)
    have hstands : StandsAlone d "alpha" "-1.e5" :=
      Or.inr (Or.inr ⟨List.mem_cons_self, "1.e5".toList, by decide, hnumber⟩)
    have halpha : "alpha" ∈ d.valueNames := by decide
    simp only [List.forall_mem_cons, List.not_mem_nil, false_implies, implies_true]
    exact ⟨hlegal, ⟨halpha, hstands⟩, trivial, trivial⟩
  obtain ⟨haccepted, hrefused⟩ := separate_dash_converts d "driver"
  obtain ⟨-, hconverts⟩ := haccepted _ _ (parse_of_spells hspells)
  refine ⟨⟨_, parse_of_spells hspells, ?_⟩, ?_⟩
  · exact hconverts _ hspells "alpha" List.mem_cons_self "-1.e5" (by decide) (by decide) (by decide)
  · obtain ⟨-, hcases⟩ := hrefused (Utf8.encode "driver") [directory] "alpha" (Utf8.encode "-1.e")
      [Utf8.encode "--help"] (List.forall_mem_singleton.mpr hlegal) (by decide)
      List.mem_cons_self (by decide) (by decide)
    rcases hcases with ⟨text, htext, hnumber⟩ | (h | ⟨name, -, attached, h⟩) | h
    · obtain rfl := Utf8.encode_inj.mp htext
      exact absurd hnumber (by decide +kernel)
    · exact absurd h (by decide)
    · rw [encode_dashes] at h
      have hsecond : some 0x31 = some dash := congrArg (fun bytes : Bytes => bytes[1]?) h
      exact absurd hsecond (by decide)
    · exact h

end Schema

end PointDriver

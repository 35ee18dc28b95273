import Mathlib.Data.List.Nodup
import PointDriver.Proofs.Driver.FailFast

/-!
# Reading the values of a sweep point

When nothing is missing, the values are read in declaration order, wherever they
stood among the arguments. Either all of them are numbers, and the point has them
in that order, or the first declared one that is no number is the error.
-/

namespace PointDriver

/-- The number that a text stands for. Blanks around it are left out of account. -/
def number? (text : String) : Option Double := Double.read? (trim text.toList)

/-- One of the items gives the text as the value of the name. -/
def Supplied (items : List Item) (name text : String) : Prop :=
  ∃ i ∈ items, i.name = name ∧ i.value? = some text

namespace SweepPoint

/-- The value of a name that the point lists is the one listed with it. -/
theorem value?_map {dir : String} {names : List String} {value : String → Double} (name : String) :
    (SweepPoint.mk dir (names.map fun n => (n, value n))).value? name =
      if name ∈ names then some (value name) else none := by
  induction names with
  | nil => rfl
  | cons n names ih =>
      by_cases h : n = name
      · simp [value?, h]
      · have hne : ¬ name = n := fun he => h he.symm
        simpa [value?, h, hne] using ih

end SweepPoint

namespace Schema
variable {program : String} {d : Declaration} {items : List Item} {vector : List Bytes}

section Reading
variable {o : ParsedOptions} {names before after : List String} {name : String}
  {text : String → String} {value : String → Double}

theorem double_of_value? (h : o.value? name = some (text name)) :
    o.double name = match number? (text name) with
      | some x => .ok x
      | none => .error (.invalidDouble name (text name)) := by
  simp only [ParsedOptions.double, h]
  rfl

/-- What is read has the names in their order. -/
theorem map_fst_readValues {names : List String} {values : List (String × Double)}
    (h : readValues o names = .ok values) : values.map Prod.fst = names := by
  induction names generalizing values with
  | nil =>
      obtain rfl := Except.ok.inj h
      rfl
  | cons name rest ih =>
      rw [readValues] at h
      cases hx : o.double name with
      | error e =>
          rw [hx] at h
          cases h
      | ok x =>
          cases hrest : readValues o rest with
          | error e =>
              rw [hx, hrest] at h
              cases h
          | ok others =>
              rw [hx, hrest] at h
              obtain rfl := Except.ok.inj h
              rw [List.map_cons, ih hrest]

/-- Numbers are read in the order of their names. -/
theorem readValues_of_doubles (h : ∀ n ∈ names, o.double n = .ok (value n)) :
    readValues o names = .ok (names.map fun n => (n, value n)) := by
  induction names with
  | nil => rfl
  | cons name rest ih =>
      obtain ⟨hdouble, hdoubles⟩ := List.forall_mem_cons.mp h
      rw [readValues, hdouble, ih hdoubles]
      rfl

theorem readValues_of_numbers (hv : ∀ n ∈ names, o.value? n = some (text n))
    (hn : ∀ n ∈ names, number? (text n) = some (value n)) :
    readValues o names = .ok (names.map fun n => (n, value n)) := by
  refine readValues_of_doubles fun n hm => ?_
  rw [double_of_value? (hv n hm), hn n hm]

/-- Reading stops at the first text that is no number, whatever stands behind it. -/
theorem readValues_of_first (hv : ∀ n ∈ before ++ name :: after, o.value? n = some (text n))
    (hb : ∀ n ∈ before, (number? (text n)).isSome = true) (hn : number? (text name) = none) :
    readValues o (before ++ name :: after) = .error (.invalidDouble name (text name)) := by
  induction before with
  | nil =>
      rw [List.nil_append, readValues, double_of_value? (hv name (by simp)), hn]
      rfl
  | cons first before ih =>
      obtain ⟨hvalue, hvalues⟩ := List.forall_mem_cons.mp hv
      obtain ⟨hnumber, hnumbers⟩ := List.forall_mem_cons.mp hb
      obtain ⟨x, hx⟩ := Option.isSome_iff_exists.mp hnumber
      rw [List.cons_append, readValues, double_of_value? hvalue, hx, ih hvalues hnumbers]
      rfl

end Reading

/-- Each of these names has exactly one text. -/
theorem exists_texts (h : Spells d items vector.tail) (hhelp : .help ∉ items)
    (hall : ∀ n ∈ d.valueNames, n ∈ items.map Item.name) :
    ∃ text : String → String,
      ∀ n ∈ d.valueNames, ∀ value, Supplied items n value ↔ value = text n := by
  have hone : ∀ n ∈ d.valueNames, ∃ text, ∀ value, Supplied items n value ↔ value = text := by
    intro n hn
    obtain ⟨i, hi, rfl⟩ := List.mem_map.mp (hall n hn)
    obtain ⟨text, htext⟩ : ∃ text, i.value? = some text := by
      cases i with
      | help => exact absurd hi hhelp
      | attached name value => exact ⟨value, rfl⟩
      | separate name value => exact ⟨value, rfl⟩
    refine ⟨text, fun value => ⟨?_, ?_⟩⟩
    · rintro ⟨j, hj, hname, hvalue⟩
      rw [List.inj_on_of_nodup_map h.distinct hj hi hname, htext] at hvalue
      exact (Option.some.inj hvalue).symm
    · rintro rfl
      exact ⟨i, hi, rfl, htext⟩
  classical
  refine ⟨fun n => if hn : n ∈ d.valueNames then (hone n hn).choose else "", fun n hn => ?_⟩
  simpa [hn] using (hone n hn).choose_spec

/-- With everything present and no request for help, it comes down to reading the values. -/
theorem evaluate_of_present {o : ParsedOptions} {dir : String}
    (hparse : (ofDeclaration program d).parse vector = .ok o) (hhelp : o.help = false)
    (hpresent : ∀ n ∈ d.valueNames, o.isPresent n = true)
    (hdir : o.value? outputDirName = some dir) :
    (ofDeclaration program d).evaluate vector =
      (readValues o d.names).map fun values => .ready ⟨dir, values⟩ := by
  have hready : validate (ofDeclaration program d) o = .ready := by
    have hnone : d.names.find? (fun n => !o.isPresent n) = none :=
      List.find?_eq_none.mpr fun n hn => by simp [hpresent n (List.mem_cons_of_mem _ hn)]
    simp [validate_ofDeclaration, hhelp, hpresent _ List.mem_cons_self, hnone]
  rw [evaluate, hparse]
  simp only [bind, Except.bind, assess, hready, ParsedOptions.string, hdir, map_name_parameters]
  cases readValues o d.names <;> rfl

/-- With nothing missing and no request for help, it comes down to reading the values. -/
theorem evaluate_of_supplied (program : String) {text : String → String}
    (h : Spells d items vector.tail) (hhelp : .help ∉ items)
    (htext : ∀ n ∈ d.valueNames, Supplied items n (text n)) :
    ∃ o : ParsedOptions, (∀ n ∈ d.names, o.value? n = some (text n)) ∧
      (ofDeclaration program d).evaluate vector = (readValues o d.names).map fun values =>
        .ready ⟨text outputDirName, values⟩ := by
  let o := (ofDeclaration program d).collect (.settled (items.map Item.occurrence))
  have hvalue : ∀ n ∈ d.valueNames, o.value? n = some (text n) := fun n hn =>
    (value?_of_spells h).mpr (htext n hn)
  have hpresent : ∀ n ∈ d.valueNames, o.isPresent n = true := by
    intro n hn
    obtain ⟨i, hi, hname, -⟩ := htext n hn
    exact (isPresent_of_spells h).mpr ⟨i, hi, hname⟩
  have hnohelp : o.help = false := by
    rw [Bool.eq_false_iff]
    exact fun hasked => hhelp ((help_of_spells h).mp hasked)
  refine ⟨o, fun n hn => hvalue n (List.mem_cons_of_mem _ hn), ?_⟩
  exact evaluate_of_present (parse_of_spells h) hnohelp hpresent (hvalue _ List.mem_cons_self)

/-- Values are read in declaration order, and either all of them are taken or none. When every
text is a number, the point has the directory and for each parameter the number of its own text.
Otherwise the first declared parameter whose text is no number is the error, and a run writes
nothing. -/
theorem evaluate_in_order (d : Declaration) (program : String) (vector : List Bytes)
    (accepted : ∃ o, (ofDeclaration program d).parse vector = .ok o) :
    (∃ items, Spells d items vector.tail) ∧ ∀ items, Spells d items vector.tail →
      .help ∉ items → (∀ n ∈ d.valueNames, n ∈ items.map Item.name) →
      let s := ofDeclaration program d
      ∃ text : String → String,
        (∀ n ∈ d.valueNames, ∀ value, Supplied items n value ↔ value = text n) ∧
        ((∃ point, s.evaluate vector = .ok (.ready point)) ↔
          ∀ n ∈ d.names, (number? (text n)).isSome = true) ∧
        (∀ value : String → Double, (∀ n ∈ d.names, number? (text n) = some (value n)) →
          let point : SweepPoint := ⟨text outputDirName, d.names.map fun n => (n, value n)⟩
          s.evaluate vector = .ok (.ready point) ∧
            (∀ n ∈ d.names, point.value? n = some (value n)) ∧
            ∀ n, n ∉ d.names → point.value? n = none) ∧
        ∀ before name after, d.names = before ++ name :: after →
          (∀ n ∈ before, (number? (text n)).isSome = true) → number? (text name) = none →
          s.evaluate vector = .error (.invalidDouble name (text name)) ∧
            ∀ sink, s.run vector sink = (.error (.invalidDouble name (text name)), sink) := by
  obtain ⟨o, ho⟩ := accepted
  obtain ⟨spelled, hspelled, -⟩ := parse_eq_ok_iff.mp ho
  refine ⟨⟨spelled, hspelled⟩, fun items hi hhelp hall => ?_⟩
  intro s
  obtain ⟨text, htext⟩ := exists_texts hi hhelp hall
  obtain ⟨given, hgiven, heval⟩ := evaluate_of_supplied program hi hhelp
    fun n hn => (htext n hn (text n)).mpr rfl
  have hready : ∀ value : String → Double,
      (∀ n ∈ d.names, number? (text n) = some (value n)) → s.evaluate vector =
        .ok (.ready ⟨text outputDirName, d.names.map fun n => (n, value n)⟩) := by
    intro value hvalue
    rw [heval, readValues_of_numbers hgiven hvalue]
    rfl
  have herror : ∀ before name after, d.names = before ++ name :: after →
      (∀ n ∈ before, (number? (text n)).isSome = true) → number? (text name) = none →
      s.evaluate vector = .error (.invalidDouble name (text name)) := by
    intro before name after hd hb hn
    rw [hd] at hgiven
    rw [heval, hd, readValues_of_first hgiven hb hn]
    rfl
  refine ⟨text, htext, ⟨?_, ?_⟩, ?_, ?_⟩
  · rintro ⟨point, hpoint⟩
    by_contra hcon
    -- The first of the texts that are no numbers would be an error.
    have hsome : (d.names.find? fun n => (number? (text n)).isNone).isSome = true := by
      simpa using hcon
    obtain ⟨name, hname⟩ := Option.isSome_iff_exists.mp hsome
    obtain ⟨hnone, before, after, hd, hb⟩ := List.find?_eq_some_iff_append.mp hname
    have hfirst := herror before name after hd (by simpa using hb) (by simpa using hnone)
    rw [hpoint] at hfirst
    cases hfirst
  · intro hsome
    exact ⟨_, hready (fun n => (number? (text n)).getD default) fun n hn => by
      obtain ⟨x, hx⟩ := Option.isSome_iff_exists.mp (hsome n hn)
      simp [hx]⟩
  · intro value hvalue point
    refine ⟨hready value hvalue, ?_, ?_⟩
    · intro n hn
      rw [SweepPoint.value?_map, if_pos hn]
    · intro n hn
      rw [SweepPoint.value?_map, if_neg hn]
  · intro before name after hd hb hn
    have hfirst := herror before name after hd hb hn
    refine ⟨hfirst, fun sink => ?_⟩
    rw [run, hfirst]

/-- Of two texts that are no numbers, the one that is declared first is the error, as it was
given. -/
theorem evaluate_two_malformed :
    ∃ d : Declaration, d.names = ["beta", "alpha"] ∧
      (ofDeclaration "driver" d).evaluate [Utf8.encode "driver", Utf8.encode "--alpha=junk",
          Utf8.encode "--output_dir", Utf8.encode "o", Utf8.encode "--beta= 1x "] =
        .error (.invalidDouble "beta" " 1x ") := by
  let d : Declaration := ⟨["beta", "alpha"], by decide, by decide⟩
  let vector := [Utf8.encode "driver", Utf8.encode "--alpha=junk", Utf8.encode "--output_dir",
    Utf8.encode "o", Utf8.encode "--beta= 1x "]
  let items : List Item :=
    [.attached "alpha" "junk", .separate outputDirName "o", .attached "beta" " 1x "]
  have hspells : Spells d items vector.tail := by
    refine ⟨?_, by decide, Or.inl (by decide)⟩
    have halpha : "alpha" ∈ d.valueNames := by decide
    have hdir : outputDirName ∈ d.valueNames := by decide
    have hbeta : "beta" ∈ d.valueNames := by decide
    simp only [items, List.forall_mem_cons, List.not_mem_nil, false_implies, implies_true]
    exact ⟨halpha, ⟨hdir, Or.inl (by decide)⟩, hbeta, trivial⟩
  obtain ⟨-, hevaluate⟩ := evaluate_in_order d "driver" vector ⟨_, parse_of_spells hspells⟩
  obtain ⟨text, htext, -, -, herror⟩ := hevaluate items hspells (by decide) (by decide)
  have hbeta : text "beta" = " 1x " :=
    ((htext "beta" (by decide) _).mp ⟨.attached "beta" " 1x ", by decide, rfl, rfl⟩).symm
  obtain ⟨hfirst, -⟩ := herror [] "beta" ["alpha"] rfl (by simp) (by rw [hbeta]; decide +kernel)
  exact ⟨d, rfl, hbeta ▸ hfirst⟩

end Schema

end PointDriver

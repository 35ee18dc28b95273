import Mathlib.Tactic.NormNum
import PointDriver.Proofs.Double.PlainNumbers
import PointDriver.Proofs.Driver.Extraction

/-!
# Printed values

A report shows every value with six places. What it shows can be given back to
the driver, which then prints the same report, although the values themselves
may have changed. A number that was typed with at most six places is shown as
itself, as long as it is small enough.
-/

namespace PointDriver
open CommandLine

/-- An argument that attaches a value to an option is an item wherever it stands. -/
theorem Spells.attached_mem {d : Declaration} {items : List Item} {arguments : List Bytes}
    {name value : String} (h : Spells d items arguments) (hn : name ∈ d.valueNames)
    (hm : Utf8.encode ("--" ++ name ++ "=" ++ value) ∈ arguments) :
    .attached name value ∈ items := by
  have hword := Schema.ofBytes_attached (List.mem_cons_of_mem _ hn : name ∈ d.optionNames) value
  have hwords : Utf8.encode ("--" ++ name ++ "=" ++ value) ∈ items.flatMap Item.words := by
    rcases h.words with rfl | rfl
    · exact hm
    · refine (List.mem_append.mp hm).resolve_right fun hescape => ?_
      rw [List.mem_singleton.mp hescape] at hword
      cases hword
  obtain ⟨i, hi, hw⟩ := List.mem_flatMap.mp hwords
  have hlegal := h.legal i hi
  cases i with
  | help =>
      have hhelp : helpName ∈ d.optionNames := List.mem_cons_self
      rw [List.mem_singleton.mp hw, Schema.ofBytes_dashes hhelp] at hword
      simp at hword
  | attached other text =>
      have hother : other ∈ d.optionNames := Item.name_mem_optionNames hlegal
      rw [List.mem_singleton.mp hw, Schema.ofBytes_attached hother] at hword
      obtain ⟨hname, hvalue⟩ := Word.long.inj hword
      rwa [← Utf8.encode_inj.mp hname, ← Utf8.encode_inj.mp (Option.some.inj hvalue)]
  | separate other text =>
      obtain ⟨hother, hstands⟩ := hlegal
      rcases List.mem_cons.mp hw with hw | hw
      · rw [hw, Schema.ofBytes_dashes (List.mem_cons_of_mem _ hother)] at hword
        simp at hword
      · have hseparable := (Schema.separable_encode_iff hother).mpr hstands
        rw [← List.mem_singleton.mp hw, Separable, hword] at hseparable
        simp at hseparable

/-- What a report shows for each parameter. -/
def SweepPoint.shown (p : SweepPoint) : List (String × String) :=
  p.values.map fun v => (v.1, v.2.sixPlaces)

/-- The lines of a report: the directory, and then each name with what is shown for it. -/
def Report.text (dir : String) (shown : List (String × String)) : String :=
  outputDirLine dir ++ String.join (shown.map fun v => v.1 ++ ": " ++ v.2 ++ "\n")

theorem SweepPoint.text_eq (p : SweepPoint) : p.text = Report.text p.outputDir p.shown := by
  rw [SweepPoint.text, Report.text, shown, List.map_map]
  rfl

namespace Schema
variable {program : String} {d : Declaration} {vector : List Bytes} {o : ParsedOptions}

section Reading

/-- What an evaluation amounts to is what the parsed options amount to. -/
theorem exists_parse_of_evaluate {s : Schema} {evaluation : Evaluation}
    (h : s.evaluate vector = .ok evaluation) :
    ∃ o, s.parse vector = .ok o ∧ s.assess o = .ok evaluation := by
  rw [evaluate] at h
  cases hp : s.parse vector with
  | error e =>
      rw [hp] at h
      cases h
  | ok o =>
      rw [hp] at h
      exact ⟨o, rfl, h⟩

/-- A point has a value for each parameter in declaration order. -/
theorem names_of_ready {point : SweepPoint}
    (h : (ofDeclaration program d).evaluate vector = .ok (.ready point)) :
    point.values.map (·.1) = d.names := by
  obtain ⟨o, -, h⟩ := exists_parse_of_evaluate h
  unfold assess at h
  split at h
  · cases h
  · cases h
  · cases h
  rw [map_name_parameters] at h
  cases hdir : o.string outputDirName with
  | error e =>
      rw [hdir] at h
      cases h
  | ok dir =>
      cases hread : readValues o d.names with
      | error e =>
          rw [hdir, hread] at h
          cases h
      | ok values =>
          rw [hdir, hread] at h
          obtain rfl := Evaluation.ready.inj (Except.ok.inj h)
          exact map_fst_readValues hread

/-- Values that are given as they are shown are read as values that are shown the same. -/
theorem readValues_of_shown {values : List (String × Double)}
    (h : ∀ v ∈ values, o.value? v.1 = some v.2.sixPlaces) :
    ∃ others, readValues o (values.map (·.1)) = .ok others ∧
      others.map (fun v => (v.1, v.2.sixPlaces)) = values.map (fun v => (v.1, v.2.sixPlaces)) := by
  induction values with
  | nil => exact ⟨[], rfl, rfl⟩
  | cons v rest ih =>
      obtain ⟨hvalue, hvalues⟩ := List.forall_mem_cons.mp h
      obtain ⟨others, hothers, hshown⟩ := ih hvalues
      obtain ⟨y, hy, hprinted⟩ := PlainNumber.exists_read?_sixPlaces v.2
      refine ⟨(v.1, y) :: others, ?_, ?_⟩
      · have hdouble : o.double v.1 = .ok y := by simp only [ParsedOptions.double, hvalue, hy]
        rw [List.map_cons, readValues, hdouble, hothers]
        rfl
      · rw [List.map_cons, List.map_cons, hshown, hprinted]

end Reading

/-- The arguments that attach each value to its name. -/
def attachedWords (given : List (String × String)) : List Bytes :=
  given.map fun v => Utf8.encode ("--" ++ v.1 ++ "=" ++ v.2)

section Given
variable {given : List (String × String)}

/-- Arguments that attach a value to each option that takes one spell these items. -/
theorem spells_attachedWords (h : (given.map (·.1)).Perm d.valueNames) :
    Spells d (given.map fun v => .attached v.1 v.2) (attachedWords given) := by
  refine ⟨?_, ?_, Or.inl ?_⟩
  · simp only [List.forall_mem_map]
    exact fun v hv => h.mem_iff.mp (List.mem_map_of_mem hv)
  · rw [List.map_map]
    exact h.nodup_iff.mpr (List.nodup_cons.mp d.nodup_optionNames).2
  · rw [attachedWords, List.map_eq_flatMap, List.flatMap_map]
    rfl

/-- What a point shows can be given back in any order and is read as a point that shows the
same. -/
theorem evaluate_of_shown (program : String) {point : SweepPoint}
    (hnames : point.values.map (·.1) = d.names)
    (hgiven : given.Perm ((outputDirName, point.outputDir) :: point.shown)) (first : Bytes) :
    ∃ other : SweepPoint, (ofDeclaration program d).evaluate (first :: attachedWords given) =
        .ok (.ready other) ∧ other.outputDir = point.outputDir ∧ other.shown = point.shown := by
  have hshown : point.shown.map (·.1) = d.names := by
    rw [← hnames, SweepPoint.shown, List.map_map]
    rfl
  have hvalueNames : (given.map (·.1)).Perm d.valueNames := by
    have h := hgiven.map (·.1)
    rwa [List.map_cons, hshown] at h
  have hspells : Spells d _ (first :: attachedWords given).tail := spells_attachedWords hvalueNames
  let o := (ofDeclaration program d).collect
    (.settled ((given.map fun v => Item.attached v.1 v.2).map Item.occurrence))
  have hvalue : ∀ v ∈ (outputDirName, point.outputDir) :: point.shown,
      o.value? v.1 = some v.2 := by
    intro v hv
    refine (value?_of_spells hspells).mpr ⟨.attached v.1 v.2, ?_, rfl, rfl⟩
    exact List.mem_map.mpr ⟨v, hgiven.mem_iff.mpr hv, rfl⟩
  have hpresent : ∀ n ∈ d.valueNames, o.isPresent n = true := by
    intro n hn
    obtain ⟨v, hv, rfl⟩ := List.mem_map.mp (hvalueNames.mem_iff.mpr hn)
    exact (isPresent_of_spells hspells).mpr ⟨_, List.mem_map_of_mem hv, rfl⟩
  have hnohelp : o.help = false := by
    rw [Bool.eq_false_iff]
    intro hasked
    simpa using (help_of_spells hspells).mp hasked
  obtain ⟨hdir, hvalues⟩ := List.forall_mem_cons.mp hvalue
  have hread : ∀ v ∈ point.values, o.value? v.1 = some v.2.sixPlaces := fun v hv =>
    hvalues (v.1, v.2.sixPlaces) (List.mem_map_of_mem hv)
  obtain ⟨others, hothers, hsame⟩ := readValues_of_shown hread
  refine ⟨⟨point.outputDir, others⟩, ?_, rfl, hsame⟩
  rw [evaluate_of_present (parse_of_spells hspells) hnohelp hpresent hdir, ← hnames, hothers]
  rfl

end Given

/-- A run whose evaluation is ready prints the report about its point. -/
theorem run_of_ready {s : Schema} {point : SweepPoint}
    (h : s.evaluate vector = .ok (.ready point)) :
    s.run vector .unlimited =
      (.ok .success, ⟨Utf8.encode (Report.text point.outputDir point.shown), none, false⟩) := by
  rw [run_of_ok h, ← SweepPoint.text_eq]
  rfl

/-- What a run prints about a point is a fixed point: when the directory and the values are given
as they are printed, in any order, the evaluation is ready again, and the run prints the same
report into every sink. -/
theorem report_reprinted (d : Declaration) (program : String) (vector : List Bytes)
    (point : SweepPoint)
    (ready : (ofDeclaration program d).evaluate vector = .ok (.ready point)) :
    let s := ofDeclaration program d
    point.shown.map (·.1) = d.names ∧
      s.run vector .unlimited =
        (.ok .success, ⟨Utf8.encode (Report.text point.outputDir point.shown), none, false⟩) ∧
      ∀ (first : Bytes) (given : List (String × String)),
        given.Perm ((outputDirName, point.outputDir) :: point.shown) →
          let again := first :: given.map fun v => Utf8.encode ("--" ++ v.1 ++ "=" ++ v.2)
          (∃ other, s.evaluate again = .ok (.ready other)) ∧
            ∀ sink, s.run again sink = s.run vector sink := by
  intro s
  have hnames := names_of_ready ready
  refine ⟨?_, run_of_ready ready, fun first given hgiven => ?_⟩
  · rw [← hnames, SweepPoint.shown, List.map_map]
    rfl
  · obtain ⟨other, hother, hdir, hshown⟩ := evaluate_of_shown program hnames hgiven first
    have hagain : s.responseText (.ready other) = s.responseText (.ready point) := by
      simp only [responseText, SweepPoint.text_eq, hdir, hshown]
    refine ⟨⟨other, hother⟩, fun sink => ?_⟩
    rw [run_of_ok ready, ← hagain]
    exact run_of_ok hother sink

/-- A value that is printed as zero keeps its sign when the zero is given back. -/
theorem report_reprinted_negative_zero :
    let s := ofDeclaration "driver" (.single "alpha" (by decide))
    let vector := [Utf8.encode "driver", Utf8.encode "--output_dir=o", Utf8.encode "--alpha=-1e-7"]
    let again := [Utf8.encode "driver", Utf8.encode "--alpha=-0.000000",
      Utf8.encode "--output_dir=o"]
    (∃ point, s.evaluate vector = .ok (.ready point)) ∧
      (∃ other, s.evaluate again = .ok (.ready other)) ∧
        ∀ sink, s.run again sink = s.run vector sink := by
  intro s vector again
  let d : Declaration := .single "alpha" (by decide)
  let point : SweepPoint := ⟨"o", [("alpha", .ofBits 0xbe7ad7f29abcaf48)]⟩
  have hready : s.evaluate vector = .ok (.ready point) := by decide +kernel
  obtain ⟨-, -, hagain⟩ := report_reprinted d "driver" vector point hready
  have hgiven : [("alpha", "-0.000000"), (outputDirName, "o")].Perm
      ((outputDirName, point.outputDir) :: point.shown) := by decide +kernel
  exact ⟨⟨point, hready⟩, hagain (Utf8.encode "driver") _ hgiven⟩

/-- A number that is attached to its parameter with at most six places, and is less than 2^33, is
shown as the same number with six places, whatever the other values are. -/
theorem report_shows_typed (d : Declaration) (program : String) (vector : List Bytes)
    (o : ParsedOptions) (name : String) (t : PlainNumber)
    (accepted : (ofDeclaration program d).parse vector = .ok o) (nohelp : o.help = false)
    (complete : ∀ n ∈ d.valueNames, o.isPresent n = true) (declared : name ∈ d.names)
    (typed : Utf8.encode ("--" ++ name ++ "=" ++ t.text) ∈ vector.tail)
    (others : ∀ n ∈ d.names, n ≠ name → ∃ x, o.double n = .ok x)
    (short : t.places.length ≤ 6) (small : |t.value| < 8589934592) :
    ∃ (dir : String) (shown : String → String) (number : PlainNumber),
      o.value? outputDirName = some dir ∧
      (ofDeclaration program d).run vector .unlimited =
        (.ok .success,
          ⟨Utf8.encode (Report.text dir (d.names.map fun n => (n, shown n))), none, false⟩) ∧
      (∀ n ∈ d.names, ∃ x, o.double n = .ok x ∧ shown n = x.sixPlaces) ∧
      shown name = number.text ∧ number.places.length = 6 ∧ number.value = t.value := by
  obtain ⟨items, hspells, ho⟩ := parse_eq_ok_iff.mp accepted
  obtain ⟨x, hread, number, hprinted, hplaces, hvalue⟩ := t.sixPlaces_of_typed short small
  have hdouble : o.double name = .ok x := by
    have hitem : .attached name t.text ∈ items :=
      hspells.attached_mem (List.mem_cons_of_mem _ declared) typed
    have hgiven : o.value? name = some t.text := by
      rw [ho]
      exact (value?_of_spells hspells).mpr ⟨_, hitem, rfl, rfl⟩
    simp only [ParsedOptions.double, hgiven, hread]
  let value : String → Double := fun n => (o.double n).toOption.getD default
  have hdoubles : ∀ n ∈ d.names, o.double n = .ok (value n) := by
    intro n hn
    by_cases h : n = name
    · simp only [value, h, hdouble]
      rfl
    · obtain ⟨y, hy⟩ := others n hn h
      simp only [value, hy]
      rfl
  obtain ⟨dir, hdir⟩ : ∃ dir, o.value? outputDirName = some dir := by
    have hpresent := complete outputDirName List.mem_cons_self
    rw [ho] at hpresent ⊢
    exact (isPresent_collect_of_ne _ (by decide)).mp hpresent
  let point : SweepPoint := ⟨dir, d.names.map fun n => (n, value n)⟩
  have hready : (ofDeclaration program d).evaluate vector = .ok (.ready point) := by
    rw [evaluate_of_present accepted nohelp complete hdir, readValues_of_doubles hdoubles]
    rfl
  have hshown : point.shown = d.names.map fun n => (n, (value n).sixPlaces) := by
    rw [SweepPoint.shown, List.map_map]
    rfl
  have hname : value name = x := Except.ok.inj ((hdoubles name declared).symm.trans hdouble)
  refine ⟨dir, fun n => (value n).sixPlaces, number, hdir, ?_, ?_, ?_, hplaces, hvalue⟩
  · rw [run_of_ready hready, hshown]
  · exact fun n hn => ⟨value n, hdoubles n hn, rfl⟩
  · simp only [hname, hprinted]

/-- A number close to the limit is shown with five more places, next to a negative number in an
argument of its own. -/
theorem report_shows_typed_near_limit :
    let d : Declaration := ⟨["alpha", "beta"], by decide, by decide⟩
    let vector := [Utf8.encode "driver", Utf8.encode "--output_dir=o", Utf8.encode "--beta",
      Utf8.encode "-2", Utf8.encode "--alpha=-8589934591.9"]
    ∃ (shown : String → String) (number : PlainNumber),
      (ofDeclaration "driver" d).run vector .unlimited =
        (.ok .success, ⟨Utf8.encode (Report.text "o" [("alpha", shown "alpha"),
          ("beta", shown "beta")]), none, false⟩) ∧
      shown "alpha" = number.text ∧ number.places.length = 6 ∧
        number.value = -85899345919 / 10 := by
  intro d vector
  let o : ParsedOptions := ⟨["output_dir", "alpha", "beta"],
    [("output_dir", "o"), ("alpha", "-8589934591.9"), ("beta", "-2")]⟩
  let t : PlainNumber := ⟨some true, "8589934591".toList, some "9".toList,
    List.all_eq_true.mp (by decide), by decide⟩
  have hcount : t.count = 85899345919 := by decide
  have hplaces : t.places.length = 1 := rfl
  have hsmall : |t.value| < 8589934592 := by
    rw [t.abs_value, hcount, hplaces]
    norm_num
  have hothers : ∀ n ∈ d.names, n ≠ "alpha" → ∃ x, o.double n = .ok x := by
    intro n hn hne
    obtain rfl : n = "beta" := by simpa [d, hne] using hn
    exact ⟨.ofBits 0xc000000000000000, by decide +kernel⟩
  obtain ⟨dir, shown, number, hdir, hrun, -, hshown, hsix, hvalue⟩ :=
    report_shows_typed d "driver" vector o "alpha" t (by decide +kernel) (by decide)
      (by decide) (by decide) (by decide +kernel) hothers (by decide) hsmall
  obtain rfl : "o" = dir := Option.some.inj hdir
  refine ⟨shown, number, hrun, hshown, hsix, hvalue.trans ?_⟩
  have hnegative : t.negative = true := rfl
  rw [PlainNumber.value, hnegative, hcount, hplaces]
  norm_num

end Schema

end PointDriver

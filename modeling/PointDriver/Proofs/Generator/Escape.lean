import PointDriver.Generator.Invocation
import PointDriver.Proofs.CommandLine.Uses

/-!
# Arguments for a driver

Whatever stands behind the first two dashes reaches a driver as it is, further
dashes and words that mean something to the generator included. The arguments
before the dashes may be spelled in many ways. One spelling, with each value
attached to its option, is there for all that the command that runs a driver
can be asked for.
-/

namespace PointDriver.Generator

open CommandLine

section Passing
variable {arguments : List Bytes}

theorem driverArguments_encode (texts : List String) :
    driverArguments (texts.map Utf8.encode) = .ok texts := by
  have hdecoded : (texts.map Utf8.encode).mapM Utf8.decode? = some texts := by
    induction texts with
    | nil => rfl
    | cons text texts ih =>
        rw [List.map_cons, List.mapM_cons, Utf8.decode?_encode, ih]
        rfl
  rw [driverArguments, hdecoded]

/-- Dashes end the reading of a command, and the texts behind them are its driver's. -/
theorem readCommand_run (h : twoDashes ∉ arguments) (texts : List String) :
    readCommand .run (arguments ++ twoDashes :: texts.map Utf8.encode) =
      (scan (specs (commandOptions .run)) none .start arguments).bind fun s => match s.2 with
        | .word text _ => .error (.unknownArgument (Utf8.lossy text))
        | _ => s.1.settle.map fun r => (r, texts) := by
  simp only [readCommand, operandOf, scan_twoDashes h]
  cases hs : scan (specs (commandOptions .run)) none .start arguments with
  | error e => rfl
  | ok s =>
      obtain ⟨r, stop⟩ := s
      rcases scan_eq_ok h hs with rfl | ⟨text, rest, rfl, -⟩
      · have htexts := driverArguments_encode texts
        -- Dashes with nothing behind them take a branch of their own, to the same end.
        cases texts <;> cases hr : r.settle <;>
          simp_all [Except.map, Stop.before, bind, Except.bind, pure, Except.pure]
      · rfl

/-- What is read before the dashes does not depend on the texts behind them. -/
theorem readCommand_run_of_ok (h : twoDashes ∉ arguments) {r : Reading} {given : List String}
    (hr : readCommand .run (arguments ++ [twoDashes]) = .ok (r, given)) :
    given = [] ∧ ∀ texts, readCommand .run (arguments ++ twoDashes :: texts.map Utf8.encode) =
      .ok (r, texts) := by
  have hnone := readCommand_run h []
  rw [List.map_nil, hr] at hnone
  rcases hs : scan (specs (commandOptions .run)) none .start arguments with e | ⟨r', stop⟩
  · rw [hs] at hnone
    cases hnone
  · rw [hs] at hnone
    rcases scan_eq_ok h hs with rfl | ⟨text, rest, rfl, -⟩
    · cases hsettle : r'.settle with
      | error e => simp [Except.bind, hsettle, Except.map] at hnone
      | ok settled =>
          simp only [Except.bind, hsettle, Except.map, Except.ok.injEq, Prod.mk.injEq] at hnone
          obtain ⟨rfl, rfl⟩ := hnone
          refine ⟨rfl, fun texts => ?_⟩
          rw [readCommand_run h texts, hs]
          simp only [Except.bind, hsettle, Except.map]
    · cases hnone

theorem readInvocation_run (h : twoDashes ∉ arguments) {before : Reading} {i : Invocation}
    (hi : readInvocation before .run (arguments ++ [twoDashes]) = .ok i) :
    ∃ program, i.command = .run program [] ∧ ∀ texts,
      readInvocation before .run (arguments ++ twoDashes :: texts.map Utf8.encode) =
        .ok { i with command := .run program texts } := by
  rcases hr : readCommand .run (arguments ++ [twoDashes]) with e | ⟨r, given⟩
  · simp [readInvocation, hr, Except.mapError, bind, Except.bind] at hi
  · obtain ⟨rfl, htexts⟩ := readCommand_run_of_ok h hr
    cases hb : before.settle with
    | error e => simp [readInvocation, hr, hb, commandOf, Except.mapError, bind, Except.bind] at hi
    | ok settled =>
        simp only [readInvocation, hr, hb, commandOf, Except.mapError, bind, Except.bind, pure,
          Except.pure, Except.ok.injEq] at hi
        obtain rfl := hi
        refine ⟨textOf r programOption, rfl, fun texts => ?_⟩
        simp only [readInvocation, htexts texts, hb, commandOf, Except.mapError, bind, Except.bind,
          pure, Except.pure]

/-- Only the command that runs a driver has arguments for it. -/
theorem eq_run_of_readInvocation {before : Reading} {c : CommandName} {i : Invocation}
    {program : Option String} {given : List String}
    (hi : readInvocation before c arguments = .ok i) (hc : i.command = .run program given) :
    c = .run := by
  rcases hr : readCommand c arguments with e | ⟨r, texts⟩
  · simp [readInvocation, hr, Except.mapError, bind, Except.bind] at hi
  rcases hcommand : commandOf c r texts with e | command
  · simp [readInvocation, hr, hcommand, Except.mapError, bind, Except.bind] at hi
  cases hb : before.settle with
  | error e => simp [readInvocation, hr, hcommand, hb, Except.mapError, bind, Except.bind] at hi
  | ok settled =>
      simp only [readInvocation, hr, hcommand, hb, Except.mapError, bind, Except.bind, pure,
        Except.pure, Except.ok.injEq] at hi
      obtain rfl := hi
      obtain rfl : command = .run program given := hc
      cases c with
      | run => rfl
      | generate => simp [commandOf] at hcommand
      | schema => simp [commandOf] at hcommand
      | init =>
          rw [commandOf] at hcommand
          split at hcommand <;> cases hcommand

/-- Texts behind the first two dashes become the arguments of the driver, whatever they are. -/
theorem parse_twoDashes (h : twoDashes ∉ arguments) {i : Invocation} {program : Option String}
    (hp : parse (arguments ++ [twoDashes]) = .ok i) (hc : i.command = .run program [])
    (texts : List String) :
    parse (arguments ++ twoDashes :: texts.map Utf8.encode) =
      .ok { i with command := .run program texts } := by
  unfold parse at hp ⊢
  rw [scan_twoDashes h] at hp ⊢
  rcases hs : scan (specs programOptions) none .start arguments with e | ⟨r, stop⟩
  · rw [hs] at hp
    cases hp
  · rw [hs] at hp
    rcases scan_eq_ok h hs with rfl | ⟨word, rest, rfl, hrest⟩
    · cases hp
    · have hafter : twoDashes ∉ rest := fun hm => h (hrest.subset (List.mem_cons_of_mem _ hm))
      simp only [Except.map, Stop.before] at hp ⊢
      cases hword : Utf8.decode? word with
      | none => simp [hword] at hp
      | some text =>
          simp only [hword] at hp ⊢
          split at hp
          · cases hp
          · rw [if_neg ‹_›]
            cases hname : CommandName.ofWord? text with
            | none => simp [hname] at hp
            | some c =>
                simp only [hname] at hp ⊢
                obtain rfl := eq_run_of_readInvocation hp hc
                obtain ⟨given, hgiven, htexts⟩ := readInvocation_run hafter hp
                rw [hc] at hgiven
                cases hgiven
                exact htexts texts

end Passing

section Tables

/-- What can be checked of each option of a table. -/
theorem wellNamed_of_forall {table : List Spec}
    (h : ∀ s ∈ table, named? table s.name = some s ∧
      (Utf8.encode s.name ≠ [] ∧ equals ∉ Utf8.encode s.name) ∧
      s.letter.all (fun c => lettered? table c = some s ∧ c ≠ '-') = true) : WellNamed table := by
  have hletter : ∀ s ∈ table, ∀ c, s.letter = some c → lettered? table c = some s ∧ c ≠ '-' :=
    fun s hs c hc => by simpa [hc] using (h s hs).2.2
  exact {
    named := fun s hs => (h s hs).1
    unambiguous := fun s hs => (h s hs).2.1
    lettered := fun s hs c hc => (hletter s hs c hc).1
    visible := fun s hs c hc => (hletter s hs c hc).2 }

theorem wellNamed_programOptions : WellNamed (specs programOptions) :=
  wellNamed_of_forall (by decide +kernel)

theorem wellNamed_commandOptions (c : CommandName) : WellNamed (specs (commandOptions c)) := by
  cases c <;> exact wellNamed_of_forall (by decide +kernel)

theorem paramOption_mem (c : CommandName) : paramOption ∈ specs (commandOptions c) := by
  cases c <;> decide

end Tables

/-- What the command that runs a driver can be asked for. -/
structure RunLine where
  config : Option Path
  params : List String
  paramsFile : Option Path
  program : Option String

namespace RunLine

/-- The options that are given. -/
def given (l : RunLine) : List (Spec × Bytes) :=
  l.config.toList.map (configOption, ·) ++
    l.params.map (fun name => (paramOption, Utf8.encode name)) ++
    l.paramsFile.toList.map (paramsFileOption, ·) ++
    l.program.toList.map fun program => (programOption, Utf8.encode program)

/-- The arguments up to the dashes. -/
def arguments (l : RunLine) : List Bytes :=
  Utf8.encode CommandName.run.word :: attachedWords l.given

/-- Paths are not empty, and names have no commas. -/
structure IsLegal (l : RunLine) : Prop where
  config : l.config ≠ some []
  params : ∀ name ∈ l.params, ',' ∉ name.toList
  paramsFile : l.paramsFile ≠ some []

variable {l : RunLine}

theorem twoDashes_not_mem_arguments (l : RunLine) : twoDashes ∉ l.arguments := by
  intro h
  rcases List.mem_cons.mp h with h | h
  · exact absurd h (by decide)
  · exact twoDashes_not_mem_attachedWords l.given h

/-- The value of an option may be attached to it. -/
theorem legal_attached {s : Spec} {value : Bytes}
    (hs : s ∈ [configOption, paramOption, paramsFileOption, programOption])
    (hc : Reading.contentFault? s value = none) :
    (Use.value .nameEquals s value).Legal (specs (commandOptions .run)) none := by
  have hall : ∀ s ∈ [configOption, paramOption, paramsFileOption, programOption],
      s ∈ specs (commandOptions .run) ∧ (Reading.valueOf s).isSome := by decide
  obtain ⟨hmem, hvalue⟩ := hall s hs
  exact .value hmem hvalue hc trivial trivial

theorem contentFault?_path {s : Spec} {path : Bytes} (h : path ≠ [])
    (hs : (Reading.valueOf s).map Value.content = some .path) :
    Reading.contentFault? s path = none := by
  simp [Reading.contentFault?, hs, h]

theorem contentFault?_text {s : Spec}
    (hs : (Reading.valueOf s).map Value.content = some .text) (text : String) :
    Reading.contentFault? s (Utf8.encode text) = none := by
  simp [Reading.contentFault?, hs]

theorem legal_given (h : l.IsLegal) :
    ∀ g ∈ l.given, (Use.value .nameEquals g.1 g.2).Legal (specs (commandOptions .run)) none := by
  intro g hg
  simp only [given, List.mem_append, List.mem_map, Option.mem_toList] at hg
  rcases hg with ((⟨path, hpath, rfl⟩ | ⟨name, -, rfl⟩) | ⟨path, hpath, rfl⟩) | ⟨name, -, rfl⟩
  · refine legal_attached (by simp) (contentFault?_path ?_ rfl)
    rintro rfl
    exact h.config hpath
  · exact legal_attached (by simp) (contentFault?_text rfl name)
  · refine legal_attached (by simp) (contentFault?_path ?_ rfl)
    rintro rfl
    exact h.paramsFile hpath
  · exact legal_attached (by simp) (contentFault?_text rfl name)

/-- Only names of parameters are repeated. -/
theorem unrepeated_given (l : RunLine) : Unrepeated (l.given.map (·.1)) := by
  have hparam : Reading.mayRepeat paramOption = true := rfl
  have hnames : configOption.name ≠ paramsFileOption.name ∧
      configOption.name ≠ programOption.name ∧ paramOption.name ≠ paramsFileOption.name ∧
      paramOption.name ≠ programOption.name ∧ paramsFileOption.name ≠ programOption.name := by
    decide
  obtain ⟨config, params, paramsFile, program⟩ := l
  unfold Unrepeated
  cases config <;> cases paramsFile <;> cases program <;>
    simp [given, List.pairwise_append, List.map_const', List.pairwise_replicate, Function.comp_def,
      hparam, hnames, or_imp, forall_and]

theorem values_settled (given : List (Spec × Bytes)) (name : String) :
    (Reading.settled (occurrences given)).values name =
      (given.filter fun g => g.1.name == name).map (·.2) := by
  simp [Reading.values, Reading.settled, occurrences, List.filter_map, List.filterMap_map,
    Function.comp_def]

theorem values_group {α : Type} (s : Spec) (f : α → Bytes) (group : List α) (name : String) :
    ((group.map fun a => (s, f a)).filter fun g => g.1.name == name).map (·.2) =
      if s.name = name then group.map f else [] := by
  by_cases h : s.name = name
  · have hall : (group.map fun a => (s, f a)).filter (fun g => g.1.name == name) =
        group.map fun a => (s, f a) := by
      apply List.filter_eq_self.mpr
      simp [h]
    rw [hall, if_pos h, List.map_map]
    rfl
  · simp [List.filter_map, Function.comp_def, h]

/-- The values of an option are those of the groups that bear its name. -/
theorem values_given (l : RunLine) (name : String) :
    (Reading.settled (occurrences l.given)).values name =
      (if configOption.name = name then l.config.toList else []) ++
        (if paramOption.name = name then l.params.map Utf8.encode else []) ++
        (if paramsFileOption.name = name then l.paramsFile.toList else []) ++
        (if programOption.name = name then l.program.toList.map Utf8.encode else []) := by
  have hpaths := fun (s : Spec) (paths : List Path) => values_group s id paths name
  simp only [id, List.map_id] at hpaths
  simp only [values_settled, given, List.filter_append, List.map_append, values_group, hpaths]

theorem values_options (l : RunLine) :
    let r := Reading.settled (occurrences l.given)
    r.values configOption.name = l.config.toList ∧ r.values logLevelOption.name = [] ∧
      r.values paramOption.name = l.params.map Utf8.encode ∧
      r.values paramsFileOption.name = l.paramsFile.toList ∧
      r.values programOption.name = l.program.toList.map Utf8.encode := by
  simp [values_given, configOption, logLevelOption, paramOption, paramsFileOption, programOption,
    pathOption, textOption]

theorem splitCommas_of_not_mem {cs : List Char} (h : ',' ∉ cs) : splitCommas cs = [cs] := by
  induction cs with
  | nil => rfl
  | cons c cs ih =>
      obtain ⟨hc, hcs⟩ := not_or.mp (mt List.mem_cons.mpr h)
      simp [splitCommas, ih hcs, Ne.symm hc]

theorem paramsOf_eq {r : Reading} {names : List String}
    (hr : r.values paramOption.name = names.map Utf8.encode)
    (h : ∀ name ∈ names, ',' ∉ name.toList) : paramsOf r = names := by
  have htexts : (names.map Utf8.encode).filterMap Utf8.decode? = names := by
    simp only [List.filterMap_map, Function.comp_def, Utf8.decode?_encode, List.filterMap_some]
  rw [paramsOf, hr, htexts]
  clear hr htexts
  induction names with
  | nil => rfl
  | cons name names ih =>
      obtain ⟨hname, hnames⟩ := List.forall_mem_cons.mp h
      rw [List.flatMap_cons, ih hnames, splitCommas_of_not_mem hname]
      simp

/-- The options of a request are read, and nothing stands behind the dashes. -/
theorem readCommand_given (h : l.IsLegal) :
    readCommand .run (attachedWords l.given ++ [twoDashes]) =
      .ok (.settled (occurrences l.given), []) := by
  obtain ⟨r, hr, hscan⟩ := scan_attachedWords (wellNamed_commandOptions .run) (legal_given h)
    (unrepeated_given l) []
  have hread := readCommand_run (twoDashes_not_mem_attachedWords l.given) []
  rw [List.append_nil, show Reading.settled [] = .start from rfl] at hscan
  simp only [hscan, scan, Except.bind, hr.settle] at hread
  exact hread

/-- A request is read as it is meant. -/
theorem readInvocation_given (h : l.IsLegal) :
    readInvocation .start .run (attachedWords l.given ++ [twoDashes]) =
      .ok ⟨l.config, none, l.params, l.paramsFile, .run l.program []⟩ := by
  obtain ⟨hconfig, hlevel, hparams, hfile, hprogram⟩ := values_options l
  have hstart : Reading.start.settle = .ok .start := rfl
  have hnothing : ∀ name, Reading.start.values name = [] := fun _ => rfl
  simp only [readInvocation, readCommand_given h, commandOf, hstart, Except.mapError, bind,
    Except.bind, pure, Except.pure, pathOf, textOf, hconfig, hlevel, hfile, hprogram, hnothing,
    paramsOf_eq hparams h.params]
  cases l.config <;> cases l.paramsFile <;> cases l.program <;> simp

/-- The last of the arguments are the dashes, and the request is read as it is meant. -/
theorem parse_arguments (h : l.IsLegal) :
    parse (l.arguments ++ [twoDashes]) =
      .ok ⟨l.config, none, l.params, l.paramsFile, .run l.program []⟩ := by
  have hword : Word.ofBytes (Utf8.encode CommandName.run.word) = .plain := by decide +kernel
  have htext : Utf8.decode? (Utf8.encode CommandName.run.word) = some "run" :=
    Utf8.decode?_encode "run"
  have hname : CommandName.ofWord? "run" = some .run := by decide
  have hhelp : ("run" == helpWord) = false := by decide
  simp only [parse, arguments, List.cons_append, scan, hword, Reading.waiting?, Reading.start,
    Option.filter_none]
  simp only [htext, hhelp, hname]
  exact readInvocation_given h

end RunLine

end PointDriver.Generator
